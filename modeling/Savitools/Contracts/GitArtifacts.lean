import Mathlib.Data.List.Infix
import Savitools.Files.Links
import Savitools.Strings.Utf8

namespace Savitools.Contracts.GitArtifacts

open Strings.CodeUnits Strings.Utf8 Files.Links Files.PosixPaths

abbrev Name := List (BitVec 8)

/-- Of a file that cannot be read, the message of the exception. -/
abbrev Content := Except Text (List (BitVec 8))

inductive GitError
  | badRequest (message : Text)
  | notFound (message : Text)
  | badGateway (message : Text)
deriving DecidableEq

/-- Names in the file system are bytes. -/
def placeOf (parts : List Text) : List Name := parts.map textEncode

/-- What the service finds around it: the check of the repository's URL, the git commands (with
the message of one that fails) and the files as they are after the checkout. -/
structure World where
  assertSafeGitRepoUrl : Text → Except GitError Text
  cwd : List Text
  tempDir : Text
  execFile : List Text → Option Text
  tree : Tree Name Content
  root : List Name
  /-- The temporary directory has been made. -/
  made : realPath tree (placeOf (resolve cwd tempDir)) = some root ∧ isDirectory tree root = true

def isLetter (u : UInt16) : Bool := between 'a' 'z' u || between 'A' 'Z' u

/-- `/^[a-zA-Z]:/` -/
def hasDrive : Text → Bool
  | u :: v :: _ => isLetter u && v == unit ':'
  | _ => false

def assertArtifactPathInsideCheckout (artifactPath : Text) : Except GitError Text :=
  if artifactPath = [] ∨ (trim artifactPath).length = 0 then .error (.badRequest (text "WASM artifact path is required"))
  else if isAbsolute artifactPath ∨ artifactPath.head? = some (unit '\\') ∨ hasDrive artifactPath then
    .error (.badRequest (text "WASM artifact path must be relative"))
  else
    let normalized := normalize artifactPath
    if normalized = text ".." ∨ text "../" <+: normalized then
      .error (.badRequest (text "WASM artifact path escapes the checkout directory"))
    else .ok normalized

def gitMissing : GitError :=
  .badRequest (text "Git is not installed in this environment; Git-based WASM import is unavailable")

def execGitCommand (w : World) (args : List Text) : Except GitError Unit :=
  match w.execFile args with
  | none => .ok ()
  | some message =>
      if text "ENOENT" <:+: message then .error gitMissing
      else .error (.badRequest (text "Git command failed: " ++ message))

def checkoutRoot (w : World) : List Text := resolve w.cwd w.tempDir

/-- A path with a zero in it is not looked up. -/
def existsSync (w : World) (parts : List Text) : Bool :=
  parts.all (fun part => !part.contains 0) && (realPath w.tree (placeOf parts)).isSome

def resolveArtifactInsideCheckout (w : World) (normalizedArtifactPath : Text) : Except GitError (List Text) :=
  let resolved := resolve (checkoutRoot w) normalizedArtifactPath
  let relative := relative (checkoutRoot w) resolved
  if text ".." <+: relative ∨ isAbsolute relative then
    .error (.badRequest (text "WASM artifact path escapes the temporary checkout directory"))
  else if existsSync w resolved = false then
    .error (.notFound (text "WASM artifact not found at path " ++ normalizedArtifactPath ++ text " in repository"))
  else
    match lstat w.tree (placeOf resolved) with
    | some (.file _) => .ok resolved
    | some _ => .error (.badRequest (text "WASM artifact is not a regular file"))
    | none => .error gitMissing

/-- The bytes of an artifact, and the real path of the file they are from. -/
structure Artifact where
  source : List Name
  bytes : List (BitVec 8)
deriving DecidableEq

def fetchFailed (message : Text) : GitError :=
  .badRequest (text "Failed to fetch WASM from Git repository: " ++ message)

def readFileSync (w : World) (parts : List Text) : Except GitError Artifact :=
  match realPath w.tree (placeOf parts) with
  | none => .error gitMissing
  | some source =>
      match w.tree source with
      | some (.file (.ok bytes)) => .ok ⟨source, bytes⟩
      | some (.file (.error message)) => .error (fetchFailed message)
      | _ => .error (fetchFailed (text "EISDIR: illegal operation on a directory, read"))

/-- Up to the checkout, with the path of the artifact. -/
def checkout (w : World) (gitRepoUrl artifactPath : Text) : Except GitError Text := do
  let repoUrl ← w.assertSafeGitRepoUrl gitRepoUrl
  let normalizedArtifactPath ← assertArtifactPathInsideCheckout artifactPath
  execGitCommand w [text "clone", text "--depth", text "1", text "--no-checkout", repoUrl, text "."]
  execGitCommand w [text "sparse-checkout", text "init", text "--cone"]
  execGitCommand w [text "sparse-checkout", text "set", normalizedArtifactPath]
  execGitCommand w [text "checkout"]
  return normalizedArtifactPath

def fetchWasmFromGitDirect (w : World) (gitRepoUrl artifactPath : Text) : Except GitError Artifact := do
  let normalizedArtifactPath ← checkout w gitRepoUrl artifactPath
  let fullArtifactPath ← resolveArtifactInsideCheckout w normalizedArtifactPath
  readFileSync w fullArtifactPath

end Savitools.Contracts.GitArtifacts

namespace Savitools.Contracts.ArtifactPaths

open Strings.CodeUnits Strings.Utf8 Files.Links Files.PosixPaths GitArtifacts

/-- The real path of a file that is read is inside the checkout. -/
def ArtifactInside (w : World) (gitRepoUrl artifactPath : Text) : Prop :=
  ∀ artifact, fetchWasmFromGitDirect w gitRepoUrl artifactPath = .ok artifact → w.root <+: artifact.source

/-- The path at which a file is looked for, when the commands and the checks of the path have
passed. -/
structure Requested (w : World) (gitRepoUrl artifactPath : Text) (parts : List Text) : Prop where
  resolved : ∃ normalized, checkout w gitRepoUrl artifactPath = .ok normalized ∧
    parts = resolve (checkoutRoot w) normalized
  below : ¬(text ".." <+: relative (checkoutRoot w) parts ∨ isAbsolute (relative (checkoutRoot w) parts) = true)
  plain : parts.all (fun part => !part.contains 0) = true

/-- A file that can be read stands under a name in a directory. -/
def Holds (w : World) (place : List Name) (name : Text) : Prop :=
  isDirectory w.tree place = true ∧ ∃ bytes, w.tree (place ++ [textEncode name]) = some (.file (.ok bytes))

theorem placeOf_concat (parts : List Text) (part : Text) : placeOf (parts ++ [part]) = placeOf parts ++ [textEncode part] :=
  List.map_append

theorem resolveArtifact_eq_ok {w : World} {normalized : Text} {parts : List Text} :
    resolveArtifactInsideCheckout w normalized = .ok parts ↔
      parts = resolve (checkoutRoot w) normalized ∧
        ¬(text ".." <+: relative (checkoutRoot w) parts ∨ isAbsolute (relative (checkoutRoot w) parts) = true) ∧
        existsSync w parts = true ∧ ∃ content, lstat w.tree (placeOf parts) = some (.file content) := by
  simp only [resolveArtifactInsideCheckout]
  generalize hresolved : resolve (checkoutRoot w) normalized = resolved
  constructor
  · intro h
    split at h
    next => cases h
    next hbelow =>
      split at h
      next => cases h
      next hexists =>
        split at h
        next content hstat =>
          obtain rfl := Except.ok.inj h
          exact ⟨rfl, hbelow, Bool.not_eq_false _ ▸ hexists, content, hstat⟩
        next => cases h
        next => cases h
  · rintro ⟨rfl, hbelow, hexists, content, hstat⟩
    rw [if_neg hbelow, if_neg (Bool.not_eq_false _ ▸ hexists), hstat]

theorem readFileSync_eq_ok {w : World} {parts : List Text} {artifact : Artifact} :
    readFileSync w parts = .ok artifact ↔
      realPath w.tree (placeOf parts) = some artifact.source ∧ w.tree artifact.source = some (.file (.ok artifact.bytes)) := by
  rw [readFileSync]
  constructor
  · intro h
    split at h
    next => cases h
    next source hsource =>
      split at h
      next bytes hfile =>
        obtain rfl := Except.ok.inj h
        exact ⟨hsource, hfile⟩
      next => cases h
      next => cases h
  · rintro ⟨hsource, hfile⟩
    rw [hsource]
    simp only [hfile]

theorem fetch_eq_ok {w : World} {gitRepoUrl artifactPath : Text} {artifact : Artifact} :
    fetchWasmFromGitDirect w gitRepoUrl artifactPath = .ok artifact ↔
      ∃ parts, Requested w gitRepoUrl artifactPath parts ∧
        (∃ content, lstat w.tree (placeOf parts) = some (.file content)) ∧
        realPath w.tree (placeOf parts) = some artifact.source ∧ w.tree artifact.source = some (.file (.ok artifact.bytes)) := by
  rw [fetchWasmFromGitDirect]
  constructor
  · intro h
    cases hcheckout : checkout w gitRepoUrl artifactPath with
    | error e =>
        rw [hcheckout] at h
        cases h
    | ok normalized =>
        cases hresolve : resolveArtifactInsideCheckout w normalized with
        | error e =>
            rw [hcheckout] at h
            simp only [bind, Except.bind, hresolve] at h
            cases h
        | ok parts =>
            rw [hcheckout] at h
            simp only [bind, Except.bind, hresolve] at h
            obtain ⟨hparts, hbelow, hexists, hstat⟩ := resolveArtifact_eq_ok.mp hresolve
            rw [existsSync, Bool.and_eq_true] at hexists
            exact ⟨parts, ⟨⟨normalized, hcheckout, hparts⟩, hbelow, hexists.1⟩, hstat, readFileSync_eq_ok.mp h⟩
  · rintro ⟨parts, ⟨⟨normalized, hcheckout, hparts⟩, hbelow, hplain⟩, hstat, hreal, hfile⟩
    have hexists : existsSync w parts = true := by
      rw [existsSync, hplain, hreal]
      rfl
    have hresolve := resolveArtifact_eq_ok.mpr ⟨hparts, hbelow, hexists, hstat⟩
    simp only [hcheckout, bind, Except.bind, hresolve]
    exact readFileSync_eq_ok.mpr ⟨hreal, hfile⟩

/-- The file that is read stands where the directories of the path lead. -/
theorem source_eq {w : World} {parts : List Text} {part : Text} {place : List Name} {entry : Entry Name Content}
    (hplace : realPath w.tree (placeOf parts) = some place) (hdir : isDirectory w.tree place = true)
    (hentry : w.tree (place ++ [textEncode part]) = some entry) (hlink : entry.isLink = false) :
    realPath w.tree (placeOf (parts ++ [part])) = some (place ++ [textEncode part]) := by
  rw [placeOf_concat]
  exact realPath_concat hplace hdir hentry hlink

/-- A file below the root is in a directory that is the root or below it. -/
theorem inside_iff {w : World} {place : List Name} {name : Name} {content : Content}
    (hfile : w.tree (place ++ [name]) = some (.file content)) : w.root <+: place ++ [name] ↔ w.root <+: place := by
  rw [List.prefix_concat_iff]
  refine or_iff_right fun hroot => ?_
  have hdir := w.made.2
  rw [hroot, isDirectory, hfile] at hdir
  cases hdir

theorem root_of_requested_nil {w : World} {gitRepoUrl artifactPath : Text} (h : Requested w gitRepoUrl artifactPath []) :
    w.root = [] := by
  obtain ⟨names, hnames⟩ := below_of_relative (not_or.mp h.below).1
  have hroot : realPath w.tree (placeOf (checkoutRoot w)) = some w.root := w.made.1
  rw [(List.append_eq_nil_iff.mp hnames.symm).1] at hroot
  exact (Option.some.inj hroot).symm

/-- What is read is inside exactly when the directories of the path do not lead out of the
checkout to one that holds a file of the last name. -/
theorem artifact_inside_iff (w : World) (gitRepoUrl artifactPath : Text) :
    ArtifactInside w gitRepoUrl artifactPath ↔
      ∀ parts name, Requested w gitRepoUrl artifactPath (parts ++ [name]) →
        ∀ place, realPath w.tree (placeOf parts) = some place → Holds w place name → w.root <+: place := by
  constructor
  · intro h parts name hrequested place hplace ⟨hdir, bytes, hfile⟩
    have hreal := source_eq hplace hdir hfile rfl
    have hstat : lstat w.tree (placeOf (parts ++ [name])) = some (.file (.ok bytes)) := by
      rw [placeOf_concat, lstat_concat, hplace, Option.bind_some, if_pos hdir, hfile]
    exact (inside_iff hfile).mp (h ⟨_, bytes⟩ (fetch_eq_ok.mpr ⟨_, hrequested, ⟨_, hstat⟩, hreal, hfile⟩))
  · intro h artifact hfetch
    obtain ⟨parts, hrequested, ⟨content, hstat⟩, hreal, hfile⟩ := fetch_eq_ok.mp hfetch
    rcases List.eq_nil_or_concat parts with rfl | ⟨names, name, hparts⟩
    · rw [root_of_requested_nil hrequested]
      exact List.nil_prefix
    · rw [List.concat_eq_append] at hparts
      rw [hparts] at hrequested hstat hreal
      rw [placeOf_concat] at hstat
      obtain ⟨place, hplace, hdir, hentry⟩ := lstat_eq_some hstat
      have hsource := source_eq hplace hdir hentry rfl
      rw [hreal] at hsource
      rw [Option.some.inj hsource] at hfile ⊢
      exact (inside_iff hfile).mpr (h names name hrequested place hplace ⟨hdir, _, hfile⟩)

/-- In the checkout a link leads to the directory `/etc`. -/
def hostileTree : Tree Name Content := fun place =>
  [([], .directory), ([text "etc"], .directory), ([text "etc", text "passwd"], .file (.ok (textEncode (text "root:x:0:0")))),
    ([text "tmp"], .directory), ([text "tmp", text "savitools-git-Xa4fQz"], .directory),
    ([text "tmp", text "savitools-git-Xa4fQz", text "link"], .link true [.down (textEncode (text "etc"))])].lookup
    (place.map fun name => name.map fun b => b.toNat.toUInt16)

def hostileWorld : World where
  assertSafeGitRepoUrl := .ok
  cwd := [text "app"]
  tempDir := text "/tmp/savitools-git-Xa4fQz"
  execFile := fun _ => none
  tree := hostileTree
  root := placeOf [text "tmp", text "savitools-git-Xa4fQz"]
  made := by decide +kernel

theorem not_artifact_inside :
    fetchWasmFromGitDirect hostileWorld (text "https://github.com/team/contract.git") (text "link/passwd") =
        .ok ⟨placeOf [text "etc", text "passwd"], textEncode (text "root:x:0:0")⟩ ∧
      ¬ArtifactInside hostileWorld (text "https://github.com/team/contract.git") (text "link/passwd") := by
  have hfetch : fetchWasmFromGitDirect hostileWorld (text "https://github.com/team/contract.git") (text "link/passwd") =
      .ok ⟨placeOf [text "etc", text "passwd"], textEncode (text "root:x:0:0")⟩ := by decide +kernel
  refine ⟨hfetch, fun h => absurd (h _ hfetch) ?_⟩
  decide +kernel

end Savitools.Contracts.ArtifactPaths
