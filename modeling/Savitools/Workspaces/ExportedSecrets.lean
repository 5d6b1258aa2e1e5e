import Savitools.Common.SecretTexts
import Savitools.Web.WorkspaceFormat
import Savitools.Workspaces.SecretFilters

namespace Savitools.Workspaces.ExportedSecrets

open Strings.CodeUnits Strings.Replace Json.Numbers Json.Values Common.Redaction Common.RedactedValues
open SecretFilters Sanitizer Web.WorkspaceFormat

/-- The scheme, blanks and the units of a credential. -/
def HasBearerShape (t : Text) : Prop :=
  ∃ scheme blanks credential, scheme.map toLowerAscii = text "bearer" ∧ blanks ≠ [] ∧ (∀ u ∈ blanks, isSpace u = true) ∧
    credential ≠ [] ∧ (∀ u ∈ credential, isBearerUnit u = true) ∧ t = scheme ++ blanks ++ credential

/-- What counts as a JWT and as a bearer token, each of which has the shape of one. -/
structure SecretKinds where
  IsToken : Text → Prop
  IsBearer : Text → Prop
  token_shape : ∀ t, IsToken t → IsJwt t
  bearer_shape : ∀ t, IsBearer t → HasBearerShape t

variable (kinds : SecretKinds) (fromXDR : Text → Option Nat)

def Tokenless (t : Text) : Prop :=
  Free kinds.IsToken t ∧ Free kinds.IsBearer t ∧ Free (fun part => isSignedTransactionEnvelope fromXDR part = true) t

/-- A text without a seed, a token, a bearer token or a signed envelope in it. -/
def Harmless (t : Text) : Prop := Free IsSeed t ∧ Tokenless kinds fromXDR t

section

variable {N : Type}

mutual

/-- Every string and every name of a member within a value. -/
def Every (p : Text → Prop) : Value N → Prop
  | .str t => p t
  | .arr items => EveryItem p items
  | .obj fields => EveryField p fields
  | .null | .bool _ | .num _ => True

def EveryItem (p : Text → Prop) : List (Value N) → Prop
  | [] => True
  | item :: items => Every p item ∧ EveryItem p items

def EveryField (p : Text → Prop) : List (Text × Value N) → Prop
  | [] => True
  | (k, v) :: fields => p k ∧ Every p v ∧ EveryField p fields

end

variable (beyondAscii : Text → Text) (dropped : Text → Bool)

def isDroppedValue : Value N → Bool
  | .str t => dropped t
  | _ => false

mutual

/-- A value of which only harmless texts are kept: its strings are dropped or harmless but for
seeds, which are replaced, and the names of the members that are kept are harmless. -/
def Spotless : Value N → Prop
  | .str t => dropped t = true ∨ Tokenless kinds fromXDR (redactSeeds t)
  | .arr items => SpotlessItems items
  | .obj fields => SpotlessFields fields
  | .null | .bool _ | .num _ => True

def SpotlessItems : List (Value N) → Prop
  | [] => True
  | item :: items => Spotless item ∧ SpotlessItems items

def SpotlessFields : List (Text × Value N) → Prop
  | [] => True
  | (k, v) :: fields =>
      (isLeftOut beyondAscii k = true ∨ isDroppedValue dropped v = true ∨ Harmless kinds fromXDR k ∧ Spotless v) ∧
        SpotlessFields fields

end

theorem free_seed_redactSeeds (t : Text) : Free IsSeed (redactSeeds t) := by
  rw [redactSeeds]
  split
  next =>
    rw [redacted_eq]
    exact free_replaceFrom recognises_seed avoids_seed (redacted_eq ▸ clean_redacted.2) 0 t
  next hseed =>
    intro w hw hp
    obtain ⟨before, after, rfl⟩ := hw
    refine hseed (List.any_eq_true.mpr ⟨w ++ after, ?_, ?_⟩)
    · rw [List.mem_tails, List.append_assoc]
      exact List.suffix_append _ _
    · refine Option.isSome_iff_ne_none.mpr fun hnone => ?_
      exact (recognises_seed _).mp hnone w (List.prefix_append _ _) hp

theorem harmless_redactSeeds {t : Text} : Harmless kinds fromXDR (redactSeeds t) ↔ Tokenless kinds fromXDR (redactSeeds t) :=
  and_iff_right (free_seed_redactSeeds t)

variable {kinds fromXDR beyondAscii dropped} {dropsEmpty : Bool}

variable (dropsEmpty) in
theorem cleanValue_eq_none {v : Value N} : cleanValue beyondAscii dropped dropsEmpty v = none ↔ isDroppedValue dropped v = true := by
  cases v with
  | str t =>
      rw [cleanValue, isDroppedValue]
      split <;> simp [*]
  | _ => simp [cleanValue, isDroppedValue]

theorem every_of_isEmptyObject {p : Text → Prop} {v : Value N} (h : isEmptyObject v = true) : Every p v := by
  cases v with
  | obj fields =>
      cases fields with
      | nil => trivial
      | cons field fields => cases h
  | _ => cases h

theorem every_kept_iff {p : Text → Prop} {v : Value N} {items : List (Value N)} :
    EveryItem p (if dropsEmpty && isEmptyObject v then items else v :: items) ↔ Every p v ∧ EveryItem p items := by
  split
  next hempty => exact (and_iff_right (every_of_isEmptyObject (Bool.and_eq_true_iff.mp hempty).2)).symm
  next => exact Iff.rfl

mutual

theorem cleanValue_harmless_iff (v : Value N) :
    (∀ w ∈ cleanValue beyondAscii dropped dropsEmpty v, Every (Harmless kinds fromXDR) w) ↔
      Spotless kinds fromXDR beyondAscii dropped v := by
  cases v with
  | str t =>
      rw [cleanValue, Spotless]
      split
      next hdropped => simp [hdropped]
      next hkept => simp [hkept, Every, harmless_redactSeeds]
  | arr items => simpa [cleanValue, Spotless, Every] using cleanItems_harmless_iff items
  | obj fields => simpa [cleanValue, Spotless, Every] using cleanFields_harmless_iff fields
  | null => simp [cleanValue, Spotless, Every]
  | bool b => simp [cleanValue, Spotless, Every]
  | num n => simp [cleanValue, Spotless, Every]

theorem cleanItems_harmless_iff (items : List (Value N)) :
    EveryItem (Harmless kinds fromXDR) (cleanItems beyondAscii dropped dropsEmpty items) ↔
      SpotlessItems kinds fromXDR beyondAscii dropped items := by
  cases items with
  | nil => exact Iff.rfl
  | cons item items =>
      have hitem := cleanValue_harmless_iff item
      have hitems := cleanItems_harmless_iff items
      rw [cleanItems, SpotlessItems, ← hitem, ← hitems]
      cases cleanValue beyondAscii dropped dropsEmpty item with
      | none => simp
      | some v =>
          simp only [Option.mem_some_iff, forall_eq']
          exact every_kept_iff

theorem cleanFields_harmless_iff (fields : List (Text × Value N)) :
    EveryField (Harmless kinds fromXDR) (cleanFields beyondAscii dropped dropsEmpty fields) ↔
      SpotlessFields kinds fromXDR beyondAscii dropped fields := by
  match fields with
  | [] => exact Iff.rfl
  | (k, v) :: fields =>
      have hv := cleanValue_harmless_iff v
      have hfields := cleanFields_harmless_iff fields
      rw [cleanFields, SpotlessFields, ← hfields, ← hv, ← cleanValue_eq_none dropsEmpty]
      by_cases hout : isLeftOut beyondAscii k = true
      · simp [hout]
      · cases cleanValue beyondAscii dropped dropsEmpty v with
        | none => simp [hout]
        | some w => simp [hout, EveryField, and_assoc]

end

theorem every_append {p : Text → Prop} {fields others : List (Text × Value N)} :
    EveryField p (fields ++ others) ↔ EveryField p fields ∧ EveryField p others := by
  induction fields with
  | nil => rw [List.nil_append, EveryField, true_and]
  | cons field fields ih =>
      obtain ⟨k, v⟩ := field
      rw [List.cons_append, EveryField, EveryField, ih, and_assoc, and_assoc]

end

section

variable {kinds fromXDR}

theorem length_of_isSigned {t : Text} (h : isSignedTransactionEnvelope fromXDR t = true) : 20 ≤ t.length := by
  rw [isSignedTransactionEnvelope] at h
  split at h
  next => cases h
  next hlong => exact Nat.not_lt.mp hlong

/-- A short text without dots and blanks. -/
theorem harmless_short {t : Text} (hlength : t.length < 20) (hdot : unit '.' ∉ t) (hblank : ∀ u ∈ t, isSpace u = false) :
    Harmless kinds fromXDR t := by
  refine ⟨free_of_length length_of_isSeed (Nat.lt_trans hlength (by decide)),
    free_of_mem (fun w hw => dot_mem_of_isJwt w (kinds.token_shape w hw)) hdot, fun w hw hp => ?_, fun w hw hp => ?_⟩
  · obtain ⟨scheme, blanks, credential, -, hne, hblanks, -, -, rfl⟩ := kinds.bearer_shape w hp
    obtain ⟨u, hu⟩ := List.exists_mem_of_ne_nil blanks hne
    have hmem : u ∈ t := hw.subset (List.mem_append_left _ (List.mem_append_right _ hu))
    exact Bool.false_ne_true ((hblank u hmem).symm.trans (hblanks u hu))
  · have hle := Nat.le_trans (length_of_isSigned hp) hw.length_le
    omega

def memberNames : List Text :=
  [text "formatVersion", text "composerState", text "operations", text "id", text "ownerId", text "name", text "createdAt",
    text "updatedAt"]

theorem harmless_memberName {name : Text} (hname : name ∈ memberNames) : Harmless kinds fromXDR name := by
  have hall : ∀ name ∈ memberNames, name.length < 20 ∧ unit '.' ∉ name ∧ name.any isSpace = false := by decide
  obtain ⟨hlength, hdot, hblank⟩ := hall name hname
  exact harmless_short hlength hdot fun u hu => Bool.eq_false_iff.mpr (List.any_eq_false.mp hblank u hu)

theorem every_optionalMember {name : Text} (hname : name ∈ memberNames) {value : Option Text} :
    EveryField (Harmless kinds fromXDR) (optionalMember name value) ↔ ∀ t ∈ value, Harmless kinds fromXDR t := by
  cases value with
  | none => simp [optionalMember, EveryField]
  | some t => simp [optionalMember, EveryField, Every, harmless_memberName hname]

end

/-- The parts of a file that are sanitized are spotless, and the others are harmless as they are. -/
structure SpotlessFile (beyondAscii : Text → Text) (file : WorkspaceFileInput) : Prop where
  composerState : SpotlessFields kinds fromXDR beyondAscii isSecretString file.composerState
  operations : SpotlessItems kinds fromXDR beyondAscii isSecretString file.operations
  id : ∀ t ∈ file.id, Harmless kinds fromXDR t
  ownerId : ∀ t ∈ file.ownerId, Harmless kinds fromXDR t
  name : ∀ t ∈ file.name, Harmless kinds fromXDR t
  createdAt : ∀ t ∈ file.createdAt, Harmless kinds fromXDR t
  updatedAt : ∀ t ∈ file.updatedAt, Harmless kinds fromXDR t

theorem exportedFile_harmless_iff (beyondAscii : Text → Text) (file : WorkspaceFileInput) :
    Every (Harmless kinds fromXDR) (exportedFile beyondAscii file) ↔ SpotlessFile kinds fromXDR beyondAscii file := by
  have hname {name : Text} (h : name ∈ memberNames) : Harmless kinds fromXDR name := harmless_memberName h
  rw [exportedFile, Every, every_append, every_append, every_append, every_append, every_append,
    every_optionalMember (by decide), every_optionalMember (by decide), every_optionalMember (by decide),
    every_optionalMember (by decide), every_optionalMember (by decide)]
  simp only [sanitizeWorkspacePayload, cleanValue, Option.getD_some, EveryField, Every, and_true,
    hname (by decide : text "formatVersion" ∈ memberNames), hname (by decide : text "composerState" ∈ memberNames),
    hname (by decide : text "operations" ∈ memberNames), true_and, cleanItems_harmless_iff, cleanFields_harmless_iff]
  constructor
  · rintro ⟨⟨⟨⟨⟨⟨hstate, hoperations⟩, hid⟩, howner⟩, hfile⟩, hcreated⟩, hupdated⟩
    exact ⟨hstate, hoperations, hid, howner, hfile, hcreated, hupdated⟩
  · rintro ⟨hstate, hoperations, hid, howner, hfile, hcreated, hupdated⟩
    exact ⟨⟨⟨⟨⟨⟨hstate, hoperations⟩, hid⟩, howner⟩, hfile⟩, hcreated⟩, hupdated⟩

theorem sanitized_harmless_iff {N : Type} (beyondAscii : Text → Text) (data : List (Text × Value N)) :
    Every (Harmless kinds fromXDR) (sanitizeWorkspaceData fromXDR beyondAscii data).sanitized ↔
      SpotlessFields kinds fromXDR beyondAscii (isDropped fromXDR) data := by
  rw [sanitizeWorkspaceData, deepClean, cleanValue, Option.getD_some, Every, cleanFields_harmless_iff]

/-- The exported file and the sanitized data hold no secret exactly when what they keep of a workspace is harmless. -/
theorem exports_harmless_iff (beyondAscii : Text → Text) (file : WorkspaceFileInput) (data : List (Text × Value Number)) :
    (Every (Harmless kinds fromXDR) (exportedFile beyondAscii file) ↔ SpotlessFile kinds fromXDR beyondAscii file) ∧
      (Every (Harmless kinds fromXDR) (sanitizeWorkspaceData fromXDR beyondAscii data).sanitized ↔
        SpotlessFields kinds fromXDR beyondAscii (isDropped fromXDR) data) :=
  ⟨exportedFile_harmless_iff kinds fromXDR beyondAscii file, sanitized_harmless_iff kinds fromXDR beyondAscii data⟩

/-- Every text with the shape of a token counts as one. -/
def shapes : SecretKinds := ⟨IsJwt, HasBearerShape, fun _ h => h, fun _ h => h⟩

def secretSeed : Text := text "SCWJZEYCUCR4DTJVHNCKLLTD3FK7YRIY7RRAU5B2H7PB22IWCIFISPHE"

/-- A workspace without operations that is named after its seed. -/
def namedFile : WorkspaceFileInput := ⟨none, none, some secretSeed, [], [], none, none⟩

/-- A memo with a token in it. -/
def memoData : List (Text × Value Number) := [(text "memo", .str (text "jwt " ++ Common.SecretTexts.anchorToken))]

theorem not_exports_harmless : ¬Every (Harmless shapes fun _ => none) (exportedFile id namedFile) ∧
    ¬Every (Harmless shapes fun _ => none) (sanitizeWorkspaceData (fun _ => none) id memoData).sanitized := by
  constructor
  · intro h
    have hname := ((exportedFile_harmless_iff _ _ _ _).mp h).name secretSeed rfl
    have hunits : secretSeed.tail.all isSeedUnit = true := by decide
    have hseed : IsSeed secretSeed := ⟨secretSeed.tail, by decide, List.all_eq_true.mp hunits, by decide⟩
    exact hname.1 secretSeed List.infix_rfl hseed
  · intro h
    have hcleaned : (sanitizeWorkspaceData (fun _ => none) id memoData).sanitized = .obj memoData := by rfl
    rw [hcleaned, memoData, Every, EveryField] at h
    exact h.2.1.2.1 Common.SecretTexts.anchorToken (List.suffix_append _ _).isInfix Common.SecretTexts.isJwt_anchorToken

end Savitools.Workspaces.ExportedSecrets
