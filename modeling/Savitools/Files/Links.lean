import Mathlib.Data.List.Basic
import Savitools.Strings.CodeUnits

namespace Files.PosixPaths

open Strings.CodeUnits

def slash : UInt16 := unit '/'

def isAbsolute (path : Text) : Bool := path.head? == some slash

/-- The parts that stay when `.` and `..` are worked off from left to right. -/
def normalizeParts (allowAboveRoot : Bool) : List Text → List Text → List Text
  | done, [] => done
  | done, part :: parts =>
      if part = [] ∨ part = text "." then normalizeParts allowAboveRoot done parts
      else if part = text ".." then
        if done ≠ [] ∧ done.getLast? ≠ some (text "..") then normalizeParts allowAboveRoot done.dropLast parts
        else if allowAboveRoot then normalizeParts allowAboveRoot (done ++ [part]) parts
        else normalizeParts allowAboveRoot done parts
      else normalizeParts allowAboveRoot (done ++ [part]) parts

def normalize (path : Text) : Text :=
  if path = [] then text "."
  else
    let trailing := path.getLast? = some slash
    let normalized := join slash (normalizeParts (!isAbsolute path) [] (split slash path))
    if normalized = [] then
      if isAbsolute path then text "/" else if trailing then text "./" else text "."
    else
      (if isAbsolute path then [slash] else []) ++ normalized ++ (if trailing then [slash] else [])

/-- The parts of the absolute path that a path stands for in a directory. -/
def resolve (directory : List Text) (path : Text) : List Text :=
  normalizeParts false (if isAbsolute path then [] else directory) (split slash path)

/-- The parts that two paths do not have in common. -/
def apart : List Text → List Text → List Text × List Text
  | a :: as, b :: bs => if a = b then apart as bs else (a :: as, b :: bs)
  | as, bs => (as, bs)

def relative (source target : List Text) : Text :=
  join slash ((apart source target).1.map (fun _ => text "..") ++ (apart source target).2)

theorem apart_append (source target : List Text) :
    ∃ common, source = common ++ (apart source target).1 ∧ target = common ++ (apart source target).2 := by
  fun_induction apart source target with
  | case1 as b bs ih =>
      obtain ⟨common, hsource, htarget⟩ := ih
      exact ⟨b :: common, congrArg (b :: ·) hsource, congrArg (b :: ·) htarget⟩
  | case2 a as b bs hne => exact ⟨[], rfl, rfl⟩
  | case3 as bs hne => exact ⟨[], rfl, rfl⟩

/-- A relative path that does not begin with two dots leads below the directory. -/
theorem below_of_relative {source target : List Text} (h : ¬text ".." <+: relative source target) :
    ∃ names, target = source ++ names := by
  obtain ⟨common, hsource, htarget⟩ := apart_append source target
  cases hleft : (apart source target).1 with
  | nil =>
      rw [hleft, List.append_nil] at hsource
      rw [← hsource] at htarget
      exact ⟨_, htarget⟩
  | cons part parts =>
      refine absurd ?_ h
      rw [relative, hleft, List.map_cons, List.cons_append]
      generalize parts.map (fun _ => text "..") ++ (apart source target).2 = rest
      cases rest with
      | nil => exact ⟨[], rfl⟩
      | cons next rest => exact ⟨slash :: join slash (next :: rest), rfl⟩

end Files.PosixPaths

namespace Files.Links

/-- One part of a path: the same directory, the one above, or what stands there under a name. -/
inductive Move (Name : Type)
  | stay
  | up
  | down (name : Name)
deriving DecidableEq

/-- A link is followed from the root or from the directory it stands in. -/
inductive Entry (Name Content : Type)
  | file (content : Content)
  | directory
  | link (absolute : Bool) (target : List (Move Name))
deriving DecidableEq

/-- What stands at each place, a place being named from the root without links. -/
abbrev Tree (Name Content : Type) := List Name → Option (Entry Name Content)

variable {Name Content : Type}

def Entry.isDirectory : Entry Name Content → Bool
  | .directory => true
  | _ => false

def Entry.isLink : Entry Name Content → Bool
  | .link _ _ => true
  | _ => false

def isDirectory (tree : Tree Name Content) (place : List Name) : Bool := (tree place).any Entry.isDirectory

/-- Goes on from a place, up to the next link. -/
def walkWith (tree : Tree Name Content) (follow : List Name → List (Move Name) → Option (List Name)) :
    List Name → List (Move Name) → Option (List Name)
  | place, [] => some place
  | place, move :: moves =>
      if isDirectory tree place then
        match move with
        | .stay => walkWith tree follow place moves
        | .up => walkWith tree follow place.dropLast moves
        | .down name =>
            match tree (place ++ [name]) with
            | none => none
            | some (.link absolute target) => follow (if absolute then [] else place) (target ++ moves)
            | some _ => walkWith tree follow (place ++ [name]) moves
      else none

/-- The place that is reached when so many links may be followed. -/
def walk (tree : Tree Name Content) : Nat → List Name → List (Move Name) → Option (List Name)
  | 0 => walkWith tree fun _ _ => none
  | links + 1 => walkWith tree (walk tree links)

def maxLinks : Nat := 40

def realPath (tree : Tree Name Content) (names : List Name) : Option (List Name) :=
  walk tree maxLinks [] (names.map .down)

/-- What stands at a path when only the links before its last name are followed. -/
def lstat (tree : Tree Name Content) (names : List Name) : Option (Entry Name Content) :=
  match names.getLast? with
  | none => tree []
  | some name => (realPath tree names.dropLast).bind fun place =>
      if isDirectory tree place then tree (place ++ [name]) else none

theorem lstat_concat (tree : Tree Name Content) (names : List Name) (name : Name) :
    lstat tree (names ++ [name]) =
      (realPath tree names).bind fun place => if isDirectory tree place then tree (place ++ [name]) else none := by
  simp only [lstat, List.getLast?_concat, List.dropLast_concat]

section

variable {tree : Tree Name Content} {follow : List Name → List (Move Name) → Option (List Name)} {place : List Name}

theorem walkWith_not_directory {move : Move Name} {moves : List (Move Name)} (h : isDirectory tree place = false) :
    walkWith tree follow place (move :: moves) = none := by
  cases move <;> rw [walkWith, if_neg (ne_true_of_eq_false h)]

theorem walkWith_stay {moves : List (Move Name)} (h : isDirectory tree place = true) :
    walkWith tree follow place (.stay :: moves) = walkWith tree follow place moves := by
  rw [walkWith, if_pos h]

theorem walkWith_up {moves : List (Move Name)} (h : isDirectory tree place = true) :
    walkWith tree follow place (.up :: moves) = walkWith tree follow place.dropLast moves := by
  rw [walkWith, if_pos h]

theorem walkWith_missing {name : Name} {moves : List (Move Name)} (h : tree (place ++ [name]) = none) :
    walkWith tree follow place (.down name :: moves) = none := by
  rw [walkWith, h]
  exact ite_self none

theorem walkWith_link {name : Name} {moves target : List (Move Name)} {absolute : Bool}
    (h : isDirectory tree place = true) (hentry : tree (place ++ [name]) = some (.link absolute target)) :
    walkWith tree follow place (.down name :: moves) = follow (if absolute then [] else place) (target ++ moves) := by
  rw [walkWith, if_pos h, hentry]

theorem walkWith_down {name : Name} {moves : List (Move Name)} {entry : Entry Name Content}
    (h : isDirectory tree place = true) (hentry : tree (place ++ [name]) = some entry) (hlink : entry.isLink = false) :
    walkWith tree follow place (.down name :: moves) = walkWith tree follow (place ++ [name]) moves := by
  rw [walkWith, if_pos h, hentry]
  cases entry with
  | file content => rfl
  | directory => rfl
  | link absolute target => cases hlink

end

/-- The last name of a walk, when no link stands under it. -/
def Last (tree : Tree Name Content) (name : Name) (before after : Option (List Name)) : Prop :=
  ∀ place, before = some place → ∀ entry, isDirectory tree place = true → tree (place ++ [name]) = some entry →
    entry.isLink = false → after = some (place ++ [name])

theorem walkWith_last {tree : Tree Name Content} {name : Name} {follow : List Name → List (Move Name) → Option (List Name)}
    (hfollow : ∀ place moves, Last tree name (follow place moves) (follow place (moves ++ [.down name])))
    (moves : List (Move Name)) : ∀ place,
      Last tree name (walkWith tree follow place moves) (walkWith tree follow place (moves ++ [.down name])) := by
  induction moves with
  | nil =>
      intro place _ hplace entry hdir hentry hlink
      obtain rfl := Option.some.inj hplace
      exact walkWith_down hdir hentry hlink
  | cons move moves ih =>
      intro place
      cases hdir : isDirectory tree place with
      | false =>
          intro _ hnone
          rw [walkWith_not_directory hdir] at hnone
          cases hnone
      | true =>
          rw [List.cons_append]
          cases move with
          | stay =>
              rw [walkWith_stay hdir, walkWith_stay hdir]
              exact ih place
          | up =>
              rw [walkWith_up hdir, walkWith_up hdir]
              exact ih _
          | down next =>
              cases hentry : tree (place ++ [next]) with
              | none =>
                  intro _ hnone
                  rw [walkWith_missing hentry] at hnone
                  cases hnone
              | some entry =>
                  cases hlink : entry.isLink with
                  | false =>
                      rw [walkWith_down hdir hentry hlink, walkWith_down hdir hentry hlink]
                      exact ih _
                  | true =>
                      cases entry with
                      | file content => cases hlink
                      | directory => cases hlink
                      | link absolute target =>
                          rw [walkWith_link hdir hentry, walkWith_link hdir hentry, ← List.append_assoc]
                          exact hfollow _ _

theorem walk_last {tree : Tree Name Content} {name : Name} (links : Nat) :
    ∀ place moves, Last tree name (walk tree links place moves) (walk tree links place (moves ++ [.down name])) := by
  induction links with
  | zero => exact fun place moves => walkWith_last (fun _ _ _ hnone => by cases hnone) moves place
  | succ links ih => exact fun place moves => walkWith_last ih moves place

/-- A name under which no link stands is its own last name: the real path ends in it. -/
theorem realPath_concat {tree : Tree Name Content} {names place : List Name} {name : Name} {entry : Entry Name Content}
    (hplace : realPath tree names = some place) (hdir : isDirectory tree place = true)
    (hentry : tree (place ++ [name]) = some entry) (hlink : entry.isLink = false) :
    realPath tree (names ++ [name]) = some (place ++ [name]) := by
  rw [realPath, List.map_append]
  exact walk_last maxLinks [] _ place hplace entry hdir hentry hlink

theorem lstat_eq_some {tree : Tree Name Content} {names : List Name} {name : Name} {entry : Entry Name Content}
    (h : lstat tree (names ++ [name]) = some entry) :
    ∃ place, realPath tree names = some place ∧ isDirectory tree place = true ∧ tree (place ++ [name]) = some entry := by
  rw [lstat_concat] at h
  obtain ⟨place, hplace, hentry⟩ := Option.bind_eq_some_iff.mp h
  split at hentry
  next hdir => exact ⟨place, hplace, hdir, hentry⟩
  next => cases hentry

end Files.Links
