import Savitools.Strings.Decimals

namespace Net.Addresses

open Strings.CodeUnits Strings.Decimals

/-- A number from 0 to 255 without leading zeros. -/
def octet (t : Text) : Option Nat :=
  if t ≠ [] ∧ t.length ≤ 3 ∧ t.all isDigit ∧ (t.length = 1 ∨ t.head? ≠ some (unit '0')) ∧ digitsValue t ≤ 255 then
    some (digitsValue t)
  else none

def dotted (a b c d : Nat) : Nat := ((a * 256 + b) * 256 + c) * 256 + d

/-- The number that four octets with dots between them denote. -/
def readIPv4 (t : Text) : Option Nat :=
  match split (unit '.') t with
  | [a, b, c, d] =>
      match octet a, octet b, octet c, octet d with
      | some a, some b, some c, some d => some (dotted a b c d)
      | _, _, _, _ => none
  | _ => none

/-- A group of one to four hexadecimal digits. -/
def hexGroup (t : Text) : Option Nat :=
  if t ≠ [] ∧ t.length ≤ 4 ∧ t.all isHexDigit then some (hexValue t) else none

/-- The groups of the parts between colons; the last part may be an IPv4 address, which is
two groups. -/
def readGroups : List Text → Option (List Nat)
  | [] => some []
  | [t] =>
      match readIPv4 t with
      | some v => some [v / 65536, v % 65536]
      | none => (hexGroup t).map (fun x => [x])
  | t :: t' :: ts =>
      match hexGroup t with
      | some x => (readGroups (t' :: ts)).map (x :: ·)
      | none => none

/-- What stands before and after the first two colons in a row. -/
def cutDouble : Text → Option (Text × Text)
  | [] => none
  | [_] => none
  | u :: v :: rest =>
      if u = unit ':' ∧ v = unit ':' then some ([], rest)
      else (cutDouble (v :: rest)).map (fun parts => (u :: parts.1, parts.2))

def parts (t : Text) : List Text := if t = [] then [] else split (unit ':') t

/-- The eight groups of an address without a zone. Two colons in a row, which may stand
once, are for one or more zero groups. -/
def readUnzoned (t : Text) : Option (List Nat) :=
  match cutDouble t with
  | none => (readGroups (split (unit ':') t)).filter (fun groups => groups.length = 8)
  | some (left, right) =>
      match (parts left).mapM hexGroup, readGroups (parts right) with
      | some front, some back =>
          if front.length + back.length < 8 then
            some (front ++ List.replicate (8 - front.length - back.length) 0 ++ back)
          else none
      | _, _ => none

def isZoneUnit (u : UInt16) : Bool :=
  isDigit u || between 'a' 'z' u || between 'A' 'Z' u || u == unit '-' || u == unit '.' || u == unit ':'

/-- The eight groups that an IPv6 text denotes. A zone after `%` does not count. -/
def readIPv6 (t : Text) : Option (List Nat) :=
  match t.dropWhile (fun u => u ≠ unit '%') with
  | [] => readUnzoned t
  | _ :: zone =>
      if zone ≠ [] ∧ zone.all isZoneUnit then readUnzoned (t.takeWhile (fun u => u ≠ unit '%')) else none

/-- `isIP` of Node's `net`: the version of the address that the text spells, or 0. -/
def isIP (t : Text) : Nat :=
  if (readIPv4 t).isSome then 4 else if (readIPv6 t).isSome then 6 else 0

inductive Address
  | v4 (value : Nat)
  | v6 (groups : List Nat)
deriving DecidableEq

/-- The address that a text denotes. -/
def denotes (t : Text) : Option Address :=
  match readIPv4 t with
  | some value => some (.v4 value)
  | none => (readIPv6 t).map .v6

theorem octet_eq_some {t : Text} {n : Nat} (h : octet t = some n) :
    t ≠ [] ∧ t.all isDigit = true ∧ digitsValue t = n ∧ n ≤ 255 := by
  rw [octet] at h
  split at h
  next hc => exact ⟨hc.1, hc.2.2.1, Option.some.inj h, Option.some.inj h ▸ hc.2.2.2.2⟩
  next => cases h

theorem readIPv4_eq_some {t : Text} {v : Nat} (h : readIPv4 t = some v) :
    ∃ a b c d w x y z, split (unit '.') t = [a, b, c, d] ∧ octet a = some w ∧ octet b = some x ∧ octet c = some y ∧
      octet d = some z ∧ v = dotted w x y z := by
  rw [readIPv4] at h
  split at h
  next a b c d hsplit =>
    split at h
    next w x y z hw hx hy hz => exact ⟨a, b, c, d, w, x, y, z, hsplit, hw, hx, hy, hz, (Option.some.inj h).symm⟩
    next => cases h
  next => cases h

theorem mem_of_readIPv4 {t : Text} {v : Nat} (h : readIPv4 t = some v) {u : UInt16} (hu : u ∈ t) :
    isDigit u = true ∨ u = unit '.' := by
  obtain ⟨a, b, c, d, w, x, y, z, hsplit, hw, hx, hy, hz, -⟩ := readIPv4_eq_some h
  have hjoin : [unit '.'].intercalate (split (unit '.') t) = t := List.intercalate_splitOn _
  have hpart : ∀ {part : Text} {n : Nat}, octet part = some n → u ∈ part → isDigit u = true := fun hpart hu =>
    List.all_eq_true.mp (octet_eq_some hpart).2.1 u hu
  rw [hsplit] at hjoin
  rw [← hjoin] at hu
  simp only [List.intercalate_cons_cons, List.intercalate_singleton, List.mem_append, List.mem_singleton] at hu
  rcases hu with (h | h) | (h | h) | (h | h) | h
  · exact .inl (hpart hw h)
  · exact .inr h
  · exact .inl (hpart hx h)
  · exact .inr h
  · exact .inl (hpart hy h)
  · exact .inr h
  · exact .inl (hpart hz h)

theorem hexGroup_eq_some {t : Text} {x : Nat} (h : hexGroup t = some x) :
    t ≠ [] ∧ t.length ≤ 4 ∧ t.all isHexDigit = true ∧ hexValue t = x := by
  rw [hexGroup] at h
  split at h
  next hc => exact ⟨hc.1, hc.2.1, hc.2.2, Option.some.inj h⟩
  next => cases h

theorem length_readGroups_singleton {t : Text} {groups : List Nat} (h : readGroups [t] = some groups) :
    groups.length ≤ 2 := by
  rw [readGroups] at h
  split at h
  next => rw [← Option.some.inj h]; exact Nat.le_refl 2
  next =>
    obtain ⟨x, -, rfl⟩ := Option.map_eq_some_iff.mp h
    exact Nat.le_succ 1

theorem readGroups_cons {t : Text} {ts : List Text} {groups : List Nat} (hts : ts ≠ [])
    (h : readGroups (t :: ts) = some groups) :
    ∃ x rest, hexGroup t = some x ∧ readGroups ts = some rest ∧ groups = x :: rest := by
  cases ts with
  | nil => exact absurd rfl hts
  | cons t' ts =>
      rw [readGroups] at h
      split at h
      next x hx =>
        obtain ⟨rest, hrest, rfl⟩ := Option.map_eq_some_iff.mp h
        exact ⟨x, rest, hx, hrest, rfl⟩
      next => cases h

theorem cutDouble_eq_some {t left right : Text} (h : cutDouble t = some (left, right)) :
    t = left ++ unit ':' :: unit ':' :: right := by
  induction t generalizing left with
  | nil => cases h
  | cons u t ih =>
      cases t with
      | nil => cases h
      | cons v rest =>
          rw [cutDouble] at h
          split at h
          next hc =>
            cases h
            rw [hc.1, hc.2, List.nil_append]
          next =>
            obtain ⟨⟨left', right'⟩, hcut, hparts⟩ := Option.map_eq_some_iff.mp h
            cases hparts
            rw [ih hcut]
            rfl

theorem mapM_hexGroup_cons {t : Text} {ts : List Text} {groups : List Nat}
    (h : (t :: ts).mapM hexGroup = some groups) : ∃ x rest, hexGroup t = some x ∧ groups = x :: rest := by
  rw [List.mapM_cons] at h
  obtain ⟨x, hx, h⟩ := Option.bind_eq_some_iff.mp h
  obtain ⟨rest, -, h⟩ := Option.bind_eq_some_iff.mp h
  exact ⟨x, rest, hx, (Option.some.inj h).symm⟩

/-- The first group of a text: it is zero when the text begins with a colon, and otherwise
what stands before the first colon. -/
def FirstGroup (t : Text) (groups : List Nat) : Prop :=
  (t.head? = some (unit ':') ∧ groups.head? = some 0) ∨
    ∃ h rest x, t = h ++ unit ':' :: rest ∧ unit ':' ∉ h ∧ hexGroup h = some x ∧ groups.head? = some x

theorem firstGroup_readUnzoned {t : Text} {groups : List Nat} (h : readUnzoned t = some groups) :
    groups.length = 8 ∧ FirstGroup t groups := by
  rw [readUnzoned] at h
  split at h
  next =>
    obtain ⟨hgroups, hlength⟩ := Option.filter_eq_some_iff.mp h
    have hlength := of_decide_eq_true hlength
    refine ⟨hlength, .inr ?_⟩
    by_cases hcolon : unit ':' ∈ t
    · obtain ⟨first, rest, rfl, hfirst⟩ := List.eq_append_cons_of_mem hcolon
      rw [split, List.splitOn_append_cons_self_of_not_mem hfirst] at hgroups
      obtain ⟨x, others, hx, -, rfl⟩ := readGroups_cons (List.splitOn_ne_nil _ _) hgroups
      exact ⟨first, rest, x, rfl, hfirst, hx, rfl⟩
    · rw [split, List.splitOn_eq_singleton hcolon] at hgroups
      have hle := length_readGroups_singleton hgroups
      omega
  next left right hcut =>
    obtain rfl := cutDouble_eq_some hcut
    split at h
    next front back hfront hback =>
      split at h
      next hshort =>
        obtain rfl := Option.some.inj h
        refine ⟨by simp; omega, ?_⟩
        cases left with
        | nil =>
            obtain rfl : front = [] := (Option.some.inj hfront).symm
            obtain ⟨zeros, hzeros⟩ : ∃ n, 8 - ([] : List Nat).length - back.length = n + 1 :=
              ⟨7 - back.length, by rw [List.length_nil] at hshort ⊢; omega⟩
            exact .inl ⟨rfl, by rw [hzeros]; rfl⟩
        | cons u left =>
            have hparts : parts (u :: left) = split (unit ':') (u :: left) := if_neg (List.cons_ne_nil _ _)
            rw [hparts] at hfront
            by_cases hcolon : unit ':' ∈ u :: left
            · obtain ⟨first, rest, hleft, hfirst⟩ := List.eq_append_cons_of_mem hcolon
              rw [hleft, split, List.splitOn_append_cons_self_of_not_mem hfirst] at hfront
              obtain ⟨x, others, hx, rfl⟩ := mapM_hexGroup_cons hfront
              exact .inr ⟨first, _, x, by rw [hleft, List.append_assoc, List.cons_append], hfirst, hx, rfl⟩
            · rw [split, List.splitOn_eq_singleton hcolon] at hfront
              obtain ⟨x, others, hx, rfl⟩ := mapM_hexGroup_cons hfront
              exact .inr ⟨u :: left, _, x, rfl, hcolon, hx, rfl⟩
      next => cases h
    next => cases h

theorem FirstGroup.append {t : Text} {groups : List Nat} (h : FirstGroup t groups) (rest : Text) :
    FirstGroup (t ++ rest) groups := by
  rcases h with ⟨hhead, hzero⟩ | ⟨first, others, x, rfl, hfirst, hx, hgroups⟩
  · refine .inl ⟨?_, hzero⟩
    rw [List.head?_append, hhead, Option.some_or]
  · exact .inr ⟨first, others ++ rest, x, by rw [List.append_assoc, List.cons_append], hfirst, hx, hgroups⟩

theorem firstGroup_readIPv6 {t : Text} {groups : List Nat} (h : readIPv6 t = some groups) :
    groups.length = 8 ∧ FirstGroup t groups := by
  rw [readIPv6] at h
  split at h
  next => exact firstGroup_readUnzoned h
  next =>
    split at h
    next =>
      obtain ⟨hlength, hfirst⟩ := firstGroup_readUnzoned h
      have hsplit := hfirst.append (t.dropWhile (fun u => u ≠ unit '%'))
      rw [List.takeWhile_append_dropWhile] at hsplit
      exact ⟨hlength, hsplit⟩
    next => cases h

/-- A text without a zone that begins with two colons. -/
theorem readIPv6_of_double {right : Text} (hzone : unit '%' ∉ right) :
    readIPv6 (unit ':' :: unit ':' :: right) =
      (readGroups (parts right)).bind (fun back =>
        if back.length < 8 then some (List.replicate (8 - back.length) 0 ++ back) else none) := by
  have hdrop : (unit ':' :: unit ':' :: right).dropWhile (fun u => u ≠ unit '%') = [] := by
    have hall : ∀ u ∈ unit ':' :: unit ':' :: right, decide (u ≠ unit '%') = true := by
      simp only [List.forall_mem_cons]
      exact ⟨by decide, by decide, fun u hu => decide_eq_true (fun h => hzone (h ▸ hu))⟩
    rw [← List.append_nil (unit ':' :: unit ':' :: right), List.dropWhile_append_of_pos hall]
    rfl
  have hcut : cutDouble (unit ':' :: unit ':' :: right) = some ([], right) := if_pos ⟨rfl, rfl⟩
  rw [readIPv6, hdrop]
  simp only [readUnzoned, hcut]
  cases readGroups (parts right) with
  | none => rfl
  | some back => simp [parts]

end Net.Addresses
