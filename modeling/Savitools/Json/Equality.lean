import Mathlib.Data.List.Perm.Subperm
import Savitools.Json.Values
import Savitools.Stores.Entries

namespace Json.Equality

open Strings.CodeUnits Json.Values Stores.Entries

variable {N : Type}

/-- Induction along a value, with what is inside an array or an object. -/
theorem value_induction {P : Value N → Prop} (null : P .null) (bool : ∀ b, P (.bool b)) (num : ∀ n, P (.num n))
    (str : ∀ t, P (.str t)) (arr : ∀ items, (∀ v ∈ items, P v) → P (.arr items))
    (obj : ∀ fields, (∀ f ∈ fields, P f.2) → P (.obj fields)) (v : Value N) : P v :=
  match v with
  | .null => null
  | .bool b => bool b
  | .num n => num n
  | .str t => str t
  | .arr items => arr items fun v hv =>
      have := List.sizeOf_lt_of_mem hv
      value_induction null bool num str arr obj v
  | .obj fields => obj fields fun f hf =>
      have := List.sizeOf_lt_of_mem hf
      have : sizeOf f.2 < sizeOf f := by
        cases f
        simp only [Prod.mk.sizeOf_spec]
        omega
      value_induction null bool num str arr obj f.2

mutual

/-- No object has a key twice. -/
def Distinct : Value N → Prop
  | .arr items => DistinctItems items
  | .obj fields => (fields.map Prod.fst).Nodup ∧ DistinctFields fields
  | _ => True

def DistinctItems : List (Value N) → Prop
  | [] => True
  | v :: items => Distinct v ∧ DistinctItems items

def DistinctFields : List (Text × Value N) → Prop
  | [] => True
  | (_, v) :: fields => Distinct v ∧ DistinctFields fields

end

mutual

/-- Two values are the same up to the order of the members of their objects. -/
def Same : Value N → Value N → Prop
  | .null, .null => True
  | .bool a, .bool b => a = b
  | .num a, .num b => a = b
  | .str a, .str b => a = b
  | .arr items, .arr others => SameItems items others
  | .obj fields, .obj others =>
      (∀ key, key ∈ fields.map Prod.fst ↔ key ∈ others.map Prod.fst) ∧ SameFields fields others
  | _, _ => False

def SameItems : List (Value N) → List (Value N) → Prop
  | [], [] => True
  | v :: items, w :: others => Same v w ∧ SameItems items others
  | _, _ => False

def SameFields : List (Text × Value N) → List (Text × Value N) → Prop
  | [], _ => True
  | (key, v) :: fields, others => (∃ w, others.lookup key = some w ∧ Same v w) ∧ SameFields fields others

end

theorem distinctItems_iff {items : List (Value N)} : DistinctItems items ↔ ∀ v ∈ items, Distinct v := by
  induction items with
  | nil => simp [DistinctItems]
  | cons v items ih => rw [DistinctItems, ih, List.forall_mem_cons]

theorem distinctFields_iff {fields : List (Text × Value N)} : DistinctFields fields ↔ ∀ f ∈ fields, Distinct f.2 := by
  induction fields with
  | nil => simp [DistinctFields]
  | cons f fields ih => rw [DistinctFields, ih, List.forall_mem_cons]

theorem sameItems_iff {items others : List (Value N)} : SameItems items others ↔ List.Forall₂ Same items others := by
  induction items generalizing others with
  | nil => cases others <;> simp [SameItems]
  | cons v items ih => cases others <;> simp [SameItems, ih]

theorem sameFields_iff {fields others : List (Text × Value N)} :
    SameFields fields others ↔ ∀ f ∈ fields, ∃ w, others.lookup f.1 = some w ∧ Same f.2 w := by
  induction fields with
  | nil => simp [SameFields]
  | cons f fields ih => rw [SameFields, ih, List.forall_mem_cons]

theorem distinct_of_lookup {fields : List (Text × Value N)} (h : DistinctFields fields) {key : Text} {v : Value N}
    (hv : fields.lookup key = some v) : Distinct v :=
  distinctFields_iff.mp h (key, v) (mem_of_lookup hv)

/-- Of two objects of one size, where one has all keys of the other both have the same keys. -/
theorem keys_iff {fields others : List (Text × Value N)} (hnodup : (fields.map Prod.fst).Nodup)
    (hlength : fields.length = others.length) (hkeys : ∀ key ∈ fields.map Prod.fst, key ∈ others.map Prod.fst) (key : Text) :
    key ∈ fields.map Prod.fst ↔ key ∈ others.map Prod.fst := by
  have hperm : (fields.map Prod.fst).Perm (others.map Prod.fst) :=
    (hnodup.subperm hkeys).perm_of_length_le (by rw [List.length_map, List.length_map, hlength])
  exact hperm.mem_iff

theorem length_eq_of_keys {fields others : List (Text × Value N)} (hnodup : (fields.map Prod.fst).Nodup)
    (hother : (others.map Prod.fst).Nodup) (hkeys : ∀ key, key ∈ fields.map Prod.fst ↔ key ∈ others.map Prod.fst) :
    fields.length = others.length := by
  have hperm := (List.perm_ext_iff_of_nodup hnodup hother).mpr hkeys
  simpa using hperm.length_eq

theorem same_refl {v : Value N} (hv : Distinct v) : Same v v := by
  induction v using value_induction with
  | null => trivial
  | bool b => rfl
  | num n => rfl
  | str t => rfl
  | arr items ih =>
      rw [Distinct, distinctItems_iff] at hv
      rw [Same, sameItems_iff, List.forall₂_same]
      exact fun v hmem => ih v hmem (hv v hmem)
  | obj fields ih =>
      obtain ⟨hnodup, hfields⟩ := hv
      rw [distinctFields_iff] at hfields
      rw [Same, sameFields_iff]
      exact ⟨fun _ => Iff.rfl, fun f hf => ⟨f.2, lookup_of_mem hnodup hf, ih f hf (hfields f hf)⟩⟩

/-- A value as it is parsed. -/
structure Document (N : Type) where
  value : Value N
  distinct : Distinct value

/-- A step from an array or an object to something inside it. -/
inductive Step
  | key (name : Text)
  | index (i : Nat)

def child : Value N → Step → Option (Value N)
  | .obj fields, .key name => fields.lookup name
  | .arr items, .index i => items[i]?
  | _, _ => none

/-- Induction along a value, by what can be reached in one step. -/
theorem child_induction {P : Value N → Prop} (step : ∀ v, (∀ s w, child v s = some w → P w) → P v) (v : Value N) : P v := by
  induction v using value_induction with
  | null => exact step _ fun s w h => nomatch h
  | bool b => exact step _ fun s w h => nomatch h
  | num n => exact step _ fun s w h => nomatch h
  | str t => exact step _ fun s w h => nomatch h
  | arr items ih =>
      refine step _ fun s w h => ?_
      match s with
      | .key _ => cases h
      | .index i => exact ih w (List.mem_of_getElem? h)
  | obj fields ih =>
      refine step _ fun s w h => ?_
      match s with
      | .key name => exact ih (name, w) (mem_of_lookup h)
      | .index _ => cases h

/-- What stands at the end of a path. -/
def valueAt (v : Value N) : List Step → Option (Value N)
  | [] => some v
  | s :: path => (child v s).bind (valueAt · path)

/-- Both values are arrays, or both are objects. -/
def SameKind : Value N → Value N → Prop
  | .arr _, .arr _ => True
  | .obj _, .obj _ => True
  | _, _ => False

instance decidableSameKind (a b : Value N) : Decidable (SameKind a b) := by
  cases a <;> cases b <;> simp only [SameKind] <;> infer_instance

/-- Two places have nothing, or the same. -/
def Agree (a b : Option (Value N)) : Prop := (a = none ∧ b = none) ∨ ∃ v w, a = some v ∧ b = some w ∧ Same v w

theorem distinct_child {v w : Value N} {s : Step} (hv : Distinct v) (h : child v s = some w) : Distinct w := by
  match v, s with
  | .obj fields, .key name => exact distinct_of_lookup hv.2 h
  | .arr items, .index i => exact distinctItems_iff.mp hv w (List.mem_of_getElem? h)
  | .obj _, .index _ => cases h
  | .arr _, .key _ => cases h
  | .null, _ => cases h
  | .bool _, _ => cases h
  | .num _, _ => cases h
  | .str _, _ => cases h

theorem distinct_valueAt {v w : Value N} {path : List Step} (hv : Distinct v) (h : valueAt v path = some w) : Distinct w := by
  induction path generalizing v with
  | nil =>
      cases h
      exact hv
  | cons s path ih =>
      obtain ⟨x, hx, hrest⟩ := Option.bind_eq_some_iff.mp h
      exact ih (distinct_child hv hx) hrest

/-- The same values have the same inside. -/
theorem agree_child {a b : Value N} (h : Same a b) (s : Step) : Agree (child a s) (child b s) := by
  match a, b with
  | .arr items, .arr others =>
      rw [Same, sameItems_iff] at h
      match s with
      | .key _ => exact .inl ⟨rfl, rfl⟩
      | .index i =>
          rw [child, child]
          by_cases hi : i < items.length
          · have hother : i < others.length := h.length_eq ▸ hi
            exact .inr ⟨_, _, List.getElem?_eq_getElem hi, List.getElem?_eq_getElem hother,
              h.get hi hother⟩
          · exact .inl ⟨List.getElem?_eq_none (not_lt.mp hi), List.getElem?_eq_none (h.length_eq ▸ not_lt.mp hi)⟩
  | .obj fields, .obj others =>
      rw [Same, sameFields_iff] at h
      match s with
      | .index _ => exact .inl ⟨rfl, rfl⟩
      | .key name =>
          rw [child, child]
          cases hv : fields.lookup name with
          | some v =>
              obtain ⟨w, hw, hsame⟩ := h.2 _ (mem_of_lookup hv)
              exact .inr ⟨v, w, rfl, hw, hsame⟩
          | none =>
              refine .inl ⟨rfl, ?_⟩
              rw [← Option.not_isSome_iff_eq_none, lookup_isSome_iff] at hv ⊢
              exact fun hmem => hv ((h.1 name).mpr hmem)
  | .null, .null => exact .inl ⟨rfl, rfl⟩
  | .bool _, .bool _ => exact .inl ⟨rfl, rfl⟩
  | .num _, .num _ => exact .inl ⟨rfl, rfl⟩
  | .str _, .str _ => exact .inl ⟨rfl, rfl⟩

theorem agree_valueAt {a b : Value N} (h : Same a b) (path : List Step) : Agree (valueAt a path) (valueAt b path) := by
  induction path generalizing a b with
  | nil => exact .inr ⟨a, b, rfl, rfl, h⟩
  | cons s path ih =>
      rw [valueAt, valueAt]
      rcases agree_child h s with ⟨ha, hb⟩ | ⟨v, w, ha, hb, hsame⟩
      · rw [ha, hb]
        exact .inl ⟨rfl, rfl⟩
      · rw [ha, hb]
        exact ih hsame

/-- Two arrays or two objects with the same inside are the same. -/
theorem same_of_children {a b : Value N} (ha : Distinct a) (hkind : SameKind a b)
    (h : ∀ s, Agree (child a s) (child b s)) : Same a b := by
  match a, b with
  | .arr items, .arr others =>
      rw [Same, sameItems_iff]
      have hitem (i : Nat) : Agree items[i]? others[i]? := h (.index i)
      refine List.forall₂_iff_get.mpr ⟨?_, fun i hi hother => ?_⟩
      · refine le_antisymm (le_of_not_gt fun hlt => ?_) (le_of_not_gt fun hlt => ?_)
        · rcases hitem others.length with ⟨hnone, -⟩ | ⟨v, w, -, hw, -⟩
          · rw [List.getElem?_eq_getElem hlt] at hnone
            cases hnone
          · rw [List.getElem?_eq_none le_rfl] at hw
            cases hw
        · rcases hitem items.length with ⟨-, hnone⟩ | ⟨v, w, hv, -, -⟩
          · rw [List.getElem?_eq_getElem hlt] at hnone
            cases hnone
          · rw [List.getElem?_eq_none le_rfl] at hv
            cases hv
      · rcases hitem i with ⟨hnone, -⟩ | ⟨v, w, hv, hw, hsame⟩
        · rw [List.getElem?_eq_getElem hi] at hnone
          cases hnone
        · rw [List.getElem?_eq_getElem hi] at hv
          rw [List.getElem?_eq_getElem hother] at hw
          cases hv
          cases hw
          exact hsame
  | .obj fields, .obj others =>
      rw [Same, sameFields_iff]
      have hmember (name : Text) : Agree (fields.lookup name) (others.lookup name) := h (.key name)
      constructor
      · intro name
        rw [← lookup_isSome_iff, ← lookup_isSome_iff]
        rcases hmember name with ⟨hv, hw⟩ | ⟨v, w, hv, hw, -⟩ <;> simp [hv, hw]
      · intro f hf
        rcases hmember f.1 with ⟨hnone, -⟩ | ⟨v, w, hv, hw, hsame⟩
        · rw [lookup_of_mem ha.1 hf] at hnone
          cases hnone
        · rw [lookup_of_mem ha.1 hf] at hv
          cases hv
          exact ⟨w, hw, hsame⟩

theorem valueAt_concat (v : Value N) (path : List Step) (s : Step) :
    valueAt v (path ++ [s]) = (valueAt v path).bind (child · s) := by
  induction path generalizing v with
  | nil =>
      rw [List.nil_append, valueAt, valueAt, Option.bind_some]
      cases child v s <;> rfl
  | cons first path ih =>
      rw [List.cons_append, valueAt, valueAt]
      cases child v first with
      | none => rfl
      | some w => exact ih w

/-- Nothing but what is inside them tells two values apart. -/
def Alike : Value N → Value N → Prop
  | .null, .null => True
  | .bool a, .bool b => a = b
  | .num a, .num b => a = b
  | .str a, .str b => a = b
  | .arr _, .arr _ => True
  | .obj _, .obj _ => True
  | _, _ => False

/-- Values that are told apart at no place are the same. -/
theorem same_of_alike {a b : Value N} (ha : Distinct a)
    (h : ∀ place, Option.Rel Alike (valueAt a place) (valueAt b place)) : Same a b := by
  induction a using child_induction generalizing b with
  | step a ih =>
      have hchild (s : Step) : Agree (child a s) (child b s) := by
        cases hv : child a s with
        | none =>
            have hs := h [s]
            rw [valueAt, valueAt, hv] at hs
            cases hw : child b s with
            | none => exact .inl ⟨rfl, rfl⟩
            | some w =>
                rw [hw] at hs
                cases hs
        | some v =>
            have hs := h [s]
            rw [valueAt, valueAt, hv] at hs
            cases hw : child b s with
            | none =>
                rw [hw] at hs
                cases hs
            | some w =>
                refine .inr ⟨v, w, rfl, rfl, ih s v hv (distinct_child ha hv) fun place => ?_⟩
                have hplace := h (s :: place)
                rwa [valueAt, valueAt, hv, hw, Option.bind_some, Option.bind_some] at hplace
      obtain ⟨halike⟩ := h []
      match a, b with
      | .null, .null => trivial
      | .bool _, .bool _ => exact halike
      | .num _, .num _ => exact halike
      | .str _, .str _ => exact halike
      | .arr _, .arr _ => exact same_of_children ha trivial hchild
      | .obj _, .obj _ => exact same_of_children ha trivial hchild

/-- What stands at a place of two values that is reached through arrays on both sides or objects on both sides. -/
inductive Met (a b : Value N) : List Step → Option (Value N) → Option (Value N) → Prop
  | root : Met a b [] (some a) (some b)
  | step {place : List Step} {v w : Value N} (s : Step) : Met a b place (some v) (some w) → SameKind v w →
      ((child v s).isSome ∨ (child w s).isSome) → Met a b (place ++ [s]) (child v s) (child w s)

theorem Met.valueAt_eq {a b : Value N} {place : List Step} {v w : Option (Value N)} (h : Met a b place v w) :
    valueAt a place = v ∧ valueAt b place = w := by
  induction h with
  | root => exact ⟨rfl, rfl⟩
  | step s hmet hkind hsome ih =>
      rw [valueAt_concat, valueAt_concat, ih.1, ih.2]
      exact ⟨rfl, rfl⟩

theorem Met.isSome {a b : Value N} {place : List Step} {v w : Option (Value N)} (h : Met a b place v w) :
    v.isSome ∨ w.isSome := by
  cases h with
  | root => exact .inl rfl
  | step s hmet hkind hsome => exact hsome

/-- On the way to a place that is met, both values are arrays or both are objects. -/
theorem Met.of_prefix {a b : Value N} {place : List Step} {v w : Option (Value N)} (h : Met a b place v w)
    {before : List Step} (hbefore : before <+: place) :
    before = place ∨ ∃ x y, Met a b before (some x) (some y) ∧ SameKind x y := by
  induction h with
  | root => exact .inl (List.prefix_nil.mp hbefore)
  | @step place v w s hmet hkind hsome ih =>
      rcases List.prefix_concat_iff.mp hbefore with heq | hshorter
      · exact .inl heq
      · rcases ih hshorter with rfl | hmiddle
        · exact .inr ⟨v, w, hmet, hkind⟩
        · exact .inr hmiddle

theorem alike_of_sameKind {v w : Value N} (h : SameKind v w) : Alike v w := by
  match v, w with
  | .arr _, .arr _ => trivial
  | .obj _, .obj _ => trivial

end Json.Equality

namespace Json.Obeying

open Strings.CodeUnits Json.Values Json.Equality

variable {N : Type}

/-- What is asked of the names of members, of strings and of what stands in an array. -/
structure Rules (N : Type) where
  key : Text → Prop
  string : Text → Prop
  item : Value N → Prop

mutual

def Obeys (rules : Rules N) : Value N → Prop
  | .str t => rules.string t
  | .arr items => ObeysItems rules items
  | .obj fields => ObeysFields rules fields
  | .null | .bool _ | .num _ => True

def ObeysItems (rules : Rules N) : List (Value N) → Prop
  | [] => True
  | v :: items => (rules.item v ∧ Obeys rules v) ∧ ObeysItems rules items

def ObeysFields (rules : Rules N) : List (Text × Value N) → Prop
  | [] => True
  | (key, v) :: fields => (rules.key key ∧ Obeys rules v) ∧ ObeysFields rules fields

end

variable {rules others : Rules N}

theorem obeysItems_iff {items : List (Value N)} : ObeysItems rules items ↔ ∀ v ∈ items, rules.item v ∧ Obeys rules v := by
  induction items with
  | nil => simp [ObeysItems]
  | cons v items ih => rw [ObeysItems, ih, List.forall_mem_cons]

theorem obeysFields_iff {fields : List (Text × Value N)} :
    ObeysFields rules fields ↔ ∀ f ∈ fields, rules.key f.1 ∧ Obeys rules f.2 := by
  induction fields with
  | nil => simp [ObeysFields]
  | cons f fields ih => rw [ObeysFields, ih, List.forall_mem_cons]

/-- Values that obey some rules obey those that follow from them. -/
theorem Obeys.imp (hkey : ∀ t, rules.key t → others.key t) (hstring : ∀ t, rules.string t → others.string t)
    (hitem : ∀ v, rules.item v → others.item v) {v : Value N} (hv : Obeys rules v) : Obeys others v := by
  induction v using value_induction with
  | null => trivial
  | bool b => trivial
  | num n => trivial
  | str t => exact hstring t hv
  | arr items ih =>
      rw [Obeys, obeysItems_iff] at hv ⊢
      exact fun v hmem => ⟨hitem v (hv v hmem).1, ih v hmem (hv v hmem).2⟩
  | obj fields ih =>
      rw [Obeys, obeysFields_iff] at hv ⊢
      exact fun f hmem => ⟨hkey f.1 (hv f hmem).1, ih f hmem (hv f hmem).2⟩

def Rules.both (rules others : Rules N) : Rules N where
  key t := rules.key t ∧ others.key t
  string t := rules.string t ∧ others.string t
  item v := rules.item v ∧ others.item v

theorem Obeys.both {v : Value N} (hv : Obeys rules v) (hother : Obeys others v) : Obeys (rules.both others) v := by
  induction v using value_induction with
  | null => trivial
  | bool b => trivial
  | num n => trivial
  | str t => exact ⟨hv, hother⟩
  | arr items ih =>
      rw [Obeys, obeysItems_iff] at hv hother ⊢
      exact fun v hmem => ⟨⟨(hv v hmem).1, (hother v hmem).1⟩, ih v hmem (hv v hmem).2 (hother v hmem).2⟩
  | obj fields ih =>
      rw [Obeys, obeysFields_iff] at hv hother ⊢
      exact fun f hmem => ⟨⟨(hv f hmem).1, (hother f hmem).1⟩, ih f hmem (hv f hmem).2 (hother f hmem).2⟩

end Json.Obeying
