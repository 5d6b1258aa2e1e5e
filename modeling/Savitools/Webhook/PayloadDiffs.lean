import Savitools.Playground.Diffs

namespace Savitools.Webhook.PayloadDiffs

open Strings.CodeUnits Strings.Decimals Json.Numbers Json.Values Json.Equality Stores.Entries
open Playground.Diffs (strictEq)

/-- What is read of an object: a value of its own, or what all objects inherit. -/
inductive Property
  | value (v : Value Number)
  | prototype
  | function

def prototypeName : Text := text "__proto__"

def methodNames : List Text :=
  [text "constructor", text "__defineGetter__", text "__defineSetter__", text "hasOwnProperty", text "__lookupGetter__",
    text "__lookupSetter__", text "isPrototypeOf", text "propertyIsEnumerable", text "toString", text "valueOf",
    text "toLocaleString"]

/-- The methods that only arrays inherit are left out: a function is equal to no value, like what is not there. -/
def inherited (key : Text) : Option Property :=
  if key = prototypeName then some .prototype else if key ∈ methodNames then some .function else none

/-- A property of the object itself; an array has its items and its length. -/
def ownProperty : Value Number → Text → Option (Value Number)
  | .obj fields, key => fields.lookup key
  | .arr items, key =>
      if key = text "length" then some (.num (.ofInt items.length))
      else ((List.range items.length).find? fun i => ofNat i = key).bind (items[·]?)
  | _, _ => none

/-- `b[key]`, if `key in b`. -/
def Property.get (key : Text) : Property → Option Property
  | .value b => ((ownProperty b key).map .value).or (inherited key)
  | _ => inherited key

/-- `Object.keys(b).length` of what is an object. -/
def keyCount : Property → Option Nat
  | .value (.arr items) => some items.length
  | .value (.obj fields) => some fields.length
  | .prototype => some 0
  | _ => none

mutual

def deepEqual : Value Number → Property → Bool
  | .arr items, b => keyCount b == some items.length && everyItem 0 items b
  | .obj fields, b => keyCount b == some fields.length && everyField fields b
  | a, .value b => strictEq a b
  | _, _ => false

def everyItem (i : Nat) : List (Value Number) → Property → Bool
  | [], _ => true
  | v :: items, b =>
      (match b.get (ofNat i) with
        | some w => deepEqual v w
        | none => false) && everyItem (i + 1) items b

def everyField : List (Text × Value Number) → Property → Bool
  | [], _ => true
  | (key, v) :: fields, b =>
      (match b.get key with
        | some w => deepEqual v w
        | none => false) && everyField fields b

end

/-- `deepEqual` with a first value that was read of an object; the keys of a prototype are not enumerated. -/
def deepEqualRead : Property → Value Number → Bool
  | .value a, b => deepEqual a (.value b)
  | .prototype, b => keyCount (.value b) == some 0
  | .function, _ => false

structure Change where
  source : Property
  target : Value Number

structure PayloadDiff where
  added : Option (List (Text × Value Number))
  modified : Option (List (Text × Change))
  removed : Option (List (Text × Value Number))

/-- `record[key] = v`; under the name `__proto__` that sets the prototype. -/
def assign {α : Type} (record : List (Text × α)) (entry : Text × α) : List (Text × α) :=
  if entry.1 = prototypeName then record else put entry.1 entry.2 record

def recordOf {α : Type} (entries : List (Text × α)) : List (Text × α) := entries.foldl assign []

def addedEntry (previous : Property) (field : Text × Value Number) : Option (Text × Value Number) :=
  if (previous.get field.1).isNone then some field else none

def modifiedEntry (previous : Property) (field : Text × Value Number) : Option (Text × Change) :=
  (previous.get field.1).bind fun value =>
    if deepEqualRead value field.2 then none else some (field.1, { source := value, target := field.2 })

def computePayloadDiff (previous current : List (Text × Value Number)) : Option PayloadDiff :=
  let added := recordOf (current.filterMap (addedEntry (.value (.obj previous))))
  let modified := recordOf (current.filterMap (modifiedEntry (.value (.obj previous))))
  let removed := recordOf (previous.filterMap (addedEntry (.value (.obj current))))
  if added.length = 0 ∧ modified.length = 0 ∧ removed.length = 0 then none
  else
    some {
      added := if added.length > 0 then some added else none
      modified := if modified.length > 0 then some modified else none
      removed := if removed.length > 0 then some removed else none }

def stepName : Step → Text
  | .key name => name
  | .index i => ofNat i

theorem sizeOf_child {a v : Value Number} {s : Step} (h : child a s = some v) : sizeOf v < sizeOf a := by
  match a, s with
  | .obj fields, .key name =>
      have hmem := List.sizeOf_lt_of_mem (mem_of_lookup h)
      simp only [Prod.mk.sizeOf_spec] at hmem
      simp only [Value.obj.sizeOf_spec]
      omega
  | .arr items, .index i =>
      have hmem := List.sizeOf_lt_of_mem (List.mem_of_getElem? h)
      simp only [Value.arr.sizeOf_spec]
      omega
  | .obj _, .index _ | .arr _, .key _ | .null, _ | .bool _, _ | .num _, _ | .str _, _ => cases h

/-- Two arrays or objects with equally many keys, where each key of the first one leads to an equal value in the second,
or to one that is mistaken for it, or to the prototype in place of something empty; and yet an array stands for an object,
a key is not the second one's own, or a value is mistaken. -/
def Mistaken (a b : Value Number) : Prop :=
  (keyCount (.value a)).isSome ∧ keyCount (.value a) = keyCount (.value b) ∧
    (∀ s v, (_ : child a s = some v) →
      match (Property.value b).get (stepName s) with
      | some (.value w) => Same v w ∨ Mistaken v w
      | some .prototype => keyCount (.value v) = some 0
      | _ => False) ∧
    (¬SameKind a b ∨ (∃ s, (child a s).isSome ∧ ownProperty b (stepName s) = none) ∨
      ∃ s v w, ∃ _ : child a s = some v, ownProperty b (stepName s) = some w ∧ Mistaken v w)
termination_by sizeOf a
decreasing_by all_goals exact sizeOf_child ‹_›

theorem ownProperty_index (items : List (Value Number)) (i : Nat) : ownProperty (.arr items) (ofNat i) = items[i]? := by
  have hlength : ofNat i ≠ text "length" := by
    intro h
    have hletter : unit 'l' ∈ ofNat i := by
      rw [h]
      decide
    exact absurd (isDigit_of_mem_ofNat hletter) (by decide)
  rw [ownProperty, if_neg hlength]
  by_cases hi : i < items.length
  · have hfind : (List.range items.length).find? (fun j => ofNat j = ofNat i) = some i := by
      rw [List.find?_range_eq_some]
      refine ⟨decide_eq_true rfl, List.mem_range.mpr hi, fun j hj => ?_⟩
      rw [decide_eq_false fun h => hj.ne (ofNat_inj h)]
      rfl
    rw [hfind, Option.bind_some]
  · have hfind : (List.range items.length).find? (fun j => ofNat j = ofNat i) = none := by
      rw [List.find?_eq_none]
      intro j hj h
      rw [ofNat_inj (of_decide_eq_true h)] at hj
      exact hi (List.mem_range.mp hj)
    rw [hfind, Option.bind_none, List.getElem?_eq_none (not_lt.mp hi)]

theorem ownProperty_of_sameKind {a b : Value Number} (hkind : SameKind a b) {s : Step} (hs : (child a s).isSome) :
    ownProperty b (stepName s) = child b s := by
  match a, b, s with
  | .arr _, .arr others, .index i => exact ownProperty_index others i
  | .obj _, .obj _, .key _ => rfl

theorem inherited_ne_value {key : Text} {v : Value Number} : inherited key ≠ some (.value v) := by
  rw [inherited]
  split
  · simp
  · split <;> simp

theorem get_eq_value {b w : Value Number} {key : Text} :
    (Property.value b).get key = some (.value w) ↔ ownProperty b key = some w := by
  rw [Property.get]
  cases ownProperty b key with
  | none => simp [inherited_ne_value]
  | some v => simp

theorem distinct_of_ownProperty {b w : Value Number} {key : Text} (hb : Distinct b) (h : ownProperty b key = some w) :
    Distinct w := by
  match b with
  | .obj fields => exact distinct_of_lookup hb.2 h
  | .arr items =>
      rw [ownProperty] at h
      split at h
      · cases h
        trivial
      · obtain ⟨i, -, hi⟩ := Option.bind_eq_some_iff.mp h
        exact distinctItems_iff.mp hb w (List.mem_of_getElem? hi)
  | .null | .bool _ | .num _ | .str _ => cases h

theorem everyItem_iff {i : Nat} {items : List (Value Number)} {b : Property} :
    everyItem i items b = true ↔
      ∀ j v, items[j]? = some v → ∃ r, b.get (ofNat (i + j)) = some r ∧ deepEqual v r = true := by
  induction items generalizing i with
  | nil => simp [everyItem]
  | cons v items ih =>
      rw [everyItem, Bool.and_eq_true, ih]
      constructor
      · rintro ⟨hfirst, hrest⟩ (_ | j) w hw
        · cases hw
          cases hr : b.get (ofNat i) with
          | none =>
              rw [hr] at hfirst
              cases hfirst
          | some r =>
              rw [hr] at hfirst
              exact ⟨r, rfl, hfirst⟩
        · rw [show i + (j + 1) = i + 1 + j by omega]
          exact hrest j w hw
      · intro h
        refine ⟨?_, fun j w hw => ?_⟩
        · obtain ⟨r, hr, heq⟩ := h 0 v rfl
          rw [Nat.add_zero] at hr
          rw [hr]
          exact heq
        · rw [show i + 1 + j = i + (j + 1) by omega]
          exact h (j + 1) w hw

theorem everyField_iff {fields : List (Text × Value Number)} {b : Property} :
    everyField fields b = true ↔ ∀ f ∈ fields, ∃ r, b.get f.1 = some r ∧ deepEqual f.2 r = true := by
  induction fields with
  | nil => simp [everyField]
  | cons f fields ih =>
      rw [everyField, Bool.and_eq_true, ih, List.forall_mem_cons]
      refine and_congr ?_ Iff.rfl
      cases b.get f.1 <;> simp

/-- An array or object is compared by the number of its keys and by what is read under each. -/
theorem deepEqual_container {a : Value Number} (ha : Distinct a) (hkeys : (keyCount (.value a)).isSome) {b : Property} :
    deepEqual a b = true ↔ keyCount b = keyCount (.value a) ∧
      ∀ s v, child a s = some v → ∃ r, b.get (stepName s) = some r ∧ deepEqual v r = true := by
  match a with
  | .arr items =>
      rw [deepEqual, Bool.and_eq_true, beq_iff_eq, everyItem_iff]
      refine and_congr Iff.rfl ⟨fun h s v hv => ?_, fun h j v hv => ?_⟩
      · match s with
        | .index j =>
            have hitem := h j v hv
            rwa [Nat.zero_add] at hitem
        | .key _ => cases hv
      · rw [Nat.zero_add]
        exact h (.index j) v hv
  | .obj fields =>
      rw [deepEqual, Bool.and_eq_true, beq_iff_eq, everyField_iff]
      refine and_congr Iff.rfl ⟨fun h s v hv => ?_, fun h f hf => ?_⟩
      · match s with
        | .key name => exact h (name, v) (mem_of_lookup hv)
        | .index _ => cases hv
      · exact h (.key f.1) f.2 (lookup_of_mem ha.1 hf)
  | .null | .bool _ | .num _ | .str _ => cases hkeys

theorem deepEqual_prototype {v : Value Number} : deepEqual v .prototype = true ↔ keyCount (.value v) = some 0 := by
  cases v with
  | arr items => cases items <;> simp [deepEqual, keyCount, everyItem]
  | obj fields => cases fields <;> simp [deepEqual, keyCount, everyField]
  | _ => simp [deepEqual, keyCount]

theorem deepEqual_function {v : Value Number} : deepEqual v .function = false := by
  cases v <;> simp [deepEqual, keyCount]

/-- What a read value is taken for, as it is told in `Mistaken`. -/
theorem deepEqual_get_iff {v b : Value Number} (key : Text) (hb : Distinct b)
    (ih : ∀ w, Distinct w → (deepEqual v (.value w) = true ↔ Same v w ∨ Mistaken v w)) :
    (∃ r, (Property.value b).get key = some r ∧ deepEqual v r = true) ↔
      match (Property.value b).get key with
      | some (.value w) => Same v w ∨ Mistaken v w
      | some .prototype => keyCount (.value v) = some 0
      | _ => False := by
  cases hget : (Property.value b).get key with
  | none => simp
  | some r =>
      simp only [Option.some.injEq, exists_eq_left']
      cases r with
      | value w => exact ih w (distinct_of_ownProperty hb (get_eq_value.mp hget))
      | prototype => exact deepEqual_prototype
      | function => simp [deepEqual_function]

theorem keyCount_of_same {a b : Value Number} (ha : Distinct a) (hb : Distinct b) (h : Same a b) :
    keyCount (.value a) = keyCount (.value b) := by
  match a, b with
  | .arr items, .arr others =>
      rw [Same, sameItems_iff] at h
      exact congrArg some h.length_eq
  | .obj fields, .obj others => exact congrArg some (length_eq_of_keys ha.1 hb.1 h.1)
  | .null, .null | .bool _, .bool _ | .num _, .num _ | .str _, .str _ => rfl

theorem sameKind_of_same {a b : Value Number} (hkeys : (keyCount (.value a)).isSome) (h : Same a b) : SameKind a b := by
  match a, b with
  | .arr items, .arr others => trivial
  | .obj fields, .obj others => trivial
  | .null, _ | .bool _, _ | .num _, _ | .str _, _ => cases hkeys

/-- Of two arrays or objects with equally many keys, the second has no key that the first one has not, if it has all of its keys. -/
theorem child_eq_none {a b : Value Number} (ha : Distinct a) (hkind : SameKind a b)
    (hcount : keyCount (.value a) = keyCount (.value b)) (hsome : ∀ s, (child a s).isSome → (child b s).isSome) {s : Step}
    (hs : child a s = none) : child b s = none := by
  match a, b, s with
  | .arr items, .arr others, .index i =>
      have hlength : items.length = others.length := Option.some.inj hcount
      rw [child, List.getElem?_eq_none_iff] at hs ⊢
      omega
  | .arr _, .arr _, .key _ => rfl
  | .obj _, .obj _, .index _ => rfl
  | .obj fields, .obj others, .key name =>
      have hkeys := keys_iff ha.1 (Option.some.inj hcount) (fun key hkey =>
        lookup_isSome_iff.mp (hsome (.key key) (lookup_isSome_iff.mpr hkey))) name
      rw [child, ← Option.not_isSome_iff_eq_none, lookup_isSome_iff] at hs ⊢
      exact fun hmem => hs (hkeys.mpr hmem)

/-- Values that are told apart at no place are the same, or one is mistaken for the other. -/
theorem same_or_mistaken {a b : Value Number} (ha : Distinct a) (hkeys : (keyCount (.value a)).isSome)
    (hcount : keyCount (.value a) = keyCount (.value b))
    (htold : ∀ s v, child a s = some v →
      match (Property.value b).get (stepName s) with
      | some (.value w) => Same v w ∨ Mistaken v w
      | some .prototype => keyCount (.value v) = some 0
      | _ => False) : Same a b ∨ Mistaken a b := by
  by_cases hcause : ¬SameKind a b ∨ (∃ s, (child a s).isSome ∧ ownProperty b (stepName s) = none) ∨
      ∃ s v w, ∃ _ : child a s = some v, ownProperty b (stepName s) = some w ∧ Mistaken v w
  · right
    rw [Mistaken]
    exact ⟨hkeys, hcount, fun s v hv => htold s v hv, hcause⟩
  · left
    simp only [not_or, not_not, not_exists, not_and] at hcause
    obtain ⟨hkind, howned, hright⟩ := hcause
    have hagree : ∀ s v, child a s = some v → ∃ w, child b s = some w ∧ Same v w := by
      intro s v hv
      have hs : (child a s).isSome := by rw [hv, Option.isSome_some]
      have hown := ownProperty_of_sameKind hkind hs
      obtain ⟨w, hw⟩ := Option.ne_none_iff_exists'.mp (howned s hs)
      have htold := htold s v hv
      rw [get_eq_value.mpr hw] at htold
      rcases htold with hsame | hmistaken
      · exact ⟨w, hown ▸ hw, hsame⟩
      · exact absurd hmistaken (hright s v w hv hw)
    have hsome : ∀ s, (child a s).isSome → (child b s).isSome := by
      intro s hs
      obtain ⟨v, hv⟩ := Option.isSome_iff_exists.mp hs
      obtain ⟨w, hw, -⟩ := hagree s v hv
      rw [hw, Option.isSome_some]
    refine same_of_children ha hkind fun s => ?_
    cases hv : child a s with
    | none => exact .inl ⟨rfl, child_eq_none ha hkind hcount hsome hv⟩
    | some v =>
        obtain ⟨w, hw, hsame⟩ := hagree s v hv
        exact .inr ⟨v, w, rfl, hw, hsame⟩

/-- The comparison finds equal what is the same or mistaken. -/
theorem deepEqual_iff {a b : Value Number} (ha : Distinct a) (hb : Distinct b) :
    deepEqual a (.value b) = true ↔ Same a b ∨ Mistaken a b := by
  induction a using child_induction generalizing b with
  | step a ih =>
      by_cases hkeys : (keyCount (.value a)).isSome
      · have htold (s : Step) (v : Value Number) (hv : child a s = some v) :=
          deepEqual_get_iff (stepName s) hb fun w hw => ih s v hv (distinct_child ha hv) hw
        rw [deepEqual_container ha hkeys]
        constructor
        · rintro ⟨hcount, hall⟩
          exact same_or_mistaken ha hkeys hcount.symm fun s v hv => (htold s v hv).mp (hall s v hv)
        · rintro (hsame | hmistaken)
          · have hkind := sameKind_of_same hkeys hsame
            refine ⟨(keyCount_of_same ha hb hsame).symm, fun s v hv => (htold s v hv).mpr ?_⟩
            have hown := ownProperty_of_sameKind hkind (s := s) (by rw [hv, Option.isSome_some])
            rcases agree_child hsame s with ⟨hnone, -⟩ | ⟨v', w, hv', hw, hchild⟩
            · rw [hv] at hnone
              cases hnone
            · rw [hv] at hv'
              cases hv'
              rw [get_eq_value.mpr (hown.trans hw)]
              exact .inl hchild
          · rw [Mistaken] at hmistaken
            obtain ⟨-, hcount, hall, -⟩ := hmistaken
            exact ⟨hcount.symm, fun s v hv => (htold s v hv).mpr (hall s v hv)⟩
      · have hplain : ¬Mistaken a b := by
          rw [Mistaken]
          exact fun h => hkeys h.1
        rw [or_iff_left hplain]
        match a with
        | .null | .bool _ | .num _ | .str _ => cases b <;> simp [deepEqual, strictEq, Same]
        | .arr _ | .obj _ => exact absurd rfl hkeys

/-- What is mistaken is not the same. -/
theorem not_same_of_mistaken {a b : Value Number} (h : Mistaken a b) : ¬Same a b := by
  induction a using child_induction generalizing b with
  | step a ih =>
      intro hsame
      rw [Mistaken] at h
      obtain ⟨hkeys, -, -, hcause⟩ := h
      have hkind := sameKind_of_same hkeys hsame
      rcases hcause with hother | ⟨s, hs, hnone⟩ | ⟨s, v, w, hv, hw, hmistaken⟩
      · exact hother hkind
      · rw [ownProperty_of_sameKind hkind hs] at hnone
        rcases agree_child hsame s with ⟨ha, -⟩ | ⟨v, w, -, hw, -⟩
        · rw [ha] at hs
          cases hs
        · rw [hw] at hnone
          cases hnone
      · rw [ownProperty_of_sameKind hkind (by rw [hv, Option.isSome_some])] at hw
        rcases agree_child hsame s with ⟨ha, -⟩ | ⟨v', w', hv', hw', hchild⟩
        · rw [ha] at hv
          cases hv
        · rw [hv] at hv'
          rw [hw] at hw'
          cases hv'
          cases hw'
          exact ih s v hv hmistaken hchild

/-- The two comparisons agree just where nothing is mistaken. -/
theorem agree_iff {a b : Value Number} (ha : Distinct a) (hb : Distinct b) :
    deepEqual a (.value b) = Playground.Diffs.deepEqual a b ↔ ¬Mistaken a b := by
  rw [Bool.eq_iff_iff, deepEqual_iff ha hb, Playground.Diffs.deepEqual_iff ha hb]
  constructor
  · exact fun h hmistaken => not_same_of_mistaken hmistaken (h.mp (.inr hmistaken))
  · exact fun h => ⟨fun hor => hor.resolve_right h, .inl⟩

theorem put_ne_nil {α : Type} (key : Text) (v : α) (record : List (Text × α)) : put key v record ≠ [] := by
  cases record with
  | nil => simp [put]
  | cons entry record =>
      rw [put]
      split <;> exact List.cons_ne_nil _ _

theorem foldl_assign_eq_nil {α : Type} {record entries : List (Text × α)} :
    entries.foldl assign record = [] ↔ record = [] ∧ ∀ e ∈ entries, e.1 = prototypeName := by
  induction entries generalizing record with
  | nil => simp
  | cons e entries ih =>
      rw [List.foldl_cons, ih, List.forall_mem_cons, assign]
      by_cases he : e.1 = prototypeName
      · rw [if_pos he, and_iff_right he]
      · rw [if_neg he]
        constructor
        · exact fun h => absurd h.1 (put_ne_nil _ _ _)
        · exact fun h => absurd h.2.1 he

theorem recordOf_eq_nil {α : Type} {entries : List (Text × α)} :
    recordOf entries = [] ↔ ∀ e ∈ entries, e.1 = prototypeName := by
  rw [recordOf, foldl_assign_eq_nil]
  exact and_iff_right rfl

theorem eq_prototypeName {v : Value Number} {key : Text} (h : (Property.value v).get key = some .prototype) :
    key = prototypeName := by
  rw [Property.get] at h
  cases hown : ownProperty v key with
  | some w =>
      rw [hown] at h
      cases h
  | none =>
      rw [hown, Option.map_none, Option.none_or, inherited] at h
      split at h
      · assumption
      · split at h <;> cases h

theorem get_prototypeName (v : Value Number) : ((Property.value v).get prototypeName).isSome := by
  rw [Property.get, inherited, if_pos rfl]
  cases ownProperty v prototypeName <;> rfl

/-- Nothing is told as added or as removed, if all names can be read of the other object. -/
theorem recordOf_added_eq_nil {fields others : List (Text × Value Number)} :
    recordOf (fields.filterMap (addedEntry (.value (.obj others)))) = [] ↔
      ∀ f ∈ fields, ((Property.value (.obj others)).get f.1).isSome := by
  have hread (f : Text × Value Number) : addedEntry (.value (.obj others)) f =
      if ((Property.value (.obj others)).get f.1).isNone then some f else none := rfl
  rw [recordOf_eq_nil, List.forall_mem_filterMap]
  refine forall₂_congr fun f hf => ?_
  rw [hread]
  cases hget : (Property.value (.obj others)).get f.1 with
  | none =>
      simp only [Option.isNone_none, if_true, Option.some.injEq, forall_eq', Option.isSome_none, Bool.false_eq_true, iff_false]
      intro hname
      rw [hname] at hget
      have hsome := get_prototypeName (.obj others)
      rw [hget] at hsome
      cases hsome
  | some r => simp

theorem recordOf_modified_eq_nil {previous current : List (Text × Value Number)} :
    recordOf (current.filterMap (modifiedEntry (.value (.obj previous)))) = [] ↔
      ∀ f ∈ current, f.1 ≠ prototypeName →
        ∀ r, (Property.value (.obj previous)).get f.1 = some r → deepEqualRead r f.2 = true := by
  rw [recordOf_eq_nil, List.forall_mem_filterMap]
  refine forall₂_congr fun f hf => ?_
  rw [modifiedEntry]
  cases hget : (Property.value (.obj previous)).get f.1 with
  | none => simp
  | some r =>
      simp only [Option.bind_some, Option.some.injEq, forall_eq']
      cases deepEqualRead r f.2 with
      | true => simp
      | false => simp

theorem get_of_lookup {fields : List (Text × Value Number)} {key : Text} {u : Value Number} (h : fields.lookup key = some u) :
    (Property.value (.obj fields)).get key = some (.value u) := get_eq_value.mpr h

theorem computePayloadDiff_eq_none {previous current : List (Text × Value Number)} :
    computePayloadDiff previous current = none ↔
      (∀ f ∈ current, f.1 ≠ prototypeName → ∃ u, previous.lookup f.1 = some u ∧ deepEqual u (.value f.2) = true) ∧
        ∀ f ∈ previous, ((Property.value (.obj current)).get f.1).isSome := by
  have hnone : computePayloadDiff previous current = none ↔
      recordOf (current.filterMap (addedEntry (.value (.obj previous)))) = [] ∧
        recordOf (current.filterMap (modifiedEntry (.value (.obj previous)))) = [] ∧
        recordOf (previous.filterMap (addedEntry (.value (.obj current)))) = [] := by
    simp only [computePayloadDiff, List.length_eq_zero_iff]
    split
    next h => exact iff_of_true rfl h
    next h => exact iff_of_false (Option.some_ne_none _) h
  rw [hnone, recordOf_added_eq_nil, recordOf_modified_eq_nil, recordOf_added_eq_nil, ← and_assoc]
  refine and_congr_left fun _ => ⟨?_, ?_⟩
  · rintro ⟨hread, hequal⟩ f hf hname
    obtain ⟨r, hr⟩ := Option.isSome_iff_exists.mp (hread f hf)
    have heq := hequal f hf hname r hr
    cases r with
    | value u => exact ⟨u, get_eq_value.mp hr, heq⟩
    | prototype => exact absurd (eq_prototypeName hr) hname
    | function => cases heq
  · intro h
    constructor
    · intro f hf
      by_cases hname : f.1 = prototypeName
      · rw [hname]
        exact get_prototypeName _
      · obtain ⟨u, hu, -⟩ := h f hf hname
        rw [get_of_lookup hu]
        rfl
    · intro f hf hname r hr
      obtain ⟨u, hu, heq⟩ := h f hf hname
      rw [get_of_lookup hu] at hr
      cases hr
      exact heq

/-- A payload as it is parsed. -/
structure Payload where
  fields : List (Text × Value Number)
  distinct : Distinct (.obj fields)

/-- The payloads differ, but only where a member of the previous one is missing whose name all objects inherit, under
`__proto__`, or by values that are mistaken. -/
def Concealed (previous current : List (Text × Value Number)) : Prop :=
  (∀ f ∈ current, f.1 ≠ prototypeName → ∃ u, previous.lookup f.1 = some u ∧ (Same u f.2 ∨ Mistaken u f.2)) ∧
    (∀ f ∈ previous, f.1 ∈ current.map Prod.fst ∨ (inherited f.1).isSome) ∧
    ((∃ f ∈ previous, f.1 ∉ current.map Prod.fst) ∨
      (∃ f ∈ current, f.1 = prototypeName ∧ ∀ u, previous.lookup f.1 = some u → ¬Same u f.2) ∨
      ∃ f ∈ current, ∃ u, previous.lookup f.1 = some u ∧ Mistaken u f.2)

theorem get_object_isSome {fields : List (Text × Value Number)} {key : Text} :
    ((Property.value (.obj fields)).get key).isSome ↔ key ∈ fields.map Prod.fst ∨ (inherited key).isSome := by
  rw [Property.get, Option.isSome_or, Bool.or_eq_true, Option.isSome_map, ← lookup_isSome_iff]
  rfl

/-- Two objects are the same when the members of each are in the other, with the same values. -/
theorem same_obj_iff {fields others : List (Text × Value Number)} (hothers : (others.map Prod.fst).Nodup)
    (hfields : (fields.map Prod.fst).Nodup) :
    Same (.obj fields) (.obj others) ↔
      (∀ f ∈ fields, f.1 ∈ others.map Prod.fst) ∧ ∀ g ∈ others, ∃ u, fields.lookup g.1 = some u ∧ Same u g.2 := by
  rw [Same, sameFields_iff]
  constructor
  · rintro ⟨hkeys, hsame⟩
    refine ⟨fun f hf => (hkeys f.1).mp (List.mem_map_of_mem hf), fun g hg => ?_⟩
    obtain ⟨u, hu⟩ := Option.isSome_iff_exists.mp (lookup_isSome_iff.mpr ((hkeys g.1).mpr (List.mem_map_of_mem hg)))
    obtain ⟨w, hw, hchild⟩ := hsame _ (mem_of_lookup hu)
    rw [lookup_of_mem hothers hg] at hw
    cases hw
    exact ⟨u, hu, hchild⟩
  · rintro ⟨hkeys, hsame⟩
    refine ⟨fun key => ⟨fun hkey => ?_, fun hkey => ?_⟩, fun f hf => ?_⟩
    · obtain ⟨f, hf, rfl⟩ := List.mem_map.mp hkey
      exact hkeys f hf
    · obtain ⟨g, hg, rfl⟩ := List.mem_map.mp hkey
      obtain ⟨u, hu, -⟩ := hsame g hg
      exact lookup_isSome_iff.mp (hu ▸ rfl)
    · obtain ⟨w, hw⟩ := Option.isSome_iff_exists.mp (lookup_isSome_iff.mpr (hkeys f hf))
      obtain ⟨u, hu, hchild⟩ := hsame _ (mem_of_lookup hw)
      rw [lookup_of_mem hfields hf] at hu
      cases hu
      exact ⟨w, hw, hchild⟩

section Payloads

variable (previous current : Payload)

theorem deepEqual_member {f : Text × Value Number} (hf : f ∈ current.fields) {u : Value Number}
    (hu : previous.fields.lookup f.1 = some u) : deepEqual u (.value f.2) = true ↔ Same u f.2 ∨ Mistaken u f.2 :=
  deepEqual_iff (distinct_of_lookup previous.distinct.2 hu) (distinctFields_iff.mp current.distinct.2 f hf)

/-- Payloads without a difference that is told are the same, or their difference is concealed. -/
theorem computePayloadDiff_eq_none_iff :
    computePayloadDiff previous.fields current.fields = none ↔
      Same (.obj previous.fields) (.obj current.fields) ∨ Concealed previous.fields current.fields := by
  have hsame := same_obj_iff current.distinct.1 previous.distinct.1
  have hmember (f : Text × Value Number) (hf : f ∈ current.fields) :
      (∃ u, previous.fields.lookup f.1 = some u ∧ deepEqual u (.value f.2) = true) ↔
        ∃ u, previous.fields.lookup f.1 = some u ∧ (Same u f.2 ∨ Mistaken u f.2) :=
    exists_congr fun u => and_congr_right fun hu => deepEqual_member previous current hf hu
  rw [computePayloadDiff_eq_none, hsame]
  constructor
  · rintro ⟨hequal, hread⟩
    have hmembers : ∀ f ∈ current.fields, f.1 ≠ prototypeName →
        ∃ u, previous.fields.lookup f.1 = some u ∧ (Same u f.2 ∨ Mistaken u f.2) :=
      fun f hf hname => (hmember f hf).mp (hequal f hf hname)
    by_cases hcause : (∃ f ∈ previous.fields, f.1 ∉ current.fields.map Prod.fst) ∨
        (∃ f ∈ current.fields, f.1 = prototypeName ∧ ∀ u, previous.fields.lookup f.1 = some u → ¬Same u f.2) ∨
        ∃ f ∈ current.fields, ∃ u, previous.fields.lookup f.1 = some u ∧ Mistaken u f.2
    · exact .inr ⟨hmembers, fun f hf => get_object_isSome.mp (hread f hf), hcause⟩
    · simp only [not_or, not_exists, not_and, not_forall, not_not] at hcause
      obtain ⟨hkeys, hproto, hright⟩ := hcause
      refine .inl ⟨hkeys, fun g hg => ?_⟩
      by_cases hname : g.1 = prototypeName
      · obtain ⟨u, hu, hchild⟩ := hproto g hg hname
        exact ⟨u, hu, hchild⟩
      · obtain ⟨u, hu, hchild | hmistaken⟩ := hmembers g hg hname
        · exact ⟨u, hu, hchild⟩
        · exact absurd hmistaken (hright g hg u hu)
  · rintro (⟨hkeys, hchildren⟩ | ⟨hmembers, hread, -⟩)
    · refine ⟨fun f hf _ => ?_, fun f hf => get_object_isSome.mpr (.inl (hkeys f hf))⟩
      obtain ⟨u, hu, hchild⟩ := hchildren f hf
      exact (hmember f hf).mpr ⟨u, hu, .inl hchild⟩
    · exact ⟨fun f hf hname => (hmember f hf).mpr (hmembers f hf hname), fun f hf => get_object_isSome.mpr (hread f hf)⟩

theorem not_same_of_concealed (h : Concealed previous.fields current.fields) :
    ¬Same (.obj previous.fields) (.obj current.fields) := by
  rw [same_obj_iff current.distinct.1 previous.distinct.1]
  rintro ⟨hkeys, hchildren⟩
  obtain ⟨-, -, ⟨f, hf, hmissing⟩ | ⟨f, hf, -, hdifferent⟩ | ⟨f, hf, u, hu, hmistaken⟩⟩ := h
  · exact hmissing (hkeys f hf)
  · obtain ⟨u, hu, hchild⟩ := hchildren f hf
    exact hdifferent u hu hchild
  · obtain ⟨u', hu', hchild⟩ := hchildren f hf
    rw [hu] at hu'
    cases hu'
    exact not_same_of_mistaken hmistaken hchild

/-- A difference is told of just where it is not concealed, and the two comparisons agree where nothing is mistaken. -/
theorem payloadDiff_iff (a b : Document Number) :
    ((computePayloadDiff previous.fields current.fields = none ↔ Same (.obj previous.fields) (.obj current.fields)) ↔
        ¬Concealed previous.fields current.fields) ∧
      (deepEqual a.value (.value b.value) = Playground.Diffs.deepEqual a.value b.value ↔ ¬Mistaken a.value b.value) := by
  refine ⟨?_, agree_iff a.distinct b.distinct⟩
  rw [computePayloadDiff_eq_none_iff]
  constructor
  · exact fun h hconcealed => not_same_of_concealed previous current hconcealed (h.mp (.inr hconcealed))
  · exact fun h => ⟨fun hor => hor.resolve_right h, .inl⟩

end Payloads

def removedToString : List (Text × Value Number) := [(text "toString", .bool true)]

/-- A removed member `toString` is not told of, and an empty array is taken for an empty object. -/
theorem payloadDiff_wrong : ¬(computePayloadDiff removedToString [] = none ↔ Same (.obj removedToString) (.obj [])) ∧
    deepEqual (.arr []) (.value (.obj [])) ≠ Playground.Diffs.deepEqual (.arr []) (.obj []) := by
  refine ⟨fun h => ?_, Bool.noConfusion⟩
  obtain ⟨hkeys, -⟩ := h.mp rfl
  exact absurd ((hkeys (text "toString")).mp List.mem_cons_self) List.not_mem_nil

end Savitools.Webhook.PayloadDiffs
