import Savitools.Common.Exceptions
import Savitools.Json.RoundTrip
import Savitools.Webhook.PayloadDiffs

namespace Savitools.SorobanStorage.StorageDiffs

open Strings.CodeUnits Strings.Decimals Json.Numbers Json.Values Json.Equality Json.Writing Json.RoundTrip Stores.Entries
open Common.Exceptions
open Webhook.PayloadDiffs (prototypeName methodNames)

/-- A number or a bigint. -/
inductive Numeric
  | number (x : Number)
  | bigint (n : Int)
deriving DecidableEq

/-- What `scValToNative` makes of a value. -/
abbrev Decoded := Value Numeric

mutual

/-- What `JSON.stringify` writes of a value; nothing, if there is a bigint in it. -/
def plain : Decoded → Option (Value Number)
  | .null => some .null
  | .bool b => some (.bool b)
  | .num (.number x) => some (.num x)
  | .num (.bigint _) => none
  | .str t => some (.str t)
  | .arr items => (plainItems items).map .arr
  | .obj fields => (plainFields fields).map .obj

def plainItems : List Decoded → Option (List (Value Number))
  | [] => some []
  | v :: items => (plain v).bind fun w => (plainItems items).map (w :: ·)

def plainFields : List (Text × Decoded) → Option (List (Text × Value Number))
  | [] => some []
  | (key, v) :: fields => (plain v).bind fun w => (plainFields fields).map ((key, w) :: ·)

end

def jsonText (v : Decoded) : Except Text Text :=
  match plain v with
  | some p => .ok (stringify p)
  | none => .error (text "Do not know how to serialize a BigInt")

/-- What is read of a value: a value of its own, or what arrays and objects inherit. -/
inductive Read
  | value (v : Decoded)
  | objectPrototype
  | arrayPrototype
  | function (name : Text)

inductive TypeName
  | object
  | boolean
  | number
  | bigint
  | string
  | function
deriving DecidableEq

def typeName : Read → TypeName
  | .value .null => .object
  | .value (.bool _) => .boolean
  | .value (.num (.number _)) => .number
  | .value (.num (.bigint _)) => .bigint
  | .value (.str _) => .string
  | .value (.arr _) => .object
  | .value (.obj _) => .object
  | .objectPrototype => .object
  | .arrayPrototype => .object
  | .function _ => .function

def isNull : Read → Bool
  | .value .null => true
  | _ => false

/-- The items of what is an array; the prototype of arrays is an empty one. -/
def Read.items : Read → Option (List Decoded)
  | .value (.arr items) => some items
  | .arrayPrototype => some []
  | _ => none

/-- `Object.keys`, of what is `null` or an object. -/
def Read.keys : Read → Except Text (List Text)
  | .value .null => .error (text "Cannot convert undefined or null to object")
  | .value (.arr items) => .ok ((List.range items.length).map ofNat)
  | .value (.obj fields) => .ok (fields.map Prod.fst)
  | _ => .ok []

/-- `===`, of what is no array or object. -/
def strictEq : Read → Read → Bool
  | .value .null, .value .null => true
  | .value (.bool a), .value (.bool b) => a == b
  | .value (.num a), .value (.num b) => a == b
  | .value (.str a), .value (.str b) => a == b
  | .function f, .function g => f == g
  | _, _ => false

/-- The methods that arrays have and other objects have not. -/
def arrayMethodNames : List Text :=
  [text "at", text "concat", text "copyWithin", text "entries", text "every", text "fill", text "filter", text "find",
    text "findIndex", text "findLast", text "findLastIndex", text "flat", text "flatMap", text "forEach", text "includes",
    text "indexOf", text "join", text "keys", text "lastIndexOf", text "map", text "pop", text "push", text "reduce",
    text "reduceRight", text "reverse", text "shift", text "slice", text "some", text "sort", text "splice",
    text "toReversed", text "toSorted", text "toSpliced", text "unshift", text "values", text "with"]

def objectMember (key : Text) : Option Read :=
  if key = prototypeName then some .objectPrototype else if key ∈ methodNames then some (.function key) else none

def arrayMember (key : Text) : Option Read :=
  if key = prototypeName then some .arrayPrototype
  else if key ∈ methodNames ∨ key ∈ arrayMethodNames then some (.function key)
  else none

def lengthOf (items : List Decoded) : Decoded := .num (.number (.ofInt items.length))

/-- A property of the array itself. -/
def ownItem (items : List Decoded) (key : Text) : Option Decoded :=
  if key = text "length" then some (lengthOf items)
  else ((List.range items.length).find? fun i => ofNat i = key).bind (items[·]?)

/-- `x[key]`, if `key in x`. -/
def Read.get : Read → Text → Option Read
  | .value (.obj fields), key => ((fields.lookup key).map .value).or (objectMember key)
  | .value (.arr items), key => ((ownItem items key).map .value).or (arrayMember key)
  | .arrayPrototype, key =>
      if key = text "length" then some (.value (lengthOf []))
      else if key = prototypeName then some .objectPrototype
      else arrayMember key
  | .objectPrototype, key => if key = prototypeName then some (.value .null) else objectMember key
  | _, _ => none

/-- How much there is inside. -/
noncomputable def Read.weight : Read → Nat
  | .value (.arr items) => sizeOf items + 2
  | .value (.obj fields) => sizeOf fields + 2
  | .arrayPrototype => 2
  | .objectPrototype => 1
  | _ => 0

theorem weight_item {x : Read} {items : List Decoded} (hitems : x.items = some items) {i : Nat} {v : Decoded}
    (hv : items[i]? = some v) : (Read.value v).weight < x.weight := by
  match x with
  | .value (.arr _) =>
      cases hitems
      have hsize := List.sizeOf_lt_of_mem (List.mem_of_getElem? hv)
      cases v <;> simp only [Read.weight, Value.arr.sizeOf_spec, Value.obj.sizeOf_spec] at hsize ⊢ <;> omega
  | .arrayPrototype =>
      cases hitems
      cases hv

theorem ownItem_weight {items : List Decoded} {key : Text} {v : Decoded} (h : ownItem items key = some v) :
    (Read.value v).weight < (Read.value (.arr items)).weight := by
  rw [ownItem] at h
  split at h
  · cases h
    simp only [lengthOf, Read.weight]
    omega
  · obtain ⟨i, -, hi⟩ := Option.bind_eq_some_iff.mp h
    exact weight_item rfl hi

theorem objectMember_weight {key : Text} {y : Read} (h : objectMember key = some y) : y.weight < 2 := by
  rw [objectMember] at h
  split at h
  · cases h
    exact Nat.one_lt_two
  · split at h <;> cases h
    exact Nat.two_pos

theorem arrayMember_weight {key : Text} {y : Read} (h : arrayMember key = some y) : y.weight < 3 := by
  rw [arrayMember] at h
  split at h
  · cases h
    exact Nat.lt_succ_self 2
  · split at h <;> cases h
    exact Nat.zero_lt_succ 2

theorem weight_get {x y : Read} {key : Text} (h : x.get key = some y) : y.weight < x.weight := by
  match x with
  | .value (.obj fields) =>
      rw [Read.get, Option.or_eq_some_iff] at h
      rcases h with hown | ⟨-, hmember⟩
      · obtain ⟨v, hv, rfl⟩ := Option.map_eq_some_iff.mp hown
        have hmem := List.sizeOf_lt_of_mem (mem_of_lookup hv)
        simp only [Prod.mk.sizeOf_spec] at hmem
        cases v <;> simp only [Read.weight, Value.arr.sizeOf_spec, Value.obj.sizeOf_spec] at hmem ⊢ <;> omega
      · exact (objectMember_weight hmember).trans_le (Nat.le_add_left 2 _)
  | .value (.arr items) =>
      have hpos : 0 < sizeOf items := by cases items <;> simp
      rw [Read.get, Option.or_eq_some_iff] at h
      rcases h with hown | ⟨-, hmember⟩
      · obtain ⟨v, hv, rfl⟩ := Option.map_eq_some_iff.mp hown
        exact ownItem_weight hv
      · exact (arrayMember_weight hmember).trans_le (Nat.add_le_add_right hpos 2)
  | .arrayPrototype =>
      rw [Read.get] at h
      split at h
      · cases h
        exact Nat.two_pos
      split at h
      · cases h
        exact Nat.one_lt_two
      next hname =>
        rw [arrayMember, if_neg hname] at h
        split at h <;> cases h
        exact Nat.two_pos
  | .objectPrototype =>
      rw [Read.get] at h
      split at h
      · cases h
        exact Nat.one_pos
      next hname =>
        rw [objectMember, if_neg hname] at h
        split at h <;> cases h
        exact Nat.one_pos
  | .function _ | .value .null | .value (.bool _) | .value (.num _) | .value (.str _) => cases h

structure Change where
  path : Text
  oldValue : Option Read
  newValue : Option Read

def orRoot (path : Text) : Text := if path = [] then text "root" else path

def indexPath (path : Text) (i : Nat) : Text := path ++ unit '[' :: (ofNat i ++ [unit ']'])

def keyPath (path key : Text) : Text := if path = [] then key else path ++ unit '.' :: key

/-- What is listed for each, one after the other. -/
def pushEach {α : Type} (xs : List α) (f : α → Except Text (List Change)) : Except Text (List Change) :=
  (xs.mapM f).map List.flatten

def generateDetailedChanges (oldValue newValue : Read) (path : Text) : Except Text (List Change) :=
  if typeName oldValue ≠ typeName newValue then .ok [{ path := orRoot path, oldValue, newValue }]
  else if typeName oldValue = .object ∧ ¬isNull oldValue then
    match _ : oldValue.items, _ : newValue.items with
    | some items, some others =>
        pushEach (List.range (max items.length others.length)) fun i =>
          match _ : items[i]?, _ : others[i]? with
          | none, w => .ok [{ path := indexPath path i, oldValue := none, newValue := w.map .value }]
          | some v, none => .ok [{ path := indexPath path i, oldValue := some (.value v), newValue := none }]
          | some v, some w => generateDetailedChanges (.value v) (.value w) (indexPath path i)
    | _, _ =>
        oldValue.keys.bind fun oldKeys => newValue.keys.bind fun newKeys =>
          pushEach (oldKeys ++ newKeys).eraseDups fun key =>
            match _ : oldValue.get key, _ : newValue.get key with
            | none, w => .ok [{ path := keyPath path key, oldValue := none, newValue := w }]
            | some v, none => .ok [{ path := keyPath path key, oldValue := v, newValue := none }]
            | some v, some w => generateDetailedChanges v w (keyPath path key)
  else if ¬strictEq oldValue newValue then .ok [{ path := orRoot path, oldValue, newValue }]
  else .ok []
termination_by oldValue.weight + newValue.weight
decreasing_by
  · exact Nat.add_lt_add (weight_item ‹_› ‹_›) (weight_item ‹_› ‹_›)
  · exact Nat.add_lt_add (weight_get ‹_›) (weight_get ‹_›)

/-- What is listed for one key or one index. -/
def memberChanges (path : Text) : Option Read → Option Read → Except Text (List Change)
  | none, w => .ok [{ path, oldValue := none, newValue := w }]
  | some v, none => .ok [{ path, oldValue := v, newValue := none }]
  | some v, some w => generateDetailedChanges v w path

theorem generateDetailedChanges_eq (oldValue newValue : Read) (path : Text) :
    generateDetailedChanges oldValue newValue path =
      if typeName oldValue ≠ typeName newValue then .ok [{ path := orRoot path, oldValue, newValue }]
      else if typeName oldValue = .object ∧ ¬isNull oldValue then
        match oldValue.items, newValue.items with
        | some items, some others =>
            pushEach (List.range (max items.length others.length)) fun i =>
              memberChanges (indexPath path i) (items[i]?.map .value) (others[i]?.map .value)
        | _, _ =>
            oldValue.keys.bind fun oldKeys => newValue.keys.bind fun newKeys =>
              pushEach (oldKeys ++ newKeys).eraseDups fun key =>
                memberChanges (keyPath path key) (oldValue.get key) (newValue.get key)
      else if ¬strictEq oldValue newValue then .ok [{ path := orRoot path, oldValue, newValue }]
      else .ok [] := by
  have hitem (items others : List Decoded) (i : Nat) :
      (match _ : items[i]?, _ : others[i]? with
        | none, w => .ok [{ path := indexPath path i, oldValue := none, newValue := w.map .value }]
        | some v, none => .ok [{ path := indexPath path i, oldValue := some (.value v), newValue := none }]
        | some v, some w => generateDetailedChanges (.value v) (.value w) (indexPath path i)) =
      memberChanges (indexPath path i) (items[i]?.map .value) (others[i]?.map .value) := by
    split <;> simp only [*, Option.map_none, Option.map_some, memberChanges]
  have hkey (key : Text) :
      (match _ : oldValue.get key, _ : newValue.get key with
        | none, w => .ok [{ path := keyPath path key, oldValue := none, newValue := w }]
        | some v, none => .ok [{ path := keyPath path key, oldValue := v, newValue := none }]
        | some v, some w => generateDetailedChanges v w (keyPath path key)) =
      memberChanges (keyPath path key) (oldValue.get key) (newValue.get key) := by
    split <;> simp only [*, memberChanges]
  rw [generateDetailedChanges]
  split
  · rfl
  split
  · simp only [hitem, hkey]
    split <;> simp only [*]
  · rfl

structure EntryKey where
  xdr : Text

structure EntryValue where
  decoded : Decoded

structure StorageEntry where
  key : EntryKey
  value : EntryValue

inductive Status
  | added
  | removed
  | modified
  | unchanged
deriving DecidableEq

structure StorageDiff where
  key : Text
  status : Status
  oldValue : Option Decoded
  newValue : Option Decoded
  changes : Option (List Change)

def generateStorageDiff : Option StorageEntry → Option StorageEntry → Except Text StorageDiff
  | none, none =>
      .ok { key := text "unknown", status := .unchanged, oldValue := none, newValue := none, changes := none }
  | none, some entry2 =>
      .ok { key := entry2.key.xdr, status := .added, oldValue := none, newValue := entry2.value.decoded, changes := none }
  | some entry1, none =>
      .ok { key := entry1.key.xdr, status := .removed, oldValue := entry1.value.decoded, newValue := none, changes := none }
  | some entry1, some entry2 =>
      (jsonText entry1.value.decoded).bind fun text1 => (jsonText entry2.value.decoded).bind fun text2 =>
        if text1 = text2 then
          .ok {
            key := entry1.key.xdr
            status := .unchanged
            oldValue := entry1.value.decoded
            newValue := entry2.value.decoded
            changes := none }
        else
          (generateDetailedChanges (.value entry1.value.decoded) (.value entry2.value.decoded) []).bind fun changes =>
            .ok {
              key := entry1.key.xdr
              status := .modified
              oldValue := entry1.value.decoded
              newValue := entry2.value.decoded
              changes := some changes }

mutual

/-- No key twice and only numbers whose JSON text is read back. -/
def Storable : Decoded → Prop
  | .num (.number x) => Readable x
  | .arr items => StorableItems items
  | .obj fields => (fields.map Prod.fst).Nodup ∧ StorableFields fields
  | _ => True

def StorableItems : List Decoded → Prop
  | [] => True
  | v :: items => Storable v ∧ StorableItems items

def StorableFields : List (Text × Decoded) → Prop
  | [] => True
  | (_, v) :: fields => Storable v ∧ StorableFields fields

end

/-- A value as it is decoded. -/
structure DecodedValue where
  value : Decoded
  storable : Storable value

theorem storableItems_iff {items : List Decoded} : StorableItems items ↔ ∀ v ∈ items, Storable v := by
  induction items with
  | nil => simp [StorableItems]
  | cons v items ih => rw [StorableItems, ih, List.forall_mem_cons]

theorem storableFields_iff {fields : List (Text × Decoded)} : StorableFields fields ↔ ∀ f ∈ fields, Storable f.2 := by
  induction fields with
  | nil => simp [StorableFields]
  | cons f fields ih => rw [StorableFields, ih, List.forall_mem_cons]

theorem distinct_of_storable {v : Decoded} (h : Storable v) : Distinct v := by
  induction v using value_induction with
  | null => trivial
  | bool b => trivial
  | num n => trivial
  | str t => trivial
  | arr items ih => exact distinctItems_iff.mpr fun v hv => ih v hv (storableItems_iff.mp h v hv)
  | obj fields ih => exact ⟨h.1, distinctFields_iff.mpr fun f hf => ih f hf (storableFields_iff.mp h.2 f hf)⟩

mutual

/-- A value without bigints among the decoded ones. -/
def ofPlain : Value Number → Decoded
  | .null => .null
  | .bool b => .bool b
  | .num x => .num (.number x)
  | .str t => .str t
  | .arr items => .arr (ofPlainItems items)
  | .obj fields => .obj (ofPlainFields fields)

def ofPlainItems : List (Value Number) → List Decoded
  | [] => []
  | p :: items => ofPlain p :: ofPlainItems items

def ofPlainFields : List (Text × Value Number) → List (Text × Decoded)
  | [] => []
  | (key, p) :: fields => (key, ofPlain p) :: ofPlainFields fields

end

theorem eq_ofPlainItems {items : List Decoded} (ih : ∀ v ∈ items, ∀ p, plain v = some p → v = ofPlain p)
    {ps : List (Value Number)} (h : plainItems items = some ps) : items = ofPlainItems ps := by
  induction items generalizing ps with
  | nil =>
      cases h
      rfl
  | cons v items ihs =>
      obtain ⟨hfirst, hrest⟩ := List.forall_mem_cons.mp ih
      obtain ⟨p, hp, htail⟩ := Option.bind_eq_some_iff.mp h
      obtain ⟨qs, hqs, rfl⟩ := Option.map_eq_some_iff.mp htail
      rw [ofPlainItems, ← hfirst p hp, ← ihs hrest hqs]

theorem eq_ofPlainFields {fields : List (Text × Decoded)} (ih : ∀ f ∈ fields, ∀ p, plain f.2 = some p → f.2 = ofPlain p)
    {ps : List (Text × Value Number)} (h : plainFields fields = some ps) : fields = ofPlainFields ps := by
  induction fields generalizing ps with
  | nil =>
      cases h
      rfl
  | cons f fields ihs =>
      obtain ⟨key, v⟩ := f
      obtain ⟨hfirst, hrest⟩ := List.forall_mem_cons.mp ih
      obtain ⟨p, hp, htail⟩ := Option.bind_eq_some_iff.mp h
      obtain ⟨qs, hqs, rfl⟩ := Option.map_eq_some_iff.mp htail
      rw [ofPlainFields, ← hfirst p hp, ← ihs hrest hqs]

theorem eq_ofPlain {v : Decoded} {p : Value Number} (h : plain v = some p) : v = ofPlain p := by
  induction v using value_induction generalizing p with
  | null =>
      cases h
      rfl
  | bool b =>
      cases h
      rfl
  | num n =>
      cases n with
      | number x =>
          cases h
          rfl
      | bigint n => cases h
  | str t =>
      cases h
      rfl
  | arr items ih =>
      obtain ⟨ps, hps, rfl⟩ := Option.map_eq_some_iff.mp h
      rw [ofPlain, ← eq_ofPlainItems (fun v hv p => ih v hv) hps]
  | obj fields ih =>
      obtain ⟨ps, hps, rfl⟩ := Option.map_eq_some_iff.mp h
      rw [ofPlain, ← eq_ofPlainFields (fun f hf p => ih f hf) hps]

theorem ofPlainItems_eq_map (items : List (Value Number)) : ofPlainItems items = items.map ofPlain := by
  induction items with
  | nil => rfl
  | cons p items ih => rw [ofPlainItems, ih, List.map_cons]

theorem ofPlainFields_eq_map (fields : List (Text × Value Number)) :
    ofPlainFields fields = fields.map fun f => (f.1, ofPlain f.2) := by
  induction fields with
  | nil => rfl
  | cons f fields ih => rw [ofPlainFields, ih, List.map_cons]

theorem faithful_of_readable {x : Number} (h : Readable x) : Faithful (.num x) := by
  cases x with
  | finite q => exact h
  | infinite negative =>
      have hletter : unit 'I' ∈ numberText (.infinite negative) := by cases negative <;> decide
      exact absurd (h.2.1 _ hletter) (by decide)

theorem faithful_of_storable {p : Value Number} (h : Storable (ofPlain p)) : Faithful p := by
  induction p using value_induction with
  | null => trivial
  | bool b => trivial
  | num x => exact faithful_of_readable h
  | str t => trivial
  | arr items ih =>
      rw [ofPlain, Storable, ofPlainItems_eq_map, storableItems_iff, List.forall_mem_map] at h
      exact faithfulItems_iff.mpr fun p hp => ih p hp (h p hp)
  | obj fields ih =>
      rw [ofPlain, Storable, ofPlainFields_eq_map, List.map_map, storableFields_iff, List.forall_mem_map] at h
      exact ⟨h.1, faithfulFields_iff.mpr fun f hf => ih f hf (h.2 f hf)⟩

/-- Values without bigints have one text just if they are equal, with the same order of members. -/
theorem stringify_eq_iff {v w : DecodedValue} {p q : Value Number} (hv : plain v.value = some p)
    (hw : plain w.value = some q) : stringify p = stringify q ↔ v.value = w.value := by
  have hp := eq_ofPlain hv
  have hq := eq_ofPlain hw
  constructor
  · intro h
    rw [hp, hq, stringify_inj (faithful_of_storable (hp ▸ v.storable)) (faithful_of_storable (hq ▸ w.storable)) h]
  · intro h
    rw [h, hw] at hv
    rw [Option.some.inj hv]

/-- The path of a place, as it is put together on the way there. -/
def stepPath (path : Text) : Step → Text
  | .key name => keyPath path name
  | .index i => indexPath path i

def placePath (place : List Step) : Text := place.foldl stepPath []

/-- A listed path is that of a place; that of the whole is listed as `root`. -/
def Names (path : Text) (place : List Step) : Prop :=
  path = placePath place ∨ (placePath place = [] ∧ path = text "root")

def IsPlace (a b : Decoded) (place : List Step) : Prop := (valueAt a place).isSome ∨ (valueAt b place).isSome

def Agrees : Option Read → Option Decoded → Prop
  | none, none => True
  | some (.value x), some v => Same x v
  | _, _ => False

/-- The changes turn `a` into `b`: each listed path is that of just one place, where `a` has the listed old value and `b`
the new one that replaces it, and away from these places nothing is told apart. -/
structure Turns (changes : List Change) (a b : Decoded) : Prop where
  listed : ∀ c ∈ changes, ∃ place, IsPlace a b place ∧ Names c.path place ∧
    (∀ other, IsPlace a b other → Names c.path other → other = place) ∧
      Agrees c.oldValue (valueAt a place) ∧ Agrees c.newValue (valueAt b place)
  kept : ∀ place, (∀ before, before <+: place → ∀ c ∈ changes, ¬Names c.path before) →
    Option.Rel Alike (valueAt a place) (valueAt b place)

/-- The diff of two entries is there, tells whether the values are the same, and lists what turns the old one into the new. -/
def DiffExact (entry1 entry2 : StorageEntry) : Prop :=
  ∃ diff, generateStorageDiff (some entry1) (some entry2) = .ok diff ∧
    (diff.status = .unchanged ↔ Same entry1.value.decoded entry2.value.decoded) ∧
      (diff.status = .modified → ∃ changes, diff.changes = some changes ∧ changes ≠ [] ∧
        Turns changes entry1.value.decoded entry2.value.decoded)

def Container : Decoded → Prop
  | .arr _ => True
  | .obj _ => True
  | _ => False

/-- What every object inherits under the last key of a place. -/
def inheritedAt (place : List Step) : Option Read :=
  match place.getLast? with
  | some (.key name) => objectMember name
  | _ => none

def listedPath (place : List Step) (v w : Option Decoded) : Text :=
  if v.isSome ∧ w.isSome then orRoot (placePath place) else placePath place

/-- Wherever both values are met, no array or object stands against `null` or against one of the other kind; no key that
every object inherits is on one side only; and where they differ, the path is that of no other place. -/
structure Comparable (a b : Decoded) : Prop where
  kinds : ∀ place v w, Met a b place (some v) (some w) → Container v → typeName (.value w) = .object → SameKind v w
  keys : ∀ place v w, Met a b place v w → (v = none ∨ w = none) → inheritedAt place = none
  paths : ∀ place v w, Met a b place v w → ¬Option.Rel Alike v w →
    ∀ other, IsPlace a b other → Names (listedPath place v w) other → other = place

section Lists

variable {α : Type} {xs : List α} {f : α → Except Text (List Change)} {changes : List Change}

theorem pushEach_ok (h : pushEach xs f = .ok changes) :
    (∀ x ∈ xs, ∃ part, f x = .ok part ∧ part ⊆ changes) ∧ ∀ c ∈ changes, ∃ x ∈ xs, ∃ part, f x = .ok part ∧ c ∈ part := by
  obtain ⟨parts, hparts, rfl⟩ := map_eq_ok_iff.mp h
  obtain ⟨hgiven, hread⟩ := mapM_ok hparts
  constructor
  · intro x hx
    obtain ⟨part, hpart, hf⟩ := hgiven x hx
    exact ⟨part, hf, fun c hc => List.mem_flatten.mpr ⟨part, hpart, hc⟩⟩
  · intro c hc
    obtain ⟨part, hpart, hmem⟩ := List.mem_flatten.mp hc
    obtain ⟨x, hx, hf⟩ := hread part hpart
    exact ⟨x, hx, part, hf, hmem⟩

theorem exists_pushEach_ok (h : ∀ x ∈ xs, ∃ part, f x = .ok part) : ∃ changes, pushEach xs f = .ok changes := by
  obtain ⟨parts, hparts⟩ := exists_mapM_ok h
  exact ⟨parts.flatten, map_eq_ok_iff.mpr ⟨parts, hparts, rfl⟩⟩

end Lists

/-- What is read at a step from a value; there may be something inherited. -/
def readStep (v : Decoded) (s : Step) : Option Read := ((child v s).map .value).or (inheritedAt [s])

theorem pushEach_map {α β : Type} (g : α → β) (xs : List α) (f : β → Except Text (List Change)) :
    pushEach (xs.map g) f = pushEach xs fun x => f (g x) := by
  rw [pushEach, pushEach, List.mapM_map]
  rfl

/-- Two arrays or two objects are compared step by step. -/
theorem changes_sameKind {v w : Decoded} (hkind : SameKind v w) : ∃ steps : List Step,
    (∀ s, s ∈ steps ↔ (child v s).isSome ∨ (child w s).isSome) ∧ ∀ path, generateDetailedChanges (.value v) (.value w) path =
      pushEach steps fun s => memberChanges (stepPath path s) (readStep v s) (readStep w s) := by
  match v, w with
  | .arr items, .arr others =>
      refine ⟨(List.range (max items.length others.length)).map .index, fun s => ?_, fun path => ?_⟩
      · cases s with
        | key name => simp [child]
        | index i => simp [child]
      · rw [generateDetailedChanges_eq, pushEach_map]
        simp only [typeName, ne_eq, not_true_eq_false, if_false, isNull, Bool.false_eq_true, not_false_eq_true, and_self,
          if_true, Read.items, readStep, child, inheritedAt, List.getLast?_singleton, Option.or_none, stepPath]
  | .obj fields, .obj others =>
      refine ⟨(fields.map Prod.fst ++ others.map Prod.fst).eraseDups.map .key, fun s => ?_, fun path => ?_⟩
      · cases s with
        | key name =>
            rw [List.mem_map_of_injective fun _ _ => Step.key.inj, List.mem_eraseDups, List.mem_append, child, child,
              lookup_isSome_iff, lookup_isSome_iff]
        | index i => simp [child]
      · rw [generateDetailedChanges_eq, pushEach_map]
        rfl

theorem container_iff {v : Decoded} : Container v ↔ typeName (.value v) = .object ∧ ¬isNull (.value v) = true := by
  rcases v with _ | b | (x | n) | t | items | fields <;> simp [Container, typeName, isNull]

theorem typeName_of_alike {v w : Decoded} (h : Alike v w) : typeName (.value v) = typeName (.value w) := by
  rcases v with _ | b | (x | n) | t | items | fields <;> rcases w with _ | b | (x | n) | t | items | fields <;>
    first | rfl | cases h

theorem strictEq_iff {v w : Decoded} (hv : ¬Container v) (htype : typeName (.value v) = typeName (.value w)) :
    strictEq (.value v) (.value w) = true ↔ Alike v w := by
  rcases v with _ | b | (x | n) | t | items | fields
  case arr => exact absurd trivial hv
  case obj => exact absurd trivial hv
  all_goals
    rcases w with _ | b | (x | n) | t | items | fields <;>
      first | (cases htype; done) | simp [Alike, strictEq]

/-- Where no array or object stands against an object, a difference is listed as a whole. -/
theorem changes_whole {v w : Decoded} (h : Container v → typeName (.value w) ≠ .object) (path : Text) :
    (Alike v w → generateDetailedChanges (.value v) (.value w) path = .ok []) ∧
      (¬Alike v w → generateDetailedChanges (.value v) (.value w) path =
        .ok [{ path := orRoot path, oldValue := some (.value v), newValue := some (.value w) }]) := by
  rw [generateDetailedChanges_eq]
  by_cases htype : typeName (.value v) = typeName (.value w)
  · have hcontainer : ¬Container v := fun hv => h hv (htype ▸ (container_iff.mp hv).1)
    have hequal := strictEq_iff hcontainer htype
    rw [if_neg (not_not.mpr htype), if_neg (mt container_iff.mpr hcontainer)]
    exact ⟨fun halike => if_neg (not_not.mpr (hequal.mpr halike)), fun halike => if_pos (mt hequal.mp halike)⟩
  · rw [if_pos htype]
    exact ⟨fun halike => absurd (typeName_of_alike halike) htype, fun _ => rfl⟩

/-- `Object.keys` fails of `null`. -/
theorem changes_null {v : Decoded} (hv : Container v) (path : Text) (changes : List Change) :
    generateDetailedChanges (.value v) (.value .null) path ≠ .ok changes := by
  rw [generateDetailedChanges_eq]
  intro h
  match v with
  | .arr items => cases h
  | .obj fields => cases h

/-- No change is listed that replaces an array or object by another one. -/
theorem changes_not_containers {oldValue newValue : Read} {path : Text} {changes : List Change}
    (h : generateDetailedChanges oldValue newValue path = .ok changes) : ∀ c ∈ changes, ∀ v w,
      c.oldValue = some (.value v) → c.newValue = some (.value w) → ¬(Container v ∧ Container w) := by
  induction hn : oldValue.weight + newValue.weight using Nat.strong_induction_on
    generalizing oldValue newValue path changes with
  | _ n ih =>
      have hmember {x y : Option Read} {inner : Text} {part : List Change}
          (hless : ∀ v w, x = some v → y = some w → v.weight + w.weight < n)
          (hpart : memberChanges inner x y = .ok part) : ∀ c ∈ part, ∀ v w,
            c.oldValue = some (.value v) → c.newValue = some (.value w) → ¬(Container v ∧ Container w) := by
        cases x with
        | none =>
            cases hpart
            intro c hc v w hv
            rw [List.mem_singleton.mp hc] at hv
            cases hv
        | some v' =>
            cases y with
            | none =>
                cases hpart
                intro c hc v w hv hw
                rw [List.mem_singleton.mp hc] at hw
                cases hw
            | some w' => exact ih _ (hless v' w' rfl rfl) hpart rfl
      rw [generateDetailedChanges_eq] at h
      split at h
      next htype =>
        cases h
        intro c hc v w hv hw hboth
        rw [List.mem_singleton.mp hc] at hv hw
        cases hv
        cases hw
        exact htype ((container_iff.mp hboth.1).1.trans (container_iff.mp hboth.2).1.symm)
      split at h
      · split at h
        next items others hitems hothers =>
          intro c hc
          obtain ⟨i, -, part, hpart, hmem⟩ := (pushEach_ok h).2 c hc
          refine hmember (fun v w hv hw => ?_) hpart c hmem
          obtain ⟨x, hx, rfl⟩ := Option.map_eq_some_iff.mp hv
          obtain ⟨y, hy, rfl⟩ := Option.map_eq_some_iff.mp hw
          exact hn ▸ Nat.add_lt_add (weight_item hitems hx) (weight_item hothers hy)
        next =>
          obtain ⟨oldKeys, -, hrest⟩ := bind_eq_ok.mp h
          obtain ⟨newKeys, -, hlisted⟩ := bind_eq_ok.mp hrest
          intro c hc
          obtain ⟨key, -, part, hpart, hmem⟩ := (pushEach_ok hlisted).2 c hc
          exact hmember (fun v w hv hw => hn ▸ Nat.add_lt_add (weight_get hv) (weight_get hw)) hpart c hmem
      next hobject =>
        split at h
        · cases h
          intro c hc v w hv hw hboth
          rw [List.mem_singleton.mp hc] at hv
          cases hv
          exact hobject (container_iff.mp hboth.1)
        · cases h
          exact fun c hc => absurd hc List.not_mem_nil

/-- What every object inherits is a function or the prototype. -/
def Inherited (r : Read) : Prop := r = .objectPrototype ∨ ∃ name, r = .function name

theorem inherited_objectMember {key : Text} {r : Read} (h : objectMember key = some r) : Inherited r := by
  rw [objectMember] at h
  split at h
  · cases h
    exact .inl rfl
  · split at h <;> cases h
    exact .inr ⟨key, rfl⟩

theorem get_objectPrototype {key : Text} {r : Read} (h : Read.objectPrototype.get key = some r) :
    typeName r = .function ∨ isNull r = true := by
  rw [Read.get] at h
  split at h
  · cases h
    exact .inr rfl
  next hname =>
    rw [objectMember, if_neg hname] at h
    split at h <;> cases h
    exact .inl rfl

theorem isNull_iff {r : Read} : isNull r = true ↔ r = .value .null := by
  constructor
  · intro h
    match r with
    | .value .null => rfl
  · rintro rfl
    rfl

/-- Of a function or of `null` nothing inside is compared. -/
theorem changes_leaf {x y : Read} {path : Text} {changes : List Change}
    (h : generateDetailedChanges x y path = .ok changes)
    (hleaf : (typeName x = .function ∨ isNull x = true) ∨ typeName y = .function ∨ isNull y = true) :
    ∀ c ∈ changes, c.path = orRoot path := by
  have hsingle (listed : Change) (hlisted : listed.path = orRoot path) : ∀ c ∈ [listed], c.path = orRoot path := by
    intro c hc
    rw [List.mem_singleton.mp hc, hlisted]
  rw [generateDetailedChanges_eq] at h
  split at h
  · cases h
    exact hsingle _ rfl
  next htype =>
    split at h
    next hobject =>
      have hnull : y = .value .null := by
        rcases hleaf with (hx | hx) | hy | hy
        · rw [hobject.1] at hx
          cases hx
        · exact absurd hx hobject.2
        · rw [← not_not.mp htype, hobject.1] at hy
          cases hy
        · exact isNull_iff.mp hy
      subst hnull
      split at h
      next hothers => cases hothers
      next =>
        obtain ⟨oldKeys, -, hrest⟩ := bind_eq_ok.mp h
        obtain ⟨newKeys, hnewKeys, -⟩ := bind_eq_ok.mp hrest
        cases hnewKeys
    · split at h
      · cases h
        exact hsingle _ rfl
      · cases h
        exact List.forall_mem_nil _

theorem keyPath_ne_nil {path : Text} (hpath : path ≠ []) (key : Text) : keyPath path key ≠ [] := by
  rw [keyPath, if_neg hpath]
  simp

/-- Against what is inherited a value is listed as a whole, or only under its keys. -/
theorem changes_inherited {x y : Read} {path : Text} {changes : List Change}
    (h : generateDetailedChanges x y path = .ok changes) (hinherited : Inherited x ∨ Inherited y) (hpath : path ≠ []) :
    changes = [{ path := orRoot path, oldValue := some x, newValue := some y }] ∨
      ∀ c ∈ changes, ∃ key, c.path = keyPath path key := by
  rw [generateDetailedChanges_eq] at h
  split at h
  · cases h
    exact .inl rfl
  next htype =>
    split at h
    next hobject =>
      have hprototype : x = .objectPrototype ∨ y = .objectPrototype := by
        rcases hinherited with (hx | ⟨name, rfl⟩) | hy | ⟨name, rfl⟩
        · exact .inl hx
        · cases hobject.1
        · exact .inr hy
        · have hfunction : typeName (.function name) = .object := (not_not.mp htype).symm.trans hobject.1
          cases hfunction
      split at h
      next hitems hothers =>
        rcases hprototype with rfl | rfl
        · cases hitems
        · cases hothers
      next =>
        right
        obtain ⟨oldKeys, -, hrest⟩ := bind_eq_ok.mp h
        obtain ⟨newKeys, -, hlisted⟩ := bind_eq_ok.mp hrest
        intro c hc
        obtain ⟨key, -, part, hpart, hmem⟩ := (pushEach_ok hlisted).2 c hc
        refine ⟨key, ?_⟩
        cases hv : x.get key with
        | none =>
            rw [hv] at hpart
            cases hpart
            rw [List.mem_singleton.mp hmem]
        | some v =>
            cases hw : y.get key with
            | none =>
                rw [hv, hw] at hpart
                cases hpart
                rw [List.mem_singleton.mp hmem]
            | some w =>
                rw [hv, hw] at hpart
                have hleaf := changes_leaf hpart (hprototype.imp (fun hx => get_objectPrototype (hx ▸ hv))
                  fun hy => get_objectPrototype (hy ▸ hw)) c hmem
                rw [hleaf, orRoot, if_neg (keyPath_ne_nil hpath key)]
    · split at h
      · cases h
        exact .inl rfl
      · cases h
        exact .inr (List.forall_mem_nil _)

/-- What is read at a place. -/
def readPlace (place : List Step) (v : Option Decoded) : Option Read := (v.map .value).or (inheritedAt place)

def listedChange (place : List Step) (v w : Option Decoded) : Change where
  path := listedPath place v w
  oldValue := v.map .value
  newValue := w.map .value

theorem not_agrees_none (r : Read) : ¬Agrees (some r) none := by
  cases r <;> exact id

theorem inherited_inheritedAt {place : List Step} {r : Read} (h : inheritedAt place = some r) : Inherited r := by
  rw [inheritedAt] at h
  split at h
  · exact inherited_objectMember h
  · cases h

/-- Against what is inherited a member is listed as a whole, with something that is no value, or only under its keys. -/
theorem member_inherited {place : List Step} {v w : Option Decoded} {part : List Change} (hsome : v.isSome ∨ w.isSome)
    (hnone : v = none ∨ w = none) (hkeys : inheritedAt place ≠ none) (hpath : placePath place ≠ [])
    (h : memberChanges (placePath place) (readPlace place v) (readPlace place w) = .ok part) :
    (∃ d, part = [d] ∧ d.path = placePath place ∧ ¬(Agrees d.oldValue v ∧ Agrees d.newValue w)) ∨
      ∀ c ∈ part, ∃ key, c.path = keyPath (placePath place) key := by
  obtain ⟨r, hr⟩ := Option.ne_none_iff_exists'.mp hkeys
  have hroot : orRoot (placePath place) = placePath place := if_neg hpath
  rw [readPlace, readPlace, hr] at h
  cases v with
  | none =>
      cases w with
      | none => simp at hsome
      | some y =>
          refine (changes_inherited h (.inl (inherited_inheritedAt hr)) hpath).imp_left fun hpart => ⟨_, hpart, hroot, ?_⟩
          exact fun hagree => not_agrees_none r hagree.1
  | some x =>
      cases w with
      | some y => rcases hnone with hnone | hnone <;> cases hnone
      | none =>
          refine (changes_inherited h (.inr (inherited_inheritedAt hr)) hpath).imp_left fun hpart => ⟨_, hpart, hroot, ?_⟩
          exact fun hagree => not_agrees_none r hagree.2

theorem placePath_concat (place : List Step) (s : Step) : placePath (place ++ [s]) = stepPath (placePath place) s := by
  rw [placePath, List.foldl_concat, placePath]

theorem inheritedAt_concat (place : List Step) (s : Step) : inheritedAt (place ++ [s]) = inheritedAt [s] := by
  rw [inheritedAt, inheritedAt, List.getLast?_concat, List.getLast?_singleton]

section Runs

variable {a b : Decoded} {changes : List Change}

/-- The changes at each place that is met are among the listed ones. -/
theorem met_changes (h : generateDetailedChanges (.value a) (.value b) [] = .ok changes) {place : List Step}
    {v w : Option Decoded} (hmet : Met a b place v w) : ∃ part,
      memberChanges (placePath place) (readPlace place v) (readPlace place w) = .ok part ∧ part ⊆ changes := by
  induction hmet with
  | root => exact ⟨changes, h, List.Subset.refl _⟩
  | @step place v w s hmet hkind hsome ih =>
      obtain ⟨part, hpart, hsubset⟩ := ih
      obtain ⟨steps, hsteps, heq⟩ := changes_sameKind hkind
      have hlisted : pushEach steps _ = .ok part := (heq (placePath place)).symm.trans hpart
      obtain ⟨inner, hinner, hinside⟩ := (pushEach_ok hlisted).1 s ((hsteps s).mpr hsome)
      refine ⟨inner, ?_, List.Subset.trans hinside hsubset⟩
      rw [placePath_concat, readPlace, readPlace, inheritedAt_concat]
      exact hinner

theorem not_rel_of_none {v w : Option Decoded} (hsome : v.isSome ∨ w.isSome) (hnone : v = none ∨ w = none) :
    ¬Option.Rel Alike v w := by
  intro hrel
  cases hrel with
  | none => rcases hsome with h | h <;> cases h
  | some halike => rcases hnone with h | h <;> cases h

/-- A difference is listed with its two values, unless what is missing on one side is inherited. -/
theorem member_listed {place : List Step} {v w : Option Decoded} (hsome : v.isSome ∨ w.isSome)
    (hdiffer : ¬Option.Rel Alike v w) (hkeys : v = none ∨ w = none → inheritedAt place = none)
    (hkinds : ∀ x y, v = some x → w = some y → Container x → typeName (.value y) = .object → SameKind x y) :
    memberChanges (placePath place) (readPlace place v) (readPlace place w) = .ok [listedChange place v w] := by
  cases v with
  | none =>
      cases w with
      | none => simp at hsome
      | some y =>
          rw [readPlace, readPlace, hkeys (.inl rfl)]
          rfl
  | some x =>
      cases w with
      | none =>
          rw [readPlace, readPlace, hkeys (.inr rfl)]
          rfl
      | some y =>
          have halike : ¬Alike x y := fun h => hdiffer (.some h)
          exact (changes_whole (fun hx hy => halike (alike_of_sameKind (hkinds x y rfl rfl hx hy))) (placePath place)).2 halike

/-- A change is that of a place where the values differ, or it comes from comparing with what is inherited. -/
def Origin (a b : Decoded) (c : Change) : Prop :=
  (∃ place v w, Met a b place v w ∧ ¬Option.Rel Alike v w ∧ (v = none ∨ w = none → inheritedAt place = none) ∧
    c = listedChange place v w) ∨
  ∃ place v w part, Met a b place v w ∧ (v = none ∨ w = none) ∧ inheritedAt place ≠ none ∧
    memberChanges (placePath place) (readPlace place v) (readPlace place w) = .ok part ∧ c ∈ part

theorem changes_origin (hkinds : ∀ place v w, Met a b place (some v) (some w) → Container v →
      typeName (.value w) = .object → SameKind v w)
    {place : List Step} {v w : Decoded} (hmet : Met a b place (some v) (some w)) {part : List Change}
    (h : generateDetailedChanges (.value v) (.value w) (placePath place) = .ok part) : ∀ c ∈ part, Origin a b c := by
  induction v using child_induction generalizing place w part with
  | step v ih =>
      intro c hc
      by_cases hkind : SameKind v w
      · obtain ⟨steps, hsteps, heq⟩ := changes_sameKind hkind
        rw [heq] at h
        obtain ⟨s, hs, inner, hinner, hmem⟩ := (pushEach_ok h).2 c hc
        have hsome := (hsteps s).mp hs
        have hnext := Met.step s hmet hkind hsome
        have hread : memberChanges (placePath (place ++ [s])) (readPlace (place ++ [s]) (child v s))
            (readPlace (place ++ [s]) (child w s)) = .ok inner := by
          rw [placePath_concat, readPlace, readPlace, inheritedAt_concat]
          exact hinner
        by_cases hone : child v s = none ∨ child w s = none
        · by_cases hkeys : inheritedAt (place ++ [s]) = none
          · have hdiffer := not_rel_of_none hsome hone
            have hboth (x y : Decoded) (hx : child v s = some x) (hy : child w s = some y) :
                Container x → typeName (.value y) = .object → SameKind x y := by
              rw [hx, hy] at hone
              rcases hone with hnone | hnone <;> cases hnone
            rw [member_listed hsome hdiffer (fun _ => hkeys) hboth] at hread
            cases hread
            exact .inl ⟨_, _, _, hnext, hdiffer, fun _ => hkeys, List.mem_singleton.mp hmem⟩
          · exact .inr ⟨_, _, _, inner, hnext, hone, hkeys, hread, hmem⟩
        · obtain ⟨hv, hw⟩ := not_or.mp hone
          obtain ⟨x, hx⟩ := Option.ne_none_iff_exists'.mp hv
          obtain ⟨y, hy⟩ := Option.ne_none_iff_exists'.mp hw
          rw [hx, hy] at hnext hread
          exact ih s x hx hnext hread c hmem
      · have hwhole := changes_whole (fun hx hy => hkind (hkinds _ _ _ hmet hx hy)) (placePath place)
        by_cases halike : Alike v w
        · rw [hwhole.1 halike] at h
          cases h
          exact absurd hc List.not_mem_nil
        · rw [hwhole.2 halike] at h
          cases h
          refine .inl ⟨place, some v, some w, hmet, ?_, ?_, List.mem_singleton.mp hc⟩
          · rintro ⟨hrel⟩
            exact halike hrel
          · rintro (hnone | hnone) <;> cases hnone

theorem names_unique (hturns : Turns changes a b) {c : Change} (hc : c ∈ changes) {place : List Step}
    (hplace : IsPlace a b place) (hname : Names c.path place) :
    (∀ other, IsPlace a b other → Names c.path other → other = place) ∧
      Agrees c.oldValue (valueAt a place) ∧ Agrees c.newValue (valueAt b place) := by
  obtain ⟨only, -, -, hunique, hold, hnew⟩ := hturns.listed c hc
  obtain rfl := hunique place hplace hname
  exact ⟨hunique, hold, hnew⟩

theorem isPlace_of_met {place : List Step} {v w : Option Decoded} (hmet : Met a b place v w) : IsPlace a b place := by
  obtain ⟨hv, hw⟩ := hmet.valueAt_eq
  rw [IsPlace, hv, hw]
  exact hmet.isSome

theorem container_of_same {x v : Decoded} (h : Same x v) (hv : Container v) : Container x := by
  cases v with
  | arr items =>
      cases x with
      | arr others => trivial
      | _ => cases h
  | obj fields =>
      cases x with
      | obj others => trivial
      | _ => cases h
  | _ => cases hv

/-- An array or object is not replaced by another one. -/
theorem not_listed (h : generateDetailedChanges (.value a) (.value b) [] = .ok changes) (hturns : Turns changes a b)
    {place : List Step} {v w : Decoded} (hmet : Met a b place (some v) (some w)) (hv : Container v) (hw : Container w) :
    ∀ c ∈ changes, ¬Names c.path place := by
  intro c hc hname
  obtain ⟨-, hold, hnew⟩ := names_unique hturns hc (isPlace_of_met hmet) hname
  rw [hmet.valueAt_eq.1] at hold
  rw [hmet.valueAt_eq.2] at hnew
  cases hx : c.oldValue with
  | none =>
      rw [hx] at hold
      cases hold
  | some x =>
      cases hy : c.newValue with
      | none =>
          rw [hy] at hnew
          cases hnew
      | some y =>
          rw [hx] at hold
          rw [hy] at hnew
          cases x with
          | value x =>
              cases y with
              | value y =>
                  exact changes_not_containers h c hc x y hx hy ⟨container_of_same hold hv, container_of_same hnew hw⟩
              | _ => cases hnew
          | _ => cases hold

theorem container_of_sameKind {v w : Decoded} (h : SameKind v w) : Container v ∧ Container w := by
  match v, w with
  | .arr _, .arr _ => exact ⟨trivial, trivial⟩
  | .obj _, .obj _ => exact ⟨trivial, trivial⟩

/-- At a place that is met the values are alike, or a change is listed there. -/
theorem listed_of_not_alike (h : generateDetailedChanges (.value a) (.value b) [] = .ok changes)
    (hturns : Turns changes a b) {place : List Step} {v w : Option Decoded} (hmet : Met a b place v w)
    (hdiffer : ¬Option.Rel Alike v w) : ∃ c ∈ changes, Names c.path place := by
  by_contra hnone
  obtain ⟨hv, hw⟩ := hmet.valueAt_eq
  refine hdiffer (hv ▸ hw ▸ hturns.kept place fun before hbefore c hc hname => ?_)
  rcases hmet.of_prefix hbefore with rfl | ⟨x, y, hmiddle, hkind⟩
  · exact hnone ⟨c, hc, hname⟩
  · exact not_listed h hturns hmiddle (container_of_sameKind hkind).1 (container_of_sameKind hkind).2 c hc hname

theorem kinds_of_turns (h : generateDetailedChanges (.value a) (.value b) [] = .ok changes) (hturns : Turns changes a b) :
    ∀ place v w, Met a b place (some v) (some w) → Container v → typeName (.value w) = .object → SameKind v w := by
  intro place v w hmet hv hw
  by_cases hnull : isNull (.value w) = true
  · cases isNull_iff.mp hnull
    obtain ⟨part, hpart, -⟩ := met_changes h hmet
    exact absurd hpart (changes_null hv _ part)
  · have hcontainer := container_iff.mpr ⟨hw, hnull⟩
    have halike : Alike v w := by
      by_contra hdiffer
      obtain ⟨c, hc, hname⟩ := listed_of_not_alike h hturns hmet (fun hrel => by cases hrel; contradiction)
      exact not_listed h hturns hmet hv hcontainer c hc hname
    match v, w with
    | .arr _, .arr _ => trivial
    | .obj _, .obj _ => trivial

theorem placePath_ne_nil {place : List Step} (h : inheritedAt place ≠ none) : placePath place ≠ [] := by
  rcases place.eq_nil_or_concat' with rfl | ⟨before, s, rfl⟩
  · exact absurd rfl h
  · rw [inheritedAt_concat] at h
    rw [placePath_concat]
    cases s with
    | index i => exact absurd rfl h
    | key name =>
        by_cases hpath : placePath before = []
        · rw [stepPath, keyPath, if_pos hpath]
          rintro rfl
          exact h (by decide)
        · exact keyPath_ne_nil hpath name

theorem eq_placePath {path : Text} {place : List Step} (hplace : placePath place ≠ []) (h : Names path place) :
    path = placePath place := h.resolve_right fun hroot => hplace hroot.1

theorem names_listedPath (place : List Step) (v w : Option Decoded) : Names (listedPath place v w) place := by
  rw [listedPath, Names, orRoot]
  split
  · split
    next hpath => exact .inr ⟨hpath, rfl⟩
    · exact .inl rfl
  · exact .inl rfl

/-- Where a key that is inherited is on one side only, the one change that could turn the one side into the other is not
listed, or it is listed for a place with a shorter path of the same kind. -/
theorem keys_of_turns (h : generateDetailedChanges (.value a) (.value b) [] = .ok changes) (hturns : Turns changes a b)
    (place : List Step) (v w : Option Decoded) (hmet : Met a b place v w) (hone : v = none ∨ w = none) :
    inheritedAt place = none := by
  induction hn : (placePath place).length using Nat.strong_induction_on generalizing place v w with
  | _ n ih =>
      by_contra hkeys
      have hpath := placePath_ne_nil hkeys
      have hplace := isPlace_of_met hmet
      obtain ⟨part, hpart, hsubset⟩ := met_changes h hmet
      obtain ⟨c, hc, hname⟩ := listed_of_not_alike h hturns hmet (not_rel_of_none hmet.isSome hone)
      obtain ⟨hunique, -, -⟩ := names_unique hturns hc hplace hname
      have hcpath := eq_placePath hpath hname
      -- the changes at the place itself cannot be the one that is needed
      have hinner {d : Change} (hd : d ∈ part) (hdpath : d.path = placePath place) :
          ¬(Agrees d.oldValue v ∧ Agrees d.newValue w) → False := by
        intro hdiffer
        obtain ⟨-, hold, hnew⟩ := names_unique hturns (hsubset hd) hplace (.inl hdpath)
        rw [hmet.valueAt_eq.1] at hold
        rw [hmet.valueAt_eq.2] at hnew
        exact hdiffer ⟨hold, hnew⟩
      rcases member_inherited hmet.isSome hone hkeys hpath hpart with ⟨d, rfl, hdpath, hdiffer⟩ | hdeeper
      · exact hinner List.mem_cons_self hdpath hdiffer
      rcases changes_origin (kinds_of_turns h hturns) Met.root h c hc with
        ⟨other, x, y, hother, -, hnone, rfl⟩ | ⟨other, x, y, inner, hother, hnone, hinherits, hlisted, hmem⟩
      · obtain rfl := hunique other (isPlace_of_met hother) (names_listedPath other x y)
        rw [← hother.valueAt_eq.1, ← hother.valueAt_eq.2, hmet.valueAt_eq.1, hmet.valueAt_eq.2] at hnone
        exact hkeys (hnone hone)
      · have hotherPath := placePath_ne_nil hinherits
        rcases member_inherited hother.isSome hnone hinherits hotherPath hlisted with ⟨d, rfl, hdpath, -⟩ | hunder
        · rw [List.mem_singleton.mp hmem] at hunique hcpath
          obtain rfl := hunique other (isPlace_of_met hother) (.inl hdpath)
          rw [← hother.valueAt_eq.1, ← hother.valueAt_eq.2, hmet.valueAt_eq.1, hmet.valueAt_eq.2, hpart] at hlisted
          cases hlisted
          obtain ⟨key, hkey⟩ := hdeeper d List.mem_cons_self
          rw [hdpath, keyPath, if_neg hotherPath, List.self_eq_append_right] at hkey
          cases hkey
        · obtain ⟨key, hkey⟩ := hunder c hmem
          rw [hcpath, keyPath, if_neg hotherPath] at hkey
          refine hinherits (ih _ ?_ other x y hother hnone rfl)
          rw [← hn, hkey, List.length_append, List.length_cons]
          omega

theorem comparable_of_turns (h : generateDetailedChanges (.value a) (.value b) [] = .ok changes)
    (hturns : Turns changes a b) : Comparable a b where
  kinds := kinds_of_turns h hturns
  keys := keys_of_turns h hturns
  paths := by
    intro place v w hmet hdiffer other hother hname
    have hlisted := member_listed hmet.isSome hdiffer (keys_of_turns h hturns place v w hmet) fun x y hx hy =>
      kinds_of_turns h hturns place x y (hx ▸ hy ▸ hmet)
    obtain ⟨part, hpart, hsubset⟩ := met_changes h hmet
    cases hlisted.symm.trans hpart
    exact (names_unique hturns (hsubset List.mem_cons_self) (isPlace_of_met hmet) (names_listedPath place v w)).1 other
      hother hname

theorem exists_changes (hcomparable : Comparable a b) {place : List Step} {v w : Decoded}
    (hmet : Met a b place (some v) (some w)) :
    ∃ part, generateDetailedChanges (.value v) (.value w) (placePath place) = .ok part := by
  induction v using child_induction generalizing place w with
  | step v ih =>
      by_cases hkind : SameKind v w
      · obtain ⟨steps, hsteps, heq⟩ := changes_sameKind hkind
        rw [heq]
        refine exists_pushEach_ok fun s hs => ?_
        have hsome := (hsteps s).mp hs
        have hnext := Met.step s hmet hkind hsome
        have hread : memberChanges (placePath (place ++ [s])) (readPlace (place ++ [s]) (child v s))
              (readPlace (place ++ [s]) (child w s)) =
            memberChanges (stepPath (placePath place) s) (readStep v s) (readStep w s) := by
          rw [placePath_concat, readPlace, readPlace, inheritedAt_concat]
          rfl
        rw [← hread]
        by_cases hone : child v s = none ∨ child w s = none
        · refine ⟨_, member_listed hsome (not_rel_of_none hsome hone) (hcomparable.keys _ _ _ hnext) fun x y hx hy => ?_⟩
          exact hcomparable.kinds _ x y (hx ▸ hy ▸ hnext)
        · obtain ⟨hv, hw⟩ := not_or.mp hone
          obtain ⟨x, hx⟩ := Option.ne_none_iff_exists'.mp hv
          obtain ⟨y, hy⟩ := Option.ne_none_iff_exists'.mp hw
          rw [hx, hy] at hnext ⊢
          exact ih s x hx hnext
      · have hwhole := changes_whole (fun hx hy => hkind (hcomparable.kinds _ _ _ hmet hx hy)) (placePath place)
        by_cases halike : Alike v w
        · exact ⟨_, hwhole.1 halike⟩
        · exact ⟨_, hwhole.2 halike⟩

theorem child_eq_none_of_alike {v w : Decoded} (halike : Alike v w) (hkind : ¬SameKind v w) (s : Step) :
    child v s = none ∧ child w s = none := by
  match v, w with
  | .null, .null => exact ⟨rfl, rfl⟩
  | .bool _, .bool _ => exact ⟨rfl, rfl⟩
  | .num _, .num _ => exact ⟨rfl, rfl⟩
  | .str _, .str _ => exact ⟨rfl, rfl⟩
  | .arr _, .arr _ => exact absurd trivial hkind
  | .obj _, .obj _ => exact absurd trivial hkind

/-- The changes that are listed are those of the places that are met with different values. -/
theorem listed_of_comparable (hcomparable : Comparable a b)
    (h : generateDetailedChanges (.value a) (.value b) [] = .ok changes) {place : List Step} {v w : Option Decoded}
    (hmet : Met a b place v w) (hdiffer : ¬Option.Rel Alike v w) : listedChange place v w ∈ changes := by
  have hlisted := member_listed hmet.isSome hdiffer (hcomparable.keys place v w hmet) fun x y hx hy =>
    hcomparable.kinds place x y (hx ▸ hy ▸ hmet)
  obtain ⟨part, hpart, hsubset⟩ := met_changes h hmet
  cases hlisted.symm.trans hpart
  exact hsubset List.mem_cons_self

theorem alike_of_not_listed (hcomparable : Comparable a b)
    (h : generateDetailedChanges (.value a) (.value b) [] = .ok changes) {place : List Step} {v w : Option Decoded}
    (hmet : Met a b place v w) (hkept : ∀ c ∈ changes, ¬Names c.path place) : Option.Rel Alike v w := by
  by_contra hdiffer
  exact hkept _ (listed_of_comparable hcomparable h hmet hdiffer) (names_listedPath place v w)

/-- A place with no change on the way is one where the values are alike, or one that both have not. -/
theorem kept_of_comparable (hcomparable : Comparable a b)
    (h : generateDetailedChanges (.value a) (.value b) [] = .ok changes) (place : List Step)
    (hkept : ∀ before, before <+: place → ∀ c ∈ changes, ¬Names c.path before) :
    (valueAt a place = none ∧ valueAt b place = none) ∨ ∃ v w, Met a b place (some v) (some w) ∧ Alike v w := by
  induction place using List.reverseRecOn with
  | nil =>
      obtain ⟨hroot⟩ := alike_of_not_listed hcomparable h .root (hkept [] (List.prefix_refl []))
      exact .inr ⟨a, b, .root, hroot⟩
  | append_singleton place s ih =>
      have hbefore : ∀ before, before <+: place → ∀ c ∈ changes, ¬Names c.path before :=
        fun before hbefore => hkept before (hbefore.trans (List.prefix_append place [s]))
      rw [valueAt_concat, valueAt_concat]
      rcases ih hbefore with ⟨ha, hb⟩ | ⟨v, w, hmet, hvw⟩
      · rw [ha, hb]
        exact .inl ⟨rfl, rfl⟩
      rw [hmet.valueAt_eq.1, hmet.valueAt_eq.2, Option.bind_some, Option.bind_some]
      by_cases hkind : SameKind v w
      · by_cases hsome : (child v s).isSome ∨ (child w s).isSome
        · have hnext := Met.step s hmet hkind hsome
          have hrel := alike_of_not_listed hcomparable h hnext (hkept _ (List.prefix_refl _))
          cases hv : child v s with
          | none =>
              cases hw : child w s with
              | none => exact .inl ⟨rfl, rfl⟩
              | some y =>
                  rw [hv, hw] at hrel
                  cases hrel
          | some x =>
              cases hw : child w s with
              | none =>
                  rw [hv, hw] at hrel
                  cases hrel
              | some y =>
                  rw [hv, hw] at hnext hrel
                  cases hrel
                  exact .inr ⟨x, y, hnext, by assumption⟩
        · rw [not_or, Option.not_isSome_iff_eq_none, Option.not_isSome_iff_eq_none] at hsome
          exact .inl hsome
      · exact .inl (child_eq_none_of_alike hvw hkind s)

theorem agrees_value {v : Option Decoded} (h : ∀ x ∈ v, Distinct x) : Agrees (v.map .value) v := by
  cases v with
  | none => trivial
  | some x => exact same_refl (h x rfl)

theorem turns_of_comparable (ha : Distinct a) (hb : Distinct b) (hcomparable : Comparable a b)
    (h : generateDetailedChanges (.value a) (.value b) [] = .ok changes) : Turns changes a b where
  listed := by
    intro c hc
    rcases changes_origin hcomparable.kinds Met.root h c hc with
      ⟨place, v, w, hmet, hdiffer, -, rfl⟩ | ⟨place, v, w, -, hmet, hone, hinherits, -⟩
    · obtain ⟨rfl, rfl⟩ := hmet.valueAt_eq
      exact ⟨place, isPlace_of_met hmet, names_listedPath place _ _, hcomparable.paths place _ _ hmet hdiffer,
        agrees_value fun x => distinct_valueAt ha, agrees_value fun x => distinct_valueAt hb⟩
    · exact absurd (hcomparable.keys place v w hmet hone) hinherits
  kept := by
    intro place hkept
    rcases kept_of_comparable hcomparable h place hkept with ⟨hv, hw⟩ | ⟨v, w, hmet, halike⟩
    · rw [hv, hw]
      exact .none
    · rw [hmet.valueAt_eq.1, hmet.valueAt_eq.2]
      exact .some halike

/-- Values that are turned into each other by no change are the same. -/
theorem ne_nil_of_turns (ha : Distinct a) (hturns : Turns changes a b) (hdiffer : ¬Same a b) : changes ≠ [] := by
  rintro rfl
  exact hdiffer (same_of_alike ha fun place => hturns.kept place fun _ _ _ hc => absurd hc List.not_mem_nil)

end Runs

theorem jsonText_eq_ok {v : Decoded} {t : Text} : jsonText v = .ok t ↔ ∃ p, plain v = some p ∧ stringify p = t := by
  rw [jsonText]
  cases plain v with
  | none => simp
  | some p => simp

/-- The diff is exact just for values without bigints that, if they are the same, have their members in one order and, if
they are not, can be compared place by place. -/
theorem generateStorageDiff_exact_iff (key1 key2 : EntryKey) (a b : DecodedValue) :
    DiffExact { key := key1, value := { decoded := a.value } } { key := key2, value := { decoded := b.value } } ↔
      ((plain a.value).isSome ∧ (plain b.value).isSome) ∧ (Same a.value b.value → a.value = b.value) ∧
        (¬Same a.value b.value → Comparable a.value b.value) := by
  have ha := distinct_of_storable a.storable
  have hb := distinct_of_storable b.storable
  constructor
  · rintro ⟨diff, hdiff, hunchanged, hmodified⟩
    obtain ⟨text1, htext1, hrest⟩ := bind_eq_ok.mp hdiff
    obtain ⟨text2, htext2, hresult⟩ := bind_eq_ok.mp hrest
    obtain ⟨p, hp, rfl⟩ := jsonText_eq_ok.mp htext1
    obtain ⟨q, hq, rfl⟩ := jsonText_eq_ok.mp htext2
    refine ⟨⟨by rw [hp]; rfl, by rw [hq]; rfl⟩, fun hsame => ?_, fun hdiffer => ?_⟩
    · split at hresult
      next htext => exact (stringify_eq_iff hp hq).mp htext
      next =>
        obtain ⟨changes, -, hlast⟩ := bind_eq_ok.mp hresult
        cases hlast
        cases hunchanged.mpr hsame
    · split at hresult
      next =>
        cases hresult
        exact absurd (hunchanged.mp rfl) hdiffer
      next =>
        obtain ⟨changes, hchanges, hlast⟩ := bind_eq_ok.mp hresult
        cases hlast
        obtain ⟨listed, hlisted, -, hturns⟩ := hmodified rfl
        cases hlisted
        exact comparable_of_turns hchanges hturns
  · rintro ⟨⟨hpa, hpb⟩, horder, hcomparable⟩
    obtain ⟨p, hp⟩ := Option.isSome_iff_exists.mp hpa
    obtain ⟨q, hq⟩ := Option.isSome_iff_exists.mp hpb
    have htexts := stringify_eq_iff hp hq
    rw [DiffExact, generateStorageDiff, jsonText_eq_ok.mpr ⟨p, hp, rfl⟩, jsonText_eq_ok.mpr ⟨q, hq, rfl⟩, Except.bind,
      Except.bind]
    by_cases hsame : Same a.value b.value
    · rw [if_pos (htexts.mpr (horder hsame))]
      exact ⟨_, rfl, iff_of_true rfl hsame, fun hmodified => by cases hmodified⟩
    · have hdiffer : stringify p ≠ stringify q := fun htext => hsame (htexts.mp htext ▸ same_refl ha)
      obtain ⟨changes, hchanges⟩ := exists_changes (hcomparable hsame) Met.root
      have hturns := turns_of_comparable ha hb (hcomparable hsame) hchanges
      rw [if_neg hdiffer, show generateDetailedChanges _ _ [] = _ from hchanges]
      exact ⟨_, rfl, iff_of_false Status.noConfusion hsame,
        fun _ => ⟨changes, rfl, ne_nil_of_turns ha hturns hsame, hturns⟩⟩

def bigintEntry (n : Int) : StorageEntry where
  key := { xdr := text "AAAADwAAAAdCYWxhbmNl" }
  value := { decoded := .num (.bigint n) }

/-- Of two entries with bigints there is no diff. -/
theorem not_diffExact_bigint : ¬DiffExact (bigintEntry 1) (bigintEntry 2) := by
  rintro ⟨diff, hdiff, -⟩
  cases hdiff

end Savitools.SorobanStorage.StorageDiffs
