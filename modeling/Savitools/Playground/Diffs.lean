import Savitools.Json.Equality
import Savitools.Json.Numbers

namespace Savitools.Playground.Diffs

open Strings.CodeUnits Strings.Decimals Json.Numbers Json.Values Json.Equality Stores.Entries

/-- `===`; two arrays or two objects are never one. -/
def strictEq : Value Number → Value Number → Bool
  | .null, .null => true
  | .bool a, .bool b => a == b
  | .num a, .num b => a == b
  | .str a, .str b => a == b
  | _, _ => false

mutual

def deepEqual : Value Number → Value Number → Bool
  | .arr items, .arr others => items.length == others.length && everyItem items others
  | .obj fields, .obj others => fields.length == others.length && everyField fields others
  | a, b => strictEq a b

/-- Each item is compared with the one at its index. -/
def everyItem : List (Value Number) → List (Value Number) → Bool
  | [], _ => true
  | _ :: _, [] => false
  | v :: items, w :: others => deepEqual v w && everyItem items others

def everyField : List (Text × Value Number) → List (Text × Value Number) → Bool
  | [], _ => true
  | (key, v) :: fields, others =>
      (match others.lookup key with
        | some w => deepEqual v w
        | none => false) && everyField fields others

end

inductive DiffType
  | unchanged
  | added
  | removed
  | changed
deriving DecidableEq

structure DiffEntry where
  path : Text
  type : DiffType
  before : Option (Value Number)
  after : Option (Value Number)

/-- `${path}.${key}` -/
def memberPath (path key : Text) : Text := path ++ unit '.' :: key

/-- `${path}[${i}]` -/
def itemPath (path : Text) (i : Nat) : Text := path ++ unit '[' :: (ofNat i ++ [unit ']'])

def added (path : Text) (after : Value Number) : DiffEntry :=
  { path := path, type := .added, before := none, after := some after }

def removed (path : Text) (before : Value Number) : DiffEntry :=
  { path := path, type := .removed, before := some before, after := none }

/-- The members whose names are not among the given ones. -/
def addedFields (path : Text) (fields others : List (Text × Value Number)) : List DiffEntry :=
  (others.filter fun f => (fields.lookup f.1).isNone).map fun f => added (memberPath path f.1) f.2

mutual

def diffValues (path : Text) (before after : Value Number) : List DiffEntry :=
  if deepEqual before after then [{ path := path, type := .unchanged, before := none, after := none }]
  else
    match before, after with
    | .obj fields, .obj others => diffFields path fields others ++ addedFields path fields others
    | .arr items, .arr others => diffItems path 0 items others
    | before, after => [{ path := path, type := .changed, before := some before, after := some after }]

def diffFields (path : Text) : List (Text × Value Number) → List (Text × Value Number) → List DiffEntry
  | [], _ => []
  | (key, v) :: fields, others =>
      (match others.lookup key with
        | none => [removed (memberPath path key) v]
        | some w => diffValues (memberPath path key) v w) ++ diffFields path fields others

def diffItems (path : Text) (i : Nat) : List (Value Number) → List (Value Number) → List DiffEntry
  | [], others => (others.zipIdx i).map fun item => added (itemPath path item.2) item.1
  | v :: items, [] => removed (itemPath path i) v :: diffItems path (i + 1) items []
  | v :: items, w :: others => diffValues (itemPath path i) v w ++ diffItems path (i + 1) items others

end

theorem everyItem_iff {items others : List (Value Number)} (hlength : items.length = others.length) :
    everyItem items others = true ↔ ∀ v w, (v, w) ∈ items.zip others → deepEqual v w = true := by
  induction items generalizing others with
  | nil => simp [everyItem]
  | cons v items ih =>
      cases others with
      | nil => simp at hlength
      | cons w others =>
          have hrest := @ih others (by simpa using hlength)
          simp only [everyItem, Bool.and_eq_true, hrest, List.zip_cons_cons, List.mem_cons, Prod.mk.injEq]
          constructor
          · rintro ⟨hfirst, hothers⟩ v' w' (⟨rfl, rfl⟩ | hmem)
            · exact hfirst
            · exact hothers v' w' hmem
          · exact fun h => ⟨h v w (.inl ⟨rfl, rfl⟩), fun v' w' hmem => h v' w' (.inr hmem)⟩

theorem everyField_iff {fields others : List (Text × Value Number)} :
    everyField fields others = true ↔ ∀ f ∈ fields, ∃ w, others.lookup f.1 = some w ∧ deepEqual f.2 w = true := by
  induction fields with
  | nil => simp [everyField]
  | cons f fields ih =>
      rw [everyField, Bool.and_eq_true, ih, List.forall_mem_cons]
      refine and_congr ?_ Iff.rfl
      cases others.lookup f.1 <;> simp

/-- `deepEqual` is equality as JSON values. -/
theorem deepEqual_iff {a b : Value Number} (ha : Distinct a) (hb : Distinct b) : deepEqual a b = true ↔ Same a b := by
  induction a using value_induction generalizing b with
  | null => cases b <;> simp [deepEqual, strictEq, Same]
  | bool x => cases b <;> simp [deepEqual, strictEq, Same]
  | num x => cases b <;> simp [deepEqual, strictEq, Same]
  | str x => cases b <;> simp [deepEqual, strictEq, Same]
  | arr items ih =>
      cases b with
      | arr others =>
          rw [Distinct, distinctItems_iff] at ha hb
          rw [deepEqual, Same, sameItems_iff, List.forall₂_iff_zip, Bool.and_eq_true, beq_iff_eq]
          refine and_congr_right fun hlength => (everyItem_iff hlength).trans ?_
          refine forall₂_congr fun v w => imp_congr_right fun hmem => ?_
          obtain ⟨hv, hw⟩ := List.of_mem_zip hmem
          exact ih v hv (ha v hv) (hb w hw)
      | _ => simp [deepEqual, strictEq, Same]
  | obj fields ih =>
      cases b with
      | obj others =>
          obtain ⟨hnodup, hfields⟩ := ha
          obtain ⟨hother, hothers⟩ := hb
          rw [distinctFields_iff] at hfields
          have hmembers : everyField fields others = true ↔ SameFields fields others := by
            rw [everyField_iff, sameFields_iff]
            refine forall₂_congr fun f hf => exists_congr fun w => and_congr_right fun hw => ?_
            exact ih f hf (hfields f hf) (distinct_of_lookup hothers hw)
          rw [deepEqual, Same, Bool.and_eq_true, beq_iff_eq, hmembers]
          refine and_congr_left fun hsame => ⟨fun hlength => ?_, length_eq_of_keys hnodup hother⟩
          refine keys_iff hnodup hlength fun key hkey => ?_
          obtain ⟨f, hf, rfl⟩ := List.mem_map.mp hkey
          obtain ⟨w, hw, -⟩ := sameFields_iff.mp hsame f hf
          exact List.mem_map.mpr ⟨_, mem_of_lookup hw, rfl⟩
      | _ => simp [deepEqual, strictEq, Same]

def stepPath (path : Text) : Step → Text
  | .key name => memberPath path name
  | .index i => itemPath path i

/-- The text of a path behind another. -/
def renderPath (path : Text) : List Step → Text
  | [] => path
  | s :: steps => renderPath (stepPath path s) steps

/-- What is told about one place of two arrays or objects. -/
def entriesAt (path : Text) : Option (Value Number) → Option (Value Number) → List DiffEntry
  | some v, some w => diffValues path v w
  | some v, none => [removed path v]
  | none, some w => [added path w]
  | none, none => []

theorem diffFields_of_mem {path : Text} {fields others : List (Text × Value Number)} {f : Text × Value Number}
    (hf : f ∈ fields) : entriesAt (memberPath path f.1) (some f.2) (others.lookup f.1) ⊆ diffFields path fields others := by
  induction fields with
  | nil => cases hf
  | cons g fields ih =>
      rw [diffFields]
      rcases List.mem_cons.mp hf with rfl | hf
      · refine List.subset_append_of_subset_left _ ?_
        cases others.lookup f.1 <;> exact List.Subset.refl _
      · exact List.subset_append_of_subset_right _ (ih hf)

theorem diffItems_subset (path : Text) (items others : List (Value Number)) (i j : Nat) :
    entriesAt (itemPath path (i + j)) items[j]? others[j]? ⊆ diffItems path i items others := by
  induction items generalizing others i j with
  | nil =>
      rw [List.getElem?_nil, diffItems]
      cases hw : others[j]? with
      | none => exact List.nil_subset _
      | some w =>
          refine List.cons_subset.mpr ⟨List.mem_map.mpr ⟨(w, i + j), ?_, rfl⟩, List.nil_subset _⟩
          rw [List.mk_mem_zipIdx_iff_le_and_getElem?_sub, Nat.add_sub_cancel_left]
          exact ⟨Nat.le_add_right i j, hw⟩
  | cons v items ih =>
      cases j with
      | zero =>
          cases others with
          | nil => simp [diffItems, entriesAt]
          | cons w others => exact List.subset_append_of_subset_left _ (List.Subset.refl _)
      | succ j =>
          have hindex : i + (j + 1) = i + 1 + j := by omega
          rw [hindex, List.getElem?_cons_succ]
          cases others with
          | nil => exact List.subset_cons_of_subset _ (ih [] (i + 1) j)
          | cons w others =>
              rw [List.getElem?_cons_succ, diffItems]
              exact List.subset_append_of_subset_right _ (ih others (i + 1) j)

/-- Of two arrays or objects that differ, each place is told about. -/
theorem entriesAt_subset (path : Text) {a b : Value Number} (hkind : SameKind a b) (hne : deepEqual a b = false) (s : Step) :
    entriesAt (stepPath path s) (child a s) (child b s) ⊆ diffValues path a b := by
  match a, b with
  | .arr items, .arr others =>
      rw [diffValues, hne]
      match s with
      | .key _ => exact List.nil_subset _
      | .index j =>
          have hplace := diffItems_subset path items others 0 j
          rwa [Nat.zero_add] at hplace
  | .obj fields, .obj others =>
      rw [diffValues, hne]
      match s with
      | .index _ => exact List.nil_subset _
      | .key name =>
          rw [child, child, stepPath]
          cases hv : fields.lookup name with
          | some v => exact List.subset_append_of_subset_left _ (diffFields_of_mem (mem_of_lookup hv))
          | none =>
              cases hw : others.lookup name with
              | none => exact List.nil_subset _
              | some w =>
                  refine List.subset_append_of_subset_right _ (List.cons_subset.mpr ⟨?_, List.nil_subset _⟩)
                  refine List.mem_map.mpr ⟨(name, w), List.mem_filter.mpr ⟨mem_of_lookup hw, ?_⟩, rfl⟩
                  rw [hv]
                  rfl

theorem changed_of_kinds (path : Text) {a b : Value Number} (hkind : ¬SameKind a b) (hne : deepEqual a b = false) :
    ∃ e ∈ diffValues path a b, e.path = path ∧ e.type ≠ .unchanged := by
  have hentry : diffValues path a b = [{ path := path, type := .changed, before := some a, after := some b }] := by
    unfold diffValues
    rw [hne, if_neg Bool.false_ne_true]
    split
    · exact absurd trivial hkind
    · exact absurd trivial hkind
    · rfl
  rw [hentry]
  exact ⟨_, List.mem_singleton_self _, rfl, DiffType.noConfusion⟩

def Scalar : Value Number → Prop
  | .arr _ | .obj _ => False
  | _ => True

/-- There is nothing inside. -/
def Memberless (v : Value Number) : Prop := ∀ s, child v s = none

/-- One of the two has a scalar at the path; or one of them has a value there, and none has anything inside. -/
def LeafAt (before after : Value Number) (p : List Step) : Prop :=
  ∃ v, (valueAt before p = some v ∨ valueAt after p = some v) ∧
    (Scalar v ∨ ∀ w, valueAt before p = some w ∨ valueAt after p = some w → Memberless w)

/-- The two do not have the same at the path. -/
def DiffersAt (before after : Value Number) (p : List Step) : Prop := ¬Agree (valueAt before p) (valueAt after p)

/-- An entry tells of a difference at the path or above it. -/
def CoveredIn (entries : List DiffEntry) (path : Text) (p : List Step) : Prop :=
  ∃ q, q <+: p ∧ ∃ e ∈ entries, e.path = renderPath path q ∧ e.type ≠ .unchanged

theorem CoveredIn.mono {entries others : List DiffEntry} {path : Text} {p : List Step} (h : CoveredIn entries path p)
    (hsub : entries ⊆ others) : CoveredIn others path p := by
  obtain ⟨q, hq, e, he, hentry⟩ := h
  exact ⟨q, hq, e, hsub he, hentry⟩

theorem CoveredIn.cons {entries : List DiffEntry} {path : Text} {s : Step} {p : List Step}
    (h : CoveredIn entries (stepPath path s) p) : CoveredIn entries path (s :: p) := by
  obtain ⟨q, hq, e, he, hpath, htype⟩ := h
  exact ⟨s :: q, (List.prefix_cons_inj s).mpr hq, e, he, hpath, htype⟩

theorem coveredIn_singleton {e : DiffEntry} {path : Text} (p : List Step) (hpath : e.path = path) (htype : e.type ≠ .unchanged) :
    CoveredIn [e] path p :=
  ⟨[], List.nil_prefix, e, List.mem_singleton_self e, hpath, htype⟩

/-- A place that only one of the two has is told about as a whole. -/
theorem coveredIn_entriesAt {path : Text} {v w : Option (Value Number)} (p : List Step) (hone : v.isSome ≠ w.isSome) :
    CoveredIn (entriesAt path v w) path p := by
  match v, w with
  | none, none => exact absurd rfl hone
  | some _, some _ => exact absurd rfl hone
  | some _, none => exact coveredIn_singleton p rfl DiffType.noConfusion
  | none, some _ => exact coveredIn_singleton p rfl DiffType.noConfusion

theorem deepEqual_eq_false {a b : Value Number} (ha : Distinct a) (hb : Distinct b) (hne : ¬Same a b) :
    deepEqual a b = false :=
  Bool.eq_false_iff.mpr fun heq => hne ((deepEqual_iff ha hb).mp heq)

/-- What differs has an entry that tells of it. -/
theorem exists_difference {path : Text} {a b : Value Number} (ha : Distinct a) (hb : Distinct b) (hne : ¬Same a b) :
    ∃ e ∈ diffValues path a b, e.type ≠ .unchanged := by
  induction a using child_induction generalizing b path with
  | step a ih =>
      have hunequal := deepEqual_eq_false ha hb hne
      by_cases hkind : SameKind a b
      · obtain ⟨s, hs⟩ : ∃ s, ¬Agree (child a s) (child b s) := by
          by_contra hall
          exact hne (same_of_children ha hkind fun s => not_not.mp fun h => hall ⟨s, h⟩)
        have hsub := entriesAt_subset path hkind hunequal s
        cases hv : child a s with
        | none =>
            cases hw : child b s with
            | none => exact absurd (.inl ⟨hv, hw⟩) hs
            | some w =>
                rw [hv, hw] at hsub
                exact ⟨_, hsub (List.mem_singleton_self _), DiffType.noConfusion⟩
        | some v =>
            cases hw : child b s with
            | none =>
                rw [hv, hw] at hsub
                exact ⟨_, hsub (List.mem_singleton_self _), DiffType.noConfusion⟩
            | some w =>
                rw [hv, hw] at hsub
                have hsame : ¬Same v w := fun h => hs (.inr ⟨v, w, hv, hw, h⟩)
                obtain ⟨e, he, htype⟩ := ih s v hv (distinct_child ha hv) (distinct_child hb hw) hsame
                exact ⟨e, hsub he, htype⟩
      · obtain ⟨e, he, -, htype⟩ := changed_of_kinds path hkind hunequal
        exact ⟨e, he, htype⟩

/-- Two containers of one kind are no leaves, unless both are empty. -/
theorem same_of_leafAt_nil {a b : Value Number} (ha : Distinct a) (hkind : SameKind a b) (hleaf : LeafAt a b []) : Same a b := by
  obtain ⟨v, hv, hscalar | hempty⟩ := hleaf
  · have hcontainer : ¬Scalar a ∧ ¬Scalar b := by
      match a, b with
      | .arr _, .arr _ => exact ⟨id, id⟩
      | .obj _, .obj _ => exact ⟨id, id⟩
    rcases hv with hv | hv
    · cases hv
      exact absurd hscalar hcontainer.1
    · cases hv
      exact absurd hscalar hcontainer.2
  · exact same_of_children ha hkind fun s => .inl ⟨hempty a (.inl rfl) s, hempty b (.inr rfl) s⟩

/-- Every leaf at which two values differ is covered. -/
theorem coveredIn_diffValues {path : Text} {a b : Value Number} (ha : Distinct a) (hb : Distinct b) {p : List Step}
    (hleaf : LeafAt a b p) (hdiffers : DiffersAt a b p) : CoveredIn (diffValues path a b) path p := by
  induction p generalizing a b path with
  | nil =>
      have hne : ¬Same a b := fun h => hdiffers (agree_valueAt h [])
      have hkind : ¬SameKind a b := fun h => hne (same_of_leafAt_nil ha h hleaf)
      obtain ⟨e, he, hpath, htype⟩ := changed_of_kinds path hkind (deepEqual_eq_false ha hb hne)
      exact ⟨[], List.nil_prefix, e, he, hpath, htype⟩
  | cons s p ih =>
      have hne : ¬Same a b := fun h => hdiffers (agree_valueAt h (s :: p))
      have hunequal := deepEqual_eq_false ha hb hne
      by_cases hkind : SameKind a b
      · refine (CoveredIn.cons ?_).mono (entriesAt_subset path hkind hunequal s)
        simp only [LeafAt, DiffersAt, valueAt] at hleaf hdiffers
        cases hv : child a s with
        | none =>
            cases hw : child b s with
            | none =>
                rw [hv, hw] at hdiffers
                exact absurd (.inl ⟨rfl, rfl⟩) hdiffers
            | some w => exact coveredIn_entriesAt p (by simp)
        | some v =>
            cases hw : child b s with
            | none => exact coveredIn_entriesAt p (by simp)
            | some w =>
                rw [hv, hw] at hleaf hdiffers
                exact ih (distinct_child ha hv) (distinct_child hb hw) hleaf hdiffers
      · obtain ⟨e, he, hpath, htype⟩ := changed_of_kinds path hkind hunequal
        exact ⟨[], List.nil_prefix, e, he, hpath, htype⟩

/-- The entries are all `unchanged` just for equal values, and leave out no leaf at which the two differ. -/
theorem diffValues_complete (before after : Document Number) :
    ((∀ e ∈ diffValues (text "$") before.value after.value, e.type = .unchanged) ↔ deepEqual before.value after.value = true) ∧
      ∀ p, LeafAt before.value after.value p → DiffersAt before.value after.value p →
        CoveredIn (diffValues (text "$") before.value after.value) (text "$") p := by
  refine ⟨⟨fun h => ?_, fun h => ?_⟩, fun p => coveredIn_diffValues before.distinct after.distinct⟩
  · by_contra hne
    have hdifferent : ¬Same before.value after.value := fun hsame =>
      hne ((deepEqual_iff before.distinct after.distinct).mpr hsame)
    obtain ⟨e, he, htype⟩ := exists_difference before.distinct after.distinct hdifferent
    exact htype (h e he)
  · unfold diffValues
    rw [if_pos h]
    exact List.forall_mem_singleton.mpr rfl

end Savitools.Playground.Diffs
