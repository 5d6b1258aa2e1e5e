import Mathlib.Data.List.Basic

namespace Parts.Slots

variable {α : Type}

/-- The pieces of a list, of one size but for the last. -/
def pieces (size : Nat) (t : List α) : List (List α) :=
  (List.range ((t.length + size - 1) / size)).map (fun i => (t.drop (i * size)).take size)

/-- The places of the parts, each filled once it has been seen. -/
def slots (parts : List α) (seen : Nat → Bool) : List (Option α) :=
  parts.mapIdx (fun i a => if seen i then some a else none)

def filled (places : List (Option α)) : Nat := places.countP Option.isSome

theorem flatten_take_pieces (size : Nat) (t : List α) (k : Nat) :
    ((List.range k).map (fun i => (t.drop (i * size)).take size)).flatten = t.take (k * size) := by
  induction k with
  | zero => simp
  | succ k ih =>
      rw [List.range_succ, List.map_append, List.flatten_append, ih, Nat.succ_mul, List.take_add]
      simp

theorem flatten_pieces {size : Nat} (hsize : 0 < size) (t : List α) : (pieces size t).flatten = t := by
  rw [pieces, flatten_take_pieces]
  apply List.take_of_length_le
  have hdiv := Nat.lt_div_mul_add hsize (a := t.length + size - 1)
  omega

@[simp] theorem length_slots (parts : List α) (seen : Nat → Bool) : (slots parts seen).length = parts.length :=
  List.length_mapIdx

theorem getElem?_slots (parts : List α) (seen : Nat → Bool) (i : Nat) :
    (slots parts seen)[i]? = parts[i]?.map (fun a => if seen i then some a else none) :=
  List.getElem?_mapIdx

theorem slots_empty (parts : List α) : slots parts (fun _ => false) = List.replicate parts.length none := by
  apply List.ext_getElem?
  intro i
  rw [getElem?_slots, List.getElem?_replicate]
  by_cases hi : i < parts.length
  · rw [if_pos hi, List.getElem?_eq_getElem hi]
    rfl
  · rw [if_neg hi, List.getElem?_eq_none (Nat.le_of_not_lt hi)]
    rfl

/-- Once every part has been seen the places hold the parts. -/
theorem slots_full {parts : List α} {seen : Nat → Bool} (h : ∀ i < parts.length, seen i = true) :
    slots parts seen = parts.map some := by
  apply List.ext_getElem?
  intro i
  rw [getElem?_slots, List.getElem?_map]
  by_cases hi : i < parts.length
  · rw [h i hi]
    rfl
  · rw [List.getElem?_eq_none (Nat.le_of_not_lt hi)]
    rfl

/-- A part goes to its own place. -/
theorem set_slots {parts : List α} {seen : Nat → Bool} {i : Nat} {a : α} (ha : parts[i]? = some a) :
    (slots parts seen).set i (some a) = slots parts (fun j => seen j || j == i) := by
  apply List.ext_getElem?
  intro j
  have hi : i < parts.length := (List.getElem?_eq_some_iff.mp ha).1
  rw [List.getElem?_set, getElem?_slots, getElem?_slots]
  by_cases hj : i = j
  · subst hj
    rw [if_pos rfl, if_pos (by rwa [length_slots]), ha, Option.map_some, BEq.rfl, Bool.or_true, if_pos rfl]
  · have hne : (j == i) = false := beq_false_of_ne (Ne.symm hj)
    simp [hj, hne]

theorem filled_full {parts : List α} {seen : Nat → Bool} (h : ∀ i < parts.length, seen i = true) :
    filled (slots parts seen) = parts.length := by
  rw [slots_full h, filled, List.countP_map]
  exact List.countP_eq_length.mpr (fun a _ => rfl)

/-- While a part is missing, fewer places are filled than there are. -/
theorem filled_lt {parts : List α} {seen : Nat → Bool} {i : Nat} (hi : i < parts.length) (h : seen i = false) :
    filled (slots parts seen) < parts.length := by
  have hlength := length_slots parts seen
  refine Nat.lt_of_le_of_ne (hlength ▸ List.countP_le_length) (fun heq => ?_)
  have hall := List.countP_eq_length.mp (heq.trans hlength.symm)
  have hslot : (slots parts seen)[i]? = some none := by
    rw [getElem?_slots, List.getElem?_eq_getElem hi, h]
    rfl
  exact absurd (hall none (List.mem_of_getElem? hslot)) Bool.false_ne_true

theorem filled_mono {parts : List α} {seen seen' : Nat → Bool} (h : ∀ i, seen i = true → seen' i = true) :
    filled (slots parts seen) ≤ filled (slots parts seen') := by
  induction parts generalizing seen seen' with
  | nil => exact Nat.le_refl 0
  | cons a parts ih =>
      have htail := @ih (fun i => seen (i + 1)) (fun i => seen' (i + 1)) (fun i hi => h (i + 1) hi)
      simp only [filled, slots, List.mapIdx_cons, List.countP_cons] at htail ⊢
      by_cases hhead : seen 0 = true
      · rw [if_pos hhead, if_pos (h 0 hhead)]
        exact Nat.add_le_add_right htail _
      · rw [if_neg hhead]
        exact Nat.le_trans htail (Nat.le_add_right _ _)

end Parts.Slots
