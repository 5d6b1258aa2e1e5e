import Mathlib.Data.List.Basic

namespace Stores.Entries

variable {κ ν μ : Type*} [BEq κ]

/-- Entries in the order in which their keys came. A key that is there keeps its place and takes
the new value. -/
def put (key : κ) (v : ν) : List (κ × ν) → List (κ × ν)
  | [] => [(key, v)]
  | (k, w) :: entries => if k == key then (key, v) :: entries else (k, w) :: put key v entries

/-- The value that came last under a key. -/
def lastOf (key : κ) (entries : List (κ × ν)) : Option ν := entries.reverse.lookup key

theorem lookup_append (key : κ) (before after : List (κ × ν)) :
    (before ++ after).lookup key = (before.lookup key).or (after.lookup key) := by
  induction before with
  | nil => rfl
  | cons entry before ih =>
      obtain ⟨k, v⟩ := entry
      rw [List.cons_append, List.lookup_cons, List.lookup_cons, ih]
      cases key == k <;> rfl

theorem lastOf_append (key : κ) (before after : List (κ × ν)) :
    lastOf key (before ++ after) = (lastOf key after).or (lastOf key before) := by
  rw [lastOf, List.reverse_append, lookup_append, lastOf, lastOf]

theorem lastOf_cons (key k : κ) (v : ν) (entries : List (κ × ν)) :
    lastOf key ((k, v) :: entries) = (lastOf key entries).or (if key == k then some v else none) := by
  rw [← List.singleton_append, lastOf_append, lastOf, lastOf, List.reverse_singleton, List.lookup_cons]
  cases key == k <;> rfl

/-- What is among the entries after a put was there before, or is what was put. -/
theorem mem_of_mem_put {key : κ} {v : ν} {entries : List (κ × ν)} {entry : κ × ν} (h : entry ∈ put key v entries) :
    entry = (key, v) ∨ entry ∈ entries := by
  induction entries with
  | nil => exact .inl (List.mem_singleton.mp h)
  | cons first entries ih =>
      rw [put] at h
      split at h
      next => exact (List.mem_cons.mp h).imp_right (List.mem_cons_of_mem _)
      next =>
        rcases List.mem_cons.mp h with rfl | h
        · exact .inr List.mem_cons_self
        · exact (ih h).imp_right (List.mem_cons_of_mem _)

variable [LawfulBEq κ]

theorem lookup_put (key k : κ) (v : ν) (entries : List (κ × ν)) :
    (put key v entries).lookup k = if k == key then some v else entries.lookup k := by
  induction entries with
  | nil =>
      rw [put, List.lookup_cons]
      cases k == key <;> rfl
  | cons entry entries ih =>
      obtain ⟨other, w⟩ := entry
      rw [put]
      by_cases hother : other = key
      · rw [if_pos (beq_iff_eq.mpr hother), List.lookup_cons, List.lookup_cons, hother]
        cases k == key <;> rfl
      · rw [if_neg (fun h => hother (beq_iff_eq.mp h)), List.lookup_cons, ih, List.lookup_cons]
        by_cases hk : k = other
        · rw [hk, beq_self_eq_true, beq_false_of_ne hother]
          rfl
        · rw [beq_false_of_ne hk]

theorem mem_keys_put {key k : κ} {v : ν} {entries : List (κ × ν)} :
    k ∈ (put key v entries).map (·.1) ↔ k = key ∨ k ∈ entries.map (·.1) := by
  induction entries with
  | nil => simp [put]
  | cons entry entries ih =>
      rw [put]
      by_cases hkey : entry.1 = key
      · rw [if_pos (beq_iff_eq.mpr hkey)]
        simp [hkey]
      · rw [if_neg (fun h => hkey (beq_iff_eq.mp h)), List.map_cons, List.mem_cons, ih, List.map_cons, List.mem_cons]
        tauto

theorem nodup_put {key : κ} {v : ν} {entries : List (κ × ν)} (h : (entries.map (·.1)).Nodup) :
    ((put key v entries).map (·.1)).Nodup := by
  induction entries with
  | nil => simp [put]
  | cons entry entries ih =>
      rw [List.map_cons, List.nodup_cons] at h
      rw [put]
      by_cases hkey : entry.1 = key
      · rw [if_pos (beq_iff_eq.mpr hkey), List.map_cons, List.nodup_cons, ← hkey]
        exact h
      · rw [if_neg (fun h => hkey (beq_iff_eq.mp h)), List.map_cons, List.nodup_cons, mem_keys_put]
        exact ⟨fun hmem => hmem.elim hkey h.1, ih h.2⟩

theorem lookup_foldl_put (key : κ) (later entries : List (κ × ν)) :
    (later.foldl (fun entries entry => put entry.1 entry.2 entries) entries).lookup key =
      (lastOf key later).or (entries.lookup key) := by
  induction later generalizing entries with
  | nil => rfl
  | cons entry later ih =>
      obtain ⟨k, v⟩ := entry
      rw [List.foldl_cons, ih, lookup_put, lastOf_cons]
      cases lastOf key later with
      | some w => rfl
      | none => cases key == k <;> rfl

theorem nodup_foldl_put (later : List (κ × ν)) {entries : List (κ × ν)} (h : (entries.map (·.1)).Nodup) :
    ((later.foldl (fun entries entry => put entry.1 entry.2 entries) entries).map (·.1)).Nodup := by
  induction later generalizing entries with
  | nil => exact h
  | cons entry later ih => exact ih (nodup_put h)

theorem put_of_not_mem {key : κ} {v : ν} {entries : List (κ × ν)} (h : key ∉ entries.map (·.1)) :
    put key v entries = entries ++ [(key, v)] := by
  induction entries with
  | nil => rfl
  | cons entry entries ih =>
      rw [List.map_cons, List.mem_cons, not_or] at h
      rw [put, if_neg (fun hkey => h.1 (beq_iff_eq.mp hkey).symm), ih h.2, List.cons_append]

theorem length_put {key : κ} {v : ν} {entries : List (κ × ν)} :
    (put key v entries).length = if key ∈ entries.map (·.1) then entries.length else entries.length + 1 := by
  induction entries with
  | nil => rfl
  | cons entry entries ih =>
      rw [put]
      by_cases hkey : entry.1 = key
      · rw [if_pos (beq_iff_eq.mpr hkey), if_pos (by simp [hkey])]
        rfl
      · have hmem : key ∈ (entry :: entries).map (·.1) ↔ key ∈ entries.map (·.1) := by
          rw [List.map_cons, List.mem_cons, or_iff_right (fun h => hkey h.symm)]
        rw [if_neg (fun h => hkey (beq_iff_eq.mp h)), List.length_cons, ih]
        simp only [hmem]
        split <;> rfl

theorem lookup_isSome_iff {key : κ} {entries : List (κ × ν)} :
    (entries.lookup key).isSome ↔ key ∈ entries.map (·.1) := by
  induction entries with
  | nil => simp
  | cons entry entries ih =>
      obtain ⟨k, v⟩ := entry
      rw [List.lookup_cons, List.map_cons, List.mem_cons]
      by_cases hk : key = k
      · simp [hk]
      · rw [beq_false_of_ne hk, ih]
        simp [hk]

theorem lastOf_isSome_iff {key : κ} {entries : List (κ × ν)} :
    (lastOf key entries).isSome ↔ key ∈ entries.map (·.1) := by
  rw [lastOf, lookup_isSome_iff, List.map_reverse, List.mem_reverse]

/-- Where no key comes twice, the last value under a key is the only one. -/
theorem lastOf_of_nodup {key : κ} {entries : List (κ × ν)} (h : (entries.map (·.1)).Nodup) :
    lastOf key entries = entries.lookup key := by
  induction entries with
  | nil => rfl
  | cons entry entries ih =>
      obtain ⟨k, v⟩ := entry
      rw [List.map_cons, List.nodup_cons] at h
      rw [lastOf_cons, ih h.2, List.lookup_cons]
      by_cases hk : key = k
      · have hnone : entries.lookup key = none := by
          rw [← Option.not_isSome_iff_eq_none, lookup_isSome_iff, hk]
          exact h.1
        rw [hnone, hk, beq_self_eq_true]
        rfl
      · rw [beq_false_of_ne hk]
        cases entries.lookup key <;> rfl

theorem mem_of_lookup {key : κ} {v : ν} {entries : List (κ × ν)} (h : entries.lookup key = some v) :
    (key, v) ∈ entries := by
  induction entries with
  | nil => cases h
  | cons entry entries ih =>
      rw [List.lookup_cons] at h
      split at h
      next hk =>
        obtain rfl := beq_iff_eq.mp hk
        obtain rfl := Option.some.inj h
        exact List.mem_cons_self
      next => exact List.mem_cons_of_mem _ (ih h)

theorem lookup_of_mem {key : κ} {v : ν} {entries : List (κ × ν)} (hnodup : (entries.map (·.1)).Nodup)
    (h : (key, v) ∈ entries) : entries.lookup key = some v := by
  induction entries with
  | nil => cases h
  | cons entry entries ih =>
      rw [List.map_cons, List.nodup_cons] at hnodup
      rw [List.lookup_cons]
      rcases List.mem_cons.mp h with rfl | h
      · rw [beq_self_eq_true]
      · have hne : key ≠ entry.1 := fun hk => hnodup.1 (hk ▸ List.mem_map_of_mem h)
        rw [beq_false_of_ne hne]
        exact ih hnodup.2 h

/-- Where no key comes twice, a value is found among some of the entries when its own is there. -/
theorem lookup_filter {p : κ × ν → Bool} {key : κ} {entries : List (κ × ν)} (h : (entries.map (·.1)).Nodup) :
    (entries.filter p).lookup key = (entries.lookup key).filter fun v => p (key, v) := by
  induction entries with
  | nil => rfl
  | cons entry entries ih =>
      obtain ⟨k, v⟩ := entry
      rw [List.map_cons, List.nodup_cons] at h
      have hrest := ih h.2
      by_cases hk : key = k
      · have hnone : entries.lookup key = none := by
          rw [← Option.not_isSome_iff_eq_none, lookup_isSome_iff, hk]
          exact h.1
        rw [hnone, hk] at hrest
        cases hp : p (k, v) <;> simp [hk, hp, hrest, Option.filter_some]
      · have hne : (key == k) = false := beq_false_of_ne hk
        cases hp : p (k, v) <;> simp [hp, List.lookup_cons, hne, hrest]

end Stores.Entries
