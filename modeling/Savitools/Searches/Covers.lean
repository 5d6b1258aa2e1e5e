import Mathlib.Algebra.Order.Group.Int
import Mathlib.Data.List.Perm.Subperm
import Savitools.Stores.Entries

namespace Searches.Covers

open Stores.Entries

variable {α β : Type*} {weight : α → Int} {xs ys chosen other : List α} {need : Int}

/-- What so many weigh together. -/
def total (weight : α → Int) (xs : List α) : Int := xs.foldr (fun x n => weight x + n) 0

@[simp] theorem total_nil : total weight [] = 0 := rfl

@[simp] theorem total_cons (x : α) : total weight (x :: xs) = weight x + total weight xs := rfl

theorem total_perm (h : xs.Perm ys) : total weight xs = total weight ys := by
  induction h with
  | nil => rfl
  | cons x _ ih => rw [total_cons, total_cons, ih]
  | swap x y xs =>
      rw [total_cons, total_cons, total_cons, total_cons]
      omega
  | trans _ _ ih ih' => exact ih.trans ih'

theorem total_nonneg (h : ∀ x ∈ xs, 0 ≤ weight x) : 0 ≤ total weight xs := by
  induction xs with
  | nil => exact le_rfl
  | cons x xs ih =>
      rw [List.forall_mem_cons] at h
      exact add_nonneg h.1 (ih h.2)

theorem total_filter_add (weight : α → Int) (xs : List α) (p : α → Bool) :
    total weight (xs.filter p) + total weight (xs.filter fun x => !p x) = total weight xs := by
  induction xs with
  | nil => rfl
  | cons x xs ih =>
      rw [List.filter_cons, List.filter_cons, total_cons, ← ih]
      cases p x <;> simp <;> omega

theorem total_le_of_sublist (hxs : ∀ x ∈ xs, 0 ≤ weight x) (h : chosen.Sublist xs) : total weight chosen ≤ total weight xs := by
  induction h with
  | slnil => exact le_rfl
  | cons x _ ih =>
      rw [List.forall_mem_cons] at hxs
      have hle := ih hxs.2
      rw [total_cons]
      omega
  | cons_cons x _ ih =>
      rw [List.forall_mem_cons] at hxs
      exact Int.add_le_add_left (ih hxs.2) _

theorem total_le (hxs : ∀ x ∈ xs, 0 ≤ weight x) (h : chosen.Subperm xs) : total weight chosen ≤ total weight xs := by
  obtain ⟨same, hperm, hsub⟩ := h
  rw [← total_perm hperm]
  exact total_le_of_sublist hxs hsub

/-- A selection that weighs what is needed, with as few in it as any that does. -/
structure Fewest (weight : α → Int) (need : Int) (xs chosen : List α) : Prop where
  within : chosen.Subperm xs
  reaches : need ≤ total weight chosen
  least : ∀ other : List α, other.Subperm xs → need ≤ total weight other → chosen.length ≤ other.length

theorem Fewest.length_eq (h : Fewest weight need xs chosen) (hother : Fewest weight need xs other) :
    chosen.length = other.length :=
  Nat.le_antisymm (h.least _ hother.within hother.reaches) (hother.least _ h.within h.reaches)

theorem Fewest.nil (hneed : need ≤ 0) : Fewest weight need xs [] :=
  ⟨List.nil_subperm, hneed, fun _ _ _ => Nat.zero_le _⟩

theorem Fewest.eq_nil_iff (h : Fewest weight need xs chosen) : chosen = [] ↔ need ≤ 0 := by
  constructor
  · rintro rfl
    exact h.reaches
  · intro hneed
    exact List.length_eq_zero_iff.mp (h.length_eq (.nil hneed))

section Steps

variable [DecidableEq α] {x : α}

theorem total_erase (weight : α → Int) (hx : x ∈ xs) : total weight xs = weight x + total weight (xs.erase x) :=
  total_perm (List.perm_cons_erase hx)

/-- Without one of the few, the others are the fewest for what is still needed. -/
theorem Fewest.erase (h : Fewest weight need xs chosen) (hx : x ∈ chosen) :
    Fewest weight (need - weight x) (xs.erase x) (chosen.erase x) := by
  refine ⟨h.within.erase x, ?_, fun other hother hreaches => ?_⟩
  · have hreaches := h.reaches
    rw [total_erase weight hx] at hreaches
    omega
  · have hwithin : (x :: other).Subperm xs :=
      ((List.subperm_cons x).mpr hother).trans (List.perm_cons_erase (h.within.subset hx)).symm.subperm
    have hleast := h.least (x :: other) hwithin (by rw [total_cons]; omega)
    rw [List.length_erase_of_mem hx]
    rw [List.length_cons] at hleast
    omega

/-- Taking one after another, each of them from a selection of the fewest at its time. -/
inductive Followed (weight : α → Int) : List α → Int → List α → List α → Int → Prop
  | nil {xs : List α} {need : Int} : Followed weight xs need [] xs need
  | cons {xs chosen taken ys : List α} {x : α} {need rest : Int} (hfewest : Fewest weight need xs chosen) (hx : x ∈ chosen)
      (hrest : Followed weight (xs.erase x) (need - weight x) taken ys rest) :
      Followed weight xs need (x :: taken) ys rest

/-- However the selections are drawn, each one that is taken makes the fewest fewer by one. -/
theorem Followed.fewest {taken : List α} {rest : Int} (h : Followed weight xs need taken ys rest)
    (hfewest : Fewest weight need xs chosen) :
    ∃ left, Fewest weight rest ys left ∧ left.length + taken.length = chosen.length := by
  induction h generalizing chosen with
  | nil => exact ⟨chosen, hfewest, rfl⟩
  | cons hnow hx _ ih =>
      obtain ⟨left, hleft, hlength⟩ := ih (hnow.erase hx)
      have hpos := List.length_pos_of_mem hx
      rw [List.length_erase_of_mem hx] at hlength
      refine ⟨left, hleft, ?_⟩
      rw [List.length_cons, ← hnow.length_eq hfewest]
      omega

theorem erase_subperm_of_cons (h : chosen.Subperm (x :: xs)) : (chosen.erase x).Subperm xs := by
  have herase := h.erase x
  rwa [List.erase_cons_head] at herase

end Steps

/-- A table of solutions: under each weight that a selection has there is one of that weight, and it is as short as
any of that weight. -/
structure Solved (weight : α → Int) (key : α → β) (xs : List α) (best : List (Int × List β)) : Prop where
  sound : ∀ entry ∈ best, ∃ chosen : List α,
    chosen.Subperm xs ∧ total weight chosen = entry.1 ∧ entry.2.Perm (chosen.map key)
  complete : ∀ chosen : List α, chosen.Subperm xs →
    ∃ keys, best.lookup (total weight chosen) = some keys ∧ keys.length ≤ chosen.length

variable {key : α → β} {best after : List (Int × List β)} {x : α}

theorem Solved.start : Solved weight key [] [(0, [])] := by
  constructor
  · intro entry hentry
    rw [List.mem_singleton.mp hentry]
    exact ⟨[], List.Subperm.refl _, rfl, .refl _⟩
  · intro chosen hchosen
    rw [List.subperm_nil.mp hchosen]
    exact ⟨[], rfl, le_rfl⟩

theorem Solved.perm (h : Solved weight key xs best) (hperm : xs.Perm ys) : Solved weight key ys best := by
  constructor
  · intro entry hentry
    obtain ⟨chosen, hwithin, hrest⟩ := h.sound entry hentry
    exact ⟨chosen, hwithin.trans hperm.subperm, hrest⟩
  · exact fun chosen hchosen => h.complete chosen (hchosen.trans hperm.symm.subperm)

/-- What going on by one may do to a table: new solutions are old ones with that one more, an old solution gives way
to one that is not longer, and none is missed that stays in the limit. -/
structure Grown (limit w : Int) (k : β) (best after : List (Int × List β)) : Prop where
  origin : ∀ entry ∈ after, entry ∈ best ∨ ∃ old ∈ best, entry.1 = old.1 + w ∧ entry.2.Perm (k :: old.2)
  keeps : ∀ n keys, best.lookup n = some keys → ∃ now, after.lookup n = some now ∧ now.length ≤ keys.length
  adds : ∀ n keys, best.lookup n = some keys → n + w ≤ limit →
    ∃ now, after.lookup (n + w) = some now ∧ now.length ≤ keys.length + 1

/-- The shortest entry of a table that weighs what is needed stands for a selection of the fewest. -/
theorem Solved.fewest {entry : Int × List β} (h : Solved weight key xs best) (hentry : entry ∈ best) (hreaches : need ≤ entry.1)
    (hshortest : ∀ old ∈ best, need ≤ old.1 → entry.2.length ≤ old.2.length) :
    ∃ chosen, Fewest weight need xs chosen ∧ entry.2.Perm (chosen.map key) := by
  obtain ⟨chosen, hwithin, htotal, hperm⟩ := h.sound entry hentry
  refine ⟨chosen, ⟨hwithin, htotal ▸ hreaches, fun other hother hneed => ?_⟩, hperm⟩
  obtain ⟨keys, hkeys, hlength⟩ := h.complete other hother
  have hle := hshortest _ (mem_of_lookup hkeys) hneed
  rw [hperm.length_eq, List.length_map] at hle
  exact hle.trans hlength

variable [DecidableEq α]

theorem Solved.grown {limit : Int} (h : Solved weight key xs best) (hgrown : Grown limit (weight x) (key x) best after)
    (hlimit : ∀ chosen : List α, chosen.Subperm (x :: xs) → total weight chosen ≤ limit) :
    Solved weight key (x :: xs) after := by
  constructor
  · intro entry hentry
    rcases hgrown.origin entry hentry with hold | ⟨old, hold, hweight, hkeys⟩
    · obtain ⟨chosen, hwithin, hrest⟩ := h.sound entry hold
      exact ⟨chosen, hwithin.trans (List.sublist_cons_self x xs).subperm, hrest⟩
    · obtain ⟨chosen, hwithin, htotal, hperm⟩ := h.sound old hold
      refine ⟨x :: chosen, (List.subperm_cons x).mpr hwithin, ?_, hkeys.trans (hperm.cons _)⟩
      rw [total_cons, htotal, hweight, Int.add_comm]
  · intro chosen hchosen
    obtain ⟨keys, hkeys, hlength⟩ := h.complete _ (erase_subperm_of_cons hchosen)
    by_cases hx : x ∈ chosen
    · have htotal := total_erase weight hx
      have hle := hlimit chosen hchosen
      obtain ⟨now, hnow, hshort⟩ := hgrown.adds _ keys hkeys (by omega)
      rw [Int.add_comm, ← htotal] at hnow
      have hpos := List.length_pos_of_mem hx
      rw [List.length_erase_of_mem hx] at hlength
      exact ⟨now, hnow, by omega⟩
    · rw [List.erase_of_not_mem hx] at hkeys hlength
      obtain ⟨now, hnow, hshort⟩ := hgrown.keeps _ keys hkeys
      exact ⟨now, hnow, hshort.trans hlength⟩

/-- One without weight adds nothing to a table. -/
theorem Solved.weightless (h : Solved weight key xs best) (hx : weight x = 0) : Solved weight key (x :: xs) best := by
  constructor
  · intro entry hentry
    obtain ⟨chosen, hwithin, hrest⟩ := h.sound entry hentry
    exact ⟨chosen, hwithin.trans (List.sublist_cons_self x xs).subperm, hrest⟩
  · intro chosen hchosen
    obtain ⟨keys, hkeys, hlength⟩ := h.complete _ (erase_subperm_of_cons hchosen)
    have htotal : total weight (chosen.erase x) = total weight chosen := by
      by_cases hmem : x ∈ chosen
      · rw [total_erase weight hmem, hx, Int.zero_add]
      · rw [List.erase_of_not_mem hmem]
    rw [htotal] at hkeys
    exact ⟨keys, hkeys, hlength.trans (List.erase_sublist).length_le⟩

end Searches.Covers
