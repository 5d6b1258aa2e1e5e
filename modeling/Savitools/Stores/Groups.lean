import Mathlib.Algebra.GroupWithZero.Nat
import Mathlib.Data.List.Induction
import Mathlib.Data.List.Nodup
import Mathlib.Order.Lattice
import Savitools.Stores.Entries

namespace Stores.Groups

open Entries

variable {α κ ν : Type*} [BEq κ]

/-- A value is pushed to the group of its key. A group that is new comes last. -/
def push (key : κ) (v : ν) (groups : List (κ × List ν)) : List (κ × List ν) :=
  put key ((groups.lookup key).getD [] ++ [v]) groups

/-- The groups hold the values by their keys, in the order in which they came. -/
structure Grouped (key : α → κ) (xs : List α) (groups : List (κ × List α)) : Prop where
  nodup : (groups.map (·.1)).Nodup
  group : ∀ g ∈ groups, g.2 = xs.filter fun x => key x == g.1
  covers : ∀ x ∈ xs, key x ∈ groups.map (·.1)

theorem grouped_nil (key : α → κ) : Grouped key [] [] := ⟨List.nodup_nil, nofun, nofun⟩

variable [LawfulBEq κ]

theorem mem_put {k key : κ} {v w : ν} {entries : List (κ × ν)} (hnodup : (entries.map (·.1)).Nodup)
    (h : (k, w) ∈ put key v entries) : (k = key ∧ w = v) ∨ (k ≠ key ∧ (k, w) ∈ entries) := by
  have hfound := lookup_of_mem (nodup_put hnodup) h
  rw [lookup_put] at hfound
  by_cases hk : k = key
  · rw [if_pos (beq_iff_eq.mpr hk)] at hfound
    exact .inl ⟨hk, (Option.some.inj hfound).symm⟩
  · rw [if_neg (fun h => hk (beq_iff_eq.mp h))] at hfound
    exact .inr ⟨hk, mem_of_lookup hfound⟩

theorem Grouped.lookup_getD {key : α → κ} {xs : List α} {groups : List (κ × List α)} (h : Grouped key xs groups) (k : κ) :
    (groups.lookup k).getD [] = xs.filter fun x => key x == k := by
  cases hfound : groups.lookup k with
  | none =>
      refine (List.filter_eq_nil_iff.mpr fun x hx hk => ?_).symm
      have hmem := h.covers x hx
      rw [eq_of_beq hk, ← lookup_isSome_iff, hfound] at hmem
      cases hmem
  | some vs => exact h.group _ (mem_of_lookup hfound)

theorem Grouped.push {key : α → κ} {xs : List α} {groups : List (κ × List α)} (h : Grouped key xs groups) (x : α) :
    Grouped key (xs ++ [x]) (push (key x) x groups) where
  nodup := nodup_put h.nodup
  group := by
    rintro ⟨k, vs⟩ hg
    rw [List.filter_append]
    rcases mem_put h.nodup hg with ⟨rfl, rfl⟩ | ⟨hne, hg⟩
    · rw [h.lookup_getD]
      simp
    · rw [h.group _ hg]
      simp [beq_false_of_ne (Ne.symm hne)]
  covers y hy := by
    rw [Groups.push, mem_keys_put]
    rcases List.mem_append.mp hy with hy | hy
    · exact .inr (h.covers y hy)
    · exact .inl (congrArg key (List.mem_singleton.mp hy))

/-- Every value is in one of the groups. -/
theorem Grouped.sum_length {key : α → κ} {groups : List (κ × List α)} : ∀ {xs : List α}, Grouped key xs groups →
    (groups.map (·.2.length)).sum = xs.length := by
  induction groups with
  | nil =>
      intro xs h
      obtain rfl : xs = [] := List.eq_nil_iff_forall_not_mem.mpr fun x hx => nomatch h.covers x hx
      rfl
  | cons g groups ih =>
      intro xs h
      obtain ⟨hnew, hnodup⟩ := List.nodup_cons.mp h.nodup
      have hrest : Grouped key (xs.filter fun x => !(key x == g.1)) groups := {
        nodup := hnodup
        group := fun other hother => by
          have hne : other.1 ≠ g.1 := fun hk => hnew (List.mem_map.mpr ⟨other, hother, hk⟩)
          rw [h.group other (List.mem_cons_of_mem _ hother), List.filter_filter]
          refine List.filter_congr fun x _ => ?_
          by_cases hk : key x = other.1
          · simp [hk, hne]
          · simp [beq_false_of_ne hk]
        covers := fun x hx => by
          obtain ⟨hmem, hne⟩ := List.mem_filter.mp hx
          exact (List.mem_cons.mp (h.covers x hmem)).resolve_left fun hk => by simp [hk] at hne }
      rw [List.map_cons, List.sum_cons, ih hrest, h.group g List.mem_cons_self]
      have hsplit := List.length_eq_length_filter_add (l := xs) fun x => key x == g.1
      simpa using hsplit.symm

theorem keys_put_of_mem {key : κ} {v : ν} {entries : List (κ × ν)}
    (h : key ∈ entries.map (·.1)) : (put key v entries).map (·.1) = entries.map (·.1) := by
  induction entries with
  | nil => cases h
  | cons entry entries ih =>
      rw [put]
      by_cases hkey : entry.1 = key
      · rw [if_pos (beq_iff_eq.mpr hkey), List.map_cons, List.map_cons, hkey]
      · have hrest := (List.mem_cons.mp h).resolve_left (Ne.symm hkey)
        rw [if_neg (fun h => hkey (beq_iff_eq.mp h)), List.map_cons, List.map_cons, ih hrest]

/-- A value whose key is not below the others keeps the keys in their order. -/
theorem pairwise_keys_push {κ ν : Type*} [LinearOrder κ] [BEq κ] [LawfulBEq κ] {key : κ} {v : ν} {groups : List (κ × List ν)}
    (h : (groups.map (·.1)).Pairwise (· < ·)) (hle : ∀ k ∈ groups.map (·.1), k ≤ key) :
    ((push key v groups).map (·.1)).Pairwise (· < ·) := by
  rw [push]
  rcases Classical.em (key ∈ groups.map (·.1)) with hmem | hmem
  · rw [keys_put_of_mem hmem]
    exact h
  · rw [put_of_not_mem hmem, List.map_append]
    refine List.pairwise_append.mpr ⟨h, List.pairwise_singleton _ _, fun k hk other hother => ?_⟩
    obtain rfl := List.mem_singleton.mp hother
    refine lt_of_le_of_ne (hle k hk) ?_
    rintro rfl
    exact hmem hk

theorem mem_keys_foldl {key : α → κ} {xs : List α} {k : κ} :
    k ∈ (xs.foldl (fun groups x => push (key x) x groups) []).map (·.1) ↔ ∃ x ∈ xs, key x = k := by
  induction xs using List.reverseRecOn with
  | nil => simp
  | append_singleton xs x ih =>
      rw [List.foldl_append, List.foldl_cons, List.foldl_nil, push, mem_keys_put, ih]
      simp [or_comm, eq_comm]

/-- The samples that meet a condition are spread over the groups. -/
theorem Grouped.sum_countP {key : α → κ} {xs : List α} {groups : List (κ × List α)}
    (h : Grouped key xs groups) (p : α → Bool) : (groups.map (·.2.countP p)).sum = xs.countP p := by
  have hkeys : (groups.map fun g => (g.1, g.2.filter p)).map (·.1) = groups.map (·.1) := by
    rw [List.map_map]
    rfl
  have hfiltered : Grouped key (xs.filter p) (groups.map fun g => (g.1, g.2.filter p)) := {
    nodup := hkeys ▸ h.nodup
    group := by
      intro g hg
      obtain ⟨group, hgroup, rfl⟩ := List.mem_map.mp hg
      rw [h.group group hgroup, List.filter_filter, List.filter_filter]
      exact List.filter_congr fun x _ => Bool.and_comm _ _
    covers := fun x hx => hkeys ▸ h.covers x (List.mem_of_mem_filter hx) }
  have hsum := hfiltered.sum_length
  rw [List.map_map] at hsum
  rw [List.countP_eq_length_filter, ← hsum]
  exact congrArg List.sum (List.map_congr_left fun g _ => List.countP_eq_length_filter)

end Stores.Groups
