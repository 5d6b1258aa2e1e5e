import Mathlib.Data.List.Dedup
import Mathlib.Data.List.Perm.Subperm
import Mathlib.Order.Lattice

namespace Caches.Recency

variable {K V T : Type*}

/-- What the users of a cache did to it; a read counts when it was answered. -/
inductive Event (K V T : Type*)
  | stored (k : K) (v : V) (time : T)
  | read (k : K)
  | deleted (k : K)
  | cleared

/-- The newest event first. -/
abbrev Log (K V T : Type*) := List (Event K V T)

def Event.touched : Event K V T → Option K
  | .stored k _ _ => some k
  | .read k => some k
  | .deleted _ => none
  | .cleared => none

variable [DecidableEq K]

def lastStored (k : K) : Log K V T → Option (V × T)
  | [] => none
  | .stored j v t :: log => if j = k then some (v, t) else lastStored k log
  | .read _ :: log => lastStored k log
  | .deleted j :: log => if j = k then none else lastStored k log
  | .cleared :: _ => none

/-- The uses of other keys since the key was last used itself. -/
def touchedSince (k : K) : Log K V T → List K
  | [] => []
  | e :: log =>
      match e.touched with
      | none => touchedSince k log
      | some j => if j = k then [] else j :: touchedSince k log

def distinctSince (k : K) (log : Log K V T) : Nat := (touchedSince k log).dedup.length

theorem touchedSince_subset {k j : K} {e : Event K V T} {log : Log K V T}
    (hk : e.touched ≠ some k) (hj : j ∈ touchedSince k log) : j ∈ touchedSince k (e :: log) := by
  simp only [touchedSince]
  cases ht : e.touched with
  | none => exact hj
  | some i =>
      have hne : i ≠ k := fun h => hk (h ▸ ht)
      simp only [if_neg hne]
      exact List.mem_cons_of_mem i hj

theorem mem_touchedSince_cons {k j : K} {e : Event K V T} {log : Log K V T}
    (ht : e.touched = some j) (hne : j ≠ k) : j ∈ touchedSince k (e :: log) := by
  simp [touchedSince, ht, hne]

theorem length_le_distinctSince {k : K} {ks : List K} {log : Log K V T} (hnodup : ks.Nodup)
    (h : ∀ j ∈ ks, j ∈ touchedSince k log) : ks.length ≤ distinctSince k log := by
  apply List.Subperm.length_le
  apply hnodup.subperm
  intro j hj
  exact List.mem_dedup.mpr (h j hj)

theorem distinctSince_le {k : K} {e : Event K V T} {log : Log K V T} (hk : e.touched ≠ some k) :
    distinctSince k log ≤ distinctSince k (e :: log) := by
  apply length_le_distinctSince (List.nodup_dedup _)
  intro j hj
  exact touchedSince_subset hk (List.mem_dedup.mp hj)

/-- The keys from the least to the most recently used. -/
def Recent (log : Log K V T) (ks : List K) : Prop := ks.Pairwise (fun k j => j ∈ touchedSince k log)

theorem Recent.sublist {log : Log K V T} {ks js : List K} (h : Recent log ks) (hs : js.Sublist ks) :
    Recent log js :=
  List.Pairwise.sublist hs h

theorem Recent.cons {log : Log K V T} {ks : List K} {e : Event K V T} (h : Recent log ks)
    (hks : ∀ k ∈ ks, e.touched ≠ some k) : Recent (e :: log) ks := by
  refine List.Pairwise.imp_of_mem ?_ h
  intro k j hk _ hj
  exact touchedSince_subset (hks k hk) hj

theorem Recent.touch {log : Log K V T} {ks : List K} {e : Event K V T} {j : K} (h : Recent log ks)
    (ht : e.touched = some j) (hj : j ∉ ks) : Recent (e :: log) (ks ++ [j]) := by
  have hne : ∀ k ∈ ks, j ≠ k := fun k hk hjk => hj (hjk ▸ hk)
  refine List.pairwise_append.mpr ⟨h.cons ?_, List.pairwise_singleton _ _, ?_⟩
  · intro k hk hte
    exact hne k hk (Option.some.inj (ht.symm.trans hte))
  · intro k hk i hi
    rw [List.mem_singleton.mp hi]
    exact mem_touchedSince_cons ht (hne k hk)

/-- What is dropped in front of a list of recent keys has seen all of them used since. -/
theorem Recent.le_distinctSince {log : Log K V T} {old ks : List K} {k : K}
    (h : Recent log (old ++ ks)) (hnodup : ks.Nodup) (hk : k ∈ old) : ks.length ≤ distinctSince k log := by
  apply length_le_distinctSince hnodup
  intro j hj
  exact (List.pairwise_append.mp h).2.2 k hk j hj

/-- A cache of at most `size` entries that are readable for `ttl`, described by what its
users can observe: it answers with nothing but the last value of a key while that is
readable, and always does so while fewer than `size` other keys have been used since. -/
structure Lru [LinearOrder T] [Add T] (size : Nat) (ttl : T) (log : Log K V T) (now : T)
    (lookup : K → Option V) : Prop where
  sound : ∀ k v, lookup k = some v → ∃ t, lastStored k log = some (v, t) ∧ now < t + ttl
  complete : ∀ k v t, lastStored k log = some (v, t) → now < t + ttl → distinctSince k log < size →
    lookup k = some v

end Caches.Recency
