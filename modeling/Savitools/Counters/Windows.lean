import Mathlib.Algebra.Order.Group.Defs
import Mathlib.Algebra.Order.Sub.Defs
import Mathlib.Data.List.Basic
import Mathlib.Data.List.Count

namespace Counters.Draws

/-- The places of a counter that were drawn with success, of those from `k` on. Each entry is one
draw and tells whether it succeeded. -/
def places : Nat → List Bool → List Nat
  | _, [] => []
  | k, drawn :: rest => if drawn then k :: places (k + 1) rest else places (k + 1) rest

/-- After a draw that failed none succeeds. -/
def FailsLast (draws : List Bool) : Prop := draws.Pairwise fun earlier later => earlier = false → later = false

theorem places_succ (k : Nat) (draws : List Bool) : places (k + 1) draws = (places k draws).map (· + 1) := by
  induction draws generalizing k with
  | nil => rfl
  | cons drawn rest ih => cases drawn <;> simp [places, ih]

theorem le_of_mem_places {k n : Nat} {draws : List Bool} (h : n ∈ places k draws) : k ≤ n := by
  induction draws generalizing k with
  | nil => cases h
  | cons drawn rest ih =>
      cases drawn with
      | false => exact Nat.le_of_succ_le (ih h)
      | true =>
          rcases List.mem_cons.mp h with rfl | h
          · exact Nat.le_refl _
          · exact Nat.le_of_succ_le (ih h)

theorem places_eq_nil {k : Nat} {draws : List Bool} : places k draws = [] ↔ ∀ drawn ∈ draws, drawn = false := by
  induction draws generalizing k with
  | nil => simp [places]
  | cons drawn rest ih => cases drawn <;> simp [places, ih]

/-- The successes have consecutive places from the first on exactly when the failures come last. -/
theorem places_consecutive_iff {k : Nat} {draws : List Bool} :
    places k draws = List.range' k (places k draws).length ↔ FailsLast draws := by
  induction draws generalizing k with
  | nil => exact iff_of_true rfl List.Pairwise.nil
  | cons drawn rest ih =>
      rw [FailsLast, List.pairwise_cons]
      cases drawn with
      | true =>
          have hplaces : places k (true :: rest) = k :: places (k + 1) rest := rfl
          rw [hplaces, List.length_cons, List.range'_succ, List.cons.injEq]
          exact ⟨fun h => ⟨fun _ _ hfalse => (nomatch hfalse), ih.mp h.2⟩, fun h => ⟨rfl, ih.mpr h.2⟩⟩
      | false =>
          have hplaces : places k (false :: rest) = places (k + 1) rest := rfl
          rw [hplaces]
          constructor
          · intro h
            have hnil : places (k + 1) rest = [] := by
              -- the first place that a success could have is not `k`
              cases hrest : places (k + 1) rest with
              | nil => rfl
              | cons n more =>
                  have hle : k + 1 ≤ n := le_of_mem_places (hrest ▸ List.mem_cons_self)
                  rw [hrest, List.length_cons, List.range'_succ, List.cons.injEq] at h
                  omega
            have hall := places_eq_nil.mp hnil
            refine ⟨fun later hlater _ => hall later hlater, ?_⟩
            exact List.pairwise_of_forall_mem_list fun _ _ later hlater _ => hall later hlater
          · intro h
            rw [places_eq_nil.mpr fun later hlater => h.1 later hlater rfl]
            rfl

end Counters.Draws

namespace Counters.Windows

section

variable {τ : Type*} [AddGroup τ] [LinearOrder τ]

/-- The time lies in the window of this length from `start`, whose end is left out. -/
def inWindow (length start t : τ) : Bool := start ≤ t ∧ t < start + length

/-- The time is not yet as old as the length. -/
def recent (length now t : τ) : Bool := now - t < length

/-- No window of this length holds more than `limit` of the times. -/
def Limited (limit : Nat) (length : τ) (times : List τ) : Prop :=
  ∀ start, times.countP (inWindow length start) ≤ limit

/-- From a time on, what is kept of the times tells which of them are recent. -/
def Keeps (length since : τ) (kept times : List τ) : Prop :=
  ∀ now, since ≤ now → kept.filter (recent length now) = times.filter (recent length now)

variable {length since now : τ} {limit : Nat} {kept times : List τ}

theorem limited_nil : Limited limit length ([] : List τ) := fun _ => Nat.zero_le limit

theorem keeps_nil : Keeps length since ([] : List τ) [] := fun _ _ => rfl

theorem Keeps.mono (h : Keeps length since kept times) (hle : since ≤ now) : Keeps length now kept times :=
  fun later hlater => h later (hle.trans hlater)

theorem Keeps.concat (h : Keeps length since kept times) (t : τ) : Keeps length since (kept ++ [t]) (times ++ [t]) := by
  intro later hlater
  rw [List.filter_append, List.filter_append, h later hlater]

theorem Keeps.countP_eq (h : Keeps length since kept times) (hle : since ≤ now) :
    times.countP (recent length now) = (kept.filter (recent length now)).length := by
  rw [h now hle, List.countP_eq_length_filter]

end

variable {τ : Type*} [AddCommGroup τ] [LinearOrder τ] [IsOrderedAddMonoid τ]

variable {length since now : τ} {limit : Nat} {kept times : List τ}

theorem recent_of_inWindow {start t : τ} (ht : inWindow length start t = true)
    (hnow : inWindow length start now = true) : recent length now t = true := by
  simp only [inWindow, recent, decide_eq_true_eq] at ht hnow ⊢
  calc
    now - t ≤ now - start := sub_le_sub_left ht.1 now
    _ < length := sub_lt_iff_lt_add'.mpr hnow.2

theorem recent_of_later {later t : τ} (hle : now ≤ later) (h : recent length later t = true) :
    recent length now t = true := by
  simp only [recent, decide_eq_true_eq] at h ⊢
  exact lt_of_le_of_lt (sub_le_sub_right hle t) h

/-- A time may be added when fewer than `limit` are recent. -/
theorem Limited.concat (h : Limited limit length times) (hroom : times.countP (recent length now) < limit) :
    Limited limit length (times ++ [now]) := by
  intro start
  rw [List.countP_append, List.countP_singleton]
  by_cases hnow : inWindow length start now = true
  · have hrecent : times.countP (inWindow length start) ≤ times.countP (recent length now) :=
      List.countP_mono_left fun t _ ht => recent_of_inWindow ht hnow
    rw [if_pos hnow]
    exact Nat.succ_le_of_lt (lt_of_le_of_lt hrecent hroom)
  · rw [if_neg hnow]
    exact h start

/-- What is no longer recent need not be kept. -/
theorem Keeps.filter (h : Keeps length since kept times) (hle : since ≤ now) :
    Keeps length now (kept.filter (recent length now)) times := by
  intro later hlater
  rw [List.filter_filter, ← h later (hle.trans hlater)]
  refine List.filter_congr fun t _ => ?_
  rw [Bool.and_eq_left_iff_imp]
  exact recent_of_later hlater

theorem Keeps.drop (h : Keeps length since kept times) (hold : ∀ t ∈ kept, recent length since t = false) :
    Keeps length since [] times := by
  intro later hlater
  rw [← h later hlater, List.filter_nil, eq_comm, List.filter_eq_nil_iff]
  intro t ht hrecent
  have hfalse := hold t ht
  rw [recent_of_later hlater hrecent] at hfalse
  cases hfalse

end Counters.Windows
