import Mathlib.Order.Lattice

namespace Dates.Arcs

variable {p a b x : Nat}

/-- How far it is from `a` on to `x` around a circle of `p` points. -/
def ahead (p a x : Nat) : Nat := (x + (p - a)) % p

theorem ahead_of_le (hx : x < p) (h : a ≤ x) : ahead p a x = x - a := by
  rw [ahead, show x + (p - a) = x - a + p by omega, Nat.add_mod_right]
  exact Nat.mod_eq_of_lt (by omega)

theorem ahead_of_lt (ha : a < p) (h : x < a) : ahead p a x = x + p - a := by
  rw [ahead, Nat.mod_eq_of_lt (by omega)]
  omega

/-- An arc that does not run over the end of the numbering is an interval. -/
theorem ahead_lt_of_lt (hb : b < p) (hx : x < p) (h : a < b) : ahead p a x < ahead p a b ↔ a ≤ x ∧ x < b := by
  rw [ahead_of_le hb h.le]
  by_cases hax : a ≤ x
  · rw [ahead_of_le hx hax]
    omega
  · rw [ahead_of_lt (h.trans hb) (not_le.mp hax)]
    omega

/-- One that does is what is left of two. -/
theorem ahead_lt_of_gt (ha : a < p) (hx : x < p) (h : b < a) : ahead p a x < ahead p a b ↔ a ≤ x ∨ x < b := by
  rw [ahead_of_lt ha h]
  by_cases hax : a ≤ x
  · rw [ahead_of_le hx hax]
    omega
  · rw [ahead_of_lt ha (not_le.mp hax)]
    omega

theorem not_ahead_lt_self (ha : a < p) : ¬ ahead p a x < ahead p a a := by
  rw [ahead_of_le ha le_rfl, Nat.sub_self]
  exact Nat.not_lt_zero _

end Dates.Arcs
