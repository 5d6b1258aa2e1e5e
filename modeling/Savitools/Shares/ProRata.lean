import Mathlib.Algebra.Order.Ring.Int
import Mathlib.Order.Bounds.Defs
import Mathlib.Tactic.Ring

namespace Shares.ProRata

/-- `x * w / r` with the division of whole numbers that drops the fraction. -/
def portion (x w r : Int) : Int := (x * w).tdiv r

/-- `x * w / r` rounded up, for operands that are not negative. -/
def portionUp (x w r : Int) : Int := (x * w + r - 1).tdiv r

variable {x w r n : Int}

theorem portion_eq_ediv (hx : 0 ≤ x) (hw : 0 ≤ w) : portion x w r = x * w / r :=
  Int.tdiv_eq_ediv_of_nonneg (Int.mul_nonneg hx hw)

theorem le_portion_iff (hr : 0 < r) (hx : 0 ≤ x) (hw : 0 ≤ w) : n ≤ portion x w r ↔ n * r ≤ x * w := by
  rw [portion_eq_ediv hx hw]
  exact Int.le_ediv_iff_mul_le hr

theorem portion_nonneg (hr : 0 < r) (hx : 0 ≤ x) (hw : 0 ≤ w) : 0 ≤ portion x w r := by
  rw [le_portion_iff hr hx hw, Int.zero_mul]
  exact Int.mul_nonneg hx hw

theorem portion_mul_le (hr : 0 < r) (hx : 0 ≤ x) (hw : 0 ≤ w) : portion x w r * r ≤ x * w :=
  (le_portion_iff hr hx hw).mp le_rfl

theorem lt_portion_mul (hr : 0 < r) (hx : 0 ≤ x) (hw : 0 ≤ w) : x * w < (portion x w r + 1) * r := by
  rw [portion_eq_ediv hx hw]
  exact Int.lt_ediv_add_one_mul_self (x * w) hr

theorem portion_eq_zero_iff (hr : 0 < r) (hx : 0 ≤ x) (hw : 0 ≤ w) : portion x w r = 0 ↔ x * w < r := by
  have hone := @le_portion_iff x w r 1 hr hx hw
  have hnonneg := portion_nonneg hr hx hw
  rw [Int.one_mul] at hone
  omega

theorem portion_neg (x w r : Int) : portion x (-w) r = -portion x w r := by
  rw [portion, portion, Int.mul_neg, Int.neg_tdiv]

theorem portionUp_le_iff (hr : 0 < r) (hx : 0 ≤ x) (hw : 0 ≤ w) : portionUp x w r ≤ n ↔ x * w ≤ n * r := by
  have hproduct : 0 ≤ x * w := Int.mul_nonneg hx hw
  rw [portionUp, Int.tdiv_eq_ediv_of_nonneg (by omega), ← Int.lt_add_one_iff, Int.ediv_lt_iff_lt_mul hr,
    Int.add_mul, Int.one_mul]
  omega

/-- Rounding up inverts rounding down: the least number whose portion is at least `x`. -/
theorem portionUp_isLeast (hr : 0 < r) (hw : 0 < w) (hx : 0 ≤ x) :
    IsLeast {n : Int | 0 ≤ n ∧ x ≤ n * r / w} (portionUp x w r) := by
  have hnonneg : 0 ≤ portionUp x w r := by
    by_contra hneg
    have hle := (@portionUp_le_iff x w r (-1) hr hx hw.le).mp (by omega)
    have hproduct : 0 ≤ x * w := Int.mul_nonneg hx hw.le
    omega
  constructor
  · exact ⟨hnonneg, (Int.le_ediv_iff_mul_le hw).mpr ((portionUp_le_iff hr hx hw.le).mp le_rfl)⟩
  · rintro n ⟨-, hportion⟩
    exact (portionUp_le_iff hr hx hw.le).mpr ((Int.le_ediv_iff_mul_le hw).mp hportion)

/-- A fund of `reserve` for `total` shares issues `issued` of them for `amount`. -/
structure Fair (reserve total amount issued : Int) : Prop where
  reserve_pos : 0 < reserve
  total_pos : 0 < total
  amount_nonneg : 0 ≤ amount
  issued_nonneg : 0 ≤ issued
  bound : issued * reserve ≤ amount * total

variable {reserve total amount issued : Int}

theorem Fair.undiluted (h : Fair reserve total amount issued) :
    reserve * (total + issued) ≤ (reserve + amount) * total := by
  have hbound := h.bound
  calc reserve * (total + issued) = reserve * total + issued * reserve := by ring
    _ ≤ reserve * total + amount * total := Int.add_le_add_left hbound _
    _ = (reserve + amount) * total := by ring

/-- The shares are redeemed for no more than was paid for them. -/
theorem Fair.redeemed_le (h : Fair reserve total amount issued) :
    portion issued (reserve + amount) (total + issued) ≤ amount := by
  have htotal : 0 < total + issued := Int.add_pos_of_pos_of_nonneg h.total_pos h.issued_nonneg
  have hreserve : 0 ≤ reserve + amount := Int.add_nonneg h.reserve_pos.le h.amount_nonneg
  have hmul := portion_mul_le htotal h.issued_nonneg hreserve
  have hpaid : issued * (reserve + amount) ≤ amount * (total + issued) := by
    have hbound := h.bound
    calc issued * (reserve + amount) = issued * reserve + issued * amount := by ring
      _ ≤ amount * total + issued * amount := Int.add_le_add_right hbound _
      _ = amount * (total + issued) := by ring
  exact Int.le_of_mul_le_mul_right (hmul.trans hpaid) htotal

theorem portion_le_reserve {burned : Int} (htotal : 0 < total) (hburned : 0 ≤ burned) (hle : burned ≤ total)
    (hreserve : 0 ≤ reserve) : portion burned reserve total ≤ reserve := by
  have hmul := portion_mul_le htotal hburned hreserve
  have hall : burned * reserve ≤ reserve * total := by
    rw [Int.mul_comm reserve]
    exact Int.mul_le_mul_of_nonneg_right hle hreserve
  exact Int.le_of_mul_le_mul_right (hmul.trans hall) htotal

/-- Only all shares empty the fund. -/
theorem portion_eq_reserve_iff {burned : Int} (htotal : 0 < total) (hburned : 0 ≤ burned) (hle : burned ≤ total)
    (hreserve : 0 < reserve) : portion burned reserve total = reserve ↔ burned = total := by
  constructor
  · intro hall
    have hmul := portion_mul_le htotal hburned hreserve.le
    rw [hall, Int.mul_comm] at hmul
    exact le_antisymm hle (Int.le_of_mul_le_mul_right hmul hreserve)
  · rintro rfl
    exact Int.mul_tdiv_cancel_left reserve htotal.ne'

/-- What a holder has made of `own₀` of the `total₀` shares of a fund, while the others did nothing: it now has `own` of
`total` shares and has taken `gained` out of the reserve on balance. -/
structure Dealt (reserve₀ total₀ own₀ reserve total own gained : Int) : Prop where
  own_nonneg : 0 ≤ own
  own_le : own ≤ total
  others : total - own = total₀ - own₀
  balance : gained = reserve₀ - reserve
  undiluted : reserve₀ * total ≤ reserve * total₀
  live : 0 < reserve ∧ 0 < total ∨ reserve = 0 ∧ total = 0

namespace Dealt

variable {reserve₀ total₀ own₀ own gained burned : Int}

theorem start (hreserve : 0 < reserve) (htotal : 0 < total) (hown : 0 ≤ own) (hle : own ≤ total) :
    Dealt reserve total own reserve total own 0 :=
  ⟨hown, hle, rfl, (Int.sub_self _).symm, le_rfl, .inl ⟨hreserve, htotal⟩⟩

theorem issue (h : Dealt reserve₀ total₀ own₀ reserve total own gained) (htotal₀ : 0 < total₀)
    (hfair : Fair reserve total amount issued) :
    Dealt reserve₀ total₀ own₀ (reserve + amount) (total + issued) (own + issued) (gained - amount) where
  own_nonneg := Int.add_nonneg h.own_nonneg hfair.issued_nonneg
  own_le := Int.add_le_add_right h.own_le _
  others := by
    have hothers := h.others
    omega
  balance := by
    have hbalance := h.balance
    omega
  undiluted := by
    have hissue := hfair.undiluted
    have hbefore := h.undiluted
    refine Int.le_of_mul_le_mul_right ?_ hfair.total_pos
    calc reserve₀ * (total + issued) * total = reserve₀ * total * (total + issued) := by ring
      _ ≤ reserve * total₀ * (total + issued) :=
          Int.mul_le_mul_of_nonneg_right hbefore (Int.add_nonneg hfair.total_pos.le hfair.issued_nonneg)
      _ = reserve * (total + issued) * total₀ := by ring
      _ ≤ (reserve + amount) * total * total₀ := Int.mul_le_mul_of_nonneg_right hissue htotal₀.le
      _ = (reserve + amount) * total₀ * total := by ring
  live := .inl ⟨Int.add_pos_of_pos_of_nonneg hfair.reserve_pos hfair.amount_nonneg,
    Int.add_pos_of_pos_of_nonneg hfair.total_pos hfair.issued_nonneg⟩

theorem redeem (h : Dealt reserve₀ total₀ own₀ reserve total own gained) (htotal₀ : 0 < total₀) (hreserve : 0 < reserve)
    (htotal : 0 < total) (hburned : 0 ≤ burned) (hle : burned ≤ own) :
    Dealt reserve₀ total₀ own₀ (reserve - portion burned reserve total) (total - burned) (own - burned)
      (gained + portion burned reserve total) where
  own_nonneg := Int.sub_nonneg_of_le hle
  own_le := Int.sub_le_sub_right h.own_le _
  others := by
    have hothers := h.others
    omega
  balance := by
    have hbalance := h.balance
    omega
  undiluted := by
    have hpaid := portion_mul_le htotal hburned hreserve.le
    have hbefore := h.undiluted
    have hleft : 0 ≤ total - burned := Int.sub_nonneg_of_le (hle.trans h.own_le)
    refine Int.le_of_mul_le_mul_right ?_ htotal
    calc reserve₀ * (total - burned) * total = reserve₀ * total * (total - burned) := by ring
      _ ≤ reserve * total₀ * (total - burned) := Int.mul_le_mul_of_nonneg_right hbefore hleft
      _ = (reserve * total - burned * reserve) * total₀ := by ring
      _ ≤ (reserve * total - portion burned reserve total * total) * total₀ :=
          Int.mul_le_mul_of_nonneg_right (Int.sub_le_sub_left hpaid _) htotal₀.le
      _ = (reserve - portion burned reserve total) * total₀ * total := by ring
  live := by
    have hburnedle := hle.trans h.own_le
    have hall := portion_eq_reserve_iff htotal hburned hburnedle hreserve
    have hportion := portion_le_reserve htotal hburned hburnedle hreserve.le
    omega

/-- What the holder has taken out and can still take is no more than what it could take at first. -/
theorem gained_le (h : Dealt reserve₀ total₀ own₀ reserve total own gained) (hreserve₀ : 0 < reserve₀) (htotal₀ : 0 < total₀)
    (hown₀ : 0 ≤ own₀) : gained + portion own reserve total ≤ portion own₀ reserve₀ total₀ := by
  rw [le_portion_iff htotal₀ hown₀ hreserve₀.le, h.balance]
  have hothers : 0 ≤ total - own := Int.sub_nonneg_of_le h.own_le
  rcases h.live with ⟨hreserve, htotal⟩ | ⟨hreserve, htotal⟩
  · have hclaim := portion_mul_le htotal h.own_nonneg hreserve.le
    refine Int.le_of_mul_le_mul_right ?_ htotal
    calc (reserve₀ - reserve + portion own reserve total) * total₀ * total
        = (reserve₀ - reserve) * total * total₀ + portion own reserve total * total * total₀ := by ring
      _ ≤ (reserve₀ - reserve) * total * total₀ + own * reserve * total₀ :=
          Int.add_le_add_left (Int.mul_le_mul_of_nonneg_right hclaim htotal₀.le) _
      _ = reserve₀ * total * total₀ - reserve * total₀ * (total - own) := by ring
      _ ≤ reserve₀ * total * total₀ - reserve₀ * total * (total - own) :=
          Int.sub_le_sub_left (Int.mul_le_mul_of_nonneg_right h.undiluted hothers) _
      _ = reserve₀ * (total₀ - (total - own)) * total := by ring
      _ = own₀ * reserve₀ * total := by rw [h.others]; ring
  · -- the holder has taken everything, so that there were no others
    have hown : own = 0 := by
      have hle := h.own_le
      have hnonneg := h.own_nonneg
      omega
    have hall : own₀ = total₀ := by
      have hsame := h.others
      omega
    rw [hreserve, htotal, hown, hall, portion, Int.zero_mul, Int.zero_tdiv]
    exact le_of_eq (by ring)

/-- What the others can take is no less than before. -/
theorem others_keep (h : Dealt reserve₀ total₀ own₀ reserve total own gained) (hreserve₀ : 0 < reserve₀)
    (htotal₀ : 0 < total₀) {others : Int} (hothers : 0 ≤ others) (hle : others ≤ total₀ - own₀) :
    portion others reserve₀ total₀ ≤ portion others reserve total := by
  rcases h.live with ⟨hreserve, htotal⟩ | ⟨-, htotal⟩
  · rw [le_portion_iff htotal hothers hreserve.le]
    have hclaim := portion_mul_le htotal₀ hothers hreserve₀.le
    refine Int.le_of_mul_le_mul_right ?_ htotal₀
    calc portion others reserve₀ total₀ * total * total₀ = portion others reserve₀ total₀ * total₀ * total := by ring
      _ ≤ others * reserve₀ * total := Int.mul_le_mul_of_nonneg_right hclaim htotal.le
      _ = others * (reserve₀ * total) := by ring
      _ ≤ others * (reserve * total₀) := Int.mul_le_mul_of_nonneg_left h.undiluted hothers
      _ = others * reserve * total₀ := by ring
  · have hzero : others = 0 := by
      have hnone := h.others
      have hown := h.own_le
      have hnonneg := h.own_nonneg
      omega
    rw [hzero, portion, portion, Int.zero_mul, Int.zero_mul, Int.zero_tdiv, Int.zero_tdiv]

end Dealt

section Sums

variable {xs : List Int}

theorem foldr_nonneg (h : ∀ x ∈ xs, 0 ≤ x) : 0 ≤ xs.foldr (· + ·) 0 := by
  induction xs with
  | nil => exact le_rfl
  | cons y ys ih => exact Int.add_nonneg (h y List.mem_cons_self) (ih fun x hx => h x (List.mem_cons_of_mem _ hx))

theorem le_foldr (h : ∀ x ∈ xs, 0 ≤ x) (hx : x ∈ xs) : x ≤ xs.foldr (· + ·) 0 := by
  induction xs with
  | nil => cases hx
  | cons y ys ih =>
      have hrest : ∀ z ∈ ys, 0 ≤ z := fun z hz => h z (List.mem_cons_of_mem _ hz)
      have hsum := foldr_nonneg hrest
      have hy := h y List.mem_cons_self
      rw [List.foldr_cons]
      rcases List.mem_cons.mp hx with rfl | hx
      · omega
      · exact (ih hrest hx).trans (by omega)

theorem foldr_portion_mul_le (hr : 0 < r) (hw : 0 ≤ w) (h : ∀ x ∈ xs, 0 ≤ x) :
    (xs.map (portion · w r)).foldr (· + ·) 0 * r ≤ xs.foldr (· + ·) 0 * w := by
  induction xs with
  | nil => simp
  | cons x xs ih =>
      have hrest := ih fun y hy => h y (List.mem_cons_of_mem _ hy)
      have hfirst := portion_mul_le hr (h x List.mem_cons_self) hw
      rw [List.map_cons, List.foldr_cons, List.foldr_cons, Int.add_mul, Int.add_mul]
      exact Int.add_le_add hfirst hrest

/-- The portions of the parts are at most the portion of the whole. -/
theorem foldr_portion_le (hr : 0 < r) (hw : 0 ≤ w) (h : ∀ x ∈ xs, 0 ≤ x) :
    (xs.map (portion · w r)).foldr (· + ·) 0 ≤ portion (xs.foldr (· + ·) 0) w r :=
  (le_portion_iff hr (foldr_nonneg h) hw).mpr (foldr_portion_mul_le hr hw h)

end Sums

end Shares.ProRata
