import Mathlib.Tactic.Linarith
import Savitools.Json.Conversions
import Savitools.Transitions.Folds

namespace Savitools.Simulator.LpMath

open Strings.CodeUnits Strings.Decimals Json.Conversions

/-- One stroop expressed as a bigint -/
def stroop : Int := 10000000

/-- What the arithmetic throws: its own refusals, and that of a division of bigints. -/
inductive RangeError
  | rejected (message : Text)
  | divisionByZero
deriving DecidableEq

/-- `a / b` of bigints, which drops the fraction. -/
def divide (a b : Int) : Except RangeError Int := if b = 0 then .error .divisionByZero else .ok (a.tdiv b)

/-- Digits beyond the seventh decimal place are dropped. Nothing stands for the
`SyntaxError` of a text that is no number. -/
def toStroops (decimal : Text) : Option Int :=
  let trimmed := trim decimal
  match trimmed.idxOf? (unit '.') with
  | none => (toBigInt trimmed).map (· * stroop)
  | some dotIdx =>
      let intPart := trimmed.take dotIdx
      let fracPart := padEnd ((trimmed.drop (dotIdx + 1)).take 7) 7
      (toBigInt intPart).bind fun whole => (toBigInt fracPart).map fun frac => whole * stroop + frac

def fromStroops (stroops : Int) : Text :=
  let abs := if stroops < 0 then -stroops else stroops
  let sign := if stroops < 0 then [unit '-'] else []
  sign ++ intText (abs.tdiv stroop) ++ unit '.' :: padStart (intText (abs.tmod stroop)) 7

/-- The loop of `isqrt`, whose numbers are never negative. -/
def newton (n x y : Nat) : Except RangeError Nat :=
  if y < x then
    if y = 0 then .error .divisionByZero else newton n y ((y + n / y) / 2)
  else .ok x
termination_by x

def isqrt (n : Int) : Except RangeError Int :=
  if n < 0 then .error (.rejected (text "isqrt: negative input"))
  else if n = 0 then .ok 0
  else (newton n.toNat n.toNat ((n.toNat + 1) / 2)).map Int.ofNat

structure DepositInput where
  reserveA : Int
  reserveB : Int
  totalShares : Int
  depositA : Option Int
  depositB : Option Int

structure DepositResult where
  depositA : Int
  depositB : Int
  sharesOut : Int
  spotPriceAperB : Int
  spotPriceBperA : Int
  priceImpactPpm : Int
deriving DecidableEq

/-- The other side of a deposit: its floored proportion, but at least one stroop. -/
def derivedSide (deposit reserve ownReserve : Int) : Except RangeError Int :=
  (divide (deposit * reserve) ownReserve).map fun derived => if derived = 0 then 1 else derived

/-- The two sides of a deposit of which the caller fixes one. -/
def depositSides (input : DepositInput) : Except RangeError (Int × Int) :=
  match input.depositA, input.depositB with
  | some depositA, none =>
      if depositA ≤ 0 then .error (.rejected (text "quoteDeposit: depositA must be positive"))
      else (derivedSide depositA input.reserveB input.reserveA).map fun depositB => (depositA, depositB)
  | none, some depositB =>
      if depositB ≤ 0 then .error (.rejected (text "quoteDeposit: depositB must be positive"))
      else (derivedSide depositB input.reserveA input.reserveB).map fun depositA => (depositA, depositB)
  | _, _ => .error (.rejected (text "quoteDeposit: supply exactly one of depositA or depositB"))

/-- The geometric mean of the deposits where there are no shares yet. -/
def mintedShares (input : DepositInput) (depositA depositB : Int) : Except RangeError Int :=
  if input.totalShares = 0 then isqrt (depositA * depositB)
  else do
    let sharesFromA ← divide (depositA * input.totalShares) input.reserveA
    let sharesFromB ← divide (depositB * input.totalShares) input.reserveB
    return if sharesFromA < sharesFromB then sharesFromA else sharesFromB

def priceImpact (ratio poolRatio : Int) : Except RangeError Int :=
  let diff := if ratio > poolRatio then ratio - poolRatio else poolRatio - ratio
  divide (diff * 1000000) poolRatio

def quoteDeposit (input : DepositInput) : Except RangeError DepositResult :=
  if input.reserveA ≤ 0 ∨ input.reserveB ≤ 0 then
    .error (.rejected (text "quoteDeposit: pool reserves must be positive"))
  else do
    let (depositA, depositB) ← depositSides input
    let sharesOut ← mintedShares input depositA depositB
    if sharesOut = 0 then
      .error (.rejected (text "quoteDeposit: deposit too small — would mint zero shares"))
    else
      let spotPriceAperB ← divide (input.reserveA * stroop) input.reserveB
      let spotPriceBperA ← divide (input.reserveB * stroop) input.reserveA
      let depositRatio ← divide (depositA * stroop) depositB
      let poolRatio ← divide (input.reserveA * stroop) input.reserveB
      let priceImpactPpm ← priceImpact depositRatio poolRatio
      return { depositA, depositB, sharesOut, spotPriceAperB, spotPriceBperA, priceImpactPpm }

structure WithdrawalInput where
  reserveA : Int
  reserveB : Int
  totalShares : Int
  sharesToBurn : Option Int
  desiredA : Option Int

structure WithdrawalResult where
  sharesToBurn : Int
  reserveAOut : Int
  reserveBOut : Int
  spotPriceAperB : Int
  spotPriceBperA : Int
  priceImpactPpm : Int
deriving DecidableEq

def burnedShares (input : WithdrawalInput) : Except RangeError Int :=
  match input.sharesToBurn, input.desiredA with
  | some sharesToBurn, none =>
      if sharesToBurn ≤ 0 then .error (.rejected (text "quoteWithdrawal: sharesToBurn must be positive"))
      else if sharesToBurn > input.totalShares then
        .error (.rejected (text "quoteWithdrawal: sharesToBurn exceeds totalShares"))
      else .ok sharesToBurn
  | none, some desiredA =>
      if desiredA ≤ 0 then .error (.rejected (text "quoteWithdrawal: desiredA must be positive"))
      else if desiredA > input.reserveA then
        .error (.rejected (text "quoteWithdrawal: desiredA exceeds pool reserves"))
      else
        (divide (desiredA * input.totalShares + input.reserveA - 1) input.reserveA).map fun sharesToBurn =>
          if sharesToBurn > input.totalShares then input.totalShares else sharesToBurn
  | _, _ => .error (.rejected (text "quoteWithdrawal: supply exactly one of sharesToBurn or desiredA"))

def quoteWithdrawal (input : WithdrawalInput) : Except RangeError WithdrawalResult :=
  if input.totalShares ≤ 0 then
    .error (.rejected (text "quoteWithdrawal: pool has no shares (empty pool)"))
  else if input.reserveA ≤ 0 ∨ input.reserveB ≤ 0 then
    .error (.rejected (text "quoteWithdrawal: pool reserves must be positive"))
  else do
    let sharesToBurn ← burnedShares input
    let reserveAOut ← divide (sharesToBurn * input.reserveA) input.totalShares
    let reserveBOut ← divide (sharesToBurn * input.reserveB) input.totalShares
    if reserveAOut = 0 ∧ reserveBOut = 0 then
      .error (.rejected (text "quoteWithdrawal: shares too small — would release zero reserves"))
    else
      let spotPriceAperB ← divide (input.reserveA * stroop) input.reserveB
      let spotPriceBperA ← divide (input.reserveB * stroop) input.reserveA
      let newReserveA := input.reserveA - reserveAOut
      let newReserveB := input.reserveB - reserveBOut
      let priceImpactPpm ←
        if newReserveA > 0 ∧ newReserveB > 0 then
          (divide (newReserveA * stroop) newReserveB).bind fun newSpot => priceImpact newSpot spotPriceAperB
        else pure 0
      return { sharesToBurn, reserveAOut, reserveBOut, spotPriceAperB, spotPriceBperA, priceImpactPpm }

end Savitools.Simulator.LpMath

namespace Savitools.Simulator.SquareRoots

open LpMath Transitions.Loops

/-- One pass through the loop of `isqrt`, in which nothing else is done. -/
def newtonPass (n : Nat) : Nat × Nat → Pass (Nat × Nat) Empty (Except RangeError Nat) := fun (x, y) =>
  { actions := []
    outcome :=
      if y < x then
        if y = 0 then .inr (.error .divisionByZero) else .inl (y, (y + n / y) / 2)
      else .inr (.ok x) }

/-- The loop ends, as its first number gets smaller with every pass. -/
theorem iterate_newtonPass {n x y fuel : Nat} (hfuel : x < fuel) :
    (iterate (newtonPass n) fuel (x, y)).result = some (newton n x y) := by
  induction fuel generalizing x y with
  | zero => exact absurd hfuel (Nat.not_lt_zero _)
  | succ fuel ih =>
      rw [newton]
      by_cases hlt : y < x
      · by_cases hzero : y = 0
        · have hpass : (newtonPass n (x, y)).outcome = .inr (.error .divisionByZero) := by
            simp only [newtonPass, if_pos hlt, if_pos hzero]
          rw [iterate_inr hpass, if_pos hlt, if_pos hzero]
        · have hpass : (newtonPass n (x, y)).outcome = .inl (y, (y + n / y) / 2) := by
            simp only [newtonPass, if_pos hlt, if_neg hzero]
          rw [iterate_inl hpass, if_pos hlt, if_neg hzero]
          exact ih (Nat.lt_of_lt_of_le hlt (Nat.le_of_lt_succ hfuel))
      · have hpass : (newtonPass n (x, y)).outcome = .inr (.ok x) := by
          simp only [newtonPass, if_neg hlt]
        rw [iterate_inr hpass, if_neg hlt]

/-- A step of Newton's method does not fall below the root, from whatever side it comes: the mean of `x` and `q + 1` is at
least the root of their product, which is above `n`. -/
theorem lt_step_succ (n : Nat) {x : Nat} (hx : 0 < x) : n < ((x + n / x) / 2 + 1) * ((x + n / x) / 2 + 1) := by
  generalize hq : n / x = q
  generalize hy : (x + q) / 2 = y
  have hquot : n < x * (q + 1) := by
    have hmod := Nat.mod_lt n hx
    have hdiv := Nat.div_add_mod n x
    rw [hq] at hdiv
    rw [Nat.mul_succ]
    omega
  have hmean : x + (q + 1) ≤ 2 * (y + 1) := by omega
  have hsquare : 4 * (x * (q + 1)) ≤ (x + (q + 1)) * (x + (q + 1)) := by
    rcases Nat.le_total x (q + 1) with hle | hle
    · obtain ⟨d, hd⟩ := Nat.exists_eq_add_of_le hle
      rw [hd]
      nlinarith
    · obtain ⟨d, hd⟩ := Nat.exists_eq_add_of_le hle
      rw [hd]
      nlinarith
  have hdouble := Nat.mul_le_mul hmean hmean
  nlinarith

/-- The invariant of the loop: `x` is not below the root, and `y` is the step from it. -/
theorem newton_floor {n x y : Nat} (hn : 0 < n) (hx : 0 < x) (hroot : n < (x + 1) * (x + 1)) (hy : y = (x + n / x) / 2) :
    ∃ r, newton n x y = .ok r ∧ r * r ≤ n ∧ n < (r + 1) * (r + 1) := by
  induction x, y using newton.induct n with
  | case1 x hlt =>
      -- From one, the step goes to a positive number.
      have hone : x = 1 := by
        have hquot := Nat.zero_le (n / x)
        omega
      rw [hone, Nat.div_one] at hy
      omega
  | case2 x y hlt hne ih =>
      rw [newton, if_pos hlt, if_neg hne]
      refine ih (Nat.pos_of_ne_zero hne) ?_ rfl
      rw [hy]
      exact lt_step_succ n hx
  | case3 x y hle =>
      rw [newton, if_neg hle]
      refine ⟨x, rfl, ?_, hroot⟩
      have hquot : x ≤ n / x := by omega
      exact (Nat.le_div_iff_mul_le hx).mp hquot

/-- The loop of `isqrt` ends within as many passes as its argument, with the floor of the root. -/
theorem isqrt_floor {n : Int} (hn : 0 ≤ n) : ∃ r : Nat, isqrt n = .ok r ∧ (r : Int) * r ≤ n ∧ n < ((r : Int) + 1) * (r + 1) ∧
    ∀ fuel, n.toNat < fuel → (iterate (newtonPass n.toNat) fuel (n.toNat, (n.toNat + 1) / 2)).result = some (.ok r) := by
  obtain ⟨n, rfl⟩ := Int.eq_ofNat_of_zero_le hn
  rw [isqrt, if_neg (Int.not_lt.mpr hn), Int.toNat_natCast]
  rcases Nat.eq_zero_or_pos n with rfl | hpos
  · refine ⟨0, rfl, by decide, by decide, fun fuel hfuel => ?_⟩
    rw [iterate_newtonPass hfuel, newton]
    rfl
  · have hstep : (n + 1) / 2 = (n + n / n) / 2 := by rw [Nat.div_self hpos]
    have hroot : n < (n + 1) * (n + 1) := by nlinarith
    obtain ⟨r, hr, hle, hlt⟩ := newton_floor hpos hpos hroot hstep
    rw [if_neg (by omega : ¬(n : Int) = 0), hr]
    refine ⟨r, rfl, by exact_mod_cast hle, by exact_mod_cast hlt, fun fuel hfuel => ?_⟩
    rw [iterate_newtonPass hfuel, hr]

theorem isqrt_floor_ten : ∃ r : Nat, isqrt 10 = .ok r ∧ (r : Int) * r ≤ 10 ∧ 10 < ((r : Int) + 1) * (r + 1) := by
  obtain ⟨r, hr, hle, hlt, -⟩ := @isqrt_floor 10 (by decide)
  exact ⟨r, hr, hle, hlt⟩

end Savitools.Simulator.SquareRoots
