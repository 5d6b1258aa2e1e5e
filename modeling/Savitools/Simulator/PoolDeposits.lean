import Mathlib.Tactic.NormNum
import Savitools.Shares.ProRata
import Savitools.Simulator.LpMath

namespace Savitools.Simulator.PoolDeposits

open Strings.CodeUnits LpMath Shares.ProRata

/-- A pool with something on both sides; of its shares nothing is asked. -/
structure Pool where
  reserveA : Int
  reserveB : Int
  totalShares : Int
  reserveA_pos : 0 < reserveA
  reserveB_pos : 0 < reserveB

/-- The side of a deposit that the caller fixes. -/
inductive Side
  | a
  | b

namespace Pool

def own (pool : Pool) : Side → Int
  | .a => pool.reserveA
  | .b => pool.reserveB

def other (pool : Pool) : Side → Int
  | .a => pool.reserveB
  | .b => pool.reserveA

def depositInput (pool : Pool) (side : Side) (amount : Int) : DepositInput :=
  match side with
  | .a => ⟨pool.reserveA, pool.reserveB, pool.totalShares, some amount, none⟩
  | .b => ⟨pool.reserveA, pool.reserveB, pool.totalShares, none, some amount⟩

/-- The spot price of the other asset is at least one stroop. -/
def Priced (pool : Pool) : Prop := pool.reserveB ≤ pool.reserveA * stroop

theorem own_pos (pool : Pool) (side : Side) : 0 < pool.own side := by
  cases side with
  | a => exact pool.reserveA_pos
  | b => exact pool.reserveB_pos

theorem other_pos (pool : Pool) (side : Side) : 0 < pool.other side := by
  cases side with
  | a => exact pool.reserveB_pos
  | b => exact pool.reserveA_pos

end Pool

/-- The floored proportion of the other side, but at least one stroop. -/
def derived (amount other own : Int) : Int := if portion amount other own = 0 then 1 else portion amount other own

def fixedSide (side : Side) (result : DepositResult) : Int :=
  match side with
  | .a => result.depositA
  | .b => result.depositB

def otherSide (side : Side) (result : DepositResult) : Int :=
  match side with
  | .a => result.depositB
  | .b => result.depositA

theorem divide_eq {a b : Int} (hb : 0 < b) : divide a b = .ok (a.tdiv b) := if_neg hb.ne'

theorem derivedSide_eq {amount other own : Int} (hown : 0 < own) :
    derivedSide amount other own = .ok (derived amount other own) := by
  rw [derivedSide, divide_eq hown]
  rfl

theorem derived_pos {amount other own : Int} (hamount : 0 < amount) (hother : 0 < other) (hown : 0 < own) :
    0 < derived amount other own := by
  have hnonneg := portion_nonneg hown hamount.le hother.le
  rw [derived]
  split <;> omega

/-- Newton's method from a positive start stays positive. -/
theorem newton_pos {n x y : Nat} (hn : 0 < n) (hx : 0 < x) (hy : 0 < y) : ∃ r, newton n x y = .ok r ∧ 0 < r := by
  induction x, y using newton.induct n with
  | case1 x hlt => omega
  | case2 x y hlt hne ih =>
      have hnext : 0 < (y + n / y) / 2 := by
        by_cases hone : y = 1
        · rw [hone, Nat.div_one]
          omega
        · have htwo : 2 ≤ y := by omega
          exact Nat.div_pos (htwo.trans (Nat.le_add_right y (n / y))) (by decide)
      rw [newton, if_pos hlt, if_neg hne]
      exact ih hy hnext
  | case3 x y hle =>
      rw [newton, if_neg hle]
      exact ⟨x, rfl, hx⟩

theorem isqrt_pos {n : Int} (hn : 0 < n) : ∃ r, isqrt n = .ok r ∧ 0 < r := by
  obtain ⟨r, hr, hpos⟩ := @newton_pos n.toNat n.toNat ((n.toNat + 1) / 2) (by omega) (by omega) (by omega)
  rw [isqrt, if_neg (by omega), if_neg hn.ne', hr]
  exact ⟨r, rfl, by simpa using hpos⟩

theorem mintedShares_eq {input : DepositInput} (hA : 0 < input.reserveA) (hB : 0 < input.reserveB)
    (hshares : input.totalShares ≠ 0) (depositA depositB : Int) :
    mintedShares input depositA depositB =
      .ok (min (portion depositA input.totalShares input.reserveA) (portion depositB input.totalShares input.reserveB)) := by
  have hmin (m n : Int) : (if m < n then m else n) = min m n := by
    rw [min_def]
    split <;> split <;> omega
  rw [mintedShares, if_neg hshares, divide_eq hA, divide_eq hB]
  exact congrArg Except.ok (hmin _ _)

theorem mintedShares_bootstrap {input : DepositInput} (hshares : input.totalShares = 0) {depositA depositB : Int}
    (hA : 0 < depositA) (hB : 0 < depositB) : ∃ s, mintedShares input depositA depositB = .ok s ∧ 0 < s := by
  rw [mintedShares, if_pos hshares]
  exact isqrt_pos (Int.mul_pos hA hB)

def zeroShares : RangeError := .rejected (text "quoteDeposit: deposit too small — would mint zero shares")

/-- What becomes of a deposit whose sides and shares are computed. -/
theorem quoteDeposit_eq {input : DepositInput} {depositA depositB sharesOut : Int} (hA : 0 < input.reserveA)
    (hB : 0 < input.reserveB) (hsides : depositSides input = .ok (depositA, depositB)) (hdeposit : 0 < depositB)
    (hshares : mintedShares input depositA depositB = .ok sharesOut) :
    ∃ result, result.depositA = depositA ∧ result.depositB = depositB ∧ result.sharesOut = sharesOut ∧
      quoteDeposit input = if sharesOut = 0 then .error zeroShares
        else if input.reserveA * stroop < input.reserveB then .error .divisionByZero
        else .ok result := by
  have hratio : (input.reserveA * stroop).tdiv input.reserveB = 0 ↔ input.reserveA * stroop < input.reserveB :=
    portion_eq_zero_iff hB hA.le (by decide)
  rw [quoteDeposit, if_neg (by omega), hsides]
  simp only [bind, Except.bind, hshares, divide_eq hA, divide_eq hB, divide_eq hdeposit, priceImpact]
  by_cases hzero : sharesOut = 0
  · simp only [if_pos hzero]
    exact ⟨⟨depositA, depositB, sharesOut, 0, 0, 0⟩, rfl, rfl, rfl, rfl⟩
  · simp only [if_neg hzero]
    by_cases hlt : input.reserveA * stroop < input.reserveB
    · simp only [if_pos hlt, divide, if_pos (hratio.mpr hlt)]
      exact ⟨⟨depositA, depositB, sharesOut, 0, 0, 0⟩, rfl, rfl, rfl, trivial⟩
    · simp only [if_neg hlt, divide, if_neg (mt hratio.mp hlt)]
      exact ⟨_, rfl, rfl, rfl, rfl⟩

def ordered (side : Side) (fixed derived : Int) : Int × Int :=
  match side with
  | .a => (fixed, derived)
  | .b => (derived, fixed)

theorem depositSides_eq (pool : Pool) (side : Side) {amount : Int} (hamount : 0 < amount) :
    depositSides (pool.depositInput side amount) =
      .ok (ordered side amount (derived amount (pool.other side) (pool.own side))) := by
  cases side with
  | a =>
      simp only [depositSides, Pool.depositInput, if_neg hamount.not_ge, derivedSide_eq pool.reserveA_pos]
      rfl
  | b =>
      simp only [depositSides, Pool.depositInput, if_neg hamount.not_ge, derivedSide_eq pool.reserveB_pos]
      rfl

/-- Both sides together are worth no share. -/
def Worthless (pool : Pool) (side : Side) (fixed derived : Int) : Prop :=
  (0 < pool.totalShares ∧
    (fixed * pool.totalShares < pool.own side ∨ derived * pool.totalShares < pool.other side)) ∨
  (pool.totalShares < 0 ∧ fixed * -pool.totalShares < pool.own side ∧ derived * -pool.totalShares < pool.other side)

theorem min_portion_eq_zero_iff (pool : Pool) (side : Side) {fixed derived : Int} (hfixed : 0 ≤ fixed)
    (hderived : 0 ≤ derived) (hshares : pool.totalShares ≠ 0) :
    min (portion fixed pool.totalShares (pool.own side)) (portion derived pool.totalShares (pool.other side)) = 0 ↔
      Worthless pool side fixed derived := by
  have hown := pool.own_pos side
  have hother := pool.other_pos side
  rcases Int.lt_or_gt_of_ne hshares with hneg | hpos
  · have hminus : 0 ≤ -pool.totalShares := by omega
    have hfirst := portion_eq_zero_iff hown hfixed hminus
    have hsecond := portion_eq_zero_iff hother hderived hminus
    have hfirst' := portion_nonneg hown hfixed hminus
    have hsecond' := portion_nonneg hother hderived hminus
    rw [portion_neg] at hfirst hsecond hfirst' hsecond'
    rw [Worthless, ← hfirst, ← hsecond]
    omega
  · have hfirst := portion_eq_zero_iff hown hfixed hpos.le
    have hsecond := portion_eq_zero_iff hother hderived hpos.le
    have hfirst' := portion_nonneg hown hfixed hpos.le
    have hsecond' := portion_nonneg hother hderived hpos.le
    rw [Worthless, ← hfirst, ← hsecond]
    omega

/-- The shares of a deposit, which are none exactly where it is worth none. -/
theorem mintedShares_ok (pool : Pool) (side : Side) {amount derived : Int} (hamount : 0 < amount)
    (hderived : 0 < derived) :
    ∃ s, mintedShares (pool.depositInput side amount) (ordered side amount derived).1 (ordered side amount derived).2 =
      .ok s ∧ (s = 0 ↔ Worthless pool side amount derived) ∧ (pool.totalShares ≠ 0 →
        s = min (portion amount pool.totalShares (pool.own side)) (portion derived pool.totalShares (pool.other side))) := by
  have hinput : (pool.depositInput side amount).totalShares = pool.totalShares := by cases side <;> rfl
  by_cases hshares : pool.totalShares = 0
  · have hpos : 0 < (ordered side amount derived).1 ∧ 0 < (ordered side amount derived).2 := by
      cases side <;> simp [ordered, hamount, hderived]
    obtain ⟨s, hs, hspos⟩ := mintedShares_bootstrap (hinput.trans hshares) hpos.1 hpos.2
    refine ⟨s, hs, ?_, absurd hshares⟩
    rw [Worthless]
    omega
  · rw [mintedShares_eq (by cases side <;> exact pool.reserveA_pos) (by cases side <;> exact pool.reserveB_pos)
      (hinput ▸ hshares)]
    rw [← min_portion_eq_zero_iff pool side hamount.le hderived.le hshares]
    cases side with
    | a => exact ⟨_, rfl, Iff.rfl, fun _ => rfl⟩
    | b =>
        rw [min_comm]
        exact ⟨_, rfl, Iff.rfl, fun _ => rfl⟩

/-- A deposit into a pool is refused for its shares, fails for the pool's price, or is quoted. -/
theorem quoteDeposit_outcome (pool : Pool) (side : Side) {amount : Int} (hamount : 0 < amount) :
    let other := derived amount (pool.other side) (pool.own side)
    (Worthless pool side amount other ∧ quoteDeposit (pool.depositInput side amount) = .error zeroShares) ∨
      (¬Worthless pool side amount other ∧ ¬pool.Priced ∧
        quoteDeposit (pool.depositInput side amount) = .error .divisionByZero) ∨
      (¬Worthless pool side amount other ∧ pool.Priced ∧
        ∃ result, quoteDeposit (pool.depositInput side amount) = .ok result ∧
          fixedSide side result = amount ∧ otherSide side result = other ∧ (pool.totalShares ≠ 0 →
            result.sharesOut =
              min (portion amount pool.totalShares (pool.own side)) (portion other pool.totalShares (pool.other side)))) := by
  intro other
  have hderived : 0 < other := derived_pos hamount (pool.other_pos side) (pool.own_pos side)
  have hpos : 0 < (ordered side amount other).2 := by cases side <;> simp [ordered, hamount, hderived]
  have hreserves : (pool.depositInput side amount).reserveA = pool.reserveA ∧
      (pool.depositInput side amount).reserveB = pool.reserveB := by cases side <;> exact ⟨rfl, rfl⟩
  obtain ⟨s, hs, hzero, hmin⟩ := mintedShares_ok pool side hamount hderived
  obtain ⟨result, hA, hB, hsharesOut, hquote⟩ := quoteDeposit_eq (hreserves.1 ▸ pool.reserveA_pos) (hreserves.2 ▸ pool.reserveB_pos)
    (depositSides_eq pool side hamount) hpos hs
  rw [hquote, hreserves.1, hreserves.2, Pool.Priced, ← hzero]
  by_cases hs0 : s = 0
  · exact .inl ⟨hs0, if_pos hs0⟩
  · rw [if_neg hs0]
    by_cases hlt : pool.reserveA * stroop < pool.reserveB
    · exact .inr (.inl ⟨hs0, Int.not_le.mpr hlt, if_pos hlt⟩)
    · refine .inr (.inr ⟨hs0, Int.not_lt.mp hlt, result, if_neg hlt, ?_⟩)
      cases side with
      | a => exact ⟨hA, hB, fun hshares => hsharesOut.trans (hmin hshares)⟩
      | b => exact ⟨hB, hA, fun hshares => hsharesOut.trans (hmin hshares)⟩

/-- Only positive deposits into a pool are quoted. -/
theorem depositInput_of_ok {input : DepositInput} {result : DepositResult} (hquote : quoteDeposit input = .ok result) :
    ∃ (pool : Pool) (side : Side) (amount : Int), 0 < amount ∧ input = pool.depositInput side amount := by
  by_cases hreserves : input.reserveA ≤ 0 ∨ input.reserveB ≤ 0
  · rw [quoteDeposit, if_pos hreserves] at hquote
    cases hquote
  · have hA : 0 < input.reserveA := by omega
    have hB : 0 < input.reserveB := by omega
    obtain ⟨reserveA, reserveB, totalShares, depositA, depositB⟩ := input
    rw [quoteDeposit, if_neg hreserves] at hquote
    match depositA, depositB with
    | some amount, none =>
        by_cases hle : amount ≤ 0
        · simp only [depositSides, if_pos hle] at hquote
          cases hquote
        · exact ⟨⟨reserveA, reserveB, totalShares, hA, hB⟩, .a, amount, by omega, rfl⟩
    | none, some amount =>
        by_cases hle : amount ≤ 0
        · simp only [depositSides, if_pos hle] at hquote
          cases hquote
        · exact ⟨⟨reserveA, reserveB, totalShares, hA, hB⟩, .b, amount, by omega, rfl⟩
    | none, none => cases hquote
    | some _, some _ => cases hquote

/-- A quote takes no more of the other side than the ratio allows, and less than one stroop
away from it. -/
def KeepsRatio (pool : Pool) (side : Side) (amount : Int) : Prop :=
  ∀ result, quoteDeposit (pool.depositInput side amount) = .ok result →
    otherSide side result * pool.own side ≤ fixedSide side result * pool.other side ∧
      |otherSide side result * pool.own side - fixedSide side result * pool.other side| ≤ pool.own side

/-- The floored side keeps the ratio; the one stroop asked instead of nothing does not. -/
theorem derived_bounds {amount other own : Int} (hamount : 0 < amount) (hother : 0 < other) (hown : 0 < own) :
    (derived amount other own * own ≤ amount * other ↔ own ≤ amount * other) ∧
      |derived amount other own * own - amount * other| ≤ own := by
  have hmul := portion_mul_le hown hamount.le hother.le
  have hlt := lt_portion_mul hown hamount.le hother.le
  have hzero := portion_eq_zero_iff hown hamount.le hother.le
  have hproduct : 0 < amount * other := Int.mul_pos hamount hother
  rw [Int.add_mul, Int.one_mul] at hlt
  rw [abs_le, derived]
  by_cases hp : portion amount other own = 0
  · rw [if_pos hp, Int.one_mul]
    omega
  · rw [if_neg hp]
    omega

theorem derived_eq_one {amount other own : Int} (hamount : 0 < amount) (hother : 0 < other)
    (hlt : amount * other < own) : derived amount other own = 1 :=
  if_pos ((portion_eq_zero_iff ((Int.mul_pos hamount hother).trans hlt) hamount.le hother.le).mpr hlt)

/-- Where the proportion is less than a stroop, a quote takes more than it. -/
theorem keepsRatio_iff (pool : Pool) (side : Side) (amount : Int) (hamount : 0 < amount) :
    KeepsRatio pool side amount ↔
      pool.own side ≤ amount * pool.other side ∨ Worthless pool side amount 1 ∨ ¬pool.Priced := by
  obtain ⟨hratio, hstroop⟩ := derived_bounds hamount (pool.other_pos side) (pool.own_pos side)
  have hone := @derived_eq_one amount (pool.other side) (pool.own side) hamount (pool.other_pos side)
  rcases quoteDeposit_outcome pool side hamount with ⟨hworthless, hquote⟩ | ⟨-, hprice, hquote⟩ |
    ⟨hworth, hpriced, result, hquote, hfixed, hother, -⟩
  · refine iff_of_true (fun result h => by cases hquote.symm.trans h) ?_
    rcases Int.lt_or_le (amount * pool.other side) (pool.own side) with hlt | hle
    · exact .inr (.inl (hone hlt ▸ hworthless))
    · exact .inl hle
  · exact iff_of_true (fun result h => by cases hquote.symm.trans h) (.inr (.inr hprice))
  · constructor
    · intro hkeeps
      have hle := (hkeeps result hquote).1
      rw [hfixed, hother] at hle
      exact .inl (hratio.mp hle)
    · rintro (hle | hworthless | hprice) quoted hquoted
      · cases Except.ok.inj (hquote.symm.trans hquoted)
        rw [hfixed, hother]
        exact ⟨hratio.mpr hle, hstroop⟩
      · rcases Int.lt_or_le (amount * pool.other side) (pool.own side) with hlt | hle
        · exact absurd (hone hlt ▸ hworthless) hworth
        · cases Except.ok.inj (hquote.symm.trans hquoted)
          rw [hfixed, hother]
          exact ⟨hratio.mpr hle, hstroop⟩
      · exact absurd hpriced hprice

/-- A pool with little of B in it. -/
def scarcePool : Pool := ⟨1000, 10, 1000, by decide, by decide⟩

theorem scarcePool_keepsRatio : 0 < (100 : Int) ∧
    (KeepsRatio scarcePool .a 100 ↔ 1000 ≤ 100 * (10 : Int) ∨ Worthless scarcePool .a 100 1 ∨ ¬scarcePool.Priced) :=
  ⟨by decide, keepsRatio_iff scarcePool .a 100 (by decide)⟩

/-- Of 99 stroops of A the proportion is 0.99 stroops of B, and one is taken. -/
theorem not_keepsRatio : ¬∀ (pool : Pool) (side : Side) (amount : Int), 0 < amount → KeepsRatio pool side amount := by
  intro hkeeps
  have hle := (hkeeps scarcePool .a 99 (by decide) ⟨99, 1, 99, 1000000000, 100000, 10000⟩ (by decide)).1
  exact absurd hle (by decide)

end Savitools.Simulator.PoolDeposits

namespace Savitools.Simulator.PoolWithdrawals

open Strings.CodeUnits LpMath PoolDeposits Shares.ProRata

structure SharedPool extends Pool where
  totalShares_pos : 0 < totalShares

def burnInput (pool : SharedPool) (shares : Int) : WithdrawalInput :=
  ⟨pool.reserveA, pool.reserveB, pool.totalShares, some shares, none⟩

def desiredInput (pool : SharedPool) (desiredA : Int) : WithdrawalInput :=
  ⟨pool.reserveA, pool.reserveB, pool.totalShares, none, some desiredA⟩

variable (pool : SharedPool)

theorem burnedShares_burn {shares : Int} (hpos : 0 < shares) (hle : shares ≤ pool.totalShares) :
    burnedShares (burnInput pool shares) = .ok shares := by
  simp only [burnedShares, burnInput, if_neg hpos.not_ge]
  exact if_neg hle.not_gt

/-- The rounded shares of an amount that the pool has are among its shares. -/
theorem portionUp_range {desiredA : Int} (hpos : 0 < desiredA) (hle : desiredA ≤ pool.reserveA) :
    0 < portionUp desiredA pool.totalShares pool.reserveA ∧
      portionUp desiredA pool.totalShares pool.reserveA ≤ pool.totalShares := by
  constructor
  · rw [← Int.not_le, portionUp_le_iff pool.reserveA_pos hpos.le pool.totalShares_pos.le, Int.zero_mul, Int.not_le]
    exact Int.mul_pos hpos pool.totalShares_pos
  · rw [portionUp_le_iff pool.reserveA_pos hpos.le pool.totalShares_pos.le, Int.mul_comm]
    exact Int.mul_le_mul_of_nonneg_left hle pool.totalShares_pos.le

theorem burnedShares_desired {desiredA : Int} (hpos : 0 < desiredA) (hle : desiredA ≤ pool.reserveA) :
    burnedShares (desiredInput pool desiredA) = .ok (portionUp desiredA pool.totalShares pool.reserveA) := by
  have hall := (portionUp_range pool hpos hle).2
  simp only [burnedShares, desiredInput, if_neg hpos.not_ge, if_neg hle.not_gt, divide_eq pool.reserveA_pos]
  exact congrArg Except.ok (if_neg hall.not_gt)

def zeroReserves : RangeError := .rejected (text "quoteWithdrawal: shares too small — would release zero reserves")

theorem left_pos_iff {burned reserve : Int} (hpos : 0 < burned) (hle : burned ≤ pool.totalShares)
    (hreserve : 0 < reserve) : 0 < reserve - portion burned reserve pool.totalShares ↔ burned < pool.totalShares := by
  have hall := portion_eq_reserve_iff pool.totalShares_pos hpos.le hle hreserve
  have hportion := portion_le_reserve pool.totalShares_pos hpos.le hle hreserve.le
  omega

/-- What becomes of a withdrawal whose shares are computed. -/
theorem quoteWithdrawal_eq {input : WithdrawalInput} {burned : Int} (hA : input.reserveA = pool.reserveA)
    (hB : input.reserveB = pool.reserveB) (hshares : input.totalShares = pool.totalShares)
    (hburned : burnedShares input = .ok burned) (hpos : 0 < burned) (hle : burned ≤ pool.totalShares) :
    ∃ result, result.sharesToBurn = burned ∧
      result.reserveAOut = portion burned pool.reserveA pool.totalShares ∧
      result.reserveBOut = portion burned pool.reserveB pool.totalShares ∧
      quoteWithdrawal input =
        if portion burned pool.reserveA pool.totalShares = 0 ∧ portion burned pool.reserveB pool.totalShares = 0 then
          .error zeroReserves
        else if burned < pool.totalShares ∧ pool.reserveA * stroop < pool.reserveB then .error .divisionByZero
        else .ok result := by
  have hleftA := left_pos_iff pool hpos hle pool.reserveA_pos
  have hleftB := left_pos_iff pool hpos hle pool.reserveB_pos
  have hspot : (pool.reserveA * stroop).tdiv pool.reserveB = 0 ↔ pool.reserveA * stroop < pool.reserveB :=
    portion_eq_zero_iff pool.reserveB_pos pool.reserveA_pos.le (by decide)
  have hA' := pool.reserveA_pos
  have hB' := pool.reserveB_pos
  have hshares' := pool.totalShares_pos
  rw [quoteWithdrawal, if_neg (by omega), if_neg (by omega), hburned]
  simp only [bind, Except.bind, hA, hB, hshares, divide_eq hA', divide_eq hB', divide_eq hshares', priceImpact]
  rw [← portion, ← portion]
  by_cases hzero : portion burned pool.reserveA pool.totalShares = 0 ∧ portion burned pool.reserveB pool.totalShares = 0
  · simp only [if_pos hzero]
    exact ⟨⟨burned, _, _, 0, 0, 0⟩, rfl, rfl, rfl, rfl⟩
  · simp only [if_neg hzero]
    by_cases hall : burned < pool.totalShares
    · simp only [gt_iff_lt, if_pos (And.intro (hleftA.mpr hall) (hleftB.mpr hall)), divide_eq (hleftB.mpr hall)]
      by_cases hlt : pool.reserveA * stroop < pool.reserveB
      · simp only [if_pos (And.intro hall hlt), divide, if_pos (hspot.mpr hlt)]
        exact ⟨⟨burned, _, _, 0, 0, 0⟩, rfl, rfl, rfl, trivial⟩
      · simp only [if_neg (not_and_of_not_right _ hlt), divide, if_neg (mt hspot.mp hlt)]
        exact ⟨_, rfl, rfl, rfl, rfl⟩
    · simp only [gt_iff_lt, hleftA, hall, false_and, if_false]
      exact ⟨_, rfl, rfl, rfl, rfl⟩

theorem quoteWithdrawal_refused {input : WithdrawalInput} {error : RangeError} (hA : input.reserveA = pool.reserveA)
    (hB : input.reserveB = pool.reserveB) (hshares : input.totalShares = pool.totalShares)
    (hburned : burnedShares input = .error error) : quoteWithdrawal input = .error error := by
  have hA' := pool.reserveA_pos
  have hB' := pool.reserveB_pos
  have hshares' := pool.totalShares_pos
  rw [quoteWithdrawal, if_neg (by omega), if_neg (by omega), hburned]
  rfl

/-- A withdrawal by the desired amount burns the fewest shares that pay it. -/
def BurnsLeast (desiredA : Int) : Prop :=
  ∃ result, quoteWithdrawal (desiredInput pool desiredA) = .ok result ∧
    IsLeast {shares : Int | 0 ≤ shares ∧ desiredA ≤ shares * pool.reserveA / pool.totalShares} result.sharesToBurn ∧
    result.sharesToBurn ≤ pool.totalShares ∧ desiredA ≤ result.reserveAOut ∧
    result.reserveAOut ≤ pool.reserveA ∧ result.reserveBOut ≤ pool.reserveB

/-- The desired amount needs all shares of the pool. -/
def TakesAll (desiredA : Int) : Prop := (pool.totalShares - 1) * pool.reserveA < desiredA * pool.totalShares

theorem portionUp_lt_iff {desiredA : Int} (hpos : 0 < desiredA) :
    portionUp desiredA pool.totalShares pool.reserveA < pool.totalShares ↔ ¬TakesAll pool desiredA := by
  rw [TakesAll, Int.not_lt, ← portionUp_le_iff pool.reserveA_pos hpos.le pool.totalShares_pos.le]
  omega

/-- A pool priced below one stroop quotes no withdrawal that leaves something in it. -/
theorem burnsLeast_iff (desiredA : Int) (hpos : 0 < desiredA) (hle : desiredA ≤ pool.reserveA) :
    BurnsLeast pool desiredA ↔ pool.Priced ∨ TakesAll pool desiredA := by
  have hleast := portionUp_isLeast pool.reserveA_pos pool.totalShares_pos hpos.le
  obtain ⟨hburned, hall⟩ := portionUp_range pool hpos hle
  have hpaid : desiredA ≤ portion (portionUp desiredA pool.totalShares pool.reserveA) pool.reserveA pool.totalShares := by
    rw [portion_eq_ediv hburned.le pool.reserveA_pos.le]
    exact hleast.1.2
  have hfails : (portionUp desiredA pool.totalShares pool.reserveA < pool.totalShares ∧
      pool.reserveA * stroop < pool.reserveB) ↔ ¬(pool.Priced ∨ TakesAll pool desiredA) := by
    rw [portionUp_lt_iff pool hpos, not_or, Pool.Priced, Int.not_le, and_comm]
  obtain ⟨result, hshares, hA, hB, hquote⟩ := @quoteWithdrawal_eq pool (desiredInput pool desiredA) _ rfl rfl rfl
    (burnedShares_desired pool hpos hle) hburned hall
  rw [if_neg (by omega)] at hquote
  constructor
  · rintro ⟨quoted, hquoted, -⟩
    by_contra hneither
    rw [if_pos (hfails.mpr hneither), hquoted] at hquote
    cases hquote
  · intro heither
    refine ⟨result, hquote.trans (if_neg (fun h => hfails.mp h heither)), ?_⟩
    rw [hshares, hA, hB]
    exact ⟨hleast, hall, hpaid, portion_le_reserve pool.totalShares_pos hburned.le hall pool.reserveA_pos.le,
      portion_le_reserve pool.totalShares_pos hburned.le hall pool.reserveB_pos.le⟩

/-- One stroop of A against more than one unit of B. -/
def lopsidedPool : SharedPool := ⟨⟨3, 30000001, 9, by decide, by decide⟩, by decide⟩

theorem lopsidedPool_burnsLeast : (0 < (3 : Int) ∧ 3 ≤ lopsidedPool.reserveA) ∧
    (BurnsLeast lopsidedPool 3 ↔ lopsidedPool.Priced ∨ TakesAll lopsidedPool 3) :=
  ⟨by decide, burnsLeast_iff lopsidedPool 3 (by decide) (by decide)⟩

/-- One stroop of A cannot be withdrawn from three. -/
theorem not_burnsLeast : ¬∀ (pool : SharedPool) (desiredA : Int), 1 ≤ desiredA → desiredA ≤ pool.reserveA →
    BurnsLeast pool desiredA := by
  intro hleast
  obtain ⟨result, hquote, -⟩ := hleast lopsidedPool 1 (by decide) (by decide)
  have hfails : quoteWithdrawal (desiredInput lopsidedPool 1) = .error .divisionByZero := by decide
  cases hfails.symm.trans hquote

/-- What a quote may be asked for. -/
inductive Request
  | deposit (side : Side) (amount : Int)
  | burn (shares : Int)
  | desire (amountA : Int)

namespace Request

def amount : Request → Int
  | .deposit _ amount | .burn amount | .desire amount => amount

def Fails (request : Request) (error : RangeError) : Prop :=
  match request with
  | .deposit side amount => quoteDeposit (pool.depositInput side amount) = .error error
  | .burn shares => quoteWithdrawal (burnInput pool shares) = .error error
  | .desire amountA => quoteWithdrawal (desiredInput pool amountA) = .error error

/-- No validation refuses the request. -/
def Admitted (request : Request) : Prop := ∀ message, ¬request.Fails pool (.rejected message)

/-- Nothing is left of the pool. -/
def Empties : Request → Prop
  | .deposit _ _ => False
  | .burn shares => shares = pool.totalShares
  | .desire amountA => TakesAll pool amountA

end Request

theorem withdrawal_safe_iff {input : WithdrawalInput} {burned : Int} (hA : input.reserveA = pool.reserveA)
    (hB : input.reserveB = pool.reserveB) (hshares : input.totalShares = pool.totalShares)
    (hburned : burnedShares input = .ok burned) (hpos : 0 < burned) (hle : burned ≤ pool.totalShares)
    (hadmitted : ∀ message, quoteWithdrawal input ≠ .error (.rejected message)) :
    quoteWithdrawal input ≠ .error .divisionByZero ↔ pool.Priced ∨ burned = pool.totalShares := by
  obtain ⟨result, -, -, -, hquote⟩ := quoteWithdrawal_eq pool hA hB hshares hburned hpos hle
  by_cases hzero : portion burned pool.reserveA pool.totalShares = 0 ∧ portion burned pool.reserveB pool.totalShares = 0
  · rw [if_pos hzero] at hquote
    exact absurd hquote (hadmitted _)
  · rw [if_neg hzero] at hquote
    rw [hquote, Pool.Priced]
    by_cases hfails : burned < pool.totalShares ∧ pool.reserveA * stroop < pool.reserveB
    · rw [if_pos hfails]
      exact iff_of_false (not_not_intro rfl) (by omega)
    · rw [if_neg hfails]
      exact iff_of_true nofun (by omega)

/-- Of the requests that are admitted, those divide by zero that leave something in a pool
priced below one stroop. -/
theorem division_safe_iff (request : Request) (hpos : 0 < request.amount) (hadmitted : request.Admitted pool) :
    ¬request.Fails pool .divisionByZero ↔ pool.Priced ∨ request.Empties pool := by
  cases request with
  | deposit side amount =>
      rcases quoteDeposit_outcome pool.toPool side hpos with ⟨-, hquote⟩ | ⟨-, hprice, hquote⟩ |
        ⟨-, hpriced, result, hquote, -⟩
      · exact absurd hquote (hadmitted _)
      · exact iff_of_false (not_not_intro hquote) (not_or_intro hprice not_false)
      · exact iff_of_true (fun hfails => by cases hquote.symm.trans hfails) (.inl hpriced)
  | burn shares =>
      change 0 < shares at hpos
      by_cases hle : shares ≤ pool.totalShares
      · exact withdrawal_safe_iff pool rfl rfl rfl (burnedShares_burn pool hpos hle) hpos hle hadmitted
      · have hrefused : burnedShares (burnInput pool shares) =
            .error (.rejected (text "quoteWithdrawal: sharesToBurn exceeds totalShares")) := by
          simp only [burnedShares, burnInput, if_neg hpos.not_ge]
          exact if_pos (Int.not_le.mp hle)
        exact absurd (quoteWithdrawal_refused pool rfl rfl rfl hrefused) (hadmitted _)
  | desire amountA =>
      change 0 < amountA at hpos
      by_cases hle : amountA ≤ pool.reserveA
      · obtain ⟨hburned, hall⟩ := portionUp_range pool hpos hle
        have htakes := portionUp_lt_iff pool hpos
        have hsafe := withdrawal_safe_iff pool rfl rfl rfl (burnedShares_desired pool hpos hle) hburned hall hadmitted
        rw [Request.Fails, Request.Empties, ← ne_eq, hsafe]
        refine or_congr_right ⟨fun heq => ?_, fun hempties => ?_⟩
        · exact not_not.mp (mt htakes.mpr (by omega))
        · exact le_antisymm hall (Int.not_lt.mp (fun hlt => htakes.mp hlt hempties))
      · have hrefused : burnedShares (desiredInput pool amountA) =
            .error (.rejected (text "quoteWithdrawal: desiredA exceeds pool reserves")) := by
          simp only [burnedShares, desiredInput, if_neg hpos.not_ge]
          exact if_pos (Int.not_le.mp hle)
        exact absurd (quoteWithdrawal_refused pool rfl rfl rfl hrefused) (hadmitted _)

theorem division_safe_sample : (0 < (Request.burn 3).amount ∧ (Request.burn 3).Admitted lopsidedPool) ∧
    (¬(Request.burn 3).Fails lopsidedPool .divisionByZero ↔
      lopsidedPool.Priced ∨ (Request.burn 3).Empties lopsidedPool) := by
  have hfails : quoteWithdrawal (burnInput lopsidedPool 3) = .error .divisionByZero := by decide
  have hadmitted : (Request.burn 3).Admitted lopsidedPool := fun message hrejected => by
    cases hfails.symm.trans hrejected
  exact ⟨⟨by decide, hadmitted⟩, division_safe_iff lopsidedPool (.burn 3) (by decide) hadmitted⟩

/-- A deposit of all that the pool holds of A is admitted, and divides by zero. -/
theorem not_division_safe : ¬∀ (pool : SharedPool) (request : Request), 0 < request.amount →
    request.Admitted pool → ¬request.Fails pool .divisionByZero := by
  intro hsafe
  have hfails : (Request.deposit .a 3).Fails lopsidedPool .divisionByZero := by
    change quoteDeposit _ = _
    decide
  exact hsafe lopsidedPool (.deposit .a 3) (by decide) (fun message h => by cases hfails.symm.trans h) hfails

/-- The pool after a deposit, whose depositor burns the new shares. -/
def burnMinted (input : DepositInput) (result : DepositResult) : WithdrawalInput :=
  { reserveA := input.reserveA + result.depositA
    reserveB := input.reserveB + result.depositB
    totalShares := input.totalShares + result.sharesOut
    sharesToBurn := some result.sharesOut
    desiredA := none }

/-- A quoted deposit is fair on both sides. -/
theorem quoteDeposit_fair {input : DepositInput} {result : DepositResult} (hshares : 0 < input.totalShares)
    (hquote : quoteDeposit input = .ok result) : 0 < result.sharesOut ∧
      Fair input.reserveA input.totalShares result.depositA result.sharesOut ∧
      Fair input.reserveB input.totalShares result.depositB result.sharesOut := by
  obtain ⟨pool, side, amount, hamount, rfl⟩ := depositInput_of_ok hquote
  have htotal : (pool.depositInput side amount).totalShares = pool.totalShares := by cases side <;> rfl
  rw [htotal] at hshares ⊢
  rcases quoteDeposit_outcome pool side hamount with ⟨-, hrefused⟩ | ⟨-, -, hfails⟩ |
    ⟨hworth, -, quoted, hquoted, hfixed, hother, hminted⟩
  · cases hquote.symm.trans hrefused
  · cases hquote.symm.trans hfails
  · cases Except.ok.inj (hquote.symm.trans hquoted)
    have hderived := derived_pos hamount (pool.other_pos side) (pool.own_pos side)
    have hmin := hminted hshares.ne'
    have hzero := min_portion_eq_zero_iff pool side hamount.le hderived.le hshares.ne'
    have hown := portion_nonneg (pool.own_pos side) hamount.le hshares.le
    have hrest := portion_nonneg (pool.other_pos side) hderived.le hshares.le
    rw [← hmin] at hzero
    have hpos : 0 < result.sharesOut := lt_of_le_of_ne (hmin ▸ le_min hown hrest) (fun h => hworth (hzero.mp h.symm))
    have hfixedFair : Fair (pool.own side) pool.totalShares (fixedSide side result) result.sharesOut := by
      refine ⟨pool.own_pos side, hshares, hfixed ▸ hamount.le, hpos.le, ?_⟩
      rw [hfixed, ← le_portion_iff (pool.own_pos side) hamount.le hshares.le, hmin]
      exact min_le_left _ _
    have hotherFair : Fair (pool.other side) pool.totalShares (otherSide side result) result.sharesOut := by
      refine ⟨pool.other_pos side, hshares, hother ▸ hderived.le, hpos.le, ?_⟩
      rw [hother, ← le_portion_iff (pool.other_pos side) hderived.le hshares.le, hmin]
      exact min_le_right _ _
    cases side with
    | a => exact ⟨hpos, hfixedFair, hotherFair⟩
    | b => exact ⟨hpos, hotherFair, hfixedFair⟩

/-- A deposit dilutes no holder, and its shares are withdrawn for no more than it. -/
theorem quoteDeposit_undiluted (input : DepositInput) (result : DepositResult) (hshares : 0 < input.totalShares)
    (hquote : quoteDeposit input = .ok result) :
    input.reserveA * (input.totalShares + result.sharesOut) ≤ (input.reserveA + result.depositA) * input.totalShares ∧
    input.reserveB * (input.totalShares + result.sharesOut) ≤ (input.reserveB + result.depositB) * input.totalShares ∧
    ∀ withdrawal, quoteWithdrawal (burnMinted input result) = .ok withdrawal →
      withdrawal.reserveAOut ≤ result.depositA ∧ withdrawal.reserveBOut ≤ result.depositB := by
  obtain ⟨hpos, hA, hB⟩ := quoteDeposit_fair hshares hquote
  refine ⟨hA.undiluted, hB.undiluted, fun withdrawal hwithdrawal => ?_⟩
  let after : SharedPool :=
    { reserveA := input.reserveA + result.depositA
      reserveB := input.reserveB + result.depositB
      totalShares := input.totalShares + result.sharesOut
      reserveA_pos := Int.add_pos_of_pos_of_nonneg hA.reserve_pos hA.amount_nonneg
      reserveB_pos := Int.add_pos_of_pos_of_nonneg hB.reserve_pos hB.amount_nonneg
      totalShares_pos := Int.add_pos hshares hpos }
  have hle : result.sharesOut ≤ after.totalShares := Int.le_add_of_nonneg_left hshares.le
  obtain ⟨quoted, -, houtA, houtB, heq⟩ :=
    @quoteWithdrawal_eq after (burnMinted input result) _ rfl rfl rfl (burnedShares_burn after hpos hle) hpos hle
  rw [hwithdrawal] at heq
  have hquoted : withdrawal = quoted := by
    by_cases hzero : portion result.sharesOut after.reserveA after.totalShares = 0 ∧
        portion result.sharesOut after.reserveB after.totalShares = 0
    · rw [if_pos hzero] at heq
      cases heq
    · rw [if_neg hzero] at heq
      by_cases hfails : result.sharesOut < after.totalShares ∧ after.reserveA * stroop < after.reserveB
      · rw [if_pos hfails] at heq
        cases heq
      · rw [if_neg hfails] at heq
        exact Except.ok.inj heq
  rw [hquoted, houtA, houtB]
  exact ⟨hA.redeemed_le, hB.redeemed_le⟩

theorem scarcePool_undiluted :
    let input := scarcePool.depositInput .a 200
    let result : DepositResult := ⟨200, 2, 200, 1000000000, 100000, 0⟩
    (0 < input.totalShares ∧ quoteDeposit input = .ok result) ∧
    input.reserveA * (input.totalShares + result.sharesOut) ≤ (input.reserveA + result.depositA) * input.totalShares ∧
    input.reserveB * (input.totalShares + result.sharesOut) ≤ (input.reserveB + result.depositB) * input.totalShares ∧
    ∀ withdrawal, quoteWithdrawal (burnMinted input result) = .ok withdrawal →
      withdrawal.reserveAOut ≤ result.depositA ∧ withdrawal.reserveBOut ≤ result.depositB :=
  ⟨by decide, quoteDeposit_undiluted _ _ (by decide) (by decide)⟩

end Savitools.Simulator.PoolWithdrawals
