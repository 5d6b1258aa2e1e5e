import Mathlib.Algebra.Order.Field.Rat
import Mathlib.Tactic.FieldSimp
import Mathlib.Tactic.Linarith
import Savitools.Strings.Decimals

namespace Savitools.Common.Decimal

open Strings.CodeUnits Strings.Decimals

def fixedDecimals : Nat := 7

def fixedScale : Int := 10000000

def decimalFormatError (value : Text) : Text :=
  text "Invalid decimal value: \"" ++ value ++
    text "\" (expected a non-negative decimal with at most 7 fractional digits)"

/-- A non-negative decimal with at most seven fractional digits, in stroops. -/
def parseFixed (value : Text) : Except Text Int :=
  match decimalParts value with
  | some (whole, fraction) =>
      if fraction.length ≤ fixedDecimals then
        .ok (digitsValue whole * fixedScale + digitsValue (padEnd fraction fixedDecimals))
      else .error (decimalFormatError value)
  | none => .error (decimalFormatError value)

def formatFixed (value : Int) : Text :=
  let abs := value.natAbs
  (if value < 0 then [unit '-'] else []) ++ ofNat (abs / fixedScale.natAbs) ++ [unit '.'] ++
    padStart (ofNat (abs % fixedScale.natAbs)) fixedDecimals

/-- Truncated at the seventh decimal. -/
def mulFixed (a b : Int) : Int := (a * b).tdiv fixedScale

/-- Truncated at the seventh decimal. -/
def divFixed (a b : Int) : Except Text Int :=
  if b = 0 then .error (text "Division by zero") else .ok ((a * fixedScale).tdiv b)

/-- Rounded to the nearest whole number, a tie away from zero. -/
def divRound (numerator denominator : Int) : Except Text Int :=
  if denominator = 0 then .error (text "Division by zero")
  else
    let negative := decide (numerator < 0) != decide (denominator < 0)
    let n := if numerator < 0 then -numerator else numerator
    let d := if denominator < 0 then -denominator else denominator
    let quotient := (2 * n + d).tdiv (2 * d)
    .ok (if negative then -quotient else quotient)

theorem decimalParts_point {whole fraction : Text} (hwhole : ∀ u ∈ whole, isDigit u = true) (hne : whole ≠ [])
    (hfraction : ∀ u ∈ fraction, isDigit u = true) (hfractionNe : fraction ≠ []) :
    decimalParts (whole ++ unit '.' :: fraction) = some (whole, fraction) := by
  have hdot : ¬isDigit (unit '.') = true := by decide
  have htake : (whole ++ unit '.' :: fraction).takeWhile isDigit = whole := by
    rw [List.takeWhile_append_of_pos hwhole, List.takeWhile_cons_of_neg hdot, List.append_nil]
  have hdrop : (whole ++ unit '.' :: fraction).dropWhile isDigit = unit '.' :: fraction := by
    rw [List.dropWhile_append_of_pos hwhole, List.dropWhile_cons_of_neg hdot]
  simp only [decimalParts, htake, hdrop, if_neg hne]
  rw [if_pos ⟨trivial, hfractionNe, List.all_eq_true.mpr hfraction⟩]

/-- What is not negative is read back from its text. -/
theorem parseFixed_formatFixed {value : Int} (h : 0 ≤ value) : parseFixed (formatFixed value) = .ok value := by
  have hscale : fixedScale.natAbs = 10000000 := rfl
  have hlength : (padStart (ofNat (value.natAbs % 10000000)) fixedDecimals).length = 7 :=
    length_padStart_eq (length_ofNat_le (k := 6) (by omega))
  have hdigits : ∀ u ∈ padStart (ofNat (value.natAbs % 10000000)) fixedDecimals, isDigit u = true :=
    isDigit_of_mem_padStart fun u hu => isDigit_of_mem_ofNat hu
  have hparts : decimalParts (formatFixed value) =
      some (ofNat (value.natAbs / 10000000), padStart (ofNat (value.natAbs % 10000000)) fixedDecimals) := by
    rw [formatFixed, if_neg h.not_gt, hscale, List.nil_append, List.append_assoc, List.singleton_append]
    exact decimalParts_point (fun u hu => isDigit_of_mem_ofNat hu) (ofNat_ne_nil _) hdigits
      (List.ne_nil_of_length_pos (by omega))
  have hpad : padEnd (padStart (ofNat (value.natAbs % 10000000)) fixedDecimals) fixedDecimals =
      padStart (ofNat (value.natAbs % 10000000)) fixedDecimals := by
    rw [padEnd, hlength]
    exact List.append_nil _
  have hvalue : (digitsValue (ofNat (value.natAbs / 10000000)) : Int) * fixedScale +
      digitsValue (padStart (ofNat (value.natAbs % 10000000)) fixedDecimals) = value := by
    rw [digitsValue_ofNat, digitsValue_padStart, digitsValue_ofNat, fixedScale]
    omega
  rw [parseFixed, hparts]
  dsimp only
  rw [hpad, hvalue]
  exact if_pos (hlength.trans_le (Nat.le_refl 7))

theorem parseFixed_nonneg {value : Text} {n : Int} (h : parseFixed value = .ok n) : 0 ≤ n := by
  rw [parseFixed] at h
  split at h
  next =>
    split at h
    next =>
      cases h
      exact Int.add_nonneg (Int.mul_nonneg (Int.natCast_nonneg _) (by decide)) (Int.natCast_nonneg _)
    next => cases h
  next => cases h

/-- No whole number is nearer, and of those that are as near none is farther from zero. -/
def NearestAway (x : Rat) (q : Int) : Prop :=
  ∀ z : Int, |x - q| ≤ |x - z| ∧ (|x - z| = |x - q| → |z| ≤ |q|)

theorem NearestAway.neg {x : Rat} {q : Int} (h : NearestAway x q) : NearestAway (-x) (-q) := by
  intro z
  obtain ⟨hnear, htie⟩ := h (-z)
  have hneg (y : Int) : |-x - y| = |x - (-y : Int)| := by
    rw [← abs_neg]
    push_cast
    congr 1
    ring
  rw [abs_neg] at htie
  rw [hneg, hneg, neg_neg, abs_neg]
  exact ⟨hnear, htie⟩

theorem nearestAway_of_bounds {x : Rat} {q : Int} (hx : 0 ≤ x) (hlow : (q : Rat) - 1 / 2 ≤ x) (hhigh : x < q + 1 / 2) :
    NearestAway x q := by
  have hq : 0 ≤ q := by
    have hpos : (-1 : Rat) < q := by linarith
    have hint : (-1 : Int) < q := by exact_mod_cast hpos
    omega
  have hnear : |x - q| ≤ 1 / 2 := abs_le.mpr ⟨by linarith, by linarith⟩
  intro z
  rcases lt_trichotomy z q with hless | rfl | hmore
  · have hz : (z : Rat) ≤ q - 1 := by exact_mod_cast Int.le_sub_one_of_lt hless
    have habs : |x - z| = x - z := abs_of_nonneg (by linarith)
    rw [habs]
    refine ⟨by linarith, fun htie => ?_⟩
    -- A tie is with the number below, which is not negative.
    have hbelow : (q : Rat) - 1 ≤ z := by linarith
    have hint : q - 1 ≤ z := by exact_mod_cast hbelow
    have hhalf : (0 : Rat) < q := by linarith
    have hpos : 0 < q := by exact_mod_cast hhalf
    rw [abs_of_nonneg (by omega), abs_of_nonneg hq]
    omega
  · exact ⟨le_rfl, fun _ => le_rfl⟩
  · have hz : (q : Rat) + 1 ≤ z := by exact_mod_cast hmore
    have habs : |x - z| = z - x := by
      rw [abs_sub_comm]
      exact abs_of_nonneg (by linarith)
    rw [habs]
    exact ⟨by linarith, fun htie => by linarith⟩

theorem nearestAway_quotient {n d : Int} (hn : 0 ≤ n) (hd : 0 < d) : NearestAway (n / d) ((2 * n + d).tdiv (2 * d)) := by
  have hdpos : (0 : Rat) < d := by exact_mod_cast hd
  rw [Int.tdiv_eq_ediv_of_nonneg (by omega)]
  have hlow := Int.ediv_mul_le (2 * n + d) (by omega : 2 * d ≠ 0)
  have hhigh := Int.lt_ediv_add_one_mul_self (2 * n + d) (by omega : 0 < 2 * d)
  generalize (2 * n + d) / (2 * d) = q at hlow hhigh
  have hlow' : (q : Rat) * (2 * d) ≤ 2 * n + d := by exact_mod_cast hlow
  have hhigh' : (2 : Rat) * n + d < (q + 1) * (2 * d) := by exact_mod_cast hhigh
  refine nearestAway_of_bounds (div_nonneg (by exact_mod_cast hn) hdpos.le) ?_ ?_
  · rw [le_div_iff₀ hdpos]
    linarith
  · rw [div_lt_iff₀ hdpos]
    linarith

theorem divRound_nearest {a b : Int} (hb : b ≠ 0) : ∃ q, divRound a b = .ok q ∧ NearestAway (a / b) q := by
  have hquotient := @nearestAway_quotient |a| |b| (abs_nonneg a) (abs_pos.mpr hb)
  have habs (m : Int) : (if m < 0 then -m else m) = |m| := by
    split
    next h => exact (abs_of_neg h).symm
    next h => exact (abs_of_nonneg (Int.not_lt.mp h)).symm
  refine ⟨_, if_neg hb, ?_⟩
  simp only [habs]
  by_cases ha : a < 0
  · by_cases hneg : b < 0
    · rw [abs_of_neg ha, abs_of_neg hneg] at hquotient ⊢
      simpa [ha, hneg] using hquotient
    · rw [abs_of_neg ha, abs_of_nonneg (Int.not_lt.mp hneg)] at hquotient ⊢
      have hflip := hquotient.neg
      simpa [ha, hneg, neg_div] using hflip
  · by_cases hneg : b < 0
    · rw [abs_of_nonneg (Int.not_lt.mp ha), abs_of_neg hneg] at hquotient ⊢
      have hflip := hquotient.neg
      simpa [ha, hneg, div_neg] using hflip
    · rw [abs_of_nonneg (Int.not_lt.mp ha), abs_of_nonneg (Int.not_lt.mp hneg)] at hquotient ⊢
      simpa [ha, hneg] using hquotient

/-- A number that is not above a whole one is not rounded above it. -/
theorem NearestAway.le_of_le {x : Rat} {q n : Int} (h : NearestAway x q) (hx : x ≤ n) : q ≤ n := by
  by_contra hlt
  have habove : (n : Rat) + 1 ≤ q := by exact_mod_cast not_le.mp hlt
  have hnear := (h n).1
  rw [abs_sub_comm, abs_of_nonneg (by linarith), abs_sub_comm, abs_of_nonneg (by linarith)] at hnear
  linarith

theorem NearestAway.le_of_ge {x : Rat} {q n : Int} (h : NearestAway x q) (hx : n ≤ x) : n ≤ q := by
  have hneg := h.neg.le_of_le (n := -n) (by push_cast; linarith)
  omega

theorem nearestAway_whole {n q : Int} (h : NearestAway n q) : q = n :=
  le_antisymm (h.le_of_le le_rfl) (h.le_of_ge le_rfl)

/-- Amounts are read back exactly, and quotients are rounded to the nearest. -/
theorem fixedPoint_exact : (∀ value, 0 ≤ value → parseFixed (formatFixed value) = .ok value) ∧
    ∀ numerator denominator, denominator ≠ 0 →
      ∃ q, divRound numerator denominator = .ok q ∧ NearestAway (numerator / denominator) q :=
  ⟨fun _ => parseFixed_formatFixed, fun _ _ => divRound_nearest⟩

/-- 12.5 and -12.5 are rounded away from zero. -/
example : divRound 25 2 = .ok 13 ∧ divRound 25 (-2) = .ok (-13) := ⟨rfl, rfl⟩

theorem fixedPoint_exact_sample : parseFixed (formatFixed 125) = .ok 125 ∧
    ∃ q, divRound 25 (-2) = .ok q ∧ NearestAway ((25 : Int) / (-2 : Int)) q :=
  ⟨fixedPoint_exact.1 125 (by decide), fixedPoint_exact.2 25 (-2) (by decide)⟩

end Savitools.Common.Decimal
