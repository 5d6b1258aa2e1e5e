import Mathlib.Algebra.Order.Floor.Ring
import Mathlib.Algebra.Order.Ring.Rat
import Mathlib.Data.Rat.Floor
import Mathlib.Tactic.FieldSimp
import Mathlib.Tactic.Linarith
import Mathlib.Tactic.NormNum
import Mathlib.Tactic.Ring
import Savitools.Json.Doubles

namespace Json.Roundings

open Strings.CodeUnits Strings.Decimals Json.Numbers Json.Doubles Json.Wholes

/-- `x * n` for a positive whole number. -/
def timesNat (n : Nat) : Number → Number
  | .finite q => Doubles.round (q * n)
  | .infinite negative => .infinite negative

/-- `x / n` for a positive whole number. -/
def overNat (n : Nat) : Number → Number
  | .finite q => Doubles.round (q / n)
  | .infinite negative => .infinite negative

/-- `-x` -/
def negate : Number → Number
  | .finite q => .finite (-q)
  | .infinite negative => .infinite !negative

/-- `a / b`; the zero is the positive one. -/
def divide : Number → Number → Double
  | .finite a, .finite b =>
      if b ≠ 0 then some (Doubles.round (a / b)) else if a = 0 then none else some (.infinite (a < 0))
  | .finite _, .infinite _ => some (.finite 0)
  | .infinite negative, .finite b => some (.infinite (negative != decide (b < 0)))
  | .infinite _, .infinite _ => none

def div : Double → Double → Double
  | some a, some b => divide a b
  | _, _ => none

/-- `a * b` -/
def times : Number → Number → Double
  | .finite a, .finite b => some (Doubles.round (a * b))
  | .finite q, .infinite negative | .infinite negative, .finite q =>
      if q = 0 then none else some (.infinite (negative != decide (q < 0)))
  | .infinite negative, .infinite other => some (.infinite (negative != other))

def mul : Double → Double → Double
  | some a, some b => times a b
  | _, _ => none

/-- `x.toFixed(decimals)`, where a half is rounded away from zero. -/
def toFixed (decimals : Nat) : Double → Text
  | some (.finite q) =>
      let scaled := (|q| * (10 ^ decimals : Nat) + 1 / 2).floor.toNat
      let point := if decimals = 0 then [] else unit '.' :: padStart (ofNat (scaled % 10 ^ decimals)) decimals
      if (10 ^ 21 : Nat) ≤ |q| then numberText (.finite q)
      else (if q < 0 then [unit '-'] else []) ++ ofNat (scaled / 10 ^ decimals) ++ point
  | x => doubleText x

/-- `Math.round(x)`, which takes a half up. -/
def roundHalfUp : Number → Number
  | .finite q => .ofInt (q + 1 / 2).floor
  | .infinite negative => .infinite negative

/-- The whole number nearest to a quotient is at most a half from it. -/
theorem nearestEven_error (a : Nat) {d : Nat} (hd : 0 < d) :
    2 * (nearestEven a d * d) ≤ 2 * a + d ∧ 2 * a ≤ 2 * (nearestEven a d * d) + d := by
  have hdiv := Nat.div_add_mod a d
  have hmod := Nat.mod_lt a hd
  rw [Nat.mul_comm] at hdiv
  rw [nearestEven]
  split
  next h => omega
  next h =>
    rw [Nat.add_mul, Nat.one_mul]
    omega

/-- The last place of a number below a power of two. -/
theorem lastPlace_le {a d k : Nat} (h : a < 2 ^ k * d) : lastPlace a d ≤ max ((k : Int) - 53) (-1074) := by
  have hd : 0 < d := Nat.pos_of_ne_zero (by rintro rfl; omega)
  rw [lastPlace]
  refine max_le_max_right _ ?_
  split
  next hfirst =>
    by_contra hlarge
    obtain ⟨l, hl⟩ : ∃ l : Nat, (a.log2 : Int) - d.log2 = l := ⟨a.log2 - d.log2, by omega⟩
    have hk : k ≤ l := by omega
    have hnone : (-(l : Int)).toNat = 0 := by omega
    rw [hl, hnone, Int.toNat_natCast, Nat.pow_zero, Nat.mul_one] at hfirst
    have hpow : 2 ^ k * d ≤ 2 ^ l * d := Nat.mul_le_mul_right _ (Nat.pow_le_pow_right (by decide) hk)
    rw [Nat.mul_comm] at hfirst
    omega
  next hfirst =>
    by_contra hlarge
    have hlog : k + (d.log2 + 1) ≤ a.log2 := by omega
    have ha : a ≠ 0 := by
      rintro rfl
      have hzero : Nat.log2 0 = 0 := by decide
      omega
    have hlow : 2 ^ (k + (d.log2 + 1)) ≤ a :=
      (Nat.pow_le_pow_right (by decide) hlog).trans (Nat.log2_self_le ha)
    have hhigh : 2 ^ k * d ≤ 2 ^ (k + (d.log2 + 1)) := by
      rw [Nat.pow_add]
      exact Nat.mul_le_mul_left _ Nat.lt_log2_self.le
    omega

/-- A double is close to the number that it is rounded from. -/
theorem nearest_error {a d k : Nat} (h : a < 2 ^ k * d) (hk : k ≤ 53) :
    ∃ q : Rat, nearest false a d = .finite q ∧ 0 ≤ q ∧ |q - a / d| ≤ 1 / 2 ^ (54 - k) := by
  have hd : 0 < d := Nat.pos_of_ne_zero (by rintro rfl; omega)
  have hplace := lastPlace_le h
  obtain ⟨n, hn⟩ : ∃ n : Nat, -lastPlace a d = n := ⟨(-lastPlace a d).toNat, by omega⟩
  have hn53 : 53 - k ≤ n := by omega
  have hnone : (lastPlace a d).toNat = 0 := by omega
  have hcount : (-lastPlace a d).toNat = n := by omega
  obtain ⟨habove, hbelow⟩ := nearestEven_error (a * 2 ^ n) hd
  generalize hm : nearestEven (a * 2 ^ n) d = m at habove hbelow
  have hsmall : ¬2 ^ exponentLimit * 2 ^ n ≤ m := by
    intro hlarge
    have hcast : a * 2 ^ n < 2 ^ k * d * 2 ^ n := Nat.mul_lt_mul_of_pos_right h (Nat.pow_pos (by decide))
    have hk53 : 2 ^ k ≤ 2 ^ 53 := Nat.pow_le_pow_right (by decide) hk
    have hlimit : 2 ^ 54 ≤ 2 ^ exponentLimit := Nat.pow_le_pow_right (by decide) (by decide)
    generalize 2 ^ exponentLimit = limit at hlarge hlimit
    have hone : 1 ≤ 2 ^ n := Nat.one_le_pow _ _ (by decide)
    have hproduct : limit * 2 ^ n * d ≤ m * d := Nat.mul_le_mul_right _ hlarge
    have hscale : 2 ^ 54 * (2 ^ n * d) ≤ limit * 2 ^ n * d := by
      rw [Nat.mul_assoc]
      exact Nat.mul_le_mul_right _ hlimit
    have hbound : 2 ^ k * d * 2 ^ n ≤ 2 ^ 53 * (2 ^ n * d) := by
      rw [Nat.mul_assoc, Nat.mul_comm d]
      exact Nat.mul_le_mul_right _ hk53
    have hd1 : d ≤ 2 ^ n * d := Nat.le_mul_of_pos_left d (by omega)
    omega
  refine ⟨m / 2 ^ n, ?_, by positivity, ?_⟩
  · simp only [nearest, hnone, hcount, Nat.pow_zero, Nat.mul_one, hm, if_neg hsmall, Bool.false_eq_true, if_false, scaled]
    rw [Rat.mkRat_eq_div]
    push_cast
    rfl
  · have hdpos : (0 : Rat) < d := by exact_mod_cast hd
    have hpow : (0 : Rat) < 2 ^ n := by positivity
    have habove' : 2 * ((m : Rat) * d) ≤ 2 * (a * 2 ^ n) + d := by exact_mod_cast habove
    have hbelow' : 2 * ((a : Rat) * 2 ^ n) ≤ 2 * (m * d) + d := by exact_mod_cast hbelow
    have hplaces : (1 : Rat) / 2 ^ (n + 1) ≤ 1 / 2 ^ (54 - k) := by
      apply one_div_le_one_div_of_le (by positivity)
      exact pow_le_pow_right₀ (by norm_num) (by omega)
    refine le_trans ?_ hplaces
    have hdiff : (m : Rat) / 2 ^ n - a / d = (m * d - a * 2 ^ n) / (2 ^ n * d) := by field_simp
    rw [hdiff, abs_div, abs_of_pos (mul_pos hpow hdpos), div_le_div_iff₀ (mul_pos hpow hdpos) (by positivity), pow_succ]
    have habs : |(m : Rat) * d - a * 2 ^ n| ≤ d / 2 := abs_le.mpr ⟨by linarith, by linarith⟩
    have hscaled := mul_le_mul_of_nonneg_right habs (by positivity : (0 : Rat) ≤ 2 ^ n * 2)
    linarith only [hscaled]

/-- A number that is not negative is rounded to one close to it. -/
theorem round_error {r : Rat} {k : Nat} (hr : 0 ≤ r) (hlt : r < 2 ^ k) (hk : k ≤ 53) :
    ∃ q, Doubles.round r = .finite q ∧ 0 ≤ q ∧ |q - r| ≤ 1 / 2 ^ (54 - k) := by
  have hnum : 0 ≤ r.num := Rat.num_nonneg.mpr hr
  have hden : (0 : Rat) < r.den := by exact_mod_cast r.pos
  have hvalue : ((r.num.natAbs : Nat) : Rat) / r.den = r := by
    rw [Nat.cast_natAbs, abs_of_nonneg hnum]
    exact Rat.num_div_den r
  have hbelow : r.num.natAbs < 2 ^ k * r.den := by
    have hlt' : ((r.num.natAbs : Nat) : Rat) / r.den < 2 ^ k := by rwa [hvalue]
    rw [div_lt_iff₀ hden] at hlt'
    exact_mod_cast hlt'
  obtain ⟨q, hq, hnonneg, herror⟩ := nearest_error hbelow hk
  rw [hvalue] at herror
  refine ⟨q, ?_, hnonneg, herror⟩
  rw [Doubles.round, decide_eq_false (not_lt.mpr hr), hq]

/-- What is nearer than a half to a whole number is rounded to it. -/
theorem roundHalfUp_of_near {q : Rat} {n : Int} (h : |q - n| < 1 / 2) : roundHalfUp (.finite q) = .ofInt n := by
  obtain ⟨hlow, hhigh⟩ := abs_lt.mp h
  have hfloor : ⌊q + 1 / 2⌋ = n := Int.floor_eq_iff.mpr ⟨by linarith, by linarith⟩
  exact congrArg Number.ofInt hfloor

/-- A quotient below `2 ^ 31` that is scaled back is near its numerator, also after two roundings. -/
theorem roundHalfUp_scaled {n d : Nat} (hn : n < 2 ^ 31) (hd : 0 < d) (hsmall : d ≤ 2 ^ 31) :
    (mul (some (nearest false n d)) (ofInt d)).map roundHalfUp = ofInt n := by
  obtain ⟨k, hk, hbelow, hscale⟩ : ∃ k ≤ 31, n < 2 ^ k * d ∧ 2 ^ k * d ≤ 2 ^ 32 := by
    by_cases hlt : n < d
    · exact ⟨0, by decide, by omega, by omega⟩
    · have hpos : n / d ≠ 0 := (Nat.div_pos (not_lt.mp hlt) hd).ne'
      have hlow : 2 ^ (n / d).log2 ≤ n / d := Nat.log2_self_le hpos
      have hhigh : n / d < 2 ^ ((n / d).log2 + 1) := Nat.lt_log2_self
      have hproduct : 2 ^ (n / d).log2 * d ≤ n := (Nat.mul_le_mul_right d hlow).trans (Nat.div_mul_le_self n d)
      have hlog : (n / d).log2 < 31 := by
        rw [Nat.log2_lt hpos]
        exact (Nat.div_le_self n d).trans_lt hn
      refine ⟨(n / d).log2 + 1, hlog, (Nat.div_lt_iff_lt_mul hd).mp hhigh, ?_⟩
      rw [Nat.pow_succ, Nat.mul_right_comm]
      omega
  obtain ⟨q, hq, hnonneg, herror⟩ := nearest_error hbelow (by omega)
  have hdpos : (0 : Rat) < d := by exact_mod_cast hd
  have hback : |q * d - n| ≤ 1 / 2 ^ 22 := by
    have hsplit : q * d - n = (q - n / d) * d := by field_simp
    have hscale' : (2 : Rat) ^ k * d ≤ 2 ^ 32 := by exact_mod_cast hscale
    rw [hsplit, abs_mul, abs_of_pos hdpos]
    calc |q - n / d| * d ≤ 1 / 2 ^ (54 - k) * d := mul_le_mul_of_nonneg_right herror hdpos.le
      _ = 2 ^ k * d / 2 ^ 54 := by
          have hpow : (2 : Rat) ^ 54 = 2 ^ (54 - k) * 2 ^ k := by rw [← pow_add, Nat.sub_add_cancel (by omega)]
          rw [hpow]
          field_simp
      _ ≤ 2 ^ 32 / 2 ^ 54 := div_le_div_of_nonneg_right hscale' (by positivity)
      _ = 1 / 2 ^ 22 := by norm_num
  have hcast : (n : Rat) < 2147483648 := by exact_mod_cast hn
  obtain ⟨hlow, hhigh⟩ := abs_le.mp hback
  norm_num at hlow hhigh
  obtain ⟨r, hr, -, hrounded⟩ := round_error (r := q * d) (k := 32) (by positivity) (by norm_num; linarith) (by decide)
  norm_num at hrounded
  obtain ⟨hrLow, hrHigh⟩ := abs_le.mp hrounded
  have hproduct : times (.finite q) (.ofInt d) = some (.finite r) := congrArg some hr
  have hnear : roundHalfUp (.finite r) = .ofInt n := roundHalfUp_of_near (abs_lt.mpr ⟨by push_cast; linarith, by push_cast; linarith⟩)
  rw [hq, ofInt, mul, hproduct, Option.map_some, hnear, ofInt]

end Json.Roundings
