import Mathlib.Algebra.Group.Nat.Defs
import Mathlib.Data.List.TakeWhile
import Savitools.Strings.Decimals

namespace Json.Numbers

open Strings.CodeUnits Strings.Decimals

/-- A double other than NaN, which no JSON text denotes. The two zeros are one. -/
inductive Number
  | finite (q : Rat)
  | infinite (negative : Bool)
deriving DecidableEq

/-- The whole number nearest to `a / d`, of two the even one. -/
def nearestEven (a d : Nat) : Nat :=
  if 2 * (a % d) < d ∨ (2 * (a % d) = d ∧ a / d % 2 = 0) then a / d else a / d + 1

/-- From 2^1024 on there are no doubles. -/
def exponentLimit : Nat := 1024

def scaled (m : Nat) (e : Int) : Rat := mkRat (m * 2 ^ e.toNat : Nat) (2 ^ (-e).toNat)

/-- The exponent of the last place of a double near `a / d`: 52 below that of the first,
but never below that of the least double. -/
def lastPlace (a d : Nat) : Int :=
  let l : Int := a.log2 - d.log2
  let first := if d * 2 ^ l.toNat ≤ a * 2 ^ (-l).toNat then l else l - 1
  max (first - 52) (-1074)

/-- The double nearest to `a / d` or its negative, ties to the even significand. -/
def nearest (negative : Bool) (a d : Nat) : Number :=
  let e := lastPlace a d
  let m := nearestEven (a * 2 ^ (-e).toNat) (d * 2 ^ e.toNat)
  if 2 ^ exponentLimit * 2 ^ (-e).toNat ≤ m * 2 ^ e.toNat then .infinite negative
  else .finite (if negative then -scaled m e else scaled m e)

/-- The value of `digits * 10 ^ exponent`, rounded. -/
def nearestDecimal (negative : Bool) (digits : Nat) (exponent : Int) : Number :=
  nearest negative (digits * 10 ^ exponent.toNat) (10 ^ (-exponent).toNat)

/-- The code units of the numbers of the JSON grammar. -/
def isNumberUnit (u : UInt16) : Bool :=
  isDigit u || u == unit '-' || u == unit '+' || u == unit '.' || u == unit 'e' || u == unit 'E'

def readSign : Text → Bool × Text
  | [] => (false, [])
  | u :: rest => if u = unit '-' then (true, rest) else (false, u :: rest)

/-- Whole parts have no needless zeros in front. -/
def wholeOk (whole : Text) : Bool := whole != [] && (whole.length == 1 || whole.head? != some (unit '0'))

def readFraction : Text → Option (Text × Text)
  | [] => some ([], [])
  | u :: rest =>
      if u = unit '.' then
        if rest.takeWhile isDigit = [] then none else some (rest.takeWhile isDigit, rest.dropWhile isDigit)
      else some ([], u :: rest)

def readExponent : Text → Option Int
  | [] => some 0
  | u :: rest =>
      if u = unit 'e' ∨ u = unit 'E' then
        let (negative, digits) :=
          if rest.head? = some (unit '+') then (false, rest.drop 1) else readSign rest
        if digits ≠ [] ∧ digits.all isDigit then
          some (if negative then -(digitsValue digits : Int) else digitsValue digits)
        else none
      else none

/-- What a number of the JSON grammar denotes. -/
def readNumber (t : Text) : Option Number :=
  let (negative, unsigned) := readSign t
  let whole := unsigned.takeWhile isDigit
  if wholeOk whole then
    (readFraction (unsigned.dropWhile isDigit)).bind fun (fraction, rest) =>
      (readExponent rest).map fun exponent =>
        nearestDecimal negative (digitsValue (whole ++ fraction)) (exponent - fraction.length)
  else none

/-- The place of the decimal point in `a / d`, counted from the first digit that is not zero. -/
def pointPlace (a d : Nat) : Int :=
  let l : Int := (ofNat a).length - (ofNat d).length
  if d * 10 ^ l.toNat ≤ a * 10 ^ (-l).toNat then l + 1 else l

/-- The nearer of the two multiples of `10 ^ place` around `a / d` that reads as it. -/
def shortDigits (a d : Nat) (place : Int) : Option Nat :=
  let up := a * 10 ^ (-place).toNat
  let down := d * 10 ^ place.toNat
  let near := if 2 * (up % down) ≤ down then [up / down, up / down + 1] else [up / down + 1, up / down]
  near.find? (fun c => nearestDecimal false c place = .finite (mkRat a d))

/-- The fewest digits that read as `a / d`, with the place of the last; 17 are always enough. -/
def shortest (a d : Nat) : Nat × Int :=
  ((List.range 17).findSome? (fun k =>
    let place := pointPlace a d - (k + 1)
    (shortDigits a d place).map (·, place))).getD (0, 0)

def zeros (n : Int) : Text := List.replicate n.toNat (unit '0')

def exponentText (e : Int) : Text :=
  unit 'e' :: (if e < 0 then unit '-' else unit '+') :: ofNat e.natAbs

/-- The digits of a number with its decimal point `n` places after the first digit's front. -/
def pointText (digits : Text) (n : Int) : Text :=
  let k : Int := digits.length
  if k ≤ n ∧ n ≤ 21 then digits ++ zeros (n - k)
  else if 0 < n ∧ n ≤ 21 then digits.take n.toNat ++ unit '.' :: digits.drop n.toNat
  else if -6 < n ∧ n ≤ 0 then text "0." ++ zeros (-n) ++ digits
  else digits.take 1 ++ (if digits.length = 1 then [] else unit '.' :: digits.drop 1) ++ exponentText (n - 1)

/-- A whole number below 2^53 has no shorter digits than its own. -/
def positiveText (a d : Nat) : Text :=
  if d = 1 ∧ a < 2 ^ 53 then ofNat a
  else
    let (c, place) := shortest a d
    pointText ((ofNat c).reverse.dropWhile (· == unit '0')).reverse ((ofNat c).length + place)

/-- `String(x)` of a double. -/
def numberText : Number → Text
  | .finite q => if q.num < 0 then unit '-' :: positiveText q.num.natAbs q.den else positiveText q.num.natAbs q.den
  | .infinite negative => if negative then text "-Infinity" else text "Infinity"

def Number.ofInt (n : Int) : Number := .finite (Rat.ofInt n)

/-- A number whose JSON text is read back. -/
def Readable (x : Number) : Prop :=
  (∃ u rest, numberText x = u :: rest ∧ (u = unit '-' ∨ isDigit u = true)) ∧
    (∀ u ∈ numberText x, isNumberUnit u = true) ∧ readNumber (numberText x) = some x

theorem nearestEven_one (a : Nat) : nearestEven a 1 = a := by
  rw [nearestEven, Nat.mod_one, Nat.div_one, if_pos (Or.inl (by omega))]

theorem lastPlace_one {n : Nat} (hn : n < 2 ^ 53) : lastPlace n 1 ≤ 0 := by
  have hlog : n.log2 ≤ 52 := by
    by_cases hz : n = 0
    · rw [hz]
      decide
    · exact Nat.le_of_lt_succ ((Nat.log2_lt hz).mpr hn)
  have hone : Nat.log2 1 = 0 := by decide
  rw [lastPlace, hone]
  split <;> omega

theorem scaled_of_nonpos (n : Nat) {e : Int} (he : e ≤ 0) :
    scaled (n * 2 ^ (-e).toNat) e = Rat.ofInt n := by
  have hpow : 2 ^ (-e).toNat ≠ 0 := Nat.ne_of_gt (Nat.pow_pos (by decide))
  have hdown := @Rat.mkRat_mul_right n 1 (2 ^ (-e).toNat) hpow
  rw [Nat.one_mul, ← Int.natCast_mul] at hdown
  rw [scaled, Int.toNat_of_nonpos he, Nat.pow_zero, Nat.mul_one, hdown]
  exact Rat.mkRat_self (Rat.ofInt n)

/-- The whole numbers below 2^53 are doubles. -/
theorem nearest_one {n : Nat} (hn : n < 2 ^ 53) : nearest false n 1 = .ofInt n := by
  have hplace := lastPlace_one hn
  have hsmall : ¬2 ^ exponentLimit * 2 ^ (-lastPlace n 1).toNat ≤ n * 2 ^ (-lastPlace n 1).toNat := by
    rw [Nat.mul_le_mul_right_iff (Nat.pow_pos (by decide)), Nat.not_le]
    exact hn.trans (Nat.pow_lt_pow_right (by decide) (by decide))
  simp only [nearest, Int.toNat_of_nonpos hplace, Nat.pow_zero, Nat.mul_one, nearestEven_one, if_neg hsmall,
    scaled_of_nonpos n hplace, Bool.false_eq_true, if_false, Number.ofInt]

theorem wholeOk_ofNat (n : Nat) : wholeOk (ofNat n) = true := by
  have hne : (ofNat n != []) = true := bne_iff_ne.mpr (ofNat_ne_nil n)
  rw [wholeOk, hne, Bool.true_and]
  by_cases hn : n < 10
  · rw [ofNat_digit n hn]
    rfl
  · have hhead : ((ofNat n).head? != some (unit '0')) = true := bne_iff_ne.mpr (head_ofNat (by omega))
    rw [hhead, Bool.or_true]

theorem readSign_ofNat (n : Nat) : readSign (ofNat n) = (false, ofNat n) := by
  obtain ⟨u, rest, hcons⟩ := List.exists_cons_of_ne_nil (ofNat_ne_nil n)
  have hdigit : isDigit u = true := isDigit_of_mem_ofNat (hcons ▸ List.mem_cons_self)
  have hminus : u ≠ unit '-' := by
    rintro rfl
    exact absurd hdigit (by decide)
  rw [hcons, readSign, if_neg hminus]

theorem readNumber_ofNat {n : Nat} (hn : n < 2 ^ 53) : readNumber (ofNat n) = some (.ofInt n) := by
  have hdigits : ∀ u ∈ ofNat n, isDigit u = true := fun u hu => isDigit_of_mem_ofNat hu
  have htake : (ofNat n).takeWhile isDigit = ofNat n := List.takeWhile_eq_self_iff.mpr hdigits
  have hdrop : (ofNat n).dropWhile isDigit = [] := List.dropWhile_eq_nil_iff.mpr hdigits
  have hread : readNumber (ofNat n) = some (nearest false (digitsValue (ofNat n ++ []) * 10 ^ 0) (10 ^ 0)) := by
    simp only [readNumber, readSign_ofNat, htake, hdrop, wholeOk_ofNat, if_true]
    rfl
  rw [hread, List.append_nil, digitsValue_ofNat, Nat.pow_zero, Nat.mul_one, nearest_one hn]

theorem numberText_ofInt {n : Nat} (hn : n < 2 ^ 53) : numberText (.ofInt n) = ofNat n := by
  have hnum : (Rat.ofInt n).num = (n : Int) := rfl
  have hden : (Rat.ofInt n).den = 1 := rfl
  rw [Number.ofInt, numberText, hnum, hden, if_neg (by omega), positiveText, if_pos ⟨rfl, hn⟩, Int.natAbs_natCast]

theorem readable_ofInt {n : Nat} (hn : n < 2 ^ 53) : Readable (.ofInt n) := by
  have hdigits : ∀ u ∈ ofNat n, isDigit u = true := fun u hu => isDigit_of_mem_ofNat hu
  rw [Readable, numberText_ofInt hn]
  refine ⟨?_, ?_, readNumber_ofNat hn⟩
  · obtain ⟨u, rest, hcons⟩ := List.exists_cons_of_ne_nil (ofNat_ne_nil n)
    exact ⟨u, rest, hcons, Or.inr (hdigits u (hcons ▸ List.mem_cons_self))⟩
  · intro u hu
    simp [isNumberUnit, hdigits u hu]

end Json.Numbers
