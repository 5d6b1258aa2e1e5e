import Savitools.Json.Numbers
import Savitools.Json.Values

namespace Json.Conversions

open Strings.CodeUnits Strings.Decimals Json.Numbers Json.Values

def signed (t : Text) : Bool × Text :=
  if t.head? = some (unit '+') then (false, t.drop 1) else readSign t

/-- `parseInt(t, 10)`: white space in front, a sign and as many digits as there are;
without digits it is not a number. -/
def parseInt (t : Text) : Option Number :=
  let (negative, rest) := signed (trimStart t)
  let digits := rest.takeWhile isDigit
  if digits = [] then none else some (nearest negative (digitsValue digits) 1)

/-- The exponent that a text starts with, if one does. -/
def leadingExponent : Text → Int
  | [] => 0
  | u :: rest =>
      if u = unit 'e' ∨ u = unit 'E' then
        let (negative, rest) := signed rest
        let digits := rest.takeWhile isDigit
        if negative then -(digitsValue digits : Int) else digitsValue digits
      else 0

/-- `parseFloat(t)`: the longest start that is a decimal number, behind white space; nothing stands for NaN. -/
def parseFloat (t : Text) : Option Number :=
  let (negative, rest) := signed (trimStart t)
  if (text "Infinity").isPrefixOf rest then some (.infinite negative)
  else
    let whole := rest.takeWhile isDigit
    let rest := rest.dropWhile isDigit
    let (fraction, rest) :=
      if rest.head? = some (unit '.') then ((rest.drop 1).takeWhile isDigit, (rest.drop 1).dropWhile isDigit)
      else ([], rest)
    if whole = [] ∧ fraction = [] then none
    else some (nearestDecimal negative (digitsValue (whole ++ fraction)) (leadingExponent rest - fraction.length))

/-- The value of digits in some base, all of which must be digits of it. -/
def radixDigits (radix : Nat) (digits : Text) : Option Nat :=
  if digits ≠ [] ∧ digits.all (fun u => isHexDigit u && hexDigitValue u < radix) then
    some (digits.foldl (fun n u => radix * n + hexDigitValue u) 0)
  else none

/-- The base of a number that starts with `0x`, `0o` or `0b`. -/
def radixMark : Text → Option Nat
  | u :: v :: _ =>
      if u ≠ unit '0' then none
      else if toLowerAscii v = unit 'x' then some 16
      else if toLowerAscii v = unit 'o' then some 8
      else if toLowerAscii v = unit 'b' then some 2
      else none
  | _ => none

/-- Digits with a point among them or at one of their ends, and an exponent. -/
def readDecimal (negative : Bool) (t : Text) : Option Number :=
  let whole := t.takeWhile isDigit
  let rest := t.dropWhile isDigit
  let (fraction, rest) :=
    if rest.head? = some (unit '.') then ((rest.drop 1).takeWhile isDigit, (rest.drop 1).dropWhile isDigit)
    else ([], rest)
  if whole = [] ∧ fraction = [] then none
  else
    (readExponent rest).map fun exponent =>
      nearestDecimal negative (digitsValue (whole ++ fraction)) (exponent - fraction.length)

/-- `Number(t)`; nothing stands for NaN. -/
def toNumber (t : Text) : Option Number :=
  let t := trim t
  if t = [] then some (.finite 0)
  else
    match radixMark t with
    | some radix => (radixDigits radix (t.drop 2)).map (nearest false · 1)
    | none =>
        let (negative, unsigned) := signed t
        if unsigned = text "Infinity" then some (.infinite negative) else readDecimal negative unsigned

def Number.isInteger : Number → Bool
  | .finite q => q.den == 1
  | .infinite _ => false

/-- `BigInt(t)`, where it does not throw. Only decimal digits may have a sign. -/
def toBigInt (t : Text) : Option Int :=
  let t := trim t
  if t = [] then some 0
  else
    match radixMark t with
    | some radix => (radixDigits radix (t.drop 2)).map Int.ofNat
    | none =>
        let (negative, digits) := signed t
        (radixDigits 10 digits).map fun n => if negative then -(n : Int) else n

mutual

/-- `String(v)` -/
def stringOf : Value Number → Text
  | .null => text "null"
  | .bool b => if b then text "true" else text "false"
  | .num n => numberText n
  | .str t => t
  | .arr items => join (unit ',') (stringOfItems items)
  | .obj _ => text "[object Object]"

/-- In an array null is written as nothing. -/
def stringOfItems : List (Value Number) → List Text
  | [] => []
  | .null :: items => [] :: stringOfItems items
  | v :: items => stringOf v :: stringOfItems items

end

mutual

/-- `String(v)`, where it does not throw: an object with a member `toString` has no text. -/
def primitiveText : Value Number → Option Text
  | .arr items => (primitiveItems items).map (join (unit ','))
  | .obj fields => if (fields.lookup (text "toString")).isSome then none else some (text "[object Object]")
  | v => some (stringOf v)

def primitiveItems : List (Value Number) → Option (List Text)
  | [] => some []
  | .null :: items => (primitiveItems items).map ([] :: ·)
  | v :: items => (primitiveText v).bind fun t => (primitiveItems items).map (t :: ·)

end

/-- `String(n)` of a BigInt -/
def intText (n : Int) : Text := if n < 0 then unit '-' :: ofNat n.natAbs else ofNat n.natAbs

theorem digit_facts : ∀ d < 10, isSpace (unit '0' + d.toUInt16) = false ∧
    isHexDigit (unit '0' + d.toUInt16) = true ∧ hexDigitValue (unit '0' + d.toUInt16) = d := by decide

theorem trim_eq_self {t : Text} (ht : ∀ u ∈ t, isSpace u = false) : trim t = t := by
  cases t with
  | nil => rfl
  | cons u t => simpa using @trim_append [] (u :: t) [] nofun nofun (List.cons_ne_nil u t) ht

section Digits

variable {digits : Text} (hdigits : ∀ u ∈ digits, isDigit u = true)

include hdigits

theorem radixDigits_digits (hne : digits ≠ []) : radixDigits 10 digits = some (digitsValue digits) := by
  have hall : digits.all (fun u => isHexDigit u && hexDigitValue u < 10) = true := by
    refine List.all_eq_true.mpr fun u hu => ?_
    obtain ⟨d, hd, rfl⟩ := exists_digit (hdigits u hu)
    obtain ⟨-, hhex, hvalue⟩ := digit_facts d hd
    rw [hhex, hvalue, Bool.true_and]
    exact decide_eq_true hd
  have hstep : ∀ (n : Nat), ∀ u ∈ digits, 10 * n + hexDigitValue u = 10 * n + (u - unit '0').toNat := by
    have hunit : ∀ d < 10, hexDigitValue (unit '0' + d.toUInt16) = (unit '0' + d.toUInt16 - unit '0').toNat := by decide
    intro n u hu
    obtain ⟨d, hd, rfl⟩ := exists_digit (hdigits u hu)
    rw [hunit d hd]
  rw [radixDigits, if_pos ⟨hne, hall⟩, List.foldl_ext _ _ 0 hstep, digitsValue]

theorem radixMark_digits : radixMark digits = none := by
  cases digits with
  | nil => rfl
  | cons u rest =>
      cases rest with
      | nil => rfl
      | cons v rest =>
          obtain ⟨d, hd, rfl⟩ := exists_digit (hdigits v (by simp))
          have hlower : ∀ d < 10, toLowerAscii (unit '0' + d.toUInt16) ≠ unit 'x' ∧
              toLowerAscii (unit '0' + d.toUInt16) ≠ unit 'o' ∧ toLowerAscii (unit '0' + d.toUInt16) ≠ unit 'b' := by
            decide
          obtain ⟨hx, ho, hb⟩ := hlower d hd
          simp only [radixMark, if_neg hx, if_neg ho, if_neg hb, ite_self]

theorem isSpace_digits : ∀ u ∈ digits, isSpace u = false := by
  intro u hu
  obtain ⟨d, hd, rfl⟩ := exists_digit (hdigits u hu)
  exact (digit_facts d hd).1

theorem signed_digits : signed digits = (false, digits) := by
  cases digits with
  | nil => rfl
  | cons u rest =>
      have hdigit := hdigits u List.mem_cons_self
      have hplus : u ≠ unit '+' := by
        rintro rfl
        exact absurd hdigit (by decide)
      have hminus : u ≠ unit '-' := by
        rintro rfl
        exact absurd hdigit (by decide)
      have hhead : ¬(u :: rest).head? = some (unit '+') := fun h => hplus (Option.some.inj h)
      rw [signed, if_neg hhead, readSign, if_neg hminus]

theorem toBigInt_digits (hne : digits ≠ []) : toBigInt digits = some (digitsValue digits : Int) := by
  simp only [toBigInt, trim_eq_self (isSpace_digits hdigits), hne, if_false, radixMark_digits hdigits, signed_digits hdigits,
    radixDigits_digits hdigits hne]
  rfl

theorem toBigInt_minus (hne : digits ≠ []) : toBigInt (unit '-' :: digits) = some (-(digitsValue digits : Int)) := by
  have htrim : trim (unit '-' :: digits) = unit '-' :: digits :=
    trim_eq_self (List.forall_mem_cons.mpr ⟨by decide, isSpace_digits hdigits⟩)
  have hmark : radixMark (unit '-' :: digits) = none := by
    cases digits <;> rfl
  have hsigned : signed (unit '-' :: digits) = (true, digits) := rfl
  simp only [toBigInt, htrim, hmark, hsigned, radixDigits_digits hdigits hne, reduceCtorEq, if_false]
  rfl

/-- Digits are read as a number that is rounded and not negative. -/
theorem toNumber_digits (hne : digits ≠ []) : toNumber digits = some (nearest false (digitsValue digits) 1) := by
  have htake : digits.takeWhile isDigit = digits := List.takeWhile_eq_self_iff.mpr hdigits
  have hdrop : digits.dropWhile isDigit = [] := List.dropWhile_eq_nil_iff.mpr hdigits
  have hinfinity : digits ≠ text "Infinity" := fun h => absurd (hdigits (unit 'I') (h ▸ by decide)) (by decide)
  have hread : readDecimal false digits = some (nearest false (digitsValue (digits ++ []) * 10 ^ 0) (10 ^ 0)) := by
    simp only [readDecimal, htake, hdrop, hne, false_and, if_false]
    rfl
  simp only [toNumber, trim_eq_self (isSpace_digits hdigits), hne, radixMark_digits hdigits, signed_digits hdigits, hinfinity,
    if_false, hread, List.append_nil, Nat.pow_zero, Nat.mul_one]

end Digits

theorem digits_ofNat (n : Nat) : ∀ u ∈ ofNat n, isDigit u = true := fun _ hu => isDigit_of_mem_ofNat hu

theorem isSpace_ofNat {n : Nat} : ∀ u ∈ ofNat n, isSpace u = false := isSpace_digits (digits_ofNat n)

theorem toNumber_ofNat {n : Nat} (hn : n < 2 ^ 53) : toNumber (ofNat n) = some (.ofInt n) := by
  rw [toNumber_digits (digits_ofNat n) (ofNat_ne_nil n), digitsValue_ofNat, nearest_one hn]

theorem toBigInt_intText (n : Int) : toBigInt (intText n) = some n := by
  rw [intText]
  by_cases hn : n < 0
  · rw [if_pos hn, toBigInt_minus (digits_ofNat _) (ofNat_ne_nil _), digitsValue_ofNat]
    exact congrArg some (by omega)
  · rw [if_neg hn, toBigInt_digits (digits_ofNat _) (ofNat_ne_nil _), digitsValue_ofNat]
    exact congrArg some (by omega)

end Json.Conversions
