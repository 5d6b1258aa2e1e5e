import Mathlib.Algebra.Order.Field.Rat
import Mathlib.Order.Compare
import Mathlib.Tactic.Positivity
import Savitools.Strings.Decimals

namespace Strings.DecimalValues

open Strings.CodeUnits Strings.Decimals

/-- The number that digits make around a point. -/
def pointValue (whole fraction : Text) : Rat := digitsValue (whole ++ fraction) / 10 ^ fraction.length

/-- The number of a decimal without a sign. -/
def unsignedValue (t : Text) : Option Rat := (decimalParts t).map fun parts => pointValue parts.1 parts.2

/-- The number of a decimal that may have a sign. -/
def signedValue : Text → Option Rat
  | [] => none
  | u :: rest =>
      if u = unit '-' then (unsignedValue rest).map fun q => -q
      else if u = unit '+' then unsignedValue rest
      else unsignedValue (u :: rest)

/-- Digits that are padded behind the point are those of a multiple of the number. -/
theorem digitsValue_scaled {whole fraction : Text} {scale : Nat} (h : fraction.length ≤ scale) :
    (digitsValue (whole ++ padEnd fraction scale) : Rat) = pointValue whole fraction * 10 ^ scale := by
  have hdigits : digitsValue (whole ++ padEnd fraction scale) =
      digitsValue (whole ++ fraction) * 10 ^ (scale - fraction.length) := by
    rw [digitsValue_concat, digitsValue_padEnd, digitsValue_concat, padEnd, List.length_append, List.length_replicate,
      Nat.add_sub_of_le h, Nat.add_mul, Nat.mul_assoc, ← Nat.pow_add, Nat.add_sub_of_le h]
  have hpow : (10 : Rat) ^ scale = 10 ^ fraction.length * 10 ^ (scale - fraction.length) := by
    rw [← pow_add, Nat.add_sub_of_le h]
  rw [hdigits, pointValue, hpow, ← mul_assoc, div_mul_cancel₀ _ (by positivity)]
  push_cast
  rfl

/-- Digits that are padded to one scale are in the order of their numbers. -/
theorem compare_scaled {whole fraction whole' fraction' : Text} {scale : Nat} (h : fraction.length ≤ scale)
    (h' : fraction'.length ≤ scale) :
    compare (digitsValue (whole ++ padEnd fraction scale)) (digitsValue (whole' ++ padEnd fraction' scale)) =
      compare (pointValue whole fraction) (pointValue whole' fraction') := by
  have hcast : StrictMono (fun n : Nat => (n : Rat)) := Nat.strictMono_cast
  have hscale : StrictMono (fun q : Rat => q * 10 ^ scale) := strictMono_mul_right_of_pos (by positivity)
  rw [← cmp_eq_compare, ← cmp_eq_compare, ← hcast.cmp_map_eq]
  rw [digitsValue_scaled h, digitsValue_scaled h']
  exact hscale.cmp_map_eq _ _

end Strings.DecimalValues
