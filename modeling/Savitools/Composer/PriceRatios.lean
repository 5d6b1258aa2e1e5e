import Savitools.Json.RoundingOrder
import Savitools.Strings.DecimalValues

namespace Savitools.Composer.PriceRatios

open Strings.CodeUnits Strings.Decimals Strings.DecimalValues
open Json.Numbers Json.Values Json.Conversions Json.Doubles Json.Roundings Json.Wholes Json.DecimalTexts

structure PriceRatio where
  n : Double
  d : Double
deriving DecidableEq

structure PriceBounds where
  minPrice : PriceRatio
  maxPrice : PriceRatio
deriving DecidableEq

/-- The two fields of an operation that are read here; either may be missing. -/
structure LiquidityPoolDepositDto where
  minPrice : Option (Value Number)
  maxPrice : Option (Value Number)

/-- A price is refused with a message, or `BigInt` throws since the number is not whole. -/
inductive PriceError
  | badRequest (message : Text)
  | notInteger (x : Double)
deriving DecidableEq

/-- The text of a price that is a string or a number. -/
def priceText : Option (Value Number) → Option Text
  | some (.str t) => some t
  | some (.num x) => some (numberText x)
  | _ => none

/-- `String(value?.n ?? '')` -/
def partText (name : Text) (value : Option (Value Number)) : Text :=
  match value.bind (member name) with
  | none | some .null => []
  | some v => stringOf v

/-- `Math.pow(10, n)` -/
def powTen (n : Nat) : Number := ofBigInt (10 ^ n : Nat)

def notPositiveIntegers (field : Text) : PriceError :=
  .badRequest (field ++ text " numerator and denominator must be positive integers")

def decimalRatio (field str : Text) : Except PriceError PriceRatio :=
  match decimalParts str with
  | none => .error (notPositiveIntegers field)
  | some (whole, []) => .ok { n := toNumber whole, d := ofInt 1 }
  | some (_, u :: fraction) =>
      let d := powTen (u :: fraction).length
      .ok { n := (mul (toNumber str) (some d)).map roundHalfUp, d := some d }

def integerRatio (field numerator denominator : Text) : Except PriceError PriceRatio :=
  if !isDigits numerator || !isDigits denominator then .error (notPositiveIntegers field)
  else
    let n := digitsValue numerator
    let d := digitsValue denominator
    if n = 0 ∨ d = 0 ∨ 2147483647 < n ∨ 2147483647 < d then
      .error (.badRequest (field ++ text " numerator and denominator must be positive 32-bit integers"))
    else .ok { n := some (ofBigInt n), d := some (ofBigInt d) }

def validatePriceRatio (field : Text) (value : Option (Value Number)) : Except PriceError PriceRatio :=
  match priceText value with
  | some str => decimalRatio field str
  | none => integerRatio field (partText (text "n") value) (partText (text "d") value)

/-- `BigInt(x)` -/
def bigInt (x : Double) : Except PriceError Int :=
  match x.bind Json.Wholes.toBigInt with
  | some n => .ok n
  | none => .error (.notInteger x)

def boundsMessage : Text := text "minPrice must be less than or equal to maxPrice"

def validateLiquidityPoolPriceBounds (dto : LiquidityPoolDepositDto) : Except PriceError PriceBounds := do
  let minPrice ← validatePriceRatio (text "minPrice") dto.minPrice
  let maxPrice ← validatePriceRatio (text "maxPrice") dto.maxPrice
  let minN ← bigInt minPrice.n
  let maxD ← bigInt maxPrice.d
  let maxN ← bigInt maxPrice.n
  let minD ← bigInt minPrice.d
  if minN * maxD > maxN * minD then .error (.badRequest boundsMessage)
  else .ok { minPrice := minPrice, maxPrice := maxPrice }

/-- The price that is meant, without any rounding. -/
def exactPrice (value : Option (Value Number)) : Option Rat :=
  match priceText value with
  | some str => unsignedValue str
  | none => some ((digitsValue (partText (text "n") value) : Rat) / digitsValue (partText (text "d") value))

/-- A ratio of positive 32-bit integers that is the price which is meant. -/
def Exact (value : Option (Value Number)) (price : PriceRatio) : Prop :=
  ∃ n d : Nat, 1 ≤ n ∧ n ≤ 2147483647 ∧ 1 ≤ d ∧ d ≤ 2147483647 ∧ price = { n := ofInt n, d := ofInt d } ∧
    exactPrice value = some ((n : Rat) / d)

structure ExactPrices (dto : LiquidityPoolDepositDto) : Prop where
  minPrice : ∀ price, validatePriceRatio (text "minPrice") dto.minPrice = .ok price → Exact dto.minPrice price
  maxPrice : ∀ price, validatePriceRatio (text "maxPrice") dto.maxPrice = .ok price → Exact dto.maxPrice price
  bounds : ∀ minPrice maxPrice least most, validatePriceRatio (text "minPrice") dto.minPrice = .ok minPrice →
    validatePriceRatio (text "maxPrice") dto.maxPrice = .ok maxPrice →
    exactPrice dto.minPrice = some least → exactPrice dto.maxPrice = some most →
    validateLiquidityPoolPriceBounds dto =
      if least ≤ most then .ok { minPrice := minPrice, maxPrice := maxPrice } else .error (.badRequest boundsMessage)

/-- A decimal has at most nine digits behind the point, and without the point it is a positive 32-bit integer. -/
def Fits (value : Option (Value Number)) : Prop :=
  ∀ str whole fraction, priceText value = some str → decimalParts str = some (whole, fraction) →
    fraction.length ≤ 9 ∧ 1 ≤ digitsValue (whole ++ fraction) ∧ digitsValue (whole ++ fraction) ≤ 2147483647

theorem powTen_of_le {n : Nat} (hn : n ≤ 9) : powTen n = .ofInt (10 ^ n : Nat) := by
  have hle : 10 ^ n ≤ 10 ^ 9 := Nat.pow_le_pow_right (by decide) hn
  exact exact_of_le (Int.natCast_nonneg _) (by omega)

/-- With more digits the power of ten is no 32-bit integer, also where it is rounded. -/
theorem le_nine_of_powTen {n d : Nat} (h : powTen n = .ofInt d) (hd : d ≤ 2147483647) : n ≤ 9 := by
  by_contra hn
  have hlarge : 10 ^ 10 ≤ 10 ^ n := Nat.pow_le_pow_right (by decide) (by omega)
  by_cases hexact : 10 ^ n ≤ 2 ^ 53
  · have hpow : Number.ofInt (10 ^ n : Nat) = Number.ofInt d := (exact_of_le (Int.natCast_nonneg _) (by omega)).symm.trans h
    have heq : ((10 ^ n : Nat) : Int) = d := congrArg Rat.num (Number.finite.inj hpow)
    omega
  · have hlow := le_of_ofBigInt (n := 10 ^ n) (by omega) h
    omega

section Decimals

variable {field str whole fraction : Text} (h : decimalParts str = some (whole, fraction))

include h

theorem toNumber_whole : toNumber whole = some (nearest false (digitsValue whole) 1) := by
  obtain ⟨hne, hwhole, -, -⟩ := decimalParts_spec h
  exact toNumber_digits hwhole hne

/-- A decimal that fits is turned into its digits over the power of ten. -/
theorem decimalRatio_of_fits (hfew : fraction.length ≤ 9) (hle : digitsValue (whole ++ fraction) ≤ 2147483647) :
    decimalRatio field str =
      .ok { n := ofInt (digitsValue (whole ++ fraction)), d := ofInt (10 ^ fraction.length : Nat) } := by
  cases fraction with
  | nil =>
      rw [List.append_nil] at hle ⊢
      have hread : toNumber whole = ofInt (digitsValue whole) := by
        rw [toNumber_whole h, nearest_one (by omega), ofInt]
      simp only [decimalRatio, h, hread]
      rfl
  | cons u fraction =>
      have hpow : 10 ^ (u :: fraction).length ≤ 10 ^ 9 := Nat.pow_le_pow_right (by decide) hfew
      have hscaled := roundHalfUp_scaled (n := digitsValue (whole ++ u :: fraction)) (by omega)
        (Nat.pow_pos (by decide) : 0 < 10 ^ (u :: fraction).length) (by omega)
      rw [decimalRatio, h]
      simp only [powTen_of_le hfew, toNumber_decimal h]
      rw [← ofInt, hscaled]

theorem denominator_eq {price : PriceRatio} (hprice : decimalRatio field str = .ok price) :
    price.d = some (powTen fraction.length) := by
  cases fraction with
  | nil =>
      simp only [decimalRatio, h] at hprice
      obtain rfl := Except.ok.inj hprice
      exact congrArg some (powTen_of_le (Nat.zero_le 9)).symm
  | cons u fraction =>
      simp only [decimalRatio, h] at hprice
      obtain rfl := Except.ok.inj hprice
      rfl

/-- Only a decimal that fits can be told by two 32-bit integers. -/
theorem fits_of_exact {n d : Nat} (hn : 1 ≤ n) (hnLe : n ≤ 2147483647) (hdLe : d ≤ 2147483647)
    (hprice : decimalRatio field str = .ok { n := ofInt n, d := ofInt d }) (hvalue : unsignedValue str = some ((n : Rat) / d)) :
    fraction.length ≤ 9 ∧ 1 ≤ digitsValue (whole ++ fraction) ∧ digitsValue (whole ++ fraction) ≤ 2147483647 := by
  have hd : powTen fraction.length = .ofInt d := (Option.some.inj (denominator_eq h hprice)).symm
  have hfew := le_nine_of_powTen hd hdLe
  have hpow : Number.ofInt (10 ^ fraction.length : Nat) = Number.ofInt d := (powTen_of_le hfew).symm.trans hd
  have hcast : ((10 ^ fraction.length : Nat) : Int) = d := congrArg Rat.num (Number.finite.inj hpow)
  have hdigits : digitsValue (whole ++ fraction) = n := by
    rw [unsignedValue, h, Option.map_some, pointValue] at hvalue
    have hquotient := Option.some.inj hvalue
    have hd' : (d : Rat) = 10 ^ fraction.length := by exact_mod_cast hcast.symm
    rw [hd', div_left_inj' (by positivity)] at hquotient
    exact_mod_cast hquotient
  omega

end Decimals

theorem integerRatio_eq_ok {field numerator denominator : Text} {price : PriceRatio}
    (h : integerRatio field numerator denominator = .ok price) :
    ∃ n d : Nat, digitsValue numerator = n ∧ digitsValue denominator = d ∧ 1 ≤ n ∧ n ≤ 2147483647 ∧ 1 ≤ d ∧
      d ≤ 2147483647 ∧ price = { n := ofInt n, d := ofInt d } := by
  simp only [integerRatio] at h
  split at h
  next => cases h
  split at h
  next => cases h
  next hrange =>
    obtain ⟨hn, hd, hnLe, hdLe⟩ : digitsValue numerator ≠ 0 ∧ digitsValue denominator ≠ 0 ∧
        ¬2147483647 < digitsValue numerator ∧ ¬2147483647 < digitsValue denominator := by
      simpa only [not_or] using hrange
    refine ⟨_, _, rfl, rfl, by omega, by omega, by omega, by omega, ?_⟩
    have hnExact : ofBigInt (digitsValue numerator) = .ofInt (digitsValue numerator) := exact_of_le (by omega) (by omega)
    have hdExact : ofBigInt (digitsValue denominator) = .ofInt (digitsValue denominator) := exact_of_le (by omega) (by omega)
    rw [hnExact, hdExact] at h
    exact (Except.ok.inj h).symm

theorem exact_of_fits {field : Text} {value : Option (Value Number)} {price : PriceRatio} (hfits : Fits value)
    (h : validatePriceRatio field value = .ok price) : Exact value price := by
  rw [validatePriceRatio] at h
  split at h
  next str hstr =>
    obtain ⟨⟨whole, fraction⟩, hparts⟩ : ∃ parts, decimalParts str = some parts := by
      cases hparts : decimalParts str with
      | none =>
          rw [decimalRatio, hparts] at h
          cases h
      | some parts => exact ⟨parts, rfl⟩
    obtain ⟨hfew, hpos, hle⟩ := hfits str whole fraction hstr hparts
    have hpow : 10 ^ fraction.length ≤ 10 ^ 9 := Nat.pow_le_pow_right (by decide) hfew
    have hone : 0 < 10 ^ fraction.length := Nat.pow_pos (by decide)
    rw [decimalRatio_of_fits hparts hfew hle] at h
    refine ⟨_, _, hpos, hle, hone, by omega, (Except.ok.inj h).symm, ?_⟩
    simp only [exactPrice, hstr, unsignedValue, hparts, Option.map_some, pointValue]
    push_cast
    rfl
  next hnone =>
    obtain ⟨n, d, hn, hd, hnPos, hnLe, hdPos, hdLe, hprice⟩ := integerRatio_eq_ok h
    refine ⟨n, d, hnPos, hnLe, hdPos, hdLe, hprice, ?_⟩
    simp only [exactPrice, hnone, hn, hd]

theorem fits_of_accepted_exact {field : Text} {value : Option (Value Number)}
    (h : ∀ price, validatePriceRatio field value = .ok price → Exact value price) : Fits value := by
  intro str whole fraction hstr hparts
  obtain ⟨price, hprice⟩ : ∃ price, decimalRatio field str = .ok price := by
    cases fraction with
    | nil => exact ⟨_, by rw [decimalRatio, hparts]⟩
    | cons u fraction => exact ⟨_, by rw [decimalRatio, hparts]⟩
  have haccepted : validatePriceRatio field value = .ok price := by
    rw [validatePriceRatio, hstr]
    exact hprice
  obtain ⟨n, d, hn, hnLe, -, hdLe, rfl, hvalue⟩ := h price haccepted
  rw [exactPrice, hstr] at hvalue
  exact fits_of_exact hparts hn hnLe hdLe hprice hvalue

theorem bigInt_ofInt (n : Int) : bigInt (ofInt n) = .ok n := rfl

/-- Two exact prices are compared by what they mean. -/
theorem bounds_of_exact {dto : LiquidityPoolDepositDto} {minPrice maxPrice : PriceRatio}
    (hmin : validatePriceRatio (text "minPrice") dto.minPrice = .ok minPrice)
    (hmax : validatePriceRatio (text "maxPrice") dto.maxPrice = .ok maxPrice) {least most : Rat}
    (hleast : exactPrice dto.minPrice = some least) (hmost : exactPrice dto.maxPrice = some most)
    (hminExact : Exact dto.minPrice minPrice) (hmaxExact : Exact dto.maxPrice maxPrice) :
    validateLiquidityPoolPriceBounds dto =
      if least ≤ most then .ok { minPrice := minPrice, maxPrice := maxPrice } else .error (.badRequest boundsMessage) := by
  obtain ⟨n, d, -, -, hd, -, rfl, hleastEq⟩ := hminExact
  obtain ⟨n', d', -, -, hd', -, rfl, hmostEq⟩ := hmaxExact
  obtain rfl : least = n / d := Option.some.inj (hleast.symm.trans hleastEq)
  obtain rfl : most = n' / d' := Option.some.inj (hmost.symm.trans hmostEq)
  have horder : (n : Rat) / d ≤ n' / d' ↔ ¬(n : Int) * d' > n' * d := by
    have hpos : (0 : Rat) < d := by exact_mod_cast hd
    have hpos' : (0 : Rat) < d' := by exact_mod_cast hd'
    rw [div_le_div_iff₀ hpos hpos', gt_iff_lt, not_lt]
    exact_mod_cast Iff.rfl
  rw [validateLiquidityPoolPriceBounds, hmin, hmax]
  simp only [bind, Except.bind, bigInt_ofInt]
  by_cases hle : (n : Rat) / d ≤ n' / d'
  · rw [if_pos hle, if_neg (horder.mp hle)]
  · rw [if_neg hle, if_pos (not_not.mp fun hnot => hle (horder.mpr hnot))]

/-- Accepted prices are exact, and are compared so, just where the decimals among them fit. -/
theorem exactPrices_iff (dto : LiquidityPoolDepositDto) : ExactPrices dto ↔ Fits dto.minPrice ∧ Fits dto.maxPrice := by
  constructor
  · intro h
    exact ⟨fits_of_accepted_exact h.minPrice, fits_of_accepted_exact h.maxPrice⟩
  · rintro ⟨hmin, hmax⟩
    exact
      { minPrice := fun _ h => exact_of_fits hmin h
        maxPrice := fun _ h => exact_of_fits hmax h
        bounds := fun _ _ _ _ hminPrice hmaxPrice hleast hmost =>
          bounds_of_exact hminPrice hmaxPrice hleast hmost (exact_of_fits hmin hminPrice) (exact_of_fits hmax hmaxPrice) }

theorem not_exactPrices_zero : ¬ExactPrices { minPrice := some (.str (text "0")), maxPrice := some (.str (text "1")) } := by
  intro h
  have hparts : decimalParts (text "0") = some (text "0", []) := by decide
  have hratio : decimalRatio (text "minPrice") (text "0") = .ok { n := ofInt 0, d := ofInt 1 } :=
    decimalRatio_of_fits hparts (by decide) (by decide)
  obtain ⟨n, d, hn, -, -, -, hprice, -⟩ := h.minPrice _ hratio
  have hzero : (0 : Int) = n := congrArg Rat.num (Number.finite.inj (Option.some.inj (PriceRatio.mk.inj hprice).1))
  omega

end Savitools.Composer.PriceRatios
