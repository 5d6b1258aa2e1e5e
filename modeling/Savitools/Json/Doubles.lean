import Savitools.Json.Conversions

namespace Json.Doubles

open Strings.CodeUnits Strings.Decimals Json.Numbers Json.Conversions

/-- A double; nothing stands for NaN. -/
abbrev Double := Option Number

def round (q : Rat) : Number := nearest (q < 0) q.num.natAbs q.den

def minus : Number → Number → Double
  | .finite a, .finite b => some (round (a - b))
  | .finite _, .infinite negative => some (.infinite !negative)
  | .infinite negative, .finite _ => some (.infinite negative)
  | .infinite negative, .infinite other => if negative = other then none else some (.infinite negative)

/-- `a - b` -/
def sub : Double → Double → Double
  | some a, some b => minus a b
  | _, _ => none

def exceeds : Number → Number → Bool
  | .finite a, .finite b => b < a
  | .infinite negative, .infinite other => !negative && other
  | .infinite negative, .finite _ => !negative
  | .finite _, .infinite negative => negative

/-- `a > b` -/
def gt : Double → Double → Bool
  | some a, some b => exceeds a b
  | _, _ => false

/-- `String(x)` -/
def doubleText : Double → Text
  | some x => numberText x
  | none => text "NaN"

def ofInt (n : Int) : Double := some (.ofInt n)

theorem nearest_negative {n : Nat} (hn : n < 2 ^ 53) : nearest true n 1 = .ofInt (-n) := by
  have hpositive : nearest false n 1 = .finite (Rat.ofInt n) := nearest_one hn
  simp only [nearest, Bool.false_eq_true, if_false] at hpositive
  split at hpositive
  next => cases hpositive
  next hsmall =>
    simp only [nearest, if_neg hsmall, if_true, Number.finite.inj hpositive]
    rfl

theorem round_ofInt {n : Int} (hn : n.natAbs < 2 ^ 53) : round (Rat.ofInt n) = .ofInt n := by
  have hnum : (Rat.ofInt n).num = n := rfl
  have hden : (Rat.ofInt n).den = 1 := rfl
  have hneg : decide (Rat.ofInt n < 0) = decide (n < 0) := decide_eq_decide.mpr (@Rat.intCast_lt_intCast n 0)
  rw [round, hnum, hden, hneg]
  by_cases h : n < 0
  · rw [decide_eq_true h, nearest_negative hn, Int.ofNat_natAbs_of_nonpos (Int.le_of_lt h), Int.neg_neg]
  · rw [decide_eq_false h, nearest_one hn, Int.natAbs_of_nonneg (Int.not_lt.mp h)]

theorem sub_ofInt {m n : Int} (h : (m - n).natAbs < 2 ^ 53) : sub (ofInt m) (ofInt n) = ofInt (m - n) := by
  have hsub : Rat.ofInt m - Rat.ofInt n = Rat.ofInt (m - n) := (Rat.intCast_sub m n).symm
  rw [ofInt, ofInt, sub, Number.ofInt, Number.ofInt, minus, hsub, round_ofInt h, ofInt]

theorem gt_ofInt {m n : Int} : gt (ofInt m) (ofInt n) = decide (n < m) :=
  decide_eq_decide.mpr Rat.intCast_lt_intCast

theorem isNumberUnit_zeros (n : Int) : ∀ u ∈ zeros n, isNumberUnit u = true := by
  intro u hu
  rw [List.eq_of_mem_replicate hu]
  decide

theorem isNumberUnit_ofNat (n : Nat) : ∀ u ∈ ofNat n, isNumberUnit u = true := by
  intro u hu
  simp [isNumberUnit, isDigit_of_mem_ofNat hu]

theorem isNumberUnit_exponentText (e : Int) : ∀ u ∈ exponentText e, isNumberUnit u = true := by
  refine List.forall_mem_cons.mpr ⟨by decide, List.forall_mem_cons.mpr ⟨?_, isNumberUnit_ofNat _⟩⟩
  split <;> decide

theorem isNumberUnit_pointText {digits : Text} (h : ∀ u ∈ digits, isNumberUnit u = true) (n : Int) :
    ∀ u ∈ pointText digits n, isNumberUnit u = true := by
  have hdot : isNumberUnit (unit '.') = true := by decide
  have htake (k : Nat) : ∀ u ∈ digits.take k, isNumberUnit u = true := fun u hu => h u (List.mem_of_mem_take hu)
  have hdrop (k : Nat) : ∀ u ∈ unit '.' :: digits.drop k, isNumberUnit u = true :=
    List.forall_mem_cons.mpr ⟨hdot, fun u hu => h u (List.mem_of_mem_drop hu)⟩
  simp only [pointText]
  split
  · exact List.forall_mem_append.mpr ⟨h, isNumberUnit_zeros _⟩
  split
  · exact List.forall_mem_append.mpr ⟨htake _, hdrop _⟩
  split
  · have hzero : (text "0.").all isNumberUnit = true := by decide
    exact List.forall_mem_append.mpr ⟨List.forall_mem_append.mpr ⟨List.all_eq_true.mp hzero, isNumberUnit_zeros _⟩, h⟩
  · refine List.forall_mem_append.mpr ⟨List.forall_mem_append.mpr ⟨htake _, ?_⟩, isNumberUnit_exponentText _⟩
    split
    · exact nofun
    · exact hdrop _

theorem isNumberUnit_positiveText (a d : Nat) : ∀ u ∈ positiveText a d, isNumberUnit u = true := by
  rw [positiveText]
  split
  · exact isNumberUnit_ofNat a
  · refine isNumberUnit_pointText (fun u hu => ?_) _
    have hdrop := (List.dropWhile_sublist _).mem (List.mem_reverse.mp hu)
    exact isNumberUnit_ofNat _ u (List.mem_reverse.mp hdrop)

/-- The text of a number has the units of numbers, or is one of the three words. -/
theorem doubleText_cases (x : Double) :
    (∀ u ∈ doubleText x, isNumberUnit u = true) ∨
      doubleText x ∈ [text "Infinity", text "-Infinity", text "NaN"] := by
  match x with
  | none => exact .inr (List.mem_cons_of_mem _ (List.mem_cons_of_mem _ List.mem_cons_self))
  | some (.infinite true) => exact .inr (List.mem_cons_of_mem _ List.mem_cons_self)
  | some (.infinite false) => exact .inr List.mem_cons_self
  | some (.finite q) =>
      left
      rw [doubleText, numberText]
      split
      · exact List.forall_mem_cons.mpr ⟨by decide, isNumberUnit_positiveText _ _⟩
      · exact isNumberUnit_positiveText _ _

theorem doubleText_ofNat {n : Nat} (hn : n < 2 ^ 53) : doubleText (ofInt n) = ofNat n := numberText_ofInt hn

end Json.Doubles

namespace Json.Wholes

open Json.Numbers Json.Doubles

/-- `Number(n)` of a BigInt -/
def ofBigInt (n : Int) : Number := nearest (n < 0) n.natAbs 1

/-- `BigInt(x)` of a number, where it does not throw. -/
def toBigInt : Number → Option Int
  | .finite q => if q.den = 1 then some q.num else none
  | .infinite _ => none

/-- A whole number that is a double. -/
def Exact (n : Int) : Prop := ofBigInt n = .ofInt n

instance decidableExact (n : Int) : Decidable (Exact n) := inferInstanceAs (Decidable (ofBigInt n = .ofInt n))

theorem lastPlace_whole {n : Nat} (hn : n ≠ 0) : lastPlace n 1 = max ((n.log2 : Int) - 52) (-1074) := by
  have hone : Nat.log2 1 = 0 := by decide
  have hfirst : 1 * 2 ^ ((n.log2 : Int) - (0 : Nat)).toNat ≤ n * 2 ^ (-((n.log2 : Int) - (0 : Nat))).toNat := by
    have hexponent : ((n.log2 : Int) - (0 : Nat)).toNat = n.log2 := by omega
    have hnone : (-((n.log2 : Int) - (0 : Nat))).toNat = 0 := by omega
    rw [hexponent, hnone, Nat.one_mul, Nat.pow_zero, Nat.mul_one]
    exact Nat.log2_self_le hn
  rw [lastPlace, hone]
  simp only [if_pos hfirst]
  omega

theorem scaled_of_nonneg (m e : Nat) : scaled m e = Rat.ofInt (m * 2 ^ e : Nat) := by
  have hnone : (-(e : Int)).toNat = 0 := by omega
  rw [scaled, hnone, Int.toNat_natCast, Nat.pow_zero]
  exact Rat.mkRat_self (Rat.ofInt (m * 2 ^ e : Nat))

theorem ofBigInt_natCast (n : Nat) : ofBigInt n = nearest false n 1 := by
  rw [ofBigInt, decide_eq_false (Int.natCast_nonneg n).not_gt, Int.natAbs_natCast]

/-- 53 significant digits are a double. -/
theorem exact_of_normal {m e : Nat} (hlow : 2 ^ 52 ≤ m) (hhigh : m < 2 ^ 53) (he : e ≤ 12) :
    Exact (m * 2 ^ e : Nat) := by
  have hpow : 0 < 2 ^ e := Nat.pow_pos (by decide)
  have hne : m * 2 ^ e ≠ 0 := Nat.mul_ne_zero (by omega) hpow.ne'
  have hlog : (m * 2 ^ e).log2 = 52 + e := by
    rw [Nat.log2_eq_iff hne, Nat.pow_add, show 52 + e + 1 = 53 + e by omega, Nat.pow_add]
    exact ⟨Nat.mul_le_mul_right _ hlow, Nat.mul_lt_mul_of_pos_right hhigh hpow⟩
  have hplace : lastPlace (m * 2 ^ e) 1 = e := by
    rw [lastPlace_whole hne, hlog]
    omega
  have hnone : (-(e : Int)).toNat = 0 := by omega
  have hrounded : nearestEven (m * 2 ^ e) (2 ^ e) = m := by
    rw [nearestEven, Nat.mul_mod_left, if_pos (Or.inl (by omega)), Nat.mul_div_cancel _ hpow]
  have hsmall : ¬2 ^ exponentLimit ≤ m * 2 ^ e := by
    have hbound : m * 2 ^ e < 2 ^ 53 * 2 ^ 12 :=
      Nat.mul_lt_mul_of_lt_of_le hhigh (Nat.pow_le_pow_right (by decide) he) (by decide)
    rw [← Nat.pow_add] at hbound
    exact Nat.not_le.mpr (hbound.trans (Nat.pow_lt_pow_right (by decide) (by decide)))
  rw [Exact, ofBigInt_natCast]
  simp only [nearest, hplace, hnone, Int.toNat_natCast, Nat.pow_zero, Nat.mul_one, Nat.one_mul, hrounded, if_neg hsmall,
    Bool.false_eq_true, if_false, scaled_of_nonneg]
  rfl

theorem exact_of_le {n : Int} (hn : 0 ≤ n) (hle : n ≤ 2 ^ 53) : Exact n := by
  obtain ⟨n, rfl⟩ := Int.eq_ofNat_of_zero_le hn
  by_cases hlt : n < 2 ^ 53
  · exact (ofBigInt_natCast n).trans (nearest_one hlt)
  · have hlast : n = 2 ^ 52 * 2 ^ 1 := by omega
    rw [hlast]
    exact exact_of_normal le_rfl (by decide) (by decide)

/-- Beyond 2^53 the doubles are even. -/
theorem even_of_ofBigInt {n m : Int} (hn : 0 ≤ n) (h : ofBigInt n = .ofInt m) : m ≤ 2 ^ 53 ∨ 2 ∣ m := by
  obtain ⟨n, rfl⟩ := Int.eq_ofNat_of_zero_le hn
  by_cases hlt : n < 2 ^ 53
  · have hexact : Number.ofInt n = Number.ofInt m := (ofBigInt_natCast n ▸ nearest_one hlt).symm.trans h
    have heq : (n : Int) = m := congrArg Rat.num (Number.finite.inj hexact)
    omega
  · have hlog : 53 ≤ n.log2 := (Nat.le_log2 (by omega)).mpr (Nat.not_lt.mp hlt)
    have hplace : lastPlace n 1 = ((n.log2 - 53 + 1 : Nat) : Int) := by
      rw [lastPlace_whole (by omega)]
      omega
    rw [ofBigInt_natCast] at h
    simp only [nearest, hplace, Bool.false_eq_true, if_false, scaled_of_nonneg] at h
    split at h
    next => cases h
    next =>
      generalize nearestEven _ _ = k at h
      have heq : ((k * 2 ^ (n.log2 - 53 + 1) : Nat) : Int) = m := congrArg Rat.num (Number.finite.inj h)
      rw [Nat.pow_succ, ← Nat.mul_assoc] at heq
      omega

/-- No number from 2^53 on is rounded to one below 2^52. -/
theorem le_of_ofBigInt {n : Nat} {m : Int} (hn : 2 ^ 53 ≤ n) (h : ofBigInt n = .ofInt m) : 2 ^ 52 ≤ m := by
  have hlog : 53 ≤ n.log2 := (Nat.le_log2 (by omega)).mpr hn
  obtain ⟨e, he⟩ : ∃ e : Nat, n.log2 = 52 + e := ⟨n.log2 - 52, by omega⟩
  have hplace : lastPlace n 1 = e := by
    rw [lastPlace_whole (by omega)]
    omega
  have hnone : (-(e : Int)).toNat = 0 := by omega
  have hdigits : 2 ^ 52 ≤ nearestEven n (2 ^ e) := by
    have hlow : 2 ^ 52 ≤ n / 2 ^ e := by
      rw [Nat.le_div_iff_mul_le (Nat.pow_pos (by decide)), ← Nat.pow_add, ← he]
      exact Nat.log2_self_le (by omega)
    rw [nearestEven]
    split <;> omega
  rw [ofBigInt_natCast] at h
  simp only [nearest, hplace, hnone, Int.toNat_natCast, Nat.pow_zero, Nat.mul_one, Nat.one_mul, Bool.false_eq_true, if_false,
    scaled_of_nonneg] at h
  split at h
  next => cases h
  next =>
    generalize nearestEven _ _ = k at h hdigits
    have heq : ((k * 2 ^ e : Nat) : Int) = m := congrArg Rat.num (Number.finite.inj h)
    have hone : k * 1 ≤ k * 2 ^ e := Nat.mul_le_mul_left k (Nat.one_le_pow _ _ (by decide))
    omega

end Json.Wholes
