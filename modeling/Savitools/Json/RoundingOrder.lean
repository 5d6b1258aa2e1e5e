import Savitools.Json.Roundings

namespace Json.RoundingOrder

open Json.Numbers Json.Roundings Json.Doubles

theorem nearestEven_le {a d n : Nat} (hd : 0 < d) (h : a ≤ n * d) : nearestEven a d ≤ n := by
  have herror := (nearestEven_error a hd).1
  rw [nearestEven] at herror ⊢
  have hdiv : a / d ≤ n := Nat.div_le_of_le_mul (Nat.mul_comm n d ▸ h)
  split
  next => exact hdiv
  next hup =>
    rcases hdiv.lt_or_eq with hlt | heq
    · exact hlt
    · have hmod := Nat.div_add_mod a d
      rw [heq, Nat.mul_comm] at hmod
      exact absurd (.inl (by omega)) hup

theorem le_nearestEven {a d n : Nat} (hd : 0 < d) (h : n * d ≤ a) : n ≤ nearestEven a d := by
  have hdiv : n ≤ a / d := (Nat.le_div_iff_mul_le hd).mpr h
  rw [nearestEven]
  split <;> omega

/-- A smaller quotient is not rounded to a greater number. -/
theorem nearestEven_mono {a d b c : Nat} (hd : 0 < d) (hc : 0 < c) (h : a * c ≤ b * d) : nearestEven a d ≤ nearestEven b c := by
  have hfloor : a / d ≤ b / c := by
    rw [Nat.le_div_iff_mul_le hc]
    refine Nat.le_of_mul_le_mul_right ?_ hd
    calc a / d * c * d = a / d * d * c := by ring
      _ ≤ a * c := Nat.mul_le_mul_right _ (Nat.div_mul_le_self a d)
      _ ≤ b * d := h
  rcases hfloor.lt_or_eq with hlt | heq
  · have hup : nearestEven a d ≤ a / d + 1 := by
      rw [nearestEven]
      split <;> omega
    have hdown : b / c ≤ nearestEven b c := by
      rw [nearestEven]
      split <;> omega
    omega
  · -- With the same whole part, the fraction is not smaller.
    have ha := Nat.div_add_mod a d
    have hb := Nat.div_add_mod b c
    have hfraction : a % d * c ≤ b % c * d := by
      rw [← ha, ← hb, heq] at h
      nlinarith
    rw [nearestEven, nearestEven, heq]
    split
    next => split <;> omega
    next hup =>
      rw [if_neg]
      rintro (hlow | ⟨hhalf, heven⟩)
      · refine hup (.inl ?_)
        nlinarith
      · refine hup ?_
        rcases lt_or_ge (2 * (a % d)) d with hlow | hhigh
        · exact .inl hlow
        · refine .inr ⟨?_, heven⟩
          nlinarith

/-- The exponent of the first digit. -/
def firstPlace (a d : Nat) : Int :=
  let l : Int := a.log2 - d.log2
  if d * 2 ^ l.toNat ≤ a * 2 ^ (-l).toNat then l else l - 1

theorem lastPlace_eq (a d : Nat) : lastPlace a d = max (firstPlace a d - 52) (-1074) := rfl

theorem log2_bounds {n : Nat} (hn : 0 < n) : (2 : Rat) ^ (n.log2 : Int) ≤ n ∧ (n : Rat) < 2 ^ ((n.log2 : Int) + 1) := by
  have hlow : 2 ^ n.log2 ≤ n := Nat.log2_self_le hn.ne'
  have hhigh : n < 2 ^ (n.log2 + 1) := Nat.lt_log2_self
  constructor
  · rw [zpow_natCast]
    exact_mod_cast hlow
  · rw [← Nat.cast_add_one, zpow_natCast]
    exact_mod_cast hhigh

/-- A quotient lies between the powers of two at its first digit. -/
theorem firstPlace_spec {a d : Nat} (ha : 0 < a) (hd : 0 < d) :
    (2 : Rat) ^ firstPlace a d ≤ a / d ∧ (a : Rat) / d < 2 ^ (firstPlace a d + 1) := by
  have hdpos : (0 : Rat) < d := by exact_mod_cast hd
  obtain ⟨haLow, haHigh⟩ := log2_bounds ha
  obtain ⟨hdLow, hdHigh⟩ := log2_bounds hd
  have hcond : d * 2 ^ ((a.log2 : Int) - d.log2).toNat ≤ a * 2 ^ (-((a.log2 : Int) - d.log2)).toNat ↔
      (2 : Rat) ^ ((a.log2 : Int) - d.log2) ≤ a / d := by
    rw [le_div_iff₀ hdpos]
    have hsplit : (2 : Rat) ^ ((a.log2 : Int) - d.log2).toNat =
        2 ^ ((a.log2 : Int) - d.log2) * 2 ^ (-((a.log2 : Int) - d.log2)).toNat := by
      rw [← zpow_natCast, ← zpow_natCast, ← zpow_add₀ (by norm_num)]
      congr 1
      omega
    have hpow : (0 : Rat) < 2 ^ (-((a.log2 : Int) - d.log2)).toNat := by positivity
    rw [← Nat.cast_le (α := Rat)]
    push_cast
    rw [hsplit, ← mul_assoc, mul_comm (d : Rat), mul_le_mul_iff_left₀ hpow]
  rw [firstPlace]
  split
  next h =>
    refine ⟨hcond.mp h, ?_⟩
    rw [div_lt_iff₀ hdpos]
    calc (a : Rat) < 2 ^ ((a.log2 : Int) + 1) := haHigh
      _ = 2 ^ ((a.log2 : Int) - d.log2 + 1) * 2 ^ (d.log2 : Int) := by
          rw [← zpow_add₀ (by norm_num)]
          congr 1
          omega
      _ ≤ 2 ^ ((a.log2 : Int) - d.log2 + 1) * d := mul_le_mul_of_nonneg_left hdLow (zpow_pos (by norm_num) _).le
  next h =>
    refine ⟨?_, ?_⟩
    · rw [le_div_iff₀ hdpos]
      calc (2 : Rat) ^ ((a.log2 : Int) - d.log2 - 1) * d
          ≤ 2 ^ ((a.log2 : Int) - d.log2 - 1) * 2 ^ ((d.log2 : Int) + 1) := mul_le_mul_of_nonneg_left hdHigh.le (zpow_pos (by norm_num) _).le
        _ = 2 ^ (a.log2 : Int) := by
            rw [← zpow_add₀ (by norm_num)]
            congr 1
            omega
        _ ≤ a := haLow
    · rw [sub_add_cancel]
      exact not_le.mp fun hle => h (hcond.mpr hle)

theorem firstPlace_mono {a d b c : Nat} (ha : 0 < a) (hb : 0 < b) (hd : 0 < d) (hc : 0 < c) (h : a * c ≤ b * d) :
    firstPlace a d ≤ firstPlace b c := by
  have hcpos : (0 : Rat) < c := by exact_mod_cast hc
  have hdpos : (0 : Rat) < d := by exact_mod_cast hd
  have hle : (a : Rat) / d ≤ b / c := by
    rw [div_le_div_iff₀ hdpos hcpos]
    exact_mod_cast h
  have hlt := ((firstPlace_spec ha hd).1.trans hle).trans_lt (firstPlace_spec hb hc).2
  exact Int.lt_add_one_iff.mp ((zpow_lt_zpow_iff_right₀ (by norm_num)).mp hlt)

theorem zpow_eq_div (e : Int) : (2 : Rat) ^ e = 2 ^ e.toNat / 2 ^ (-e).toNat := by
  rw [← zpow_natCast, ← zpow_natCast, ← zpow_sub₀ (by norm_num)]
  congr 1
  omega

theorem scaled_eq (m : Nat) (e : Int) : scaled m e = m * 2 ^ e := by
  rw [scaled, Rat.mkRat_eq_div, zpow_eq_div]
  push_cast
  rw [mul_div_assoc]

/-- A whole number of last places against a quotient. -/
theorem places_le_iff {b c N : Nat} {e : Int} (hc : 0 < c) :
    N * (c * 2 ^ e.toNat) ≤ b * 2 ^ (-e).toNat ↔ (N : Rat) * 2 ^ e ≤ b / c := by
  have hcpos : (0 : Rat) < c := by exact_mod_cast hc
  have hpow : (0 : Rat) < 2 ^ (-e).toNat := by positivity
  rw [zpow_eq_div, ← mul_div_assoc, div_le_div_iff₀ hpow hcpos, ← Nat.cast_le (α := Rat)]
  push_cast
  rw [mul_assoc, mul_comm (c : Rat)]

theorem le_places_iff {a d N : Nat} {e : Int} (hd : 0 < d) :
    a * 2 ^ (-e).toNat ≤ N * (d * 2 ^ e.toNat) ↔ (a : Rat) / d ≤ N * 2 ^ e := by
  have hdpos : (0 : Rat) < d := by exact_mod_cast hd
  have hpow : (0 : Rat) < 2 ^ (-e).toNat := by positivity
  rw [zpow_eq_div, ← mul_div_assoc, div_le_div_iff₀ hdpos hpow, ← Nat.cast_le (α := Rat)]
  push_cast
  rw [mul_assoc, mul_comm (d : Rat)]

/-- The double nearest to a quotient, before the range of the doubles is looked at. -/
def rounded (a d : Nat) : Rat :=
  scaled (nearestEven (a * 2 ^ (-lastPlace a d).toNat) (d * 2 ^ (lastPlace a d).toNat)) (lastPlace a d)

theorem nearest_eq_rounded (a d : Nat) :
    nearest false a d = if 2 ^ exponentLimit ≤ rounded a d then .infinite false else .finite (rounded a d) := by
  have hiff (m : Nat) (e : Int) : 2 ^ exponentLimit * 2 ^ (-e).toNat ≤ m * 2 ^ e.toNat ↔
      (2 : Rat) ^ exponentLimit ≤ scaled m e := by
    have hpow : (0 : Rat) < 2 ^ (-e).toNat := by positivity
    rw [scaled_eq, zpow_eq_div, ← mul_div_assoc, le_div_iff₀ hpow, ← Nat.cast_le (α := Rat)]
    push_cast
    rfl
  simp only [nearest, rounded, Bool.false_eq_true, if_false]
  exact if_congr (hiff _ _) rfl rfl

theorem eq_rounded {a d : Nat} {q : Rat} (h : nearest false a d = .finite q) : q = rounded a d := by
  rw [nearest_eq_rounded] at h
  split at h
  next => cases h
  next => exact (Number.finite.inj h).symm

theorem rounded_mono {a d b c : Nat} (hd : 0 < d) (hc : 0 < c) (h : a * c ≤ b * d) : rounded a d ≤ rounded b c := by
  have hpos (n : Nat) (e : Int) : 0 < n → 0 < n * 2 ^ e.toNat := fun hn => Nat.mul_pos hn (by positivity)
  have hpow (e : Int) : (0 : Rat) < 2 ^ e := zpow_pos (by norm_num) e
  rcases Nat.eq_zero_or_pos a with rfl | ha
  · have hzero : nearestEven (0 * 2 ^ (-lastPlace 0 d).toNat) (d * 2 ^ (lastPlace 0 d).toNat) = 0 :=
      Nat.le_zero.mp (nearestEven_le (hpos d _ hd) (by simp))
    rw [rounded, hzero, scaled_eq, rounded, scaled_eq, Nat.cast_zero, zero_mul]
    exact mul_nonneg (Nat.cast_nonneg _) (hpow _).le
  have hb : 0 < b := Nat.pos_of_ne_zero (by
    rintro rfl
    rw [Nat.zero_mul, Nat.le_zero, Nat.mul_eq_zero] at h
    omega)
  have hfirst := firstPlace_mono ha hb hd hc h
  have hplaces : lastPlace a d ≤ lastPlace b c := by
    rw [lastPlace_eq, lastPlace_eq]
    omega
  rw [rounded, rounded, scaled_eq, scaled_eq]
  rcases hplaces.lt_or_eq with hfewer | heq
  · -- the power of two at the first digit of the greater number is between the two
    obtain ⟨n, hn⟩ : ∃ n : Nat, lastPlace b c - lastPlace a d = n := ⟨(lastPlace b c - lastPlace a d).toNat, by omega⟩
    have hplaceB : lastPlace b c = firstPlace b c - 52 := by
      rw [lastPlace_eq a d, lastPlace_eq b c] at hfewer
      rw [lastPlace_eq b c]
      omega
    have hplaceA : firstPlace a d + 1 ≤ firstPlace b c := by
      rw [lastPlace_eq a d] at hfewer
      omega
    have hlow : ((2 ^ 52 : Nat) : Rat) * 2 ^ lastPlace b c = 2 ^ firstPlace b c := by
      rw [Nat.cast_pow, Nat.cast_ofNat, ← zpow_natCast, ← zpow_add₀ (by norm_num), hplaceB]
      congr 1
      omega
    have hhigh : ((2 ^ (52 + n) : Nat) : Rat) * 2 ^ lastPlace a d = 2 ^ firstPlace b c := by
      rw [Nat.cast_pow, Nat.cast_ofNat, ← zpow_natCast, ← zpow_add₀ (by norm_num)]
      congr 1
      omega
    have hA : nearestEven (a * 2 ^ (-lastPlace a d).toNat) (d * 2 ^ (lastPlace a d).toNat) ≤ 2 ^ (52 + n) := by
      refine nearestEven_le (hpos d _ hd) ((le_places_iff hd).mpr ?_)
      rw [hhigh]
      exact (firstPlace_spec ha hd).2.le.trans (zpow_le_zpow_right₀ (by norm_num) hplaceA)
    have hB : 2 ^ 52 ≤ nearestEven (b * 2 ^ (-lastPlace b c).toNat) (c * 2 ^ (lastPlace b c).toNat) := by
      refine le_nearestEven (hpos c _ hc) ((places_le_iff hc).mpr ?_)
      rw [hlow]
      exact (firstPlace_spec hb hc).1
    calc _ ≤ ((2 ^ (52 + n) : Nat) : Rat) * 2 ^ lastPlace a d :=
          mul_le_mul_of_nonneg_right (Nat.cast_le.mpr hA) (hpow _).le
      _ = ((2 ^ 52 : Nat) : Rat) * 2 ^ lastPlace b c := hhigh.trans hlow.symm
      _ ≤ _ := mul_le_mul_of_nonneg_right (Nat.cast_le.mpr hB) (hpow _).le
  · rw [heq]
    refine mul_le_mul_of_nonneg_right (Nat.cast_le.mpr ?_) (hpow _).le
    refine nearestEven_mono (hpos d _ hd) (hpos c _ hc) ?_
    calc a * 2 ^ (-lastPlace b c).toNat * (c * 2 ^ (lastPlace b c).toNat)
        = a * c * (2 ^ (-lastPlace b c).toNat * 2 ^ (lastPlace b c).toNat) := by ring
      _ ≤ b * d * (2 ^ (-lastPlace b c).toNat * 2 ^ (lastPlace b c).toNat) := Nat.mul_le_mul_right _ h
      _ = b * 2 ^ (-lastPlace b c).toNat * (d * 2 ^ (lastPlace b c).toNat) := by ring

theorem nearest_mono {a d b c k : Nat} (hd : 0 < d) (hc : 0 < c) (h : a * c ≤ b * d) (hbound : b < 2 ^ k * c) (hk : k ≤ 53) :
    ∃ p q : Rat, nearest false a d = .finite p ∧ nearest false b c = .finite q ∧ p ≤ q := by
  have haBound : a < 2 ^ k * d := by
    refine Nat.lt_of_mul_lt_mul_right (a := c) ?_
    calc a * c ≤ b * d := h
      _ < 2 ^ k * c * d := Nat.mul_lt_mul_of_pos_right hbound hd
      _ = 2 ^ k * d * c := by ring
  obtain ⟨p, hp, -, -⟩ := nearest_error haBound hk
  obtain ⟨q, hq, -, -⟩ := nearest_error hbound hk
  refine ⟨p, q, hp, hq, ?_⟩
  rw [eq_rounded hp, eq_rounded hq]
  exact rounded_mono hd hc h

theorem exceeds_trans {a b c : Number} (hab : exceeds a b = false) (hbc : exceeds b c = false) : exceeds a c = false := by
  cases a with
  | finite p =>
      cases c with
      | finite r =>
          cases b with
          | finite q =>
              simp only [exceeds, decide_eq_false_iff_not, not_lt] at hab hbc ⊢
              exact hab.trans hbc
          | infinite negative => cases negative <;> simp_all [exceeds]
      | infinite negative => cases b <;> simp_all [exceeds]
  | infinite negative => cases b <;> cases c <;> simp_all [exceeds]

theorem exceeds_total (a b : Number) : exceeds a b = false ∨ exceeds b a = false := by
  cases a with
  | finite p =>
      cases b with
      | finite q =>
          simp only [exceeds, decide_eq_false_iff_not, not_lt]
          exact le_total p q
      | infinite negative => cases negative <;> simp [exceeds]
  | infinite negative => cases b <;> cases negative <;> simp [exceeds]

theorem exceeds_self (a : Number) : exceeds a a = false := (exceeds_total a a).elim id id

theorem exceeds_nearest {a d b c : Nat} (hd : 0 < d) (hc : 0 < c) (h : a * c ≤ b * d) :
    exceeds (nearest false a d) (nearest false b c) = false := by
  have hmono := rounded_mono hd hc h
  rw [nearest_eq_rounded, nearest_eq_rounded]
  by_cases hb : 2 ^ exponentLimit ≤ rounded b c
  · rw [if_pos hb]
    split <;> rfl
  · rw [if_neg hb, if_neg fun ha => hb (ha.trans hmono)]
    exact decide_eq_false (not_lt.mpr hmono)

/-- A smaller number is not rounded to a greater one. -/
theorem exceeds_round {p q : Rat} (hp : 0 ≤ p) (h : p ≤ q) : exceeds (Json.Doubles.round p) (Json.Doubles.round q) = false := by
  have hq := hp.trans h
  rw [Json.Doubles.round, Json.Doubles.round, decide_eq_false (not_lt.mpr hp), decide_eq_false (not_lt.mpr hq)]
  refine exceeds_nearest p.den_pos q.den_pos ?_
  have hle := (Rat.le_iff p q).mp h
  have hpn := Rat.num_nonneg.mpr hp
  have hqn := Rat.num_nonneg.mpr hq
  rw [← Int.ofNat_le]
  push_cast
  rwa [abs_of_nonneg hpn, abs_of_nonneg hqn]

end Json.RoundingOrder

namespace Json.DecimalTexts

open Strings.CodeUnits Strings.Decimals Json.Numbers Json.Conversions Json.RoundingOrder

/-- The exact value of a number of the JSON grammar. -/
def exactValue (t : Text) : Option Rat :=
  let (negative, unsigned) := readSign t
  let whole := unsigned.takeWhile isDigit
  if wholeOk whole then
    (readFraction (unsigned.dropWhile isDigit)).bind fun (fraction, rest) =>
      (readExponent rest).map fun exponent =>
        (if negative then -1 else 1) * (digitsValue (whole ++ fraction) : Rat) * 10 ^ (exponent - (fraction.length : Int))
  else none

theorem nearestDecimal_fraction (digits n : Nat) :
    nearestDecimal false digits (0 - n) = nearest false digits (10 ^ n) := by
  have hnone : (0 - (n : Int)).toNat = 0 := by omega
  have hcount : (-(0 - (n : Int))).toNat = n := by omega
  rw [nearestDecimal, hnone, hcount, Nat.pow_zero, Nat.mul_one]

section Parts

variable {t whole fraction : Text} (h : decimalParts t = some (whole, fraction))

include h

/-- The digits of a decimal text, in front of the point and behind it. -/
theorem decimalParts_spec : whole ≠ [] ∧ (∀ u ∈ whole, isDigit u = true) ∧ (∀ u ∈ fraction, isDigit u = true) ∧
    (t = whole ∧ fraction = [] ∨ t = whole ++ unit '.' :: fraction) := by
  have hwhole : ∀ u ∈ t.takeWhile isDigit, isDigit u = true := fun u hu => List.mem_takeWhile_imp hu
  have happend : t.takeWhile isDigit ++ t.dropWhile isDigit = t := List.takeWhile_append_dropWhile
  simp only [decimalParts] at h
  split at h
  next => cases h
  next hne =>
    split at h
    next hrest =>
      cases h
      rw [hrest, List.append_nil] at happend
      exact ⟨hne, hwhole, nofun, .inl ⟨happend.symm, rfl⟩⟩
    next u rest hrest =>
      split at h
      next hpoint =>
        cases h
        obtain ⟨rfl, -, hdigits⟩ := hpoint
        rw [hrest] at happend
        exact ⟨hne, hwhole, List.all_eq_true.mp hdigits, .inr happend.symm⟩
      next => cases h

theorem mem_decimal {u : UInt16} (hu : u ∈ t) : isDigit u = true ∨ u = unit '.' := by
  obtain ⟨-, hwhole, hfraction, ⟨rfl, -⟩ | rfl⟩ := decimalParts_spec h
  · exact .inl (hwhole u hu)
  · rcases List.mem_append.mp hu with hu | hu
    · exact .inl (hwhole u hu)
    · rcases List.mem_cons.mp hu with rfl | hu
      · exact .inr rfl
      · exact .inl (hfraction u hu)

theorem trim_decimal : trim t = t := by
  refine trim_eq_self fun u hu => ?_
  rcases mem_decimal h hu with hdigit | rfl
  · have hdigits : ∀ v ∈ [u], isDigit v = true := by simpa using hdigit
    exact isSpace_digits hdigits u List.mem_cons_self
  · decide

theorem radixMark_decimal : radixMark t = none := by
  have hlower : ∀ d < 10, toLowerAscii (unit '0' + d.toUInt16) ≠ unit 'x' ∧
      toLowerAscii (unit '0' + d.toUInt16) ≠ unit 'o' ∧ toLowerAscii (unit '0' + d.toUInt16) ≠ unit 'b' := by
    decide
  match t with
  | [] => rfl
  | [_] => rfl
  | u :: v :: rest =>
      have hmark : toLowerAscii v ≠ unit 'x' ∧ toLowerAscii v ≠ unit 'o' ∧ toLowerAscii v ≠ unit 'b' := by
        rcases mem_decimal h (u := v) (by simp) with hdigit | rfl
        · obtain ⟨d, hd, rfl⟩ := exists_digit hdigit
          exact hlower d hd
        · decide
      simp only [radixMark, if_neg hmark.1, if_neg hmark.2.1, if_neg hmark.2.2, ite_self]

theorem signed_decimal : signed t = (false, t) := by
  match t with
  | [] => rfl
  | u :: rest =>
      have hunsigned : u ≠ unit '+' ∧ u ≠ unit '-' := by
        rcases mem_decimal h (List.mem_cons_self (a := u)) with hdigit | rfl
        · constructor <;> rintro rfl <;> exact absurd hdigit (by decide)
        · decide
      have hhead : ¬(u :: rest).head? = some (unit '+') := fun hplus => hunsigned.1 (Option.some.inj hplus)
      rw [signed, if_neg hhead, readSign, if_neg hunsigned.2]

theorem readDecimal_decimal :
    readDecimal false t = some (nearest false (digitsValue (whole ++ fraction)) (10 ^ fraction.length)) := by
  have hdot : ¬isDigit (unit '.') = true := by decide
  obtain ⟨hne, hwhole, hfraction, ⟨rfl, rfl⟩ | rfl⟩ := decimalParts_spec h
  · have htake : t.takeWhile isDigit = t := List.takeWhile_eq_self_iff.mpr hwhole
    have hdrop : t.dropWhile isDigit = [] := List.dropWhile_eq_nil_iff.mpr hwhole
    simp only [readDecimal, htake, hdrop, List.head?_nil, reduceCtorEq, if_false, hne, false_and, readExponent,
      Option.map_some, nearestDecimal_fraction]
  · have htake : (whole ++ unit '.' :: fraction).takeWhile isDigit = whole := by
      rw [List.takeWhile_append_of_pos hwhole, List.takeWhile_cons_of_neg hdot, List.append_nil]
    have hdrop : (whole ++ unit '.' :: fraction).dropWhile isDigit = unit '.' :: fraction := by
      rw [List.dropWhile_append_of_pos hwhole, List.dropWhile_cons_of_neg hdot]
    have htakeFraction : fraction.takeWhile isDigit = fraction := List.takeWhile_eq_self_iff.mpr hfraction
    have hdropFraction : fraction.dropWhile isDigit = [] := List.dropWhile_eq_nil_iff.mpr hfraction
    simp only [readDecimal, htake, hdrop, List.head?_cons, if_true, List.drop_one, List.tail_cons, htakeFraction,
      hdropFraction, hne, false_and, if_false, readExponent, Option.map_some, nearestDecimal_fraction]

/-- A decimal text is read as the double nearest to its value. -/
theorem toNumber_decimal :
    toNumber t = some (nearest false (digitsValue (whole ++ fraction)) (10 ^ fraction.length)) := by
  have hne : t ≠ [] := by
    obtain ⟨hne, -, -, ⟨rfl, -⟩ | rfl⟩ := decimalParts_spec h
    · exact hne
    · simp
  have hinfinity : t ≠ text "Infinity" := by
    rintro rfl
    exact absurd (mem_decimal h (u := unit 'I') (by decide)) (by decide)
  simp only [toNumber, trim_decimal h, hne, if_false, radixMark_decimal h, signed_decimal h, hinfinity, readDecimal_decimal h]

/-- A decimal text is read as that double also in front of a blank and what follows it. -/
theorem parseFloat_decimal (rest : Text) : parseFloat (t ++ unit ' ' :: rest) =
    some (nearest false (digitsValue (whole ++ fraction)) (10 ^ fraction.length)) := by
  have hblank : ¬isDigit (unit ' ') = true := by decide
  have hdot : ¬isDigit (unit '.') = true := by decide
  have hexponent : leadingExponent (unit ' ' :: rest) = 0 := rfl
  obtain ⟨hne, hwhole, hfraction, hshape⟩ := decimalParts_spec h
  obtain ⟨u, digits, rfl⟩ := List.exists_cons_of_ne_nil hne
  obtain ⟨after, hafter⟩ : ∃ after, t ++ unit ' ' :: rest = u :: after := by
    rcases hshape with ⟨rfl, -⟩ | rfl <;> exact ⟨_, rfl⟩
  have hu := hwhole u List.mem_cons_self
  have hhead : u ≠ unit '+' ∧ u ≠ unit '-' ∧ u ≠ unit 'I' := by
    refine ⟨?_, ?_, ?_⟩ <;> rintro rfl <;> exact absurd hu (by decide)
  have htrim : trimStart (t ++ unit ' ' :: rest) = t ++ unit ' ' :: rest := by
    have hspace : isSpace u = false := isSpace_digits (List.forall_mem_singleton.mpr hu) u (List.mem_singleton_self u)
    rw [hafter, trimStart, List.dropWhile_cons_of_neg (by rw [hspace]; exact Bool.false_ne_true)]
  have hsigned : signed (t ++ unit ' ' :: rest) = (false, t ++ unit ' ' :: rest) := by
    have hplus : ¬(u :: after).head? = some (unit '+') := fun heq => hhead.1 (Option.some.inj heq)
    rw [hafter, signed, if_neg hplus, readSign, if_neg hhead.2.1]
  have hinfinity : (text "Infinity").isPrefixOf (t ++ unit ' ' :: rest) = false := by
    rw [hafter, Bool.eq_false_iff, ne_eq, List.isPrefixOf_iff_prefix]
    rintro ⟨more, hmore⟩
    exact hhead.2.2 (List.cons.inj hmore).1.symm
  simp only [parseFloat, htrim, hsigned, hinfinity, Bool.false_eq_true, if_false]
  rcases hshape with ⟨rfl, rfl⟩ | rfl
  · have htake : (u :: digits ++ unit ' ' :: rest).takeWhile isDigit = u :: digits := by
      rw [List.takeWhile_append_of_pos hwhole, List.takeWhile_cons_of_neg hblank, List.append_nil]
    have hdrop : (u :: digits ++ unit ' ' :: rest).dropWhile isDigit = unit ' ' :: rest := by
      rw [List.dropWhile_append_of_pos hwhole, List.dropWhile_cons_of_neg hblank]
    have hpoint : ¬(unit ' ' :: rest).head? = some (unit '.') := fun heq => absurd (Option.some.inj heq) (by decide)
    simp only [htake, hdrop, if_neg hpoint, hexponent, hne, false_and, if_false, nearestDecimal_fraction]
  · have happend : u :: digits ++ unit '.' :: fraction ++ unit ' ' :: rest =
        u :: digits ++ unit '.' :: (fraction ++ unit ' ' :: rest) := List.append_assoc ..
    have htake : (u :: digits ++ unit '.' :: (fraction ++ unit ' ' :: rest)).takeWhile isDigit = u :: digits := by
      rw [List.takeWhile_append_of_pos hwhole, List.takeWhile_cons_of_neg hdot, List.append_nil]
    have hdrop : (u :: digits ++ unit '.' :: (fraction ++ unit ' ' :: rest)).dropWhile isDigit =
        unit '.' :: (fraction ++ unit ' ' :: rest) := by
      rw [List.dropWhile_append_of_pos hwhole, List.dropWhile_cons_of_neg hdot]
    have htakeFraction : (fraction ++ unit ' ' :: rest).takeWhile isDigit = fraction := by
      rw [List.takeWhile_append_of_pos hfraction, List.takeWhile_cons_of_neg hblank, List.append_nil]
    have hdropFraction : (fraction ++ unit ' ' :: rest).dropWhile isDigit = unit ' ' :: rest := by
      rw [List.dropWhile_append_of_pos hfraction, List.dropWhile_cons_of_neg hblank]
    simp only [happend, htake, hdrop, List.head?_cons, if_true, List.drop_one, List.tail_cons, htakeFraction, hdropFraction,
      hexponent, hne, false_and, if_false, nearestDecimal_fraction]

end Parts

theorem parseInt_ofNat {n : Nat} (hn : n < 2 ^ 53) : parseInt (ofNat n) = some (.ofInt n) := by
  have htrim : trimStart (ofNat n) = ofNat n := by
    obtain ⟨u, digits, hcons⟩ := List.exists_cons_of_ne_nil (ofNat_ne_nil n)
    have hspace : isSpace u = false := isSpace_ofNat u (hcons ▸ List.mem_cons_self)
    rw [hcons, trimStart, List.dropWhile_cons_of_neg (by rw [hspace]; exact Bool.false_ne_true)]
  have htake : (ofNat n).takeWhile isDigit = ofNat n := List.takeWhile_eq_self_iff.mpr (digits_ofNat n)
  simp only [parseInt, htrim, signed_digits (digits_ofNat n), htake, ofNat_ne_nil, if_false, digitsValue_ofNat, nearest_one hn]

end Json.DecimalTexts
