import Savitools.Json.Conversions
import Savitools.Json.Doubles
import Savitools.Strings.Trimming

namespace Json.WholeTexts

open Strings.CodeUnits Strings.Decimals Strings.Trimming Json.Numbers Json.Conversions

/-- `parseInt(t)`: digits, or digits of base 16 after `0x`. -/
def parseIntAny (t : Text) : Option Number :=
  let (negative, rest) := signed (trimStart t)
  if radixMark rest = some 16 then
    let digits := (rest.drop 2).takeWhile isHexDigit
    if digits = [] then none else some (nearest negative (hexValue digits) 1)
  else parseInt t

theorem mem_of_toLowerAscii {u : UInt16} {units : Text} (h : toLowerAscii u ∈ units) :
    u ∈ units ++ units.map (· - 32) := by
  rw [toLowerAscii] at h
  split at h
  next => exact List.mem_append_right _ (List.mem_map.mpr ⟨_, h, UInt16.add_sub_cancel u 32⟩)
  next => exact List.mem_append_left _ h

theorem not_space_of_isHexDigit {u : UInt16} (hu : isHexDigit u = true) : isSpace u = false := by
  have hall : (hexDigits ++ hexDigits.map (· - 32)).all (fun v => !isSpace v) = true := by decide
  simpa using List.all_eq_true.mp hall u (mem_of_toLowerAscii (List.contains_iff_mem.mp hu))

theorem isDigit_of_hexDigitValue {u : UInt16} (hu : isHexDigit u = true) (hvalue : hexDigitValue u < 10) :
    isDigit u = true := by
  have hall : hexDigits.all (fun v => decide (10 ≤ hexDigits.idxOf v) || isDigit v) = true := by decide
  have hdigit : isDigit (toLowerAscii u) = true := by
    have hor := List.all_eq_true.mp hall _ (List.contains_iff_mem.mp hu)
    rw [Bool.or_eq_true, decide_eq_true_eq] at hor
    exact hor.resolve_left (Nat.not_le.mpr hvalue)
  rwa [← eq_of_toLowerAscii rfl (not_small_of_isDigit hdigit)] at hdigit

theorem radixDigits_eq_some {radix n : Nat} {digits : Text} (h : radixDigits radix digits = some n) :
    digits ≠ [] ∧ (∀ u ∈ digits, isHexDigit u = true ∧ hexDigitValue u < radix) ∧
      digits.foldl (fun n u => radix * n + hexDigitValue u) 0 = n := by
  rw [radixDigits, Option.ite_none_right_eq_some] at h
  obtain ⟨⟨hne, hall⟩, hvalue⟩ := h
  exact ⟨hne, fun u hu => by simpa using List.all_eq_true.mp hall u hu, Option.some.inj hvalue⟩

/-- Digits are taken up to the white space behind them. -/
theorem takeWhile_append_space {p : UInt16 → Bool} {digits after : Text} (hdigits : ∀ u ∈ digits, p u = true)
    (hafter : ∀ u ∈ after, isSpace u = true) (hp : ∀ u, p u = true → isSpace u = false) :
    (digits ++ after).takeWhile p = digits := by
  rw [List.takeWhile_append_of_pos hdigits]
  cases after with
  | nil => exact List.append_nil digits
  | cons u after =>
      have hu : ¬p u = true := fun h => by
        have hspace := hafter u List.mem_cons_self
        rw [hp u h] at hspace
        cases hspace
      rw [List.takeWhile_cons_of_neg hu, List.append_nil]

theorem not_space_of_isDigit {u : UInt16} (hu : isDigit u = true) : isSpace u = false :=
  isSpace_digits (List.forall_mem_singleton.mpr hu) u (List.mem_singleton_self u)

theorem radixMark_eq_some {t : Text} {radix : Nat} (h : radixMark t = some radix) :
    ∃ v rest, t = unit '0' :: v :: rest ∧ isDigit v = false ∧ isSpace v = false := by
  have hall : (text "xob" ++ (text "xob").map (· - 32)).all (fun v => !isDigit v && !isSpace v) = true := by decide
  match t with
  | [] | [_] => cases h
  | u :: v :: rest =>
      rw [radixMark] at h
      split at h
      next => cases h
      next hzero =>
        suffices hv : toLowerAscii v ∈ text "xob" from
          ⟨v, rest, by rw [not_not.mp hzero], by simpa using List.all_eq_true.mp hall v (mem_of_toLowerAscii hv)⟩
        by_contra hother
        have hletters : toLowerAscii v ≠ unit 'x' ∧ toLowerAscii v ≠ unit 'o' ∧ toLowerAscii v ≠ unit 'b' := by
          have htext : text "xob" = [unit 'x', unit 'o', unit 'b'] := rfl
          simpa [htext] using hother
        rw [if_neg hletters.1, if_neg hletters.2.1, if_neg hletters.2.2] at h
        cases h

theorem signed_append {t : Text} (hne : t ≠ []) (after : Text) :
    signed (t ++ after) = ((signed t).1, (signed t).2 ++ after) := by
  obtain ⟨u, rest, rfl⟩ := List.exists_cons_of_ne_nil hne
  by_cases hplus : u = unit '+'
  · simp [signed, hplus]
  · simp only [signed, List.cons_append, List.head?_cons, Option.some.injEq, if_neg hplus, readSign]
    split <;> rfl

variable {t : Text} {radix n : Nat}

/-- Digits of base 16 are read by both, and of any other base `parseInt` reads the zero in front. -/
theorem parseIntAny_radix (hmark : radixMark (trim t) = some radix) (hvalue : radixDigits radix ((trim t).drop 2) = some n) :
    parseIntAny t = some (nearest false (if radix = 16 then n else 0) 1) := by
  obtain ⟨after, hafter, happend⟩ := trimStart_eq_append t
  obtain ⟨v, rest, htrim, hletter, -⟩ := radixMark_eq_some hmark
  have hsigned : signed (trimStart t) = (false, unit '0' :: v :: (rest ++ after)) := by rw [happend, htrim]; rfl
  have hradix : radixMark (unit '0' :: v :: (rest ++ after)) = some radix := by rw [← hmark, htrim]; rfl
  obtain ⟨hne, hdigits, hfold⟩ := radixDigits_eq_some hvalue
  simp only [htrim, List.drop_succ_cons, List.drop_zero] at hne hdigits hfold
  simp only [parseIntAny, hsigned, hradix, Option.some.injEq, List.drop_succ_cons, List.drop_zero]
  by_cases hbase : radix = 16
  · have htake : (rest ++ after).takeWhile isHexDigit = rest :=
      takeWhile_append_space (fun u hu => (hdigits u hu).1) hafter fun _ => not_space_of_isHexDigit
    rw [hbase] at hfold
    rw [if_pos hbase, if_pos hbase, htake, if_neg hne, hexValue, hfold]
  · have htake : (unit '0' :: v :: (rest ++ after)).takeWhile isDigit = [unit '0'] := by
      rw [List.takeWhile_cons_of_pos (by decide), List.takeWhile_cons_of_neg (by simp [hletter])]
    rw [if_neg hbase, if_neg hbase, parseInt]
    simp only [hsigned, htake, reduceCtorEq, if_false]
    rfl

theorem parseIntAny_decimal (htrim : trim t ≠ []) (hvalue : radixDigits 10 (signed (trim t)).2 = some n) :
    parseIntAny t = some (nearest (signed (trim t)).1 n 1) := by
  obtain ⟨after, hafter, happend⟩ := trimStart_eq_append t
  generalize hsplit : signed (trim t) = parts at hvalue ⊢
  obtain ⟨negative, digits⟩ := parts
  have hsigned : signed (trimStart t) = (negative, digits ++ after) := by rw [happend, signed_append htrim, hsplit]
  obtain ⟨hne, hdigits, -⟩ := radixDigits_eq_some hvalue
  have hdigits : ∀ u ∈ digits, isDigit u = true := fun u hu => isDigit_of_hexDigitValue (hdigits u hu).1 (hdigits u hu).2
  have htake : (digits ++ after).takeWhile isDigit = digits :=
    takeWhile_append_space hdigits hafter fun _ => not_space_of_isDigit
  have hmark : radixMark (digits ++ after) ≠ some 16 := fun h => by
    obtain ⟨v, rest, hcons, hletter, hspace⟩ := radixMark_eq_some h
    have hv : v ∈ digits.drop 1 ++ after := by
      rw [← List.drop_append_of_le_length (List.length_pos_iff.mpr hne), hcons]
      simp
    rcases List.mem_append.mp hv with hv | hv
    · exact absurd ((hdigits v (List.mem_of_mem_drop hv)).symm.trans hletter) (by decide)
    · exact absurd ((hafter v hv).symm.trans hspace) (by decide)
  rw [radixDigits_digits hdigits hne] at hvalue
  simp only [parseIntAny, hsigned, if_neg hmark, parseInt, htake, hne, if_false, Option.some.inj hvalue]

theorem parseIntAny_blank (h : trim t = []) : parseIntAny t = none := by
  obtain ⟨after, hafter, happend⟩ := trimStart_eq_append t
  have hempty : trimStart t = [] := by
    rw [← trimStart_trimStart, happend, h, List.nil_append, trimStart, List.dropWhile_eq_nil_iff]
    exact hafter
  simp only [parseIntAny, parseInt, hempty]
  rfl

/-- A text that is read as a whole number by `BigInt` is read by `parseInt` as well, unless it is blank. -/
theorem parseIntAny_of_toBigInt {k : Int} (h : toBigInt t = some k) (hk : k.natAbs < 2 ^ 53) (htrim : trim t ≠ []) :
    ∃ m : Int, m.natAbs < 2 ^ 53 ∧ parseIntAny t = some (.ofInt m) := by
  simp only [toBigInt, if_neg htrim] at h
  cases hmark : radixMark (trim t) with
  | some radix =>
      simp only [hmark] at h
      obtain ⟨n, hvalue, rfl⟩ := Option.map_eq_some_iff.mp h
      have hsmall : (if radix = 16 then n else 0) < 2 ^ 53 := by
        split
        · exact hk
        · decide
      exact ⟨(if radix = 16 then n else 0 : Nat), hsmall, by rw [parseIntAny_radix hmark hvalue, nearest_one hsmall]⟩
  | none =>
      simp only [hmark] at h
      obtain ⟨whole, hwhole, rfl⟩ := Option.map_eq_some_iff.mp h
      obtain ⟨n, hvalue, hn⟩ := Option.bind_eq_some_iff.mp hwhole
      obtain rfl := Option.some.inj hn
      refine ⟨_, hk, ?_⟩
      rw [parseIntAny_decimal htrim hvalue]
      cases hnegative : (signed (trim t)).1 with
      | false => exact congrArg some (nearest_one (by simpa [hnegative] using hk))
      | true => exact congrArg some (Json.Doubles.nearest_negative (by simpa [hnegative] using hk))

end Json.WholeTexts
