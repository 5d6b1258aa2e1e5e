import Mathlib.Data.List.ReduceOption
import Savitools.Multisig.Signatures

namespace Savitools.Multisig.Quorums

open Strings.CodeUnits Searches.Covers Weights MinimumSigners Signatures

variable {localeCompare : Text → Text → Int} {clock : Int} {input : MultisigSimulationInput}
  {result : MultisigSimulationResult}

variable (h : Distinct localeCompare clock input result)

include h

omit h

def Reports (risks : List MultisigRisk) (code : MultisigRiskCode) : Prop := ∃ risk ∈ risks, risk.code = code

instance decidableReports (risks : List MultisigRisk) (code : MultisigRiskCode) : Decidable (Reports risks code) :=
  inferInstanceAs (Decidable (∃ risk ∈ risks, risk.code = code))

section Codes

variable {code : MultisigRiskCode}

end Codes

include h

omit h

end Savitools.Multisig.Quorums

namespace Savitools.Multisig.Progress

open Strings.CodeUnits Json.Numbers Json.Doubles Json.Roundings Searches.Covers Weights MinimumSigners Signatures

/-- The hundredths of a percent are right to within a half, as far as doubles tell, and one division is left. -/
theorem hundredths_near {part whole : Nat} (hwhole : 0 < whole) (hpart : part < 2 ^ 13 * whole) :
    ∃ (n : Nat) (q : Rat), hundredths part whole = some (.finite q) ∧ |(n : Rat) - 10000 * (part / whole)| ≤ 51 / 100 ∧
      |q - n / 100| ≤ 1 / 2 ^ 34 ∧ (n = 10000 → q = 100) := by
  have hpos : (0 : Rat) < whole := by exact_mod_cast hwhole
  have hratio : (0 : Rat) ≤ part / whole := by positivity
  have hbelow : (part : Rat) / whole < 2 ^ 13 := by
    rw [div_lt_iff₀ hpos]
    exact_mod_cast hpart
  generalize hr : (part : Rat) / whole = r at hratio hbelow
  obtain ⟨first, hfirst, hfirstPos, hfirstNear⟩ := round_error hratio hbelow (by decide)
  norm_num at hfirstNear hbelow
  obtain ⟨hlow, hhigh⟩ := abs_le.mp hfirstNear
  obtain ⟨second, hsecond, hsecondPos, hsecondNear⟩ := round_error (r := first * 10000) (k := 27) (by positivity)
    (by norm_num; linarith) (by decide)
  norm_num at hsecondNear
  obtain ⟨hlow', hhigh'⟩ := abs_le.mp hsecondNear
  obtain ⟨n, hn⟩ : ∃ n : Nat, ⌊second + 1 / 2⌋ = n := Int.eq_ofNat_of_zero_le (Int.floor_nonneg.mpr (by linarith))
  obtain ⟨hfloor, hceil⟩ := Int.floor_eq_iff.mp hn
  push_cast at hfloor hceil
  have hnBelow : (n : Rat) / 100 < 2 ^ 20 := by
    norm_num
    linarith
  obtain ⟨q, hq, -, hqNear⟩ := round_error (r := (n : Rat) / 100) (by positivity) hnBelow (by decide)
  have hdiv : div (ofInt part) (ofInt whole) = some (.finite first) := by
    have hne : Rat.ofInt whole ≠ 0 := hpos.ne'
    have hvalue : Rat.ofInt part / Rat.ofInt whole = r := hr
    rw [ofInt, ofInt, div, Number.ofInt, Number.ofInt, divide, if_pos hne, hvalue, hfirst]
  have hmul : mul (some (.finite first)) (ofInt 10000) = some (.finite second) := by
    have hvalue : first * Rat.ofInt 10000 = first * 10000 := rfl
    rw [ofInt, mul, Number.ofInt, times, hvalue, hsecond]
  have hround : roundHalfUp (.finite second) = .ofInt n := congrArg Number.ofInt hn
  have hlast : div (some (.ofInt n)) (ofInt 100) = some (.finite q) := by
    have hne : Rat.ofInt 100 ≠ 0 := by decide
    have hvalue : Rat.ofInt n / Rat.ofInt 100 = n / 100 := rfl
    rw [ofInt, div, Number.ofInt, Number.ofInt, divide, if_pos hne, hvalue, hq]
  refine ⟨n, q, ?_, ?_, hqNear, fun hexact => ?_⟩
  · rw [hundredths, hdiv, hmul, Option.map_some, hround, hlast]
  · exact abs_le.mpr ⟨by linarith, by linarith⟩
  · have hvalue : (n : Rat) / 100 = Rat.ofInt 100 := by
      rw [hexact]
      norm_num
    rw [hvalue, round_ofInt (by decide)] at hq
    exact (Number.finite.inj hq).symm

/-- Of at most 255 that are needed, what is shown is a hundred only if nothing is missing. -/
theorem percent_shown {part whole : Nat} (hwhole : 0 < whole) (hmost : whole ≤ 255) (hpart : part < 2 ^ 13) :
    ∃ q : Rat, (if gt (hundredths part whole) (ofInt 100) then ofInt 100 else hundredths part whole) = some (.finite q) ∧
      q ≤ 100 ∧ (q = 100 ↔ whole ≤ part) ∧ (part < whole → |q - 100 * (part / whole)| ≤ 1 / 100) := by
  obtain ⟨n, q, hq, hn, hnear, hexact⟩ := hundredths_near hwhole (by nlinarith : part < 2 ^ 13 * whole)
  have hpos : (0 : Rat) < whole := by exact_mod_cast hwhole
  obtain ⟨hnLow, hnHigh⟩ := abs_le.mp hn
  obtain ⟨hqLow, hqHigh⟩ := abs_le.mp hnear
  norm_num at hqLow hqHigh
  have hgt : gt (hundredths part whole) (ofInt 100) = decide (100 < q) := by
    rw [hq]
    rfl
  rw [hgt, hq]
  by_cases hless : part < whole
  · have hratio : (part : Rat) / whole ≤ 1 - 1 / 255 := by
      rw [div_le_iff₀ hpos]
      have hstep : (part : Rat) + 1 ≤ whole := by exact_mod_cast hless
      have hbound : (whole : Rat) ≤ 255 := by exact_mod_cast hmost
      linarith
    have hbelow : q < 100 := by linarith
    rw [if_neg (by simpa using hbelow.le)]
    refine ⟨q, rfl, hbelow.le, iff_of_false hbelow.ne (not_le.mpr hless), fun _ => ?_⟩
    exact abs_le.mpr ⟨by linarith, by linarith⟩
  · have hratio : 1 ≤ (part : Rat) / whole := by
      rw [one_le_div hpos]
      exact_mod_cast not_lt.mp hless
    have hfull : q = 100 ∨ 100 < q := by
      have hten : 10000 ≤ n := by
        by_contra hfew
        have hcast : (n : Rat) + 1 ≤ 10000 := by exact_mod_cast not_le.mp hfew
        linarith
      rcases hten.eq_or_lt with hsame | hmore
      · exact .inl (hexact hsame.symm)
      · have hcast : (10000 : Rat) + 1 ≤ n := by exact_mod_cast hmore
        exact .inr (by linarith)
    refine ⟨100, ?_, le_rfl, iff_of_true rfl (not_lt.mp hless), fun h => absurd h hless⟩
    rcases hfull with rfl | hmore
    · rw [if_neg (by decide)]
    · rw [if_pos (decide_eq_true hmore)]
      rfl

variable {localeCompare : Text → Text → Int} {clock : Int} {input : MultisigSimulationInput}
  {result : MultisigSimulationResult}

theorem total_le_length {signers : List MultisigSignerInput} (h : ∀ signer ∈ signers, signer.weight ≤ MAX_SIGNER_WEIGHT) :
    total (·.weight) signers ≤ signers.length * MAX_SIGNER_WEIGHT := by
  induction signers with
  | nil => exact le_rfl
  | cons signer signers ih =>
      obtain ⟨hfirst, hrest⟩ := List.forall_mem_cons.mp h
      have hle := ih hrest
      rw [total_cons, List.length_cons]
      push_cast
      linarith

/-- What is collected of an accepted request, and what it takes. -/
theorem collected_bounds (h : simulateMultisig localeCompare clock input = .ok result) :
    0 ≤ collected input ∧ collected input < 2 ^ 13 ∧ 0 ≤ input.threshold ∧ input.threshold ≤ MAX_SIGNER_WEIGHT := by
  obtain ⟨hthreshold, hcount, -, -, duplicates, hduplicates, -⟩ := simulateMultisig_eq_ok.mp h
  have hweights := (checkSigners_spec hduplicates).1
  have hsigned : ∀ signer ∈ input.signers.filter (·.signed), 0 ≤ signer.weight ∧ signer.weight ≤ MAX_SIGNER_WEIGHT :=
    fun signer hsigner => hweights signer (List.mem_of_mem_filter hsigner)
  have hnonneg : 0 ≤ collected input := total_nonneg fun signer hsigner => (hsigned signer hsigner).1
  have hle : collected input ≤ _ := total_le_length fun signer hsigner => (hsigned signer hsigner).2
  have hlength : (input.signers.filter (·.signed)).length ≤ MAX_SIGNERS := (List.length_filter_le _ _).trans hcount
  rw [assertThreshold, assertWeight] at hthreshold
  split at hthreshold
  next => cases hthreshold
  next hrange =>
    have hmost : MAX_SIGNER_WEIGHT = 255 := rfl
    have hmany : MAX_SIGNERS = 21 := rfl
    simp only [Bool.or_eq_true, decide_eq_true_eq, not_or, not_lt] at hrange
    rw [hmany] at hlength
    rw [hmost] at hle hrange ⊢
    omega

/-- The progress is a percentage that is right to a hundredth, and it reads a hundred exactly when no weight is
missing. -/
theorem progress_exact (h : simulateMultisig localeCompare clock input = .ok result) :
    ∃ q : Rat, result.progressPercent = some (.finite q) ∧ q ≤ 100 ∧ (q = 100 ↔ result.satisfied = true) ∧
      (collected input < input.threshold → |q - 100 * (collected input / input.threshold)| ≤ 1 / 100) := by
  obtain ⟨hnonneg, hsmall, hlow, hhigh⟩ := collected_bounds h
  obtain ⟨-, -, -, -, duplicates, -, timeBounds, -, rfl⟩ := simulateMultisig_eq_ok.mp h
  simp only [resultOf, sumWeights_eq, decide_eq_true_eq]
  change ∃ q : Rat, (if input.threshold = 0 then ofInt 100 else
    if gt (hundredths (collected input) input.threshold) (ofInt 100) then ofInt 100
    else hundredths (collected input) input.threshold) = some (.finite q) ∧ q ≤ 100 ∧ (q = 100 ↔ input.threshold ≤ collected input) ∧ _
  by_cases hzero : input.threshold = 0
  · rw [if_pos hzero]
    exact ⟨100, rfl, le_rfl, iff_of_true rfl (by omega), by omega⟩
  · rw [if_neg hzero]
    obtain ⟨part, hpart⟩ := Int.eq_ofNat_of_zero_le hnonneg
    obtain ⟨whole, hwhole⟩ := Int.eq_ofNat_of_zero_le hlow
    rw [hpart] at hsmall ⊢
    rw [hwhole] at hhigh hzero ⊢
    have hmost : (whole : Int) ≤ 255 := hhigh
    obtain ⟨q, hq, hle, hfull, hclose⟩ := percent_shown (by omega : 0 < whole) (by omega)
      (by omega : part < 2 ^ 13)
    refine ⟨q, hq, hle, hfull.trans Int.ofNat_le.symm, fun hless => ?_⟩
    exact hclose (Int.ofNat_lt.mp hless)

/-- A third is less than all. -/
theorem sample_progress : ∃ q : Rat, sampleResult.progressPercent = some (.finite q) ∧ q ≤ 100 ∧ q ≠ 100 := by
  obtain ⟨q, hq, hle, hfull, -⟩ := progress_exact sample_distinct.accepted
  exact ⟨q, hq, hle, fun h => absurd (hfull.mp h) (by decide)⟩

end Savitools.Multisig.Progress
