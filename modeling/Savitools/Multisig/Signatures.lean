import Savitools.Multisig.MinimumSigners

namespace Savitools.Multisig.Signatures

open Strings.CodeUnits Common.Exceptions Searches.Covers Weights MinimumSigners

variable {localeCompare : Text → Text → Int} {clock : Int} {input : MultisigSimulationInput}
  {result : MultisigSimulationResult}

/-- The signature of the signers with a key arrives. -/
def addSignature (key : Text) (signer : MultisigSignerInput) : MultisigSignerInput :=
  if signer.key = key then { signer with signed := true } else signer

def sign (input : MultisigSimulationInput) (key : Text) : MultisigSimulationInput :=
  { input with signers := input.signers.map (addSignature key) }

def outstanding (input : MultisigSimulationInput) : List MultisigSignerInput :=
  input.signers.filter fun signer => !signer.signed

def collected (input : MultisigSimulationInput) : Int := total (·.weight) (input.signers.filter (·.signed))

@[simp] theorem key_addSignature (key : Text) (signer : MultisigSignerInput) : (addSignature key signer).key = signer.key := by
  rw [addSignature]
  split <;> rfl

@[simp] theorem weight_addSignature (key : Text) (signer : MultisigSignerInput) :
    (addSignature key signer).weight = signer.weight := by
  rw [addSignature]
  split <;> rfl

@[simp] theorem required_addSignature (key : Text) (signer : MultisigSignerInput) :
    (addSignature key signer).required = signer.required := by
  rw [addSignature]
  split <;> rfl

theorem collected_add_outstanding (input : MultisigSimulationInput) :
    collected input + total (·.weight) (outstanding input) = total (·.weight) input.signers :=
  total_filter_add _ _ _

theorem total_sign (input : MultisigSimulationInput) (key : Text) :
    total (·.weight) (sign input key).signers = total (·.weight) input.signers := by
  rw [sign]
  induction input.signers with
  | nil => rfl
  | cons signer signers ih => rw [List.map_cons, total_cons, total_cons, ih, weight_addSignature]

theorem outstanding_sign (input : MultisigSimulationInput) (key : Text) :
    outstanding (sign input key) = (outstanding input).filter fun signer => signer.key ≠ key := by
  rw [outstanding, outstanding, sign]
  induction input.signers with
  | nil => rfl
  | cons signer signers ih =>
      rw [List.map_cons, List.filter_cons, ih, List.filter_cons]
      by_cases hkey : signer.key = key
      · cases hsigned : signer.signed <;> simp [addSignature, hkey]
      · cases hsigned : signer.signed <;> simp [addSignature, hkey, hsigned]

/-- What the checks of the signers ask for, and when no key is reported as coming twice. -/
theorem checkSigners_spec {seen duplicates found : List Text} {signers : List MultisigSignerInput}
    (h : checkSigners seen duplicates signers = .ok found) :
    (∀ signer ∈ signers, 0 ≤ signer.weight ∧ signer.weight ≤ MAX_SIGNER_WEIGHT) ∧
      (found = [] ↔ duplicates = [] ∧ (signers.map (·.key)).Nodup ∧ ∀ signer ∈ signers, signer.key ∉ seen) := by
  induction signers generalizing seen duplicates with
  | nil =>
      obtain rfl := Except.ok.inj h
      simp
  | cons signer signers ih =>
      rw [checkSigners] at h
      obtain ⟨⟨⟩, hweight, hrest⟩ := bind_eq_ok.mp h
      split at hrest
      next => cases hrest
      next =>
        obtain ⟨hweights, hfound⟩ := ih hrest
        have hrange : 0 ≤ signer.weight ∧ signer.weight ≤ MAX_SIGNER_WEIGHT := by
          simp only [assertWeight] at hweight
          split at hweight
          next => cases hweight
          next hin =>
            simpa using hin
        refine ⟨List.forall_mem_cons.mpr ⟨hrange, hweights⟩, hfound.trans ?_⟩
        rw [List.map_cons, List.nodup_cons, List.forall_mem_cons]
        by_cases hseen : signer.key ∈ seen
        · refine iff_of_false (fun hnone => ?_) fun hnone => hnone.2.2.1 hseen
          have hnil := hnone.1
          split at hnil
          next => exact List.append_ne_nil_of_right_ne_nil _ (List.cons_ne_nil _ _) hnil
          next hnot =>
            rw [hnil] at hnot
            simp [hseen] at hnot
        · have hsame : (if seen.contains signer.key && !duplicates.contains signer.key then duplicates ++ [signer.key]
              else duplicates) = duplicates := if_neg (by simp [hseen])
          rw [hsame]
          simp only [List.mem_cons, not_or, List.mem_map]
          constructor
          · rintro ⟨hduplicates, hnodup, hfresh⟩
            exact ⟨hduplicates, ⟨fun ⟨other, hother, hkey⟩ => (hfresh other hother).1 hkey, hnodup⟩, hseen,
              fun other hother => (hfresh other hother).2⟩
          · rintro ⟨hduplicates, ⟨hfresh, hnodup⟩, -, hrest⟩
            exact ⟨hduplicates, hnodup, fun other hother => ⟨fun hkey => hfresh ⟨other, hother, hkey⟩, hrest other hother⟩⟩

theorem checkSigners_addSignature (key : Text) (seen duplicates : List Text) (signers : List MultisigSignerInput) :
    checkSigners seen duplicates (signers.map (addSignature key)) = checkSigners seen duplicates signers := by
  induction signers generalizing seen duplicates with
  | nil => rfl
  | cons signer signers ih =>
      rw [List.map_cons, checkSigners, checkSigners]
      simp only [key_addSignature, weight_addSignature, required_addSignature, ih]

theorem simulateMultisig_eq_ok :
    simulateMultisig localeCompare clock input = .ok result ↔
      assertThreshold input.threshold (text "threshold") = .ok () ∧ input.signers.length ≤ MAX_SIGNERS ∧
        assertThreshold (input.lowThreshold.getD input.threshold) (text "lowThreshold") = .ok () ∧
        assertThreshold (input.highThreshold.getD input.threshold) (text "highThreshold") = .ok () ∧
        ∃ duplicates, checkSigners [] [] input.signers = .ok duplicates ∧
          ∃ timeBounds, evaluateTimeBounds clock input = .ok timeBounds ∧
            resultOf localeCompare input (input.lowThreshold.getD input.threshold)
              (input.highThreshold.getD input.threshold) duplicates timeBounds = result := by
  constructor
  · intro h
    obtain ⟨⟨⟩, hthreshold, h⟩ := bind_eq_ok.mp h
    split at h
    next => cases h
    next hcount =>
      obtain ⟨⟨⟩, hlow, h⟩ := bind_eq_ok.mp h
      obtain ⟨⟨⟩, hhigh, h⟩ := bind_eq_ok.mp h
      obtain ⟨duplicates, hduplicates, h⟩ := bind_eq_ok.mp h
      obtain ⟨timeBounds, hbounds, h⟩ := bind_eq_ok.mp h
      exact ⟨hthreshold, not_lt.mp hcount, hlow, hhigh, duplicates, hduplicates, timeBounds, hbounds, Except.ok.inj h⟩
  · rintro ⟨hthreshold, hcount, hlow, hhigh, duplicates, hduplicates, timeBounds, hbounds, rfl⟩
    simp only [simulateMultisig, hthreshold, if_neg (not_lt.mpr hcount), hlow, hhigh, hduplicates, hbounds]
    rfl

/-- An accepted request whose signers all have keys of their own. -/
structure Distinct (localeCompare : Text → Text → Int) (clock : Int) (input : MultisigSimulationInput)
    (result : MultisigSimulationResult) : Prop where
  accepted : simulateMultisig localeCompare clock input = .ok result
  distinct : result.duplicateSigners = []

namespace Distinct

variable (h : Distinct localeCompare clock input result)

include h

theorem weights : ∀ signer ∈ input.signers, 0 ≤ signer.weight := by
  obtain ⟨-, -, -, -, duplicates, hduplicates, -⟩ := simulateMultisig_eq_ok.mp h.accepted
  exact fun signer hsigner => ((checkSigners_spec hduplicates).1 signer hsigner).1

theorem keys : (input.signers.map (·.key)).Nodup := by
  obtain ⟨-, -, -, -, duplicates, hduplicates, timeBounds, -, rfl⟩ := simulateMultisig_eq_ok.mp h.accepted
  have hsorted : sortTexts duplicates = [] := h.distinct
  have hnone : duplicates = [] := by
    rw [← List.length_eq_zero_iff, ← (sortTexts_perm duplicates).length_eq, hsorted, List.length_nil]
  exact ((checkSigners_spec hduplicates).2.mp hnone).2.1

theorem satisfied_iff : result.satisfied = true ↔ input.threshold ≤ collected input := by
  obtain ⟨-, -, -, -, duplicates, -, timeBounds, -, rfl⟩ := simulateMultisig_eq_ok.mp h.accepted
  exact decide_eq_true_iff.trans (by rw [sumWeights_eq, collected])

/-- What is recommended, for the weight that is missing. -/
theorem recommended :
    match result.minimumSignersNeeded with
    | none => total (·.weight) input.signers < input.threshold
    | some keys => ∃ chosen, Fewest (·.weight) (input.threshold - collected input) (outstanding input) chosen ∧
        keys.Perm (chosen.map (·.key)) := by
  have hweights : ∀ signer ∈ outstanding input, 0 ≤ signer.weight := fun signer hsigner =>
    h.weights signer (List.mem_of_mem_filter hsigner)
  have hsatisfied := h.satisfied_iff
  obtain ⟨-, -, -, -, duplicates, -, timeBounds, -, rfl⟩ := simulateMultisig_eq_ok.mp h.accepted
  have hneeded : (resultOf localeCompare input (input.lowThreshold.getD input.threshold)
      (input.highThreshold.getD input.threshold) duplicates timeBounds).minimumSignersNeeded =
        if input.threshold ≤ collected input then some []
        else solveMinimumSigners localeCompare (outstanding input) (input.threshold - collected input) := by
    simp only [resultOf, sumWeights_eq, decide_eq_true_eq]
    rfl
  rw [hneeded]
  by_cases hdone : input.threshold ≤ collected input
  · rw [if_pos hdone]
    exact ⟨[], .nil (by omega), .refl _⟩
  · rw [if_neg hdone]
    have hsolve := solveMinimumSigners_fewest localeCompare hweights (input.threshold - collected input)
    have hsum := collected_add_outstanding input
    generalize solveMinimumSigners localeCompare (outstanding input) (input.threshold - collected input) = needed at hsolve ⊢
    cases needed with
    | none =>
        obtain ⟨-, hless⟩ := hsolve
        dsimp only
        omega
    | some keys => exact hsolve

end Distinct

/-- However the signatures come, the same checks pass. -/
theorem Distinct.sign (h : Distinct localeCompare clock input result) (key : Text) :
    ∃ next, Distinct localeCompare clock (sign input key) next := by
  obtain ⟨hthreshold, hcount, hlow, hhigh, duplicates, hduplicates, timeBounds, hbounds, rfl⟩ :=
    simulateMultisig_eq_ok.mp h.accepted
  refine ⟨_, simulateMultisig_eq_ok.mpr ⟨hthreshold, ?_, hlow, hhigh, duplicates, ?_, timeBounds, hbounds, rfl⟩, h.distinct⟩
  · rwa [Signatures.sign, List.length_map]
  · rwa [Signatures.sign, checkSigners_addSignature]

/-- The signature of an outstanding signer leaves the others, and their weight. -/
theorem Distinct.outstanding_erase (h : Distinct localeCompare clock input result) {signer : MultisigSignerInput}
    (hsigner : signer ∈ outstanding input) :
    outstanding (Signatures.sign input signer.key) = (outstanding input).erase signer := by
  have hkeys : ((outstanding input).map (·.key)).Nodup := h.keys.sublist ((List.filter_sublist).map _)
  rw [outstanding_sign, hkeys.of_map.erase_eq_filter]
  refine List.filter_congr fun other hother => ?_
  by_cases heq : other = signer
  · simp [heq]
  · have hkey : other.key ≠ signer.key := fun hsame => heq (List.inj_on_of_nodup_map hkeys hother hsigner hsame)
    simp [heq, hkey]

theorem Distinct.missing_sign (h : Distinct localeCompare clock input result) {signer : MultisigSignerInput}
    (hsigner : signer ∈ outstanding input) :
    (Signatures.sign input signer.key).threshold - collected (Signatures.sign input signer.key) =
      input.threshold - collected input - signer.weight := by
  have hsum := collected_add_outstanding input
  have hnext := collected_add_outstanding (Signatures.sign input signer.key)
  have hsame : (Signatures.sign input signer.key).threshold = input.threshold := rfl
  rw [h.outstanding_erase hsigner, total_sign, ← hsum, total_erase _ hsigner] at hnext
  omega

/-- Signatures that arrive one after another, each of a signer that the simulation before it recommends. -/
inductive Recommended (localeCompare : Text → Text → Int) (clock : Int) :
    MultisigSimulationInput → List Text → MultisigSimulationInput → Prop
  | nil {input : MultisigSimulationInput} : Recommended localeCompare clock input [] input
  | cons {input final : MultisigSimulationInput} {result : MultisigSimulationResult} {keys arrived : List Text} {key : Text}
      (hresult : simulateMultisig localeCompare clock input = .ok result)
      (hneeded : result.minimumSignersNeeded = some keys) (hkey : key ∈ keys)
      (hrest : Recommended localeCompare clock (sign input key) arrived final) :
      Recommended localeCompare clock input (key :: arrived) final

theorem Recommended.followed {final : MultisigSimulationInput} {arrived : List Text}
    (h : Distinct localeCompare clock input result) (hrun : Recommended localeCompare clock input arrived final) :
    ∃ taken last, Followed (·.weight) (outstanding input) (input.threshold - collected input) taken (outstanding final)
        (final.threshold - collected final) ∧ taken.length = arrived.length ∧ Distinct localeCompare clock final last := by
  induction hrun generalizing result with
  | nil => exact ⟨[], result, .nil, rfl, h⟩
  | cons hresult hneeded hkey _ ih =>
      obtain rfl := Except.ok.inj (hresult.symm.trans h.accepted)
      have hrecommended := h.recommended
      rw [hneeded] at hrecommended
      obtain ⟨chosen, hfewest, hperm⟩ := hrecommended
      obtain ⟨signer, hsigner, rfl⟩ := List.mem_map.mp (hperm.subset hkey)
      have hmem := hfewest.within.subset hsigner
      obtain ⟨next, hnext⟩ := h.sign signer.key
      obtain ⟨taken, last, hfollowed, hlength, hlast⟩ := ih hnext
      rw [h.outstanding_erase hmem, h.missing_sign hmem] at hfollowed
      exact ⟨signer :: taken, last, .cons hfewest hsigner hfollowed, congrArg (· + 1) hlength, hlast⟩

theorem outstanding_foldl (arrived : List Text) (input : MultisigSimulationInput) :
    outstanding (arrived.foldl sign input) = (outstanding input).filter fun signer => !arrived.contains signer.key := by
  induction arrived generalizing input with
  | nil => exact (List.filter_eq_self.mpr fun _ _ => rfl).symm
  | cons key arrived ih =>
      rw [List.foldl_cons, ih, outstanding_sign, List.filter_filter]
      refine List.filter_congr fun signer _ => ?_
      by_cases hkey : signer.key = key <;> simp [hkey]

theorem total_foldl (arrived : List Text) (input : MultisigSimulationInput) :
    total (·.weight) (arrived.foldl sign input).signers = total (·.weight) input.signers := by
  induction arrived generalizing input with
  | nil => rfl
  | cons key arrived ih => rw [List.foldl_cons, ih, total_sign]

theorem threshold_foldl (arrived : List Text) (input : MultisigSimulationInput) :
    (arrived.foldl sign input).threshold = input.threshold := by
  induction arrived generalizing input with
  | nil => rfl
  | cons key arrived ih => exact ih _

theorem Distinct.signs (h : Distinct localeCompare clock input result) (arrived : List Text) :
    ∃ last, Distinct localeCompare clock (arrived.foldl Signatures.sign input) last := by
  induction arrived generalizing input result with
  | nil => exact ⟨result, h⟩
  | cons key arrived ih =>
      obtain ⟨next, hnext⟩ := h.sign key
      exact ih hnext

/-- The outstanding signers whose keys are among those that arrive. -/
def joined (input : MultisigSimulationInput) (arrived : List Text) : List MultisigSignerInput :=
  (outstanding input).filter fun signer => arrived.contains signer.key

theorem collected_foldl (arrived : List Text) (input : MultisigSimulationInput) :
    collected (arrived.foldl sign input) = collected input + total (·.weight) (joined input arrived) := by
  have hsum := collected_add_outstanding input
  have hlast := collected_add_outstanding (arrived.foldl sign input)
  have hsplit := total_filter_add (fun signer : MultisigSignerInput => signer.weight) (outstanding input)
    fun signer => arrived.contains signer.key
  rw [total_foldl, outstanding_foldl] at hlast
  rw [joined]
  omega

theorem Distinct.length_joined (h : Distinct localeCompare clock input result) (arrived : List Text) :
    (joined input arrived).length ≤ arrived.length := by
  have hkeys : ((joined input arrived).map (·.key)).Nodup :=
    h.keys.sublist (((List.filter_sublist).trans List.filter_sublist).map _)
  have hsubset : (joined input arrived).map (·.key) ⊆ arrived := by
    intro key hkey
    obtain ⟨signer, hsigner, rfl⟩ := List.mem_map.mp hkey
    exact List.contains_iff_mem.mp (List.mem_filter.mp hsigner).2
  have hle := (List.subperm_of_subset hkeys hsubset).length_le
  rwa [List.length_map] at hle

theorem recommendations_finish {keys arrived : List Text} {final : MultisigSimulationInput}
    (h : Distinct localeCompare clock input result) (hkeys : result.minimumSignersNeeded = some keys)
    (hrun : Recommended localeCompare clock input arrived final) :
    ∃ last left, simulateMultisig localeCompare clock final = .ok last ∧ last.minimumSignersNeeded = some left ∧
      left.length + arrived.length = keys.length ∧ (last.satisfied = true ↔ arrived.length = keys.length) := by
  have hrecommended := h.recommended
  rw [hkeys] at hrecommended
  obtain ⟨chosen, hfewest, hperm⟩ := hrecommended
  obtain ⟨taken, last, hfollowed, hlength, hlast⟩ := hrun.followed h
  obtain ⟨rest, hrest, hcount⟩ := hfollowed.fewest hfewest
  have hnow := hlast.recommended
  have hkeysLength := hperm.length_eq
  rw [List.length_map] at hkeysLength
  have hdone : last.satisfied = true ↔ rest.length = 0 := by
    rw [hlast.satisfied_iff, List.length_eq_zero_iff, hrest.eq_nil_iff]
    omega
  split at hnow
  next =>
    have hle : total (·.weight) rest ≤ total (·.weight) (outstanding final) :=
      total_le (fun signer hsigner => hlast.weights signer (List.mem_of_mem_filter hsigner)) hrest.within
    have hsum := collected_add_outstanding final
    have hreaches := hrest.reaches
    omega
  next left hleft =>
    obtain ⟨now, hnow, hnowPerm⟩ := hnow
    have hleftLength := hnowPerm.length_eq
    rw [List.length_map, hnow.length_eq hrest] at hleftLength
    exact ⟨last, left, hlast.accepted, hleft, by omega, hdone.trans (by omega)⟩

theorem no_fewer_signatures {arrived : List Text} {last : MultisigSimulationResult}
    (h : Distinct localeCompare clock input result)
    (haccepted : simulateMultisig localeCompare clock (arrived.foldl sign input) = .ok last) (hdone : last.satisfied = true) :
    ∃ keys, result.minimumSignersNeeded = some keys ∧ keys.length ≤ arrived.length := by
  obtain ⟨other, hother⟩ := h.signs arrived
  obtain rfl := Except.ok.inj (hother.accepted.symm.trans haccepted)
  have hreached := hother.satisfied_iff.mp hdone
  rw [threshold_foldl, collected_foldl] at hreached
  have hwithin : (joined input arrived).Subperm (outstanding input) := (List.filter_sublist).subperm
  have hrecommended := h.recommended
  split at hrecommended
  next =>
    have hle : total (·.weight) (joined input arrived) ≤ total (·.weight) (outstanding input) :=
      total_le (fun signer hsigner => h.weights signer (List.mem_of_mem_filter hsigner)) hwithin
    have hsum := collected_add_outstanding input
    omega
  next keys hneeded =>
    obtain ⟨chosen, hfewest, hperm⟩ := hrecommended
    refine ⟨keys, hneeded, ?_⟩
    rw [hperm.length_eq, List.length_map]
    exact (hfewest.least _ hwithin (by omega)).trans (h.length_joined arrived)

/-- Whoever follows the recommendations, asking again after each signature, is done after as many signatures as were
recommended first, and no signatures of whomever authorise the operation with fewer of them. -/
theorem recommendations_optimal (h : Distinct localeCompare clock input result) :
    (∀ keys, result.minimumSignersNeeded = some keys →
      ∀ (arrived : List Text) final, Recommended localeCompare clock input arrived final →
        ∃ last left, simulateMultisig localeCompare clock final = .ok last ∧ last.minimumSignersNeeded = some left ∧
          left.length + arrived.length = keys.length ∧ (last.satisfied = true ↔ arrived.length = keys.length)) ∧
    ∀ (arrived : List Text) last, simulateMultisig localeCompare clock (arrived.foldl sign input) = .ok last →
      last.satisfied = true → ∃ keys, result.minimumSignersNeeded = some keys ∧ keys.length ≤ arrived.length :=
  ⟨fun _ hkeys _ _ hrun => recommendations_finish h hkeys hrun, fun _ _ => no_fewer_signatures h⟩

/-- A request for three out of four, of which one has signed. -/
def sampleInput : MultisigSimulationInput :=
  { threshold := 3
    signers := ⟨text "GE", 1, true, false⟩ :: sampleSigners
    lowThreshold := none
    highThreshold := none
    minTime := none
    maxTime := none
    now := none }

def sampleResult : MultisigSimulationResult :=
  resultOf byUnits sampleInput 3 3 [] ⟨none, none, false, false, false⟩

theorem sample_distinct : Distinct byUnits 0 sampleInput sampleResult :=
  ⟨simulateMultisig_eq_ok.mpr ⟨rfl, by decide, rfl, rfl, [], rfl, _, rfl, rfl⟩, rfl⟩

theorem one_signature_completes :
    ∃ last, simulateMultisig byUnits 0 (sign sampleInput (text "GC")) = .ok last ∧ last.satisfied = true := by
  have hneeded : sampleResult.minimumSignersNeeded = some [text "GC"] := by decide
  have hrun : Recommended byUnits 0 sampleInput [text "GC"] (sign sampleInput (text "GC")) :=
    .cons sample_distinct.accepted hneeded List.mem_cons_self .nil
  obtain ⟨last, -, haccepted, -, -, hsatisfied⟩ :=
    (recommendations_optimal sample_distinct).1 _ hneeded _ _ hrun
  exact ⟨last, haccepted, hsatisfied.mpr rfl⟩

end Savitools.Multisig.Signatures
