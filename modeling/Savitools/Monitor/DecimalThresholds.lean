import Savitools.Monitor.AlertEvaluator
import Savitools.Strings.DecimalValues

namespace Savitools.Monitor.DecimalThresholds

open Strings.CodeUnits Strings.Decimals Strings.DecimalValues AlertRules AlertEvaluator

/-- The order of two decimals; texts that are none have no order. -/
def exactOrder (left right : Option Rat) : Option Ordering :=
  match left, right with
  | some l, some r => some (compare l r)
  | _, _ => none

/-- The comparison is that of the numbers of the decimals; with a sign there is none. -/
theorem compareDecimals_eq (left right : Text) :
    compareDecimals left right = exactOrder (unsignedValue left) (unsignedValue right) := by
  rw [compareDecimals, unsignedValue, unsignedValue]
  cases decimalParts left with
  | none => rfl
  | some l =>
      cases decimalParts right with
      | none => rfl
      | some r => exact congrArg some (compare_scaled (le_max_left _ _) (le_max_right _ _))

/-- The numbers of a balance and of the threshold of a rule. -/
def observedPair (rule : AlertRuleDefinition) (snapshot : AccountStateSnapshot) : Option (Rat × Rat) :=
  (snapshot.balances (balanceAsset rule)).bind fun balance =>
    rule.threshold.bind fun threshold =>
      (unsignedValue balance).bind fun b => (unsignedValue threshold).map fun t => (b, t)

theorem unsignedValue_nil : unsignedValue [] = none := rfl

theorem compareBalance_eq (rule : AlertRuleDefinition) (snapshot : AccountStateSnapshot) :
    compareBalance rule snapshot =
      (observedPair rule snapshot).bind fun pair => (some (compare pair.1 pair.2)).filter fun c => c ≠ .eq := by
  rw [compareBalance, observedPair]
  cases hbalance : snapshot.balances (balanceAsset rule) with
  | none => rfl
  | some balance =>
      cases hthreshold : rule.threshold with
      | none => cases balance <;> rfl
      | some threshold =>
          cases balance with
          | nil => rfl
          | cons b bs =>
              cases threshold with
              | nil =>
                  simp only [Option.getD_some, Option.bind_some, unsignedValue_nil, Option.map_none]
                  cases unsignedValue (b :: bs) <;> rfl
              | cons t ts =>
                  simp only [Option.getD_some, Option.bind_some, compareDecimals_eq]
                  cases unsignedValue (b :: bs) with
                  | none => rfl
                  | some l => cases unsignedValue (t :: ts) <;> rfl

/-- The rule holds with one of the two answers that the comparison is read for. -/
theorem compareBalance_iff {rule : AlertRuleDefinition} {snapshot : AccountStateSnapshot} {o : Ordering} (ho : o ≠ .eq) :
    (compareBalance rule snapshot == some o) = true ↔ ∃ pair ∈ observedPair rule snapshot, compare pair.1 pair.2 = o := by
  rw [compareBalance_eq]
  cases observedPair rule snapshot with
  | none => simp
  | some pair =>
      simp only [Option.bind_some, Option.mem_def, Option.some.injEq, exists_eq_left', beq_iff_eq, Option.filter_eq_some_iff]
      exact ⟨fun h => h.1, fun h => ⟨h, by simpa using ho⟩⟩

theorem matches_above_iff {rule : AlertRuleDefinition} (h : rule.type = .balanceAbove) (snapshot : AccountStateSnapshot) :
    matchesState rule snapshot = true ↔ ∃ pair ∈ observedPair rule snapshot, pair.2 < pair.1 := by
  rw [matchesState, h]
  dsimp only
  rw [compareBalance_iff (by decide : Ordering.gt ≠ .eq)]
  simp only [compare_gt_iff_gt]

theorem matches_below_iff {rule : AlertRuleDefinition} (h : rule.type = .balanceBelow) (snapshot : AccountStateSnapshot) :
    matchesState rule snapshot = true ↔ ∃ pair ∈ observedPair rule snapshot, pair.1 < pair.2 := by
  rw [matchesState, h]
  dsimp only
  rw [compareBalance_iff (by decide : Ordering.lt ≠ .eq)]
  simp only [compare_lt_iff_lt]

/-- Without a sign a decimal has the same number as with it. -/
theorem signedValue_of_unsigned {t : Text} {q : Rat} (h : unsignedValue t = some q) : signedValue t = some q := by
  cases t with
  | nil => cases h
  | cons u rest =>
      have hsign (v : UInt16) (hv : isDigit v = false) : unsignedValue (v :: rest) = none := by
        have htake : (v :: rest).takeWhile isDigit = [] := List.takeWhile_cons_of_neg (by simp [hv])
        rw [unsignedValue, decimalParts, htake]
        rfl
      have hminus : u ≠ unit '-' := by
        rintro rfl
        cases (hsign _ (by decide)).symm.trans h
      have hplus : u ≠ unit '+' := by
        rintro rfl
        cases (hsign _ (by decide)).symm.trans h
      rw [signedValue, if_neg hminus, if_neg hplus, h]

/-- A balance that is the threshold in another spelling is neither above nor below it. -/
theorem eq_of_observedPair {rule : AlertRuleDefinition} {snapshot : AccountStateSnapshot} {balance threshold : Text}
    (hbalance : snapshot.balances (balanceAsset rule) = some balance) (hthreshold : rule.threshold = some threshold)
    (hvalue : signedValue balance = signedValue threshold) : ∀ pair ∈ observedPair rule snapshot, pair.1 = pair.2 := by
  intro pair hpair
  rw [Option.mem_def, observedPair, hbalance, hthreshold, Option.bind_some, Option.bind_some] at hpair
  obtain ⟨b, hb, hrest⟩ := Option.bind_eq_some_iff.mp hpair
  obtain ⟨t, ht, rfl⟩ := Option.map_eq_some_iff.mp hrest
  rw [signedValue_of_unsigned hb, signedValue_of_unsigned ht] at hvalue
  exact Option.some.inj hvalue

/-- Decimals without a sign are compared by their exact numbers, and nothing else is compared at all; so a balance is
not above and below a threshold at once, and neither when it is equal to it in any spelling. -/
theorem decimal_thresholds_exact :
    (∀ left right : Text, (∀ l r : Rat, unsignedValue left = some l → unsignedValue right = some r →
        compareDecimals left right = some (compare l r)) ∧
      (unsignedValue left = none ∨ unsignedValue right = none → compareDecimals left right = none)) ∧
    ∀ (above below : AlertRuleDefinition) (snapshot : AccountStateSnapshot),
      above.type = .balanceAbove → below.type = .balanceBelow → above.asset = below.asset →
        above.threshold = below.threshold →
          ¬(matchesState above snapshot = true ∧ matchesState below snapshot = true) ∧
          ∀ balance threshold : Text, snapshot.balances (balanceAsset above) = some balance →
            above.threshold = some threshold → signedValue balance = signedValue threshold →
              matchesState above snapshot = false ∧ matchesState below snapshot = false := by
  refine ⟨fun left right => ⟨fun l r hl hr => ?_, fun hnone => ?_⟩,
    fun above below snapshot habove hbelow hasset hthreshold => ?_⟩
  · rw [compareDecimals_eq, hl, hr]
    rfl
  · rw [compareDecimals_eq]
    rcases hnone with h | h
    · rw [h]
      rfl
    · rw [h]
      cases unsignedValue left <;> rfl
  · have hpair : observedPair below snapshot = observedPair above snapshot := by
      rw [observedPair, observedPair, balanceAsset, balanceAsset, hasset, hthreshold]
    have hbelowIff := matches_below_iff hbelow snapshot
    rw [hpair] at hbelowIff
    refine ⟨fun ⟨h, h'⟩ => ?_, fun balance threshold hbalance hvalue hequal => ?_⟩
    · obtain ⟨pair, hmem, hlt⟩ := (matches_above_iff habove snapshot).mp h
      obtain ⟨other, hother, hgt⟩ := hbelowIff.mp h'
      cases Option.mem_unique hmem hother
      exact absurd hlt hgt.not_gt
    · have heq := eq_of_observedPair hbalance hvalue hequal
      constructor
      · rw [Bool.eq_false_iff]
        intro h
        obtain ⟨pair, hmem, hlt⟩ := (matches_above_iff habove snapshot).mp h
        exact absurd (heq pair hmem) hlt.ne'
      · rw [Bool.eq_false_iff]
        intro h
        obtain ⟨pair, hmem, hlt⟩ := hbelowIff.mp h
        exact absurd (heq pair hmem) hlt.ne

/-- A decimal with a sign has no order. -/
theorem not_signed_decimals_compared :
    ¬∀ (left right : Text) (l r : Rat), signedValue left = some l → signedValue right = some r →
      compareDecimals left right = some (compare l r) := by
  intro h
  have hnone : compareDecimals (text "-1") (text "0") = none := rfl
  have hsome := h (text "-1") (text "0") _ _ rfl rfl
  rw [hnone] at hsome
  cases hsome

end Savitools.Monitor.DecimalThresholds
