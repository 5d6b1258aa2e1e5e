import Savitools.Simulator.SlippageVerdicts

namespace Savitools.Simulator.SlippageRows

open Strings.CodeUnits Strings.Decimals Json.Numbers Json.Doubles LpMath StroopTexts SlippageLab SlippageVerdicts

theorem moved_antitone {amount a b : Int} (hamount : 0 ≤ amount) (hle : a ≤ b) :
    moved .strictSend amount b ≤ moved .strictSend amount a :=
  Int.ediv_le_ediv (by decide) (Int.mul_le_mul_of_nonneg_left (by omega) hamount)

theorem moved_monotone {amount a b : Int} (hamount : 0 ≤ amount) (hle : a ≤ b) :
    moved .strictReceive amount a ≤ moved .strictReceive amount b := by
  have hproduct : amount * (10000 + a) ≤ amount * (10000 + b) := Int.mul_le_mul_of_nonneg_left (by omega) hamount
  exact Int.ediv_le_ediv (by decide) (by omega)

theorem headroomAt_monotone (direction : SlippageDirection) {amount : Int} (hamount : 0 ≤ amount) (moveBps : Int) {a b : Int}
    (hle : a ≤ b) : headroomAt direction amount moveBps a ≤ headroomAt direction amount moveBps b := by
  cases direction with
  | strictSend => exact Int.sub_le_sub_left (moved_antitone hamount hle) _
  | strictReceive => exact Int.sub_le_sub_right (moved_monotone hamount hle) _

theorem headroomAt_self (direction : SlippageDirection) (amount moveBps : Int) :
    headroomAt direction amount moveBps moveBps = 0 := by
  cases direction <;> exact Int.sub_self _

theorem verdictOf_eq_fail {headroomStroops : Int} : verdictOf headroomStroops = .fail ↔ headroomStroops < 0 := by
  rw [verdictOf]
  split
  · exact iff_of_false nofun (by omega)
  · split
    · exact iff_of_true rfl ‹_›
    · exact iff_of_false nofun ‹_›

/-- The order of the amounts that two texts stand for. -/
def AmountLe (s t : Text) : Prop := ∃ x y : Int, s = fromStroops x ∧ t = fromStroops y ∧ x ≤ y

/-- The rows ascend in their tolerances and do not fall in their headroom, so that a wider tolerance is never worse; a
verdict does not contradict how the tolerance compares with the move; and the guarantee is on its side of the quote. -/
structure Consistent (result : SlippageComparisonResult) : Prop where
  ascending : result.scenarios.Pairwise fun narrow wide => gt (some wide.slippagePercent) (some narrow.slippagePercent) = true
  headroom : result.scenarios.Pairwise fun narrow wide => AmountLe narrow.headroom wide.headroom
  widened : result.scenarios.Pairwise fun narrow wide => narrow.verdict ≠ .fail → wide.verdict ≠ .fail
  below : ∀ scenario ∈ result.scenarios,
    gt (some result.adverseMovePercent) (some scenario.slippagePercent) = true → scenario.verdict ≠ .pass
  equal : ∀ scenario ∈ result.scenarios, scenario.slippagePercent = result.adverseMovePercent → scenario.verdict = .exact
  above : ∀ scenario ∈ result.scenarios,
    gt (some scenario.slippagePercent) (some result.adverseMovePercent) = true → scenario.verdict ≠ .fail
  destinationMin : result.direction = .strictSend →
    ∀ scenario ∈ result.scenarios, AmountLe scenario.guarantee result.quotedVariableAmount
  sendMax : result.direction = .strictReceive →
    ∀ scenario ∈ result.scenarios, AmountLe result.quotedVariableAmount scenario.guarantee

section Reading

variable {input : SlippageComparisonInput} {moveBps : Int} {bps : List Int} {dispersion : Option Number}

theorem forall_rows {P : SlippageScenarioOutcome → Prop} :
    (∀ scenario ∈ (comparison input moveBps bps dispersion).scenarios, P scenario) ↔
      ∀ b ∈ bps, P (row input.direction input.variableAmountStroops moveBps b) := by
  refine List.forall_mem_map.trans ?_
  simp only [mem_uniqueBps]

end Reading

end Savitools.Simulator.SlippageRows

namespace Savitools.Simulator.SlippageRecommendations

open Json.Numbers Json.Doubles LpMath SlippageLab SlippageVerdicts SlippageRows

/-- The recommendation agrees with the verdicts: it is the narrowest tolerance that does not fail, where there is one. -/
structure Agrees (result : SlippageComparisonResult) : Prop where
  narrowest : ∀ percent, result.recommendedSlippagePercent = some percent →
    ∃ scenario ∈ result.scenarios, scenario.slippagePercent = percent ∧ scenario.verdict ≠ .fail ∧
      ∀ other ∈ result.scenarios, other.verdict ≠ .fail → gt (some percent) (some other.slippagePercent) = false
  nothing : result.recommendedSlippagePercent = none ↔ ∀ scenario ∈ result.scenarios, scenario.verdict = .fail
  exceeded : result.exceededByEveryScenario = true ↔ ∀ scenario ∈ result.scenarios, scenario.verdict = .fail

/-- Between the exact amounts of a tolerance and of a wider move there is a whole number of stroops, so that rounding
keeps them apart. -/
def KeptApart (direction : SlippageDirection) (amount bps moveBps : Int) : Prop :=
  ∃ stroops : Int,
    match direction with
    | .strictSend => amount * (10000 - moveBps) < 10000 * stroops ∧ 10000 * stroops ≤ amount * (10000 - bps)
    | .strictReceive => amount * (10000 + bps) ≤ 10000 * stroops ∧ 10000 * stroops < amount * (10000 + moveBps)

/-- Rounding keeps every tolerance below the move apart from it. -/
def AllKeptApart (input : SlippageComparisonInput) : Prop :=
  ∀ percent ∈ input.slippageScenarios, ∀ bps moveBps, percentToBps percent = .ok bps →
    percentToBps input.adverseMovePercent = .ok moveBps → bps < moveBps →
      KeptApart input.direction input.variableAmountStroops bps moveBps

/-- Below the move a tolerance fails exactly when rounding keeps it apart. -/
theorem headroomAt_neg_iff (direction : SlippageDirection) {amount bps moveBps : Int} (hamount : 0 ≤ amount)
    (hlt : bps < moveBps) : headroomAt direction amount moveBps bps < 0 ↔ KeptApart direction amount bps moveBps := by
  cases direction with
  | strictSend =>
      have hle : amount * (10000 - moveBps) ≤ amount * (10000 - bps) := Int.mul_le_mul_of_nonneg_left (by omega) hamount
      change amount * (10000 - moveBps) / 10000 - amount * (10000 - bps) / 10000 < 0 ↔ ∃ stroops : Int, _ ∧ _
      constructor
      · intro h
        exact ⟨amount * (10000 - bps) / 10000, by omega, by omega⟩
      · rintro ⟨stroops, habove, hbelow⟩
        omega
  | strictReceive =>
      have hle : amount * (10000 + bps) ≤ amount * (10000 + moveBps) := Int.mul_le_mul_of_nonneg_left (by omega) hamount
      change (amount * (10000 + bps) + 9999) / 10000 - (amount * (10000 + moveBps) + 9999) / 10000 < 0 ↔ ∃ stroops : Int, _ ∧ _
      constructor
      · intro h
        exact ⟨(amount * (10000 + bps) + 9999) / 10000, by omega, by omega⟩
      · rintro ⟨stroops, hbelow, habove⟩
        omega

section Reading

variable {input : SlippageComparisonInput} {moveBps : Int} {bps : List Int} {dispersion : Option Number}

theorem allKeptApart_iff (h : Reading input moveBps bps) :
    AllKeptApart input ↔
      ∀ b ∈ bps, b < moveBps → headroomAt input.direction input.variableAmountStroops moveBps b < 0 := by
  constructor
  · intro hapart b hb hlt
    obtain ⟨percent, hpercent, hread⟩ := h.read b hb
    exact (headroomAt_neg_iff _ h.variable_nonneg hlt).mpr (hapart percent hpercent b moveBps hread h.move hlt)
  · intro hfail percent hpercent b move hread hmove hlt
    rw [h.move] at hmove
    cases hmove
    obtain ⟨b', hb', hread'⟩ := h.given percent hpercent
    rw [hread] at hread'
    cases hread'
    exact (headroomAt_neg_iff _ h.variable_nonneg hlt).mp (hfail b hb' hlt)

theorem not_fail_of_le (h : Reading input moveBps bps) {b : Int} (hle : moveBps ≤ b) :
    (row input.direction input.variableAmountStroops moveBps b).verdict ≠ .fail := by
  intro hfail
  have hheadroom := headroomAt_monotone input.direction h.variable_nonneg moveBps hle
  rw [headroomAt_self] at hheadroom
  exact absurd (verdictOf_eq_fail.mp hfail) hheadroom.not_gt

/-- Without a recommendation all tolerances are below the move. -/
theorem find_eq_none_iff :
    ((uniqueBps bps).find? fun b => decide (moveBps ≤ b)) = none ↔ ∀ b ∈ bps, b < moveBps := by
  simp only [List.find?_eq_none, mem_uniqueBps, decide_eq_true_eq, not_le]

/-- The recommendation is at least the move, and none that is at least the move is narrower. -/
theorem find_eq_some {b : Int} (h : ((uniqueBps bps).find? fun b => decide (moveBps ≤ b)) = some b) :
    b ∈ bps ∧ moveBps ≤ b ∧ ∀ other ∈ bps, moveBps ≤ other → b ≤ other := by
  obtain ⟨hmove, before, after, hsplit, hbefore⟩ := List.find?_eq_some_iff_append.mp h
  have hmem : b ∈ uniqueBps bps := hsplit ▸ List.mem_append_right _ List.mem_cons_self
  refine ⟨mem_uniqueBps.mp hmem, of_decide_eq_true hmove, fun other hother hle => ?_⟩
  have hsorted := pairwise_uniqueBps bps
  rw [hsplit] at hsorted
  rw [← mem_uniqueBps, hsplit] at hother
  rcases List.mem_append.mp hother with hfront | hback
  · have hnot := hbefore other hfront
    rw [decide_eq_true hle] at hnot
    cases hnot
  · rcases List.mem_cons.mp hback with rfl | hback
    · exact le_rfl
    · exact ((List.pairwise_cons.mp (List.pairwise_append.mp hsorted).2.1).1 other hback).le

theorem agrees_comparison_iff (h : Reading input moveBps bps) :
    Agrees (comparison input moveBps bps dispersion) ↔ AllKeptApart input := by
  rw [allKeptApart_iff h]
  have hallFail : (∀ scenario ∈ (comparison input moveBps bps dispersion).scenarios, scenario.verdict = .fail) ↔
      ∀ b ∈ bps, headroomAt input.direction input.variableAmountStroops moveBps b < 0 :=
    forall_rows.trans (forall₂_congr fun b _ => verdictOf_eq_fail)
  have hrecommended : (comparison input moveBps bps dispersion).recommendedSlippagePercent =
      ((uniqueBps bps).find? fun b => decide (moveBps ≤ b)).map percentAt := rfl
  have hexceeded : (comparison input moveBps bps dispersion).exceededByEveryScenario =
      ((uniqueBps bps).find? fun b => decide (moveBps ≤ b)).isNone := rfl
  constructor
  · rintro ⟨hnarrowest, hnothing, -⟩ b hb hlt
    rw [hrecommended] at hnothing
    by_contra hnot
    cases hfind : (uniqueBps bps).find? fun b => decide (moveBps ≤ b) with
    | none =>
        rw [hfind] at hnothing
        exact hnot (hallFail.mp (hnothing.mp rfl) b hb)
    | some recommended =>
        obtain ⟨hmem, hmove, -⟩ := find_eq_some hfind
        obtain ⟨-, -, -, -, hleast⟩ := hnarrowest (percentAt recommended) (by rw [hrecommended, hfind]; rfl)
        have hverdict : (row input.direction input.variableAmountStroops moveBps b).verdict ≠ .fail :=
          fun hfail => hnot (verdictOf_eq_fail.mp hfail)
        have hgt := forall_rows.mp hleast b hb hverdict
        have hwider := (gt_percentAt (h.range _ hmem).1 (h.range _ hmem).2 (h.range b hb).1 (h.range b hb).2).mpr (hlt.trans_le hmove)
        change gt (some (percentAt recommended)) (some (percentAt b)) = false at hgt
        rw [hwider] at hgt
        cases hgt
  · intro hfail
    have hnone : ((uniqueBps bps).find? fun b => decide (moveBps ≤ b)) = none ↔
        ∀ scenario ∈ (comparison input moveBps bps dispersion).scenarios, scenario.verdict = .fail := by
      rw [find_eq_none_iff, hallFail]
      constructor
      · exact fun hbelow b hb => hfail b hb (hbelow b hb)
      · intro hneg b hb
        by_contra hle
        exact not_fail_of_le h (Int.not_lt.mp hle) (verdictOf_eq_fail.mpr (hneg b hb))
    refine ⟨?_, ?_, ?_⟩
    · intro percent hpercent
      rw [hrecommended, Option.map_eq_some_iff] at hpercent
      obtain ⟨recommended, hfind, rfl⟩ := hpercent
      obtain ⟨hmem, hmove, hleast⟩ := find_eq_some hfind
      refine ⟨row input.direction input.variableAmountStroops moveBps recommended,
        List.mem_map_of_mem (mem_uniqueBps.mpr hmem), rfl, not_fail_of_le h hmove, forall_rows.mpr fun b hb hverdict => ?_⟩
      by_cases hlt : b < moveBps
      · exact absurd (verdictOf_eq_fail.mpr (hfail b hb hlt)) hverdict
      · have hle := hleast b hb (Int.not_lt.mp hlt)
        refine Bool.eq_false_iff.mpr fun hgt => ?_
        exact absurd ((gt_percentAt (h.range _ hmem).1 (h.range _ hmem).2 (h.range b hb).1 (h.range b hb).2).mp hgt) hle.not_gt
    · rw [hrecommended, Option.map_eq_none_iff]
      exact hnone
    · rw [hexceeded, Option.isNone_iff_eq_none]
      exact hnone

end Reading

/-- The inputs that are meant are compared, and a recommendation agrees with the verdicts exactly when rounding keeps the
tolerances below the move apart from it. -/
theorem recommendation_agrees_iff (input : SlippageComparisonInput) :
    (Valid input → ∃ result, compareSlippageScenarios input = .ok result) ∧
      ∀ result, compareSlippageScenarios input = .ok result → (Agrees result ↔ AllKeptApart input) := by
  refine ⟨exists_comparison, fun result h => ?_⟩
  obtain ⟨moveBps, bps, dispersion, hreading, rfl⟩ := compareSlippageScenarios_ok h
  exact agrees_comparison_iff hreading

/-- One stroop is quoted, and of the tolerances of half a percent and of five percent the wider one is recommended for a
move of one percent, although both leave nothing. -/
def oneStroop : SlippageComparisonInput :=
  ⟨.strictSend, 10000000, 1, [some (.finite (1 / 2)), some (.finite 5)], some (.finite 1), none⟩

theorem valid_oneStroop : Valid oneStroop where
  variable_nonneg := by decide
  fixed_nonneg := by decide
  best_nonneg := nofun
  scenarios_ne_nil := nofun
  scenarios := by
    intro percent hpercent
    rcases List.mem_cons.mp hpercent with rfl | hpercent
    · exact ⟨1 / 2, rfl, by norm_num, by norm_num⟩
    · exact ⟨5, List.mem_singleton.mp hpercent, by norm_num, by norm_num⟩
  move := ⟨1, rfl, by norm_num, by norm_num⟩

theorem not_recommendation_agrees : ¬∀ input, Valid input → ∀ result, compareSlippageScenarios input = .ok result →
    Agrees result := by
  intro hagrees
  obtain ⟨result, hresult⟩ := exists_comparison valid_oneStroop
  have hresultAgrees := hagrees oneStroop valid_oneStroop result hresult
  obtain ⟨moveBps, bps, dispersion, hreading, rfl⟩ := compareSlippageScenarios_ok hresult
  have hnarrow : percentToBps (some (.finite (1 / 2))) = .ok 50 := by decide +kernel
  have hmove : percentToBps oneStroop.adverseMovePercent = .ok 100 := by decide +kernel
  obtain ⟨stroops, habove, hbelow⟩ :=
    (agrees_comparison_iff hreading).mp hresultAgrees _ List.mem_cons_self 50 100 hnarrow hmove (by decide)
  change 1 * (10000 - 100) < 10000 * stroops at habove
  change 10000 * stroops ≤ 1 * (10000 - 50) at hbelow
  omega

end Savitools.Simulator.SlippageRecommendations
