import Savitools.Simulator.LpMath
import Savitools.Common.Exceptions
import Savitools.Simulator.SlippageLab

namespace Savitools.Simulator.StroopTexts

open Strings.CodeUnits Strings.Decimals Json.Numbers Json.Conversions LpMath

/-- A mark is found behind what has none. -/
theorem idxOf_mark {before after : Text} {mark : UInt16} (hbefore : mark ∉ before) :
    (before ++ mark :: after).idxOf? mark = some before.length := by
  induction before with
  | nil => rw [List.nil_append, List.idxOf?_cons, beq_self_eq_true, if_pos rfl, List.length_nil]
  | cons u before ih =>
      have hne : ¬(u == mark) = true := fun h => hbefore (beq_iff_eq.mp h ▸ List.mem_cons_self)
      rw [List.cons_append, List.idxOf?_cons, if_neg hne, ih (fun h => hbefore (List.mem_cons_of_mem u h))]
      rfl

theorem mem_amountText {sign : Text} {whole frac : Nat} (hsign : ∀ u ∈ sign, isSpace u = false) :
    ∀ u ∈ sign ++ ofNat whole ++ unit '.' :: padStart (ofNat frac) 7, isSpace u = false := by
  intro u hu
  rcases List.mem_append.mp hu with hfront | hback
  · exact (List.mem_append.mp hfront).elim (hsign u) (isSpace_ofNat u)
  · rcases List.mem_cons.mp hback with rfl | hfrac
    · decide
    · exact isSpace_digits (isDigit_of_mem_padStart (digits_ofNat frac)) u hfrac

/-- A text of seven decimal places is read place by place, its sign with the whole part. -/
theorem toStroops_amountText {sign : Text} {whole frac : Nat} {n : Int} (hsign : ∀ u ∈ sign, isSpace u = false ∧ u ≠ unit '.')
    (hwhole : toBigInt (sign ++ ofNat whole) = some n) (hfrac : frac < 10 ^ 7) :
    toStroops (sign ++ ofNat whole ++ unit '.' :: padStart (ofNat frac) 7) = some (n * stroop + frac) := by
  have hnodot : unit '.' ∉ sign ++ ofNat whole := by
    intro hdot
    rcases List.mem_append.mp hdot with h | h
    · exact (hsign _ h).2 rfl
    · exact absurd (digits_ofNat whole _ h) (by decide)
  have hidx : (sign ++ ofNat whole ++ unit '.' :: padStart (ofNat frac) 7).idxOf? (unit '.') =
      some (sign ++ ofNat whole).length := idxOf_mark hnodot
  have hlength : (padStart (ofNat frac) 7).length = 7 := length_padStart_eq (length_ofNat_le hfrac)
  have hpad : padEnd (padStart (ofNat frac) 7) 7 = padStart (ofNat frac) 7 := by
    rw [padEnd, hlength]
    exact List.append_nil _
  have hne : padStart (ofNat frac) 7 ≠ [] := List.ne_nil_of_length_pos (by omega)
  have hread := toBigInt_digits (isDigit_of_mem_padStart (digits_ofNat frac)) hne
  rw [digitsValue_padStart, digitsValue_ofNat] at hread
  have htrim := trim_eq_self (@mem_amountText sign whole frac (fun u hu => (hsign u hu).1))
  have hdrop : (sign ++ ofNat whole ++ unit '.' :: padStart (ofNat frac) 7).drop ((sign ++ ofNat whole).length + 1) =
      padStart (ofNat frac) 7 := by
    rw [List.drop_add_one_eq_tail_drop, List.drop_left, List.tail_cons]
  have htake : (padStart (ofNat frac) 7).take 7 = padStart (ofNat frac) 7 := List.take_of_length_le hlength.le
  simp only [toStroops, htrim, hidx, hdrop, htake, hpad, hread, List.take_left, hwhole, Option.bind_some, Option.map_some]

theorem fromStroops_eq (x : Int) : fromStroops x =
    (if x < 0 then [unit '-'] else []) ++ ofNat (x.natAbs / 10000000) ++ unit '.' :: padStart (ofNat (x.natAbs % 10000000)) 7 := by
  have habs : (if x < 0 then -x else x) = x.natAbs := by
    split <;> omega
  have hquot : (x.natAbs : Int).tdiv stroop = (x.natAbs / 10000000 : Nat) := rfl
  have hrem : (x.natAbs : Int).tmod stroop = (x.natAbs % 10000000 : Nat) := rfl
  simp only [fromStroops, habs, hquot, hrem, intText, Int.natAbs_natCast, if_neg (Int.natCast_nonneg _).not_gt]

/-- The whole part alone takes the sign of the text. -/
theorem toStroops_fromStroops (x : Int) : toStroops (fromStroops x) =
    some ((if x < 0 then -((x.natAbs / 10000000 : Nat) : Int) else (x.natAbs / 10000000 : Nat)) * stroop +
      (x.natAbs % 10000000 : Nat)) := by
  have hfrac : x.natAbs % 10000000 < 10 ^ 7 := by omega
  have hdigits := digits_ofNat (x.natAbs / 10000000)
  have hne := ofNat_ne_nil (x.natAbs / 10000000)
  rw [fromStroops_eq]
  by_cases hneg : x < 0
  · rw [if_pos hneg, if_pos hneg]
    have hsign : ∀ u ∈ [unit '-'], isSpace u = false ∧ u ≠ unit '.' := fun u hu => by
      rw [List.mem_singleton.mp hu]
      decide
    exact toStroops_amountText hsign (by rw [List.singleton_append, toBigInt_minus hdigits hne, digitsValue_ofNat]) hfrac
  · rw [if_neg hneg, if_neg hneg]
    exact toStroops_amountText nofun (by rw [List.nil_append, toBigInt_digits hdigits hne, digitsValue_ofNat]) hfrac

/-- Of the negative amounts only the whole ones are read back. -/
theorem roundTrip_iff (x : Int) : toStroops (fromStroops x) = some x ↔ 0 ≤ x ∨ stroop ∣ x := by
  have hstroop : stroop = 10000000 := rfl
  rw [toStroops_fromStroops, Option.some_inj, hstroop]
  by_cases hneg : x < 0
  · rw [if_pos hneg]
    omega
  · rw [if_neg hneg]
    omega

/-- A loss of five stroops is read as a gain. -/
theorem not_roundTrip : ¬∀ x : Int, toStroops (fromStroops x) = some x := by
  intro htrip
  have hloss := htrip (-5)
  rw [toStroops_fromStroops, Option.some_inj] at hloss
  exact absurd hloss (by decide)

end Savitools.Simulator.StroopTexts

namespace Savitools.Simulator.SlippageVerdicts

open Strings.CodeUnits Json.Numbers Json.Doubles Json.Wholes Json.Roundings Common.Exceptions LpMath StroopTexts SlippageLab

/-- The variable leg after a move, where nothing is refused. -/
def moved (direction : SlippageDirection) (amount bps : Int) : Int :=
  match direction with
  | .strictSend => amount * (10000 - bps) / 10000
  | .strictReceive => (amount * (10000 + bps) + 9999) / 10000

/-- The percentage that is reported for hundredths of a percent. -/
def percentAt (bps : Int) : Number := roundTo (some (overNat 100 (ofBigInt bps))) 2

theorem checkedScale_eq {amount bps : Int} (hamount : 0 ≤ amount) (hbps : 0 ≤ bps) :
    checkedScale amount bps = .ok (amount * bps) := by
  rw [checkedScale, if_neg (by omega), if_neg (by omega)]

theorem scaleDown_eq {amount bps : Int} (hamount : 0 ≤ amount) (hbps : 0 ≤ bps) :
    scaleDown amount bps = .ok (amount * bps / 10000) := by
  rw [scaleDown, checkedScale_eq hamount hbps]
  exact congrArg Except.ok (Int.tdiv_eq_ediv_of_nonneg (Int.mul_nonneg hamount hbps))

theorem scaleUp_eq {amount bps : Int} (hamount : 0 ≤ amount) (hbps : 0 ≤ bps) :
    scaleUp amount bps = .ok ((amount * bps + 9999) / 10000) := by
  have hproduct := Int.mul_nonneg hamount hbps
  have hround : amount * bps + FULL_SCALE_BPS - 1 = amount * bps + 9999 := by
    rw [FULL_SCALE_BPS]
    omega
  rw [scaleUp, checkedScale_eq hamount hbps, Except.map, hround]
  exact congrArg Except.ok (Int.tdiv_eq_ediv_of_nonneg (by omega))

theorem movedAmount_eq {label : Text} {direction : SlippageDirection} {amount bps : Int} (hamount : 0 ≤ amount)
    (hbps : 0 ≤ bps) (hfull : bps ≤ 10000) : movedAmount label direction amount bps = .ok (moved direction amount bps) := by
  unfold movedAmount
  rw [FULL_SCALE_BPS, if_neg (by omega)]
  cases direction with
  | strictSend => exact scaleDown_eq hamount (by omega)
  | strictReceive => exact scaleUp_eq hamount (by omega)

/-- A percentage of two decimals is reported as the double nearest to it, which is read back. -/
theorem percentAt_spec {bps : Int} (hbps : 0 ≤ bps) (hfull : bps ≤ 10000) :
    ∃ q : Rat, percentAt bps = .finite q ∧ |q - bps / 100| ≤ 1 / 2 ^ 47 ∧ percentToBps (some (.finite q)) = .ok bps := by
  have hcast : (0 : Rat) ≤ bps := by exact_mod_cast hbps
  have hcastFull : (bps : Rat) ≤ 10000 := by exact_mod_cast hfull
  obtain ⟨q, hq, hnonneg, herror⟩ := round_error (r := bps / 100) (k := 7) (by positivity) (by norm_num; linarith) (by decide)
  norm_num at herror
  obtain ⟨hlow, hhigh⟩ := abs_le.mp herror
  obtain ⟨scaled, hscaled, hscaledNonneg, hscaledError⟩ :=
    round_error (r := q * (100 : Nat)) (k := 14) (by positivity) (by norm_num; linarith) (by decide)
  norm_num at hscaledError
  obtain ⟨hscaledLow, hscaledHigh⟩ := abs_le.mp hscaledError
  have htimes : roundHalfUp (timesNat 100 (.finite q)) = .ofInt bps := by
    rw [timesNat, hscaled]
    exact roundHalfUp_of_near (abs_lt.mpr ⟨by linarith, by linarith⟩)
  have hover : overNat 100 (.ofInt bps) = .finite q := hq
  have hexact : ofBigInt bps = .ofInt bps := exact_of_le hbps (by omega)
  refine ⟨q, ?_, by norm_num; exact herror, ?_⟩
  · rw [percentAt, hexact, hover, roundTo, abs_of_nonneg hnonneg]
    rw [if_neg (not_lt.mpr hnonneg), show (10 ^ 2 : Nat) = 100 by decide, htimes, hover]
  · have hneg : ¬(Rat.ofInt bps) < 0 := not_lt.mpr hcast
    rw [percentToBps, htimes, Number.ofInt, scaledToBps, if_neg hneg]
    exact congrArg Except.ok (Int.floor_intCast (R := Rat) bps)

theorem bpsToPercent_eq {bps : Int} (hbps : 0 ≤ bps) : bpsToPercent bps = .ok (percentAt bps) := by
  rw [bpsToPercent, if_neg (by omega), percentAt]

-- From here on it is known by its value alone; to unfold it is to divide.
attribute [irreducible] percentAt

theorem percentToBps_percentAt {bps : Int} (hbps : 0 ≤ bps) (hfull : bps ≤ 10000) :
    percentToBps (some (percentAt bps)) = .ok bps := by
  obtain ⟨q, hq, -, hread⟩ := percentAt_spec hbps hfull
  rw [hq, hread]

/-- The reported percentages are ordered as what they stand for. -/
theorem gt_percentAt {a b : Int} (ha : 0 ≤ a) (haFull : a ≤ 10000) (hb : 0 ≤ b) (hbFull : b ≤ 10000) :
    gt (some (percentAt a)) (some (percentAt b)) = true ↔ b < a := by
  have hgt {a b : Int} (ha : 0 ≤ a) (haFull : a ≤ 10000) (hb : 0 ≤ b) (hbFull : b ≤ 10000) (hlt : b < a) :
      gt (some (percentAt a)) (some (percentAt b)) = true ∧ gt (some (percentAt b)) (some (percentAt a)) = false := by
    obtain ⟨p, hp, hpError, -⟩ := percentAt_spec ha haFull
    obtain ⟨q, hq, hqError, -⟩ := percentAt_spec hb hbFull
    have hstep : (b : Rat) + 1 ≤ a := by exact_mod_cast hlt
    norm_num at hpError hqError
    have hlow := (abs_le.mp hpError).1
    have hhigh := (abs_le.mp hqError).2
    have hless : q < p := by linarith
    rw [hp, hq]
    exact ⟨decide_eq_true hless, decide_eq_false hless.le.not_gt⟩
  constructor
  · intro h
    by_contra hnot
    rcases (Int.not_lt.mp hnot).lt_or_eq with hlt | rfl
    · rw [(hgt hb hbFull ha haFull hlt).2] at h
      cases h
    · obtain ⟨p, hp, -, -⟩ := percentAt_spec ha haFull
      rw [hp] at h
      exact lt_irrefl p (of_decide_eq_true h)
  · exact fun hlt => (hgt ha haFull hb hbFull hlt).1

theorem nonneg_of_scaledToBps {scaled : Number} {bps : Int} (h : scaledToBps scaled = .ok bps) : 0 ≤ bps := by
  match scaled with
  | .finite q =>
      rw [scaledToBps] at h
      split at h
      · cases h
      · rename_i hneg
        cases h
        exact Int.floor_nonneg.mpr (not_lt.mp hneg)
  | .infinite true => cases h
  | .infinite false => cases h

theorem nonneg_of_percentToBps {percent : Double} {bps : Int} (h : percentToBps percent = .ok bps) : 0 ≤ bps := by
  cases percent with
  | none => cases h
  | some x =>
      cases x with
      | finite q =>
          rw [percentToBps] at h
          exact nonneg_of_scaledToBps h
      | infinite negative => cases h

theorem readPercent_ok {percent : Double} {label : Text} {bps : Int} (h : readPercent percent label = .ok bps) :
    percentToBps percent = .ok bps ∧ 0 ≤ bps ∧ bps ≤ 10000 := by
  rw [readPercent] at h
  cases hread : percentToBps percent with
  | error error =>
      rw [hread] at h
      cases h
  | ok read =>
      rw [hread] at h
      dsimp only at h
      split at h
      · cases h
      · rename_i hfull
        cases h
        exact ⟨rfl, nonneg_of_percentToBps hread, Int.not_lt.mp hfull⟩

/-- The headroom of a tolerance at a move. -/
def headroomAt (direction : SlippageDirection) (amount moveBps bps : Int) : Int :=
  headroomOf direction (moved direction amount moveBps) (moved direction amount bps)

def row (direction : SlippageDirection) (amount moveBps bps : Int) : SlippageScenarioOutcome where
  slippagePercent := percentAt bps
  guarantee := fromStroops (moved direction amount bps)
  adverseAmount := fromStroops (moved direction amount moveBps)
  headroom := fromStroops (headroomAt direction amount moveBps bps)
  headroomPercent := percentOf (headroomAt direction amount moveBps bps) amount 4
  tolerableMovePercent := percentAt bps
  verdict := verdictOf (headroomAt direction amount moveBps bps)

/-- What is read of an input that is not refused: the move and the tolerances, in hundredths of a percent. -/
structure Reading (input : SlippageComparisonInput) (moveBps : Int) (bps : List Int) : Prop where
  variable_nonneg : 0 ≤ input.variableAmountStroops
  fixed_nonneg : 0 ≤ input.fixedAmountStroops
  scenarios_ne_nil : input.slippageScenarios ≠ []
  move : percentToBps input.adverseMovePercent = .ok moveBps
  move_range : 0 ≤ moveBps ∧ moveBps ≤ 10000
  given : ∀ percent ∈ input.slippageScenarios, ∃ b ∈ bps, percentToBps percent = .ok b
  read : ∀ b ∈ bps, ∃ percent ∈ input.slippageScenarios, percentToBps percent = .ok b
  range : ∀ b ∈ bps, 0 ≤ b ∧ b ≤ 10000

/-- The result for what has been read. -/
def comparison (input : SlippageComparisonInput) (moveBps : Int) (bps : List Int) (dispersion : Option Number) :
    SlippageComparisonResult :=
  let direction := input.direction
  let amount := input.variableAmountStroops
  let recommended := (uniqueBps bps).find? fun b => decide (moveBps ≤ b)
  { direction := direction
    guaranteeField := guaranteeField direction
    fixedAmount := fromStroops input.fixedAmountStroops
    quotedVariableAmount := fromStroops amount
    adverseMovePercent := percentAt moveBps
    adverseVariableAmount := fromStroops (moved direction amount moveBps)
    scenarios := (uniqueBps bps).map (row direction amount moveBps)
    tightestSlippagePercent := percentAt ((uniqueBps bps).headD 0)
    widestSlippagePercent := percentAt ((uniqueBps bps).getLastD 0)
    recommendedSlippagePercent := recommended.map percentAt
    recommendedHeadroomPercent :=
      recommended.map fun b => roundTo (sub (some (percentAt b)) (some (percentAt moveBps))) 4
    exceededByEveryScenario := recommended.isNone
    routeDispersionPercent := dispersion }

theorem mem_uniqueBps {b : Int} {bps : List Int} : b ∈ uniqueBps bps ↔ b ∈ bps :=
  (List.mem_insertionSort _).trans List.mem_dedup

theorem pairwise_uniqueBps (bps : List Int) : (uniqueBps bps).Pairwise (· < ·) := by
  have hsorted : (uniqueBps bps).Pairwise (· ≤ ·) := List.pairwise_insertionSort _ _
  have hdistinct : (uniqueBps bps).Nodup := (List.perm_insertionSort _ _).nodup_iff.mpr (List.nodup_dedup bps)
  exact (hsorted.and hdistinct).imp fun h => lt_of_le_of_ne h.1 h.2

theorem scenarioOutcome_eq {direction : SlippageDirection} {amount moveBps bps : Int} (hamount : 0 ≤ amount)
    (hrange : 0 ≤ bps ∧ bps ≤ 10000) :
    scenarioOutcome direction amount (moved direction amount moveBps) bps = .ok (row direction amount moveBps bps) := by
  rw [scenarioOutcome, guaranteeAmount, movedAmount_eq hamount hrange.1 hrange.2, bpsToPercent_eq hrange.1]
  rfl

theorem findCovering_eq {direction : SlippageDirection} {amount moveBps : Int} {bps : List Int}
    (hrange : ∀ b ∈ bps, 0 ≤ b ∧ b ≤ 10000) :
    findCovering moveBps (bps.map (row direction amount moveBps)) =
      .ok ((bps.find? fun b => decide (moveBps ≤ b)).map (row direction amount moveBps)) := by
  induction bps with
  | nil => rfl
  | cons b bps ih =>
      obtain ⟨hb, hbFull⟩ := hrange b List.mem_cons_self
      have hread : percentToBps (some (row direction amount moveBps b).slippagePercent) = .ok b :=
        percentToBps_percentAt hb hbFull
      rw [List.map_cons, findCovering, hread, Except.bind, List.find?_cons]
      by_cases hmove : moveBps ≤ b
      · rw [if_pos hmove, decide_eq_true hmove]
        rfl
      · rw [if_neg hmove, decide_eq_false hmove]
        exact ih fun c hc => hrange c (List.mem_cons_of_mem _ hc)

section Reading

variable {input : SlippageComparisonInput} {moveBps : Int} {bps : List Int}

theorem headD_range (hrange : ∀ b ∈ bps, 0 ≤ b ∧ b ≤ 10000) : 0 ≤ (uniqueBps bps).headD 0 := by
  cases hsorted : uniqueBps bps with
  | nil => exact le_rfl
  | cons b rest => exact (hrange b (mem_uniqueBps.mp (hsorted ▸ List.mem_cons_self))).1

theorem getLastD_range (hrange : ∀ b ∈ bps, 0 ≤ b ∧ b ≤ 10000) : 0 ≤ (uniqueBps bps).getLastD 0 := by
  rw [List.getLastD_eq_getLast?]
  cases hlast : (uniqueBps bps).getLast? with
  | none => exact le_rfl
  | some b => exact (hrange b (mem_uniqueBps.mp (List.mem_of_getLast? hlast))).1

/-- What has been read decides the result, but for the dispersion of the routes. -/
theorem compareSlippageScenarios_eq (h : Reading input moveBps bps)
    (hmove : readPercent input.adverseMovePercent (text "adverseMovePercent") = .ok moveBps)
    (hbps : input.slippageScenarios.mapM (fun percent => readPercent percent (text "slippageScenarios")) = .ok bps) :
    compareSlippageScenarios input =
      (routeDispersionPercent input.direction input.variableAmountStroops input.bestVariableAmountStroops).map
        (comparison input moveBps bps) := by
  have hlegs : readLegs input = .ok (input.fixedAmountStroops, input.variableAmountStroops) := by
    rw [readLegs, if_neg h.variable_nonneg.not_gt, if_neg h.fixed_nonneg.not_gt]
  have hscenarios : requireScenarios input.slippageScenarios = .ok () := by
    rw [requireScenarios, if_neg h.scenarios_ne_nil]
  have hadverse : adverseVariableAmount input.direction input.variableAmountStroops moveBps =
      .ok (moved input.direction input.variableAmountStroops moveBps) :=
    movedAmount_eq h.variable_nonneg h.move_range.1 h.move_range.2
  have hunique : ∀ b ∈ uniqueBps bps, 0 ≤ b ∧ b ≤ 10000 := fun b hb => h.range b (mem_uniqueBps.mp hb)
  have hrows := mapM_eq_map (f := scenarioOutcome input.direction input.variableAmountStroops
      (moved input.direction input.variableAmountStroops moveBps)) fun b hb => scenarioOutcome_eq h.variable_nonneg (hunique b hb)
  rw [compareSlippageScenarios, hlegs, hscenarios, hmove, hbps]
  change Except.bind (adverseVariableAmount input.direction input.variableAmountStroops moveBps) _ = _
  rw [hadverse]
  change Except.bind (List.mapM _ (uniqueBps bps)) _ = _
  rw [hrows]
  change Except.bind (findCovering moveBps _) _ = _
  rw [findCovering_eq hunique]
  change Except.bind (bpsToPercent moveBps) _ = _
  rw [bpsToPercent_eq h.move_range.1]
  change Except.bind (bpsToPercent _) _ = _
  rw [bpsToPercent_eq (headD_range h.range)]
  change Except.bind (bpsToPercent _) _ = _
  rw [bpsToPercent_eq (getLastD_range h.range)]
  change Except.bind (routeDispersionPercent _ _ _) _ = _
  cases routeDispersionPercent input.direction input.variableAmountStroops input.bestVariableAmountStroops with
  | error error => rfl
  | ok dispersion =>
      refine congrArg Except.ok ?_
      simp only [comparison, Option.map_map, Option.isNone_map]
      rfl

theorem reading_of (hvariable : 0 ≤ input.variableAmountStroops) (hfixed : 0 ≤ input.fixedAmountStroops)
    (hne : input.slippageScenarios ≠ [])
    (hmove : readPercent input.adverseMovePercent (text "adverseMovePercent") = .ok moveBps)
    (hbps : input.slippageScenarios.mapM (fun percent => readPercent percent (text "slippageScenarios")) = .ok bps) :
    Reading input moveBps bps where
  variable_nonneg := hvariable
  fixed_nonneg := hfixed
  scenarios_ne_nil := hne
  move := (readPercent_ok hmove).1
  move_range := (readPercent_ok hmove).2
  given := by
    intro percent hpercent
    obtain ⟨b, hb, hread⟩ := (mapM_ok hbps).1 percent hpercent
    exact ⟨b, hb, (readPercent_ok hread).1⟩
  read := by
    intro b hb
    obtain ⟨percent, hpercent, hread⟩ := (mapM_ok hbps).2 b hb
    exact ⟨percent, hpercent, (readPercent_ok hread).1⟩
  range := by
    intro b hb
    obtain ⟨percent, -, hread⟩ := (mapM_ok hbps).2 b hb
    exact (readPercent_ok hread).2

theorem readLegs_ok {legs : Int × Int} (h : readLegs input = .ok legs) :
    0 ≤ input.variableAmountStroops ∧ 0 ≤ input.fixedAmountStroops := by
  rw [readLegs] at h
  split at h
  · cases h
  · rename_i hvariable
    split at h
    · cases h
    · rename_i hfixed
      exact ⟨Int.not_lt.mp hvariable, Int.not_lt.mp hfixed⟩

/-- Whatever is not refused has been read. -/
theorem compareSlippageScenarios_ok {result : SlippageComparisonResult} (h : compareSlippageScenarios input = .ok result) :
    ∃ moveBps bps dispersion, Reading input moveBps bps ∧ result = comparison input moveBps bps dispersion := by
  obtain ⟨legs, hlegs, hread⟩ := bind_eq_ok.mp h
  obtain ⟨_, hscenarios, hread⟩ := bind_eq_ok.mp hread
  obtain ⟨moveBps, hmove, hread⟩ := bind_eq_ok.mp hread
  obtain ⟨bps, hbps, -⟩ := bind_eq_ok.mp hread
  obtain ⟨hvariable, hfixed⟩ := readLegs_ok hlegs
  have hne : input.slippageScenarios ≠ [] := by
    intro hnil
    rw [requireScenarios, if_pos hnil] at hscenarios
    cases hscenarios
  have hreading := reading_of hvariable hfixed hne hmove hbps
  rw [compareSlippageScenarios_eq hreading hmove hbps] at h
  obtain ⟨dispersion, -, rfl⟩ := map_eq_ok_iff.mp h
  exact ⟨moveBps, bps, dispersion, hreading, rfl⟩

end Reading

/-- A percentage between 0 and 100. -/
def Percentage (percent : Double) : Prop := ∃ q : Rat, percent = some (.finite q) ∧ 0 ≤ q ∧ q ≤ 100

theorem readPercent_percentage {percent : Double} (h : Percentage percent) (label : Text) :
    ∃ bps, readPercent percent label = .ok bps := by
  obtain ⟨q, rfl, hnonneg, hfull⟩ := h
  obtain ⟨scaled, hscaled, hscaledNonneg, herror⟩ :=
    round_error (r := q * (100 : Nat)) (k := 14) (by positivity) (by norm_num; linarith) (by decide)
  norm_num at herror
  have hhigh := (abs_le.mp herror).2
  have hfloor : 0 ≤ ⌊scaled + 1 / 2⌋ := Int.floor_nonneg.mpr (by linarith)
  have hbelow : ⌊scaled + 1 / 2⌋ ≤ 10000 := by
    refine Int.lt_add_one_iff.mp (Int.floor_lt.mpr ?_)
    push_cast
    linarith
  have hcast : ¬(Rat.ofInt ⌊scaled + 1 / 2⌋) < 0 := by
    have hrat : (0 : Rat) ≤ (⌊scaled + 1 / 2⌋ : Int) := by exact_mod_cast hfloor
    exact not_lt.mpr hrat
  have hround : roundHalfUp (.finite scaled) = .finite (Rat.ofInt ⌊scaled + 1 / 2⌋) := rfl
  have hbps : percentToBps (some (.finite q)) = .ok ⌊scaled + 1 / 2⌋ := by
    rw [percentToBps, timesNat, hscaled, hround, scaledToBps, if_neg hcast]
    exact congrArg Except.ok (Int.floor_intCast (R := Rat) _)
  refine ⟨⌊scaled + 1 / 2⌋, ?_⟩
  rw [readPercent, hbps]
  dsimp only
  rw [FULL_SCALE_BPS, if_neg (by omega)]

/-- The inputs that are meant: amounts that are not negative, and percentages. -/
structure Valid (input : SlippageComparisonInput) : Prop where
  variable_nonneg : 0 ≤ input.variableAmountStroops
  fixed_nonneg : 0 ≤ input.fixedAmountStroops
  best_nonneg : ∀ best, input.bestVariableAmountStroops = some best → 0 ≤ best
  scenarios_ne_nil : input.slippageScenarios ≠ []
  scenarios : ∀ percent ∈ input.slippageScenarios, Percentage percent
  move : Percentage input.adverseMovePercent

theorem exists_routeDispersionPercent (direction : SlippageDirection) (amount : Int) {best : Option Int}
    (h : ∀ b, best = some b → 0 ≤ b) : ∃ dispersion, routeDispersionPercent direction amount best = .ok dispersion := by
  cases best with
  | none => exact ⟨none, rfl⟩
  | some b =>
      simp only [routeDispersionPercent, if_neg (h b rfl).not_gt]
      cases direction with
      | strictSend =>
          dsimp only
          split <;> exact ⟨_, rfl⟩
      | strictReceive =>
          dsimp only
          split <;> exact ⟨_, rfl⟩

/-- None of them is refused. -/
theorem exists_comparison {input : SlippageComparisonInput} (h : Valid input) :
    ∃ result, compareSlippageScenarios input = .ok result := by
  obtain ⟨moveBps, hmove⟩ := readPercent_percentage h.move (text "adverseMovePercent")
  obtain ⟨bps, hbps⟩ := exists_mapM_ok fun percent hpercent =>
    readPercent_percentage (h.scenarios percent hpercent) (text "slippageScenarios")
  obtain ⟨dispersion, hdispersion⟩ :=
    exists_routeDispersionPercent input.direction input.variableAmountStroops h.best_nonneg
  have hreading := reading_of h.variable_nonneg h.fixed_nonneg h.scenarios_ne_nil hmove hbps
  rw [compareSlippageScenarios_eq hreading hmove hbps, hdispersion]
  exact ⟨_, rfl⟩

end Savitools.Simulator.SlippageVerdicts
