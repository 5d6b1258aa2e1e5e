import Mathlib.Data.List.Dedup
import Mathlib.Data.List.Sort
import Savitools.Json.Roundings
import Savitools.Simulator.LpMath

namespace Savitools.Simulator.SlippageLab

open Strings.CodeUnits Json.Numbers Json.Doubles Json.Wholes Json.Roundings LpMath

/-- 100% in hundredths of a percent. -/
def FULL_SCALE_BPS : Int := 10000

inductive SlippageDirection
  | strictSend
  | strictReceive
deriving DecidableEq

inductive SlippageGuaranteeField
  | destinationMin
  | sendMax
deriving DecidableEq

def guaranteeField : SlippageDirection → SlippageGuaranteeField
  | .strictSend => .destinationMin
  | .strictReceive => .sendMax

inductive SlippageVerdict
  | pass
  | fail
  | exact
deriving DecidableEq

/-- `BigInt(scaled)`, of what is not negative. -/
def scaledToBps : Number → Except RangeError Int
  | .finite scaled =>
      if scaled < 0 then .error (.rejected (text "percentToBps: percent must not be negative")) else .ok scaled.floor
  | .infinite true => .error (.rejected (text "percentToBps: percent must not be negative"))
  | .infinite false =>
      .error (.rejected (text "The number Infinity cannot be converted to a BigInt because it is not an integer"))

def percentToBps : Double → Except RangeError Int
  | some (.finite q) => scaledToBps (roundHalfUp (timesNat 100 (.finite q)))
  | _ => .error (.rejected (text "percentToBps: percent must be a finite number"))

/-- A half is rounded away from zero. -/
def roundTo (value : Double) (decimals : Nat) : Number :=
  match value with
  | some (.finite q) =>
      let magnitude := overNat (10 ^ decimals) (roundHalfUp (timesNat (10 ^ decimals) (.finite |q|)))
      if q < 0 then negate magnitude else magnitude
  | _ => .finite 0

def bpsToPercent (bps : Int) : Except RangeError Number :=
  if bps < 0 then .error (.rejected (text "bpsToPercent: bps must not be negative"))
  else .ok (roundTo (some (overNat 100 (ofBigInt bps))) 2)

/-- `part / whole` as a percentage, by way of the nearest parts per million. -/
def percentOf (part whole : Int) (decimals : Nat) : Number :=
  if whole = 0 then .finite 0
  else
    let ppm := ((part.natAbs : Int) * 1000000 * 2 + whole).tdiv (whole * 2)
    let percent := overNat 10000 (ofBigInt ppm)
    roundTo (some (if part < 0 then negate percent else percent)) decimals

def checkedScale (amount bps : Int) : Except RangeError Int :=
  if amount < 0 then .error (.rejected (text "scale: amount must not be negative"))
  else if bps < 0 then .error (.rejected (text "scale: bps must not be negative"))
  else .ok (amount * bps)

def scaleDown (amount bps : Int) : Except RangeError Int :=
  (checkedScale amount bps).map fun product => product.tdiv FULL_SCALE_BPS

def scaleUp (amount bps : Int) : Except RangeError Int :=
  (checkedScale amount bps).map fun product => (product + FULL_SCALE_BPS - 1).tdiv FULL_SCALE_BPS

/-- The variable leg when the rate moves: for strict send it shrinks, for strict receive it grows. -/
def movedAmount (label : Text) (direction : SlippageDirection) (variableAmountStroops bps : Int) : Except RangeError Int :=
  if bps > FULL_SCALE_BPS then .error (.rejected (label ++ text ": must not exceed 100%"))
  else
    match direction with
    | .strictSend => scaleDown variableAmountStroops (FULL_SCALE_BPS - bps)
    | .strictReceive => scaleUp variableAmountStroops (FULL_SCALE_BPS + bps)

def guaranteeAmount (direction : SlippageDirection) (variableAmountStroops slippageBps : Int) : Except RangeError Int :=
  movedAmount (text "slippageBps") direction variableAmountStroops slippageBps

def adverseVariableAmount (direction : SlippageDirection) (variableAmountStroops moveBps : Int) : Except RangeError Int :=
  movedAmount (text "moveBps") direction variableAmountStroops moveBps

structure SlippageComparisonInput where
  direction : SlippageDirection
  fixedAmountStroops : Int
  variableAmountStroops : Int
  slippageScenarios : List Double
  adverseMovePercent : Double
  bestVariableAmountStroops : Option Int

structure SlippageScenarioOutcome where
  slippagePercent : Number
  guarantee : Text
  adverseAmount : Text
  headroom : Text
  headroomPercent : Number
  tolerableMovePercent : Number
  verdict : SlippageVerdict

structure SlippageComparisonResult where
  direction : SlippageDirection
  guaranteeField : SlippageGuaranteeField
  fixedAmount : Text
  quotedVariableAmount : Text
  adverseMovePercent : Number
  adverseVariableAmount : Text
  scenarios : List SlippageScenarioOutcome
  tightestSlippagePercent : Number
  widestSlippagePercent : Number
  recommendedSlippagePercent : Option Number
  recommendedHeadroomPercent : Option Number
  exceededByEveryScenario : Bool
  routeDispersionPercent : Option Number

/-- The fixed leg and the variable one. -/
def readLegs (input : SlippageComparisonInput) : Except RangeError (Int × Int) :=
  if input.variableAmountStroops < 0 then .error (.rejected (text "variableAmountStroops must not be negative"))
  else if input.fixedAmountStroops < 0 then .error (.rejected (text "fixedAmountStroops must not be negative"))
  else .ok (input.fixedAmountStroops, input.variableAmountStroops)

/-- What `percentToBps` throws is replaced, as no message of it speaks of exceeding. -/
def readPercent (percent : Double) (label : Text) : Except RangeError Int :=
  match percentToBps percent with
  | .error _ => .error (.rejected (label ++ text " must be a percentage between 0 and 100"))
  | .ok bps => if bps > FULL_SCALE_BPS then .error (.rejected (label ++ text ": must not exceed 100%")) else .ok bps

/-- Of the headroom, positive always means that the tolerance clears the move. -/
def headroomOf (direction : SlippageDirection) (adverseAmountStroops guaranteeStroops : Int) : Int :=
  match direction with
  | .strictSend => adverseAmountStroops - guaranteeStroops
  | .strictReceive => guaranteeStroops - adverseAmountStroops

def verdictOf (headroomStroops : Int) : SlippageVerdict :=
  if headroomStroops > 0 then .pass else if headroomStroops < 0 then .fail else .exact

def scenarioOutcome (direction : SlippageDirection) (variableStroops adverseAmountStroops bps : Int) :
    Except RangeError SlippageScenarioOutcome :=
  (guaranteeAmount direction variableStroops bps).bind fun guaranteeStroops =>
    (bpsToPercent bps).map fun percent =>
      let headroomStroops := headroomOf direction adverseAmountStroops guaranteeStroops
      { slippagePercent := percent
        guarantee := fromStroops guaranteeStroops
        adverseAmount := fromStroops adverseAmountStroops
        headroom := fromStroops headroomStroops
        headroomPercent := percentOf headroomStroops variableStroops 4
        tolerableMovePercent := percent
        verdict := verdictOf headroomStroops }

/-- The first of the scenarios whose tolerance is at least the move. -/
def findCovering (moveBps : Int) : List SlippageScenarioOutcome → Except RangeError (Option SlippageScenarioOutcome)
  | [] => .ok none
  | scenario :: scenarios =>
      (percentToBps (some scenario.slippagePercent)).bind fun bps =>
        if bps ≥ moveBps then .ok (some scenario) else findCovering moveBps scenarios

def routeDispersionPercent (direction : SlippageDirection) (variableAmountStroops : Int)
    (bestVariableAmountStroops : Option Int) : Except RangeError (Option Number) :=
  match bestVariableAmountStroops with
  | none => .ok none
  | some best =>
      if best < 0 then .error (.rejected (text "bestVariableAmountStroops must not be negative"))
      else
        let behind :=
          match direction with
          | .strictSend => best - variableAmountStroops
          | .strictReceive => variableAmountStroops - best
        if behind ≤ 0 then .ok (some (.finite 0)) else .ok (some (percentOf behind best 4))

/-- The tolerances once each and in ascending order. -/
def uniqueBps (bps : List Int) : List Int := bps.dedup.insertionSort (· ≤ ·)

def requireScenarios (slippageScenarios : List Double) : Except RangeError Unit :=
  if slippageScenarios = [] then
    .error (.rejected (text "compareSlippageScenarios: at least one scenario is required"))
  else .ok ()

def compareSlippageScenarios (input : SlippageComparisonInput) : Except RangeError SlippageComparisonResult := do
  let direction := input.direction
  let (fixedStroops, variableStroops) ← readLegs input
  requireScenarios input.slippageScenarios
  let moveBps ← readPercent input.adverseMovePercent (text "adverseMovePercent")
  let bps ← input.slippageScenarios.mapM fun percent => readPercent percent (text "slippageScenarios")
  let adverseAmountStroops ← adverseVariableAmount direction variableStroops moveBps
  let scenarios ← (uniqueBps bps).mapM (scenarioOutcome direction variableStroops adverseAmountStroops)
  let recommended ← findCovering moveBps scenarios
  let movePercent ← bpsToPercent moveBps
  let tightest ← bpsToPercent ((uniqueBps bps).headD 0)
  let widest ← bpsToPercent ((uniqueBps bps).getLastD 0)
  let dispersion ← routeDispersionPercent direction variableStroops input.bestVariableAmountStroops
  return {
    direction := direction
    guaranteeField := guaranteeField direction
    fixedAmount := fromStroops fixedStroops
    quotedVariableAmount := fromStroops variableStroops
    adverseMovePercent := movePercent
    adverseVariableAmount := fromStroops adverseAmountStroops
    scenarios := scenarios
    tightestSlippagePercent := tightest
    widestSlippagePercent := widest
    recommendedSlippagePercent := recommended.map (·.slippagePercent)
    recommendedHeadroomPercent :=
      recommended.map fun scenario => roundTo (sub (some scenario.slippagePercent) (some movePercent)) 4
    exceededByEveryScenario := recommended.isNone
    routeDispersionPercent := dispersion }

end Savitools.Simulator.SlippageLab
