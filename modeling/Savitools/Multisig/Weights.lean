import Savitools.Common.Exceptions
import Savitools.Json.Roundings
import Savitools.Searches.Covers

namespace Savitools.Multisig.Weights

open Strings.CodeUnits Strings.Decimals Json.Conversions Json.Doubles Json.Roundings Stores.Entries

def MAX_SIGNER_WEIGHT : Int := 255

def MAX_SIGNERS : Nat := 21

inductive OperationThresholdKind
  | low | medium | high
deriving DecidableEq

inductive MultisigRiskCode
  | thresholdUnreachable | thresholdZero | singleSignerControls | requiresEverySigner | requiredSignerMissing
  | requiredSignerUnsigned | zeroWeightSigners | redundantSigner | quorumSinglePointOfFailure | duplicateSigner
  | thresholdAboveTotalWeight
deriving DecidableEq

inductive MultisigRiskSeverity
  | critical | warning | info
deriving DecidableEq

structure MultisigRisk where
  code : MultisigRiskCode
  severity : MultisigRiskSeverity
  message : Text
  signers : Option (List Text)
deriving DecidableEq

/-- Weights are whole numbers, as the DTO asks. -/
structure MultisigSignerInput where
  key : Text
  weight : Int
  signed : Bool
  required : Bool
deriving DecidableEq

structure MultisigSimulationInput where
  threshold : Int
  signers : List MultisigSignerInput
  lowThreshold : Option Int
  highThreshold : Option Int
  minTime : Option Int
  maxTime : Option Int
  now : Option Int

structure MultisigSignerOutcome where
  key : Text
  weight : Int
  signed : Bool
  required : Bool
  shareOfTotalPercent : Double
  shareOfThresholdPercent : Double
  controlsAccount : Bool
  indispensable : Bool
  redundant : Bool
deriving DecidableEq

structure MultisigThresholdOutcome where
  kind : OperationThresholdKind
  requiredWeight : Int
  collectedWeight : Int
  deficit : Int
  cleared : Bool
deriving DecidableEq

structure TimeBounds where
  minTime : Option Int
  maxTime : Option Int
  notYetActive : Bool
  expired : Bool
  invalid : Bool
deriving DecidableEq

structure MultisigSimulationResult where
  threshold : Int
  lowThreshold : Int
  mediumThreshold : Int
  highThreshold : Int
  totalWeight : Int
  signedWeight : Int
  deficit : Int
  surplus : Int
  progressPercent : Double
  satisfied : Bool
  canSubmit : Bool
  signers : List MultisigSignerOutcome
  operationThresholds : List MultisigThresholdOutcome
  outstandingRequiredSigners : List Text
  minimumSignersNeeded : Option (List Text)
  minimumSetWeight : Int
  duplicateSigners : List Text
  risks : List MultisigRisk
  timeBounds : TimeBounds
deriving DecidableEq

def assertWeight (value : Int) (label : Text) : Except Text Unit :=
  if value < 0 || MAX_SIGNER_WEIGHT < value then
    .error (label ++ text " must be an integer between 0 and " ++ intText MAX_SIGNER_WEIGHT)
  else .ok ()

def assertThreshold (value : Int) (label : Text) : Except Text Unit := assertWeight value label

/-- The loop over the signers, with the keys seen so far. What it returns are the keys that come more than once. -/
def checkSigners (seen duplicates : List Text) : List MultisigSignerInput → Except Text (List Text)
  | [] => .ok duplicates
  | signer :: signers => do
      let duplicates :=
        if seen.contains signer.key && !duplicates.contains signer.key then duplicates ++ [signer.key] else duplicates
      assertWeight signer.weight (text "signer " ++ signer.key ++ text " weight")
      if signer.required && signer.weight != 0 then
        .error (text "signer " ++ signer.key ++ text " is required and must have weight 0")
      else checkSigners (signer.key :: seen) duplicates signers

def sumWeights (signers : List MultisigSignerInput) : Int := signers.foldl (fun sum signer => sum + signer.weight) 0

/-- `Math.round((part / whole) * 10_000) / 100` -/
def hundredths (part whole : Int) : Double :=
  div ((mul (div (ofInt part) (ofInt whole)) (ofInt 10000)).map roundHalfUp) (ofInt 100)

def percentOf (part whole : Int) : Double := if whole = 0 then ofInt 0 else hundredths part whole

def buildSignerOutcomes (signers : List MultisigSignerInput) (totalWeight threshold : Int) : List MultisigSignerOutcome :=
  signers.map fun signer =>
    let remaining := totalWeight - signer.weight
    { key := signer.key
      weight := signer.weight
      signed := signer.signed
      required := signer.required
      shareOfTotalPercent := percentOf signer.weight totalWeight
      shareOfThresholdPercent := percentOf signer.weight threshold
      controlsAccount := 0 < threshold && threshold ≤ signer.weight
      indispensable := remaining < threshold
      redundant := threshold ≤ remaining }

-- How strings are ordered by the locale.
variable (localeCompare : Text → Text → Int)

def compareSolutions (left right : List Text) : Int :=
  if left.length ≠ right.length then (left.length : Int) - right.length
  else localeCompare (join (unit ' ') left) (join (unit ' ') right)

def compareSigners (left right : MultisigSignerInput) : Int :=
  if left.weight = right.weight then localeCompare left.key right.key else right.weight - left.weight

/-- What one solution of the snapshot adds to the map when the signer joins it. -/
def addSolution (total : Int) (signer : MultisigSignerInput) (best : List (Int × List Text)) (entry : Int × List Text) :
    List (Int × List Text) :=
  let reached := entry.1 + signer.weight
  if total < reached then best
  else
    let candidate := sortTexts (entry.2 ++ [signer.key])
    match best.lookup reached with
    | none => put reached candidate best
    | some incumbent => if compareSolutions localeCompare candidate incumbent < 0 then put reached candidate best else best

def addSigner (total : Int) (best : List (Int × List Text)) (signer : MultisigSignerInput) : List (Int × List Text) :=
  if signer.weight = 0 then best else best.foldl (addSolution localeCompare total signer) best

/-- One pass through the last loop, with the winner and its weight. -/
def betterOf (deficit : Int) (winner : Option (Int × List Text)) (entry : Int × List Text) : Option (Int × List Text) :=
  if entry.1 < deficit then winner
  else
    match winner with
    | none => some entry
    | some (winnerWeight, keys) =>
        if compareSolutions localeCompare entry.2 keys < 0 || (entry.2.length = keys.length && entry.1 < winnerWeight) then
          some entry
        else winner

/-- `null` is none. -/
def solveMinimumSigners (signers : List MultisigSignerInput) (deficit : Int) : Option (List Text) :=
  if deficit ≤ 0 then some []
  else
    let total := sumWeights signers
    if total < deficit then none
    else
      let sorted := signers.insertionSort fun left right => compareSigners localeCompare left right ≤ 0
      let best := sorted.foldl (addSigner localeCompare total) [(0, [])]
      (best.foldl (betterOf localeCompare deficit) none).map (·.2)

def severityOrder : MultisigRiskSeverity → Nat
  | .critical => 0
  | .warning => 1
  | .info => 2

structure RiskContext where
  threshold : Int
  signers : List MultisigSignerInput
  totalWeight : Int
  outstandingRequiredSigners : List Text
  duplicateSigners : List Text
  minimumSignersNeeded : Option (List Text)

/-- What `collectRisks` looks for in turn, and what it finds of it. -/
def findings (context : RiskContext) : List (Option MultisigRisk) :=
  let { threshold, signers, totalWeight, outstandingRequiredSigners, duplicateSigners, minimumSignersNeeded } := context
  let weighted := signers.filter fun signer => 0 < signer.weight
  let redundant := weighted.filter fun signer => threshold ≤ totalWeight - signer.weight
  let everySignerRequired := 0 < weighted.length && weighted.all fun signer => totalWeight - signer.weight < threshold
  let zeroWeight := (signers.filter fun signer => !signer.required && signer.weight = 0).map (·.key)
  [if threshold = 0 then
    some ⟨.thresholdZero, .critical, text ("A threshold of 0 authorises the operation without any signature, " ++
      "so the account is not actually protected."), none⟩
  else none,
  if totalWeight = 0 then
    some ⟨.thresholdUnreachable, .critical, text ("No signer carries weight, so no set of signatures can reach a " ++
      "threshold of 1 or more."), none⟩
  else if totalWeight < threshold then
    some ⟨.thresholdAboveTotalWeight, .critical, text "Total weight " ++ intText totalWeight ++
      text " is below the threshold of " ++ intText threshold ++ text ", so the operation can never be authorised.",
      none⟩
  else none,
  (weighted.find? fun signer => 0 < threshold && threshold ≤ signer.weight).map fun controller =>
    ⟨.singleSignerControls, .warning, text "Signer weight " ++ intText controller.weight ++
      text " alone reaches the threshold of " ++ intText threshold ++ text ".", some [controller.key]⟩,
  if everySignerRequired then
    some ⟨.requiresEverySigner, .warning, text ("Every weighted signer has to sign: removing any one of them " ++
      "leaves the account below the threshold."), none⟩
  else none,
  minimumSignersNeeded.bind fun needed =>
    if needed.length = 1 && 1 < weighted.length then
      some ⟨.quorumSinglePointOfFailure, .warning, text ("A single outstanding signature completes the quorum, " ++
        "so that signer can stall the account on its own."), some needed⟩
    else none,
  if 0 < outstandingRequiredSigners.length then
    some ⟨.requiredSignerUnsigned, .critical, text "Required " ++
      (if outstandingRequiredSigners.length = 1 then text "signer is" else text "signers are") ++
      text " still outstanding: the account cannot be modified until they sign.", some outstandingRequiredSigners⟩
  else none,
  if 0 < zeroWeight.length then
    some ⟨.zeroWeightSigners, .info,
      text "Zero-weight signers are recorded on the account but add no weight to the quorum.", some zeroWeight⟩
  else none,
  if 0 < redundant.length then
    some ⟨.redundantSigner, .info, text "Dropping " ++
      (if redundant.length = 1 then text "this signer" else text "these signers") ++
      text " leaves the remaining weight at or above the threshold.", some (redundant.map (·.key))⟩
  else none,
  if 0 < duplicateSigners.length then
    some ⟨.duplicateSigner, .warning, text ("The same key appears more than once. Stellar counts each key once, " ++
      "so the duplicates inflate the totals in this simulation only."), some duplicateSigners⟩
  else none]

def collectRisks (context : RiskContext) : List MultisigRisk :=
  (findings context).reduceOption.insertionSort fun left right => severityOrder left.severity ≤ severityOrder right.severity

/-- `clock` is the time of the wall clock, in seconds. -/
def evaluateTimeBounds (clock : Int) (input : MultisigSimulationInput) : Except Text TimeBounds :=
  let now := input.now.getD clock
  if (match input.minTime, input.maxTime with
      | some minTime, some maxTime => decide (maxTime < minTime)
      | _, _ => false) then
    .error (text "minTime must not be after maxTime")
  else
    let notYetActive := input.minTime.any fun minTime => now < minTime
    let expired := input.maxTime.any fun maxTime => maxTime < now
    .ok ⟨input.minTime, input.maxTime, notYetActive, expired, notYetActive || expired⟩

/-- What `simulateMultisig` returns, once its checks have passed. -/
def resultOf (input : MultisigSimulationInput) (lowThreshold highThreshold : Int) (duplicates : List Text)
    (timeBounds : TimeBounds) : MultisigSimulationResult :=
  let { threshold, signers, .. } := input
  let totalWeight := sumWeights signers
  let signedWeight := sumWeights (signers.filter (·.signed))
  let satisfied : Bool := threshold ≤ signedWeight
  let outstandingRequiredSigners := (signers.filter fun signer => signer.required && !signer.signed).map (·.key)
  let outstanding := signers.filter fun signer => !signer.signed
  let minimumSignersNeeded :=
    if satisfied then some [] else solveMinimumSigners localeCompare outstanding (threshold - signedWeight)
  { threshold
    lowThreshold
    mediumThreshold := threshold
    highThreshold
    totalWeight
    signedWeight
    deficit := max 0 (threshold - signedWeight)
    surplus := max 0 (signedWeight - threshold)
    progressPercent :=
      if threshold = 0 then ofInt 100
      else
        let percent := hundredths signedWeight threshold
        if gt percent (ofInt 100) then ofInt 100 else percent
    satisfied
    canSubmit := satisfied && outstandingRequiredSigners.length = 0
    signers := buildSignerOutcomes signers totalWeight threshold
    operationThresholds :=
      [(OperationThresholdKind.low, lowThreshold), (.medium, threshold), (.high, highThreshold)].map
        fun (kind, requiredWeight) =>
          ⟨kind, requiredWeight, signedWeight, max 0 (requiredWeight - signedWeight), requiredWeight ≤ signedWeight⟩
    outstandingRequiredSigners
    minimumSignersNeeded
    minimumSetWeight :=
      match minimumSignersNeeded with
      | none => 0
      | some keys =>
          keys.foldl
            (fun sum key => sum + (((signers.find? fun entry => entry.key = key).map (·.weight)).getD 0)) 0
    duplicateSigners := sortTexts duplicates
    risks :=
      collectRisks ⟨threshold, signers, totalWeight, outstandingRequiredSigners, sortTexts duplicates,
        minimumSignersNeeded⟩
    timeBounds }

def simulateMultisig (clock : Int) (input : MultisigSimulationInput) : Except Text MultisigSimulationResult := do
  assertThreshold input.threshold (text "threshold")
  if MAX_SIGNERS < input.signers.length then
    .error (text "signers must hold at most " ++ ofNat MAX_SIGNERS ++ text " entries")
  else
    let lowThreshold := input.lowThreshold.getD input.threshold
    let highThreshold := input.highThreshold.getD input.threshold
    assertThreshold lowThreshold (text "lowThreshold")
    assertThreshold highThreshold (text "highThreshold")
    let duplicates ← checkSigners [] [] input.signers
    let timeBounds ← evaluateTimeBounds clock input
    .ok (resultOf localeCompare input lowThreshold highThreshold duplicates timeBounds)

end Savitools.Multisig.Weights
