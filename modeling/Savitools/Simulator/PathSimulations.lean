import Savitools.Common.Exceptions
import Savitools.Searches.Best
import Savitools.Simulator.SlippageLab
import Savitools.Simulator.Trades
import Savitools.Json.RoundingOrder

namespace Savitools.Simulator.PathSimulations

open Strings.CodeUnits Strings.Decimals Json.Conversions Json.Numbers Json.Doubles Json.Roundings Searches.Best
open Common.Exceptions LpMath SlippageLab Trades

structure HorizonHop where
  assetType : Text
  assetCode : Option Text
  assetIssuer : Option Text

structure HorizonPathRecord where
  sourceAmount : Text
  destinationAmount : Text
  path : List HorizonHop

/-- What a request to Horizon gives: the records of the answer, or what is thrown. The request is the URL
without its query, and the parameters. -/
abbrev FetchFromHorizon := Text → List (Text × Text) → Except Exception (Option (List HorizonPathRecord))

structure PathHop where
  assetType : Text
  assetCode : Option Text
  assetIssuer : Option Text

structure HorizonSimulatedPath where
  sourceAmount : Text
  destinationAmount : Text
  path : List PathHop
  pathLength : Nat
  exchangeRate : Text

structure SimulateStrictSendDto where
  sourceAsset : Text
  sourceAmount : Text
  destAsset : Text
  network : Text

structure SimulateStrictReceiveDto where
  sourceAsset : Text
  destAsset : Text
  destAmount : Text
  network : Text

structure StrictSendResult where
  sourceAsset : Text
  sourceAmount : Text
  destAsset : Text
  network : Text
  mode : SlippageDirection
  totalPathsFound : Nat
  paths : List HorizonSimulatedPath
  bestPath : HorizonSimulatedPath
  slippagePercent : Text

structure StrictReceiveResult where
  sourceAsset : Text
  destAsset : Text
  destAmount : Text
  network : Text
  mode : SlippageDirection
  totalPathsFound : Nat
  paths : List HorizonSimulatedPath
  bestPath : HorizonSimulatedPath
  sourceAmountNeeded : Text
  slippagePercent : Text

def getHorizonUrl (network : Text) : Except Exception Text :=
  if network = text "mainnet" then .ok (text "https://horizon.stellar.org")
  else if network = text "testnet" then .ok (text "https://horizon-testnet.stellar.org")
  else
    .error (.badRequest (text "Invalid network: \"" ++ network ++ text "\". Use \"testnet\" or \"mainnet\""))

def parseAssetParams (assetString : Text) : Except Exception ParsedAsset :=
  let invalid : Exception :=
    .badRequest (text "Invalid asset format: \"" ++ assetString ++ text "\". Use \"XLM\" or \"CODE:ISSUER\"")
  if assetString = text "XLM" then .ok ⟨text "native", none, none⟩
  else
    match split (unit ':') assetString with
    | [code, issuer] =>
        if code = [] ∨ issuer = [] then .error invalid
        else
          let type := if code.length ≤ 4 then text "credit_alphanum4" else text "credit_alphanum12"
          .ok ⟨type, some code, some issuer⟩
    | _ => .error invalid

/-- The code and the issuer of an asset, where it has them. -/
def assetParams (side : Text) (asset : ParsedAsset) : List (Text × Text) :=
  (asset.code.toList.map fun code => (side ++ text "_asset_code", code)) ++
    asset.issuer.toList.map fun issuer => (side ++ text "_asset_issuer", issuer)

/-- The fixed amount comes behind the type of its asset. -/
def requestParams (direction : SlippageDirection) (src dst : ParsedAsset) (amount : Text) : List (Text × Text) :=
  let sourceType := (text "source_asset_type", src.type)
  let destinationType := (text "destination_asset_type", dst.type)
  let fixed :=
    match direction with
    | .strictSend => [sourceType, (text "source_amount", amount), destinationType]
    | .strictReceive => [sourceType, destinationType, (text "destination_amount", amount)]
  fixed ++ assetParams (text "source") src ++ assetParams (text "destination") dst

def modeText : SlippageDirection → Text
  | .strictSend => text "strict_send"
  | .strictReceive => text "strict_receive"

/-- What a failed lookup throws: a bad request as it is, anything else as one. -/
def lookupError : Exception → Exception
  | .badRequest message => .badRequest message
  | error => .badRequest (text "Path lookup failed: " ++ error.message)

/-- The records that Horizon has for a direction and a fixed amount. -/
def lookupPaths (fetchFromHorizon : FetchFromHorizon) (direction : SlippageDirection)
    (network sourceAsset destAsset amount : Text) : Except Exception (List HorizonPathRecord) := do
  let horizonUrl ← getHorizonUrl network
  let src ← parseAssetParams sourceAsset
  let dst ← parseAssetParams destAsset
  match fetchFromHorizon (horizonUrl ++ text "/paths/" ++ modeText direction) (requestParams direction src dst amount) with
  | .error error => .error (lookupError error)
  | .ok records => .ok (records.getD [])

/-- `value || null` -/
def orNull (value : Option Text) : Option Text := value.filter fun t => t ≠ []

def toHop (hop : HorizonHop) : PathHop := ⟨hop.assetType, orNull hop.assetCode, orNull hop.assetIssuer⟩

/-- The rate is the number of the received amount by that of the sent one. -/
def toPath (received sent : HorizonPathRecord → Text) (record : HorizonPathRecord) : HorizonSimulatedPath :=
  { sourceAmount := record.sourceAmount
    destinationAmount := record.destinationAmount
    path := record.path.map toHop
    pathLength := record.path.length
    exchangeRate := doubleText (div (toNumber (received record)) (toNumber (sent record))) }

/-- `(larger - smaller) / larger * 100`, with two decimals. -/
def spreadPercent (larger smaller : Text) : Text :=
  toFixed 2 ((div (sub (toNumber larger) (toNumber smaller)) (toNumber larger)).map (timesNat 100))

def receivesMore (p best : HorizonSimulatedPath) : Bool :=
  gt (toNumber p.destinationAmount) (toNumber best.destinationAmount)

def sendsLess (p best : HorizonSimulatedPath) : Bool := gt (toNumber best.sourceAmount) (toNumber p.sourceAmount)

/-- The amount of the last path, where there are several. -/
def lastOfSeveral (amount : HorizonSimulatedPath → Text) (paths : List HorizonSimulatedPath) : Option Text :=
  if 1 < paths.length then paths.getLast?.map amount else none

def strictSendPath (dto : SimulateStrictSendDto) : HorizonPathRecord → HorizonSimulatedPath :=
  toPath (·.destinationAmount) fun _ => dto.sourceAmount

def simulateStrictSend (fetchFromHorizon : FetchFromHorizon) (dto : SimulateStrictSendDto) :
    Except Exception StrictSendResult := do
  let records ← lookupPaths fetchFromHorizon .strictSend dto.network dto.sourceAsset dto.destAsset dto.sourceAmount
  let paths := records.map (strictSendPath dto)
  match pick receivesMore paths with
  | none =>
      .error (.badRequest (text "No path found from " ++ dto.sourceAsset ++ text " to " ++ dto.destAsset ++ text " on " ++
        dto.network))
  | some bestPath =>
      .ok {
        sourceAsset := dto.sourceAsset
        sourceAmount := dto.sourceAmount
        destAsset := dto.destAsset
        network := dto.network
        mode := .strictSend
        totalPathsFound := paths.length
        paths := paths
        bestPath := bestPath
        slippagePercent :=
          match lastOfSeveral (·.destinationAmount) paths with
          | none => text "0"
          | some last => spreadPercent bestPath.destinationAmount last }

def strictReceivePath (dto : SimulateStrictReceiveDto) : HorizonPathRecord → HorizonSimulatedPath :=
  toPath (fun _ => dto.destAmount) (·.sourceAmount)

def simulateStrictReceive (fetchFromHorizon : FetchFromHorizon) (dto : SimulateStrictReceiveDto) :
    Except Exception StrictReceiveResult := do
  let records ← lookupPaths fetchFromHorizon .strictReceive dto.network dto.sourceAsset dto.destAsset dto.destAmount
  let paths := records.map (strictReceivePath dto)
  match pick sendsLess paths with
  | none =>
      .error (.badRequest (text "No path found to " ++ dto.destAsset ++ text " for " ++ dto.destAmount ++ text " from " ++
        dto.sourceAsset ++ text " on " ++ dto.network))
  | some bestPath =>
      .ok {
        sourceAsset := dto.sourceAsset
        destAsset := dto.destAsset
        destAmount := dto.destAmount
        network := dto.network
        mode := .strictReceive
        totalPathsFound := paths.length
        paths := paths
        bestPath := bestPath
        sourceAmountNeeded := bestPath.sourceAmount
        slippagePercent :=
          match lastOfSeveral (·.sourceAmount) paths with
          | none => text "0"
          | some last => spreadPercent last bestPath.sourceAmount }

structure PathPaymentLabDto where
  direction : SlippageDirection
  sourceAsset : Text
  destinationAsset : Text
  amount : Text
  network : Option Text
  routeIndex : Option Nat
  slippageScenarios : List Double
  adverseMovePercent : Option Double

structure PathPaymentLabRoute where
  index : Nat
  pathLength : Nat
  sourceAmount : Text
  destinationAmount : Text
  exchangeRate : Text
  fixedAmount : Text
  variableAmount : Text
  hops : List PathHop

structure PathPaymentLabResult where
  network : Text
  direction : SlippageDirection
  sourceAsset : Text
  destinationAsset : Text
  routeCount : Nat
  route : PathPaymentLabRoute
  comparison : SlippageComparisonResult

/-- What a run of the lab throws before it is translated. -/
inductive LabError
  | http (error : Exception)
  | range (error : RangeError)
  | other (message : Text)

/-- `^(?:0|[1-9]\d{0,14})(?:\.\d{1,7})?$` -/
def isLabAmount (value : Text) : Bool :=
  match decimalParts value with
  | none => false
  | some (whole, fraction) =>
      (whole == [unit '0'] || (whole.head? != some (unit '0') && whole.length ≤ 15)) && fraction.length ≤ 7

def parseLabAmount (value label : Text) : Except LabError Int :=
  if isLabAmount (trim value) then
    match toStroops value with
    | none => .error (.other (text "Cannot convert " ++ value ++ text " to a BigInt"))
    | some stroops =>
        if stroops < 0 then
          .error (.range (.rejected (label ++ text " must not be negative: \"" ++ value ++ text "\"")))
        else .ok stroops
  else .error (.range (.rejected (label ++ text " is not a valid Stellar amount: \"" ++ value ++ text "\"")))

def better : SlippageDirection → HorizonSimulatedPath → HorizonSimulatedPath → Bool
  | .strictSend => receivesMore
  | .strictReceive => sendsLess

/-- The leg that the caller pins, with the name of its field. -/
def fixedLeg : SlippageDirection → HorizonSimulatedPath → Text × Text
  | .strictSend, route => (route.sourceAmount, text "sourceAmount")
  | .strictReceive, route => (route.destinationAmount, text "destinationAmount")

/-- The leg that the network prices, with the name of its field. -/
def variableLeg : SlippageDirection → HorizonSimulatedPath → Text × Text
  | .strictSend, route => (route.destinationAmount, text "destinationAmount")
  | .strictReceive, route => (route.sourceAmount, text "sourceAmount")

def fetchRoutes (fetchFromHorizon : FetchFromHorizon) (dto : PathPaymentLabDto) (network : Text) :
    Except Exception (List HorizonSimulatedPath) :=
  match dto.direction with
  | .strictSend =>
      (simulateStrictSend fetchFromHorizon ⟨dto.sourceAsset, dto.amount, dto.destinationAsset, network⟩).map (·.paths)
  | .strictReceive =>
      (simulateStrictReceive fetchFromHorizon ⟨dto.sourceAsset, dto.destinationAsset, dto.amount, network⟩).map (·.paths)

def bestRoute (direction : SlippageDirection) (routes : List HorizonSimulatedPath) : Option HorizonSimulatedPath :=
  pick (better direction) routes

def routeIndexError (routeIndex count : Nat) : Exception :=
  .badRequest (text "routeIndex " ++ ofNat routeIndex ++ text " is out of range: Horizon returned " ++ ofNat count ++
    text " route(s) for this pair and amount")

def labComparison (dto : PathPaymentLabDto) (chosen best : HorizonSimulatedPath) :
    Except LabError SlippageComparisonResult := do
  let fixed ← parseLabAmount (fixedLeg dto.direction chosen).1 (fixedLeg dto.direction chosen).2
  let variable' ← parseLabAmount (variableLeg dto.direction chosen).1 (variableLeg dto.direction chosen).2
  let bestAmount ← parseLabAmount (variableLeg dto.direction best).1 (text "best route amount")
  (compareSlippageScenarios {
    direction := dto.direction
    fixedAmountStroops := fixed
    variableAmountStroops := variable'
    slippageScenarios := dto.slippageScenarios
    adverseMovePercent := dto.adverseMovePercent.getD (ofInt 0)
    bestVariableAmountStroops := some bestAmount }).mapError .range

def simulate (fetchFromHorizon : FetchFromHorizon) (dto : PathPaymentLabDto) : Except LabError PathPaymentLabResult := do
  let network := dto.network.getD (text "testnet")
  let routeIndex := dto.routeIndex.getD 0
  let routes ← (fetchRoutes fetchFromHorizon dto network).mapError .http
  match routes[routeIndex]?, bestRoute dto.direction routes with
  | some chosen, some best =>
      (labComparison dto chosen best).map fun comparison =>
        { network := network
          direction := dto.direction
          sourceAsset := dto.sourceAsset
          destinationAsset := dto.destinationAsset
          routeCount := routes.length
          route :=
            { index := routeIndex
              pathLength := chosen.pathLength
              sourceAmount := chosen.sourceAmount
              destinationAmount := chosen.destinationAmount
              exchangeRate := chosen.exchangeRate
              fixedAmount := comparison.fixedAmount
              variableAmount := comparison.quotedVariableAmount
              hops := chosen.path }
          comparison := comparison }
  | _, _ => .error (.http (routeIndexError routeIndex routes.length))

def translate : LabError → Exception
  | .http error => error
  | .range (.rejected message) => .badRequest message
  | .range .divisionByZero => .badRequest (text "Division by zero")
  | .other message => .badRequest (text "Route lookup failed: " ++ message)

/-- `run` of the lab. -/
def runLab (fetchFromHorizon : FetchFromHorizon) (dto : PathPaymentLabDto) : Except Exception PathPaymentLabResult :=
  (simulate fetchFromHorizon dto).mapError translate

end Savitools.Simulator.PathSimulations

namespace Savitools.Simulator.BestRoutes

open Strings.CodeUnits Strings.Decimals Json.Numbers Json.Conversions Json.Doubles Json.DecimalTexts Json.RoundingOrder
open Searches.Best Common.Decimal Common.Exceptions SlippageLab PathSimulations

/-- An amount of Stellar: a decimal whose stroops are a 64-bit integer. -/
def StellarAmount (t : Text) : Prop := ∃ n, parseFixed t = .ok n ∧ n < 2 ^ 63

def stroops (t : Text) : Int := (parseFixed t).toOption.getD 0

/-- The number that a text is read as, where it is finite. -/
def reading (t : Text) : Rat :=
  match toNumber t with
  | some (.finite q) => q
  | _ => 0

/-- More is better for what is received, less for what is sent. -/
def gain {α : Type} [Neg α] : SlippageDirection → α → α
  | .strictSend, x => x
  | .strictReceive, x => -x

def worth (direction : SlippageDirection) (p : HorizonSimulatedPath) : Int :=
  gain direction (stroops (variableLeg direction p).1)

def seen (direction : SlippageDirection) (p : HorizonSimulatedPath) : Rat :=
  gain direction (reading (variableLeg direction p).1)

/-- The one path receives the most, or sends the least, of all. -/
def TrulyBest : SlippageDirection → List HorizonSimulatedPath → HorizonSimulatedPath → Prop
  | .strictSend, paths, best => ∀ p ∈ paths, stroops p.destinationAmount ≤ stroops best.destinationAmount
  | .strictReceive, paths, best => ∀ p ∈ paths, stroops best.sourceAmount ≤ stroops p.sourceAmount

/-- None behind the first path with the best number has the same number and a better amount. -/
def Discerned (direction : SlippageDirection) (paths : List HorizonSimulatedPath) : Prop :=
  ∀ before first after, paths = before ++ first :: after → FirstGreatest (seen direction) before first after →
    ∀ p ∈ after, seen direction p = seen direction first → worth direction p ≤ worth direction first

/-- The digits of an amount make its stroops. -/
theorem digits_stroops {t : Text} {n : Int} (h : parseFixed t = .ok n) :
    ∃ whole fraction : Text, decimalParts t = some (whole, fraction) ∧
      (digitsValue (whole ++ fraction) : Int) * 10 ^ 7 = n * 10 ^ fraction.length := by
  rw [parseFixed] at h
  split at h
  next whole fraction hparts =>
    split at h
    next hlength =>
      cases h
      refine ⟨whole, fraction, hparts, ?_⟩
      have hpow : 10 ^ (fixedDecimals - fraction.length) * 10 ^ fraction.length = (10 : Int) ^ 7 := by
        rw [← pow_add, Nat.sub_add_cancel hlength]
        rfl
      have hscale : fixedScale = 10 ^ 7 := rfl
      rw [digitsValue_concat, digitsValue_padEnd, hscale]
      push_cast
      rw [add_mul, add_mul, mul_assoc (digitsValue fraction : Int), hpow]
      ring
    next => cases h
  next => cases h

/-- A smaller amount is not read as a greater number. -/
theorem reading_mono {t u : Text} {m n : Int} (ht : parseFixed t = .ok m) (hu : parseFixed u = .ok n) (hle : m ≤ n)
    (hn : n < 2 ^ 63) : ∃ p q : Rat, toNumber t = some (.finite p) ∧ toNumber u = some (.finite q) ∧ p ≤ q := by
  obtain ⟨whole, fraction, hparts, hvalue⟩ := digits_stroops ht
  obtain ⟨whole', fraction', hparts', hvalue'⟩ := digits_stroops hu
  rw [toNumber_decimal hparts, toNumber_decimal hparts']
  generalize digitsValue (whole ++ fraction) = a at hvalue
  generalize digitsValue (whole' ++ fraction') = b at hvalue'
  generalize fraction.length = i at hvalue
  generalize fraction'.length = j at hvalue'
  have hi : (0 : Int) < 10 ^ i := by positivity
  have hj : (0 : Int) < 10 ^ j := by positivity
  have horder : a * 10 ^ j ≤ b * 10 ^ i := by
    have hscaled : (a : Int) * 10 ^ j * 10 ^ 7 ≤ b * 10 ^ i * 10 ^ 7 := by
      calc (a : Int) * 10 ^ j * 10 ^ 7 = m * (10 ^ i * 10 ^ j) := by rw [mul_right_comm, hvalue, mul_assoc]
        _ ≤ n * (10 ^ i * 10 ^ j) := mul_le_mul_of_nonneg_right hle (by positivity)
        _ = b * 10 ^ i * 10 ^ 7 := by rw [mul_right_comm, hvalue', mul_assoc, mul_comm (10 ^ i)]
    exact_mod_cast le_of_mul_le_mul_right hscaled (by positivity)
  have hbound : b < 2 ^ 40 * 10 ^ j := by
    have hscaled : (b : Int) * 10 ^ 7 < 2 ^ 40 * 10 ^ j * 10 ^ 7 := by
      calc (b : Int) * 10 ^ 7 = n * 10 ^ j := hvalue'
        _ < 2 ^ 63 * 10 ^ j := mul_lt_mul_of_pos_right hn hj
        _ ≤ 2 ^ 40 * 10 ^ 7 * 10 ^ j := mul_le_mul_of_nonneg_right (by norm_num) hj.le
        _ = 2 ^ 40 * 10 ^ j * 10 ^ 7 := by rw [mul_right_comm]
    exact_mod_cast lt_of_mul_lt_mul_right hscaled (by positivity)
  obtain ⟨p, q, hp, hq, hpq⟩ := nearest_mono (Nat.pow_pos (by decide)) (Nat.pow_pos (by decide)) horder hbound (by decide)
  exact ⟨p, q, by rw [hp], by rw [hq], hpq⟩

section Amounts

variable {t u : Text} (ht : StellarAmount t) (hu : StellarAmount u)

theorem stroops_eq {n : Int} (h : parseFixed t = .ok n) : stroops t = n := by
  rw [stroops, h]
  rfl

include ht

theorem toNumber_amount : toNumber t = some (.finite (reading t)) := by
  obtain ⟨n, hn, hlimit⟩ := ht
  obtain ⟨p, -, hp, -, -⟩ := reading_mono hn hn le_rfl hlimit
  rw [reading, hp]

include hu

theorem reading_le (h : stroops t ≤ stroops u) : reading t ≤ reading u := by
  obtain ⟨m, hm, -⟩ := id ht
  obtain ⟨n, hn, hlimit⟩ := id hu
  rw [stroops_eq hm, stroops_eq hn] at h
  obtain ⟨p, q, hp, hq, hle⟩ := reading_mono hm hn h hlimit
  rw [toNumber_amount ht] at hp
  rw [toNumber_amount hu] at hq
  cases hp
  cases hq
  exact hle

theorem gt_amounts : gt (toNumber t) (toNumber u) = true ↔ reading u < reading t := by
  rw [toNumber_amount ht, toNumber_amount hu]
  exact decide_eq_true_iff

end Amounts

section Paths

variable {direction : SlippageDirection} {paths : List HorizonSimulatedPath} {best : HorizonSimulatedPath}

theorem trulyBest_iff : TrulyBest direction paths best ↔ ∀ p ∈ paths, worth direction p ≤ worth direction best := by
  cases direction with
  | strictSend => exact Iff.rfl
  | strictReceive => exact forall₂_congr fun p _ => neg_le_neg_iff.symm

variable (hamounts : ∀ p ∈ paths, StellarAmount (variableLeg direction p).1)

include hamounts

theorem better_iff : ∀ p ∈ paths, ∀ q ∈ paths, better direction p q = true ↔ seen direction q < seen direction p := by
  intro p hp q hq
  cases direction with
  | strictSend => exact gt_amounts (hamounts p hp) (hamounts q hq)
  | strictReceive => exact (gt_amounts (hamounts q hq) (hamounts p hp)).trans neg_lt_neg_iff.symm

theorem seen_le_of_worth_le :
    ∀ p ∈ paths, ∀ q ∈ paths, worth direction p ≤ worth direction q → seen direction p ≤ seen direction q := by
  intro p hp q hq h
  cases direction with
  | strictSend => exact reading_le (hamounts p hp) (hamounts q hq) h
  | strictReceive => exact neg_le_neg (reading_le (hamounts q hq) (hamounts p hp) (neg_le_neg_iff.mp h))

/-- The path that is kept is the best one exactly when its number tells it from those behind it. -/
theorem pick_best_iff (hpick : pick (better direction) paths = some best) :
    TrulyBest direction paths best ↔ Discerned direction paths :=
  trulyBest_iff.trans (pick_greatest_iff (better_iff hamounts) hpick (seen_le_of_worth_le hamounts))

end Paths

theorem exists_pick {α : Type} (better : α → α → Bool) {as : List α} (h : as ≠ []) : ∃ best, pick better as = some best := by
  cases as with
  | nil => exact absurd rfl h
  | cons a as => exact ⟨_, rfl⟩

section Results

variable {fetchFromHorizon : FetchFromHorizon} {records : List HorizonPathRecord} {best : HorizonSimulatedPath}

theorem strictSend_ok {dto : SimulateStrictSendDto}
    (hlookup : lookupPaths fetchFromHorizon .strictSend dto.network dto.sourceAsset dto.destAsset dto.sourceAmount =
      .ok records) (hbest : pick receivesMore (records.map (strictSendPath dto)) = some best) :
    ∃ result, simulateStrictSend fetchFromHorizon dto = .ok result ∧ result.paths = records.map (strictSendPath dto) ∧
      result.bestPath = best := by
  rw [simulateStrictSend, hlookup]
  simp only [bind, Except.bind, hbest]
  exact ⟨_, rfl, rfl, rfl⟩

theorem strictReceive_ok {dto : SimulateStrictReceiveDto}
    (hlookup : lookupPaths fetchFromHorizon .strictReceive dto.network dto.sourceAsset dto.destAsset dto.destAmount =
      .ok records) (hbest : pick sendsLess (records.map (strictReceivePath dto)) = some best) :
    ∃ result, simulateStrictReceive fetchFromHorizon dto = .ok result ∧
      result.paths = records.map (strictReceivePath dto) ∧ result.bestPath = best := by
  rw [simulateStrictReceive, hlookup]
  simp only [bind, Except.bind, hbest]
  exact ⟨_, rfl, rfl, rfl⟩

end Results

/-- In all three selections the path that is reported is the best one exactly when no path behind the first with the
best number has the same number and a better amount. -/
theorem best_paths_iff (fetchFromHorizon : FetchFromHorizon) :
    (∀ (dto : SimulateStrictSendDto) (records : List HorizonPathRecord),
      lookupPaths fetchFromHorizon .strictSend dto.network dto.sourceAsset dto.destAsset dto.sourceAmount = .ok records →
        records ≠ [] → (∀ record ∈ records, StellarAmount record.destinationAmount) →
          ∃ result, simulateStrictSend fetchFromHorizon dto = .ok result ∧ result.paths = records.map (strictSendPath dto) ∧
            (TrulyBest .strictSend result.paths result.bestPath ↔ Discerned .strictSend result.paths)) ∧
    (∀ (dto : SimulateStrictReceiveDto) (records : List HorizonPathRecord),
      lookupPaths fetchFromHorizon .strictReceive dto.network dto.sourceAsset dto.destAsset dto.destAmount = .ok records →
        records ≠ [] → (∀ record ∈ records, StellarAmount record.sourceAmount) →
          ∃ result, simulateStrictReceive fetchFromHorizon dto = .ok result ∧
            result.paths = records.map (strictReceivePath dto) ∧
            (TrulyBest .strictReceive result.paths result.bestPath ↔ Discerned .strictReceive result.paths)) ∧
    ∀ (direction : SlippageDirection) (routes : List HorizonSimulatedPath),
      routes ≠ [] → (∀ route ∈ routes, StellarAmount (variableLeg direction route).1) →
        ∃ best, bestRoute direction routes = some best ∧
          (TrulyBest direction routes best ↔ Discerned direction routes) := by
  refine ⟨fun dto records hlookup hne hamounts => ?_, fun dto records hlookup hne hamounts => ?_,
    fun direction routes hne hamounts => ?_⟩
  · have hpaths : ∀ p ∈ records.map (strictSendPath dto), StellarAmount (variableLeg .strictSend p).1 := by
      intro p hp
      obtain ⟨record, hrecord, rfl⟩ := List.mem_map.mp hp
      exact hamounts record hrecord
    obtain ⟨best, hbest⟩ := exists_pick receivesMore (List.map_eq_nil_iff.not.mpr hne)
    obtain ⟨result, hresult, hlist, rfl⟩ := strictSend_ok hlookup hbest
    refine ⟨result, hresult, hlist, ?_⟩
    rw [hlist]
    exact pick_best_iff hpaths hbest
  · have hpaths : ∀ p ∈ records.map (strictReceivePath dto), StellarAmount (variableLeg .strictReceive p).1 := by
      intro p hp
      obtain ⟨record, hrecord, rfl⟩ := List.mem_map.mp hp
      exact hamounts record hrecord
    obtain ⟨best, hbest⟩ := exists_pick sendsLess (List.map_eq_nil_iff.not.mpr hne)
    obtain ⟨result, hresult, hlist, rfl⟩ := strictReceive_ok hlookup hbest
    refine ⟨result, hresult, hlist, ?_⟩
    rw [hlist]
    exact pick_best_iff hpaths hbest
  · obtain ⟨best, hbest⟩ := exists_pick (better direction) hne
    exact ⟨best, hbest, pick_best_iff hamounts hbest⟩

/-- Two amounts that differ in the last stroop. -/
def lessAmount : Text := text "3000000000.0000000"

def moreAmount : Text := text "3000000000.0000001"

theorem near_amounts : parseFixed lessAmount = .ok 30000000000000000 ∧ parseFixed moreAmount = .ok 30000000000000001 ∧
    gt (toNumber moreAmount) (toNumber lessAmount) = false := by
  decide +kernel

/-- Each of the three selections keeps the first of two paths whose amounts differ in the last stroop. -/
theorem not_best_paths :
    (¬∀ (fetchFromHorizon : FetchFromHorizon) (dto : SimulateStrictSendDto) (result : StrictSendResult),
      simulateStrictSend fetchFromHorizon dto = .ok result → (∀ p ∈ result.paths, StellarAmount p.destinationAmount) →
        TrulyBest .strictSend result.paths result.bestPath) ∧
    (¬∀ (fetchFromHorizon : FetchFromHorizon) (dto : SimulateStrictReceiveDto) (result : StrictReceiveResult),
      simulateStrictReceive fetchFromHorizon dto = .ok result → (∀ p ∈ result.paths, StellarAmount p.sourceAmount) →
        TrulyBest .strictReceive result.paths result.bestPath) ∧
    ¬∀ (direction : SlippageDirection) (routes : List HorizonSimulatedPath) (best : HorizonSimulatedPath),
      bestRoute direction routes = some best → (∀ route ∈ routes, StellarAmount (variableLeg direction route).1) →
        TrulyBest direction routes best := by
  obtain ⟨hless, hmore, hsame⟩ := near_amounts
  have hlessAmount : StellarAmount lessAmount := ⟨_, hless, by decide⟩
  have hmoreAmount : StellarAmount moreAmount := ⟨_, hmore, by decide⟩
  have horder : ¬stroops moreAmount ≤ stroops lessAmount := by
    rw [stroops_eq hless, stroops_eq hmore]
    decide
  refine ⟨fun h => ?_, fun h => ?_, fun h => ?_⟩
  · let dto : SimulateStrictSendDto := ⟨text "XLM", text "5.0000000", text "USD:G", text "testnet"⟩
    let less : HorizonPathRecord := ⟨text "5.0000000", lessAmount, []⟩
    let more : HorizonPathRecord := ⟨text "5.0000000", moreAmount, []⟩
    have hpick : pick receivesMore ([less, more].map (strictSendPath dto)) = some (strictSendPath dto less) := by
      have hnot : receivesMore (strictSendPath dto more) (strictSendPath dto less) = false := hsame
      simp only [List.map_cons, List.map_nil, pick, keepBest, List.foldl_cons, List.foldl_nil, hnot, Bool.false_eq_true,
        if_false]
    obtain ⟨result, hresult, hpaths, hbest⟩ :=
      @strictSend_ok (fun _ _ => .ok (some [less, more])) [less, more] _ dto rfl hpick
    have hbetter := h _ dto result hresult (by
      rw [hpaths]
      exact List.forall_mem_cons.mpr ⟨hlessAmount, List.forall_mem_cons.mpr ⟨hmoreAmount, List.forall_mem_nil _⟩⟩)
    rw [hpaths, hbest] at hbetter
    exact horder (hbetter (strictSendPath dto more) (by simp))
  · let dto : SimulateStrictReceiveDto := ⟨text "XLM", text "USD:G", text "5.0000000", text "testnet"⟩
    let less : HorizonPathRecord := ⟨lessAmount, text "5.0000000", []⟩
    let more : HorizonPathRecord := ⟨moreAmount, text "5.0000000", []⟩
    have hpick : pick sendsLess ([more, less].map (strictReceivePath dto)) = some (strictReceivePath dto more) := by
      have hnot : sendsLess (strictReceivePath dto less) (strictReceivePath dto more) = false := hsame
      simp only [List.map_cons, List.map_nil, pick, keepBest, List.foldl_cons, List.foldl_nil, hnot, Bool.false_eq_true,
        if_false]
    obtain ⟨result, hresult, hpaths, hbest⟩ :=
      @strictReceive_ok (fun _ _ => .ok (some [more, less])) [more, less] _ dto rfl hpick
    have hbetter := h _ dto result hresult (by
      rw [hpaths]
      exact List.forall_mem_cons.mpr ⟨hmoreAmount, List.forall_mem_cons.mpr ⟨hlessAmount, List.forall_mem_nil _⟩⟩)
    rw [hpaths, hbest] at hbetter
    exact horder (hbetter (strictReceivePath dto less) (by simp))
  · let less : HorizonSimulatedPath := ⟨text "5.0000000", lessAmount, [], 0, []⟩
    let more : HorizonSimulatedPath := ⟨text "5.0000000", moreAmount, [], 0, []⟩
    have hpick : bestRoute .strictSend [less, more] = some less := by
      have hnot : better .strictSend more less = false := hsame
      simp only [bestRoute, pick, keepBest, List.foldl_cons, List.foldl_nil, hnot, Bool.false_eq_true, if_false]
    have hbetter := h .strictSend [less, more] less hpick
      (List.forall_mem_cons.mpr ⟨hlessAmount, List.forall_mem_cons.mpr ⟨hmoreAmount, List.forall_mem_nil _⟩⟩)
    exact horder (hbetter more (by simp))

end Savitools.Simulator.BestRoutes
