import Savitools.Json.Values
import Savitools.Monitor.Types
import Savitools.Strings.Decimals

namespace Savitools.Monitor.AlertRules

open Strings.CodeUnits Strings.Decimals Monitor.Types

inductive AlertRuleType
  | amountReceivedGte
  | amountSentGte
  | assetReceived
  | txFailed
  | anyActivity
  | eventTopicEquals
  | failedContractCall
  | balanceAbove
  | balanceBelow
  | transactionCount
deriving DecidableEq

def isStateAlertRule : AlertRuleType → Bool
  | .balanceAbove | .balanceBelow | .transactionCount => true
  | _ => false

structure AlertRuleDefinition where
  id : Nat
  type : AlertRuleType
  asset : Option Text
  threshold : Option Text
  windowMinutes : Option Nat
  channels : List NotificationChannel
  topic : Option Text
deriving DecidableEq

structure AlertRuleDto where
  type : AlertRuleType
  asset : Option Text := none
  threshold : Option Text := none
  windowMinutes : Option Nat := none
  channels : Option (List NotificationChannel) := none
  topic : Option Text := none

/-- `^(?:0|[1-9]\d*)(?:\.\d+)?$` but not `^0(?:\.0+)?$`. -/
def validThreshold (value : Option Text) : Bool :=
  match decimalParts (value.getD []) with
  | none => false
  | some (whole, fraction) =>
      if whole = [unit '0'] then !fraction.all (fun u => u == unit '0') else whole.head? != some (unit '0')

/-- `^[1-9]\d*$` -/
def wholeThreshold (value : Text) : Bool :=
  match value with
  | [] => false
  | u :: rest => between '1' '9' u && rest.all isDigit

/-- `value?.trim()` where it is not empty. -/
def trimmed (value : Option Text) : Option Text := (value.map trim).filter (fun t => t ≠ [])

def toAlertRule (id : Nat) (dto : AlertRuleDto) (watchType : WatchType) : Except String AlertRuleDefinition :=
  if watchType = .contract ∧ dto.type ≠ .anyActivity ∧ dto.type ≠ .eventTopicEquals then
    .error "Contract watches currently support any_activity and event_topic_equals alerts"
  else if (dto.type = .amountReceivedGte ∨ dto.type = .amountSentGte ∨ dto.type = .balanceAbove ∨
      dto.type = .balanceBelow) ∧ validThreshold dto.threshold = false then
    .error "Amount rules require a positive threshold"
  else if dto.type = .assetReceived ∧ trimmed dto.asset = none then
    .error "asset_received requires an asset"
  else if dto.type = .eventTopicEquals ∧ trimmed dto.topic = none then
    .error "event_topic_equals requires a topic"
  else if dto.type = .transactionCount ∧ wholeThreshold (trim (dto.threshold.getD [])) = false then
    .error "transaction_count requires a positive whole-number threshold"
  else
    .ok {
      id := id
      type := dto.type
      asset := trimmed dto.asset
      threshold := trimmed dto.threshold
      windowMinutes := if dto.type = .transactionCount then dto.windowMinutes.filter (fun n => n ≠ 0) else none
      channels :=
        match dto.channels.getD [] with
        | [] => [.inApp]
        | channels => channels.eraseDups
      topic := trimmed dto.topic }

/-- What the stored rule is made of, and what its type has been checked for. -/
theorem toAlertRule_ok {id : Nat} {dto : AlertRuleDto} {watchType : WatchType} {rule : AlertRuleDefinition}
    (h : toAlertRule id dto watchType = .ok rule) :
    rule.id = id ∧ rule.type = dto.type ∧ rule.asset = trimmed dto.asset ∧
      rule.threshold = trimmed dto.threshold ∧ rule.topic = trimmed dto.topic ∧ rule.channels ≠ [] ∧
      (rule.type = .assetReceived → rule.asset ≠ none) ∧
      (rule.type = .eventTopicEquals → rule.topic ≠ none) := by
  unfold toAlertRule at h
  split at h
  next => cases h
  next =>
    split at h
    next => cases h
    next =>
      split at h
      next => cases h
      next hasset =>
        split at h
        next => cases h
        next htopic =>
          split at h
          next => cases h
          next =>
            cases h
            refine ⟨rfl, rfl, rfl, rfl, rfl, ?_, fun ht hn => hasset ⟨ht, hn⟩, fun ht hn => htopic ⟨ht, hn⟩⟩
            dsimp only
            split
            next => simp
            next hne =>
              intro hnil
              cases hc : dto.channels.getD [] with
              | nil => exact hne hc
              | cons c cs => simp [hc, List.eraseDups_cons] at hnil

end Savitools.Monitor.AlertRules

namespace Savitools.Monitor.AlertEvaluator

open Strings.CodeUnits Strings.Decimals Json.Values AlertRules

inductive EventSource
  | transaction
  | payment
  | contract
deriving DecidableEq

/-- The numbers of an event payload are ledger sequences. -/
abbrev Payload := List (Text × Value Nat)

structure NormalizedMonitorEvent where
  pagingToken : Text
  source : EventSource
  eventType : EventSource
  ledger : Option Nat
  occurredAt : Text
  amount : Option Text := none
  asset : Option Text := none
  sentAmount : Option Text := none
  receivedAmount : Option Text := none
  receivedAsset : Option Text := none
  fromAccount : Option Text := none
  toAccount : Option Text := none
  successful : Option Bool := none
  transactionHash : Option Text := none
  payload : Payload

structure AccountStateSnapshot where
  publicKey : Text
  network : Text
  observedAt : Text
  balances : Text → Option Text
  transactionCounts : Nat → Option Nat

def defaultBalanceAsset : Text := text "XLM"

def defaultTransactionWindowMinutes : Nat := 60

def compareDecimals (left right : Text) : Option Ordering :=
  match decimalParts left, decimalParts right with
  | some l, some r =>
      let scale := max l.2.length r.2.length
      some (compare (digitsValue (l.1 ++ padEnd l.2 scale)) (digitsValue (r.1 ++ padEnd r.2 scale)))
  | _, _ => none

def meetsThreshold (actual threshold : Option Text) : Bool :=
  match actual.getD [], threshold.getD [] with
  | [], _ => false
  | _ :: _, [] => false
  | a :: as, t :: ts =>
      match compareDecimals (a :: as) (t :: ts) with
      | some .lt | none => false
      | some .eq | some .gt => true

def balanceAsset (rule : AlertRuleDefinition) : Text := (trimmed rule.asset).getD defaultBalanceAsset

def windowMinutes (rule : AlertRuleDefinition) : Nat := rule.windowMinutes.getD defaultTransactionWindowMinutes

/-- `gt` for above, `lt` for below. -/
def compareBalance (rule : AlertRuleDefinition) (snapshot : AccountStateSnapshot) : Option Ordering :=
  match (snapshot.balances (balanceAsset rule)).getD [], rule.threshold.getD [] with
  | [], _ => none
  | _ :: _, [] => none
  | b :: bs, t :: ts => (compareDecimals (b :: bs) (t :: ts)).filter (fun c => c ≠ .eq)

def matchesState (rule : AlertRuleDefinition) (snapshot : AccountStateSnapshot) : Bool :=
  match rule.type with
  | .balanceAbove => compareBalance rule snapshot == some .gt
  | .balanceBelow => compareBalance rule snapshot == some .lt
  | .transactionCount =>
      match snapshot.transactionCounts (windowMinutes rule) with
      | none => false
      | some observed => meetsThreshold (some (ofNat observed)) rule.threshold
  | _ => false

/-- The observed value a rule is compared against. -/
def observedValue (rule : AlertRuleDefinition) (snapshot : AccountStateSnapshot) : Option Text :=
  if isStateAlertRule rule.type then
    match rule.type with
    | .transactionCount => (snapshot.transactionCounts (windowMinutes rule)).map ofNat
    | _ => snapshot.balances (balanceAsset rule)
  else none

variable (toLowerCase : Text → Text)

def sameAsset (actual expected : Option Text) : Bool :=
  match actual.getD [], expected.getD [] with
  | [], _ => false
  | _ :: _, [] => false
  | a :: as, e :: es => toLowerCase (a :: as) == toLowerCase (e :: es)

/-- `payload.topic && payload.topic === rule.topic` -/
def topicEquals (payload : Payload) (topic : Option Text) : Bool :=
  match payload.lookup (text "topic"), topic with
  | some value, some topic => value.truthy (fun n => n == 0) && value.strictEqText topic
  | _, _ => false

/-- `matches`, for the public key of the watch. -/
def matchesEvent (rule : AlertRuleDefinition) (publicKey : Text) (event : NormalizedMonitorEvent) : Bool :=
  match rule.type with
  | .anyActivity => true
  | .txFailed => event.source == .transaction && event.successful == some false
  | .eventTopicEquals => event.source == .contract && topicEquals event.payload rule.topic
  | .failedContractCall => event.source == .contract && event.successful == some false
  | .assetReceived =>
      event.source == .payment && event.toAccount == some publicKey &&
        sameAsset toLowerCase (event.receivedAsset <|> event.asset) rule.asset
  | .amountReceivedGte =>
      event.source == .payment && event.toAccount == some publicKey &&
        meetsThreshold (event.receivedAmount <|> event.amount) rule.threshold
  | .amountSentGte =>
      event.source == .payment && event.fromAccount == some publicKey &&
        meetsThreshold (event.sentAmount <|> event.amount) rule.threshold
  | _ => false

end Savitools.Monitor.AlertEvaluator

namespace Savitools.Monitor.Watches

open Strings.CodeUnits Monitor.Types AlertRules AlertEvaluator

inductive StellarNetwork
  | testnet
  | publicNetwork
deriving DecidableEq

/-- A row of `watches`, without the columns of its stream and of its evaluation. -/
structure Watch where
  id : Nat
  userId : Nat
  publicKey : Text
  type : WatchType
  label : Option Text
  network : StellarNetwork
  eventTypes : List EventSource
  alertRules : List AlertRuleDefinition
deriving DecidableEq

structure CreateWatchDto where
  publicKey : Text
  label : Option Text := none
  eventTypes : List EventSource
  network : Option StellarNetwork := none
  alertRules : Option (List AlertRuleDto) := none

/-- What the SDK makes of a public key. -/
structure StrKey where
  isValidEd25519PublicKey : Text → Bool
  isValidContract : Text → Bool

def watchType (strKey : StrKey) (publicKey : Text) : Except String WatchType :=
  if strKey.isValidEd25519PublicKey publicKey then .ok .account
  else if strKey.isValidContract publicKey then .ok .contract
  else .error "Invalid Stellar account or contract ID"

def validateEventTypes (type : WatchType) (eventTypes : List EventSource) : Except String Unit :=
  match type with
  | .account =>
      if eventTypes.any (· == .contract) then .error "Account watches support transaction and payment events" else .ok ()
  | .contract =>
      if eventTypes.any (· != .contract) then .error "Contract watches support contract events" else .ok ()

/-- `createWatch` up to its first statement: the row, before the database has given it an id. The rules get fresh ids
from `nextId` on. -/
def draftWatch (strKey : StrKey) (userId nextId : Nat) (dto : CreateWatchDto) : Except String Watch := do
  let publicKey := trim dto.publicKey
  let type ← watchType strKey publicKey
  validateEventTypes type dto.eventTypes
  let alertRules ← ((dto.alertRules.getD []).zipIdx nextId).mapM fun (rule, id) => toAlertRule id rule type
  return {
    id := 0
    userId := userId
    publicKey := publicKey
    type := type
    label := trimmed dto.label
    network := dto.network.getD .testnet
    eventTypes := dto.eventTypes.eraseDups
    alertRules := alertRules }

end Savitools.Monitor.Watches
