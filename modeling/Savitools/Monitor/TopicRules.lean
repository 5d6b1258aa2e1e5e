import Savitools.Monitor.AlertEvaluator

namespace Savitools.Monitor.TopicRules

open Strings.CodeUnits Json.Values Monitor.Types AlertRules AlertEvaluator

/-- A contract event as the RPC client of the Stellar SDK returns it, over the values of
its XDR types. -/
structure EventResponse (ScVal : Type) where
  id : Text
  type : Text
  ledger : Nat
  ledgerClosedAt : Text
  pagingToken : Text
  inSuccessfulContractCall : Bool
  txHash : Text
  contractId : Option Text
  topic : List ScVal
  value : ScVal

variable {ScVal : Type} (toXDR : ScVal → Text)

def normalizeContractEvent (record : EventResponse ScVal) : NormalizedMonitorEvent where
  pagingToken := record.pagingToken
  source := .contract
  eventType := .contract
  ledger := some record.ledger
  occurredAt := record.ledgerClosedAt
  successful := some record.inSuccessfulContractCall
  transactionHash := some record.txHash
  payload :=
    [(text "id", .str record.id), (text "type", .str record.type), (text "ledger", .num record.ledger),
      (text "ledgerClosedAt", .str record.ledgerClosedAt), (text "pagingToken", .str record.pagingToken),
      (text "inSuccessfulContractCall", .bool record.inSuccessfulContractCall),
      (text "transactionHash", .str record.txHash)] ++
    (record.contractId.map (fun contractId => (text "contractId", Value.str contractId))).toList ++
    [(text "topic", .arr (record.topic.map (fun topic => .str (toXDR topic)))),
      (text "value", .str (toXDR record.value))]

theorem lookup_topic (record : EventResponse ScVal) :
    (normalizeContractEvent toXDR record).payload.lookup (text "topic") =
      some (.arr (record.topic.map (fun topic => .str (toXDR topic)))) := by
  obtain ⟨id, type, ledger, ledgerClosedAt, pagingToken, successful, txHash, contractId, topic, value⟩ := record
  cases contractId <;> rfl

/-- The payload of a contract event holds its topics as an array, so its `topic` is
never the string of a rule. -/
theorem topicEquals_normalizeContractEvent (record : EventResponse ScVal) (topic : Option Text) :
    topicEquals (normalizeContractEvent toXDR record).payload topic = false := by
  unfold topicEquals
  rw [lookup_topic]
  cases topic <;> rfl

/-- The rule matches the events that have its topic and no others. -/
def TopicRuleExact (toLowerCase : Text → Text) (decode : ScVal → Text) (publicKey : Text) (rule : AlertRuleDefinition)
    (record : EventResponse ScVal) : Prop :=
  matchesEvent toLowerCase rule publicKey (normalizeContractEvent toXDR record) = true ↔
    ∃ topic ∈ record.topic, rule.topic = some (decode topic)

theorem matchesEvent_normalizeContractEvent (toLowerCase : Text → Text) (publicKey : Text)
    {rule : AlertRuleDefinition} (htype : rule.type = .eventTopicEquals) (record : EventResponse ScVal) :
    matchesEvent toLowerCase rule publicKey (normalizeContractEvent toXDR record) = false := by
  unfold matchesEvent
  rw [htype, topicEquals_normalizeContractEvent, Bool.and_false]

/-- A stored topic rule is exact on a contract event if and only if the event has
none of its topics, however the topics are decoded. -/
theorem topic_rule_exact_iff (toLowerCase : Text → Text) (decode : ScVal → Text) (publicKey : Text) (id : Nat)
    (dto : AlertRuleDto) (watchType : WatchType) (rule : AlertRuleDefinition) (record : EventResponse ScVal)
    (hrule : toAlertRule id dto watchType = .ok rule) (htype : dto.type = .eventTopicEquals) :
    TopicRuleExact toXDR toLowerCase decode publicKey rule record ↔
      ∀ topic ∈ record.topic, trimmed dto.topic ≠ some (decode topic) := by
  obtain ⟨-, hrt, -, -, htopic, -⟩ := toAlertRule_ok hrule
  rw [TopicRuleExact, matchesEvent_normalizeContractEvent toXDR toLowerCase publicKey (hrt.trans htype), htopic]
  simp

/-- The symbols that contract events are named with, as the one kind of value here. -/
def symbolXDR (symbol : Text) : Text :=
  if symbol = text "transfer" then text "AAAADwAAAAh0cmFuc2Zlcg==" else []

def transferEvent : EventResponse Text where
  id := text "0000000004294967296-0000000001"
  type := text "contract"
  ledger := 1
  ledgerClosedAt := text "2026-01-01T00:00:00Z"
  pagingToken := text "0000000004294967296-0000000001"
  inSuccessfulContractCall := true
  txHash := text "00"
  contractId := none
  topic := [text "transfer"]
  value := text "transfer"

def transferDto : AlertRuleDto := { type := .eventTopicEquals, topic := some (text " transfer ") }

def transferRule : AlertRuleDefinition := ⟨0, .eventTopicEquals, none, none, none, [.inApp], some (text "transfer")⟩

theorem topic_rule_not_exact :
    toAlertRule 0 transferDto .contract = .ok transferRule ∧
      ¬ TopicRuleExact symbolXDR id id [] transferRule transferEvent := by
  refine ⟨by decide, ?_⟩
  intro h
  have hmatch := h.mpr ⟨text "transfer", by decide, by decide⟩
  exact absurd hmatch (by decide)

theorem topic_rule_exact_iff_transfer :
    TopicRuleExact symbolXDR id id [] transferRule transferEvent ↔
      ∀ topic ∈ transferEvent.topic, trimmed transferDto.topic ≠ some (id topic) :=
  topic_rule_exact_iff symbolXDR id id [] 0 transferDto .contract transferRule transferEvent (by decide) (by decide)

end Savitools.Monitor.TopicRules
