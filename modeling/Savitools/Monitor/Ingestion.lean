import Savitools.Monitor.AlertEvaluator
import Savitools.Transitions.Runs

namespace Savitools.Monitor.Ingestion

open Strings.CodeUnits Strings.Decimals
open Monitor.Types AlertRules AlertEvaluator Watches

/-- A watch in memory, with its cursors and the time of its last event. -/
structure WatchObject where
  watch : Watch
  transactionCursor : Option Text
  paymentCursor : Option Text
  contractCursor : Option Text
  cursorLedger : Option Text
  lastEventAt : Option Int

structure WatchRow where
  id : Nat
  lastEventAt : Option Int
deriving DecidableEq

structure WatchEvent where
  id : Nat
  watchId : Nat
  pagingToken : Text
  source : EventSource
  eventType : EventSource
  payload : Payload
  occurredAt : Int

structure AlertEvent where
  id : Nat
  watchId : Nat
  watchEventId : Nat
  ruleId : Nat
  payload : Payload
  deliveryStatus : DeliveryStatus
  deliveryAttempts : List DeliveryAttempt

/-- The tables, and the supply of ids that are not taken. -/
structure Database where
  watches : List WatchRow
  events : List WatchEvent
  alerts : List AlertEvent
  nextId : Nat

def cursorColumn (object : WatchObject) : EventSource → Option Text
  | .transaction => object.transactionCursor
  | .payment => object.paymentCursor
  | .contract => object.contractCursor

/-- `^\d+$` -/
def isNumeric (t : Text) : Bool := t != [] && t.all isDigit

-- How strings are ordered by the locale, what `toLowerCase` makes of one, and the time that a text is.
variable (localeCompare : Text → Text → Int) (toLowerCase : Text → Text) (dateParse : Text → Int)

def compareNumericCursors (left right : Text) : Int :=
  if !isNumeric left || !isNumeric right then localeCompare left right
  else if digitsValue left = digitsValue right then 0
  else if digitsValue right < digitsValue left then 1
  else -1

def isAfterCursor (object : WatchObject) (event : NormalizedMonitorEvent) : Bool :=
  match cursorColumn object event.source with
  | none | some [] => true
  | some current =>
      if current = event.pagingToken then false
      else if event.source = .contract then
        match event.ledger, object.cursorLedger with
        | some ledger, some cursorLedger => digitsValue cursorLedger ≤ ledger
        | _, _ => true
      else 0 < compareNumericCursors localeCompare event.pagingToken current

/-- One round of the loop over the rules: the row of an alert, unless the unique index has one. -/
def insertAlert (object : WatchObject) (event : NormalizedMonitorEvent) (watchEventId : Nat)
    (found : Database × List AlertEvent) (rule : AlertRuleDefinition) : Database × List AlertEvent :=
  let (db, alertEvents) := found
  if !matchesEvent toLowerCase rule object.watch.publicKey event then (db, alertEvents)
  else if db.alerts.any fun alert =>
      alert.watchId = object.watch.id && alert.ruleId = rule.id && alert.watchEventId = watchEventId then
    (db, alertEvents)
  else
    let alert : AlertEvent :=
      { id := db.nextId
        watchId := object.watch.id
        watchEventId := watchEventId
        ruleId := rule.id
        payload := event.payload
        deliveryStatus := .pending
        deliveryAttempts := rule.channels.map fun channel => { channel := channel, status := .pending } }
    ({ db with alerts := db.alerts ++ [alert], nextId := db.nextId + 1 }, alertEvents ++ [alert])

def later (last : Option Int) (occurredAt : Int) : Option Int :=
  if last.all fun time => time < occurredAt then some occurredAt else last

inductive Insertion
  | duplicate
  | foreignKeyViolation
  | inserted (db : Database) (watchEvent : WatchEvent) (alertEvents : List AlertEvent)

/-- The row of an event goes in, and its time into the row of the watch. -/
def insertWatchEvent (db : Database) (watchEvent : WatchEvent) : Database :=
  { db with
    events := db.events ++ [watchEvent]
    nextId := db.nextId + 1
    watches := db.watches.map fun row =>
      if row.id = watchEvent.watchId then { row with lastEventAt := later row.lastEventAt watchEvent.occurredAt } else row }

/-- The transaction of `persistForWatch`, which leaves nothing behind if it fails. -/
def persistForWatch (db : Database) (object : WatchObject) (event : NormalizedMonitorEvent) : Insertion :=
  if db.events.any fun row =>
      row.watchId = object.watch.id && row.source = event.source && row.pagingToken = event.pagingToken then
    .duplicate
  else if !db.watches.any fun row => row.id = object.watch.id then .foreignKeyViolation
  else
    let watchEvent : WatchEvent :=
      { id := db.nextId
        watchId := object.watch.id
        pagingToken := event.pagingToken
        source := event.source
        eventType := event.eventType
        payload := event.payload
        occurredAt := dateParse event.occurredAt }
    let (db, alertEvents) :=
      object.watch.alertRules.foldl (insertAlert toLowerCase object event watchEvent.id) (insertWatchEvent db watchEvent, [])
    .inserted db watchEvent alertEvents

/-- Where a call of `ingest` is: in the transaction of the first of the watches that are left, behind it with an event
and its alerts, or at one alert after another of those that are to be enqueued. -/
inductive Phase
  | persisting (todo : List Nat)
  | emitting (ref : Nat) (watchEvent : WatchEvent) (alertEvents : List AlertEvent) (todo : List Nat)
  | enqueuing (alertEvent : Nat) (alertEvents : List Nat) (todo : List Nat)
  | failed

structure Call where
  event : NormalizedMonitorEvent
  phase : Phase

/-- `objects` are the watches in memory by their references, and `registry` those of a key. `emitted` are the events
that users were sent, and `jobs` the alerts that were added to the queue. The rest is history: what was stored, with
the rules that matched, what was raised, and what was stored without the call going on with it. -/
structure State where
  objects : Nat → WatchObject
  registry : Text → List Nat
  db : Database
  calls : List Call := []
  emitted : List (Nat × Nat) := []
  jobs : List Nat := []
  stored : List (Nat × List Nat) := []
  raised : List Nat := []
  unreported : List Nat := []
  unqueued : List Nat := []

/-- `ingest` starts a call and the next four acts let one go on. Watches change in memory, and their rows come and go,
at any time. -/
inductive Act
  | ingest (key : Text) (event : NormalizedMonitorEvent)
  | persist (call : Nat) (outcome : Outcome)
  | emit (call : Nat) (ok : Bool)
  | enqueue (call : Nat) (added : Bool)
  | change (ref : Nat) (object : WatchObject)
  | register (key : Text) (refs : List Nat)
  | createWatch (id : Nat)
  | deleteWatch (id : Nat)

/-- The loop over the alerts, and behind it the next watch. -/
def enqueueNext (alertEvents : List Nat) (todo : List Nat) : Phase :=
  match alertEvents with
  | [] => .persisting todo
  | alertEvent :: alertEvents => .enqueuing alertEvent alertEvents todo

def State.setCall (s : State) (i : Nat) (call : Call) (phase : Phase) : State :=
  { s with calls := s.calls.set i { call with phase := phase } }

/-- What of the rules of a watch an event meets. -/
def matching (object : WatchObject) (event : NormalizedMonitorEvent) : List Nat :=
  (object.watch.alertRules.filter fun rule => matchesEvent toLowerCase rule object.watch.publicKey event).map (·.id)

def State.record (s : State) (object : WatchObject) (event : NormalizedMonitorEvent) (db : Database)
    (watchEvent : WatchEvent) (alertEvents : List AlertEvent) : State :=
  { s with
    db := db
    stored := s.stored ++ [(watchEvent.id, matching toLowerCase object event)]
    raised := s.raised ++ alertEvents.map AlertEvent.id }

/-- The event of a call is stored, or its alerts are, and the call ends there. -/
def State.drop (s : State) (events alerts : List Nat) : State :=
  { s with unreported := s.unreported ++ events, unqueued := s.unqueued ++ alerts }

def stepPersist (s : State) (i : Nat) (call : Call) (ref : Nat) (todo : List Nat) (outcome : Outcome) : Option State :=
  let object := s.objects ref
  match persistForWatch toLowerCase dateParse s.db object call.event, outcome with
  | _, .rejected => some (s.setCall i call .failed)
  | .foreignKeyViolation, _ => none
  | .duplicate, .answered => some (s.setCall i call (.persisting todo))
  | .duplicate, .lost => some (s.setCall i call .failed)
  | .inserted db watchEvent alertEvents, .answered =>
      -- the object has the time of the event as well, once the answer is there
      let updated := { object with lastEventAt := later object.lastEventAt watchEvent.occurredAt }
      some ({ s.record toLowerCase object call.event db watchEvent alertEvents with
        objects := Function.update s.objects ref updated }.setCall i call (.emitting ref watchEvent alertEvents todo))
  | .inserted db watchEvent alertEvents, .lost =>
      some (((s.record toLowerCase object call.event db watchEvent alertEvents).drop [watchEvent.id]
        (alertEvents.map AlertEvent.id)).setCall i call .failed)

def stepCall (s : State) (i : Nat) (call : Call) : Phase → Act → Option State
  | .persisting (ref :: todo), .persist _ outcome => stepPersist toLowerCase dateParse s i call ref todo outcome
  | .emitting ref watchEvent alertEvents todo, .emit _ true =>
      some ({ s with emitted := s.emitted ++ [((s.objects ref).watch.userId, watchEvent.id)] }.setCall i call
        (enqueueNext (alertEvents.map AlertEvent.id) todo))
  | .emitting _ watchEvent alertEvents _, .emit _ false =>
      some ((s.drop [watchEvent.id] (alertEvents.map AlertEvent.id)).setCall i call .failed)
  | .enqueuing alertEvent alertEvents todo, .enqueue _ true =>
      some ({ s with jobs := s.jobs ++ [alertEvent] }.setCall i call (enqueueNext alertEvents todo))
  | .enqueuing alertEvent alertEvents todo, .enqueue _ false =>
      -- a failure is caught and logged, and without a queue nothing is added
      some ((s.drop [] [alertEvent]).setCall i call (enqueueNext alertEvents todo))
  | _, _ => none

def step (s : State) : Act → Option State
  | .ingest key event =>
      let watches := (s.registry key).filter fun ref =>
        let object := s.objects ref
        object.watch.eventTypes.contains event.eventType && isAfterCursor localeCompare object event
      some { s with calls := s.calls ++ [⟨event, .persisting watches⟩] }
  | .change ref object => some { s with objects := Function.update s.objects ref object }
  | .register key refs => some { s with registry := Function.update s.registry key refs }
  | .createWatch id =>
      if s.db.watches.any fun row => row.id = id then none
      else some { s with db := { s.db with watches := s.db.watches ++ [⟨id, none⟩] } }
  | .deleteWatch id =>
      some { s with db := { s.db with
        watches := s.db.watches.filter fun row => row.id ≠ id
        events := s.db.events.filter fun row => row.watchId ≠ id
        alerts := s.db.alerts.filter fun row => row.watchId ≠ id } }
  | .persist i outcome => do
      let call ← s.calls[i]?
      stepCall toLowerCase dateParse s i call call.phase (.persist i outcome)
  | .emit i ok => do
      let call ← s.calls[i]?
      stepCall toLowerCase dateParse s i call call.phase (.emit i ok)
  | .enqueue i added => do
      let call ← s.calls[i]?
      stepCall toLowerCase dateParse s i call call.phase (.enqueue i added)

def start (objects : Nat → WatchObject) (registry : Text → List Nat) : State :=
  { objects := objects, registry := registry, db := ⟨[], [], [], 0⟩ }

end Savitools.Monitor.Ingestion
