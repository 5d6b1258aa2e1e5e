import Savitools.Monitor.ChannelSends
import Savitools.Stores.Keyed

namespace Savitools.Monitor.AlertQueue

open Stores.Keyed Transitions.Runs Monitor.Types NotificationWorker ChannelSends

/-- The id of a job: that of its alert, with `force` followed by the time of the clock. -/
inductive JobId
  | alert (alertEventId : Nat)
  | forced (alertEventId now : Nat)
deriving DecidableEq

def JobId.alertEventId : JobId → Nat
  | .alert alertEventId => alertEventId
  | .forced alertEventId _ => alertEventId

/-- An active job holds what its run found of the alert. One whose retry is delayed is waiting. -/
inductive JobState
  | waiting
  | active (alert : Option AlertEvent)
  | completed
  | failed
deriving DecidableEq

structure QueuedJob where
  id : JobId
  attemptsMade : Nat := 0
  state : JobState := .waiting
deriving DecidableEq

/-- The data of a job: `enqueue` makes the id of the alert that it puts there. -/
def QueuedJob.alertEventId (job : QueuedJob) : Nat := job.id.alertEventId

/-- The job as a run sees it, with the default options of the queue. -/
def QueuedJob.job (job : QueuedJob) : Job := ⟨job.attemptsMade, some 5⟩

structure Alert where
  id : Nat
  createdAt : Nat
  event : AlertEvent
deriving DecidableEq

/-- The await points of `dispatchPending`: the query, and the call of `enqueue` for each alert found. -/
inductive Dispatch
  | idle
  | finding
  | enqueuing (alerts : List Nat)
deriving DecidableEq

/-- The alerts that it has still to enqueue. -/
def Dispatch.alerts : Dispatch → List Nat
  | .enqueuing alerts => alerts
  | .idle | .finding => []

structure Replica where
  isLeader : Bool
  dispatching : Dispatch := .idle
deriving DecidableEq

/-- A run of `process` that is over, with the calls that it made of `deliver`. -/
structure Ended where
  alertEventId : Nat
  sends : List Send
  saved : Bool
  crashed : Bool
deriving DecidableEq

/-- The alerts, the queue and the replicas. The runs that ended and the alerts that were sent again are
kept for the statements only. -/
structure State where
  alerts : KeyedRows Alert.id
  jobs : KeyedRows QueuedJob.id
  replicas : List Replica
  nextId : Nat
  resent : List Nat
  ended : List Ended

def initial (replicas : Nat) : State where
  alerts := ⟨[], List.nodup_nil⟩
  jobs := ⟨[], List.nodup_nil⟩
  replicas := List.replicate replicas { isLeader := false }
  nextId := 0
  resent := []
  ended := []

inductive Act
  | insertAlert (createdAt : Nat) (rule : AlertRule)
  | enqueue (alertEventId : Nat)
  | leadershipChange (replica : Nat) (isLeader : Bool)
  | dispatchPending (replica : Nat)
  | found (replica : Nat) (order : Option (List Alert))
  | dispatchNext (replica : Nat) (outcome : Outcome)
  | takeJob (job : JobId)
  | finishRun (job : JobId) (answers : Answers)
  | crash (job : JobId) (answers : Answers) (sent : Nat) (saved stalled : Bool)
  | removeJob (job : JobId)
  | resendAlert (alertEventId : Nat) (channels : List NotificationChannel)
  | enqueueForced (alertEventId now : Nat)
  | flushDigest (alertEventId : Nat) (status : DeliveryStatus) (deliveredAt : Option Nat)
  | deleteAlert (alertEventId : Nat)

/-- `queue.add`: nothing happens if there is a job of this id, be it over. -/
def addJob (jobs : KeyedRows QueuedJob.id) (id : JobId) : KeyedRows QueuedJob.id :=
  if (jobs.get? id).isSome then jobs else jobs.put { id := id }

def enqueue (s : State) (alertEventId : Nat) (force : Option Nat) : State :=
  { s with jobs := addJob s.jobs (force.elim (.alert alertEventId) (.forced alertEventId)) }

def isPending (event : AlertEvent) : Bool :=
  event.deliveryStatus = .pending || event.deliveryStatus = .retrying

/-- An answer to the query for the pending alerts, before its limit: alerts of one time come in any order. -/
def IsAnswer (alerts : List Alert) (order : List Alert) : Prop :=
  order.Perm (alerts.filter fun alert => isPending alert.event) ∧
    order.Pairwise fun earlier later => earlier.createdAt ≤ later.createdAt

instance (alerts order : List Alert) : Decidable (IsAnswer alerts order) :=
  inferInstanceAs (Decidable (_ ∧ _))

/-- The loop over the alerts that are left. -/
def loop : List Nat → Dispatch
  | [] => .idle
  | alerts => .enqueuing alerts

def State.setReplica (s : State) (index : Nat) (replica : Replica) : State :=
  { s with replicas := s.replicas.set index replica }

def dispatchPending (s : State) (index : Nat) (replica : Replica) : State :=
  if replica.isLeader ∧ replica.dispatching = .idle then
    s.setReplica index { replica with dispatching := .finding }
  else s

def found (s : State) (index : Nat) (replica : Replica) (order : List Alert) : State :=
  s.setReplica index { replica with dispatching := loop ((order.take 500).map Alert.id) }

/-- One round of the loop. An error of the queue ends it, also when the job has been added. -/
def dispatchNext (s : State) (index : Nat) (replica : Replica) (alertEventId : Nat) (rest : List Nat) :
    Outcome → State
  | .answered => (enqueue s alertEventId none).setReplica index { replica with dispatching := loop rest }
  | .rejected => s.setReplica index { replica with dispatching := .idle }
  | .lost => (enqueue s alertEventId none).setReplica index { replica with dispatching := .idle }

def Alert.write (f : AlertEvent → AlertEvent) (alert : Alert) : Alert := { alert with event := f alert.event }

def State.write (s : State) (alertEventId : Nat) (f : AlertEvent → AlertEvent) : State :=
  { s with alerts := s.alerts.updateKeys [alertEventId] (Alert.write f) (fun _ => rfl) }

/-- A run ends: it saves what it has made of the alert or does not, and the queue moves its job on. -/
def close (s : State) (job : QueuedJob) (event : Option AlertEvent) (run : Ended) (attemptsMade : Nat)
    (state : JobState) : State :=
  { (event.elim s fun event => s.write job.alertEventId fun _ => event) with
    jobs := s.jobs.put { job with attemptsMade := attemptsMade, state := state }
    ended := s.ended ++ [run] }

/-- What a run saves, if it saves. The foreign keys reject the row of an alert that is gone. -/
def savedEvent (s : State) (job : QueuedJob) (alert : Option AlertEvent) (answers : Answers) :
    Option AlertEvent :=
  if saves alert job.job answers ∧ (s.alerts.get? job.alertEventId).isSome then (process alert job.job answers).1 else none

def finishRun (s : State) (job : QueuedJob) (alert : Option AlertEvent) (answers : Answers) :
    Option State :=
  let event := savedEvent s job alert answers
  -- a save that is answered is one that the table has taken
  if saves alert job.job answers = event.isSome then
    let run : Ended := ⟨job.alertEventId, processSends alert job.job answers, event.isSome, false⟩
    match (process alert job.job answers).2 with
    | none => some (close s job event run job.attemptsMade .completed)
    | some _ => some (close s job event run (job.attemptsMade + 1) (if hasRetriesLeft job.job then .waiting else .failed))
  else none

/-- The process dies after some calls of `deliver`, or after the save; the queue gives the stalled job to another run
or fails it. -/
def crash (s : State) (job : QueuedJob) (alert : Option AlertEvent) (answers : Answers) (sent : Nat)
    (saved stalled : Bool) : State :=
  let event := if saved then savedEvent s job alert answers else none
  let sends := processSends alert job.job answers
  close s job event ⟨job.alertEventId, if event.isSome then sends else sends.take sent, event.isSome, true⟩ job.attemptsMade
    (if stalled then .waiting else .failed)

def takeJob (s : State) (job : QueuedJob) : State :=
  { s with jobs := s.jobs.put { job with state := .active ((s.alerts.get? job.alertEventId).map Alert.event) } }

def toResend (channels : List NotificationChannel) (event : AlertEvent) : AlertEvent :=
  { event with
    deliveryStatus := .pending
    deliveryAttempts := channels.map (⟨·, .pending, none, none⟩)
    deliveredAt := none }

/-- The channels are those of the attempts that the call has loaded, at some time before. -/
def resendAlert (s : State) (alertEventId : Nat) (channels : List NotificationChannel) : State :=
  { s.write alertEventId (toResend channels) with resent := alertEventId :: s.resent }

def step : Step State Act
  | s, .insertAlert createdAt rule =>
      some { s with
        alerts := s.alerts.put ⟨s.nextId, createdAt,
          ⟨rule.id, .pending, rule.channels.map (⟨·, .pending, none, none⟩), none⟩⟩
        nextId := s.nextId + 1 }
  | s, .enqueue alertEventId => if alertEventId < s.nextId then some (enqueue s alertEventId none) else none
  | s, .leadershipChange replica isLeader =>
      s.replicas[replica]?.map fun r => s.setReplica replica { r with isLeader := isLeader }
  | s, .dispatchPending replica => s.replicas[replica]?.map (dispatchPending s replica)
  | s, .found replica order =>
      match s.replicas[replica]? with
      | some ⟨isLeader, .finding⟩ =>
          match order with
          | none => some (s.setReplica replica ⟨isLeader, .idle⟩)
          | some order => if IsAnswer s.alerts.rows order then some (found s replica ⟨isLeader, .finding⟩ order) else none
      | _ => none
  | s, .dispatchNext replica outcome =>
      match s.replicas[replica]? with
      | some ⟨isLeader, .enqueuing (alert :: rest)⟩ =>
          some (dispatchNext s replica ⟨isLeader, .enqueuing (alert :: rest)⟩ alert rest outcome)
      | _ => none
  | s, .takeJob id =>
      match s.jobs.get? id with
      | some job => if job.state = .waiting then some (takeJob s job) else none
      | none => none
  | s, .finishRun id answers =>
      match s.jobs.get? id with
      | some ⟨id, attemptsMade, .active alert⟩ => finishRun s ⟨id, attemptsMade, .active alert⟩ alert answers
      | _ => none
  | s, .crash id answers sent saved stalled =>
      match s.jobs.get? id with
      | some ⟨id, attemptsMade, .active alert⟩ =>
          some (crash s ⟨id, attemptsMade, .active alert⟩ alert answers sent saved stalled)
      | _ => none
  | s, .removeJob id =>
      match s.jobs.get? id with
      | some job => if job.state = .completed ∨ job.state = .failed then some { s with jobs := s.jobs.delete id } else none
      | none => none
  | s, .resendAlert alertEventId channels =>
      if (s.alerts.get? alertEventId).isSome then some (resendAlert s alertEventId channels) else none
  | s, .enqueueForced alertEventId now => if alertEventId ∈ s.resent then some (enqueue s alertEventId (some now)) else none
  | s, .flushDigest alertEventId status deliveredAt =>
      if status = .held ∨ status = .claimed ∨ status = .delivered then
        some (s.write alertEventId fun event => { event with deliveryStatus := status, deliveredAt := deliveredAt })
      else none
  | s, .deleteAlert alertEventId => some { s with alerts := s.alerts.delete alertEventId }

end Savitools.Monitor.AlertQueue
