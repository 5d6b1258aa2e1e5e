import Savitools.Monitor.Types
import Savitools.Transitions.Runs

namespace Savitools.Monitor.NotificationWorker

open Transitions.Runs Monitor.Types

structure AlertRule where
  id : Nat
  channels : List NotificationChannel

structure AlertEvent where
  ruleId : Nat
  deliveryStatus : DeliveryStatus
  deliveryAttempts : List DeliveryAttempt
  deliveredAt : Option Nat
deriving DecidableEq

/-- The job of an alert; `attempts` is the option of that name, if it is a number. -/
structure Job where
  attemptsMade : Nat
  attempts : Option Nat

def hasRetriesLeft (job : Job) : Bool := job.attemptsMade + 1 < job.attempts.getD 1

/-- What a run learns while it works on one entry of `rule.channels`. Without a
digest service `shouldHold` answers false. -/
structure Answer where
  shouldHold : Except String Bool
  delivery : Except String Unit
  attemptedAt : Nat

structure Visit where
  channel : NotificationChannel
  answer : Answer

inductive Saved
  | saved
  | rejected (error : String)
  | thenThrows (error : String)

/-- Everything a run of `process` learns from outside. The emit after the save
may throw as well, which is `Saved.thenThrows`. -/
structure Answers where
  alert : Except String Unit
  user : Except String Bool
  alertRules : List AlertRule
  channel : Nat → Answer
  now : Nat
  saved : Saved

inductive Work
  | rejects (error : String)
  | holds
  | delivers
  | fails (error : String)

/-- Webhooks are never held: for them `shouldHoldAlert` is not even asked. -/
def Visit.work (visit : Visit) : Work :=
  let deliver : Work := match visit.answer.delivery with
    | .ok () => .delivers
    | .error error => .fails error
  match visit.channel, visit.answer.shouldHold with
  | .webhook, _ => deliver
  | _, .error error => .rejects error
  | _, .ok true => .holds
  | _, .ok false => deliver

def replaceAttempt (attempts : List DeliveryAttempt) (next : DeliveryAttempt) : List DeliveryAttempt :=
  match attempts.findIdx? (fun attempt => attempt.channel = next.channel) with
  | none => attempts ++ [next]
  | some index => attempts.set index next

def settled (attempts : List DeliveryAttempt) (channel : NotificationChannel) : Bool :=
  attempts.any (fun attempt =>
    attempt.channel = channel && (attempt.status = .delivered || attempt.status = .held))

structure Progress where
  attempts : List DeliveryAttempt
  failures : List String := []
  hasHeldChannel : Bool := false

def workChannel (job : Job) (progress : Progress) (visit : Visit) : Except String Progress :=
  if settled progress.attempts visit.channel then .ok progress
  else
    let attempt (status : DeliveryStatus) (error : Option String) : List DeliveryAttempt :=
      replaceAttempt progress.attempts ⟨visit.channel, status, some visit.answer.attemptedAt, error⟩
    match visit.work with
    | .rejects error => .error error
    | .holds => .ok { progress with hasHeldChannel := true, attempts := attempt .held none }
    | .delivers => .ok { progress with attempts := attempt .delivered none }
    | .fails error => .ok { progress with
        failures := progress.failures ++ [error]
        attempts := attempt (if hasRetriesLeft job then .retrying else .failed) (some error) }

def visits (rule : AlertRule) (answers : Answers) : List Visit :=
  rule.channels.zipIdx.map (fun entry => ⟨entry.1, answers.channel entry.2⟩)

def findRule (alert : AlertEvent) (answers : Answers) : Except String AlertRule :=
  match answers.user with
  | .error error => .error error
  | .ok false => .error "Alert owner no longer exists"
  | .ok true =>
      match answers.alertRules.find? (fun rule => rule.id = alert.ruleId) with
      | none => .error "Alert rule no longer exists"
      | some rule => .ok rule

def workChannels (alert : AlertEvent) (job : Job) (answers : Answers) : Except String Progress :=
  match findRule alert answers with
  | .error error => .error error
  | .ok rule => (visits rule answers).foldlM (workChannel job) { attempts := alert.deliveryAttempts }

def finish (alert : AlertEvent) (job : Job) (now : Nat) (progress : Progress) : AlertEvent :=
  { alert with
    deliveryAttempts := progress.attempts
    deliveryStatus :=
      if progress.failures.length > 0 then if hasRetriesLeft job then .retrying else .failed
      else if progress.hasHeldChannel then .held else .delivered
    deliveredAt :=
      if progress.failures.length = 0 ∧ progress.hasHeldChannel = false then some now else none }

def process (alert : Option AlertEvent) (job : Job) (answers : Answers) :
    Option AlertEvent × Option String :=
  match answers.alert, alert with
  | .error error, _ => (alert, some error)
  | .ok (), none => (none, none)
  | .ok (), some row =>
      match workChannels row job answers, answers.saved with
      | .error error, _ => (alert, some error)
      | .ok _, .rejected error => (alert, some error)
      | .ok progress, .saved => (some (finish row job answers.now progress), progress.failures.head?)
      | .ok progress, .thenThrows error => (some (finish row job answers.now progress), some error)

/-- An alert and its job; `waiting` says that the queue will run the job (again). -/
structure State where
  alert : Option AlertEvent
  job : Job
  waiting : Bool

/-- One run of the job. The queue retries a run that throws while attempts are left. -/
def step : Step State Answers
  | s, answers =>
      if s.waiting then
        match process s.alert s.job answers with
        | (alert, none) => some { s with alert := alert, waiting := false }
        | (alert, some _) => some {
            alert := alert
            job := { s.job with attemptsMade := s.job.attemptsMade + 1 }
            waiting := hasRetriesLeft s.job }
      else none

def enqueued (rule : AlertRule) : State where
  alert := some ⟨rule.id, .pending, rule.channels.map (fun channel => ⟨channel, .pending, none, none⟩), none⟩
  job := ⟨0, some 5⟩
  waiting := true

theorem any_replaceAttempt {attempts : List DeliveryAttempt} {next : DeliveryAttempt}
    (p : DeliveryAttempt → Bool)
    (h : ∀ attempt ∈ attempts, attempt.channel = next.channel → p attempt = false) :
    (replaceAttempt attempts next).any p = (attempts.any p || p next) := by
  simp only [replaceAttempt]
  induction attempts with
  | nil => simp
  | cons attempt attempts ih =>
      have ih := ih (fun a ha => h a (List.mem_cons_of_mem _ ha))
      by_cases hc : attempt.channel = next.channel
      · have hp := h attempt List.mem_cons_self hc
        simp [List.findIdx?_cons, hc, hp, Bool.or_comm]
      · rw [List.any_cons, Bool.or_assoc, ← ih, List.findIdx?_cons]
        cases hi : attempts.findIdx? (fun a => decide (a.channel = next.channel)) with
        | none => simp [hc]
        | some i => simp [hc]

theorem not_settled {attempts : List DeliveryAttempt} {channel : NotificationChannel}
    (h : settled attempts channel = false) {attempt : DeliveryAttempt} (ha : attempt ∈ attempts)
    (hc : attempt.channel = channel) : attempt.status ≠ .delivered ∧ attempt.status ≠ .held := by
  have hnot := List.any_eq_false.mp h attempt ha
  simp only [hc, decide_true, Bool.true_and, Bool.or_eq_true, decide_eq_true_eq, not_or] at hnot
  exact hnot

theorem settled_replaceAttempt {attempts : List DeliveryAttempt} {next : DeliveryAttempt}
    (h : settled attempts next.channel = false) (channel : NotificationChannel) :
    settled (replaceAttempt attempts next) channel = (settled attempts channel ||
      (next.channel = channel && (next.status = .delivered || next.status = .held))) := by
  apply any_replaceAttempt
  intro attempt ha hc
  obtain ⟨hd, hh⟩ := not_settled h ha hc
  simp [hd, hh]

end Savitools.Monitor.NotificationWorker
