import Savitools.Monitor.NotificationWorker
import Mathlib.Tactic.Tauto

namespace Savitools.Monitor.HeldNotifications

open Transitions.Runs Monitor.Types NotificationWorker

def holdsChannel (attempts : List DeliveryAttempt) : Bool :=
  attempts.any (fun attempt => attempt.status = .held)

/-- The statuses that the claim query of the digest scheduler selects, now or
once the claim has expired. -/
def claimable (alert : AlertEvent) : Bool :=
  alert.deliveryStatus = .held || alert.deliveryStatus = .claimed

def NotForgotten (s : State) : Prop :=
  ∀ alert ∈ s.alert, holdsChannel alert.deliveryAttempts = true →
    claimable alert = true ∨ s.waiting = true

def Visit.rejects (visit : Visit) : Bool := match visit.work with | .rejects _ => true | _ => false

def Visit.holds (visit : Visit) : Bool := match visit.work with | .holds => true | _ => false

def Visit.fails (visit : Visit) : Bool := match visit.work with | .fails _ => true | _ => false

def Visit.settles (visit : Visit) : Bool :=
  match visit.work with | .holds | .delivers => true | _ => false

/-- The entries of a rule that a run has to work on: a channel is left out once
it is delivered or held. -/
def remaining (done : NotificationChannel → Bool) : List Visit → List Visit
  | [] => []
  | visit :: visits =>
      if done visit.channel then remaining done visits
      else visit :: remaining (fun channel =>
        done channel || (visit.channel = channel && Visit.settles visit)) visits

def worklist (alert : AlertEvent) (answers : Answers) : List Visit :=
  match findRule alert answers with
  | .error _ => []
  | .ok rule => remaining (settled alert.deliveryAttempts) (visits rule answers)

def interrupted (alert : AlertEvent) (answers : Answers) : Bool :=
  !answers.alert.isOk || !(findRule alert answers).isOk ||
    (worklist alert answers).any Visit.rejects ||
      (match answers.saved with | .rejected _ => true | _ => false)

def throwsAfterSave (answers : Answers) : Bool :=
  match answers.saved with | .thenThrows _ => true | _ => false

def Kept (s : State) (answers : Answers) : Prop :=
  ∀ alert ∈ s.alert,
    let carried := holdsChannel alert.deliveryAttempts
    let holds := (worklist alert answers).any Visit.holds
    if interrupted alert answers then hasRetriesLeft s.job ∨ (carried → claimable alert)
    else if (worklist alert answers).any Visit.fails then hasRetriesLeft s.job ∨ ¬ (carried ∨ holds)
    else holds ∨ (carried → throwsAfterSave answers ∧ hasRetriesLeft s.job)

structure Worked (p q : Progress) (work : List Visit) : Prop where
  rejects : work.any Visit.rejects = false
  failures : q.failures = [] ↔ p.failures = [] ∧ work.any Visit.fails = false
  held : q.hasHeldChannel = (p.hasHeldChannel || work.any Visit.holds)
  holding : holdsChannel q.attempts = (holdsChannel p.attempts || work.any Visit.holds)

theorem Worked.refl (p : Progress) : Worked p p [] := ⟨rfl, by simp, by simp, by simp⟩

theorem Worked.cons {p q r : Progress} {visit : Visit} {work : List Visit}
    (h : Worked p q [visit]) (hw : Worked q r work) : Worked p r (visit :: work) where
  rejects := by simpa [hw.rejects] using h.rejects
  failures := by rw [hw.failures, h.failures]; simp [and_assoc]
  held := by rw [hw.held, h.held]; simp [Bool.or_assoc]
  holding := by rw [hw.holding, h.holding]; simp [Bool.or_assoc]

theorem holdsChannel_replaceAttempt {attempts : List DeliveryAttempt} {next : DeliveryAttempt}
    (h : settled attempts next.channel = false) :
    holdsChannel (replaceAttempt attempts next) =
      (holdsChannel attempts || decide (next.status = .held)) := by
  apply any_replaceAttempt
  intro attempt ha hc
  simpa using (not_settled h ha hc).2

theorem foldlM_of_ok {job : Job} {p q : Progress} {visit : Visit} (h : workChannel job p visit = .ok q)
    (visits : List Visit) :
    (visit :: visits).foldlM (workChannel job) p = visits.foldlM (workChannel job) q := by
  rw [List.foldlM_cons, h]
  rfl

theorem foldlM_of_error {job : Job} {p : Progress} {visit : Visit} {error : String}
    (h : workChannel job p visit = .error error) (visits : List Visit) :
    (visit :: visits).foldlM (workChannel job) p = .error error := by
  rw [List.foldlM_cons, h]
  rfl

theorem worked_workChannel (job : Job) {p : Progress} {visit : Visit}
    (h : settled p.attempts visit.channel = false) :
    (∃ error, workChannel job p visit = .error error ∧ Visit.rejects visit = true) ∨
      ∃ q, workChannel job p visit = .ok q ∧ Worked p q [visit] ∧
        settled q.attempts = fun channel =>
          settled p.attempts channel || (visit.channel = channel && Visit.settles visit) := by
  -- one attempt of the visited channel takes the place of an unsettled one
  have hheld (status : DeliveryStatus) (error : Option String) :=
    @holdsChannel_replaceAttempt _ ⟨visit.channel, status, some visit.answer.attemptedAt, error⟩ h
  have hsettled (status : DeliveryStatus) (error : Option String) :=
    @settled_replaceAttempt _ ⟨visit.channel, status, some visit.answer.attemptedAt, error⟩ h
  cases hw : visit.work with
  | rejects error => exact .inl ⟨error, by simp [workChannel, h, hw], by simp [Visit.rejects, hw]⟩
  | holds | delivers =>
      refine .inr ⟨_, by simp only [workChannel, h, hw]; rfl, ⟨?_, ?_, ?_, ?_⟩, ?_⟩
      · simp [Visit.rejects, hw]
      · simp [Visit.fails, hw]
      · simp [Visit.holds, hw]
      · simp [Visit.holds, hw, hheld]
      · funext channel
        simp [Visit.settles, hw, hsettled]
  | fails error =>
      have hstatus : (if hasRetriesLeft job then DeliveryStatus.retrying else .failed) ≠ .held ∧
          (if hasRetriesLeft job then DeliveryStatus.retrying else .failed) ≠ .delivered := by
        split <;> exact ⟨by decide, by decide⟩
      refine .inr ⟨_, by simp only [workChannel, h, hw]; rfl, ⟨?_, ?_, ?_, ?_⟩, ?_⟩
      · simp [Visit.rejects, hw]
      · simp [Visit.fails, hw]
      · simp [Visit.holds, hw]
      · simp [Visit.holds, hw, hheld, hstatus]
      · funext channel
        simp [Visit.settles, hw, hsettled, hstatus]

theorem worked_foldlM (job : Job) (visits : List Visit) (p : Progress) :
    (∃ error, visits.foldlM (workChannel job) p = .error error ∧
        (remaining (settled p.attempts) visits).any Visit.rejects = true) ∨
      ∃ q, visits.foldlM (workChannel job) p = .ok q ∧
        Worked p q (remaining (settled p.attempts) visits) := by
  induction visits generalizing p with
  | nil => exact .inr ⟨p, rfl, .refl p⟩
  | cons visit visits ih =>
      cases hs : settled p.attempts visit.channel with
      | true =>
          rw [foldlM_of_ok (by simp only [workChannel, hs]; rfl), remaining, if_pos hs]
          exact ih p
      | false =>
          rw [remaining, if_neg (by simp [hs])]
          rcases worked_workChannel job hs with ⟨error, he, hr⟩ | ⟨q, hq, hw, hset⟩
          · exact .inl ⟨error, foldlM_of_error he visits, by simp [hr]⟩
          · rw [foldlM_of_ok hq, ← hset]
            rcases ih q with ⟨error, he, hr⟩ | ⟨r, hr, hwr⟩
            · exact .inl ⟨error, he, by simp [hr]⟩
            · exact .inr ⟨r, hr, hw.cons hwr⟩

/-- The two ways a run on an existing alert can go: nothing is saved, or the
alert is saved with what the loop over the channels has made of it. -/
theorem process_cases (alert : AlertEvent) (job : Job) (answers : Answers) :
    (interrupted alert answers = true ∧
        ∃ error, process (some alert) job answers = (some alert, some error)) ∨
      interrupted alert answers = false ∧ ∃ q thrown,
        Worked { attempts := alert.deliveryAttempts } q (worklist alert answers) ∧
        process (some alert) job answers = (some (finish alert job answers.now q), thrown) ∧
        (thrown.isSome = true ↔ q.failures ≠ [] ∨ throwsAfterSave answers = true) := by
  simp only [interrupted, process]
  cases ha : answers.alert with
  | error error => exact .inl ⟨by simp [Except.isOk, Except.toBool], error, rfl⟩
  | ok =>
      cases hr : findRule alert answers with
      | error error =>
          refine .inl ⟨by simp [Except.isOk, Except.toBool], error, ?_⟩
          simp only [workChannels, hr]
      | ok rule =>
          have hwork : worklist alert answers =
              remaining (settled alert.deliveryAttempts) (visits rule answers) := by
            simp only [worklist, hr]
          rcases worked_foldlM job (visits rule answers) { attempts := alert.deliveryAttempts } with
            ⟨error, he, hrej⟩ | ⟨q, hq, hw⟩
          · refine .inl ⟨by rw [hwork, hrej]; simp, error, ?_⟩
            simp only [workChannels, hr, he]
          · rw [← hwork] at hw
            cases hs : answers.saved with
            | rejected error => exact .inl ⟨by simp, error, by simp only [workChannels, hr, hq]⟩
            | saved =>
                refine .inr ⟨by simp [Except.isOk, Except.toBool, hw.rejects], q, q.failures.head?, hw, ?_, ?_⟩
                · simp only [workChannels, hr, hq]
                · simp [throwsAfterSave, hs]
            | thenThrows error =>
                refine .inr ⟨by simp [Except.isOk, Except.toBool, hw.rejects], q, some error, hw, ?_, ?_⟩
                · simp only [workChannels, hr, hq]
                · simp [throwsAfterSave, hs]

theorem claimable_finish (alert : AlertEvent) (job : Job) (now : Nat) (q : Progress) :
    claimable (finish alert job now q) = true ↔ q.failures = [] ∧ q.hasHeldChannel = true := by
  cases hf : q.failures with
  | nil => cases hh : q.hasHeldChannel <;> simp [claimable, finish, hf, hh]
  | cons error errors => cases hr : hasRetriesLeft job <;> simp [claimable, finish, hf, hr]

theorem step_eq {s t : State} {answers : Answers} (h : step s answers = some t) :
    t.alert = (process s.alert s.job answers).1 ∧
      t.waiting = ((process s.alert s.job answers).2.isSome && hasRetriesLeft s.job) := by
  simp only [step] at h
  split at h
  next =>
    split at h
    next hp => cases h; simp [hp]
    next hp => cases h; simp [hp]
  next => cases h

theorem notForgotten_iff_kept (s : State) (answers : Answers) (t : State)
    (h : step s answers = some t) : NotForgotten t ↔ Kept s answers := by
  obtain ⟨halert, hwaiting⟩ := step_eq h
  simp only [NotForgotten, Kept]
  rw [halert, hwaiting]
  cases hrow : s.alert with
  | none =>
      have hnone : (process none s.job answers).1 = none := by
        simp only [process]
        split <;> simp_all
      simp [hnone]
  | some alert =>
      rcases process_cases alert s.job answers with ⟨hi, error, hp⟩ | ⟨hi, q, thrown, hw, hp, hthrown⟩
      · simp only [hp, Option.mem_some_iff, forall_eq', hi, if_true, Option.isSome_some, Bool.true_and]
        tauto
      · have hfailures := hw.failures
        simp only [true_and] at hfailures
        have hheld : q.hasHeldChannel = (worklist alert answers).any Visit.holds := by
          simpa using hw.held
        simp only [hp, Option.mem_some_iff, forall_eq', hi, Bool.false_eq_true, if_false,
          claimable_finish, Bool.and_eq_true, hthrown, hfailures, hheld, ne_eq]
        have hholding : holdsChannel (finish alert s.job answers.now q).deliveryAttempts =
            (holdsChannel alert.deliveryAttempts || (worklist alert answers).any Visit.holds) := hw.holding
        rw [hholding, Bool.or_eq_true]
        cases hfails : (worklist alert answers).any Visit.fails with
        | true =>
            -- the status is not claimable: only another retry keeps the channel
            simp only [if_true, Bool.true_eq_false, false_and, not_false_eq_true, true_or, true_and, false_or]
            tauto
        | false =>
            -- the status is 'held' exactly when this run has held a channel itself
            simp only [Bool.false_eq_true, if_false, true_and, not_true_eq_false, false_or]
            tauto

/-- In every sequence of runs, no held channel is forgotten in any state reached
exactly when no run drops one. -/
theorem held_not_forgotten_iff (s : State) (runs : List Answers) (hw : s.waiting = true) :
    Throughout step NotForgotten s runs ↔ Guarded step Kept s runs :=
  throughout_iff_guarded notForgotten_iff_kept (fun _ _ _ => .inr hw) runs

instance (s : State) (answers : Answers) : Decidable (Kept s answers) :=
  inferInstanceAs (Decidable (∀ alert ∈ s.alert,
    if interrupted alert answers then hasRetriesLeft s.job ∨ (holdsChannel alert.deliveryAttempts → claimable alert)
    else if (worklist alert answers).any Visit.fails then
      hasRetriesLeft s.job ∨
        ¬ (holdsChannel alert.deliveryAttempts ∨ (worklist alert answers).any Visit.holds)
    else (worklist alert answers).any Visit.holds ∨
      (holdsChannel alert.deliveryAttempts → throwsAfterSave answers ∧ hasRetriesLeft s.job)))

def mailAndHook : AlertRule := ⟨1, [.email, .webhook]⟩

def answering (email webhook : Answer) : Answers :=
  ⟨.ok (), .ok true, [mailAndHook], fun i => if i = 0 then email else webhook, 0, .saved⟩

/-- Both channels fail at first; by the time of the retry quiet hours have begun. -/
def quietRetry : List Answers :=
  [answering ⟨.ok false, .error "smtp", 0⟩ ⟨.ok false, .error "HTTP 500", 0⟩,
    answering ⟨.ok true, .ok (), 1⟩ ⟨.ok false, .ok (), 1⟩]

theorem held_not_forgotten_quietRetry :
    Throughout step NotForgotten (enqueued mailAndHook) quietRetry :=
  (held_not_forgotten_iff (enqueued mailAndHook) quietRetry rfl).mpr (by decide)

/-- The e-mail is held while the webhook fails; the retry skips the held e-mail
and delivers the webhook. -/
def hookRetry : List Answers :=
  [answering ⟨.ok true, .ok (), 0⟩ ⟨.ok false, .error "HTTP 500", 0⟩,
    answering ⟨.ok true, .ok (), 1⟩ ⟨.ok false, .ok (), 1⟩]

theorem held_forgotten :
    ∃ s, run step (enqueued mailAndHook) hookRetry = some s ∧ s.waiting = false ∧
      ∃ alert ∈ s.alert, alert.deliveryStatus = .delivered ∧
        holdsChannel alert.deliveryAttempts = true ∧ ¬ NotForgotten s := by
  obtain ⟨s, hr, hp⟩ := exists_of_run_any step (enqueued mailAndHook) hookRetry
    (fun s => s.alert.any (fun alert => alert.deliveryStatus = .delivered &&
      holdsChannel alert.deliveryAttempts) && !s.waiting) (by decide)
  simp only [Bool.and_eq_true, Option.any_eq_true, decide_eq_true_eq, Bool.not_eq_true'] at hp
  obtain ⟨⟨alert, ha, hd, hh⟩, hw⟩ := hp
  refine ⟨s, hr, hw, alert, ha, hd, hh, ?_⟩
  intro hkept
  simpa [claimable, hd, hw] using hkept alert ha hh

end Savitools.Monitor.HeldNotifications
