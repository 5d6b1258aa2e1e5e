import Savitools.Monitor.NotificationWorker

namespace Savitools.Monitor.ChannelSends

open Transitions.Runs Monitor.Types NotificationWorker

/-- A call of `deliver`, with what came of it. -/
structure Send where
  channel : NotificationChannel
  delivered : Bool
deriving DecidableEq

def sendsOf (visit : Visit) : List Send :=
  match visit.work with
  | .delivers => [⟨visit.channel, true⟩]
  | .fails _ => [⟨visit.channel, false⟩]
  | .holds | .rejects _ => []

/-- The calls that the loop over the channels makes. -/
def channelSends (job : Job) (progress : Progress) : List Visit → List Send
  | [] => []
  | visit :: visits =>
      let sends := if settled progress.attempts visit.channel then [] else sendsOf visit
      match workChannel job progress visit with
      | .error _ => sends
      | .ok next => sends ++ channelSends job next visits

def processSends (alert : Option AlertEvent) (job : Job) (answers : Answers) : List Send :=
  match answers.alert, alert with
  | .ok (), some row =>
      match findRule row answers with
      | .error _ => []
      | .ok rule => channelSends job { attempts := row.deliveryAttempts } (visits rule answers)
  | _, _ => []

/-- An alert and its job with the calls made for them so far, which no run reads. -/
structure State where
  run : NotificationWorker.State
  sends : List Send := []

def step : Step State Answers
  | s, answers => (NotificationWorker.step s.run answers).map fun run =>
      ⟨run, s.sends ++ processSends s.run.alert s.run.job answers⟩

/-- The run gets as far as the save of its attempts, and the save succeeds. -/
def saves (alert : Option AlertEvent) (job : Job) (answers : Answers) : Bool :=
  match answers.alert, alert with
  | .ok (), some row =>
      (workChannels row job answers).isOk && match answers.saved with | .rejected _ => false | _ => true
  | _, _ => false

/-- A run that sends saves its attempts. -/
def AttemptsSaved (s : State) (answers : Answers) : Prop :=
  processSends s.run.alert s.run.job answers ≠ [] → saves s.run.alert s.run.job answers = true

def recordedDelivered (attempts : List DeliveryAttempt) (channel : NotificationChannel) : Bool :=
  attempts.any fun attempt => attempt.channel = channel && attempt.status = .delivered

/-- A channel is sent again only after attempts that failed. -/
def ResentAfterFailure (sends : List Send) : Prop :=
  sends.Pairwise fun earlier later => earlier.channel = later.channel → earlier.delivered = false

/-- Past calls as the attempts remember them: what has been delivered is settled. -/
structure Remembered (sends : List Send) (attempts : List DeliveryAttempt) : Prop where
  resent : ResentAfterFailure sends
  delivered : ∀ send ∈ sends, send.delivered = true → settled attempts send.channel = true

/-- What one entry of the rule does: nothing, or one attempt of its channel, which is not settled. -/
theorem workChannel_cases {job : Job} {p q : Progress} {visit : Visit} (h : workChannel job p visit = .ok q) :
    (settled p.attempts visit.channel = true ∧ q = p) ∨
      settled p.attempts visit.channel = false ∧ ∃ next, next.channel = visit.channel ∧
        q.attempts = replaceAttempt p.attempts next ∧
        (sendsOf visit = [] ∨ ∃ delivered, sendsOf visit = [⟨visit.channel, delivered⟩] ∧
          (delivered = true → next.status = .delivered)) := by
  simp only [workChannel] at h
  split at h
  next hsettled => exact .inl ⟨hsettled, (Except.ok.inj h).symm⟩
  next hsettled =>
    refine .inr ⟨by simpa using hsettled, ?_⟩
    cases hw : visit.work with
    | rejects error => rw [hw] at h; cases h
    | holds =>
        rw [hw] at h
        cases h
        exact ⟨_, rfl, rfl, .inl (by simp [sendsOf, hw])⟩
    | delivers =>
        rw [hw] at h
        cases h
        exact ⟨_, rfl, rfl, .inr ⟨true, by simp [sendsOf, hw], fun _ => rfl⟩⟩
    | fails error =>
        rw [hw] at h
        cases h
        exact ⟨_, rfl, rfl, .inr ⟨false, by simp [sendsOf, hw], by nofun⟩⟩

theorem settled_workChannel {job : Job} {p q : Progress} {visit : Visit} (h : workChannel job p visit = .ok q)
    {channel : NotificationChannel} (hsettled : settled p.attempts channel = true) : settled q.attempts channel = true := by
  rcases workChannel_cases h with ⟨-, rfl⟩ | ⟨hnot, next, hnext, hattempts, -⟩
  · exact hsettled
  · rw [hattempts, settled_replaceAttempt (hnext ▸ hnot), hsettled, Bool.true_or]

theorem sendsOf_rejected {job : Job} {p : Progress} {visit : Visit} {error : String}
    (h : workChannel job p visit = .error error) : settled p.attempts visit.channel = false ∧ sendsOf visit = [] := by
  simp only [workChannel] at h
  split at h
  next => cases h
  next hsettled =>
    cases hw : visit.work with
    | rejects error => exact ⟨by simpa using hsettled, by simp [sendsOf, hw]⟩
    | _ => rw [hw] at h; cases h

theorem Remembered.workChannel {past : List Send} {job : Job} {p q : Progress} {visit : Visit}
    (hp : Remembered past p.attempts) (h : NotificationWorker.workChannel job p visit = .ok q) :
    Remembered (past ++ if settled p.attempts visit.channel then [] else sendsOf visit) q.attempts := by
  have hkept (send : Send) (hsend : send ∈ past) (hdelivered : send.delivered = true) :
      settled q.attempts send.channel = true := settled_workChannel h (hp.delivered send hsend hdelivered)
  rcases workChannel_cases h with ⟨hsettled, rfl⟩ | ⟨hnot, next, hnext, hattempts, hnone | ⟨delivered, hsend, hstatus⟩⟩
  · simpa [hsettled] using hp
  · simpa [hnot, hnone] using (⟨hp.resent, hkept⟩ : Remembered past q.attempts)
  · rw [if_neg (by simp [hnot]), hsend]
    constructor
    · refine List.pairwise_append.mpr ⟨hp.resent, List.pairwise_singleton _ _, fun earlier hearlier later hlater hsame => ?_⟩
      -- a delivered call would have settled the channel
      rw [List.mem_singleton.mp hlater] at hsame
      by_contra hdelivered
      have hsettled := hp.delivered earlier hearlier (by simpa using hdelivered)
      rw [hsame] at hsettled
      exact absurd (hsettled.symm.trans hnot) (by decide)
    · intro send hmem hdelivered
      rcases List.mem_append.mp hmem with hold | hnew
      · exact hkept send hold hdelivered
      · obtain rfl := List.mem_singleton.mp hnew
        rw [hattempts, settled_replaceAttempt (hnext ▸ hnot)]
        simp [hnext, hstatus hdelivered]

theorem Remembered.channelSends {job : Job} (visits : List Visit) {past : List Send} {p : Progress}
    (hp : Remembered past p.attempts) :
    ResentAfterFailure (past ++ ChannelSends.channelSends job p visits) ∧
      ∀ q, visits.foldlM (NotificationWorker.workChannel job) p = .ok q →
        Remembered (past ++ ChannelSends.channelSends job p visits) q.attempts := by
  induction visits generalizing past p with
  | nil =>
      simp only [ChannelSends.channelSends, List.append_nil]
      exact ⟨hp.resent, fun q hq => Except.ok.inj hq ▸ hp⟩
  | cons visit visits ih =>
      simp only [ChannelSends.channelSends, List.foldlM_cons]
      cases hw : NotificationWorker.workChannel job p visit with
      | error error =>
          obtain ⟨hnot, hnone⟩ := sendsOf_rejected hw
          simp only [hnot, hnone, ite_self, List.append_nil]
          exact ⟨hp.resent, by nofun⟩
      | ok next =>
          simp only [← List.append_assoc]
          exact ih (hp.workChannel hw)

theorem settled_foldlM {job : Job} {channel : NotificationChannel} (visits : List Visit) {p : Progress}
    (h : settled p.attempts channel = true) :
    (∀ send ∈ channelSends job p visits, send.channel ≠ channel) ∧
      ∀ q, visits.foldlM (workChannel job) p = .ok q → settled q.attempts channel = true := by
  induction visits generalizing p with
  | nil => exact ⟨by simp [channelSends], fun q hq => Except.ok.inj hq ▸ h⟩
  | cons visit visits ih =>
      have hnone : ∀ send ∈ (if settled p.attempts visit.channel then [] else sendsOf visit), send.channel ≠ channel := by
        intro send hsend hsame
        split at hsend
        next => cases hsend
        next hnot =>
          have hchannel : send.channel = visit.channel := by
            unfold sendsOf at hsend
            split at hsend <;> simp_all
          rw [← hchannel, hsame] at hnot
          exact hnot h
      simp only [channelSends, List.foldlM_cons]
      cases hw : workChannel job p visit with
      | error error => exact ⟨hnone, by nofun⟩
      | ok next =>
          obtain ⟨hsends, hsettled⟩ := ih (settled_workChannel hw h)
          exact ⟨fun send hsend => (List.mem_append.mp hsend).elim (hnone send) (hsends send), hsettled⟩

/-- A run works on the channels of a rule and saves what they come to, or leaves the alert as it was. -/
theorem process_cases (row : AlertEvent) (job : Job) (answers : Answers) :
    (∃ visits q, processSends (some row) job answers = channelSends job { attempts := row.deliveryAttempts } visits ∧
        visits.foldlM (workChannel job) { attempts := row.deliveryAttempts } = .ok q ∧
        (process (some row) job answers).1 = some (finish row job answers.now q)) ∨
      saves (some row) job answers = false ∧ (process (some row) job answers).1 = some row ∧
        (processSends (some row) job answers = [] ∨ ∃ visits,
          processSends (some row) job answers = channelSends job { attempts := row.deliveryAttempts } visits) := by
  simp only [processSends, saves, process]
  cases answers.alert with
  | error error => exact .inr ⟨rfl, rfl, .inl rfl⟩
  | ok =>
      cases hr : findRule row answers with
      | error error => exact .inr ⟨by simp [workChannels, hr, Except.isOk, Except.toBool], by simp only [workChannels, hr], .inl (by simp only [hr])⟩
      | ok rule =>
          simp only [workChannels, hr]
          cases hq : (visits rule answers).foldlM (workChannel job) { attempts := row.deliveryAttempts } with
          | error error => exact .inr ⟨by simp [Except.isOk, Except.toBool], rfl, .inr ⟨visits rule answers, rfl⟩⟩
          | ok q =>
              cases answers.saved with
              | rejected error => exact .inr ⟨by simp, rfl, .inr ⟨visits rule answers, rfl⟩⟩
              | saved | thenThrows error => exact .inl ⟨visits rule answers, q, rfl, hq, rfl⟩

theorem process_none (job : Job) (answers : Answers) :
    (process none job answers).1 = none ∧ processSends none job answers = [] := by
  simp only [process, processSends]
  cases answers.alert <;> exact ⟨rfl, rfl⟩

theorem step_eq {s t : State} {answers : Answers} (h : step s answers = some t) :
    t.run.alert = (process s.run.alert s.run.job answers).1 ∧
      t.sends = s.sends ++ processSends s.run.alert s.run.job answers := by
  obtain ⟨run, hrun, rfl⟩ := Option.map_eq_some_iff.mp h
  refine ⟨?_, rfl⟩
  simp only [NotificationWorker.step] at hrun
  split at hrun
  next => split at hrun <;> cases hrun <;> simp_all
  next => cases hrun

/-- What the saved runs keep. -/
structure Kept (s : State) : Prop where
  resent : ResentAfterFailure s.sends
  remembered : ∀ alert ∈ s.run.alert, Remembered s.sends alert.deliveryAttempts

theorem kept_preserved : Preserves step AttemptsSaved Kept := by
  intro s answers t hs hsaved h
  obtain ⟨halert, hsends⟩ := step_eq h
  cases hrow : s.run.alert with
  | none =>
      obtain ⟨hnone, hnil⟩ := process_none s.run.job answers
      rw [hrow, hnone] at halert
      rw [hrow, hnil, List.append_nil] at hsends
      exact ⟨hsends ▸ hs.resent, by simp [halert]⟩
  | some row =>
      have hrow' := hs.remembered row hrow
      simp only [AttemptsSaved, hrow] at hsaved
      rw [hrow] at halert hsends
      rcases process_cases row s.run.job answers with ⟨visits, q, hcalls, hq, hfinish⟩ | ⟨hnot, hsame, -⟩
      · obtain ⟨-, hremembered⟩ := @Remembered.channelSends s.run.job visits s.sends { attempts := row.deliveryAttempts } hrow'
        have hq := hremembered q hq
        rw [← hcalls, ← hsends] at hq
        refine ⟨hq.resent, fun alert hmem => ?_⟩
        rw [halert, hfinish] at hmem
        obtain rfl := Option.some.inj hmem
        exact hq
      · -- a run that saves nothing has sent nothing
        have hnil : processSends (some row) s.run.job answers = [] := by
          by_contra hne
          exact absurd ((hsaved hne).symm.trans hnot) (by decide)
        rw [hnil, List.append_nil] at hsends
        refine ⟨hsends ▸ hs.resent, fun alert hmem => ?_⟩
        rw [halert, hsame] at hmem
        obtain rfl := Option.some.inj hmem
        exact hsends ▸ hrow'

instance (s : State) (answers : Answers) : Decidable (AttemptsSaved s answers) :=
  inferInstanceAs (Decidable (processSends s.run.alert s.run.job answers ≠ [] → saves s.run.alert s.run.job answers = true))

def mailAndHook : AlertRule := ⟨1, [.email, .webhook]⟩

def sending (email webhook : Except String Unit) : Answers :=
  ⟨.ok (), .ok true, [mailAndHook], fun i => ⟨.ok false, if i = 0 then email else webhook, 0⟩, 0, .saved⟩

end Savitools.Monitor.ChannelSends
