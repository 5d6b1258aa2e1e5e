import Savitools.Monitor.AlertQueue

namespace Savitools.Monitor.AlertInvariant

open Stores.Keyed Transitions.Runs Monitor.Types AlertQueue
open NotificationWorker hiding State step
open ChannelSends hiding State step

theorem recorded_workChannel {job : Job} {p q : Progress} {visit : Visit} (h : workChannel job p visit = .ok q)
    {channel : NotificationChannel} (hq : recordedDelivered q.attempts channel = true) :
    recordedDelivered p.attempts channel = true ∨
      settled p.attempts visit.channel = false ∧ ⟨channel, true⟩ ∈ sendsOf visit := by
  simp only [workChannel] at h
  split at h
  next => exact .inl (Except.ok.inj h ▸ hq)
  next hnot =>
    have hnot : settled p.attempts visit.channel = false := by simpa using hnot
    -- the attempt that is replaced has not been delivered
    have hreplaced (next : DeliveryAttempt) (hnext : next.channel = visit.channel) :
        recordedDelivered (replaceAttempt p.attempts next) channel =
          (recordedDelivered p.attempts channel || decide (next.channel = channel) && decide (next.status = .delivered)) := by
      refine any_replaceAttempt _ fun attempt hattempt hc => ?_
      obtain ⟨hd, -⟩ := not_settled hnot hattempt (hc.trans hnext)
      simp [hd]
    cases hw : visit.work with
    | rejects error => rw [hw] at h; cases h
    | holds =>
        rw [hw] at h
        cases h
        rw [hreplaced _ rfl] at hq
        exact .inl (by simpa using hq)
    | delivers =>
        rw [hw] at h
        cases h
        rw [hreplaced _ rfl, Bool.or_eq_true] at hq
        refine hq.imp_right fun hnew => ⟨hnot, ?_⟩
        have hchannel : visit.channel = channel := by simpa using hnew
        simp [sendsOf, hw, hchannel]
    | fails error =>
        rw [hw] at h
        cases h
        rw [hreplaced _ rfl] at hq
        refine .inl ?_
        have hstatus : (if hasRetriesLeft job then DeliveryStatus.retrying else .failed) ≠ .delivered := by
          split <;> decide
        simpa [hstatus] using hq

/-- What the attempts record as delivered was recorded before, or is delivered by the loop. -/
theorem recorded_foldlM {job : Job} {channel : NotificationChannel} (visits : List Visit) {p q : Progress}
    (h : visits.foldlM (workChannel job) p = .ok q) (hq : recordedDelivered q.attempts channel = true) :
    recordedDelivered p.attempts channel = true ∨ ⟨channel, true⟩ ∈ channelSends job p visits := by
  induction visits generalizing p with
  | nil => exact .inl (Except.ok.inj h ▸ hq)
  | cons visit visits ih =>
      rw [List.foldlM_cons] at h
      cases hw : workChannel job p visit with
      | error error => rw [hw] at h; cases h
      | ok next =>
          rw [hw] at h
          simp only [channelSends, hw]
          rcases ih h with hrecorded | hsend
          · rcases recorded_workChannel hw hrecorded with hrecorded | ⟨hnot, hsend⟩
            · exact .inl hrecorded
            · exact .inr (List.mem_append_left _ (by simpa [hnot] using hsend))
          · exact .inr (List.mem_append_right _ hsend)

/-- What a run sends for the alert that it has loaded. -/
structure Sends (attempts : List DeliveryAttempt) (sends : List Send) : Prop where
  resent : ResentAfterFailure sends
  unsettled : ∀ send ∈ sends, settled attempts send.channel = false

theorem Sends.take {attempts : List DeliveryAttempt} {sends : List Send} (h : Sends attempts sends) (n : Nat) :
    Sends attempts (sends.take n) :=
  ⟨h.resent.sublist (List.take_sublist n sends), fun send hsend => h.unsettled send (List.mem_of_mem_take hsend)⟩

theorem Sends.nil {attempts : List DeliveryAttempt} : Sends attempts [] := ⟨List.Pairwise.nil, List.forall_mem_nil _⟩

theorem sends_channelSends (attempts : List DeliveryAttempt) (job : Job) (visits : List Visit) :
    Sends attempts (channelSends job { attempts := attempts } visits) where
  resent := by
    have hnone : Remembered [] attempts := ⟨List.Pairwise.nil, List.forall_mem_nil _⟩
    exact (@Remembered.channelSends job visits [] { attempts := attempts } hnone).1
  unsettled send hsend := by
    by_contra hsettled
    have hsettled : settled attempts send.channel = true := by simpa using hsettled
    exact (@settled_foldlM job send.channel visits { attempts := attempts } hsettled).1 send hsend rfl

theorem sends_processSends (row : AlertEvent) (job : Job) (answers : Answers) :
    Sends row.deliveryAttempts (processSends (some row) job answers) := by
  rcases process_cases row job answers with ⟨visits, q, hsends, -, -⟩ | ⟨-, -, hnil | ⟨visits, hsends⟩⟩
  · exact hsends ▸ sends_channelSends _ _ _
  · exact hnil ▸ .nil
  · exact hsends ▸ sends_channelSends _ _ _

/-- What a run that saves makes of the alert that it has loaded. -/
structure Saves (before after : List DeliveryAttempt) (sends : List Send) : Prop where
  kept : ∀ channel, settled before channel = true → settled after channel = true
  delivered : ∀ send ∈ sends, send.delivered = true → settled after send.channel = true
  recorded : ∀ channel, recordedDelivered after channel = true → recordedDelivered before channel = true ∨ ⟨channel, true⟩ ∈ sends

theorem finish_isPending {row : AlertEvent} {job : Job} {now : Nat} {q : Progress}
    (h : isPending (finish row job now q) = true) : q.failures ≠ [] ∧ hasRetriesLeft job = true := by
  simp only [isPending, finish] at h
  cases hq : q.failures with
  | nil => cases hheld : q.hasHeldChannel <;> simp [hq, hheld] at h
  | cons failure failures =>
      cases hretries : hasRetriesLeft job with
      | true => exact ⟨List.cons_ne_nil _ _, rfl⟩
      | false => simp [hq, hretries] at h

theorem saved_run {row : AlertEvent} {job : Job} {answers : Answers} (h : saves (some row) job answers = true) :
    ∃ visits q, processSends (some row) job answers = channelSends job { attempts := row.deliveryAttempts } visits ∧
      visits.foldlM (workChannel job) { attempts := row.deliveryAttempts } = .ok q ∧
      (process (some row) job answers).1 = some (finish row job answers.now q) ∧
      (q.failures ≠ [] → (process (some row) job answers).2.isSome = true) := by
  simp only [saves, processSends, process] at h ⊢
  cases ha : answers.alert with
  | error error => simp [ha] at h
  | ok =>
      cases hr : findRule row answers with
      | error error => simp [ha, workChannels, hr, Except.isOk, Except.toBool] at h
      | ok rule =>
          simp only [ha, workChannels, hr] at h ⊢
          cases hq : (visits rule answers).foldlM (workChannel job) { attempts := row.deliveryAttempts } with
          | error error => simp [hq, Except.isOk, Except.toBool] at h
          | ok q =>
              cases hs : answers.saved with
              | rejected error => simp [hs] at h
              | saved => exact ⟨_, q, rfl, hq, rfl, fun hfailures => List.isSome_head?.mpr hfailures⟩
              | thenThrows error => exact ⟨_, q, rfl, hq, rfl, fun _ => rfl⟩

/-- A run that saves an alert as pending throws, and has a retry left. -/
theorem saved_process {row : AlertEvent} {job : Job} {answers : Answers} (h : saves (some row) job answers = true) :
    ∃ event, (process (some row) job answers).1 = some event ∧
      Saves row.deliveryAttempts event.deliveryAttempts (processSends (some row) job answers) ∧
      (isPending event = true → (process (some row) job answers).2.isSome = true ∧ hasRetriesLeft job = true) := by
  obtain ⟨visits, q, hsends, hq, hevent, hthrows⟩ := saved_run h
  refine ⟨_, hevent, ⟨fun channel hsettled => ?_, fun send hsend hdelivered => ?_, fun channel hrecorded => ?_⟩, fun hpending => ?_⟩
  · exact (@settled_foldlM job channel visits { attempts := row.deliveryAttempts } hsettled).2 q hq
  · have hnone : Remembered [] row.deliveryAttempts := ⟨List.Pairwise.nil, List.forall_mem_nil _⟩
    obtain ⟨-, hremembered⟩ := @Remembered.channelSends job visits [] { attempts := row.deliveryAttempts } hnone
    exact (hremembered q hq).delivered send (by simpa [hsends] using hsend) hdelivered
  · rw [hsends]
    exact recorded_foldlM visits hq hrecorded
  · obtain ⟨hfailures, hretries⟩ := finish_isPending hpending
    exact ⟨hthrows hfailures, hretries⟩

/-- A run that saves nothing throws, if it has loaded an alert. -/
theorem unsaved_process {row : AlertEvent} {job : Job} {answers : Answers} (h : saves (some row) job answers = false) :
    (process (some row) job answers).2.isSome = true := by
  simp only [saves, process] at h ⊢
  cases ha : answers.alert with
  | error error => rfl
  | ok =>
      simp only [ha] at h ⊢
      cases hq : workChannels row job answers with
      | error error => rfl
      | ok q =>
          cases hs : answers.saved with
          | rejected error => rfl
          | saved | thenThrows error => simp [hq, hs, Except.isOk, Except.toBool] at h

theorem saves_none (job : Job) (answers : Answers) : saves none job answers = false := by
  simp only [saves]
  cases answers.alert <;> rfl

def Delivers (run : Ended) (channel : NotificationChannel) : Prop := ⟨channel, true⟩ ∈ run.sends

instance (run : Ended) (channel : NotificationChannel) : Decidable (Delivers run channel) :=
  inferInstanceAs (Decidable (_ ∈ _))

def runsOf (ended : List Ended) (alertEventId : Nat) : List Ended :=
  ended.filter fun run => run.alertEventId = alertEventId

theorem mem_runsOf {ended : List Ended} {alertEventId : Nat} {run : Ended} :
    run ∈ runsOf ended alertEventId ↔ run ∈ ended ∧ run.alertEventId = alertEventId := by
  simp [runsOf]

/-- The runs of one alert: what a saved run has delivered is not sent again. -/
structure InTurn (runs : List Ended) : Prop where
  once : runs.Pairwise fun earlier later => earlier.saved = true → ∀ channel, Delivers earlier channel →
    ∀ send ∈ later.sends, send.channel ≠ channel
  resent : ∀ run ∈ runs, ResentAfterFailure run.sends

/-- What the attempts of an alert tell of its runs. -/
structure Known (ended : List Ended) (resent : List Nat) (id : Nat) (attempts : List DeliveryAttempt) : Prop where
  recorded : ∀ channel, recordedDelivered attempts channel = true →
    ∃ run ∈ runsOf ended id, run.saved = true ∧ Delivers run channel
  remembered : id ∉ resent → ∀ run ∈ runsOf ended id, run.saved = true →
    ∀ channel, Delivers run channel → settled attempts channel = true

def Live (state : JobState) : Prop := state = .waiting ∨ ∃ alert, state = .active alert

/-- A run whose outcome is lost: it did not save, or its process died. -/
def Lost (run : Ended) : Prop := run.saved = false ∨ run.crashed = true

/-- What the queue has for an alert. -/
def Queued (runs : List Ended) (job : QueuedJob) : Prop :=
  Live job.state ∨ job.state = .failed ∧ ∃ run ∈ runs, Lost run

structure Inv (s : State) : Prop where
  alertIds : ∀ alert ∈ s.alerts.rows, alert.id < s.nextId
  jobIds : ∀ job ∈ s.jobs.rows, job.alertEventId < s.nextId
  dispatchIds : ∀ replica ∈ s.replicas, ∀ id ∈ replica.dispatching.alerts, id < s.nextId
  resentIds : ∀ id ∈ s.resent, id < s.nextId
  endedIds : ∀ run ∈ s.ended, run.alertEventId < s.nextId
  own : ∀ job ∈ s.jobs.rows, job.id = .alert job.alertEventId ∨ job.alertEventId ∈ s.resent
  rows : ∀ alert ∈ s.alerts.rows, Known s.ended s.resent alert.id alert.event.deliveryAttempts
  loaded : ∀ job ∈ s.jobs.rows, ∀ event, job.state = .active (some event) →
    Known s.ended s.resent job.alertEventId event.deliveryAttempts
  gone : ∀ job ∈ s.jobs.rows, job.state = .active none → ∀ alert ∈ s.alerts.rows, alert.id ≠ job.alertEventId
  queued : ∀ alert ∈ s.alerts.rows, isPending alert.event = true → alert.id ∉ s.resent →
    ∀ job ∈ s.jobs.rows, job.alertEventId = alert.id → Queued (runsOf s.ended alert.id) job
  inTurn : ∀ id, id ∉ s.resent → InTurn (runsOf s.ended id)

theorem inv_initial (replicas : Nat) : Inv (initial replicas) where
  alertIds := List.forall_mem_nil _
  jobIds := List.forall_mem_nil _
  dispatchIds replica hreplica := by
    obtain rfl := List.eq_of_mem_replicate hreplica
    exact List.forall_mem_nil _
  resentIds := List.forall_mem_nil _
  endedIds := List.forall_mem_nil _
  own := List.forall_mem_nil _
  rows := List.forall_mem_nil _
  loaded := List.forall_mem_nil _
  gone := List.forall_mem_nil _
  queued := List.forall_mem_nil _
  inTurn _ _ := ⟨List.Pairwise.nil, List.forall_mem_nil _⟩

theorem mem_addJob {jobs : KeyedRows QueuedJob.id} {id : JobId} {job : QueuedJob}
    (h : job ∈ (addJob jobs id).rows) : job ∈ jobs.rows ∨ job = { id := id } := by
  rw [addJob] at h
  split at h
  next => exact .inl h
  next => exact (KeyedRows.mem_put.mp h).symm.imp_left And.left

theorem Inv.enqueue {s : State} (hs : Inv s) {alertEventId : Nat} {force : Option Nat} (hid : alertEventId < s.nextId)
    (hforce : force.isSome = true → alertEventId ∈ s.resent) : Inv (AlertQueue.enqueue s alertEventId force) := by
  have hjob (job : QueuedJob) (hmem : job ∈ (AlertQueue.enqueue s alertEventId force).jobs.rows) := mem_addJob hmem
  refine { hs with jobIds := ?_, own := ?_, loaded := ?_, gone := ?_, queued := ?_ }
  · intro job hmem
    rcases hjob job hmem with hold | rfl
    · exact hs.jobIds job hold
    · cases force <;> exact hid
  · intro job hmem
    rcases hjob job hmem with hold | rfl
    · exact hs.own job hold
    · cases force with
      | none => exact .inl rfl
      | some now => exact .inr (hforce rfl)
  · intro job hmem event hactive
    rcases hjob job hmem with hold | rfl
    · exact hs.loaded job hold event hactive
    · cases hactive
  · intro job hmem hactive
    rcases hjob job hmem with hold | rfl
    · exact hs.gone job hold hactive
    · cases hactive
  · intro alert halert hpending hresent job hmem hsame
    rcases hjob job hmem with hold | rfl
    · exact hs.queued alert halert hpending hresent job hold hsame
    · exact .inl (.inl rfl)

theorem Inv.setReplica {s : State} (hs : Inv s) {index : Nat} {replica : Replica}
    (hreplica : ∀ id ∈ replica.dispatching.alerts, id < s.nextId) : Inv (s.setReplica index replica) :=
  { hs with
    dispatchIds := fun other hother => by
      rcases List.mem_or_eq_of_mem_set hother with hold | rfl
      · exact hs.dispatchIds other hold
      · exact hreplica }

theorem runsOf_append_of_ne {ended : List Ended} {run : Ended} {id : Nat} (h : run.alertEventId ≠ id) :
    runsOf (ended ++ [run]) id = runsOf ended id := by
  simp [runsOf, h]

theorem runsOf_append_self (ended : List Ended) (run : Ended) :
    runsOf (ended ++ [run]) run.alertEventId = runsOf ended run.alertEventId ++ [run] := by
  simp [runsOf]

theorem mem_runsOf_append {ended : List Ended} {run last : Ended} {id : Nat} (h : run ∈ runsOf (ended ++ [last]) id) :
    run ∈ runsOf ended id ∨ run = last ∧ last.alertEventId = id := by
  obtain ⟨hmem, hid⟩ := mem_runsOf.mp h
  rcases List.mem_append.mp hmem with hold | hlast
  · exact .inl (mem_runsOf.mpr ⟨hold, hid⟩)
  · obtain rfl := List.mem_singleton.mp hlast
    exact .inr ⟨rfl, hid⟩

theorem runsOf_subset_append (ended : List Ended) (last : Ended) (id : Nat) : runsOf ended id ⊆ runsOf (ended ++ [last]) id := by
  intro run hrun
  obtain ⟨hmem, hid⟩ := mem_runsOf.mp hrun
  exact mem_runsOf.mpr ⟨List.mem_append_left _ hmem, hid⟩

theorem Known.of_unrecorded {ended : List Ended} {resent : List Nat} {id : Nat} {attempts : List DeliveryAttempt}
    (hattempts : ∀ channel, recordedDelivered attempts channel = false) (hruns : id ∉ resent → runsOf ended id = []) :
    Known ended resent id attempts where
  recorded channel hrecorded := absurd (hrecorded.symm.trans (hattempts channel)) (by decide)
  remembered hresent run hrun := by
    rw [hruns hresent] at hrun
    cases hrun

theorem Known.append {ended : List Ended} {resent : List Nat} {id : Nat} {attempts : List DeliveryAttempt} {run : Ended}
    (h : Known ended resent id attempts) (hrun : run.alertEventId = id → id ∉ resent → run.saved = true →
      ∀ channel, Delivers run channel → settled attempts channel = true) : Known (ended ++ [run]) resent id attempts where
  recorded channel hrecorded := by
    obtain ⟨past, hpast, hsaved, hdelivers⟩ := h.recorded channel hrecorded
    exact ⟨past, runsOf_subset_append ended run id hpast, hsaved, hdelivers⟩
  remembered hresent past hpast hsaved channel hdelivers := by
    rcases mem_runsOf_append hpast with hold | ⟨rfl, hid⟩
    · exact h.remembered hresent past hold hsaved channel hdelivers
    · exact hrun hid hresent hsaved channel hdelivers

theorem Known.resend {ended : List Ended} {resent : List Nat} {id other : Nat} {attempts : List DeliveryAttempt}
    (h : Known ended resent id attempts) : Known ended (other :: resent) id attempts :=
  ⟨h.recorded, fun hresent => h.remembered fun hmem => hresent (List.mem_cons_of_mem _ hmem)⟩

theorem recordedDelivered_pending (channels : List NotificationChannel) (channel : NotificationChannel) :
    recordedDelivered (channels.map (⟨·, .pending, none, none⟩)) channel = false := by
  simp [recordedDelivered]

theorem Inv.insertAlert {s : State} (hs : Inv s) (createdAt : Nat) {event : AlertEvent}
    (hevent : ∀ channel, recordedDelivered event.deliveryAttempts channel = false) :
    Inv { s with alerts := s.alerts.put ⟨s.nextId, createdAt, event⟩, nextId := s.nextId + 1 } := by
  have hnone : runsOf s.ended s.nextId = [] := by
    refine List.filter_eq_nil_iff.mpr fun run hrun => ?_
    simpa using Nat.ne_of_lt (hs.endedIds run hrun)
  have halert (alert : Alert) (hmem : alert ∈ (s.alerts.put ⟨s.nextId, createdAt, event⟩).rows) :
      alert ∈ s.alerts.rows ∨ alert = ⟨s.nextId, createdAt, event⟩ :=
    (KeyedRows.mem_put.mp hmem).symm.imp_left And.left
  have hjob (job : QueuedJob) (hmem : job ∈ s.jobs.rows) : job.alertEventId ≠ s.nextId := Nat.ne_of_lt (hs.jobIds job hmem)
  refine { hs with
    alertIds := ?_
    jobIds := fun job hmem => Nat.lt_succ_of_lt (hs.jobIds job hmem)
    dispatchIds := fun replica hreplica id hid => Nat.lt_succ_of_lt (hs.dispatchIds replica hreplica id hid)
    resentIds := fun id hid => Nat.lt_succ_of_lt (hs.resentIds id hid)
    endedIds := fun run hrun => Nat.lt_succ_of_lt (hs.endedIds run hrun)
    rows := ?_
    gone := ?_
    queued := ?_ }
  · intro alert hmem
    rcases halert alert hmem with hold | rfl
    · exact Nat.lt_succ_of_lt (hs.alertIds alert hold)
    · exact Nat.lt_succ_self _
  · intro alert hmem
    rcases halert alert hmem with hold | rfl
    · exact hs.rows alert hold
    · exact .of_unrecorded hevent fun _ => hnone
  · intro job hmem hactive alert halertmem
    rcases halert alert halertmem with hold | rfl
    · exact hs.gone job hmem hactive alert hold
    · exact (hjob job hmem).symm
  · intro alert hmem hpending hresent job hjobmem hsame
    rcases halert alert hmem with hold | rfl
    · exact hs.queued alert hold hpending hresent job hjobmem hsame
    · exact absurd hsame (hjob job hjobmem)

/-- The alerts are written by others than the runs: none becomes pending. -/
theorem Inv.alerts {s : State} (hs : Inv s) {alerts : KeyedRows Alert.id}
    (h : ∀ alert ∈ alerts.rows, ∃ old ∈ s.alerts.rows, old.id = alert.id ∧
      old.event.deliveryAttempts = alert.event.deliveryAttempts ∧ (isPending alert.event = true → isPending old.event = true)) :
    Inv { s with alerts := alerts } := by
  refine { hs with alertIds := ?_, rows := ?_, gone := ?_, queued := ?_ }
  · intro alert hmem
    obtain ⟨old, hold, hid, -⟩ := h alert hmem
    exact hid ▸ hs.alertIds old hold
  · intro alert hmem
    obtain ⟨old, hold, hid, hattempts, -⟩ := h alert hmem
    exact hid ▸ hattempts ▸ hs.rows old hold
  · intro job hjob hactive alert hmem
    obtain ⟨old, hold, hid, -⟩ := h alert hmem
    exact hid ▸ hs.gone job hjob hactive old hold
  · intro alert hmem hpending hresent job hjob hsame
    obtain ⟨old, hold, hid, -, hwas⟩ := h alert hmem
    exact hid ▸ hs.queued old hold (hwas hpending) (hid ▸ hresent) job hjob (hsame.trans hid.symm)

theorem Inv.removeJob {s : State} (hs : Inv s) (id : JobId) : Inv { s with jobs := s.jobs.delete id } := by
  have hjob (job : QueuedJob) (hmem : job ∈ (s.jobs.delete id).rows) : job ∈ s.jobs.rows := (KeyedRows.mem_delete.mp hmem).1
  exact { hs with
    jobIds := fun job hmem => hs.jobIds job (hjob job hmem)
    own := fun job hmem => hs.own job (hjob job hmem)
    loaded := fun job hmem => hs.loaded job (hjob job hmem)
    gone := fun job hmem => hs.gone job (hjob job hmem)
    queued := fun alert halert hpending hresent job hmem => hs.queued alert halert hpending hresent job (hjob job hmem) }

theorem mem_write {s : State} {alertEventId : Nat} {f : AlertEvent → AlertEvent} {alert : Alert}
    (h : alert ∈ (s.write alertEventId f).alerts.rows) :
    ∃ old ∈ s.alerts.rows, old.id = alert.id ∧ alert.event = if old.id = alertEventId then f old.event else old.event := by
  obtain ⟨old, hold, rfl⟩ := (@KeyedRows.mem_updateKeys _ _ Alert.id _ s.alerts [alertEventId] (Alert.write f)
    (fun _ => rfl) alert).mp h
  refine ⟨old, hold, ?_⟩
  simp only [List.mem_singleton]
  split <;> exact ⟨rfl, rfl⟩

theorem Inv.resendAlert {s : State} (hs : Inv s) {id : Nat} (hid : id < s.nextId) (channels : List NotificationChannel) :
    Inv (AlertQueue.resendAlert s id channels) := by
  have hwritten (alert : Alert) (hmem : alert ∈ (AlertQueue.resendAlert s id channels).alerts.rows) :=
    @mem_write s id (toResend channels) alert hmem
  refine { hs with alertIds := ?_, resentIds := ?_, own := ?_, rows := ?_, loaded := ?_, gone := ?_, queued := ?_, inTurn := ?_ }
  · intro alert hmem
    obtain ⟨old, hold, hsame, -⟩ := hwritten alert hmem
    exact hsame ▸ hs.alertIds old hold
  · exact List.forall_mem_cons.mpr ⟨hid, hs.resentIds⟩
  · exact fun job hjob => (hs.own job hjob).imp_right (List.mem_cons_of_mem _)
  · intro alert hmem
    obtain ⟨old, hold, hsame, hevent⟩ := hwritten alert hmem
    split at hevent
    next heq =>
      rw [hevent]
      exact .of_unrecorded (recordedDelivered_pending channels) fun hresent =>
        absurd (heq ▸ hsame ▸ List.mem_cons_self) hresent
    next =>
      rw [hevent, ← hsame]
      exact (hs.rows old hold).resend
  · exact fun job hjob event hactive => (hs.loaded job hjob event hactive).resend
  · intro job hjob hactive alert hmem
    obtain ⟨old, hold, hsame, -⟩ := hwritten alert hmem
    exact hsame ▸ hs.gone job hjob hactive old hold
  · intro alert hmem hpending hresent job hjob hjobid
    obtain ⟨old, hold, hsame, hevent⟩ := hwritten alert hmem
    have hother : alert.id ≠ id := fun heq => hresent (heq ▸ List.mem_cons_self)
    have hnot : alert.id ∉ s.resent := fun hin => hresent (List.mem_cons_of_mem _ hin)
    rw [if_neg (hsame ▸ hother)] at hevent
    rw [hevent] at hpending
    exact hsame ▸ hs.queued old hold hpending (hsame ▸ hnot) job hjob (hjobid.trans hsame.symm)
  · exact fun other hother => hs.inTurn other fun hmem => hother (List.mem_cons_of_mem _ hmem)

theorem Inv.takeJob {s : State} (hs : Inv s) {job : QueuedJob} (hjob : job ∈ s.jobs.rows) : Inv (AlertQueue.takeJob s job) := by
  have htaken (other : QueuedJob) (hmem : other ∈ (AlertQueue.takeJob s job).jobs.rows) := KeyedRows.mem_put.mp hmem
  refine { hs with jobIds := ?_, own := ?_, loaded := ?_, gone := ?_, queued := ?_ }
  · intro other hmem
    rcases htaken other hmem with rfl | ⟨hold, -⟩
    · exact hs.jobIds job hjob
    · exact hs.jobIds other hold
  · intro other hmem
    rcases htaken other hmem with rfl | ⟨hold, -⟩
    · exact hs.own job hjob
    · exact hs.own other hold
  · intro other hmem event hactive
    rcases htaken other hmem with rfl | ⟨hold, -⟩
    · obtain ⟨alert, halert, rfl⟩ := Option.map_eq_some_iff.mp (JobState.active.inj hactive)
      obtain ⟨hrow, hid⟩ := KeyedRows.get?_eq_some.mp halert
      exact hid ▸ hs.rows alert hrow
    · exact hs.loaded other hold event hactive
  · intro other hmem hactive
    rcases htaken other hmem with rfl | ⟨hold, -⟩
    · intro alert halert hsame
      have hnone := Option.map_eq_none_iff.mp (JobState.active.inj hactive)
      exact absurd (hnone.symm.trans (KeyedRows.get?_eq_some.mpr ⟨halert, hsame⟩)) (Option.some_ne_none _).symm
    · exact hs.gone other hold hactive
  · intro alert halert hpending hresent other hmem hsame
    rcases htaken other hmem with rfl | ⟨hold, -⟩
    · exact .inl (.inr ⟨_, rfl⟩)
    · exact hs.queued alert halert hpending hresent other hold hsame

/-- How a run of a job ends that has loaded an alert, or none. -/
structure Ends (job : QueuedJob) (alert event : Option AlertEvent) (run : Ended) (state : JobState) : Prop where
  id : run.alertEventId = job.alertEventId
  saved : run.saved = event.isSome
  sends : ∀ row, alert = some row → Sends row.deliveryAttempts run.sends
  missing : alert = none → run.sends = [] ∧ event = none
  saves : ∀ row, alert = some row → ∀ written, event = some written →
    Saves row.deliveryAttempts written.deliveryAttempts run.sends
  idle : ∀ loaded, state ≠ .active loaded
  pending : ∀ written, event = some written → isPending written = true → state = .waiting ∨ state = .failed ∧ run.crashed = true
  unsaved : alert.isSome = true → event = none → state = .waiting ∨ state = .failed

section

variable {s : State} {job : QueuedJob} {alert event : Option AlertEvent} {run : Ended} {attemptsMade : Nat} {state : JobState}

theorem mem_close {row : Alert} (h : row ∈ (close s job event run attemptsMade state).alerts.rows) :
    ∃ old ∈ s.alerts.rows, old.id = row.id ∧
      (event = some row.event ∧ old.id = job.alertEventId ∨
        row.event = old.event ∧ (old.id = job.alertEventId → event = none)) := by
  cases event with
  | none => exact ⟨row, h, rfl, .inr ⟨rfl, fun _ => rfl⟩⟩
  | some written =>
      obtain ⟨old, hold, hid, hevent⟩ := @mem_write s job.alertEventId (fun _ => written) row h
      refine ⟨old, hold, hid, ?_⟩
      split at hevent
      next heq => exact .inl ⟨congrArg some hevent.symm, heq⟩
      next hne => exact .inr ⟨hevent, fun heq => absurd heq hne⟩

/-- What a run that ends has saved and sent fits to what the alert had of the runs before. -/
theorem Ends.known (h : Ends job alert event run state) (hs : Inv s) (hjob : job ∈ s.jobs.rows)
    (hactive : job.state = .active alert) {written : AlertEvent} (hevent : event = some written) :
    Known (s.ended ++ [run]) s.resent job.alertEventId written.deliveryAttempts := by
  cases halert : alert with
  | none => exact absurd ((h.missing halert).2.symm.trans hevent) (Option.some_ne_none _).symm
  | some row =>
      have hknown := hs.loaded job hjob row (halert ▸ hactive)
      have hsaves := h.saves row halert written hevent
      have hsaved : run.saved = true := by rw [h.saved, hevent, Option.isSome_some]
      constructor
      · intro channel hrecorded
        rcases hsaves.recorded channel hrecorded with hrecorded | hsent
        · obtain ⟨past, hpast, hsaved, hdelivers⟩ := hknown.recorded channel hrecorded
          exact ⟨past, runsOf_subset_append _ _ _ hpast, hsaved, hdelivers⟩
        · exact ⟨run, mem_runsOf.mpr ⟨List.mem_append_right _ (List.mem_singleton_self _), h.id⟩, hsaved, hsent⟩
      · intro hresent past hpast hsaved channel hdelivers
        rcases mem_runsOf_append hpast with hold | ⟨rfl, -⟩
        · exact hsaves.kept channel (hknown.remembered hresent past hold hsaved channel hdelivers)
        · exact hsaves.delivered _ hdelivers rfl

theorem InTurn.append {runs : List Ended} (h : InTurn runs) (hresent : ResentAfterFailure run.sends)
    (honce : ∀ past ∈ runs, past.saved = true → ∀ channel, Delivers past channel → ∀ send ∈ run.sends, send.channel ≠ channel) :
    InTurn (runs ++ [run]) where
  once := List.pairwise_append.mpr ⟨h.once, List.pairwise_singleton _ _, fun past hpast _ hlast =>
    List.mem_singleton.mp hlast ▸ honce past hpast⟩
  resent := List.forall_mem_append.mpr ⟨h.resent, List.forall_mem_singleton.mpr hresent⟩

theorem Ends.inTurn (h : Ends job alert event run state) (hs : Inv s) (hjob : job ∈ s.jobs.rows)
    (hactive : job.state = .active alert) {id : Nat} (hresent : id ∉ s.resent) : InTurn (runsOf (s.ended ++ [run]) id) := by
  by_cases hid : run.alertEventId = id
  · subst hid
    rw [runsOf_append_self]
    cases halert : alert with
    | none =>
        obtain ⟨hnil, -⟩ := h.missing halert
        refine (hs.inTurn _ hresent).append (hnil ▸ List.Pairwise.nil) fun _ _ _ _ _ send hsend => ?_
        rw [hnil] at hsend
        cases hsend
    | some row =>
        have hsends := h.sends row halert
        refine (hs.inTurn _ hresent).append hsends.resent fun past hpast hsaved channel hdelivers send hsend heq => ?_
        -- the run has loaded attempts in which the channel is settled
        have hknown := hs.loaded job hjob row (halert ▸ hactive)
        have hsettled := (h.id ▸ hknown).remembered hresent past hpast hsaved channel hdelivers
        exact absurd (hsettled.symm.trans (heq ▸ hsends.unsettled send hsend)) (by decide)
  · rw [runsOf_append_of_ne hid]
    exact hs.inTurn id hresent

theorem Inv.close (hs : Inv s) (hjob : job ∈ s.jobs.rows) (hactive : job.state = .active alert)
    (h : Ends job alert event run state) : Inv (AlertQueue.close s job event run attemptsMade state) := by
  have hclosed (other : QueuedJob) (hmem : other ∈ (AlertQueue.close s job event run attemptsMade state).jobs.rows) :=
    KeyedRows.mem_put.mp hmem
  -- no other job is for an alert that has not been sent again
  have hsole (other : QueuedJob) (hold : other ∈ s.jobs.rows) (hne : other.id ≠ job.id)
      (hsame : other.alertEventId = job.alertEventId) : job.alertEventId ∈ s.resent := by
    rcases hs.own job hjob with hown | hown
    · rcases hs.own other hold with hother | hother
      · exact absurd (hother.trans (hsame ▸ hown.symm)) hne
      · exact hsame ▸ hother
    · exact hown
  have hnextId : (AlertQueue.close s job event run attemptsMade state).nextId = s.nextId := by
    cases event <;> rfl
  have hreplicas : (AlertQueue.close s job event run attemptsMade state).replicas = s.replicas := by
    cases event <;> rfl
  have hresents : (AlertQueue.close s job event run attemptsMade state).resent = s.resent := by
    cases event <;> rfl
  constructor
  case alertIds =>
    intro row hmem
    obtain ⟨old, hold, hid, -⟩ := mem_close hmem
    rw [hnextId, ← hid]
    exact hs.alertIds old hold
  case jobIds =>
    intro other hmem
    rw [hnextId]
    rcases hclosed other hmem with rfl | ⟨hold, -⟩
    · exact hs.jobIds job hjob
    · exact hs.jobIds other hold
  case dispatchIds =>
    rw [hnextId, hreplicas]
    exact hs.dispatchIds
  case resentIds =>
    rw [hnextId, hresents]
    exact hs.resentIds
  case endedIds =>
    rw [hnextId]
    exact List.forall_mem_append.mpr ⟨hs.endedIds, List.forall_mem_singleton.mpr (h.id ▸ hs.jobIds job hjob)⟩
  case own =>
    intro other hmem
    rw [hresents]
    rcases hclosed other hmem with rfl | ⟨hold, -⟩
    · exact hs.own job hjob
    · exact hs.own other hold
  case rows =>
    intro row hmem
    rw [hresents]
    obtain ⟨old, hold, hid, ⟨hevent, hjobid⟩ | ⟨hevent, hnone⟩⟩ := mem_close hmem
    · rw [← hid, hjobid]
      exact h.known hs hjob hactive hevent
    · rw [hevent, ← hid]
      refine (hs.rows old hold).append fun hrun _ hsaved => ?_
      rw [h.saved, hnone (hrun.symm.trans h.id)] at hsaved
      cases hsaved
  case loaded =>
    intro other hmem loaded hloaded
    rw [hresents]
    rcases hclosed other hmem with rfl | ⟨hold, hne⟩
    · exact absurd hloaded (h.idle _)
    · refine (hs.loaded other hold loaded hloaded).append fun hrun hresent => ?_
      have hsame := hrun.symm.trans h.id
      exact absurd (hsame ▸ hsole other hold hne hsame) hresent
  case gone =>
    intro other hmem hother row hrow
    obtain ⟨old, holdrow, hid, -⟩ := mem_close hrow
    rw [← hid]
    rcases hclosed other hmem with rfl | ⟨hold, -⟩
    · exact absurd hother (h.idle _)
    · exact hs.gone other hold hother old holdrow
  case queued =>
    intro row hrow hpending hresent other hmem hsame
    rw [hresents] at hresent
    obtain ⟨old, holdrow, hid, hwritten⟩ := mem_close hrow
    rcases hclosed other hmem with rfl | ⟨hold, hne⟩
    · have hrun : run ∈ runsOf (s.ended ++ [run]) row.id :=
        mem_runsOf.mpr ⟨List.mem_append_right _ (List.mem_singleton_self _), h.id.trans hsame⟩
      rcases hwritten with ⟨hevent, -⟩ | ⟨-, hnone⟩
      · rcases h.pending _ hevent hpending with hwaiting | ⟨hfailed, hcrashed⟩
        · exact .inl (.inl hwaiting)
        · exact .inr ⟨hfailed, run, hrun, .inr hcrashed⟩
      · have hnone := hnone (hid.trans hsame.symm)
        cases halert : alert with
        | none => exact absurd (hid.trans hsame.symm) (hs.gone job hjob (halert ▸ hactive) old holdrow)
        | some loaded =>
            rcases h.unsaved (halert ▸ rfl) hnone with hwaiting | hfailed
            · exact .inl (.inl hwaiting)
            · exact .inr ⟨hfailed, run, hrun, .inl (by rw [h.saved, hnone, Option.isSome_none])⟩
    · -- the other job is the only one for its alert, which the run has not written
      have hother : old.id ≠ job.alertEventId := fun heq => hresent (by
        have hjobid := hsame.trans (hid.symm.trans heq)
        exact hid ▸ heq ▸ hsole other hold hne hjobid)
      obtain ⟨-, heq⟩ | ⟨hevent, -⟩ := hwritten
      · exact absurd heq hother
      · rw [hevent] at hpending
        refine (hs.queued old holdrow hpending (hid ▸ hresent) other hold (hsame.trans hid.symm)).imp_right ?_
        rintro ⟨hfailed, past, hpast, hlost⟩
        exact ⟨hfailed, past, runsOf_subset_append _ _ _ (hid ▸ hpast), hlost⟩
  case inTurn =>
    intro id hresent
    rw [hresents] at hresent
    exact h.inTurn hs hjob hactive hresent

theorem savedEvent_none (answers : Answers) : savedEvent s job none answers = none := by
  rw [savedEvent, saves_none]
  rfl

theorem savedEvent_some {row written : AlertEvent} {answers : Answers} (h : savedEvent s job (some row) answers = some written) :
    saves (some row) job.job answers = true ∧ (process (some row) job.job answers).1 = some written := by
  rw [savedEvent] at h
  split at h
  next hsaves => exact ⟨hsaves.1, h⟩
  next => cases h

theorem sends_processSends_take (row : AlertEvent) (job : Job) (answers : Answers) (n : Nat) :
    Sends row.deliveryAttempts ((processSends (some row) job answers).take n) :=
  (sends_processSends row job answers).take n

/-- A run ends with what it saves and all its calls, or with nothing saved and some of its calls. -/
theorem ends_of_run {answers : Answers} {sends : List Send} {crashed : Bool}
    (hrun : event = savedEvent s job alert answers ∧ sends = processSends alert job.job answers ∨
      event = none ∧ ∃ n, sends = (processSends alert job.job answers).take n)
    (hidle : ∀ loaded, state ≠ .active loaded)
    (hpending : ∀ written, event = some written → isPending written = true → state = .waiting ∨ state = .failed ∧ crashed = true)
    (hunsaved : alert.isSome = true → event = none → state = .waiting ∨ state = .failed) :
    Ends job alert event ⟨job.alertEventId, sends, event.isSome, crashed⟩ state where
  id := rfl
  saved := rfl
  sends row hrow := by
    subst hrow
    rcases hrun with ⟨-, rfl⟩ | ⟨-, n, rfl⟩
    · exact sends_processSends _ _ _
    · exact sends_processSends_take _ _ _ n
  missing hnone := by
    subst hnone
    rw [savedEvent_none, (process_none job.job answers).2] at hrun
    rcases hrun with ⟨hevent, hsends⟩ | ⟨hevent, n, hsends⟩
    · exact ⟨hsends, hevent⟩
    · exact ⟨hsends.trans List.take_nil, hevent⟩
  saves row hrow written hwritten := by
    subst hrow
    rcases hrun with ⟨hevent, rfl⟩ | ⟨hevent, -⟩
    · obtain ⟨hsaves, hprocess⟩ := savedEvent_some (hevent.symm.trans hwritten)
      obtain ⟨other, hother, hsaves, -⟩ := saved_process hsaves
      obtain rfl := Option.some.inj (hother.symm.trans hprocess)
      exact hsaves
    · cases hevent.symm.trans hwritten
  idle := hidle
  pending := hpending
  unsaved := hunsaved

theorem Inv.finishRun {answers : Answers} {t : State} (hs : Inv s) (hjob : job ∈ s.jobs.rows) (hactive : job.state = .active alert)
    (h : AlertQueue.finishRun s job alert answers = some t) : Inv t := by
  rw [AlertQueue.finishRun] at h
  split at h
  next hsaved =>
    have hends {state : JobState} (hidle : ∀ loaded, state ≠ .active loaded)
        (hwaiting : (process alert job.job answers).2.isSome = true → hasRetriesLeft job.job = true → state = .waiting)
        (hunsaved : alert.isSome = true → saves alert job.job answers = false → state = .waiting ∨ state = .failed) :
        Ends job alert (savedEvent s job alert answers)
          ⟨job.alertEventId, processSends alert job.job answers, (savedEvent s job alert answers).isSome, false⟩ state := by
      refine ends_of_run (.inl ⟨rfl, rfl⟩) hidle (fun written hwritten hpending => .inl ?_) fun hrow hnone => ?_
      · cases alert with
        | none => cases (savedEvent_none answers).symm.trans hwritten
        | some row =>
            obtain ⟨hsaves, hprocess⟩ := savedEvent_some hwritten
            obtain ⟨other, hother, -, hthrows⟩ := saved_process hsaves
            obtain rfl := Option.some.inj (hother.symm.trans hprocess)
            exact hwaiting (hthrows hpending).1 (hthrows hpending).2
      · exact hunsaved hrow (hsaved.trans (by rw [hnone, Option.isSome_none]))
    split at h
    next hreturns =>
      obtain rfl := Option.some.inj h
      refine hs.close hjob hactive (hends (by rintro _ ⟨⟩) (fun hthrows => ?_) fun hrow hunsaved => ?_)
      · rw [hreturns] at hthrows
        cases hthrows
      · -- such a run throws
        obtain ⟨row, rfl⟩ := Option.isSome_iff_exists.mp hrow
        have hthrows := unsaved_process hunsaved
        rw [hreturns] at hthrows
        cases hthrows
    next =>
      obtain rfl := Option.some.inj h
      refine hs.close hjob hactive (hends ?_ (fun _ hretries => if_pos hretries) fun _ _ => ?_)
      · split <;> rintro _ ⟨⟩
      · split
        next => exact .inl rfl
        next => exact .inr rfl
  next => cases h

theorem Inv.crash {answers : Answers} {sent : Nat} {saved stalled : Bool} (hs : Inv s) (hjob : job ∈ s.jobs.rows)
    (hactive : job.state = .active alert) : Inv (AlertQueue.crash s job alert answers sent saved stalled) := by
  have hstate : (if stalled then JobState.waiting else .failed) = .waiting ∨ (if stalled then JobState.waiting else .failed) = .failed := by
    cases stalled <;> simp
  have hrun {event : Option AlertEvent} (hevent : event = if saved then savedEvent s job alert answers else none) :
      event = savedEvent s job alert answers ∧ (if event.isSome then processSends alert job.job answers else
        (processSends alert job.job answers).take sent) = processSends alert job.job answers ∨
      event = none ∧ ∃ n, (if event.isSome then processSends alert job.job answers else
        (processSends alert job.job answers).take sent) = (processSends alert job.job answers).take n := by
    cases event with
    | none => exact .inr ⟨rfl, sent, rfl⟩
    | some written =>
        cases saved with
        | true => exact .inl ⟨hevent, rfl⟩
        | false => cases hevent
  refine hs.close hjob hactive (ends_of_run (hrun rfl) ?_ (fun _ _ _ => hstate.imp_right fun hfailed => ⟨hfailed, rfl⟩) fun _ _ => hstate)
  cases stalled <;> rintro _ ⟨⟩

end

theorem loop_alerts (alerts : List Nat) : (loop alerts).alerts = alerts := by
  cases alerts <;> rfl

theorem inv_preserved : Preserves step always Inv := by
  intro s a t hs _ h
  cases a with
  | insertAlert createdAt rule =>
      obtain rfl := Option.some.inj h
      exact hs.insertAlert createdAt (recordedDelivered_pending rule.channels)
  | enqueue id =>
      rw [step] at h
      split at h
      next hid =>
        obtain rfl := Option.some.inj h
        exact hs.enqueue hid (by simp)
      next => cases h
  | leadershipChange replica isLeader =>
      obtain ⟨r, hr, rfl⟩ := Option.map_eq_some_iff.mp h
      exact hs.setReplica (hs.dispatchIds r (List.mem_of_getElem? hr))
  | dispatchPending replica =>
      obtain ⟨r, hr, rfl⟩ := Option.map_eq_some_iff.mp h
      rw [AlertQueue.dispatchPending]
      split
      next => exact hs.setReplica (List.forall_mem_nil _)
      next => exact hs
  | found replica order =>
      rw [step] at h
      split at h
      next isLeader hr =>
        cases order with
        | none =>
            obtain rfl := Option.some.inj h
            exact hs.setReplica (List.forall_mem_nil _)
        | some order =>
            dsimp only at h
            split at h
            next hanswer =>
              obtain rfl := Option.some.inj h
              refine hs.setReplica fun id hid => ?_
              rw [loop_alerts] at hid
              obtain ⟨alert, halert, rfl⟩ := List.mem_map.mp hid
              exact hs.alertIds alert (List.mem_filter.mp (hanswer.1.subset (List.mem_of_mem_take halert))).1
            next => cases h
      next => cases h
  | dispatchNext replica outcome =>
      rw [step] at h
      split at h
      next isLeader alert rest hr =>
        obtain rfl := Option.some.inj h
        have hids := hs.dispatchIds _ (List.mem_of_getElem? hr)
        have hid : alert < s.nextId := hids alert List.mem_cons_self
        have hadded : Inv (AlertQueue.enqueue s alert none) := hs.enqueue hid (by simp)
        cases outcome with
        | answered =>
            refine hadded.setReplica fun id hmem => ?_
            rw [loop_alerts] at hmem
            exact hids id (List.mem_cons_of_mem _ hmem)
        | rejected => exact hs.setReplica (List.forall_mem_nil _)
        | lost => exact hadded.setReplica (List.forall_mem_nil _)
      next => cases h
  | takeJob id =>
      rw [step] at h
      split at h
      next job hjob =>
        split at h
        next =>
          obtain rfl := Option.some.inj h
          exact hs.takeJob (KeyedRows.get?_eq_some.mp hjob).1
        next => cases h
      next => cases h
  | finishRun id answers =>
      rw [step] at h
      split at h
      next jobId attemptsMade alert hjob => exact hs.finishRun (KeyedRows.get?_eq_some.mp hjob).1 rfl h
      next => cases h
  | crash id answers sent saved stalled =>
      rw [step] at h
      split at h
      next jobId attemptsMade alert hjob =>
        obtain rfl := Option.some.inj h
        exact hs.crash (KeyedRows.get?_eq_some.mp hjob).1 rfl
      next => cases h
  | removeJob id =>
      rw [step] at h
      split at h
      next =>
        split at h
        next =>
          obtain rfl := Option.some.inj h
          exact hs.removeJob id
        next => cases h
      next => cases h
  | resendAlert id channels =>
      rw [step] at h
      split at h
      next hfound =>
        obtain rfl := Option.some.inj h
        obtain ⟨alert, halert⟩ := Option.isSome_iff_exists.mp hfound
        obtain ⟨hmem, rfl⟩ := KeyedRows.get?_eq_some.mp halert
        exact hs.resendAlert (hs.alertIds alert hmem) channels
      next => cases h
  | enqueueForced id now =>
      rw [step] at h
      split at h
      next hid =>
        obtain rfl := Option.some.inj h
        exact hs.enqueue (hs.resentIds id hid) fun _ => hid
      next => cases h
  | flushDigest id status deliveredAt =>
      rw [step] at h
      split at h
      next hstatus =>
        obtain rfl := Option.some.inj h
        refine hs.alerts fun alert hmem => ?_
        obtain ⟨old, hold, hid, hevent⟩ := mem_write hmem
        refine ⟨old, hold, hid, ?_, fun hpending => ?_⟩
        · rw [hevent]
          split <;> rfl
        · rw [hevent] at hpending
          split at hpending
          next => rcases hstatus with rfl | rfl | rfl <;> cases hpending
          next => exact hpending
      next => cases h
  | deleteAlert id =>
      obtain rfl := Option.some.inj h
      exact hs.alerts fun alert hmem => ⟨alert, (KeyedRows.mem_delete.mp hmem).1, rfl, rfl, fun hpending => hpending⟩

end Savitools.Monitor.AlertInvariant
