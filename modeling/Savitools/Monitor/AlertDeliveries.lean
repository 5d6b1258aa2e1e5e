import Savitools.Monitor.AlertInvariant

namespace Savitools.Monitor.AlertDeliveries

open Stores.Keyed Transitions.Runs Monitor.Types AlertQueue AlertInvariant
open NotificationWorker hiding State step
open ChannelSends hiding State step

/-- How often a channel has been delivered by runs. -/
def deliveries (runs : List Ended) (channel : NotificationChannel) : Nat :=
  (runs.map fun run => run.sends.count ⟨channel, true⟩).foldr (· + ·) 0

/-- The runs whose delivery of a channel the alert does not know of. -/
def forgotten (runs : List Ended) (channel : NotificationChannel) : Nat :=
  runs.countP fun run => !run.saved && decide (Delivers run channel)

theorem count_le_one {sends : List Send} (h : ResentAfterFailure sends) (channel : NotificationChannel) :
    sends.count ⟨channel, true⟩ ≤ 1 := by
  induction sends with
  | nil => exact Nat.zero_le _
  | cons send sends ih =>
      obtain ⟨hfirst, hrest⟩ := List.pairwise_cons.mp h
      rw [List.count_cons]
      split
      next heq =>
        have heq : send = ⟨channel, true⟩ := eq_of_beq heq
        have hnone : sends.count ⟨channel, true⟩ = 0 := List.count_eq_zero.mpr fun hmem => by
          have hfailed := hfirst _ hmem (heq ▸ rfl)
          rw [heq] at hfailed
          cases hfailed
        omega
      next => exact ih hrest

theorem deliveries_eq_zero {runs : List Ended} {channel : NotificationChannel} (h : ∀ run ∈ runs, ¬Delivers run channel) :
    deliveries runs channel = 0 := by
  induction runs with
  | nil => rfl
  | cons run runs ih =>
      obtain ⟨hrun, hruns⟩ := List.forall_mem_cons.mp h
      have hzero : run.sends.count ⟨channel, true⟩ = 0 := List.count_eq_zero.mpr hrun
      have hrest := ih hruns
      rw [deliveries] at hrest ⊢
      rw [List.map_cons, List.foldr_cons, hzero, hrest]

/-- A channel is delivered once, and once more for each run that delivers it and saves nothing. -/
theorem deliveries_le_forgotten {runs : List Ended} (h : InTurn runs) (channel : NotificationChannel) :
    deliveries runs channel ≤ forgotten runs channel + 1 := by
  obtain ⟨honce, hresent⟩ := h
  induction runs with
  | nil => exact Nat.zero_le _
  | cons run runs ih =>
      obtain ⟨hfirst, hrest⟩ := List.pairwise_cons.mp honce
      obtain ⟨hrun, hruns⟩ := List.forall_mem_cons.mp hresent
      have hle := ih hrest hruns
      have hone := count_le_one hrun channel
      rw [deliveries] at hle ⊢
      rw [forgotten] at hle ⊢
      rw [List.map_cons, List.foldr_cons, List.countP_cons]
      by_cases hdelivers : Delivers run channel
      · cases hsaved : run.saved with
        | true =>
            -- nobody sends the channel again
            have hnone := deliveries_eq_zero fun later hlater hagain => hfirst later hlater hsaved channel hdelivers _ hagain rfl
            rw [deliveries] at hnone
            omega
        | false =>
            simp only [hdelivers, Bool.not_false, decide_true, Bool.and_self, if_true]
            omega
      · have hzero : run.sends.count ⟨channel, true⟩ = 0 := List.count_eq_zero.mpr hdelivers
        omega

/-- What holds of an alert that has not been sent again. -/
structure Once (s : State) (id : Nat) : Prop where
  alone : ∀ job ∈ s.jobs.rows, ∀ other ∈ s.jobs.rows, job.alertEventId = id → other.alertEventId = id → job = other
  inTurn : InTurn (runsOf s.ended id)
  bounded : ∀ channel, deliveries (runsOf s.ended id) channel ≤ forgotten (runsOf s.ended id) channel + 1

theorem once_of_inv {s : State} (hs : Inv s) {id : Nat} (hid : id ∉ s.resent) : Once s id where
  alone job hjob other hother hsame hothersame := by
    have hown (j : QueuedJob) (hj : j ∈ s.jobs.rows) (hjid : j.alertEventId = id) : j.id = .alert id :=
      hjid ▸ (hs.own j hj).resolve_right (hjid ▸ hid)
    exact KeyedRows.eq_of_key hjob hother ((hown job hjob hsame).trans (hown other hother hothersame).symm)
  inTurn := hs.inTurn id hid
  bounded := deliveries_le_forgotten (hs.inTurn id hid)

/-- In every interleaving of the replicas, the workers, the digest and the users. -/
theorem alerts_sent_once (replicas : Nat) (acts : List Act) :
    Throughout step (fun s => (∀ id, id ∉ s.resent → Once s id) ∧ ∀ alert ∈ s.alerts.rows, ∀ channel,
      recordedDelivered alert.event.deliveryAttempts channel = true →
        ∃ run ∈ runsOf s.ended alert.id, run.saved = true ∧ Delivers run channel) (initial replicas) acts :=
  inv_preserved.throughout (fun _ hs => ⟨fun _ hid => once_of_inv hs hid, fun alert halert => (hs.rows alert halert).recorded⟩)
    (inv_initial replicas) (guarded_always _ _ _)

def mailRule : AlertRule := ⟨1, [.email]⟩

def mailed : Answers := ⟨.ok (), .ok true, [mailRule], fun _ => ⟨.ok false, .ok (), 0⟩, 0, .saved⟩

/-- An alert that is sent again while it is delivered is delivered by two runs at a time, and by neither in vain. -/
example : (run step (initial 1) [.insertAlert 0 mailRule, .enqueue 0, .takeJob (.alert 0), .resendAlert 0 [.email],
    .enqueueForced 0 5, .takeJob (.forced 0 5), .finishRun (.alert 0) mailed, .finishRun (.forced 0 5) mailed]).map
      (fun t => (deliveries (runsOf t.ended 0) .email, forgotten (runsOf t.ended 0) .email)) = some (2, 0) := by decide

theorem enqueue_keeps {s : State} {id : Nat} {job : QueuedJob} (hjob : job ∈ s.jobs.rows) :
    job ∈ (enqueue s id none).jobs.rows := by
  change job ∈ (addJob s.jobs (.alert id)).rows
  rw [addJob]
  split
  next => exact hjob
  next hnone =>
    refine KeyedRows.mem_put.mpr (.inr ⟨hjob, fun heq => hnone ?_⟩)
    exact Option.isSome_iff_exists.mpr ⟨job, KeyedRows.get?_eq_some.mpr ⟨hjob, heq⟩⟩

theorem enqueue_adds (s : State) (id : Nat) : ∃ job ∈ (enqueue s id none).jobs.rows, job.id = .alert id := by
  change ∃ job ∈ (addJob s.jobs (.alert id)).rows, job.id = .alert id
  rw [addJob]
  split
  next hsome =>
    obtain ⟨job, hjob⟩ := Option.isSome_iff_exists.mp hsome
    exact ⟨job, KeyedRows.get?_eq_some.mp hjob⟩
  next => exact ⟨_, KeyedRows.mem_put.mpr (.inl rfl), rfl⟩

/-- Jobs are added, and nothing else happens to the alerts and their jobs. -/
structure Adds (s t : State) : Prop where
  alerts : t.alerts = s.alerts
  resent : t.resent = s.resent
  ended : t.ended = s.ended
  jobs : ∀ job ∈ s.jobs.rows, job ∈ t.jobs.rows

theorem loop_cons (id : Nat) (ids : List Nat) : loop (id :: ids) = .enqueuing (id :: ids) := rfl

/-- The loop over the alerts that a replica has found, with a queue that answers. -/
theorem run_loop (index : Nat) (isLeader : Bool) (ids : List Nat) (s : State)
    (hs : s.replicas[index]? = some ⟨isLeader, loop ids⟩) :
    ∃ t, run step s (List.replicate ids.length (.dispatchNext index .answered)) = some t ∧
      t.replicas[index]? = some ⟨isLeader, .idle⟩ ∧ Adds s t ∧ ∀ id ∈ ids, ∃ job ∈ t.jobs.rows, job.id = .alert id := by
  induction ids generalizing s with
  | nil => exact ⟨s, rfl, hs, ⟨rfl, rfl, rfl, fun _ hjob => hjob⟩, List.forall_mem_nil _⟩
  | cons id ids ih =>
      rw [loop_cons] at hs
      have hstep : step s (.dispatchNext index .answered) =
          some ((enqueue s id none).setReplica index ⟨isLeader, loop ids⟩) := by
        simp only [step, hs, dispatchNext]
      have hindex : index < s.replicas.length := (List.getElem?_eq_some_iff.mp hs).1
      obtain ⟨t, hrun, hidle, hadds, hids⟩ := ih ((enqueue s id none).setReplica index ⟨isLeader, loop ids⟩)
        (List.getElem?_set_self hindex)
      refine ⟨t, run_cons.mpr ⟨_, hstep, hrun⟩, hidle, ⟨hadds.alerts, hadds.resent, hadds.ended, fun job hjob =>
        hadds.jobs job (enqueue_keeps hjob)⟩, List.forall_mem_cons.mpr ⟨?_, hids⟩⟩
      obtain ⟨job, hjob, hid⟩ := enqueue_adds s id
      exact ⟨job, hadds.jobs job hjob, hid⟩

def dispatchActs (index : Nat) (order : List Alert) : List Act :=
  .dispatchPending index :: .found index (some order) ::
    List.replicate (order.take 500).length (.dispatchNext index .answered)

theorem run_dispatch {s : State} {index : Nat} {order : List Alert} (hs : s.replicas[index]? = some ⟨true, .idle⟩)
    (hanswer : IsAnswer s.alerts.rows order) :
    ∃ t, run step s (dispatchActs index order) = some t ∧ t.replicas[index]? = some ⟨true, .idle⟩ ∧ Adds s t ∧
      ∀ alert ∈ order.take 500, ∃ job ∈ t.jobs.rows, job.id = .alert alert.id := by
  have hindex : index < s.replicas.length := (List.getElem?_eq_some_iff.mp hs).1
  have hfinding : step s (.dispatchPending index) = some (s.setReplica index ⟨true, .finding⟩) := by
    simp [step, hs, dispatchPending]
  have hfind : (s.setReplica index ⟨true, .finding⟩).replicas[index]? = some ⟨true, .finding⟩ := List.getElem?_set_self hindex
  have hfound : step (s.setReplica index ⟨true, .finding⟩) (.found index (some order)) =
      some (found (s.setReplica index ⟨true, .finding⟩) index ⟨true, .finding⟩ order) := by
    simp only [step, hfind]
    exact if_pos hanswer
  have hindex : index < (s.setReplica index ⟨true, .finding⟩).replicas.length := (List.getElem?_eq_some_iff.mp hfind).1
  obtain ⟨t, hrun, hidle, hadds, hids⟩ := run_loop index true ((order.take 500).map Alert.id)
    (found (s.setReplica index ⟨true, .finding⟩) index ⟨true, .finding⟩ order) (List.getElem?_set_self hindex)
  rw [List.length_map] at hrun
  exact ⟨t, run_cons.mpr ⟨_, hfinding, run_cons.mpr ⟨_, hfound, hrun⟩⟩, hidle,
    ⟨hadds.alerts, hadds.resent, hadds.ended, hadds.jobs⟩, fun alert halert => hids alert.id (List.mem_map_of_mem halert)⟩

/-- A leader that dispatches undisturbed gives every alert that it finds a job, and takes none away. -/
def Recovers (s : State) : Prop :=
  ∀ index order, s.replicas[index]? = some ⟨true, .idle⟩ → IsAnswer s.alerts.rows order →
    ∃ t, run step s (dispatchActs index order) = some t ∧ t.replicas[index]? = some ⟨true, .idle⟩ ∧ Adds s t ∧
      ∀ alert ∈ order.take 500, ∃ job ∈ t.jobs.rows, job.id = .alert alert.id ∧
        (alert.id ∉ s.resent → Queued (runsOf s.ended alert.id) job)

theorem recovers_of_inv {s : State} (hs : Inv s) : Recovers s := by
  intro index order hreplica hanswer
  obtain ⟨t, hrun, hidle, hadds, hids⟩ := run_dispatch hreplica hanswer
  have ht : Inv t := inv_preserved.run_always hs hrun
  refine ⟨t, hrun, hidle, hadds, fun alert halert => ?_⟩
  obtain ⟨job, hjob, hid⟩ := hids alert halert
  refine ⟨job, hjob, hid, fun hresent => ?_⟩
  obtain ⟨hmem, hpending⟩ := List.mem_filter.mp (hanswer.1.subset (List.mem_of_mem_take halert))
  have hsame : job.alertEventId = alert.id := by rw [QueuedJob.alertEventId, hid, JobId.alertEventId]
  exact hadds.ended ▸ ht.queued alert (hadds.alerts ▸ hmem) hpending (hadds.resent ▸ hresent) job hjob hsame

/-- No alert is left behind: one that is pending has a job that will run, or one that the next dispatch adds, or one that
failed while the outcome of a run was lost. -/
theorem alerts_queued (replicas : Nat) (acts : List Act) :
    Throughout step (fun s => Recovers s ∧ ∀ alert ∈ s.alerts.rows, isPending alert.event = true → alert.id ∉ s.resent →
      ∀ job ∈ s.jobs.rows, job.alertEventId = alert.id → Queued (runsOf s.ended alert.id) job) (initial replicas) acts :=
  inv_preserved.throughout (fun _ hs => ⟨recovers_of_inv hs, hs.queued⟩) (inv_initial replicas) (guarded_always _ _ _)

end Savitools.Monitor.AlertDeliveries
