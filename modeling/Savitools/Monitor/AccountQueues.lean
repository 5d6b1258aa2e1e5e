import Savitools.Monitor.AccountInvariant
import Savitools.Monitor.AccountRecords

namespace Savitools.Monitor.AccountQueues

open Queues.Order AccountStream AccountCursors AccountInvariant

variable {account : Account} {base : Cursors} {s t : State} {worker next : Worker} {i k token cursor : Nat}
  {opening : Opening} {stream : Stream}

theorem queue_eq_pending (h : ∀ token ids, worker.progress ≠ .ingesting token ids) :
    queue worker = worker.pending := by
  cases hp : worker.progress with
  | ingesting token ids => exact absurd hp (h token ids)
  | idle | updating | updated | reporting | stopped => simp only [queue, hp]

theorem pending_subset_queue (worker : Worker) : worker.pending ⊆ queue worker := by
  cases hp : worker.progress with
  | ingesting token ids => simp only [queue, hp, List.subset_cons_self]
  | idle | updating | updated | reporting | stopped => simp only [queue, hp, List.Subset.refl]

/-- A worker that goes on from what it was ingesting has to be done with it, or to
have dropped it. -/
theorem goOn_ok (h : WorkerOk account base s worker) (next : Worker) (hl : Later s t)
    (hdropped : worker.dropped ⊆ next.dropped)
    (hleft : ∀ token ids, worker.progress = .ingesting token ids → Settled account base t next token)
    (hpending : next.pending = worker.pending) (hfree : ∀ token ids, next.progress ≠ .ingesting token ids)
    (hp : ProgressOk account base t next.progress) :
    WorkerOk account base t next ∧ Handed account base t worker next := by
  have hqueue : queue next = worker.pending := (queue_eq_pending hfree).trans hpending
  have hpassed : ∀ token ∈ queue next, token ∈ account.records ∧ Passed t token := by
    intro token hmem
    have hold := h.passed token (pending_subset_queue worker (hqueue ▸ hmem))
    exact ⟨hold.1, hl.passed hold.2⟩
  have hsettled : ∀ token, Settled account base s worker token → Settled account base t next token :=
    fun token hs => hs.imp (fun hd => hd.later hl) (fun hmem => hdropped hmem)
  have hgoing : Gapless (Settled account base t next) (queue next) ∧
      ∀ token ∈ queue worker, Settled account base t next token ∨ token ∈ queue next := by
    have hgapless := h.gapless
    rw [hqueue]
    cases hprogress : worker.progress with
    | ingesting token ids =>
        have hold : queue worker = token :: worker.pending := by simp only [queue, hprogress]
        rw [hold] at hgapless ⊢
        refine ⟨hgapless.rest hsettled (hleft token ids hprogress), fun other hmem => ?_⟩
        rcases List.mem_cons.mp hmem with rfl | hmem
        · exact .inl (hleft other ids hprogress)
        · exact .inr hmem
    | idle | updating | updated | reporting | stopped =>
        have hold : queue worker = worker.pending := by simp only [queue, hprogress]
        rw [hold] at hgapless ⊢
        exact ⟨hgapless.mono hsettled, fun _ hmem => .inr hmem⟩
  refine ⟨⟨hgoing.1, fun token ids heq => absurd heq (hfree token ids), hpassed, hp⟩, ?_⟩
  rintro token (hmem | hmem)
  · exact .inl (.inr (hdropped hmem))
  · exact hgoing.2 token hmem

theorem succeeds_of_free {progress : Progress} {rejected : Bool} (h : WorkerOk account base s worker)
    (hl : Later s t) (hworker : ∀ token ids, worker.progress ≠ .ingesting token ids)
    (hfree : ∀ token ids, progress ≠ .ingesting token ids) (hp : ProgressOk account base t progress) :
    Succeeds account base t worker { worker with progress := progress, rejected := rejected } := by
  obtain ⟨hok, hhanded⟩ := goOn_ok h { worker with progress := progress, rejected := rejected } hl
    (List.Subset.refl _) (fun token ids heq => absurd heq (hworker token ids)) rfl hfree hp
  exact ⟨rfl, hok, fun _ => hhanded⟩

/-- A failed task is let go of; only on a chain do others follow. -/
theorem succeeds_fail (h : WorkerOk account base s worker) (hl : Later s t) (dropped : List Nat)
    (hdropped : worker.dropped ⊆ dropped)
    (hleft : ∀ token ids, worker.progress = .ingesting token ids → token ∈ dropped) :
    Succeeds account base t worker (fail { worker with dropped := dropped }) := by
  by_cases hs : worker.streamed = true
  · have hfail : fail { worker with dropped := dropped } =
        { worker with progress := .reporting, dropped := dropped } := if_pos hs
    rw [hfail]
    obtain ⟨hok, hhanded⟩ := goOn_ok h { worker with progress := .reporting, dropped := dropped }
      hl hdropped (fun token ids heq => .inr (hleft token ids heq)) rfl nofun trivial
    exact ⟨rfl, hok, fun _ => hhanded⟩
  · have hfail : fail { worker with dropped := dropped } =
        { worker with pending := [], progress := .stopped, dropped := dropped } := if_neg hs
    rw [hfail]
    exact ⟨rfl, ⟨trivial, nofun, fun _ hmem => absurd hmem List.not_mem_nil, trivial⟩,
      fun hstreamed => absurd hstreamed hs⟩

theorem mem_ingestIds {watch : Watch} (ho : Owed account base s watch token)
    (h : isAfterCursor (s.memory watch.id) token = true) : watch.id ∈ ingestIds account s token :=
  List.mem_map_of_mem (List.mem_filter.mpr ⟨ho.1, by rw [h, ho.2.1]; rfl⟩)

theorem ingesting_ok (hm : Sound account base s s.memory) :
    ProgressOk account base s (.ingesting token (ingestIds account s token)) := by
  intro watch ho
  cases hc : s.memory watch.id with
  | none => exact .inl (mem_ingestIds ho (by rw [hc]; rfl))
  | some cursor =>
      by_cases hlt : cursor < token
      · exact .inl (mem_ingestIds ho (by rw [hc]; exact decide_eq_true hlt))
      · exact .inr (hm.kept watch ho.1 cursor hc token (not_lt.mp hlt) ho)

theorem invariant_begin {pending : List Nat} (h : Invariant account base s) (hk : s.workers[k]? = some worker)
    (hp : worker.progress = .idle) (hpending : worker.pending = token :: pending)
    (hclear : ∀ lost ∈ worker.dropped, lost < token → Done account base s lost) :
    Invariant account base (s.setWorker k { worker with
      pending := pending
      progress := .ingesting token (ingestIds account s token) }) := by
  have hworker := h.workers worker (List.mem_of_getElem? hk)
  have hold : queue worker = token :: pending := by simp only [queue, hp, hpending]
  have hqueue : queue { worker with
      pending := pending
      progress := .ingesting token (ingestIds account s token) } = queue worker := by
    simp only [queue, hp, hpending]
  have hgapless := hworker.gapless
  rw [hold] at hgapless
  refine h.setWorker_self hk ⟨rfl, ⟨hqueue ▸ hworker.gapless, ?_, hqueue ▸ hworker.passed,
    ingesting_ok h.cursors.memory⟩, fun _ _ hmem => hmem.imp .inr (fun hmem => hqueue ▸ hmem)⟩
  rintro _ _ ⟨⟩ other hlt
  rcases hgapless.1 other hlt with hdone | hdropped
  · exact hdone
  · exact hclear other hdropped hlt

theorem invariant_skip {pending : List Nat} (h : Invariant account base s) (hk : s.workers[k]? = some worker)
    (hp : worker.progress = .idle) (hpending : worker.pending = token :: pending) :
    Invariant account base (s.setWorker k { worker with
      pending := pending
      progress := .reporting
      rejected := false
      dropped := token :: worker.dropped }) := by
  have hworker := h.workers worker (List.mem_of_getElem? hk)
  have hold : queue worker = token :: pending := by simp only [queue, hp, hpending]
  have hgapless := hworker.gapless
  rw [hold] at hgapless
  refine h.setWorker_self hk ⟨rfl, ⟨?_, ?_, fun other hmem => ?_, trivial⟩, fun _ other hmem => ?_⟩
  · exact hgapless.rest (fun _ hs => hs.imp_right (List.mem_cons_of_mem token)) (.inr List.mem_cons_self)
  · rintro _ _ ⟨⟩
  · exact hworker.passed other (hold ▸ List.mem_cons_of_mem token hmem)
  · rw [hold] at hmem
    rcases hmem with hdropped | hmem
    · exact .inl (.inr (List.mem_cons_of_mem token hdropped))
    · rcases List.mem_cons.mp hmem with rfl | hmem
      · exact .inl (.inr List.mem_cons_self)
      · exact .inr hmem

theorem ingested (h : WorkerOk account base s worker) (hp : worker.progress = .ingesting token []) :
    Passed s token ∧ DoneTo account base s token := by
  have hqueue : queue worker = token :: worker.pending := by simp only [queue, hp]
  have hprogress := h.progress
  rw [hp] at hprogress
  refine ⟨(h.passed token (hqueue ▸ List.mem_cons_self)).2, fun other hle => ?_⟩
  rcases hle.lt_or_eq with hlt | rfl
  · exact h.complete token [] hp other hlt
  · exact fun watch ho => (hprogress watch ho).resolve_left List.not_mem_nil

theorem mem_cursorIds {watch : Watch} (hw : watch ∈ account.watches)
    (h : shouldAdvanceCursor (s.memory watch.id) cursor = true) : watch.id ∈ cursorIds account s cursor :=
  List.mem_map_of_mem (List.mem_filter.mpr ⟨hw, h⟩)

theorem afterIngest_ok (hpassed : Passed s token) (hdone : DoneTo account base s token) (worker : Worker) :
    ProgressOk account base s (afterIngest account s worker token).progress := by
  simp only [afterIngest]
  split
  · trivial
  · exact ⟨hpassed, hdone, fun watch hw hnone => mem_cursorIds hw (by rw [hnone]; rfl)⟩

theorem afterIngest_free (s : State) (worker : Worker) (token other : Nat) (ids : List Nat) :
    (afterIngest account s worker token).progress ≠ .ingesting other ids := by
  simp only [afterIngest]
  split <;> nofun

theorem invariant_afterIngest (h : Invariant account base s) (hk : s.workers[k]? = some worker)
    (hp : worker.progress = .ingesting token []) :
    Invariant account base (s.setWorker k (afterIngest account s worker token)) := by
  have hworker := h.workers worker (List.mem_of_getElem? hk)
  obtain ⟨hpassed, hdone⟩ := ingested hworker hp
  have hingested : ∀ other ids, worker.progress = .ingesting other ids →
      Settled account base s (afterIngest account s worker token) other := by
    intro other ids heq
    cases hp.symm.trans heq
    exact .inl (hdone token le_rfl)
  obtain ⟨hok, hhanded⟩ := goOn_ok (t := s) hworker (afterIngest account s worker token)
    (later_of_eq rfl rfl rfl rfl) (List.Subset.refl _) hingested rfl (afterIngest_free s worker token)
    (afterIngest_ok hpassed hdone worker)
  exact h.setWorker_self hk ⟨rfl, hok, fun _ => hhanded⟩

theorem invariant_writeEvent {id : Nat} (h : Invariant account base s) (hk : s.workers[k]? = some worker)
    (ht : t = { s with events := s.events.insert (id, token) }.setWorker k next)
    (hgo : Later s t → (id, token) ∈ t.events → Succeeds account base t worker next) :
    Invariant account base t := by
  subst ht
  have hl : Later s ({ s with events := s.events.insert (id, token) }.setWorker k next) :=
    ⟨rfl, fun _ hmem => List.mem_insert_of_mem hmem, fun _ hnone => hnone, fun _ hnone => hnone⟩
  exact h.setWorker hk rfl hl (h.cursors.later hl rfl rfl) (fun _ => rfl) (hgo hl List.mem_insert_self)

theorem persisted_ok {id : Nat} {ids : List Nat} (h : WorkerOk account base s worker)
    (hp : worker.progress = .ingesting token (id :: ids)) (hl : Later s t) (hmem : (id, token) ∈ t.events) :
    ProgressOk account base t (.ingesting token ids) := by
  have hprogress := h.progress
  rw [hp] at hprogress
  intro watch ho
  rcases hprogress watch (hl.owed ho) with hid | hevent
  · rcases List.mem_cons.mp hid with heq | hid
    · exact .inr (heq ▸ hmem)
    · exact .inl hid
  · exact .inr (hl.events hevent)

theorem invariant_persist {id : Nat} {ids : List Nat} (h : Invariant account base s)
    (hk : s.workers[k]? = some worker) (hp : worker.progress = .ingesting token (id :: ids)) :
    Invariant account base ({ s with events := s.events.insert (id, token) }.setWorker k
      { worker with progress := .ingesting token ids }) := by
  have hworker := h.workers worker (List.mem_of_getElem? hk)
  refine invariant_writeEvent h hk rfl (fun hl hmem => ?_)
  have hqueue : queue { worker with progress := .ingesting token ids } = queue worker := by
    simp only [queue, hp]
  have hlater := hworker.later hl
  refine ⟨rfl, ⟨hqueue ▸ hlater.gapless, ?_, hqueue ▸ hlater.passed, persisted_ok hworker hp hl hmem⟩,
    fun _ _ hmem => hmem.imp .inr (fun hmem => hqueue ▸ hmem)⟩
  rintro _ _ ⟨⟩
  exact hlater.complete token _ hp

theorem succeeds_drop {ids : List Nat} (h : WorkerOk account base s worker)
    (hp : worker.progress = .ingesting token ids) (hl : Later s t) :
    Succeeds account base t worker (fail { worker with dropped := token :: worker.dropped }) := by
  refine succeeds_fail h hl _ (List.subset_cons_self _ _) (fun other others heq => ?_)
  cases hp.symm.trans heq
  exact List.mem_cons_self

theorem invariant_persist_lost {id : Nat} {ids : List Nat} (h : Invariant account base s)
    (hk : s.workers[k]? = some worker) (hp : worker.progress = .ingesting token (id :: ids)) :
    Invariant account base ({ s with events := s.events.insert (id, token) }.setWorker k
      (fail { worker with dropped := token :: worker.dropped })) :=
  invariant_writeEvent h hk rfl (fun hl _ =>
    succeeds_drop (h.workers worker (List.mem_of_getElem? hk)) hp hl)

theorem invariant_persist_rejected {ids : List Nat} (h : Invariant account base s)
    (hk : s.workers[k]? = some worker) (hp : worker.progress = .ingesting token ids) :
    Invariant account base (s.setWorker k (fail { worker with dropped := token :: worker.dropped })) :=
  h.setWorker_self hk (succeeds_drop (h.workers worker (List.mem_of_getElem? hk)) hp
    (later_of_eq rfl rfl rfl rfl))

theorem invariant_moveStored {ids : List Nat} (h : Invariant account base s) (hk : s.workers[k]? = some worker)
    (hp : worker.progress = .updating token ids)
    (ht : t = { s with stored := setCursors s.stored ids token }.setWorker k next)
    (hgo : Later s t → Moving account base t token ids → Succeeds account base t worker next) :
    Invariant account base t := by
  subst ht
  have hmoving := (h.workers worker (List.mem_of_getElem? hk)).progress
  rw [hp] at hmoving
  obtain ⟨hpassed, hdone, hids⟩ := hmoving
  have hl : Later s ({ s with stored := setCursors s.stored ids token }.setWorker k next) :=
    ⟨rfl, List.Subset.refl _, fun _ hnone => hnone, fun id hnone => (setCursors_eq_none hnone).2⟩
  have hc : CursorsOk account base ({ s with stored := setCursors s.stored ids token }.setWorker k next) := by
    refine ⟨h.cursors.memory.later hl, ?_, h.cursors.unread, fun hf => absurd hf hpassed.followed, ?_⟩
    · refine (h.cursors.stored.setCursors hpassed hdone (fun watch hw hnone => ?_)).later hl
      exact hids watch hw (h.cursors.written watch.id hnone)
    · exact fun id hnone => h.cursors.written id (setCursors_eq_none hnone).2
  exact h.setWorker hk rfl hl hc (fun hf => absurd hf hpassed.followed)
    (hgo hl (Moving.later ⟨hpassed, hdone, hids⟩ hl))

theorem not_ingesting {progress : Progress} (hp : worker.progress = progress)
    (hfree : ∀ token ids, progress ≠ .ingesting token ids) (token : Nat) (ids : List Nat) :
    worker.progress ≠ .ingesting token ids :=
  hp ▸ hfree token ids

theorem invariant_moveCursor {ids : List Nat} (h : Invariant account base s) (hk : s.workers[k]? = some worker)
    (hp : worker.progress = .updating token ids) :
    Invariant account base ({ s with stored := setCursors s.stored ids token }.setWorker k
      { worker with progress := .updated token ids }) := by
  refine invariant_moveStored h hk hp rfl (fun hl hmoving => ?_)
  refine succeeds_of_free (h.workers worker (List.mem_of_getElem? hk)) hl (not_ingesting hp nofun) nofun
    ⟨hmoving, fun id hid hnone => ?_⟩
  exact (setCursors_eq_none hnone).1 hid

theorem succeeds_fail_free (h : WorkerOk account base s worker) (hl : Later s t)
    (hworker : ∀ token ids, worker.progress ≠ .ingesting token ids) :
    Succeeds account base t worker (fail worker) :=
  succeeds_fail h hl worker.dropped (List.Subset.refl _) (fun token ids heq => absurd heq (hworker token ids))

theorem invariant_moveCursor_lost {ids : List Nat} (h : Invariant account base s)
    (hk : s.workers[k]? = some worker) (hp : worker.progress = .updating token ids) :
    Invariant account base ({ s with stored := setCursors s.stored ids token }.setWorker k (fail worker)) :=
  invariant_moveStored h hk hp rfl (fun hl _ =>
    succeeds_fail_free (h.workers worker (List.mem_of_getElem? hk)) hl (not_ingesting hp nofun))

theorem invariant_moveCursor_rejected {ids : List Nat} (h : Invariant account base s)
    (hk : s.workers[k]? = some worker) (hp : worker.progress = .updating token ids) :
    Invariant account base (s.setWorker k (fail worker)) :=
  h.setWorker_self hk (succeeds_fail_free (h.workers worker (List.mem_of_getElem? hk))
    (later_of_eq rfl rfl rfl rfl) (not_ingesting hp nofun))

theorem invariant_resumeWorker {ids : List Nat} (h : Invariant account base s)
    (hk : s.workers[k]? = some worker) (hp : worker.progress = .updated token ids) :
    Invariant account base ({ s with memory := setCursors s.memory ids token }.setWorker k
      { worker with progress := .idle }) := by
  have hworker := h.workers worker (List.mem_of_getElem? hk)
  have hmoving := hworker.progress
  rw [hp] at hmoving
  obtain ⟨⟨hpassed, hdone, hids⟩, hstored⟩ := hmoving
  have hl : Later s ({ s with memory := setCursors s.memory ids token }.setWorker k
      { worker with progress := .idle }) :=
    ⟨rfl, List.Subset.refl _, fun id hnone => (setCursors_eq_none hnone).2, fun _ hnone => hnone⟩
  refine h.setWorker hk rfl hl ?_ (fun _ => rfl) (succeeds_of_free hworker hl (not_ingesting hp nofun) nofun trivial)
  refine ⟨(h.cursors.memory.setCursors hpassed hdone hids).later hl, h.cursors.stored.later hl,
    fun hf => absurd hf hpassed.followed, fun hf => absurd hf hpassed.followed, fun id hnone => ?_⟩
  have hmem : id ∉ ids := fun hid => hstored id hid hnone
  exact (setCursors_of_not_mem hmem).trans (h.cursors.written id hnone)

theorem invariant_report (h : Invariant account base s) (hk : s.workers[k]? = some worker) {ok : Bool}
    (hp : worker.progress = .reporting) :
    Invariant account base (s.setWorker k { worker with progress := .idle, rejected := !ok }) := by
  exact h.setWorker_self hk (succeeds_of_free (h.workers worker (List.mem_of_getElem? hk))
    (later_of_eq rfl rfl rfl rfl) (not_ingesting hp nofun) nofun trivial)

theorem invariant_stepWorker (h : Invariant account base s) (hk : s.workers[k]? = some worker) {act : Act}
    (hbegin : ∀ j, act = .begin j → worker.rejected = true ∨ ∀ token ∈ worker.pending.head?,
      ∀ lost ∈ worker.dropped, lost < token → Done account base s lost)
    (hstep : stepWorker account s k worker worker.progress act = some t) : Invariant account base t := by
  cases hp : worker.progress <;> cases act <;> simp only [hp, stepWorker, reduceCtorEq] at hstep
  case idle.begin j =>
    cases hpending : worker.pending with
    | nil => simp only [hpending, reduceCtorEq] at hstep
    | cons token pending =>
        simp only [hpending] at hstep
        split at hstep
        next => exact Option.some.inj hstep ▸ invariant_skip h hk hp hpending
        next hrejected =>
            have hclear := (hbegin j rfl).resolve_left hrejected token (by rw [hpending]; rfl)
            exact Option.some.inj hstep ▸ invariant_begin h hk hp hpending hclear
  case ingesting.persist token ids j outcome =>
    cases ids with
    | nil => exact Option.some.inj hstep ▸ invariant_afterIngest h hk hp
    | cons id ids =>
        cases outcome with
        | answered => exact Option.some.inj hstep ▸ invariant_persist h hk hp
        | lost => exact Option.some.inj hstep ▸ invariant_persist_lost h hk hp
        | rejected => exact Option.some.inj hstep ▸ invariant_persist_rejected h hk hp
  case updating.moveCursor token ids j outcome =>
    cases outcome with
    | answered => exact Option.some.inj hstep ▸ invariant_moveCursor h hk hp
    | lost => exact Option.some.inj hstep ▸ invariant_moveCursor_lost h hk hp
    | rejected => exact Option.some.inj hstep ▸ invariant_moveCursor_rejected h hk hp
  case updated.resumeWorker => exact Option.some.inj hstep ▸ invariant_resumeWorker h hk hp
  case reporting.report => exact Option.some.inj hstep ▸ invariant_report h hk hp

end Savitools.Monitor.AccountQueues

namespace Savitools.Monitor.EventDelivery

open Transitions.Runs AccountStream AccountCursors AccountInvariant AccountOpenings AccountQueues AccountRecords

variable (account : Account) (base : Cursors)

/-- No stored cursor lies past a delivered record that is not persisted for its
watch, and a restart from the stored cursors delivers such a record again. -/
structure NoEventLost (s : State) : Prop where
  persisted : ∀ watch ∈ account.watches, subscribed account watch → ∀ token ∈ s.delivered,
    isAfterCursor (base watch.id) token → ∀ cursor, s.stored watch.id = some cursor →
      token ≤ cursor → (watch.id, token) ∈ s.events
  redelivered : ∀ watch ∈ account.watches, subscribed account watch → ∀ token ∈ s.delivered,
    isAfterCursor (base watch.id) token → (watch.id, token) ∉ s.events →
      isAfterCursor (s.stored watch.id) token ∧ ∃ cursor, lowestCursor account s.stored = some cursor ∧
        token ∈ account.records.filter (fun record => cursor < record)

def missing (s : State) (token : Nat) : Bool :=
  (ingestIds account s token).any (fun id => !s.events.contains (id, token))

/-- A queue runs no task while an earlier record that it has dropped is missing for
a watch, and the first cursor of the account is looked for by one opening at a time. -/
def Orderly (s : State) : Act → Prop
  | .begin k => ∀ worker ∈ s.workers[k]?, worker.rejected = true ∨ ∀ token ∈ worker.pending.head?,
      ∀ lost ∈ worker.dropped, lost < token → missing account s lost = false
  | .openGroup | .openStream _ | .poll => opensAlone account s
  | _ => True

variable {account : Account} {base : Cursors} {s t : State}

theorem invariant_stopped (ho : t.openings = []) (hs : t.streams = []) (hw : t.workers = [])
    (hc : CursorsOk account base t) (hd : ∀ token ∈ t.delivered, token ∈ account.records ∧ Passed t token) :
    Invariant account base t :=
  ⟨hc, by simp only [ho, List.not_mem_nil, false_implies, implies_true],
    by simp only [ho, List.countP_nil, Nat.zero_le],
    by simp only [hs, List.not_mem_nil, false_implies, implies_true],
    by simp only [hw, List.not_mem_nil, false_implies, implies_true], hd⟩

theorem invariant_restart (h : Invariant account base s) (hne : account.watches ≠ []) :
    Invariant account base (restart account s) := by
  cases hf : s.floor with
  | some low =>
      have hl : Later s (restart account s) :=
        ⟨by rw [restart, hf]; rfl, List.Subset.refl _, h.cursors.written, fun _ hnone => hnone⟩
      have hfollowed : (restart account s).floor ≠ none := by
        rw [hl.floor, hf]
        exact Option.some_ne_none low
      refine invariant_stopped rfl rfl rfl ⟨h.cursors.stored.later hl, h.cursors.stored.later hl,
        fun hnone => absurd hnone hfollowed, fun hnone => absurd hnone hfollowed, fun _ hnone => hnone⟩ ?_
      exact h.delivered_later hl
  | none =>
      obtain ⟨cursor, hlevel⟩ := h.cursors.level hf
      have hfloor : (restart account s).floor = cursor := by
        rw [restart, hf]
        exact lowestCursor_of_level hne hlevel
      refine invariant_stopped rfl rfl rfl ?_ (fun token hmem => absurd hf (h.delivered token hmem).2.followed)
      cases cursor with
      | none => exact ⟨sound_of_unfollowed hfloor _, sound_of_unfollowed hfloor _, fun _ => hlevel,
          fun _ => ⟨_, hlevel⟩, fun _ hnone => hnone⟩
      | some cursor => exact ⟨sound_of_level hne hfloor hlevel, sound_of_level hne hfloor hlevel,
          fun hnone => (by cases hfloor.symm.trans hnone), fun hnone => (by cases hfloor.symm.trans hnone),
          fun _ hnone => hnone⟩

theorem invariant_initial (account : Account) (cursors : Cursors) :
    Invariant account cursors (initial account cursors) := by
  refine invariant_stopped rfl rfl rfl ?_ (fun _ hmem => absurd hmem List.not_mem_nil)
  exact ⟨sound_initial account cursors, sound_initial account cursors,
    fun hnone watch hw => lowestCursor_eq_none hnone hw,
    fun hnone => ⟨none, fun watch hw => lowestCursor_eq_none hnone hw⟩, fun _ hnone => hnone⟩

theorem done_of_not_missing (hm : Sound account base s s.memory) {token : Nat}
    (h : missing account s token = false) : Done account base s token := by
  intro watch ho
  rcases ingesting_ok hm watch ho with hid | hevent
  · have hcontains := List.any_eq_false.mp h watch.id hid
    rw [Bool.not_eq_true, Bool.not_eq_false', List.contains_iff_mem] at hcontains
    exact hcontains
  · exact hevent

theorem invariant_preserved (hne : account.watches ≠ []) :
    Preserves (step account) (Orderly account) (Invariant account base) := by
  intro s act t h hguard hstep
  cases act with
  | openGroup =>
      simp only [step, if_neg hne, Option.some.injEq] at hstep
      exact hstep ▸ invariant_openGroup h hguard
  | openStream k =>
      cases hk : s.workers[k]? with
      | none => simp only [step, hk, reduceCtorEq] at hstep
      | some worker =>
          simp only [step, hk, Option.ite_none_right_eq_some, Option.some.injEq, Bool.and_eq_true] at hstep
          obtain ⟨⟨hs, -⟩, rfl⟩ := hstep
          refine invariant_ensureAccountCursor h hguard ?_
          rintro j ⟨⟩
          exact ⟨worker, hk, hs⟩
  | poll =>
      simp only [step, if_neg hne, Option.some.injEq] at hstep
      exact hstep ▸ invariant_ensureAccountCursor h hguard (fun k hk => (by cases hk))
  | latest i _ | firstCursor i _ | resumeOpening i | connect i _ | giveUp i =>
      obtain ⟨opening, hi, hstep⟩ := Option.bind_eq_some_iff.mp hstep
      exact invariant_stepOpening h hne hi hstep
  | deliver i =>
      obtain ⟨stream, hi, hstep⟩ := Option.bind_eq_some_iff.mp hstep
      exact invariant_deliver h hi hstep
  | close i =>
      obtain ⟨stream, hi, rfl⟩ := Option.map_eq_some_iff.mp hstep
      exact invariant_close h hi
  | begin k =>
      obtain ⟨worker, hk, hstep⟩ := Option.bind_eq_some_iff.mp hstep
      refine invariant_stepWorker h hk (fun _ _ => ?_) hstep
      refine (hguard worker hk).imp_right (fun hclear token hmem lost hlost hlt => ?_)
      exact done_of_not_missing h.cursors.memory (hclear token hmem lost hlost hlt)
  | persist k _ | moveCursor k _ | resumeWorker k | report k _ =>
      obtain ⟨worker, hk, hstep⟩ := Option.bind_eq_some_iff.mp hstep
      exact invariant_stepWorker h hk (fun _ heq => (by cases heq)) hstep
  | restart => exact Option.some.inj hstep ▸ invariant_restart h hne

theorem noEventLost_of_invariant (h : Invariant account base s) : NoEventLost account base s := by
  have howed : ∀ watch ∈ account.watches, subscribed account watch → ∀ token ∈ s.delivered,
      isAfterCursor (base watch.id) token → Owed account base s watch token :=
    fun watch hw hsub token hmem hafter =>
      ⟨hw, hsub, (h.delivered token hmem).1, (h.delivered token hmem).2, hafter⟩
  constructor
  · intro watch hw hsub token hmem hafter cursor hc hle
    exact h.cursors.stored.kept watch hw cursor hc token hle (howed watch hw hsub token hmem hafter)
  · intro watch hw hsub token hmem hafter hlost
    obtain ⟨low, hlow, hlt⟩ := (h.delivered token hmem).2
    obtain ⟨cursor, hlowest, -, hdone⟩ := h.cursors.stored.lowestCursor hlow
    have ho := howed watch hw hsub token hmem hafter
    refine ⟨?_, cursor, hlowest, List.mem_filter.mpr ⟨(h.delivered token hmem).1, decide_eq_true ?_⟩⟩
    · cases hc : s.stored watch.id with
      | none => rfl
      | some own =>
          refine decide_eq_true (not_le.mp (fun hle => hlost ?_))
          exact h.cursors.stored.kept watch hw own hc token hle ho
    · exact not_le.mp (fun hle => hlost (hdone token hle watch ho))

/-- In every orderly run, whatever fails in it, no event is lost. -/
theorem noEventLost_run (account : Account) (cursors : Cursors) (acts : List Act) (s : State)
    (hg : Guarded (step account) (Orderly account) (initial account cursors) acts)
    (hr : run (step account) (initial account cursors) acts = some s) : NoEventLost account cursors s := by
  by_cases hne : account.watches = []
  · constructor <;> intro watch hw <;> exact absurd (hne ▸ hw) List.not_mem_nil
  · exact noEventLost_of_invariant ((invariant_preserved hne).run (invariant_initial account cursors) hg hr)

instance (s : State) : (act : Act) → Decidable (Orderly account s act)
  | .begin k => inferInstanceAs (Decidable (∀ worker ∈ s.workers[k]?, worker.rejected = true ∨
      ∀ token ∈ worker.pending.head?, ∀ lost ∈ worker.dropped, lost < token → missing account s lost = false))
  | .openGroup | .openStream _ | .poll => inferInstanceAs (Decidable
      (lowestCursor account s.memory = none → ∀ opening ∈ s.openings, inFlight opening.lookup = false))
  | .latest _ _ | .firstCursor _ _ | .resumeOpening _ | .connect _ _ | .giveUp _ | .deliver _ | .close _
  | .persist _ _ | .moveCursor _ _ | .resumeWorker _ | .report _ _ | .restart => isTrue trivial

def payments : Account where
  source := .payment
  watches := [⟨1, [.payment]⟩, ⟨2, [.transaction]⟩]
  records := [11, 12, 13]
  ordered := by decide

def fromTen : Cursors := fun id => if id = 1 then some 10 else none

/-- The first record cannot be inserted, and the stream breaks and is opened again
before another one arrives; the cursor of the second one cannot be moved, and the
process is restarted and polls from the old cursor. -/
def restarted : List Act :=
  [.openGroup, .connect 0 0, .deliver 0, .begin 0, .persist 0 .rejected, .report 0 true,
    .close 0, .openStream 0, .connect 1 0, .deliver 1, .deliver 1,
    .begin 0, .persist 0 .answered, .persist 0 .answered, .moveCursor 0 .answered, .resumeWorker 0,
    .begin 0, .persist 0 .answered, .persist 0 .answered, .moveCursor 0 .rejected, .report 0 true,
    .restart, .poll, .connect 0 200, .begin 0, .persist 0 .answered, .persist 0 .answered,
    .moveCursor 0 .answered, .resumeWorker 0, .begin 0, .persist 0 .lost]

theorem noEventLost_restarted :
    ∃ s, run (step payments) (initial payments fromTen) restarted = some s ∧ s.events = [(1, 13), (1, 12), (1, 11)] ∧
      NoEventLost payments fromTen s := by
  obtain ⟨s, hr, hp⟩ := exists_of_run_any (step payments) (initial payments fromTen) restarted
    (fun s => s.events = [(1, 13), (1, 12), (1, 11)]) (by decide)
  exact ⟨s, hr, of_decide_eq_true hp, noEventLost_run payments fromTen restarted s (by decide) hr⟩

/-- The insertion of the first record fails; its task is reported and forgotten,
and the next one moves the cursor past both. -/
def swallowed : List Act :=
  [.openGroup, .connect 0 0, .deliver 0, .deliver 0, .begin 0, .persist 0 .rejected, .report 0 true,
    .begin 0, .persist 0 .answered, .persist 0 .answered, .moveCursor 0 .answered]

/-- The cursor cannot be moved and the failure cannot be reported either, so the
next task is skipped; the one after it moves the cursor past its record. -/
def skipped : List Act :=
  [.openGroup, .connect 0 0, .deliver 0, .deliver 0, .deliver 0,
    .begin 0, .persist 0 .answered, .persist 0 .answered, .moveCursor 0 .rejected, .report 0 false,
    .begin 0, .report 0 true, .begin 0, .persist 0 .answered, .persist 0 .answered, .moveCursor 0 .answered]

/-- A second group looks for the first cursor while the first one does, and puts
the later of the two over it. -/
def overlapping : List Act :=
  [.openGroup, .openGroup, .latest 0 (some 10), .latest 1 (some 11), .firstCursor 0 .answered, .resumeOpening 0,
    .connect 0 0, .deliver 0, .firstCursor 1 .answered]

def loses (cursors : Cursors) (acts : List Act) : Bool :=
  (run (step payments) (initial payments cursors) acts).any (fun s =>
    s.delivered.any (fun token => isAfterCursor (cursors 1) token && !s.events.contains (1, token) &&
      (s.stored 1).any (fun cursor => token ≤ cursor)))

theorem lost_of_loses {cursors : Cursors} {acts : List Act} (h : loses cursors acts = true) :
    ∃ s, run (step payments) (initial payments cursors) acts = some s ∧ ¬ NoEventLost payments cursors s := by
  obtain ⟨s, hr, hp⟩ := exists_of_run_any (step payments) (initial payments cursors) acts _ h
  obtain ⟨token, hmem, hp⟩ := List.any_eq_true.mp hp
  simp only [Bool.and_eq_true, Bool.not_eq_true', Option.any_eq_true, decide_eq_true_eq] at hp
  obtain ⟨⟨hafter, hlost⟩, cursor, hc, hle⟩ := hp
  refine ⟨s, hr, fun hkept => ?_⟩
  have hevent := hkept.persisted ⟨1, [.payment]⟩ List.mem_cons_self rfl token hmem hafter cursor hc hle
  rw [List.contains_iff_mem.mpr hevent] at hlost
  cases hlost

theorem events_lost :
    (∃ s, run (step payments) (initial payments fromTen) swallowed = some s ∧ ¬ NoEventLost payments fromTen s) ∧
    (∃ s, run (step payments) (initial payments fromTen) skipped = some s ∧ ¬ NoEventLost payments fromTen s) ∧
    (∃ s, run (step payments) (initial payments (fun _ => none)) overlapping = some s ∧
      ¬ NoEventLost payments (fun _ => none) s) :=
  ⟨lost_of_loses (by decide), lost_of_loses (by decide), lost_of_loses (by decide)⟩

end Savitools.Monitor.EventDelivery
