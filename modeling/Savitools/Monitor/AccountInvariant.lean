import Savitools.Monitor.AccountStream
import Savitools.Queues.Order
import Savitools.Stores.Table

namespace Savitools.Monitor.AccountInvariant

open Queues.Order Stores.Table AccountStream AccountCursors

variable (account : Account) (base : Cursors)

def inFlight : Lookup → Bool
  | .searching | .updating _ _ | .updated _ _ => true
  | .ready _ | .ended => false

/-- What the queue has still to persist. -/
def queue (worker : Worker) : List Nat :=
  match worker.progress with
  | .ingesting token _ => token :: worker.pending
  | _ => worker.pending

def Moving (s : State) (token : Nat) (ids : List Nat) : Prop :=
  Passed s token ∧ DoneTo account base s token ∧
    ∀ watch ∈ account.watches, s.memory watch.id = none → watch.id ∈ ids

def ProgressOk (s : State) : Progress → Prop
  | .ingesting token ids =>
      ∀ watch, Owed account base s watch token → watch.id ∈ ids ∨ (watch.id, token) ∈ s.events
  | .updating token ids => Moving account base s token ids
  | .updated token ids => Moving account base s token ids ∧ ∀ id ∈ ids, s.stored id ≠ none
  | _ => True

def Settled (s : State) (worker : Worker) (token : Nat) : Prop :=
  Done account base s token ∨ token ∈ worker.dropped

structure WorkerOk (s : State) (worker : Worker) : Prop where
  gapless : Gapless (Settled account base s worker) (queue worker)
  complete : ∀ token ids, worker.progress = .ingesting token ids → ∀ other < token, Done account base s other
  passed : ∀ token ∈ queue worker, token ∈ account.records ∧ Passed s token
  progress : ProgressOk account base s worker.progress

/-- All that a worker had dropped or in hand is settled, or in the hands of the next one. -/
def Handed (s : State) (worker next : Worker) : Prop :=
  ∀ token, token ∈ worker.dropped ∨ token ∈ queue worker →
    Settled account base s next token ∨ token ∈ queue next

structure Succeeds (s : State) (worker next : Worker) : Prop where
  streamed : next.streamed = worker.streamed
  ok : WorkerOk account base s next
  handed : worker.streamed = true → Handed account base s worker next

def allIds : List Nat := account.watches.map Watch.id

def LookupOk (s : State) : Lookup → Prop
  | .searching => s.floor = none
  | .updating _ ids => s.floor = none ∧ ids = allIds account
  | .updated cursor ids => s.floor = none ∧ ids = allIds account ∧
      ∀ watch ∈ account.watches, s.stored watch.id = some cursor
  | .ready cursor => (∃ low, s.floor = some low ∧ low ≤ cursor) ∧ DoneTo account base s cursor
  | .ended => True

def HasQueue (s : State) (k : Nat) : Prop := ∃ worker, s.workers[k]? = some worker ∧ worker.streamed = true

structure OpeningOk (s : State) (opening : Opening) : Prop where
  lookup : LookupOk account base s opening.lookup
  queue : ∀ k, opening.worker = some k → HasQueue s k

/-- What the stream has moved past is done, dropped or queued. -/
structure StreamOk (s : State) (stream : Stream) : Prop where
  low : ∃ low, s.floor = some low ∧ low ≤ stream.position
  covered : ∃ worker, s.workers[stream.worker]? = some worker ∧ worker.streamed = true ∧
    ∀ token ≤ stream.position, Settled account base s worker token ∨ token ∈ queue worker

structure CursorsOk (s : State) : Prop where
  memory : Sound account base s s.memory
  stored : Sound account base s s.stored
  unread : s.floor = none → ∀ watch ∈ account.watches, s.memory watch.id = none
  level : s.floor = none → ∃ cursor, ∀ watch ∈ account.watches, s.stored watch.id = cursor
  written : ∀ id, s.stored id = none → s.memory id = none

structure Invariant (s : State) : Prop where
  cursors : CursorsOk account base s
  openings : ∀ opening ∈ s.openings, OpeningOk account base s opening
  single : s.openings.countP (fun opening => inFlight opening.lookup) ≤ 1
  streams : ∀ stream ∈ s.streams, StreamOk account base s stream
  workers : ∀ worker ∈ s.workers, WorkerOk account base s worker
  delivered : ∀ token ∈ s.delivered, token ∈ account.records ∧ Passed s token

variable {account : Account} {base : Cursors} {s t : State} {worker next : Worker} {i k token cursor : Nat}
  {opening : Opening} {stream : Stream}

theorem Moving.later {ids : List Nat} (h : Moving account base s token ids) (hl : Later s t) :
    Moving account base t token ids :=
  ⟨hl.passed h.1, h.2.1.later hl, fun w hw hnone => h.2.2 w hw (hl.memory w.id hnone)⟩

theorem ProgressOk.later {progress : Progress} (h : ProgressOk account base s progress) (hl : Later s t) :
    ProgressOk account base t progress := by
  cases progress with
  | ingesting token ids => exact fun w ho => (h w (hl.owed ho)).imp_right (fun hmem => hl.events hmem)
  | updating token ids => exact Moving.later h hl
  | updated token ids => exact ⟨h.1.later hl, fun id hid hnone => h.2 id hid (hl.stored id hnone)⟩
  | idle | reporting | stopped => trivial

theorem Settled.later (h : Settled account base s worker token) (hl : Later s t) :
    Settled account base t worker token :=
  h.imp_left (fun hd => hd.later hl)

theorem WorkerOk.later (h : WorkerOk account base s worker) (hl : Later s t) : WorkerOk account base t worker where
  gapless := h.gapless.mono (fun _ hs => hs.later hl)
  complete token ids hp other hlt := (h.complete token ids hp other hlt).later hl
  passed token hmem := ⟨(h.passed token hmem).1, hl.passed (h.passed token hmem).2⟩
  progress := h.progress.later hl

theorem WorkerOk.of_unfollowed (h : WorkerOk account base s worker) (hf : s.floor = none) (t : State) :
    WorkerOk account base t worker := by
  have hnil : queue worker = [] := by
    refine List.eq_nil_iff_forall_not_mem.mpr (fun token hmem => ?_)
    exact (h.passed token hmem).2.followed hf
  refine ⟨hnil ▸ trivial, fun token ids hp => ?_, fun token hmem => absurd (hnil ▸ hmem) List.not_mem_nil, ?_⟩
  · simp [queue, hp] at hnil
  have hprogress := h.progress
  cases hp : worker.progress with
  | ingesting token ids => simp [queue, hp] at hnil
  | updating token ids =>
      rw [hp] at hprogress
      exact absurd hf hprogress.1.followed
  | updated token ids =>
      rw [hp] at hprogress
      exact absurd hf hprogress.1.1.followed
  | idle | reporting | stopped => trivial

theorem LookupOk.later {lookup : Lookup} (h : LookupOk account base s lookup) (hl : Later s t)
    (hstored : inFlight lookup = true → t.stored = s.stored) : LookupOk account base t lookup := by
  cases lookup with
  | searching => exact hl.floor.trans h
  | updating cursor ids => exact ⟨hl.floor.trans h.1, h.2⟩
  | updated cursor ids => exact ⟨hl.floor.trans h.1, h.2.1, hstored rfl ▸ h.2.2⟩
  | ready cursor => exact ⟨hl.floor ▸ h.1, h.2.later hl⟩
  | ended => trivial

theorem LookupOk.unfollowed {lookup : Lookup} (h : LookupOk account base s lookup)
    (hf : inFlight lookup = true) : s.floor = none := by
  cases lookup with
  | searching => exact h
  | updating cursor ids | updated cursor ids => exact h.1
  | ready cursor | ended => cases hf

theorem LookupOk.quiet {lookup : Lookup} (h : LookupOk account base s lookup) (hf : s.floor = none)
    (hflight : inFlight lookup = false) : lookup = .ended := by
  cases lookup with
  | searching | updating cursor ids | updated cursor ids => cases hflight
  | ready cursor =>
      obtain ⟨⟨low, hlow, -⟩, -⟩ := h
      cases hf.symm.trans hlow
  | ended => rfl

theorem Handed.refl (s : State) (worker : Worker) : Handed account base s worker worker :=
  fun _ hmem => hmem.imp_left .inr

theorem Handed.later (h : Handed account base s worker next) (hl : Later s t) :
    Handed account base t worker next :=
  fun token hmem => (h token hmem).imp_left (fun hs => hs.later hl)

theorem Succeeds.later (h : Succeeds account base s worker next) (hl : Later s t) :
    Succeeds account base t worker next :=
  ⟨h.streamed, h.ok.later hl, fun hs => (h.handed hs).later hl⟩

theorem StreamOk.later (h : StreamOk account base s stream) (hl : Later s t)
    (hworker : ∀ worker, s.workers[stream.worker]? = some worker → worker.streamed = true →
      ∃ next, t.workers[stream.worker]? = some next ∧ next.streamed = true ∧ Handed account base t worker next) :
    StreamOk account base t stream := by
  obtain ⟨worker, hk, hs, hcov⟩ := h.covered
  obtain ⟨next, hnext, hs', hhanded⟩ := hworker worker hk hs
  refine ⟨hl.floor ▸ h.low, next, hnext, hs', fun token hle => ?_⟩
  rcases hcov token hle with (hdone | hdropped) | hqueued
  · exact .inl (.inl (hdone.later hl))
  · exact hhanded token (.inl hdropped)
  · exact hhanded token (.inr hqueued)

theorem StreamOk.keep (h : StreamOk account base s stream) (hl : Later s t) (hw : t.workers = s.workers) :
    StreamOk account base t stream :=
  h.later hl (fun worker hk hs => ⟨worker, hw ▸ hk, hs, Handed.refl t worker⟩)

theorem CursorsOk.later (h : CursorsOk account base s) (hl : Later s t) (hm : t.memory = s.memory)
    (hs : t.stored = s.stored) : CursorsOk account base t := by
  refine ⟨hm ▸ h.memory.later hl, hs ▸ h.stored.later hl, ?_, ?_, ?_⟩
  · rw [hm, hl.floor]
    exact h.unread
  · rw [hs, hl.floor]
    exact h.level
  · rw [hm, hs]
    exact h.written

theorem OpeningOk.later (h : OpeningOk account base s opening) (hl : Later s t)
    (hstored : inFlight opening.lookup = true → t.stored = s.stored)
    (hqueue : ∀ k, HasQueue s k → HasQueue t k) : OpeningOk account base t opening :=
  ⟨h.lookup.later hl hstored, fun k hk => hqueue k (h.queue k hk)⟩

theorem Invariant.delivered_later (h : Invariant account base s) (hl : Later s t) :
    ∀ token ∈ s.delivered, token ∈ account.records ∧ Passed t token :=
  fun token hmem => ⟨(h.delivered token hmem).1, hl.passed (h.delivered token hmem).2⟩

theorem getElem?_set_worker (hk : s.workers[k]? = some worker) (hs : next.streamed = worker.streamed) {j : Nat}
    {other : Worker} (hj : s.workers[j]? = some other) (hstreamed : other.streamed = true) :
    ∃ now, (s.workers.set k next)[j]? = some now ∧ now.streamed = true ∧
      (now = other ∨ (other = worker ∧ now = next)) := by
  by_cases he : k = j
  · subst he
    cases hk.symm.trans hj
    have hself := List.getElem?_set_self (a := next) (List.getElem?_eq_some_iff.mp hk).1
    exact ⟨next, hself, hs.trans hstreamed, .inr ⟨rfl, rfl⟩⟩
  · exact ⟨other, (List.getElem?_set_ne he).trans hj, hstreamed, .inl rfl⟩

theorem Invariant.setWorker {memory stored : Cursors} {events : List (Nat × Nat)}
    (h : Invariant account base s) (hk : s.workers[k]? = some worker)
    (ht : t = { s with memory := memory, stored := stored, events := events, workers := s.workers.set k next })
    (hl : Later s t) (hc : CursorsOk account base t) (hf : s.floor = none → stored = s.stored)
    (hn : Succeeds account base t worker next) : Invariant account base t := by
  subst ht
  refine ⟨hc, ?_, h.single, ?_, ?_, ?_⟩
  · intro opening hmem
    have hopening := h.openings opening hmem
    refine hopening.later hl (fun hflight => hf (hopening.lookup.unfollowed hflight)) ?_
    rintro j ⟨other, hj, hstreamed⟩
    obtain ⟨now, hnow, hstreamed, -⟩ := getElem?_set_worker hk hn.streamed hj hstreamed
    exact ⟨now, hnow, hstreamed⟩
  · intro stream hmem
    refine (h.streams stream hmem).later hl (fun other hother hstreamed => ?_)
    obtain ⟨now, hnow, hnowStreamed, rfl | ⟨rfl, rfl⟩⟩ := getElem?_set_worker hk hn.streamed hother hstreamed
    · exact ⟨now, hnow, hnowStreamed, Handed.refl _ now⟩
    · exact ⟨now, hnow, hnowStreamed, hn.handed hstreamed⟩
  · intro other hmem
    rcases List.mem_or_eq_of_mem_set hmem with hold | rfl
    · exact (h.workers other hold).later hl
    · exact hn.ok
  · exact h.delivered_later hl

theorem Invariant.setWorker_self (h : Invariant account base s) (hk : s.workers[k]? = some worker)
    (hn : Succeeds account base s worker next) : Invariant account base (s.setWorker k next) := by
  have hl : Later s (s.setWorker k next) := later_of_eq rfl rfl rfl rfl
  exact h.setWorker hk rfl hl (h.cursors.later hl rfl rfl) (fun _ => rfl) (hn.later hl)

theorem Invariant.setOpening (h : Invariant account base s) (hi : s.openings[i]? = some opening)
    (lookup : Lookup) (hlookup : LookupOk account base s lookup)
    (hflight : inFlight lookup = true → inFlight opening.lookup = true) :
    Invariant account base (s.setOpening i opening lookup) := by
  have hl : Later s (s.setOpening i opening lookup) := later_of_eq rfl rfl rfl rfl
  refine ⟨h.cursors.later hl rfl rfl, ?_, ?_, ?_, fun w hmem => (h.workers w hmem).later hl, ?_⟩
  · intro other hmem
    have hold : OpeningOk account base s other := by
      rcases List.mem_or_eq_of_mem_set hmem with hold | rfl
      · exact h.openings other hold
      · exact ⟨hlookup, (h.openings opening (List.mem_of_getElem? hi)).queue⟩
    exact hold.later hl (fun _ => rfl) (fun _ hk => hk)
  · have hcount := countP_set_add (p := fun o : Opening => inFlight o.lookup)
      (b := { opening with lookup := lookup }) hi
    have hsingle := h.single
    simp only [State.setOpening]
    grind
  · exact fun stream hmem => (h.streams stream hmem).keep hl rfl
  · exact h.delivered_later hl

theorem Invariant.setStreams {streams : List Stream} {delivered : List Nat} (h : Invariant account base s)
    (hstreams : ∀ stream ∈ streams, StreamOk account base s stream)
    (hdelivered : ∀ token ∈ delivered, token ∈ account.records ∧ Passed s token) :
    Invariant account base { s with streams := streams, delivered := delivered } := by
  have hl : Later s { s with streams := streams, delivered := delivered } := later_of_eq rfl rfl rfl rfl
  refine ⟨h.cursors.later hl rfl rfl, ?_, h.single, ?_, fun w hmem => (h.workers w hmem).later hl, ?_⟩
  · intro opening hmem
    exact (h.openings opening hmem).later hl (fun _ => rfl) (fun _ hk => hk)
  · exact fun stream hmem => (hstreams stream hmem).keep hl rfl
  · exact fun token hmem => ⟨(hdelivered token hmem).1, hl.passed (hdelivered token hmem).2⟩

theorem HasQueue.append (h : HasQueue s k) (ht : t.workers = s.workers ++ [next]) : HasQueue t k := by
  obtain ⟨worker, hk, hs⟩ := h
  refine ⟨worker, ?_, hs⟩
  rw [ht, List.getElem?_append_left (List.getElem?_eq_some_iff.mp hk).1, hk]

theorem Invariant.addWorker (h : Invariant account base s) (page : List Nat) (hn : WorkerOk account base s next)
    (hpage : ∀ token ∈ page, token ∈ account.records ∧ Passed s token) :
    Invariant account base { s with workers := s.workers ++ [next], delivered := s.delivered ++ page } := by
  have hl : Later s { s with workers := s.workers ++ [next], delivered := s.delivered ++ page } :=
    later_of_eq rfl rfl rfl rfl
  refine ⟨h.cursors.later hl rfl rfl, ?_, h.single, ?_, ?_, ?_⟩
  · intro opening hmem
    exact (h.openings opening hmem).later hl (fun _ => rfl) (fun k hk => hk.append rfl)
  · intro stream hmem
    refine (h.streams stream hmem).later hl (fun worker hk hs => ⟨worker, ?_, hs, Handed.refl _ worker⟩)
    rw [List.getElem?_append_left (List.getElem?_eq_some_iff.mp hk).1, hk]
  · intro worker hmem
    rcases List.mem_append.mp hmem with hold | hnew
    · exact (h.workers worker hold).later hl
    · rw [List.mem_singleton.mp hnew]
      exact hn.later hl
  · intro token hmem
    rcases List.mem_append.mp hmem with hold | hnew
    · exact h.delivered_later hl token hold
    · exact ⟨(hpage token hnew).1, hl.passed (hpage token hnew).2⟩

end Savitools.Monitor.AccountInvariant
