import Mathlib.Order.MinMax
import Savitools.Monitor.Types
import Savitools.Transitions.Runs

namespace Savitools.Monitor.AccountStream

open Transitions.Runs Monitor.Types

structure Watch where
  id : Nat
  eventTypes : List AccountSource

/-- An account as one source sees it: its watches, and the paging tokens of its
records in the order of Horizon. When a record comes into being is left open. -/
structure Account where
  source : AccountSource
  watches : List Watch
  records : List Nat
  ordered : records.Pairwise (· < ·)

abbrev Cursors := Nat → Option Nat

/-- The task that a queue of events or a polling loop is at: the record and the
watches it is still to be persisted for, or whose cursor is being moved to it. -/
inductive Progress
  | idle
  | ingesting (token : Nat) (ids : List Nat)
  | updating (token : Nat) (ids : List Nat)
  | updated (token : Nat) (ids : List Nat)
  | reporting
  | stopped
deriving DecidableEq

/-- A chain of queued events (`streamed`), or the loop over a polled page.
`rejected` says that the promise at the end of the chain so far has rejected;
`dropped` is history: the records whose insertion has failed or whose task was
skipped. -/
structure Worker where
  streamed : Bool
  pending : List Nat := []
  progress : Progress := .idle
  rejected : Bool := false
  dropped : List Nat := []
deriving DecidableEq

structure Stream where
  worker : Nat
  position : Nat
  isOpen : Bool := true
deriving DecidableEq

/-- The awaits of `ensureAccountCursor`, up to the stream or page behind it. -/
inductive Lookup
  | searching
  | updating (cursor : Nat) (ids : List Nat)
  | updated (cursor : Nat) (ids : List Nat)
  | ready (cursor : Nat)
  | ended
deriving DecidableEq

/-- A stream to be opened for a worker, or else a page to be polled. -/
structure Opening where
  worker : Option Nat
  lookup : Lookup
deriving DecidableEq

/-- `events` are the rows of `watch_events`. The tokens `delivered` and the lowest
cursor `floor` that the account has been followed from are history. -/
structure State where
  memory : Cursors
  stored : Cursors
  events : List (Nat × Nat) := []
  openings : List Opening := []
  streams : List Stream := []
  workers : List Worker := []
  delivered : List Nat := []
  floor : Option Nat := none

/-- Streams may be opened and closed, pages polled and the process restarted at
any time; the rest serves the awaits of the openings and of the workers. -/
inductive Act
  | openGroup
  | openStream (worker : Nat)
  | poll
  | latest (opening : Nat) (cursor : Option Nat)
  | firstCursor (opening : Nat) (outcome : Outcome)
  | resumeOpening (opening : Nat)
  | connect (opening : Nat) (page : Nat)
  | giveUp (opening : Nat)
  | deliver (stream : Nat)
  | close (stream : Nat)
  | begin (worker : Nat)
  | persist (worker : Nat) (outcome : Outcome)
  | moveCursor (worker : Nat) (outcome : Outcome)
  | resumeWorker (worker : Nat)
  | report (worker : Nat) (ok : Bool)
  | restart
deriving DecidableEq

def pageLimit : Nat := 200

def isAfterCursor (current : Option Nat) (token : Nat) : Bool :=
  match current with
  | none => true
  | some cursor => cursor < token

def shouldAdvanceCursor (current : Option Nat) (next : Nat) : Bool :=
  match current with
  | none => true
  | some cursor => cursor < next

def setCursors (cursors : Cursors) (ids : List Nat) (cursor : Nat) : Cursors :=
  fun id => if id ∈ ids then some cursor else cursors id

variable (account : Account)

def subscribed (watch : Watch) : Bool := watch.eventTypes.contains account.source

def ingestIds (s : State) (token : Nat) : List Nat :=
  (account.watches.filter (fun watch =>
    subscribed account watch && isAfterCursor (s.memory watch.id) token)).map Watch.id

def cursorIds (s : State) (cursor : Nat) : List Nat :=
  (account.watches.filter (fun watch => shouldAdvanceCursor (s.memory watch.id) cursor)).map Watch.id

def lowestCursor (cursors : Cursors) : Option Nat :=
  (account.watches.filterMap (fun watch => cursors watch.id)).min?

def State.setOpening (s : State) (i : Nat) (opening : Opening) (lookup : Lookup) : State :=
  { s with openings := s.openings.set i { opening with lookup := lookup } }

def State.setWorker (s : State) (k : Nat) (worker : Worker) : State :=
  { s with workers := s.workers.set k worker }

/-- The synchronous part of `ensureAccountCursor`. -/
def ensureAccountCursor (s : State) (worker : Option Nat) : State :=
  { s with openings := s.openings ++ [⟨worker,
    match lowestCursor account s.memory with
    | some cursor => .ready cursor
    | none => .searching⟩] }

def nextRecord (position : Nat) : Option Nat := account.records.find? (fun token => position < token)

def pageAfter (cursor page : Nat) : List Nat :=
  (account.records.filter (fun token => cursor < token)).take (min page pageLimit)

def connect (s : State) (cursor page : Nat) : Option Nat → State
  | some worker => { s with streams := s.streams ++ [⟨worker, cursor, true⟩] }
  | none => { s with
      workers := s.workers ++ [{ streamed := false, pending := pageAfter account cursor page }]
      delivered := s.delivered ++ pageAfter account cursor page }

def stepOpening (s : State) (i : Nat) (opening : Opening) : Lookup → Act → Option State
  | .searching, .latest _ (some cursor) =>
      let ids := cursorIds account s cursor
      some (s.setOpening i opening (if ids = [] then .ready cursor else .updating cursor ids))
  | .updating cursor ids, .firstCursor _ .answered =>
      some ({ s with stored := setCursors s.stored ids cursor }.setOpening i opening (.updated cursor ids))
  | .updating cursor ids, .firstCursor _ .lost =>
      some ({ s with stored := setCursors s.stored ids cursor }.setOpening i opening .ended)
  | .updated cursor ids, .resumeOpening _ =>
      some ({ s with
        memory := setCursors s.memory ids cursor
        floor := s.floor.or (some cursor) }.setOpening i opening (.ready cursor))
  | .ready cursor, .connect _ page =>
      some ((connect account s cursor page opening.worker).setOpening i opening .ended)
  | .ended, .giveUp _ => none
  | _, .giveUp _ => some (s.setOpening i opening .ended)
  | _, _ => none

/-- A failed task: the chain goes on to its `catch`, the polling loop ends. -/
def fail (worker : Worker) : Worker :=
  if worker.streamed then { worker with progress := .reporting }
  else { worker with pending := [], progress := .stopped }

def afterIngest (s : State) (worker : Worker) (token : Nat) : Worker :=
  let ids := cursorIds account s token
  { worker with progress := if ids = [] then .idle else .updating token ids }

def stepWorker (s : State) (k : Nat) (worker : Worker) : Progress → Act → Option State
  | .idle, .begin _ =>
      match worker.pending with
      | [] => none
      | token :: pending =>
          if worker.rejected then
            -- the task of a rejected chain is skipped, only its `catch` runs
            some (s.setWorker k { worker with
              pending := pending
              progress := .reporting
              rejected := false
              dropped := token :: worker.dropped })
          else
            some (s.setWorker k { worker with
              pending := pending
              progress := .ingesting token (ingestIds account s token) })
  | .ingesting token [], .persist _ _ => some (s.setWorker k (afterIngest account s worker token))
  | .ingesting token (id :: ids), .persist _ .answered =>
      some ({ s with events := s.events.insert (id, token) }.setWorker k
        { worker with progress := .ingesting token ids })
  | .ingesting token (id :: _), .persist _ .lost =>
      some ({ s with events := s.events.insert (id, token) }.setWorker k
        (fail { worker with dropped := token :: worker.dropped }))
  | .ingesting token (_ :: _), .persist _ .rejected =>
      some (s.setWorker k (fail { worker with dropped := token :: worker.dropped }))
  | .updating token ids, .moveCursor _ .answered =>
      some ({ s with stored := setCursors s.stored ids token }.setWorker k
        { worker with progress := .updated token ids })
  | .updating token ids, .moveCursor _ .lost =>
      some ({ s with stored := setCursors s.stored ids token }.setWorker k (fail worker))
  | .updating _ _, .moveCursor _ .rejected => some (s.setWorker k (fail worker))
  | .updated token ids, .resumeWorker _ =>
      some ({ s with memory := setCursors s.memory ids token }.setWorker k { worker with progress := .idle })
  | .reporting, .report _ ok =>
      some (s.setWorker k { worker with progress := .idle, rejected := !ok })
  | _, _ => none

/-- `onmessage`: the record goes to the end of the queue of the group. -/
def deliver (s : State) (i : Nat) (stream : Stream) : Option State :=
  match s.workers[stream.worker]?, nextRecord account stream.position with
  | some worker, some token =>
      if stream.isOpen then
        some ({ s with
          streams := s.streams.set i { stream with position := token }
          delivered := s.delivered ++ [token] }.setWorker stream.worker
            { worker with pending := worker.pending ++ [token] })
      else none
  | _, _ => none

def restart (s : State) : State :=
  { s with
    memory := s.stored
    openings := []
    streams := []
    workers := []
    floor := s.floor.or (lowestCursor account s.stored) }

def step : Step State Act
  | s, .openGroup =>
      if account.watches = [] then none
      else some (ensureAccountCursor account { s with workers := s.workers ++ [{ streamed := true }] }
        (some s.workers.length))
  | s, .openStream k =>
      match s.workers[k]? with
      | some worker =>
          if worker.streamed && account.watches ≠ [] then some (ensureAccountCursor account s (some k)) else none
      | none => none
  | s, .poll => if account.watches = [] then none else some (ensureAccountCursor account s none)
  | s, act@(.latest i _) | s, act@(.firstCursor i _) | s, act@(.resumeOpening i) | s, act@(.connect i _)
  | s, act@(.giveUp i) =>
      s.openings[i]?.bind (fun opening => stepOpening account s i opening opening.lookup act)
  | s, .deliver i => s.streams[i]?.bind (deliver account s i)
  | s, .close i => s.streams[i]?.map (fun stream =>
      { s with streams := s.streams.set i { stream with isOpen := false } })
  | s, act@(.begin k) | s, act@(.persist k _) | s, act@(.moveCursor k _) | s, act@(.resumeWorker k)
  | s, act@(.report k _) =>
      s.workers[k]?.bind (fun worker => stepWorker account s k worker worker.progress act)
  | s, .restart => some (restart account s)

def initial (cursors : Cursors) : State where
  memory := cursors
  stored := cursors
  floor := lowestCursor account cursors

end Savitools.Monitor.AccountStream

namespace Savitools.Monitor.AccountCursors

open AccountStream

variable (account : Account) (base : Cursors)

/-- The account has been followed from below the token. -/
def Passed (s : State) (token : Nat) : Prop := ∃ cursor, s.floor = some cursor ∧ cursor < token

/-- The record is one that the watch is to be told of: it came after the cursor
that the watch started with. -/
def Owed (s : State) (watch : Watch) (token : Nat) : Prop :=
  watch ∈ account.watches ∧ subscribed account watch ∧ token ∈ account.records ∧ Passed s token ∧
    isAfterCursor (base watch.id) token

def Done (s : State) (token : Nat) : Prop :=
  ∀ watch, Owed account base s watch token → (watch.id, token) ∈ s.events

def DoneTo (s : State) (cursor : Nat) : Prop := ∀ token ≤ cursor, Done account base s token

def Kept (s : State) (watch : Watch) (cursor : Nat) : Prop :=
  ∀ token ≤ cursor, Owed account base s watch token → (watch.id, token) ∈ s.events

/-- Cursors that lose nothing. A watch without one is told of everything from the
floor on, so some cursor has to be still there. -/
structure Sound (s : State) (cursors : Cursors) : Prop where
  kept : ∀ watch ∈ account.watches, ∀ cursor, cursors watch.id = some cursor → Kept account base s watch cursor
  above : ∀ watch ∈ account.watches, ∀ cursor, cursors watch.id = some cursor →
    ∀ low, s.floor = some low → low ≤ cursor
  present : ∀ low, s.floor = some low → ∃ watch ∈ account.watches, cursors watch.id ≠ none
  anchored : ∀ low, s.floor = some low → (∃ watch ∈ account.watches, cursors watch.id = none) →
    ∃ watch ∈ account.watches, cursors watch.id = some low

structure Later (s t : State) : Prop where
  floor : t.floor = s.floor
  events : s.events ⊆ t.events
  memory : ∀ id, t.memory id = none → s.memory id = none
  stored : ∀ id, t.stored id = none → s.stored id = none

variable {account : Account} {base : Cursors} {s t : State} {cursors : Cursors} {watch : Watch} {token cursor : Nat}

theorem Passed.followed (h : Passed s token) : s.floor ≠ none := by
  obtain ⟨low, hlow, -⟩ := h
  rw [hlow]
  exact Option.some_ne_none low

theorem later_of_eq (hf : t.floor = s.floor) (he : t.events = s.events) (hm : t.memory = s.memory)
    (hs : t.stored = s.stored) : Later s t :=
  ⟨hf, he ▸ List.Subset.refl _, fun _ h => hm ▸ h, fun _ h => hs ▸ h⟩

theorem Later.passed (h : Later s t) (hp : Passed s token) : Passed t token := by
  obtain ⟨low, hlow, hlt⟩ := hp
  exact ⟨low, h.floor.trans hlow, hlt⟩

theorem Later.owed (h : Later s t) (ho : Owed account base t watch token) : Owed account base s watch token := by
  obtain ⟨hw, hsub, hrec, ⟨low, hlow, hlt⟩, hbase⟩ := ho
  exact ⟨hw, hsub, hrec, ⟨low, h.floor ▸ hlow, hlt⟩, hbase⟩

theorem Done.later (hd : Done account base s token) (h : Later s t) : Done account base t token :=
  fun w ho => h.events (hd w (h.owed ho))

theorem DoneTo.later (hd : DoneTo account base s cursor) (h : Later s t) : DoneTo account base t cursor :=
  fun token hle => (hd token hle).later h

theorem Sound.later (hs : Sound account base s cursors) (h : Later s t) : Sound account base t cursors where
  kept w hw c hc token hle ho := h.events (hs.kept w hw c hc token hle (h.owed ho))
  above w hw c hc low hlow := hs.above w hw c hc low (h.floor ▸ hlow)
  present low hlow := hs.present low (h.floor ▸ hlow)
  anchored low hlow := hs.anchored low (h.floor ▸ hlow)

theorem DoneTo.kept (h : DoneTo account base s cursor) (watch : Watch) : Kept account base s watch cursor :=
  fun token hle ho => h token hle watch ho

theorem done_of_not_mem (h : token ∉ account.records) : Done account base s token :=
  fun _ ho => absurd ho.2.2.1 h

theorem doneTo_floor (h : s.floor = some cursor) : DoneTo account base s cursor := by
  intro token hle w ho
  obtain ⟨-, -, -, ⟨low, hlow, hlt⟩, -⟩ := ho
  cases h.symm.trans hlow
  exact absurd hlt hle.not_gt

theorem sound_of_unfollowed (h : s.floor = none) (cursors : Cursors) : Sound account base s cursors where
  kept w hw c hc token hle ho := by
    obtain ⟨-, -, -, ⟨low, hlow, -⟩, -⟩ := ho
    cases h.symm.trans hlow
  above w hw c hc low hlow := by cases h.symm.trans hlow
  present low hlow := by cases h.symm.trans hlow
  anchored low hlow := by cases h.symm.trans hlow

theorem sound_of_level (hne : account.watches ≠ []) (h : s.floor = some cursor)
    (hc : ∀ watch ∈ account.watches, cursors watch.id = some cursor) : Sound account base s cursors := by
  obtain ⟨first, hfirst⟩ := List.exists_mem_of_ne_nil _ hne
  refine ⟨?_, ?_, ?_, ?_⟩
  · intro w hw c hcur
    cases (hc w hw).symm.trans hcur
    exact (doneTo_floor h).kept w
  · intro w hw c hcur low hlow
    cases (hc w hw).symm.trans hcur
    cases h.symm.trans hlow
    exact le_rfl
  · intro low _
    exact ⟨first, hfirst, by rw [hc first hfirst]; exact Option.some_ne_none cursor⟩
  · intro low hlow _
    cases h.symm.trans hlow
    exact ⟨first, hfirst, hc first hfirst⟩

@[simp] theorem setCursors_of_mem {ids : List Nat} {id : Nat} (h : id ∈ ids) :
    setCursors cursors ids cursor id = some cursor := if_pos h

@[simp] theorem setCursors_of_not_mem {ids : List Nat} {id : Nat} (h : id ∉ ids) :
    setCursors cursors ids cursor id = cursors id := if_neg h

theorem setCursors_eq_none {ids : List Nat} {id : Nat} (h : setCursors cursors ids cursor id = none) :
    id ∉ ids ∧ cursors id = none := by
  by_cases hmem : id ∈ ids
  · rw [setCursors_of_mem hmem] at h
    cases h
  · rw [setCursors_of_not_mem hmem] at h
    exact ⟨hmem, h⟩

/-- Moving cursors to a token that all is done up to loses nothing, if the watches
without a cursor are moved as well. -/
theorem Sound.setCursors {ids : List Nat} (hs : Sound account base s cursors)
    (hp : Passed s cursor) (hd : DoneTo account base s cursor)
    (hids : ∀ watch ∈ account.watches, cursors watch.id = none → watch.id ∈ ids) :
    Sound account base s (setCursors cursors ids cursor) := by
  refine ⟨?_, ?_, ?_, ?_⟩
  · intro w hw c hc
    by_cases hmem : w.id ∈ ids
    · rw [setCursors_of_mem hmem] at hc
      cases hc
      exact hd.kept w
    · rw [setCursors_of_not_mem hmem] at hc
      exact hs.kept w hw c hc
  · intro w hw c hc low hlow
    by_cases hmem : w.id ∈ ids
    · rw [setCursors_of_mem hmem] at hc
      cases hc
      obtain ⟨_, hfloor, hlt⟩ := hp
      cases hfloor.symm.trans hlow
      exact hlt.le
    · rw [setCursors_of_not_mem hmem] at hc
      exact hs.above w hw c hc low hlow
  · intro low hlow
    obtain ⟨w, hw, hne⟩ := hs.present low hlow
    exact ⟨w, hw, fun hnone => hne (setCursors_eq_none hnone).2⟩
  · rintro low hlow ⟨w, hw, hnone⟩
    obtain ⟨hmem, hold⟩ := setCursors_eq_none hnone
    exact absurd (hids w hw hold) hmem

theorem lowestCursor_eq_none (h : lowestCursor account cursors = none) (hw : watch ∈ account.watches) :
    cursors watch.id = none := by
  have hnil := List.min?_eq_none_iff.mp h
  exact List.filterMap_eq_nil_iff.mp hnil watch hw

theorem lowestCursor_eq_some (h : lowestCursor account cursors = some cursor) :
    (∃ watch ∈ account.watches, cursors watch.id = some cursor) ∧
      ∀ watch ∈ account.watches, ∀ other, cursors watch.id = some other → cursor ≤ other := by
  obtain ⟨hmem, hle⟩ := List.min?_eq_some_iff.mp h
  refine ⟨List.mem_filterMap.mp hmem, ?_⟩
  intro w hw other hc
  exact hle other (List.mem_filterMap.mpr ⟨w, hw, hc⟩)

theorem lowestCursor_of_level {level : Option Nat} (hne : account.watches ≠ [])
    (h : ∀ watch ∈ account.watches, cursors watch.id = level) : lowestCursor account cursors = level := by
  obtain ⟨first, hfirst⟩ := List.exists_mem_of_ne_nil _ hne
  cases hl : lowestCursor account cursors with
  | none => exact (lowestCursor_eq_none hl hfirst).symm.trans (h first hfirst)
  | some cursor =>
      obtain ⟨⟨watch, hw, hc⟩, -⟩ := lowestCursor_eq_some hl
      exact hc.symm.trans (h watch hw)

theorem sound_initial (account : Account) (cursors : Cursors) :
    Sound account cursors (initial account cursors) cursors := by
  refine ⟨?_, ?_, ?_, ?_⟩
  · intro w hw c hc token hle ho
    obtain ⟨-, -, -, -, hafter⟩ := ho
    rw [hc] at hafter
    exact absurd (of_decide_eq_true hafter) hle.not_gt
  · intro w hw c hc low hlow
    exact (lowestCursor_eq_some hlow).2 w hw c hc
  · intro low hlow
    obtain ⟨⟨w, hw, hc⟩, -⟩ := lowestCursor_eq_some hlow
    exact ⟨w, hw, by rw [hc]; exact Option.some_ne_none low⟩
  · exact fun low hlow _ => (lowestCursor_eq_some hlow).1

theorem Sound.lowestCursor (hs : Sound account base s cursors) {low : Nat} (h : s.floor = some low) :
    ∃ cursor, lowestCursor account cursors = some cursor ∧ low ≤ cursor ∧ DoneTo account base s cursor := by
  cases hl : AccountStream.lowestCursor account cursors with
  | none =>
      obtain ⟨w, hw, hne⟩ := hs.present low h
      exact absurd (lowestCursor_eq_none hl hw) hne
  | some cursor =>
      obtain ⟨⟨w, hw, hc⟩, hle⟩ := lowestCursor_eq_some hl
      refine ⟨cursor, rfl, hs.above w hw cursor hc low h, ?_⟩
      intro token htoken v ho
      cases hv : cursors v.id with
      | some own => exact hs.kept v ho.1 own hv token (htoken.trans (hle v ho.1 own hv)) ho
      | none =>
          -- one watch has no cursor yet, so the lowest one is still the floor
          obtain ⟨u, hu, hfloor⟩ := hs.anchored low h ⟨v, ho.1, hv⟩
          exact doneTo_floor h token (htoken.trans (hle u hu low hfloor)) v ho

end Savitools.Monitor.AccountCursors
