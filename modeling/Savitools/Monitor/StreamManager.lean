import Mathlib.Logic.Function.Basic
import Savitools.Monitor.Types
import Savitools.Stores.Keyed
import Savitools.Transitions.Runs

namespace Savitools.Monitor.StreamManager

open Transitions.Runs Stores.Table Stores.Keyed Monitor.Types

/-- `StreamGroup` without the event queues and the back-off counters: a timer may
fire at any time here, so its delay says nothing. -/
structure StreamGroup (Key : Type) where
  key : Key
  mode : StreamMode
  stopped : Bool := false
  closers : AccountSource → Option Nat := fun _ => none
  reconnectTimers : AccountSource → Option Nat := fun _ => none
  pollTimer : Bool := false
  polling : Bool := false

/-- A Horizon `EventSource`; its callbacks know the group and the source. -/
structure Stream where
  id : Nat
  group : Nat
  source : AccountSource
  isOpen : Bool := true
deriving DecidableEq

structure Timer where
  id : Nat
  group : Nat
  source : AccountSource
deriving DecidableEq

/-- The suspended calls, each at one await. A `rejected` is a stream that could
not be opened (or announced) and that its caller, `start` or the reconnect timer,
is about to hand to `reconnect`; the order among them is left open. -/
inductive Call (Key : Type)
  | starting (group : Nat)
  | opening (group : Nat) (source : AccountSource) (timed : Bool)
  | rejected (group : Nat) (source : AccountSource)
  | reconnecting (group : Nat) (source : AccountSource)
  | opened (group : Nat) (source : AccountSource)
  | marking (group : Nat) (source : AccountSource)
  | startingPoll (group : Nat)
  | polling (group : Nat) (first : Bool)
  | promoting (key : Key)
  | startingAll (keys : List Key)
  | stoppingAll (keys : List Key)
deriving DecidableEq

/-- Groups, streams and timers are objects; their identities are drawn from the
one counter `fresh`. The map `groups` keeps the insertion order. -/
structure State (Key : Type) where
  leader : Bool
  registry : List (Key × WatchType)
  heap : Nat → StreamGroup Key
  fresh : Nat := 0
  groups : KeyedRows (Prod.fst : Key × Nat → Key) := ⟨[], List.nodup_nil⟩
  activeSseConnections : Int := 0
  shuttingDown : Bool := false
  streams : List Stream := []
  timers : List Timer := []
  calls : List (Call Key) := []

/-- `resume` lets the call at the position go on; `ok` says whether what it was
waiting for was fulfilled. `onerror` is the callback of a stream, also of a closed one. -/
inductive Act (Key : Type)
  | start (key : Key)
  | stop (key : Key)
  | leadership (isLeader : Bool)
  | shutdown
  | register (registry : List (Key × WatchType))
  | onerror (stream : Nat)
  | fire (timer : Nat)
  | interval (group : Nat)
  | resume (call : Nat) (ok : Bool)

variable {Key : Type} [DecidableEq Key]

def State.setGroup (s : State Key) (g : Nat) (group : StreamGroup Key) : State Key :=
  { s with heap := Function.update s.heap g group }

def State.push (s : State Key) (call : Call Key) : State Key := { s with calls := s.calls ++ [call] }

def State.get (s : State Key) (key : Key) : Option Nat := (s.groups.get? key).map Prod.snd

def State.watch (s : State Key) (key : Key) : Option WatchType :=
  (s.registry.find? (fun entry => entry.1 = key)).map Prod.snd

def closeStream (closer : Option Nat) (streams : List Stream) : List Stream :=
  update (fun stream => closer = some stream.id) (fun stream => { stream with isOpen := false }) streams

def clearTimeout (handle : Option Nat) (timers : List Timer) : List Timer :=
  delete (fun timer => handle = some timer.id) timers

def createGroup (s : State Key) (key : Key) (mode : StreamMode) : State Key :=
  { s.setGroup s.fresh { key := key, mode := mode } with
    fresh := s.fresh + 1
    groups := s.groups.put (key, s.fresh) }

def openAccountStream (s : State Key) (g : Nat) (source : AccountSource) (timed : Bool) : State Key :=
  if (s.watch (s.heap g).key).isNone || (s.heap g).stopped then
    if timed then s.push (.opened g source) else s
  else s.push (.opening g source timed)

/-- The rest of `openAccountStream`, once the cursor is known. -/
def stream (s : State Key) (g : Nat) (source : AccountSource) : State Key :=
  let group := s.heap g
  { s.setGroup g { group with closers := Function.update group.closers source (some s.fresh) } with
    fresh := s.fresh + 1
    streams := s.streams ++ [⟨s.fresh, g, source, true⟩] }

def disconnect (s : State Key) (g : Nat) (source : AccountSource) : State Key :=
  let group := s.heap g
  { s.setGroup g { group with closers := Function.update group.closers source none } with
    streams := closeStream (group.closers source) s.streams }

def reconnect (s : State Key) (g : Nat) (source : AccountSource) : State Key :=
  let group := s.heap g
  if group.stopped || (group.reconnectTimers source).isSome then s
  else (disconnect s g source).push (.reconnecting g source)

/-- The rest of `reconnect`, once the status is written. -/
def setReconnectTimer (s : State Key) (g : Nat) (source : AccountSource) : State Key :=
  let group := s.heap g
  { s.setGroup g { group with
      reconnectTimers := Function.update group.reconnectTimers source (some s.fresh) } with
    fresh := s.fresh + 1
    timers := s.timers ++ [⟨s.fresh, g, source⟩] }

def markStreamingIfReady (s : State Key) (g : Nat) (source : AccountSource) : State Key :=
  let group := s.heap g
  if (group.closers .transaction).isSome && (group.closers .payment).isSome then
    s.push (.marking g source)
  else s

def setPollTimer (s : State Key) (g : Nat) : State Key :=
  if (s.heap g).stopped then s else s.setGroup g { s.heap g with pollTimer := true }

/-- The synchronous part of `poll`; what it does at Horizon is one await here. -/
def poll (s : State Key) (g : Nat) (first : Bool) : State Key :=
  let group := s.heap g
  if group.stopped || group.polling || (s.watch group.key).isNone then
    if first then setPollTimer s g else s
  else (s.setGroup g { group with polling := true }).push (.polling g first)

def endPoll (s : State Key) (g : Nat) (first ok : Bool) : State Key :=
  let ended := s.setGroup g { s.heap g with polling := false }
  if first && ok then setPollTimer ended g else ended

def startPolling (s : State Key) (key : Key) : State Key :=
  (createGroup s key .poll).push (.startingPoll s.fresh)

def startStreaming (s : State Key) (key : Key) : State Key :=
  let created := createGroup s key .sse
  { created with activeSseConnections := created.activeSseConnections + 2 }.push (.starting s.fresh)

variable (maxSseConnections : Nat)

def start (s : State Key) (key : Key) : State Key :=
  if (s.get key).isSome || !s.leader then s
  else
    match s.watch key with
    | none => s
    | some .contract => startPolling s key
    | some .account =>
        if s.activeSseConnections + 2 > maxSseConnections then startPolling s key
        else startStreaming s key

/-- The body of `stop` but for the counter and the promotion. -/
def closeGroup (s : State Key) (key : Key) (g : Nat) : State Key :=
  let group := s.heap g
  { s.setGroup g { group with
      stopped := true
      reconnectTimers := fun _ => none
      pollTimer := false } with
    streams := closeStream (group.closers .payment) (closeStream (group.closers .transaction) s.streams)
    timers := clearTimeout (group.reconnectTimers .payment)
      (clearTimeout (group.reconnectTimers .transaction) s.timers)
    groups := s.groups.delete key }

def pollsAccount (s : State Key) (entry : Key × Nat) : Bool :=
  (s.heap entry.2).mode = .poll && s.watch (s.heap entry.2).key = some .account

/-- The synchronous part of `promotePollingGroup`. Its candidate is a polling group,
so that stopping it neither touches the counter nor promotes another one. -/
def promotePollingGroup (s : State Key) : State Key :=
  if s.shuttingDown || s.activeSseConnections + 2 > maxSseConnections then s
  else
    match s.groups.rows.find? (pollsAccount s) with
    | none => s
    | some (_, g) => (closeGroup s (s.heap g).key g).push (.promoting (s.heap g).key)

def stop (s : State Key) (key : Key) : State Key :=
  match s.get key with
  | none => s
  | some g =>
      let closed := closeGroup s key g
      if (s.heap g).mode = .sse then
        promotePollingGroup maxSseConnections
          { closed with activeSseConnections := closed.activeSseConnections - 2 }
      else closed

def startAll (s : State Key) : State Key :=
  if s.leader then s.push (.startingAll (s.registry.map Prod.fst)) else s

def stopAll (s : State Key) : State Key := s.push (.stoppingAll (s.groups.rows.map Prod.fst))

def resume (s : State Key) (ok : Bool) : Call Key → State Key
  | .starting g =>
      if ok then openAccountStream (openAccountStream s g .transaction false) g .payment false else s
  | .opening g source timed =>
      if ok then
        if timed then (stream s g source).push (.opened g source) else stream s g source
      else s.push (.rejected g source)
  | .rejected g source => reconnect s g source
  | .reconnecting g source => if ok then setReconnectTimer s g source else s
  | .opened g source => markStreamingIfReady s g source
  | .marking g source => if ok then s else s.push (.rejected g source)
  | .startingPoll g => if ok then poll s g true else s
  | .polling g first => endPoll s g first ok
  | .promoting key => start maxSseConnections s key
  | .startingAll (key :: keys) => (start maxSseConnections s key).push (.startingAll keys)
  | .stoppingAll (key :: keys) => (stop maxSseConnections s key).push (.stoppingAll keys)
  | .startingAll [] | .stoppingAll [] => s

/-- The timer fires: it is pending no longer, and its entry is deleted. -/
def expire (s : State Key) (timer : Timer) : State Key :=
  let group := s.heap timer.group
  { s.setGroup timer.group { group with
      reconnectTimers := Function.update group.reconnectTimers timer.source none } with
    timers := delete (fun other => other.id = timer.id) s.timers }

def fire (s : State Key) (timer : Timer) : State Key :=
  openAccountStream (expire s timer) timer.group timer.source true

def step : Step (State Key) (Act Key)
  | s, .start key => some (start maxSseConnections s key)
  | s, .stop key => some (stop maxSseConnections s key)
  | s, .leadership isLeader =>
      let changed := { s with leader := isLeader }
      some (if isLeader then startAll changed else stopAll changed)
  | s, .shutdown => some (stopAll { s with shuttingDown := true })
  | s, .register registry => some { s with registry := registry }
  | s, .onerror id =>
      (s.streams.find? (fun stream => stream.id = id)).map (fun stream => reconnect s stream.group stream.source)
  | s, .fire id => (s.timers.find? (fun timer => timer.id = id)).map (fire s)
  | s, .interval g => if (s.heap g).pollTimer then some (poll s g false) else none
  | s, .resume i ok =>
      s.calls[i]?.map (resume maxSseConnections { s with calls := s.calls.eraseIdx i } ok)

def initial [Inhabited Key] (leader : Bool) (registry : List (Key × WatchType)) : State Key where
  leader := leader
  registry := registry
  heap := fun _ => { key := default, mode := .poll }

end Savitools.Monitor.StreamManager
