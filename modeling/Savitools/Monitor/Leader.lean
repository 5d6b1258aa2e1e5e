import Mathlib.Logic.Function.Basic
import Savitools.Monitor.Types
import Savitools.Transitions.Runs

namespace Savitools.Monitor.LockStore

structure Lease (Token : Type) where
  token : Token
  expiresAt : Nat
deriving DecidableEq

/-- The map `leases` of `createInMemoryMonitorLockStore`. -/
abbrev Leases (Token : Type) := String → Option (Lease Token)

variable {Token : Type}

def live (now : Nat) (key : String) (leases : Leases Token) : Option (Lease Token) × Leases Token :=
  match leases key with
  | none => (none, leases)
  | some lease =>
      if lease.expiresAt ≤ now then (none, Function.update leases key none) else (some lease, leases)

def acquire (now : Nat) (key : String) (token : Token) (ttlMs : Nat) (leases : Leases Token) :
    Bool × Leases Token :=
  match live now key leases with
  | (some _, leases) => (false, leases)
  | (none, leases) => (true, Function.update leases key (some ⟨token, now + ttlMs⟩))

def holder (now : Nat) (key : String) (leases : Leases Token) : Option Token :=
  (live now key leases).1.map Lease.token

def swept (now : Nat) (key : String) (leases : Leases Token) : Leases Token :=
  (live now key leases).2

theorem holder_eq_some {now : Nat} {key : String} {leases : Leases Token} {t : Token} :
    holder now key leases = some t ↔
      ∃ lease, leases key = some lease ∧ now < lease.expiresAt ∧ lease.token = t := by
  cases h : leases key with
  | none => simp [holder, live, h]
  | some lease =>
      by_cases he : lease.expiresAt ≤ now
      · simp [holder, live, h, he, Nat.not_lt.mpr he]
      · simp [holder, live, h, he, Nat.lt_of_not_le he]

/-- A lease can only run out: who holds it later held it before. -/
theorem holder_of_later {now later : Nat} (hle : now ≤ later) {key : String} {leases : Leases Token}
    {t : Token} (h : holder later key leases = some t) : holder now key leases = some t := by
  obtain ⟨lease, hl, he, ht⟩ := holder_eq_some.mp h
  exact holder_eq_some.mpr ⟨lease, hl, Nat.lt_of_le_of_lt hle he, ht⟩

theorem swept_record {now : Nat} {key : String} {leases : Leases Token} {lease : Lease Token}
    (h : swept now key leases key = some lease) : leases key = some lease := by
  cases hk : leases key with
  | none => simp [swept, live, hk] at h
  | some l =>
      by_cases he : l.expiresAt ≤ now
      · simp [swept, live, hk, he] at h
      · simpa [swept, live, hk, he] using h

theorem holder_swept {now later : Nat} {key : String} {leases : Leases Token} {t : Token}
    (h : holder later key (swept now key leases) = some t) : holder later key leases = some t := by
  obtain ⟨lease, hl, he, ht⟩ := holder_eq_some.mp h
  exact holder_eq_some.mpr ⟨lease, swept_record hl, he, ht⟩

theorem acquire_eq (now : Nat) (key : String) (token : Token) (ttlMs : Nat) (leases : Leases Token) :
    acquire now key token ttlMs leases =
      if holder now key leases = none then
        (true, Function.update leases key (some ⟨token, now + ttlMs⟩))
      else (false, swept now key leases) := by
  cases hk : leases key with
  | none => simp [acquire, holder, live, hk]
  | some l => by_cases he : l.expiresAt ≤ now <;> simp [acquire, holder, swept, live, hk, he]

variable [DecidableEq Token]

def renew (now : Nat) (key : String) (token : Token) (ttlMs : Nat) (leases : Leases Token) :
    Bool × Leases Token :=
  match live now key leases with
  | (none, leases) => (false, leases)
  | (some lease, leases) =>
      if lease.token = token then
        (true, Function.update leases key (some { lease with expiresAt := now + ttlMs }))
      else (false, leases)

def release (now : Nat) (key : String) (token : Token) (leases : Leases Token) : Leases Token :=
  match live now key leases with
  | (none, leases) => leases
  | (some lease, leases) => if lease.token = token then Function.update leases key none else leases

theorem renew_eq (now : Nat) (key : String) (token : Token) (ttlMs : Nat) (leases : Leases Token) :
    renew now key token ttlMs leases =
      if holder now key leases = some token then
        (true, Function.update leases key (some ⟨token, now + ttlMs⟩))
      else (false, swept now key leases) := by
  cases hk : leases key with
  | none => simp [renew, holder, swept, live, hk]
  | some l =>
      by_cases he : l.expiresAt ≤ now
      · simp [renew, holder, swept, live, hk, he]
      · by_cases ht : l.token = token
        · simp [renew, holder, live, hk, he, ht]
        · simp [renew, holder, swept, live, hk, he, ht]

theorem release_eq (now : Nat) (key : String) (token : Token) (leases : Leases Token) :
    release now key token leases =
      if holder now key leases = some token then Function.update leases key none
      else swept now key leases := by
  cases hk : leases key with
  | none => simp [release, holder, swept, live, hk]
  | some l =>
      by_cases he : l.expiresAt ≤ now
      · simp [release, holder, swept, live, hk, he]
      · by_cases ht : l.token = token
        · simp [release, holder, live, hk, he, ht]
        · simp [release, holder, swept, live, hk, he, ht]

theorem holder_release (now : Nat) (key : String) (token : Token) (leases : Leases Token) :
    holder now key (release now key token leases) ≠ some token := by
  rw [release_eq]
  split
  next => simp [holder, live]
  next h => exact fun hs => h (holder_swept hs)

theorem release_record {now : Nat} {key : String} {token : Token} {leases : Leases Token}
    {lease : Lease Token} (h : release now key token leases key = some lease) :
    leases key = some lease := by
  rw [release_eq] at h
  split at h
  next => simp at h
  next => exact swept_record h

end Savitools.Monitor.LockStore

namespace Savitools.Monitor.Leader

open Transitions.Runs LockStore Monitor.Types

structure Runtime where
  producerEnabled : Bool
  leaderLockKey : String
  leaderLeaseMs : Nat

inductive Call
  | acquire
  | renew
deriving DecidableEq

inductive Reply
  | held (held : Bool)
  | thrown
deriving DecidableEq

/-- Where the `tick` of an instance is suspended: waiting for the store, or
with the promise settled and the continuation still to run. -/
inductive Tick
  | idle
  | calling (call : Call)
  | replied (call : Call) (reply : Reply)
deriving DecidableEq

inductive Destroy
  | no
  | releasing
  | released
  | done
deriving DecidableEq

structure Instance where
  leader : Bool := false
  stopping : Bool := false
  tick : Tick := .idle
  destroy : Destroy := .no
deriving DecidableEq

/-- The flag `ticking` is set before the first await and cleared in `finally`. -/
def Instance.ticking (inst : Instance) : Bool := inst.tick ≠ .idle

def Instance.isLeader (inst : Instance) : Bool := inst.leader

def setLeadership (next : Bool) (inst : Instance) : Instance :=
  if next = inst.leader then inst else { inst with leader := next }

def tick (inst : Instance) : Instance :=
  if inst.ticking || inst.stopping then inst else { inst with tick := .calling .acquire }

/-- The continuation of `tick`: a refused acquire goes on to `renew`, every
other reply decides the leadership. Nothing here looks at `stopping` again. -/
def resumeTick (inst : Instance) : Option Instance :=
  match inst.tick with
  | .replied _ (.held true) => some { setLeadership true inst with tick := .idle }
  | .replied .acquire (.held false) => some { inst with tick := .calling .renew }
  | .replied .renew (.held false) => some { setLeadership false inst with tick := .idle }
  | .replied _ .thrown => some { setLeadership false inst with tick := .idle }
  | _ => none

/-- The synchronous part of `onModuleDestroy`; a non-leader has nothing to
release and is done at once. The in-memory store has no `close`. -/
def onModuleDestroy (inst : Instance) : Option Instance :=
  match inst.destroy with
  | .no =>
      let stopped := { inst with stopping := true }
      if inst.leader then some { setLeadership false stopped with destroy := .releasing }
      else some { stopped with destroy := .done }
  | _ => none

variable {Id : Type} [DecidableEq Id]

/-- Instances are named by their `instanceId`, which is also their lease token. -/
structure State (Id : Type) where
  now : Nat := 0
  leases : Leases Id := fun _ => none
  inst : Id → Instance := fun _ => {}

def State.set (s : State Id) (i : Id) (inst : Instance) : State Id :=
  { s with inst := Function.update s.inst i inst }

inductive Act (Id : Type)
  | advance (ms : Nat)
  | tick (i : Id)
  | serve (i : Id) (outcome : Outcome)
  | resumeTick (i : Id)
  | destroy (i : Id)
  | serveRelease (i : Id) (outcome : Outcome)
  | resumeDestroy (i : Id)

def ask (rt : Runtime) (s : State Id) (i : Id) : Call → Bool × Leases Id
  | .acquire => acquire s.now rt.leaderLockKey i rt.leaderLeaseMs s.leases
  | .renew => renew s.now rt.leaderLockKey i rt.leaderLeaseMs s.leases

def serve (rt : Runtime) (s : State Id) (i : Id) (call : Call) : Outcome → State Id
  | .answered =>
      { s with leases := (ask rt s i call).2 }.set i
        { s.inst i with tick := .replied call (.held (ask rt s i call).1) }
  | .rejected => s.set i { s.inst i with tick := .replied call .thrown }
  | .lost =>
      { s with leases := (ask rt s i call).2 }.set i { s.inst i with tick := .replied call .thrown }

/-- `onModuleDestroy` catches an error of the release and carries on. -/
def serveRelease (rt : Runtime) (s : State Id) (i : Id) : Outcome → State Id
  | .rejected => s.set i { s.inst i with destroy := .released }
  | .answered | .lost =>
      { s with leases := release s.now rt.leaderLockKey i s.leases }.set i
        { s.inst i with destroy := .released }

def step (rt : Runtime) : Step (State Id) (Act Id)
  | s, .advance ms => some { s with now := s.now + ms }
  | s, .tick i => if rt.producerEnabled then some (s.set i (tick (s.inst i))) else none
  | s, .serve i outcome =>
      match (s.inst i).tick with
      | .calling call => some (serve rt s i call outcome)
      | _ => none
  | s, .resumeTick i => (resumeTick (s.inst i)).map (s.set i)
  | s, .destroy i => (onModuleDestroy (s.inst i)).map (s.set i)
  | s, .serveRelease i outcome =>
      if (s.inst i).destroy = .releasing then some (serveRelease rt s i outcome) else none
  | s, .resumeDestroy i =>
      if (s.inst i).destroy = .released then some (s.set i { s.inst i with destroy := .done })
      else none

def testRuntime : Runtime := ⟨true, "savitools:monitor:leader", 1000⟩

def leaseHolder (rt : Runtime) (s : State Id) : Option Id := holder s.now rt.leaderLockKey s.leases

def Instance.granted (inst : Instance) : Bool :=
  match inst.tick with
  | .replied _ (.held held) => held
  | _ => false

@[simp] theorem setLeadership_eq (next : Bool) (inst : Instance) :
    setLeadership next inst = { inst with leader := next } := by
  simp only [setLeadership]
  split
  next h => cases inst; simp_all
  next => rfl

@[simp] theorem set_inst_self (s : State Id) (i : Id) (inst : Instance) :
    (s.set i inst).inst i = inst := by
  simp [State.set]

theorem set_inst_of_ne (s : State Id) {i j : Id} (h : j ≠ i) (inst : Instance) :
    (s.set i inst).inst j = s.inst j := by
  simp [State.set, h]

theorem ask_leases (rt : Runtime) (s : State Id) (i : Id) (call : Call) :
    (ask rt s i call).2 =
      if (ask rt s i call).1 then
        Function.update s.leases rt.leaderLockKey (some ⟨i, s.now + rt.leaderLeaseMs⟩)
      else swept s.now rt.leaderLockKey s.leases := by
  cases call with
  | acquire => simp only [ask, acquire_eq]; split <;> rfl
  | renew => simp only [ask, renew_eq]; split <;> rfl

theorem ask_granted {rt : Runtime} {s : State Id} {i : Id} {call : Call}
    (h : (ask rt s i call).1 = true) :
    (call = .acquire ∧ leaseHolder rt s = none) ∨ (call = .renew ∧ leaseHolder rt s = some i) := by
  cases call with
  | acquire =>
      simp only [ask, acquire_eq] at h
      split at h
      next hn => exact .inl ⟨rfl, hn⟩
      next => cases h
  | renew =>
      simp only [ask, renew_eq] at h
      split at h
      next hs => exact .inr ⟨rfl, hs⟩
      next => cases h

end Savitools.Monitor.Leader
