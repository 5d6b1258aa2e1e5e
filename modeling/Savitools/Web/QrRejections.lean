import Mathlib.Data.List.Induction
import Savitools.Stores.Table
import Savitools.Web.QrHandoff

namespace Savitools.Web.QrRejections

open Strings.CodeUnits Parts.Slots Stores.Table QrHandoff QrCollector

inductive Operation
  | scan (raw : Text)
  | reset

def operate (network : HandoffNetwork) (s : Collector) : Operation → Collector
  | .scan raw => (accept network s raw).2
  | .reset => createHandoffCollector

/-- The collector after some operations. -/
def reach (network : HandoffNetwork) (operations : List Operation) : Collector :=
  operations.foldl (operate network) createHandoffCollector

/-- A scan shows a frame that all checks of `accept` let through. -/
structure Admits (network : HandoffNetwork) (s : Collector) (raw : Text) (frame : QrHandoffFrame) : Prop where
  parsed : parseHandoffFrame raw = .ok frame
  net : frame.net = network
  session : ∀ expected, s.expected = some expected → expected = ⟨frame.id, frame.n, frame.sum⟩
  range : frame.i < frame.n

/-- The checksum of all chunks fails, and they are emptied. -/
def Emptied (s t : Collector) : Prop :=
  ∃ expected, t = ⟨⟨List.replicate expected.n.toNat none, []⟩, some expected⟩ ∧ (s.chunks.received + 1 : Int) = expected.n

/-- What a scan does is clean: it throws nothing, a rejection leaves everything as it was, and a new
frame has its place and is counted. -/
def Clean (network : HandoffNetwork) (s : Collector) (raw : Text) : Prop :=
  match accept network s raw with
  | (.error _, _) => False
  | (.ok (.duplicate _), t) | (.ok (.mismatched _ _ _), t) => t = s
  | (.ok (.invalid code _ _), t) => t = s ∨ (code = .checksumMismatch ∧ Emptied s t)
  | (.ok (.accepted progress), t) =>
      progress.received = s.progress.received + 1 ∧ t.chunks.received = s.chunks.received + 1 ∧
        ∃ frame expected, parseHandoffFrame raw = .ok frame ∧ t.expected = some expected ∧
          0 ≤ frame.i ∧ frame.i < expected.n
  | (.ok (.complete _ _), _) => True

/-- The chunks are as many as the session has frames, and not all have come. -/
structure Sized (s : Collector) : Prop where
  properties : s.chunks.properties = []
  idle : s.expected = none → s.chunks.slots = []
  length : ∀ expected, s.expected = some expected → (s.chunks.slots.length : Int) = expected.n
  limit : ∀ expected, s.expected = some expected → expected.n < arrayLimit
  missing : ∀ expected, s.expected = some expected → (s.chunks.received : Int) < expected.n

theorem Sized.start : Sized createHandoffCollector := ⟨rfl, fun _ => rfl, nofun, nofun, nofun⟩

theorem filled_replicate (k : Nat) : filled (List.replicate k (none : Option Text)) = 0 :=
  List.countP_eq_zero.mpr (fun slot hslot => by rw [List.eq_of_mem_replicate hslot]; nofun)

/-- The slots that a frame is stored in. -/
def opened (s : Collector) (n : Int) : List (Option Text) :=
  if s.expected.isSome then s.chunks.slots else List.replicate n.toNat none

theorem Sized.opened {s : Collector} (hs : Sized s) {frame : QrHandoffFrame}
    (hsession : ∀ expected, s.expected = some expected → expected = ⟨frame.id, frame.n, frame.sum⟩) (hn : 1 ≤ frame.n)
    (hlimit : frame.n < arrayLimit) :
    (if s.expected.isSome then .ok s.chunks else newChunks frame.n) = .ok ⟨opened s frame.n, []⟩ ∧
      ((opened s frame.n).length : Int) = frame.n ∧ filled (opened s frame.n) = s.chunks.received ∧
      (filled (opened s frame.n) : Int) < frame.n ∧ s.expected.getD ⟨frame.id, frame.n, frame.sum⟩ = ⟨frame.id, frame.n, frame.sum⟩ := by
  cases hexpected : s.expected with
  | none =>
      have hidle := hs.idle hexpected
      have hreceived : s.chunks.received = 0 := by
        rw [Chunks.received, hidle]
        rfl
      rw [QrRejections.opened, hexpected, hreceived]
      simp only [Option.isSome_none, Bool.false_eq_true, if_false, newChunks, if_pos hlimit, filled_replicate,
        List.length_replicate, Option.getD_none, true_and, and_true]
      omega
  | some expected =>
      have hlength := hs.length expected hexpected
      have hmissing := hs.missing expected hexpected
      have hchunks : s.chunks = ⟨s.chunks.slots, []⟩ := by
        rw [← hs.properties]
      rw [hsession expected hexpected] at hlength hmissing ⊢
      rw [QrRejections.opened, hexpected]
      exact ⟨congrArg Except.ok hchunks, hlength, rfl, hmissing, rfl⟩

section Stored

variable {network : HandoffNetwork} {s : Collector} {raw : Text} {frame : QrHandoffFrame} (hs : Sized s)
  (hadmits : Admits network s raw frame)

include hs hadmits

end Stored

end Savitools.Web.QrRejections
