import Mathlib.Order.Lattice
import Mathlib.Data.List.Basic

namespace Queues.Order

variable {α : Type*} [LinearOrder α] {done next : α → Prop}

/-- A queue without gaps: whatever lies below a queued item is done, or is queued
before it. -/
def Gapless (done : α → Prop) : List α → Prop
  | [] => True
  | item :: rest => (∀ x < item, done x) ∧ Gapless (fun x => done x ∨ x = item) rest

theorem Gapless.mono {queue : List α} (h : Gapless done queue) (hdone : ∀ x, done x → next x) :
    Gapless next queue := by
  induction queue generalizing done next with
  | nil => trivial
  | cons item rest ih =>
      exact ⟨fun x hx => hdone x (h.1 x hx), ih h.2 (fun x => Or.imp_left (hdone x))⟩

theorem Gapless.rest {item : α} {rest : List α} (h : Gapless done (item :: rest))
    (hdone : ∀ x, done x → next x) (hitem : next item) : Gapless next rest :=
  h.2.mono (fun x hx => hx.elim (hdone x) (fun he => he ▸ hitem))

theorem Gapless.concat {queue : List α} {item : α} (h : Gapless done queue)
    (hitem : ∀ x < item, done x ∨ x ∈ queue) : Gapless done (queue ++ [item]) := by
  induction queue generalizing done with
  | nil => exact ⟨fun x hx => (hitem x hx).resolve_right List.not_mem_nil, trivial⟩
  | cons first rest ih =>
      refine ⟨h.1, ih h.2 (fun x hx => ?_)⟩
      rw [or_assoc, ← List.mem_cons]
      exact hitem x hx

theorem Gapless.take {queue : List α} (h : Gapless done queue) (n : Nat) : Gapless done (queue.take n) := by
  induction queue generalizing done n with
  | nil => rwa [List.take_nil]
  | cons item rest ih =>
      cases n with
      | zero => trivial
      | succ n => exact ⟨h.1, ih h.2 n⟩

theorem gapless_of_sorted {queue : List α} (h : queue.Pairwise (· < ·))
    (hall : ∀ x, done x ∨ x ∈ queue) : Gapless done queue := by
  induction queue generalizing done with
  | nil => trivial
  | cons item rest ih =>
      obtain ⟨hitem, hrest⟩ := List.pairwise_cons.mp h
      constructor
      · intro x hx
        rcases hall x with hdone | hmem
        · exact hdone
        · rcases List.mem_cons.mp hmem with rfl | hmem
          · exact absurd hx (lt_irrefl x)
          · exact absurd hx (hitem x hmem).asymm
      · refine ih hrest (fun x => ?_)
        rw [or_assoc, ← List.mem_cons]
        exact hall x

end Queues.Order
