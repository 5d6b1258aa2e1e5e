import Mathlib.Data.List.Count
import Savitools.Transitions.Folds

namespace Net.GuardedChains

open Transitions.Loops

/-- What a client does on its way through a chain of redirects: it puts a URL to a check, the
checks being numbered, or sends a request to it. -/
inductive Action (Url Sent : Type)
  | check (n : Nat) (url : Url)
  | send (url : Url) (sent : Sent)

variable {Url Sent : Type}

def Action.isSend : Action Url Sent → Bool
  | .send _ _ => true
  | .check _ _ => false

def sends (actions : List (Action Url Sent)) : Nat := actions.countP Action.isSend

/-- What is done right before a request is to check its URL, which passes. -/
def Guarded (passes : Nat → Url → Prop) (actions : List (Action Url Sent)) : Prop :=
  ∀ before url sent after, actions = before ++ .send url sent :: after →
    ∃ earlier n, before = earlier ++ [.check n url] ∧ passes n url

@[simp] theorem sends_nil : sends ([] : List (Action Url Sent)) = 0 := rfl

@[simp] theorem sends_check (n : Nat) (url : Url) (actions : List (Action Url Sent)) :
    sends (.check n url :: actions) = sends actions := List.countP_cons_of_neg Bool.false_ne_true

@[simp] theorem sends_send (url : Url) (sent : Sent) (actions : List (Action Url Sent)) :
    sends (.send url sent :: actions) = sends actions + 1 := List.countP_cons_of_pos rfl

@[simp] theorem sends_append (actions others : List (Action Url Sent)) :
    sends (actions ++ others) = sends actions + sends others := List.countP_append

variable {passes : Nat → Url → Prop}

theorem guarded_nil : Guarded passes ([] : List (Action Url Sent)) := by
  intro before url sent after h
  simp at h

theorem guarded_check (n : Nat) (url : Url) : Guarded passes [(.check n url : Action Url Sent)] := by
  intro before other sent after h
  cases before with
  | nil => simp at h
  | cons action before => simp at h

theorem guarded_pair {n : Nat} {url : Url} (sent : Sent) (h : passes n url) : Guarded passes [.check n url, .send url sent] := by
  intro before other sent' after heq
  match before with
  | [] => simp at heq
  | [action] =>
      simp only [List.singleton_append, List.cons.injEq, Action.send.injEq] at heq
      obtain ⟨rfl, ⟨rfl, -⟩, -⟩ := heq
      exact ⟨[], n, rfl, h⟩
  | _ :: _ :: before => simp at heq

theorem Guarded.append {actions others : List (Action Url Sent)} (ha : Guarded passes actions) (ho : Guarded passes others) :
    Guarded passes (actions ++ others) := by
  intro before url sent after h
  obtain ⟨rest, rfl, hrest⟩ | ⟨rest, hactions, hothers⟩ := List.append_eq_append_iff.mp h
  · obtain ⟨earlier, n, rfl, hpasses⟩ := ho rest url sent after hrest
    exact ⟨actions ++ earlier, n, (List.append_assoc _ _ _).symm, hpasses⟩
  · cases rest with
    | nil =>
        obtain ⟨earlier, n, hnil, -⟩ := ho [] url sent after hothers.symm
        exact absurd hnil.symm (by simp)
    | cons action rest =>
        obtain ⟨rfl, hafter⟩ := List.cons.inj hothers
        exact ha before url sent rest hactions

theorem not_guarded_twice (actions : List (Action Url Sent)) (url other : Url) (sent sent' : Sent) :
    ¬Guarded passes (actions ++ [.send url sent, .send other sent']) := fun h => by
  obtain ⟨earlier, n, hlast, -⟩ := h (actions ++ [.send url sent]) other sent' [] (by simp)
  cases List.singleton_inj.mp (List.append_inj_right' hlast rfl)

theorem Guarded.imp {others : Nat → Url → Prop} {actions : List (Action Url Sent)} (hg : Guarded passes actions)
    (h : ∀ n url, passes n url → others n url) : Guarded others actions := by
  intro before url sent after heq
  obtain ⟨earlier, n, hbefore, hpasses⟩ := hg before url sent after heq
  exact ⟨earlier, n, hbefore, h n url hpasses⟩

theorem Guarded.passed {actions : List (Action Url Sent)} (hg : Guarded passes actions) {url : Url} {sent : Sent}
    (h : .send url sent ∈ actions) : ∃ n, passes n url := by
  obtain ⟨before, after, rfl⟩ := List.append_of_mem h
  obtain ⟨-, n, -, hpasses⟩ := hg before url sent after rfl
  exact ⟨n, hpasses⟩

section

variable {σ ρ : Type} {pass : σ → Pass σ (Action Url Sent) ρ}

theorem guarded_iterate (h : ∀ s, Guarded passes (pass s).actions) (fuel : Nat) (s : σ) :
    Guarded passes (iterate pass fuel s).actions :=
  iterate_induction (P := fun _ => Guarded passes) (fun _ => guarded_nil) (fun s _ _ => h s)
    (fun s _ _ _ hrest => (h s).append hrest) fuel s

/-- A loop that is entered after a check is guarded when every pass that it does not end in makes the check for the next. -/
theorem guarded_iterate_after (checked : σ → Nat × Url)
    (hend : ∀ s r, (pass s).outcome = .inr r → passes (checked s).1 (checked s).2 →
      Guarded passes (.check (checked s).1 (checked s).2 :: (pass s).actions))
    (hnext : ∀ s t, (pass s).outcome = .inl t → passes (checked s).1 (checked s).2 →
      passes (checked t).1 (checked t).2 ∧ ∃ earlier, (pass s).actions = earlier ++ [.check (checked t).1 (checked t).2] ∧
        Guarded passes (.check (checked s).1 (checked s).2 :: earlier))
    (fuel : Nat) {s : σ} (hs : passes (checked s).1 (checked s).2) :
    Guarded passes (.check (checked s).1 (checked s).2 :: (iterate pass fuel s).actions) := by
  revert hs
  refine iterate_induction (P := fun s actions => passes (checked s).1 (checked s).2 →
    Guarded passes (.check (checked s).1 (checked s).2 :: actions)) ?_ hend ?_ fuel s
  · exact fun s _ => guarded_check _ _
  · intro s t rest h hrest hs
    obtain ⟨ht, earlier, hactions, hearlier⟩ := hnext s t h hs
    rw [hactions, List.append_assoc]
    exact hearlier.append (hrest ht)

/-- A bound on the requests that are still made, which every pass keeps. -/
theorem sends_iterate (left : σ → Nat) (hend : ∀ s r, (pass s).outcome = .inr r → sends (pass s).actions ≤ left s)
    (hnext : ∀ s t, (pass s).outcome = .inl t → sends (pass s).actions + left t ≤ left s) (fuel : Nat) (s : σ) :
    sends (iterate pass fuel s).actions ≤ left s := by
  refine iterate_induction (P := fun s actions => sends actions ≤ left s) (fun _ => Nat.zero_le _) hend ?_ fuel s
  intro s t rest h hrest
  rw [sends_append]
  exact Nat.le_trans (Nat.add_le_add_left hrest _) (hnext s t h)

end

end Net.GuardedChains
