import Mathlib.Data.List.Basic

namespace Transitions.Loops

variable {σ α ρ : Type}

/-- One pass through a loop: what it does, and the state it goes on in or the result it ends with. -/
structure Pass (σ α ρ : Type) where
  actions : List α
  outcome : σ ⊕ ρ

/-- What is done, and the result unless it was stopped on the way. -/
structure Trace (α ρ : Type) where
  actions : List α
  result : Option ρ

def Trace.after (actions : List α) (trace : Trace α ρ) : Trace α ρ := ⟨actions ++ trace.actions, trace.result⟩

def Trace.map {τ : Type} (f : ρ → τ) (trace : Trace α ρ) : Trace α τ := ⟨trace.actions, trace.result.map f⟩

/-- The first passes of a loop, up to so many. -/
def iterate (pass : σ → Pass σ α ρ) : Nat → σ → Trace α ρ
  | 0, _ => ⟨[], none⟩
  | fuel + 1, s =>
      match (pass s).outcome with
      | .inl t => (iterate pass fuel t).after (pass s).actions
      | .inr r => ⟨(pass s).actions, some r⟩

variable {pass : σ → Pass σ α ρ}

@[simp] theorem actions_after (actions : List α) (trace : Trace α ρ) : (trace.after actions).actions = actions ++ trace.actions :=
  rfl

@[simp] theorem result_after (actions : List α) (trace : Trace α ρ) : (trace.after actions).result = trace.result := rfl

@[simp] theorem actions_map {τ : Type} (f : ρ → τ) (trace : Trace α ρ) : (trace.map f).actions = trace.actions := rfl

theorem iterate_inl {s t : σ} (h : (pass s).outcome = .inl t) (fuel : Nat) :
    iterate pass (fuel + 1) s = (iterate pass fuel t).after (pass s).actions := by
  rw [iterate, h]

theorem iterate_inr {s : σ} {r : ρ} (h : (pass s).outcome = .inr r) (fuel : Nat) :
    iterate pass (fuel + 1) s = ⟨(pass s).actions, some r⟩ := by
  rw [iterate, h]

/-- Passes whose states are known one after another. -/
theorem iterate_known {state : Nat → σ} {n : Nat} (h : ∀ k < n, (pass (state k)).outcome = .inl (state (k + 1)))
    (fuel : Nat) : iterate pass (n + fuel) (state 0) =
      (iterate pass fuel (state n)).after ((List.range n).flatMap fun k => (pass (state k)).actions) := by
  induction n generalizing state with
  | zero =>
      rw [Nat.zero_add]
      rfl
  | succ n ih =>
      have hrest := @ih (fun k => state (k + 1)) fun k hk => h (k + 1) (Nat.succ_lt_succ hk)
      have hsum : n + 1 + fuel = n + fuel + 1 := Nat.add_right_comm n 1 fuel
      rw [hsum, iterate_inl (h 0 n.succ_pos), hrest, List.range_succ_eq_map, List.flatMap_cons, List.flatMap_map]
      simp only [Trace.after, List.append_assoc]

/-- The loop rule: `P` holds of what a loop does from a state when it holds of doing nothing, of a last pass, and of a
pass before what is done from the next state. -/
theorem iterate_induction {P : σ → List α → Prop} (hstop : ∀ s, P s [])
    (hend : ∀ s r, (pass s).outcome = .inr r → P s (pass s).actions)
    (hnext : ∀ s t rest, (pass s).outcome = .inl t → P t rest → P s ((pass s).actions ++ rest)) (fuel : Nat) (s : σ) :
    P s (iterate pass fuel s).actions := by
  induction fuel generalizing s with
  | zero => exact hstop s
  | succ fuel ih =>
      cases h : (pass s).outcome with
      | inl t =>
          rw [iterate_inl h]
          exact hnext s t _ h (ih t)
      | inr r =>
          rw [iterate_inr h]
          exact hend s r h

/-- A loop ends when something gets smaller with every pass. -/
theorem iterate_ends (left : σ → Nat) (hleft : ∀ s t, (pass s).outcome = .inl t → left t < left s) {fuel : Nat} {s : σ}
    (hfuel : left s < fuel) : ∃ r, (iterate pass fuel s).result = some r := by
  induction fuel generalizing s with
  | zero => exact absurd hfuel (Nat.not_lt_zero _)
  | succ fuel ih =>
      cases h : (pass s).outcome with
      | inl t =>
          rw [iterate_inl h]
          exact ih (Nat.lt_of_lt_of_le (hleft s t h) (Nat.le_of_lt_succ hfuel))
      | inr r => exact ⟨r, by rw [iterate_inr h]⟩

end Transitions.Loops

namespace Transitions.Folds

variable {σ α ε : Type} {f : σ → α → Except ε σ} {s t : σ}

theorem foldlM_cons_ok {a : α} {as : List α} :
    (a :: as).foldlM f s = .ok t ↔ ∃ u, f s a = .ok u ∧ as.foldlM f u = .ok t := by
  rw [List.foldlM_cons]
  cases f s a with
  | error error => exact iff_of_false nofun (fun ⟨_, h, _⟩ => nomatch h)
  | ok u => exact ⟨fun h => ⟨u, rfl, h⟩, fun ⟨_, hu, h⟩ => Except.ok.inj hu ▸ h⟩

theorem foldlM_append_ok {as bs : List α} :
    (as ++ bs).foldlM f s = .ok t ↔ ∃ u, as.foldlM f s = .ok u ∧ bs.foldlM f u = .ok t := by
  induction as generalizing s with
  | nil => exact ⟨fun h => ⟨s, rfl, h⟩, fun ⟨_, hu, h⟩ => Except.ok.inj hu ▸ h⟩
  | cons a as ih =>
      rw [List.cons_append, foldlM_cons_ok]
      constructor
      · rintro ⟨u, hu, hrest⟩
        obtain ⟨v, hv, hbs⟩ := ih.mp hrest
        exact ⟨v, foldlM_cons_ok.mpr ⟨u, hu, hv⟩, hbs⟩
      · rintro ⟨v, hv, hbs⟩
        obtain ⟨u, hu, has⟩ := foldlM_cons_ok.mp hv
        exact ⟨u, hu, ih.mpr ⟨v, has, hbs⟩⟩

/-- What a step keeps of what is done so far holds at the end of everything. -/
theorem foldlM_keeps {P : List α → σ → Prop} {done as : List α}
    (step : ∀ before a rest s t, done ++ as = before ++ a :: rest → P before s → f s a = .ok t → P (before ++ [a]) t)
    (hs : P done s) (h : as.foldlM f s = .ok t) : P (done ++ as) t := by
  induction as generalizing done s with
  | nil =>
      cases h
      rwa [List.append_nil]
  | cons a as ih =>
      obtain ⟨u, hu, hrest⟩ := foldlM_cons_ok.mp h
      have hkept := step done a as s u rfl hs hu
      have hlist : done ++ a :: as = done ++ [a] ++ as := List.append_cons done a as
      rw [hlist] at step ⊢
      exact ih step hkept hrest

/-- When each step can be taken, so can all. -/
theorem foldlM_reaches {P : List α → σ → Prop} {done as : List α}
    (step : ∀ before a rest s, done ++ as = before ++ a :: rest → P before s → ∃ t, f s a = .ok t ∧ P (before ++ [a]) t)
    (hs : P done s) : ∃ t, as.foldlM f s = .ok t ∧ P (done ++ as) t := by
  induction as generalizing done s with
  | nil => exact ⟨s, rfl, by rwa [List.append_nil]⟩
  | cons a as ih =>
      obtain ⟨u, hu, hkept⟩ := step done a as s rfl hs
      have hlist : done ++ a :: as = done ++ [a] ++ as := List.append_cons done a as
      rw [hlist] at step ⊢
      obtain ⟨t, ht, hall⟩ := ih step hkept
      exact ⟨t, foldlM_cons_ok.mpr ⟨u, hu, ht⟩, hall⟩

theorem foldlM_step {as : List α} (h : as.foldlM f s = .ok t) {a : α} (ha : a ∈ as) : ∃ u v, f u a = .ok v := by
  obtain ⟨before, rest, rfl⟩ := List.append_of_mem ha
  obtain ⟨u, -, hrest⟩ := foldlM_append_ok.mp h
  obtain ⟨v, hv, -⟩ := foldlM_cons_ok.mp hrest
  exact ⟨u, v, hv⟩

end Transitions.Folds

namespace Transitions.Scans

variable {σ ρ : Type}

/-- One pass through a loop over a text: the cursor and the state it goes on with, or the result it ends with. A pass
that waits for an answer that never comes is nothing. -/
abbrev Pass (σ ρ : Type) := Nat → σ → Option (Nat × σ ⊕ ρ)

/-- The loop, for so many passes at most. -/
def scan (pass : Pass σ ρ) : Nat → Nat → σ → Option ρ
  | 0, _, _ => none
  | fuel + 1, cursor, s =>
      match pass cursor s with
      | none => none
      | some (.inl (next, t)) => scan pass fuel next t
      | some (.inr r) => some r

/-- Where the cursor is at each pass. -/
def cursors (pass : Pass σ ρ) : Nat → Nat → σ → List Nat
  | 0, _, _ => []
  | fuel + 1, cursor, s =>
      cursor ::
        match pass cursor s with
        | some (.inl (next, t)) => cursors pass fuel next t
        | _ => []

/-- A pass that goes on moves the cursor forward, and not past the end. -/
def Advances (pass : Pass σ ρ) (length : Nat) : Prop :=
  ∀ cursor s next t, pass cursor s = some (.inl (next, t)) → cursor < next ∧ next ≤ length

/-- Each pass keeps the value that the loop comes to, or ends with it. -/
def Computes (pass : Pass σ ρ) (value : Nat → σ → ρ) : Prop :=
  ∀ cursor s, (∃ next t, pass cursor s = some (.inl (next, t)) ∧ value next t = value cursor s) ∨
    pass cursor s = some (.inr (value cursor s))

variable {pass : Pass σ ρ} {length : Nat}

theorem scan_inl {cursor next fuel : Nat} {s t : σ} (h : pass cursor s = some (.inl (next, t))) :
    scan pass (fuel + 1) cursor s = scan pass fuel next t := by
  rw [scan, h]

theorem bounds_of_inl {cursor next next' : Nat} {s t : σ}
    (h : (some (.inl (next', s)) : Option (Nat × σ ⊕ ρ)) = some (.inl (next, t)))
    (hbounds : cursor < next' ∧ next' ≤ length) : cursor < next ∧ next ≤ length := by
  obtain ⟨rfl, -⟩ := Prod.mk.inj (Sum.inl.inj (Option.some.inj h))
  exact hbounds

/-- The loop rule: a loop that advances ends with the value that its passes keep. -/
theorem scan_eq {value : Nat → σ → ρ} (hadvances : Advances pass length) (hcomputes : Computes pass value) {fuel : Nat} :
    ∀ {cursor : Nat} {s : σ}, length ≤ fuel + cursor → scan pass (fuel + 1) cursor s = some (value cursor s) := by
  induction fuel with
  | zero =>
      intro cursor s hfuel
      rcases hcomputes cursor s with ⟨next, t, hpass, -⟩ | hpass
      · have := hadvances cursor s next t hpass
        omega
      · rw [scan, hpass]
  | succ fuel ih =>
      intro cursor s hfuel
      rcases hcomputes cursor s with ⟨next, t, hpass, hvalue⟩ | hpass
      · have hnext := (hadvances cursor s next t hpass).1
        rw [scan_inl hpass, ih (by omega), hvalue]
      · rw [scan, hpass]

/-- What a loop ends with is the value that its passes keep. -/
theorem scan_value {value : Nat → σ → ρ} (hcomputes : Computes pass value) {fuel : Nat} :
    ∀ {cursor : Nat} {s : σ} {r : ρ}, scan pass fuel cursor s = some r → r = value cursor s := by
  induction fuel with
  | zero => exact fun h => nomatch h
  | succ fuel ih =>
      intro cursor s r h
      rcases hcomputes cursor s with ⟨next, t, hpass, hvalue⟩ | hpass
      · rw [scan_inl hpass] at h
        exact (ih h).trans hvalue
      · rw [scan, hpass] at h
        exact (Option.some.inj h).symm

/-- A loop that advances ends with a pass at a cursor that is not before the first one. -/
theorem scan_last (hadvances : Advances pass length) {fuel : Nat} {r : ρ} :
    ∀ {cursor : Nat} {s : σ}, scan pass fuel cursor s = some r →
      ∃ last t, cursor ≤ last ∧ pass last t = some (.inr r) := by
  induction fuel with
  | zero => exact fun h => nomatch h
  | succ fuel ih =>
      intro cursor s h
      rw [scan] at h
      split at h
      next => cases h
      next next t hpass =>
        obtain ⟨last, u, hle, hlast⟩ := ih h
        exact ⟨last, u, Nat.le_trans (Nat.le_of_lt (hadvances cursor s next t hpass).1) hle, hlast⟩
      next r' hpass =>
        obtain rfl := Option.some.inj h
        exact ⟨cursor, s, Nat.le_refl _, hpass⟩

theorem cursors_le {fuel : Nat} (hadvances : Advances pass length) :
    ∀ {cursor : Nat} {s : σ}, ∀ c ∈ cursors pass fuel cursor s, cursor ≤ c := by
  induction fuel with
  | zero => exact fun c hc => absurd hc List.not_mem_nil
  | succ fuel ih =>
      intro cursor s c hc
      rw [cursors] at hc
      rcases List.mem_cons.mp hc with rfl | hc
      · exact Nat.le_refl _
      · split at hc
        next next t hpass => exact Nat.le_trans (Nat.le_of_lt (hadvances cursor s next t hpass).1) (ih c hc)
        next => exact absurd hc List.not_mem_nil

/-- The cursor of a loop that advances is never again where it was, or before. -/
theorem cursors_increasing {fuel : Nat} (hadvances : Advances pass length) :
    ∀ {cursor : Nat} {s : σ}, (cursors pass fuel cursor s).Pairwise (· < ·) := by
  induction fuel with
  | zero => exact List.Pairwise.nil
  | succ fuel ih =>
      intro cursor s
      rw [cursors]
      refine List.pairwise_cons.mpr ⟨fun c hc => ?_, ?_⟩
      · split at hc
        next next t hpass =>
          exact Nat.lt_of_lt_of_le (hadvances cursor s next t hpass).1 (cursors_le hadvances c hc)
        next => exact absurd hc List.not_mem_nil
      · split
        next => exact ih
        next => exact List.Pairwise.nil

/-- A loop that never goes back: a pass consumes something or is the last one. -/
structure Forward (pass : Pass σ ρ) (length : Nat) : Prop where
  advances : Advances pass length
  increasing : ∀ fuel cursor s, (cursors pass fuel cursor s).Pairwise (· < ·)

theorem Advances.forward (hadvances : Advances pass length) : Forward pass length :=
  ⟨hadvances, fun _ _ _ => cursors_increasing hadvances⟩

end Transitions.Scans
