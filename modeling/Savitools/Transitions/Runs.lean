import Mathlib.Data.Option.Basic

namespace Transitions.Runs

variable {σ ι : Type*}

/-- A partial deterministic step: `none` when the action is not enabled. The
nondeterminism of a concurrent system sits in the choice of the actions. -/
abbrev Step (σ ι : Type*) := σ → ι → Option σ

def run (step : Step σ ι) : σ → List ι → Option σ
  | s, [] => some s
  | s, a :: as => (step s a).bind (fun t => run step t as)

/-- Every action that the run takes is taken in a state that meets the guard. -/
def Guarded (step : Step σ ι) (guard : σ → ι → Prop) : σ → List ι → Prop
  | _, [] => True
  | s, a :: as => ∀ t ∈ step s a, guard s a ∧ Guarded step guard t as

/-- The property holds in every state of the run, the first one included. -/
def Throughout (step : Step σ ι) (p : σ → Prop) : σ → List ι → Prop
  | s, [] => p s
  | s, a :: as => p s ∧ ∀ t ∈ step s a, Throughout step p t as

def Preserves (step : Step σ ι) (guard : σ → ι → Prop) (I : σ → Prop) : Prop :=
  ∀ s a t, I s → guard s a → step s a = some t → I t

def always : σ → ι → Prop := fun _ _ => True

theorem run_cons {step : Step σ ι} {s u : σ} {a : ι} {as : List ι} :
    run step s (a :: as) = some u ↔ ∃ t, step s a = some t ∧ run step t as = some u := by
  simp only [run, Option.bind_eq_some_iff]

theorem run_append {step : Step σ ι} {s u : σ} {as bs : List ι} :
    run step s (as ++ bs) = some u ↔ ∃ t, run step s as = some t ∧ run step t bs = some u := by
  induction as generalizing s with
  | nil => simp [run]
  | cons a as ih =>
      rw [List.cons_append, run_cons]
      simp only [ih, run_cons]
      constructor
      · rintro ⟨v, hv, t, ht, hu⟩
        exact ⟨t, ⟨v, hv, ht⟩, hu⟩
      · rintro ⟨t, ⟨v, hv, ht⟩, hu⟩
        exact ⟨v, hv, t, ht, hu⟩

instance decidableGuarded (step : Step σ ι) (guard : σ → ι → Prop) [∀ s a, Decidable (guard s a)] :
    ∀ s as, Decidable (Guarded step guard s as)
  | _, [] => isTrue trivial
  | s, a :: as =>
      have := fun t => decidableGuarded step guard t as
      inferInstanceAs (Decidable (∀ t ∈ step s a, guard s a ∧ Guarded step guard t as))

theorem exists_of_run_any (step : Step σ ι) (s : σ) (as : List ι) (p : σ → Bool)
    (h : (run step s as).any p = true) : ∃ t, run step s as = some t ∧ p t = true :=
  (Option.any_eq_true _ _).mp h

theorem guarded_always (step : Step σ ι) (s : σ) (as : List ι) : Guarded step always s as := by
  induction as generalizing s with
  | nil => trivial
  | cons a as ih => exact fun t _ => ⟨trivial, ih t⟩

/-- The run rule: what every guarded step preserves, every guarded run preserves. -/
theorem Preserves.run {step : Step σ ι} {guard : σ → ι → Prop} {I : σ → Prop}
    (h : Preserves step guard I) {s u : σ} {as : List ι} (hs : I s)
    (hg : Guarded step guard s as) (hr : run step s as = some u) : I u := by
  induction as generalizing s with
  | nil => exact Option.some.inj hr ▸ hs
  | cons a as ih =>
      obtain ⟨t, ht, hu⟩ := run_cons.mp hr
      obtain ⟨hguard, hrest⟩ := hg t ht
      exact ih (h s a t hs hguard ht) hrest hu

theorem Preserves.run_always {step : Step σ ι} {I : σ → Prop} (h : Preserves step always I)
    {s u : σ} {as : List ι} (hs : I s) (hr : Runs.run step s as = some u) : I u :=
  h.run hs (guarded_always step s as) hr

/-- What follows from the invariant holds in every state of a guarded run. -/
theorem Preserves.throughout {step : Step σ ι} {guard : σ → ι → Prop} {I p : σ → Prop} (h : Preserves step guard I)
    (hp : ∀ s, I s → p s) {s : σ} {as : List ι} (hs : I s) (hg : Guarded step guard s as) : Throughout step p s as := by
  induction as generalizing s with
  | nil => exact hp s hs
  | cons a as ih =>
      refine ⟨hp s hs, fun t ht => ?_⟩
      obtain ⟨hguard, hrest⟩ := hg t ht
      exact ih (h s a t hs hguard ht) hrest

theorem Preserves.guarded {step : Step σ ι} {guard safe : σ → ι → Prop} {I : σ → Prop}
    (h : Preserves step guard I) (hsafe : ∀ s a, I s → guard s a → safe s a) {s : σ} {as : List ι}
    (hs : I s) (hg : Guarded step guard s as) : Guarded step safe s as := by
  induction as generalizing s with
  | nil => trivial
  | cons a as ih =>
      intro t ht
      obtain ⟨hguard, hrest⟩ := hg t ht
      exact ⟨hsafe s a hs hguard, ih (h s a t hs hguard ht) hrest⟩

theorem Throughout.here {step : Step σ ι} {p : σ → Prop} {s : σ} {as : List ι}
    (h : Throughout step p s as) : p s := by
  cases as with
  | nil => exact h
  | cons a as => exact h.1

theorem Throughout.imp {step : Step σ ι} {p q : σ → Prop} {s : σ} {as : List ι} (h : Throughout step p s as)
    (hpq : ∀ s, p s → q s) : Throughout step q s as := by
  induction as generalizing s with
  | nil => exact hpq s h
  | cons a as ih => exact ⟨hpq s h.1, fun t ht => ih (h.2 t ht)⟩

theorem Throughout.last {step : Step σ ι} {p : σ → Prop} {s t : σ} {as : List ι}
    (h : Throughout step p s as) (hr : run step s as = some t) : p t := by
  induction as generalizing s with
  | nil => exact Option.some.inj hr ▸ h
  | cons a as ih =>
      obtain ⟨u, hu, ht⟩ := run_cons.mp hr
      exact ih (h.2 u hu) ht

/-- A guard that decides whether the property holds after a step decides whether
it holds throughout a run. -/
theorem throughout_iff_guarded {step : Step σ ι} {guard : σ → ι → Prop} {p : σ → Prop}
    (h : ∀ s a t, step s a = some t → (p t ↔ guard s a)) {s : σ} (hs : p s) (as : List ι) :
    Throughout step p s as ↔ Guarded step guard s as := by
  induction as generalizing s with
  | nil => exact iff_of_true hs trivial
  | cons a as ih =>
      constructor
      · intro hall t ht
        have hnext := hall.2 t ht
        exact ⟨(h s a t ht).mp hnext.here, (ih hnext.here).mp hnext⟩
      · intro hg
        refine ⟨hs, fun t ht => ?_⟩
        obtain ⟨hguard, hrest⟩ := hg t ht
        exact (ih ((h s a t ht).mpr hguard)).mpr hrest

/-- The same with an invariant of the runs to rely on. -/
theorem throughout_iff_guarded_of_inv {step : Step σ ι} {guard : σ → ι → Prop} {I p : σ → Prop}
    (hI : Preserves step always I)
    (h : ∀ s a t, I s → p s → step s a = some t → (p t ↔ guard s a)) {s : σ} (hi : I s) (hs : p s) (as : List ι) :
    Throughout step p s as ↔ Guarded step guard s as := by
  induction as generalizing s with
  | nil => exact iff_of_true hs trivial
  | cons a as ih =>
      constructor
      · intro hall t ht
        have hnext := hall.2 t ht
        exact ⟨(h s a t hi hs ht).mp hnext.here, (ih (hI s a t hi trivial ht) hnext.here).mp hnext⟩
      · intro hg
        refine ⟨hs, fun t ht => ?_⟩
        obtain ⟨hguard, hrest⟩ := hg t ht
        have hp := (h s a t hi hs ht).mpr hguard
        exact (ih (hI s a t hi trivial ht) hp).mpr hrest

end Transitions.Runs
