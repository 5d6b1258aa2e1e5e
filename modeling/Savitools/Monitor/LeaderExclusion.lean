import Savitools.Monitor.Leader

namespace Savitools.Monitor.LeaderExclusion

open Transitions.Runs LockStore Monitor.Types Leader

variable {Id : Type} [DecidableEq Id]

/-- An instance acts as the leader or is about to, on a grant it has yet to process. -/
def believes (inst : Instance) : Bool := inst.leader || inst.granted

def Exclusive (s : State Id) : Prop :=
  ∀ i j, (s.inst i).isLeader = true → (s.inst j).isLeader = true → i = j

/-- No acquire takes over a free or expired lease while another instance still
acts on the lease it once had. -/
def NoStaleLeader (rt : Runtime) (s : State Id) : Act Id → Prop
  | .serve i outcome =>
      outcome ≠ .rejected → (s.inst i).tick = .calling .acquire → leaseHolder rt s = none →
        ∀ j, j ≠ i → believes (s.inst j) = false
  | _ => True

structure Excl (rt : Runtime) (s : State Id) : Prop where
  unique : ∀ i j, believes (s.inst i) = true → believes (s.inst j) = true → i = j
  owner : ∀ i, believes (s.inst i) = true →
    ∀ lease, s.leases rt.leaderLockKey = some lease → lease.token = i

structure Quiet (rt : Runtime) (s t : State Id) : Prop where
  belief : ∀ i, believes (t.inst i) = true → believes (s.inst i) = true
  record : ∀ lease, t.leases rt.leaderLockKey = some lease → s.leases rt.leaderLockKey = some lease

omit [DecidableEq Id] in
theorem Quiet.excl {rt : Runtime} {s t : State Id} (h : Quiet rt s t) (hs : Excl rt s) :
    Excl rt t where
  unique i j hi hj := hs.unique i j (h.belief i hi) (h.belief j hj)
  owner i hi lease hl := hs.owner i (h.belief i hi) lease (h.record lease hl)

theorem quiet_set (rt : Runtime) (s : State Id) (i : Id) (inst : Instance)
    (h : believes inst = true → believes (s.inst i) = true) : Quiet rt s (s.set i inst) where
  belief j hj := by
    by_cases hji : j = i
    · subst hji; exact h (by simpa using hj)
    · rwa [set_inst_of_ne s hji] at hj
  record _ hl := hl

theorem believes_tick (inst : Instance) : believes (tick inst) = true → believes inst = true := by
  simp only [tick]
  split
  next => exact id
  next => intro h; simp [believes, Instance.granted] at h; simp [believes, h]

theorem believes_resumeTick {inst next : Instance} (h : resumeTick inst = some next)
    (hb : believes next = true) : believes inst = true := by
  cases ht : inst.tick with
  | idle | calling => simp [resumeTick, ht] at h
  | replied call reply =>
      cases reply with
      | thrown =>
          simp only [resumeTick, ht, setLeadership_eq, Option.some.injEq] at h
          subst h
          simp [believes, Instance.granted] at hb
      | held held =>
          cases held with
          | true => simp [believes, Instance.granted, ht]
          | false =>
              cases call with
              | acquire =>
                  simp only [resumeTick, ht, Option.some.injEq] at h
                  subst h
                  simpa [believes, Instance.granted, ht] using hb
              | renew =>
                  simp only [resumeTick, ht, setLeadership_eq, Option.some.injEq] at h
                  subst h
                  simp [believes, Instance.granted] at hb

theorem believes_onModuleDestroy {inst next : Instance} (h : onModuleDestroy inst = some next)
    (hb : believes next = true) : believes inst = true := by
  unfold onModuleDestroy at h
  split at h
  next =>
    dsimp only at h
    split at h
    next hl => simp [believes, hl]
    next =>
      simp only [Option.some.injEq] at h
      subst h
      simpa [believes, Instance.granted] using hb
  next => cases h

theorem quiet_or_served {rt : Runtime} {s t : State Id} {a : Act Id} (h : step rt s a = some t) :
    Quiet rt s t ∨ ∃ i call outcome, a = .serve i outcome ∧ outcome ≠ .rejected ∧
      (s.inst i).tick = .calling call ∧ t = serve rt s i call outcome := by
  cases a with
  | advance ms => cases h; exact .inl ⟨fun _ => id, fun _ => id⟩
  | tick i =>
      simp only [step, Option.ite_none_right_eq_some, Option.some.injEq] at h
      obtain ⟨-, rfl⟩ := h
      exact .inl (quiet_set rt s i _ (believes_tick _))
  | serve i outcome =>
      simp only [step] at h
      split at h
      next call ht =>
        cases h
        cases outcome with
        | rejected =>
            refine .inl (quiet_set rt s i _ ?_)
            intro hb
            simpa [believes, Instance.granted, ht] using hb
        | answered => exact .inr ⟨i, call, .answered, rfl, by simp, ht, rfl⟩
        | lost => exact .inr ⟨i, call, .lost, rfl, by simp, ht, rfl⟩
      next => cases h
  | resumeTick i =>
      obtain ⟨next, hn, rfl⟩ := Option.map_eq_some_iff.mp h
      exact .inl (quiet_set rt s i _ (believes_resumeTick hn))
  | destroy i =>
      obtain ⟨next, hn, rfl⟩ := Option.map_eq_some_iff.mp h
      exact .inl (quiet_set rt s i _ (believes_onModuleDestroy hn))
  | serveRelease i outcome =>
      simp only [step, Option.ite_none_right_eq_some, Option.some.injEq] at h
      obtain ⟨-, rfl⟩ := h
      have hq := quiet_set rt s i { s.inst i with destroy := .released } (by simp [believes, Instance.granted])
      cases outcome with
      | rejected => exact .inl hq
      | answered | lost => exact .inl ⟨hq.belief, fun _ hl => release_record hl⟩
  | resumeDestroy i =>
      simp only [step, Option.ite_none_right_eq_some, Option.some.injEq] at h
      obtain ⟨-, rfl⟩ := h
      exact .inl (quiet_set rt s i _ (by simp [believes, Instance.granted]))

theorem serve_leases (rt : Runtime) (s : State Id) (i : Id) (call : Call) {outcome : Outcome}
    (ho : outcome ≠ .rejected) : (serve rt s i call outcome).leases = (ask rt s i call).2 := by
  cases outcome <;> first | rfl | exact absurd rfl ho

theorem serve_inst_of_ne (rt : Runtime) (s : State Id) {i j : Id} (h : j ≠ i) (call : Call)
    (outcome : Outcome) : (serve rt s i call outcome).inst j = s.inst j := by
  cases outcome <;> simp [serve, State.set, h]

theorem served_excl {rt : Runtime} {s : State Id} {i : Id} {call : Call} {outcome : Outcome}
    (hs : Excl rt s) (hg : NoStaleLeader rt s (.serve i outcome)) (ho : outcome ≠ .rejected)
    (ht : (s.inst i).tick = .calling call) : Excl rt (serve rt s i call outcome) := by
  have hleases := serve_leases rt s i call ho
  by_cases hgrant : (ask rt s i call).1 = true
  · -- a granted call leaves its caller as the only believer
    have halone : ∀ j, believes ((serve rt s i call outcome).inst j) = true → j = i := by
      intro j hj
      by_contra hji
      rw [serve_inst_of_ne rt s hji] at hj
      rcases ask_granted hgrant with ⟨rfl, hnone⟩ | ⟨rfl, hsome⟩
      · rw [hg ho ht hnone j hji] at hj
        cases hj
      · obtain ⟨lease, hl, -, htok⟩ := holder_eq_some.mp hsome
        exact hji ((hs.owner j hj lease hl).symm.trans htok)
    refine ⟨fun j k hj hk => (halone j hj).trans (halone k hk).symm, ?_⟩
    intro j hj lease hl
    rw [hleases, ask_leases, if_pos hgrant, Function.update_self] at hl
    cases hl
    exact (halone j hj).symm
  · refine Quiet.excl ⟨?_, ?_⟩ hs
    · intro j hj
      by_cases hji : j = i
      · subst hji
        cases outcome with
        | rejected => exact absurd rfl ho
        | answered | lost => simpa [serve, believes, Instance.granted, hgrant, ht] using hj
      · rwa [serve_inst_of_ne rt s hji] at hj
    · intro lease hl
      rw [hleases, ask_leases, if_neg hgrant] at hl
      exact swept_record hl

theorem excl_preserved (rt : Runtime) :
    Preserves (step rt : Step (State Id) (Act Id)) (NoStaleLeader rt) (Excl rt) := by
  intro s a t hs hg h
  rcases quiet_or_served h with hq | ⟨i, call, outcome, rfl, ho, ht, rfl⟩
  · exact hq.excl hs
  · exact served_excl hs hg ho ht

omit [DecidableEq Id] in
theorem excl_initial (rt : Runtime) : Excl rt ({} : State Id) where
  unique i j hi _ := by simp [believes, Instance.granted] at hi
  owner i hi := by simp [believes, Instance.granted] at hi

/-- As long as no lease is taken over from an instance that still acts on it,
at most one instance answers `isLeader()` with true, whatever the interleaving. -/
theorem exclusive_run (rt : Runtime) (acts : List (Act Id)) (s : State Id)
    (hg : Guarded (step rt) (NoStaleLeader rt) {} acts) (hr : run (step rt) {} acts = some s) :
    Exclusive s := by
  intro i j hi hj
  have hs := (excl_preserved rt).run (excl_initial rt) hg hr
  apply hs.unique i j
  · simp only [Instance.isLeader] at hi; simp [believes, hi]
  · simp only [Instance.isLeader] at hj; simp [believes, hj]

instance (rt : Runtime) (s : State (Fin 2)) (a : Act (Fin 2)) : Decidable (NoStaleLeader rt s a) :=
  match a with
  | .serve i outcome => inferInstanceAs (Decidable (outcome ≠ .rejected →
      (s.inst i).tick = .calling .acquire → leaseHolder rt s = none →
        ∀ j, j ≠ i → believes (s.inst j) = false))
  | .advance _ | .tick _ | .resumeTick _ | .destroy _ | .serveRelease _ _ | .resumeDestroy _ =>
      isTrue trivial

/-- The lease moves on after a clean shutdown of its first owner. -/
def handover : List (Act (Fin 2)) :=
  [.tick 0, .serve 0 .answered, .resumeTick 0, .destroy 0, .serveRelease 0 .answered,
    .tick 1, .serve 1 .answered, .resumeTick 1]

theorem exclusive_run_handover :
    ∃ s, run (step testRuntime) {} handover = some s ∧ (s.inst 1).isLeader = true ∧ Exclusive s := by
  obtain ⟨s, hr, hp⟩ := exists_of_run_any (step testRuntime) {} handover
    (fun s => (s.inst 1).isLeader) (by decide)
  exact ⟨s, hr, hp, exclusive_run testRuntime handover s (by decide) hr⟩

/-- The first leader does not tick while its lease runs out and the second
instance acquires it: nothing lowers the first flag. -/
def takeover : List (Act (Fin 2)) :=
  [.tick 0, .serve 0 .answered, .resumeTick 0, .advance 1500,
    .tick 1, .serve 1 .answered, .resumeTick 1]

theorem not_exclusive :
    ¬ ∀ (acts : List (Act (Fin 2))) (s : State (Fin 2)),
      run (step testRuntime) {} acts = some s → Exclusive s := by
  intro h
  obtain ⟨s, hr, hp⟩ := exists_of_run_any (step testRuntime) {} takeover
    (fun s => (s.inst 0).isLeader && (s.inst 1).isLeader) (by decide)
  simp only [Bool.and_eq_true] at hp
  exact absurd (h takeover s hr 0 1 hp.1 hp.2) (by decide)

end Savitools.Monitor.LeaderExclusion

namespace Savitools.Monitor.LeaderShutdown

open Transitions.Runs LockStore Monitor.Types Leader

variable {Id : Type} [DecidableEq Id]

def CleanlyDown (rt : Runtime) (s : State Id) : Prop :=
  ∀ i, (s.inst i).destroy = .done → (s.inst i).isLeader = false ∧ leaseHolder rt s ≠ some i

def refused (rt : Runtime) (s : State Id) (i : Id) : Bool :=
  match (s.inst i).tick with
  | .calling call => !(ask rt s i call).1
  | _ => true

/-- The shutdown finds no grant still to be processed and the flag up whenever
the lease is the instance's own; afterwards the store refuses what the tick in
flight still asks for (or its grant is lost, with the release still to come),
and the release does not fail while the instance owns the lease. -/
def QuietShutdown (rt : Runtime) (s : State Id) : Act Id → Prop
  | .destroy i =>
      (s.inst i).granted = false ∧ (leaseHolder rt s = some i → (s.inst i).leader = true)
  | .serve i outcome =>
      (s.inst i).stopping = true → outcome = .rejected ∨ refused rt s i = true ∨
        outcome = .lost ∧ (s.inst i).destroy = .releasing
  | .serveRelease i outcome => outcome = .rejected → leaseHolder rt s ≠ some i
  | _ => True

/-- The local part: a stopping instance has its flag down and no grant to come. -/
structure Lowered (inst : Instance) : Prop where
  started : inst.destroy ≠ .no → inst.stopping = true
  leader : inst.stopping = true → inst.leader = false
  granted : inst.stopping = true → inst.granted = false

structure Down (rt : Runtime) (s : State Id) (i : Id) : Prop where
  lowered : Lowered (s.inst i)
  released : (s.inst i).stopping = true → (s.inst i).destroy ≠ .releasing → leaseHolder rt s ≠ some i

theorem lowered_tick {inst : Instance} (h : Lowered inst) : Lowered (tick inst) := by
  simp only [tick]
  split
  next => exact h
  next => exact ⟨h.started, h.leader, fun _ => rfl⟩

theorem tick_shutdown (inst : Instance) :
    (tick inst).stopping = inst.stopping ∧ (tick inst).destroy = inst.destroy := by
  simp only [tick]
  split <;> exact ⟨rfl, rfl⟩

theorem resumeTick_shutdown {inst next : Instance} (h : resumeTick inst = some next) :
    next.stopping = inst.stopping ∧ next.destroy = inst.destroy := by
  simp only [resumeTick] at h
  split at h <;> cases h <;> exact ⟨by simp, by simp⟩

theorem lowered_resumeTick {inst next : Instance} (h : resumeTick inst = some next)
    (hl : Lowered inst) : Lowered next := by
  obtain ⟨hs, hd⟩ := resumeTick_shutdown h
  refine ⟨fun hn => hs ▸ hl.started (hd ▸ hn), ?_, ?_⟩
  · intro hstop
    rw [hs] at hstop
    simp only [resumeTick] at h
    split at h
    next ht =>
      -- a grant is what a stopping instance does not have
      have hg := hl.granted hstop
      simp [Instance.granted, ht] at hg
    next => cases h; exact hl.leader hstop
    next => cases h; simp
    next => cases h; simp
    next => cases h
  · intro _
    simp only [resumeTick] at h
    split at h <;> cases h <;> simp [Instance.granted]

theorem Down.set_of_ne {rt : Runtime} {s : State Id} {i j : Id} (h : Down rt s j) (hji : j ≠ i)
    (inst : Instance) : Down rt (s.set i inst) j := by
  refine ⟨?_, ?_⟩
  · rw [set_inst_of_ne s hji]; exact h.lowered
  · rw [set_inst_of_ne s hji]; exact h.released

theorem down_set {rt : Runtime} {s : State Id} {i : Id} {inst : Instance} (h : ∀ j, Down rt s j)
    (hl : Lowered inst) (hs : inst.stopping = (s.inst i).stopping)
    (hd : inst.destroy = (s.inst i).destroy) : ∀ j, Down rt (s.set i inst) j := by
  intro j
  by_cases hji : j = i
  · subst hji
    refine ⟨by simpa using hl, ?_⟩
    simp only [set_inst_self, hs, hd]
    exact (h j).released
  · exact (h j).set_of_ne hji inst

theorem holder_ask {rt : Runtime} {s : State Id} {i j : Id} {call : Call}
    (h : holder s.now rt.leaderLockKey (ask rt s i call).2 = some j) :
    (j = i ∧ (ask rt s i call).1 = true) ∨ leaseHolder rt s = some j := by
  rw [ask_leases] at h
  split at h
  next hg =>
    obtain ⟨lease, hl, -, ht⟩ := holder_eq_some.mp h
    rw [Function.update_self, Option.some.injEq] at hl
    exact .inl ⟨by rw [← ht, ← hl], hg⟩
  next => exact .inr (holder_swept h)

theorem down_serve {rt : Runtime} {s : State Id} {i : Id} {call : Call} {outcome : Outcome}
    (h : ∀ j, Down rt s j) (hg : QuietShutdown rt s (.serve i outcome))
    (ht : (s.inst i).tick = .calling call) : ∀ j, Down rt (serve rt s i call outcome) j := by
  have hi := (h i).lowered
  cases outcome with
  | rejected => exact down_set h ⟨hi.started, hi.leader, fun _ => rfl⟩ rfl rfl
  | answered | lost =>
      intro j
      have hrefused : (s.inst i).stopping = true → (s.inst i).destroy ≠ .releasing →
          (ask rt s i call).1 = false :=
        fun hstop hrel => by simpa [refused, ht, hrel] using hg hstop
      by_cases hji : j = i
      · subst hji
        refine ⟨?_, ?_⟩
        · simp only [serve, set_inst_self]
          refine ⟨hi.started, hi.leader, ?_⟩
          intro hstop
          -- only the answer that arrives can be a grant, and it is refused
          first | rfl | simpa [Instance.granted, refused, ht] using hg hstop
        · simp only [serve, set_inst_self]
          intro hstop hrel hh
          rcases holder_ask hh with ⟨-, hgrant⟩ | hold
          · rw [hrefused hstop hrel] at hgrant; cases hgrant
          · exact (h j).released hstop hrel hold
      · refine ⟨by simpa [serve, set_inst_of_ne _ hji] using (h j).lowered, ?_⟩
        simp only [serve, set_inst_of_ne _ hji]
        intro hstop hrel hh
        rcases holder_ask hh with ⟨hj, -⟩ | hold
        · exact hji hj
        · exact (h j).released hstop hrel hold

theorem down_destroy {rt : Runtime} {s : State Id} {i : Id} {next : Instance}
    (h : ∀ j, Down rt s j) (hg : QuietShutdown rt s (.destroy i))
    (hn : onModuleDestroy (s.inst i) = some next) : ∀ j, Down rt (s.set i next) j := by
  obtain ⟨hgrant, hheld⟩ := hg
  intro j
  by_cases hji : j = i
  · subst hji
    unfold onModuleDestroy at hn
    split at hn
    next =>
      dsimp only at hn
      split at hn
      next hlead =>
        -- a leader lowers its flag and still has to release
        simp only [setLeadership_eq, Option.some.injEq] at hn
        subst hn
        refine ⟨?_, by simp⟩
        rw [set_inst_self]
        exact ⟨fun _ => rfl, fun _ => rfl, fun _ => hgrant⟩
      next hlead =>
        -- without the flag the lease is not its own: there is nothing to release
        simp only [Option.some.injEq] at hn
        subst hn
        refine ⟨?_, ?_⟩
        · rw [set_inst_self]
          exact ⟨fun _ => rfl, fun _ => by simpa using hlead, fun _ => hgrant⟩
        · exact fun _ _ hh => hlead (hheld hh)
    next => cases hn
  · exact (h j).set_of_ne hji next

theorem down_serveRelease {rt : Runtime} {s : State Id} {i : Id} {outcome : Outcome}
    (h : ∀ j, Down rt s j) (hg : QuietShutdown rt s (.serveRelease i outcome))
    (hd : (s.inst i).destroy = .releasing) : ∀ j, Down rt (serveRelease rt s i outcome) j := by
  intro j
  have hi := (h i).lowered
  have hlowered : Lowered { s.inst i with destroy := .released } :=
    ⟨fun _ => hi.started (by simp [hd]), hi.leader, hi.granted⟩
  cases outcome with
  | rejected =>
      by_cases hji : j = i
      · subst hji
        exact ⟨by simpa [serveRelease] using hlowered, fun _ _ => hg rfl⟩
      · exact (h j).set_of_ne hji _
  | answered | lost =>
      by_cases hji : j = i
      · subst hji
        exact ⟨by simpa [serveRelease] using hlowered,
          fun _ _ => holder_release s.now rt.leaderLockKey j s.leases⟩
      · refine ⟨by simpa [serveRelease, set_inst_of_ne _ hji] using (h j).lowered, ?_⟩
        simp only [serveRelease, set_inst_of_ne _ hji]
        intro hstop hrel hh
        obtain ⟨lease, hl, he, ht⟩ := holder_eq_some.mp hh
        exact (h j).released hstop hrel (holder_eq_some.mpr ⟨lease, release_record hl, he, ht⟩)

theorem down_preserved (rt : Runtime) :
    Preserves (step rt : Step (State Id) (Act Id)) (QuietShutdown rt) (fun s => ∀ i, Down rt s i) := by
  intro s a t h hg hstep
  cases a with
  | advance ms =>
      cases hstep
      exact fun j => ⟨(h j).lowered, fun hstop hrel hh =>
        (h j).released hstop hrel (holder_of_later (Nat.le_add_right _ _) hh)⟩
  | tick i =>
      simp only [step, Option.ite_none_right_eq_some, Option.some.injEq] at hstep
      obtain ⟨-, rfl⟩ := hstep
      exact down_set h (lowered_tick (h i).lowered) (tick_shutdown _).1 (tick_shutdown _).2
  | serve i outcome =>
      simp only [step] at hstep
      split at hstep
      next call ht => cases hstep; exact down_serve h hg ht
      next => cases hstep
  | resumeTick i =>
      obtain ⟨next, hn, rfl⟩ := Option.map_eq_some_iff.mp hstep
      obtain ⟨hs, hd⟩ := resumeTick_shutdown hn
      exact down_set h (lowered_resumeTick hn (h i).lowered) hs hd
  | destroy i =>
      obtain ⟨next, hn, rfl⟩ := Option.map_eq_some_iff.mp hstep
      exact down_destroy h hg hn
  | serveRelease i outcome =>
      simp only [step, Option.ite_none_right_eq_some, Option.some.injEq] at hstep
      obtain ⟨hd, rfl⟩ := hstep
      exact down_serveRelease h hg hd
  | resumeDestroy i =>
      simp only [step, Option.ite_none_right_eq_some, Option.some.injEq] at hstep
      obtain ⟨hd, rfl⟩ := hstep
      have hi := (h i).lowered
      intro j
      by_cases hji : j = i
      · subst hji
        refine ⟨?_, ?_⟩
        · rw [set_inst_self]
          exact ⟨fun _ => hi.started (by simp [hd]), hi.leader, hi.granted⟩
        · rw [set_inst_self]
          exact fun hstop _ => (h j).released hstop (by simp [hd])
      · exact (h j).set_of_ne hji _

omit [DecidableEq Id] in
theorem down_initial (rt : Runtime) (i : Id) : Down rt ({} : State Id) i where
  lowered := ⟨fun h => absurd rfl h, fun _ => rfl, fun _ => rfl⟩
  released h := by cases h

/-- When the store refuses what is left over at the shutdown and gets the release,
a completed `onModuleDestroy` stays clean in every later state. -/
theorem cleanlyDown_run (rt : Runtime) (acts : List (Act Id)) (s : State Id)
    (hg : Guarded (step rt) (QuietShutdown rt) {} acts) (hr : run (step rt) {} acts = some s) :
    CleanlyDown rt s := by
  intro i hd
  have h := (down_preserved rt).run (down_initial rt) hg hr i
  have hstop : (s.inst i).stopping = true := h.lowered.started (by simp [hd])
  exact ⟨h.lowered.leader hstop, h.released hstop (by simp [hd])⟩

instance (rt : Runtime) (s : State Id) (a : Act Id) : Decidable (QuietShutdown rt s a) :=
  match a with
  | .destroy i => inferInstanceAs (Decidable ((s.inst i).granted = false ∧
      (leaseHolder rt s = some i → (s.inst i).leader = true)))
  | .serve i outcome => inferInstanceAs (Decidable ((s.inst i).stopping = true →
      outcome = .rejected ∨ refused rt s i = true ∨
        outcome = .lost ∧ (s.inst i).destroy = .releasing))
  | .serveRelease i outcome =>
      inferInstanceAs (Decidable (outcome = .rejected → leaseHolder rt s ≠ some i))
  | .advance _ | .tick _ | .resumeTick _ | .resumeDestroy _ => isTrue trivial

/-- A renewal that is already refused when the shutdown starts does no harm:
the lease has run out and passed to the second instance. -/
def lateRefusal : List (Act Nat) :=
  [.tick 0, .serve 0 .answered, .resumeTick 0, .advance 1500, .tick 1, .serve 1 .answered,
    .resumeTick 1, .tick 0, .serve 0 .answered, .resumeTick 0, .destroy 0, .serve 0 .answered,
    .serveRelease 0 .answered, .resumeTick 0, .resumeDestroy 0]

theorem cleanlyDown_lateRefusal :
    ∃ s, run (step testRuntime) {} lateRefusal = some s ∧ (s.inst 0).destroy = .done ∧
      CleanlyDown testRuntime s := by
  obtain ⟨s, hr, hp⟩ := exists_of_run_any (step testRuntime) {} lateRefusal
    (fun s => (s.inst 0).destroy = .done) (by decide)
  exact ⟨s, hr, by simpa using hp, cleanlyDown_run testRuntime lateRefusal s (by decide) hr⟩

/-- The store has granted the lease to the first tick, but the tick has not
resumed yet when the instance is told to stop. -/
def lateGrant : List (Act Nat) :=
  [.tick 0, .serve 0 .answered, .destroy 0, .resumeTick 0]

theorem not_cleanlyDown :
    ¬ ∀ (acts : List (Act Nat)) (s : State Nat),
      run (step testRuntime) {} acts = some s → CleanlyDown testRuntime s := by
  intro h
  obtain ⟨s, hr, hp⟩ := exists_of_run_any (step testRuntime) {} lateGrant
    (fun s => (s.inst 0).destroy = .done ∧ (s.inst 0).isLeader = true) (by decide)
  obtain ⟨hd, hl⟩ : (s.inst 0).destroy = .done ∧ (s.inst 0).isLeader = true := by simpa using hp
  rw [(h lateGrant s hr 0 hd).1] at hl
  cases hl

end Savitools.Monitor.LeaderShutdown
