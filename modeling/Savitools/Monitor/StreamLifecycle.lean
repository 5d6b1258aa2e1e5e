import Savitools.Monitor.StreamGroups

namespace Savitools.Monitor.StreamLifecycle

open Transitions.Runs Stores.Keyed Monitor.Types StreamManager StreamBudget StreamActivity StreamRecovery StreamGroups

variable {Key : Type}

def NoOrphans (s : State Key) : Prop :=
  ∀ stream ∈ s.streams, stream.isOpen = true → (s.heap stream.group).stopped = false ∧
    ((s.heap stream.group).key, stream.group) ∈ s.groups.rows

/-- One open stream for each key and source, over all groups the key has ever had. -/
def NoDoubles [DecidableEq Key] (s : State Key) : Prop :=
  ∀ key source, s.streams.countP (fun stream =>
    stream.isOpen && ((s.heap stream.group).key = key && stream.source = source)) ≤ 1

def entersReconnect (s : State Key) : Act Key → Option (Nat × AccountSource)
  | .onerror id =>
      (s.streams.find? (fun stream => stream.id = id)).map (fun stream => (stream.group, stream.source))
  | .resume i _ =>
      match s.calls[i]? with
      | some (.rejected g source) => some (g, source)
      | _ => none
  | _ => none

def opensStream (s : State Key) : Act Key → Option Nat
  | .resume i true =>
      match s.calls[i]? with
      | some (.opening g _ _) => some g
      | _ => none
  | _ => none

/-- The condition on a step: a call of `reconnect` that passes its own check does
not overlap another recovery of the same source, and no stream is opened for a
group that has been stopped while the cursor was looked up. -/
def Orderly (s : State Key) (a : Act Key) : Prop :=
  (∀ entry ∈ entersReconnect s a, (s.heap entry.1).stopped = false →
    (s.heap entry.1).reconnectTimers entry.2 = none →
      ∀ call ∈ s.calls, underWay entry.1 entry.2 call = false) ∧
  ∀ g ∈ opensStream s a, (s.heap g).stopped = false

variable [DecidableEq Key]

theorem tidy_resume {s : State Key} {maxSseConnections : Nat} (hs : Tidy s) (hb : Budget maxSseConnections s)
    {i : Nat} {ok : Bool} {call : Call Key} (hi : s.calls[i]? = some call)
    (hguard : Orderly s (.resume i ok)) :
    Tidy (resume maxSseConnections { s with calls := s.calls.eraseIdx i } ok call) := by
  have htaken := tidy_taken hs i
  have hreg : ∀ g ∈ streamed call, Registered { s with calls := s.calls.eraseIdx i } g :=
    hs.calls call (List.mem_of_getElem? hi)
  have hroom {g : Nat} {source : AccountSource} (hway : underWay g source call = true) :=
    room_taken hs hi hway
  have hidle : Idle s { s with calls := s.calls.eraseIdx i } := idle_of_same rfl rfl rfl rfl
  have hbudget := hidle.budget hb
  obtain ⟨henters, hopens⟩ := hguard
  cases call with
  | starting g =>
      cases ok with
      | true => exact tidy_openBoth htaken (hreg g rfl) (fun source => hroom (by simp [underWay]))
      | false => exact htaken
  | opening g source timed =>
      have hg := hreg g rfl
      cases ok with
      | true =>
          have hrunning : (s.heap g).stopped = false := hopens g (by simp [opensStream, hi])
          have hopened := tidy_stream htaken hg (@hroom g source (by simp [underWay])) hrunning
          have hheap : (stream { s with calls := s.calls.eraseIdx i } g source).heap =
              Function.update s.heap g _ := rfl
          cases timed with
          | true =>
              refine tidy_push_for hopened rfl ?_ (fun _ _ => rfl)
              exact registered_of_update hheap rfl rfl (Nat.le_succ _) rfl hg
          | false => exact hopened
      | false => exact tidy_push_for htaken rfl hg (fun _ _ => rfl)
  | rejected g source =>
      refine tidy_reconnect htaken (hreg g rfl) ?_
      intro hrunning htimer
      rw [List.countP_eq_zero]
      intro other hother
      have hquiet := henters (g, source) (by simp [entersReconnect, hi]) hrunning htimer
      simp [hquiet other (List.mem_of_mem_eraseIdx hother)]
  | reconnecting g source =>
      cases ok with
      | true => exact tidy_setReconnectTimer htaken (hreg g rfl) (hroom (by simp [underWay]))
      | false => exact htaken
  | opened g source =>
      simp only [resume, markStreamingIfReady]
      split
      next => exact tidy_push_for htaken rfl (hreg g rfl) (fun _ _ => rfl)
      next => exact htaken
  | marking g source =>
      cases ok with
      | true => exact htaken
      | false => exact tidy_push_for htaken rfl (hreg g rfl) (fun _ _ => rfl)
  | startingPoll g =>
      cases ok with
      | true => exact tidy_poll htaken g true
      | false => exact htaken
  | polling g first => exact tidy_endPoll htaken g first ok
  | promoting key => exact tidy_start htaken maxSseConnections key
  | startingAll keys =>
      cases keys with
      | nil => exact htaken
      | cons key keys => exact tidy_push_other (tidy_start htaken maxSseConnections key) rfl
  | stoppingAll keys =>
      cases keys with
      | nil => exact htaken
      | cons key keys => exact tidy_push_other (tidy_stop htaken hbudget key) rfl

theorem tidy_preserved (maxSseConnections : Nat) :
    Preserves (step maxSseConnections : Step (State Key) (Act Key)) Orderly
      (fun s => Tidy s ∧ Budget maxSseConnections s) := by
  intro s a t ⟨hs, hb⟩ hguard h
  refine ⟨?_, budget_preserved maxSseConnections s a t hb trivial h⟩
  cases a with
  | start key => cases h; exact tidy_start hs maxSseConnections key
  | stop key => cases h; exact tidy_stop hs hb key
  | leadership isLeader =>
      cases h
      have hset : Tidy { s with leader := isLeader } := ⟨hs.single, hs.closer, hs.handle, hs.running,
        hs.calls, hs.timers, hs.streams⟩
      cases isLeader with
      | true => exact tidy_push_other hset rfl
      | false => exact tidy_push_other hset rfl
  | shutdown =>
      cases h
      have hset : Tidy { s with shuttingDown := true } := ⟨hs.single, hs.closer, hs.handle, hs.running,
        hs.calls, hs.timers, hs.streams⟩
      exact tidy_push_other hset rfl
  | register registry =>
      cases h
      exact ⟨hs.single, hs.closer, hs.handle, hs.running, hs.calls, hs.timers, hs.streams⟩
  | onerror id =>
      obtain ⟨stream, hfind, rfl⟩ := Option.map_eq_some_iff.mp h
      refine tidy_reconnect hs (hs.streams stream (List.mem_of_find?_eq_some hfind)) ?_
      intro hrunning htimer
      rw [List.countP_eq_zero]
      intro call hcall
      have hquiet := hguard.1 (stream.group, stream.source) (by simp [entersReconnect, hfind])
        hrunning htimer
      simp [hquiet call hcall]
  | fire id =>
      obtain ⟨timer, hfind, rfl⟩ := Option.map_eq_some_iff.mp h
      exact tidy_fire hs (List.mem_of_find?_eq_some hfind)
  | interval g =>
      simp only [step, Option.ite_none_right_eq_some, Option.some.injEq] at h
      obtain ⟨-, rfl⟩ := h
      exact tidy_poll hs g false
  | resume i ok =>
      obtain ⟨call, hi, rfl⟩ := Option.map_eq_some_iff.mp h
      exact tidy_resume hs hb hi hguard

omit [DecidableEq Key] in
theorem noOrphans_of_tidy {s : State Key} (hs : Tidy s) : NoOrphans s := by
  intro stream hstream hopen
  have hrunning := hs.running stream hstream hopen
  exact ⟨hrunning, (hs.streams stream hstream).2 hrunning⟩

theorem noDoubles_of_tidy {s : State Key} (hs : Tidy s) : NoDoubles s := by
  intro key source
  have hgroup : ∀ stream ∈ s.streams, stream.isOpen = true → (s.heap stream.group).key = key →
      (key, stream.group) ∈ s.groups.rows := by
    intro stream hstream hopen hkey
    exact hkey ▸ (noOrphans_of_tidy hs stream hstream hopen).2
  by_cases hany : ∃ g, (key, g) ∈ s.groups.rows
  · obtain ⟨g, hg⟩ := hany
    have hle : s.streams.countP (fun stream =>
        stream.isOpen && ((s.heap stream.group).key = key && stream.source = source)) ≤
          s.streams.countP (isOpenFor g source) := by
      apply List.countP_mono_left
      intro stream hstream hp
      simp only [Bool.and_eq_true, decide_eq_true_eq] at hp
      obtain ⟨hopen, hkey, hsource⟩ := hp
      have hsame := KeyedRows.eq_of_key (hgroup stream hstream hopen hkey) hg rfl
      simp [isOpenFor, hopen, hsource, (Prod.mk.inj hsame).2]
    have hsingle := hs.single g source
    simp only [activity] at hsingle
    omega
  · rw [List.countP_eq_zero.mpr]
    · exact Nat.zero_le _
    · intro stream hstream hp
      simp only [Bool.and_eq_true, decide_eq_true_eq] at hp
      exact hany ⟨_, hgroup stream hstream hp.1 hp.2.1⟩

omit [DecidableEq Key] in
theorem tidy_initial [Inhabited Key] (leader : Bool) (registry : List (Key × WatchType)) :
    Tidy (initial leader registry) where
  single _ _ := Nat.zero_le _
  closer _ h := by cases h
  handle _ h := by cases h
  running _ h := by cases h
  calls _ h := by cases h
  timers _ h := by cases h
  streams _ h := by cases h

/-- In every orderly run, only registered groups that are not stopped have open
streams, and no key has two of one source. -/
theorem no_orphans_run [Inhabited Key] (maxSseConnections : Nat) (leader : Bool)
    (registry : List (Key × WatchType)) (acts : List (Act Key)) (s : State Key)
    (hg : Guarded (step maxSseConnections) Orderly (initial leader registry) acts)
    (hr : run (step maxSseConnections) (initial leader registry) acts = some s) :
    NoOrphans s ∧ NoDoubles s := by
  have hinit : Tidy (initial leader registry : State Key) ∧ Budget maxSseConnections (initial leader registry) :=
    ⟨tidy_initial leader registry, budget_initial maxSseConnections leader registry⟩
  have h := ((tidy_preserved maxSseConnections).run hinit hg hr).1
  exact ⟨noOrphans_of_tidy h, noDoubles_of_tidy h⟩

instance (s : State Key) (a : Act Key) : Decidable (Orderly s a) :=
  inferInstanceAs (Decidable ((∀ entry ∈ entersReconnect s a, (s.heap entry.1).stopped = false →
    (s.heap entry.1).reconnectTimers entry.2 = none →
      ∀ call ∈ s.calls, underWay entry.1 entry.2 call = false) ∧
    ∀ g ∈ opensStream s a, (s.heap g).stopped = false))

/-- A stream breaks and is replaced, and the group is stopped while both are open. -/
def recovery : List (Act Nat) :=
  [.start 1, .resume 0 true, .resume 0 true, .resume 0 true, .onerror 1, .resume 0 true, .fire 3,
    .resume 0 true, .resume 0 true, .stop 1]

theorem no_orphans_recovery :
    ∃ s, run (step 2) (initial true [(1, .account)]) recovery = some s ∧ s.streams.length = 3 ∧
      NoOrphans s ∧ NoDoubles s := by
  obtain ⟨s, hr, hp⟩ := exists_of_run_any (step 2) (initial true [(1, .account)]) recovery
    (fun s => s.streams.length = 3) (by decide)
  exact ⟨s, hr, by simpa using hp, no_orphans_run 2 true _ recovery s (by decide) hr⟩

def stopWhileOpening : List (Act Nat) := [.start 1, .resume 0 true, .stop 1, .resume 0 true]

theorem not_no_orphans :
    ∃ s, run (step 2) (initial true [(1, .account)]) stopWhileOpening = some s ∧
      s.groups.rows = [] ∧ ¬ NoOrphans s := by
  obtain ⟨s, hr, hp⟩ := exists_of_run_any (step 2) (initial true [(1, .account)]) stopWhileOpening
    (fun s => s.groups.rows = [] && s.streams.any (fun stream => stream.isOpen)) (by decide)
  simp only [Bool.and_eq_true, decide_eq_true_eq, List.any_eq_true] at hp
  obtain ⟨hempty, stream, hstream, hopen⟩ := hp
  refine ⟨s, hr, hempty, fun h => ?_⟩
  have hmem := (h stream hstream hopen).2
  rw [hempty] at hmem
  cases hmem

end Savitools.Monitor.StreamLifecycle
