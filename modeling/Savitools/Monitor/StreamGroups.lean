import Savitools.Monitor.StreamManager
import Savitools.Monitor.StreamRecovery

namespace Savitools.Monitor.StreamBudget

open Transitions.Runs Stores.Keyed Monitor.Types StreamManager

variable {Key : Type}

def isSse (heap : Nat → StreamGroup Key) (entry : Key × Nat) : Bool := (heap entry.2).mode = .sse

def sseGroups (s : State Key) : Nat := s.groups.rows.countP (isSse s.heap)

structure Budget (maxSseConnections : Nat) (s : State Key) : Prop where
  named : ∀ entry ∈ s.groups.rows, (s.heap entry.2).key = entry.1
  fresh : ∀ entry ∈ s.groups.rows, entry.2 < s.fresh
  count : s.activeSseConnections = 2 * (sseGroups s : Int)
  bound : s.activeSseConnections ≤ maxSseConnections

/-- A step that leaves the map, the counter and the modes alone. -/
structure Idle (s t : State Key) : Prop where
  groups : t.groups = s.groups
  active : t.activeSseConnections = s.activeSseConnections
  fresh : s.fresh ≤ t.fresh
  key : ∀ g, (t.heap g).key = (s.heap g).key
  mode : ∀ g, (t.heap g).mode = (s.heap g).mode

theorem Idle.refl (s : State Key) : Idle s s := ⟨rfl, rfl, Nat.le_refl _, fun _ => rfl, fun _ => rfl⟩

theorem Idle.trans {s t u : State Key} (h : Idle s t) (k : Idle t u) : Idle s u where
  groups := k.groups.trans h.groups
  active := k.active.trans h.active
  fresh := Nat.le_trans h.fresh k.fresh
  key g := (k.key g).trans (h.key g)
  mode g := (k.mode g).trans (h.mode g)

theorem isSse_congr {heap heap' : Nat → StreamGroup Key} (h : ∀ g, (heap' g).mode = (heap g).mode) :
    isSse heap' = isSse heap := by
  funext entry
  rw [isSse, isSse, h]

theorem Idle.budget {maxSseConnections : Nat} {s t : State Key} (h : Idle s t)
    (hs : Budget maxSseConnections s) : Budget maxSseConnections t where
  named entry he := by
    rw [h.groups] at he
    rw [h.key, hs.named entry he]
  fresh entry he := by
    rw [h.groups] at he
    exact Nat.lt_of_lt_of_le (hs.fresh entry he) h.fresh
  count := by rw [h.active, hs.count, sseGroups, sseGroups, h.groups, isSse_congr h.mode]
  bound := h.active ▸ hs.bound

theorem idle_of_update {s t : State Key} {g : Nat} {group : StreamGroup Key}
    (hheap : t.heap = Function.update s.heap g group) (hkey : group.key = (s.heap g).key)
    (hmode : group.mode = (s.heap g).mode) (hgroups : t.groups = s.groups)
    (hactive : t.activeSseConnections = s.activeSseConnections) (hfresh : s.fresh ≤ t.fresh) :
    Idle s t := by
  refine ⟨hgroups, hactive, hfresh, ?_, ?_⟩
  · intro h
    rw [hheap]
    by_cases hg : h = g
    · rw [hg, Function.update_self, hkey]
    · rw [Function.update_of_ne hg]
  · intro h
    rw [hheap]
    by_cases hg : h = g
    · rw [hg, Function.update_self, hmode]
    · rw [Function.update_of_ne hg]

theorem idle_of_same {s t : State Key} (hheap : t.heap = s.heap) (hgroups : t.groups = s.groups)
    (hactive : t.activeSseConnections = s.activeSseConnections) (hfresh : t.fresh = s.fresh) : Idle s t :=
  ⟨hgroups, hactive, Nat.le_of_eq hfresh.symm, fun _ => by rw [hheap], fun _ => by rw [hheap]⟩

theorem idle_push (s : State Key) (call : Call Key) : Idle s (s.push call) :=
  idle_of_same rfl rfl rfl rfl

theorem idle_stream (s : State Key) (g : Nat) (source : AccountSource) : Idle s (stream s g source) :=
  idle_of_update rfl rfl rfl rfl rfl (Nat.le_succ _)

theorem idle_reconnect (s : State Key) (g : Nat) (source : AccountSource) : Idle s (reconnect s g source) := by
  have hclosed : Idle s (disconnect s g source) := idle_of_update rfl rfl rfl rfl rfl (Nat.le_refl _)
  simp only [reconnect]
  split
  next => exact .refl s
  next => exact hclosed.trans (idle_push _ _)

theorem idle_setReconnectTimer (s : State Key) (g : Nat) (source : AccountSource) :
    Idle s (setReconnectTimer s g source) :=
  idle_of_update rfl rfl rfl rfl rfl (Nat.le_succ _)

theorem idle_markStreamingIfReady (s : State Key) (g : Nat) (source : AccountSource) :
    Idle s (markStreamingIfReady s g source) := by
  simp only [markStreamingIfReady]
  split
  next => exact idle_push s _
  next => exact .refl s

theorem idle_setPollTimer (s : State Key) (g : Nat) : Idle s (setPollTimer s g) := by
  simp only [setPollTimer]
  split
  next => exact .refl s
  next => exact idle_of_update rfl rfl rfl rfl rfl (Nat.le_refl _)

theorem idle_endPoll (s : State Key) (g : Nat) (first ok : Bool) : Idle s (endPoll s g first ok) := by
  have hended : Idle s (s.setGroup g { s.heap g with polling := false }) :=
    idle_of_update rfl rfl rfl rfl rfl (Nat.le_refl _)
  simp only [endPoll]
  split
  next => exact hended.trans (idle_setPollTimer _ g)
  next => exact hended

variable [DecidableEq Key]

theorem idle_openAccountStream (s : State Key) (g : Nat) (source : AccountSource) (timed : Bool) :
    Idle s (openAccountStream s g source timed) := by
  simp only [openAccountStream]
  split
  next =>
    split
    next => exact idle_push s _
    next => exact .refl s
  next => exact idle_push s _

theorem idle_poll (s : State Key) (g : Nat) (first : Bool) : Idle s (poll s g first) := by
  simp only [poll]
  split
  next =>
    split
    next => exact idle_setPollTimer s g
    next => exact .refl s
  next => exact idle_of_update rfl rfl rfl rfl rfl (Nat.le_refl _)

theorem idle_fire (s : State Key) (timer : Timer) : Idle s (fire s timer) := by
  refine Idle.trans ?_ (idle_openAccountStream _ timer.group timer.source true)
  exact idle_of_update rfl rfl rfl rfl rfl (Nat.le_refl _)

theorem get_eq_none {s : State Key} {key : Key} (h : (s.get key).isSome = false) :
    s.groups.get? key = none := by
  simpa [State.get] using h

theorem sseGroups_createGroup {maxSseConnections : Nat} {s : State Key} (hs : Budget maxSseConnections s)
    {key : Key} (hnew : s.groups.get? key = none) (mode : StreamMode) :
    sseGroups (createGroup s key mode) = sseGroups s + (if mode = .sse then 1 else 0) := by
  have hrows : (createGroup s key mode).groups.rows = s.groups.rows ++ [(key, s.fresh)] :=
    KeyedRows.put_of_get?_eq_none hnew
  have hold : s.groups.rows.countP (isSse (createGroup s key mode).heap) = sseGroups s := by
    apply List.countP_congr
    intro entry he
    have hne : entry.2 ≠ s.fresh := Nat.ne_of_lt (hs.fresh entry he)
    simp [isSse, createGroup, State.setGroup, hne]
  rw [sseGroups, hrows, List.countP_append, hold, List.countP_singleton]
  simp [isSse, createGroup, State.setGroup]

theorem budget_createGroup {maxSseConnections : Nat} {s : State Key} (hs : Budget maxSseConnections s)
    {key : Key} (hnew : s.groups.get? key = none) (mode : StreamMode) :
    (∀ entry ∈ (createGroup s key mode).groups.rows,
      ((createGroup s key mode).heap entry.2).key = entry.1) ∧
    ∀ entry ∈ (createGroup s key mode).groups.rows, entry.2 < (createGroup s key mode).fresh := by
  have hrows : (createGroup s key mode).groups.rows = s.groups.rows ++ [(key, s.fresh)] :=
    KeyedRows.put_of_get?_eq_none hnew
  rw [hrows]
  refine ⟨?_, ?_⟩
  · intro entry he
    rcases List.mem_append.mp he with he | he
    · have hne : entry.2 ≠ s.fresh := Nat.ne_of_lt (hs.fresh entry he)
      simpa [createGroup, State.setGroup, hne] using hs.named entry he
    · rw [List.mem_singleton.mp he]
      simp [createGroup, State.setGroup]
  · intro entry he
    rcases List.mem_append.mp he with he | he
    · exact Nat.lt_succ_of_lt (hs.fresh entry he)
    · rw [List.mem_singleton.mp he]
      exact Nat.lt_succ_self _

theorem budget_start {maxSseConnections : Nat} {s : State Key} (hs : Budget maxSseConnections s)
    (key : Key) : Budget maxSseConnections (start maxSseConnections s key) := by
  simp only [start]
  split
  next => exact hs
  next hnew =>
    simp only [Bool.or_eq_true, not_or, Bool.not_eq_true] at hnew
    have hnone := get_eq_none hnew.1
    have hpoll : Budget maxSseConnections (startPolling s key) := by
      obtain ⟨hnamed, hfresh⟩ := budget_createGroup hs hnone .poll
      have hcount := sseGroups_createGroup hs hnone .poll
      exact (idle_push _ _).budget ⟨hnamed, hfresh, by rw [hcount]; exact hs.count, hs.bound⟩
    split
    next => exact hs
    next => exact hpoll
    next =>
      split
      next => exact hpoll
      next hroom =>
        obtain ⟨hnamed, hfresh⟩ := budget_createGroup hs hnone .sse
        have hcount := sseGroups_createGroup hs hnone .sse
        rw [if_pos rfl] at hcount
        have hcount' : s.activeSseConnections + 2 = 2 * (sseGroups (createGroup s key .sse) : Int) := by
          have := hs.count
          rw [hcount]
          push_cast
          omega
        exact (idle_push _ _).budget ⟨hnamed, hfresh, hcount', Int.not_lt.mp hroom⟩

theorem sseGroups_closeGroup {s : State Key} {key : Key} {g : Nat} (hg : (key, g) ∈ s.groups.rows) :
    sseGroups (closeGroup s key g) + (if (s.heap g).mode = .sse then 1 else 0) = sseGroups s := by
  have hmode : isSse (closeGroup s key g).heap = isSse s.heap := by
    apply isSse_congr
    intro h
    by_cases hgh : h = g <;> simp [closeGroup, State.setGroup, hgh]
  have hcount := KeyedRows.countP_delete hg (isSse s.heap)
  simp only [isSse, decide_eq_true_eq] at hcount
  rw [sseGroups, hmode]
  exact hcount

theorem budget_closeGroup {maxSseConnections : Nat} {s : State Key} (hs : Budget maxSseConnections s)
    {key : Key} {g : Nat} (hg : (key, g) ∈ s.groups.rows) {t : State Key}
    (hheap : t.heap = (closeGroup s key g).heap) (hgroups : t.groups = (closeGroup s key g).groups)
    (hfresh : t.fresh = s.fresh)
    (hactive : t.activeSseConnections = s.activeSseConnections - if (s.heap g).mode = .sse then 2 else 0) :
    Budget maxSseConnections t := by
  have hsub : ∀ entry ∈ t.groups.rows, entry ∈ s.groups.rows := by
    intro entry he
    rw [hgroups] at he
    exact (KeyedRows.mem_delete.mp he).1
  have hcount := sseGroups_closeGroup hg
  have hold := hs.count
  refine ⟨?_, fun entry he => hfresh ▸ hs.fresh entry (hsub entry he), ?_, ?_⟩
  · intro entry he
    rw [hheap, ← hs.named entry (hsub entry he)]
    by_cases hgh : entry.2 = g <;> simp [closeGroup, State.setGroup, hgh]
  · have hsse : sseGroups t = sseGroups (closeGroup s key g) := by
      rw [sseGroups, sseGroups, hheap, hgroups]
    rw [hsse, hactive]
    split at hcount
    next hmode => rw [if_pos hmode]; omega
    next hmode => rw [if_neg hmode]; omega
  · have := hs.bound
    rw [hactive]
    split <;> omega

theorem budget_promotePollingGroup {maxSseConnections : Nat} {s : State Key}
    (hs : Budget maxSseConnections s) :
    Budget maxSseConnections (promotePollingGroup maxSseConnections s) := by
  simp only [promotePollingGroup]
  split
  next => exact hs
  next =>
    split
    next => exact hs
    next key g hfind =>
      have hmem := List.mem_of_find?_eq_some hfind
      have hpolls := List.find?_some hfind
      simp only [pollsAccount, Bool.and_eq_true, decide_eq_true_eq] at hpolls
      refine (idle_push _ _).budget (budget_closeGroup hs (g := g) ?_ rfl rfl rfl ?_)
      · rw [hs.named _ hmem]
        exact hmem
      · simp [hpolls.1, closeGroup, State.setGroup]

theorem budget_stop {maxSseConnections : Nat} {s : State Key} (hs : Budget maxSseConnections s)
    (key : Key) : Budget maxSseConnections (stop maxSseConnections s key) := by
  simp only [stop]
  split
  next => exact hs
  next g hg =>
    obtain ⟨⟨key', g'⟩, hget, rfl⟩ := Option.map_eq_some_iff.mp hg
    obtain ⟨hmem, rfl⟩ := KeyedRows.get?_eq_some.mp hget
    dsimp only
    split
    next hmode =>
      apply budget_promotePollingGroup
      refine budget_closeGroup hs hmem rfl rfl rfl ?_
      simp [hmode, closeGroup, State.setGroup]
    next hmode =>
      refine budget_closeGroup hs hmem rfl rfl rfl ?_
      simp [hmode, closeGroup, State.setGroup]

theorem idle_resume_starting (s : State Key) (g : Nat) :
    Idle s (openAccountStream (openAccountStream s g .transaction false) g .payment false) :=
  (idle_openAccountStream s g _ _).trans (idle_openAccountStream _ g _ _)

theorem budget_resume {maxSseConnections : Nat} {s : State Key} (hs : Budget maxSseConnections s)
    (ok : Bool) (call : Call Key) : Budget maxSseConnections (resume maxSseConnections s ok call) := by
  cases call with
  | starting g =>
      cases ok with
      | true => exact (idle_resume_starting s g).budget hs
      | false => exact hs
  | opening g source timed =>
      cases ok with
      | true =>
          cases timed with
          | true => exact ((idle_stream s g source).trans (idle_push _ _)).budget hs
          | false => exact (idle_stream s g source).budget hs
      | false => exact (idle_push s _).budget hs
  | rejected g source => exact (idle_reconnect s g source).budget hs
  | reconnecting g source =>
      cases ok with
      | true => exact (idle_setReconnectTimer s g source).budget hs
      | false => exact hs
  | opened g source => exact (idle_markStreamingIfReady s g source).budget hs
  | marking g source =>
      cases ok with
      | true => exact hs
      | false => exact (idle_push s _).budget hs
  | startingPoll g =>
      cases ok with
      | true => exact (idle_poll s g true).budget hs
      | false => exact hs
  | polling g first => exact (idle_endPoll s g first ok).budget hs
  | promoting key => exact budget_start hs key
  | startingAll keys =>
      cases keys with
      | nil => exact hs
      | cons key keys => exact (idle_push _ _).budget (budget_start hs key)
  | stoppingAll keys =>
      cases keys with
      | nil => exact hs
      | cons key keys => exact (idle_push _ _).budget (budget_stop hs key)

theorem budget_preserved (maxSseConnections : Nat) :
    Preserves (step maxSseConnections : Step (State Key) (Act Key)) always (Budget maxSseConnections) := by
  intro s a t hs _ h
  cases a with
  | start key => cases h; exact budget_start hs key
  | stop key => cases h; exact budget_stop hs key
  | leadership isLeader =>
      cases h
      have hset : Idle s { s with leader := isLeader } := idle_of_same rfl rfl rfl rfl
      cases isLeader with
      | true => exact (hset.trans (idle_push _ _)).budget hs
      | false => exact (hset.trans (idle_push _ _)).budget hs
  | shutdown =>
      cases h
      have hset : Idle s (stopAll { s with shuttingDown := true }) := idle_of_same rfl rfl rfl rfl
      exact hset.budget hs
  | register registry =>
      cases h
      have hset : Idle s { s with registry := registry } := idle_of_same rfl rfl rfl rfl
      exact hset.budget hs
  | onerror id =>
      obtain ⟨stream, -, rfl⟩ := Option.map_eq_some_iff.mp h
      exact (idle_reconnect s _ _).budget hs
  | fire id =>
      obtain ⟨timer, -, rfl⟩ := Option.map_eq_some_iff.mp h
      exact (idle_fire s timer).budget hs
  | interval g =>
      simp only [step, Option.ite_none_right_eq_some, Option.some.injEq] at h
      obtain ⟨-, rfl⟩ := h
      exact (idle_poll s g false).budget hs
  | resume i ok =>
      obtain ⟨call, -, rfl⟩ := Option.map_eq_some_iff.mp h
      have htaken : Idle s { s with calls := s.calls.eraseIdx i } := idle_of_same rfl rfl rfl rfl
      exact budget_resume (htaken.budget hs) ok call

omit [DecidableEq Key] in
theorem budget_initial [Inhabited Key] (maxSseConnections : Nat) (leader : Bool)
    (registry : List (Key × WatchType)) : Budget maxSseConnections (initial leader registry) where
  named _ he := by cases he
  fresh _ he := by cases he
  count := rfl
  bound := Int.natCast_nonneg _

/-- In every reachable state the counter is twice the number of registered groups
in SSE mode and lies between zero and the cap. -/
theorem sse_budget_run [Inhabited Key] (maxSseConnections : Nat) (leader : Bool)
    (registry : List (Key × WatchType)) (acts : List (Act Key)) (s : State Key)
    (hr : run (step maxSseConnections) (initial leader registry) acts = some s) :
    s.activeSseConnections = 2 * (sseGroups s : Int) ∧ 0 ≤ s.activeSseConnections ∧
      s.activeSseConnections ≤ maxSseConnections := by
  have h := (budget_preserved maxSseConnections).run_always (budget_initial maxSseConnections leader registry) hr
  have hcount := h.count
  exact ⟨hcount, by omega, h.bound⟩

/-- Two accounts on a budget for one: the second polls, and takes over the
connections when the first one is stopped. -/
def promotion : List (Act Nat) := [.start 1, .start 2, .stop 1, .resume 2 true]

theorem sse_budget_promotion :
    ∃ s, run (step 2) (initial true [(1, .account), (2, .account)]) promotion = some s ∧
      sseGroups s = 1 ∧ s.activeSseConnections = 2 * (sseGroups s : Int) := by
  obtain ⟨s, hr, hp⟩ := exists_of_run_any (step 2) (initial true [(1, .account), (2, .account)]) promotion
    (fun s => sseGroups s = 1) (by decide)
  exact ⟨s, hr, by simpa using hp, (sse_budget_run 2 true _ promotion s hr).1⟩

end Savitools.Monitor.StreamBudget

namespace Savitools.Monitor.StreamGroups

open Stores.Table Stores.Keyed Monitor.Types StreamManager StreamBudget StreamActivity StreamRecovery

variable {Key : Type}

theorem tidy_setGroup {s : State Key} (hs : Tidy s) {g : Nat} {group : StreamGroup Key}
    (h : SameGroup (s.heap g) group) : Tidy (s.setGroup g group) :=
  tidy_of_same hs (Nat.le_refl _) rfl (sameGroup_update h) rfl rfl (fun _ hcall => .inl hcall)
    (fun _ _ => Nat.le_refl _)

theorem tidy_setPollTimer {s : State Key} (hs : Tidy s) (g : Nat) : Tidy (setPollTimer s g) := by
  simp only [setPollTimer]
  split
  next => exact hs
  next => exact tidy_setGroup hs ⟨rfl, rfl, rfl, rfl⟩

theorem tidy_endPoll {s : State Key} (hs : Tidy s) (g : Nat) (first ok : Bool) :
    Tidy (endPoll s g first ok) := by
  have hended : Tidy (s.setGroup g { s.heap g with polling := false }) :=
    tidy_setGroup hs ⟨rfl, rfl, rfl, rfl⟩
  simp only [endPoll]
  split
  next => exact tidy_setPollTimer hended g
  next => exact hended

theorem tidy_taken {s : State Key} (hs : Tidy s) (i : Nat) : Tidy { s with calls := s.calls.eraseIdx i } := by
  refine tidy_of_same hs (Nat.le_refl _) rfl (fun _ => .refl _) rfl rfl ?_ ?_
  · exact fun call hcall => .inl (List.mem_of_mem_eraseIdx hcall)
  · exact fun g source => (List.eraseIdx_sublist _ _).countP_le

theorem room_taken {s : State Key} (hs : Tidy s) {i : Nat} {call : Call Key} (hi : s.calls[i]? = some call)
    {g : Nat} {source : AccountSource} (hway : underWay g source call = true) :
    activity { s with calls := s.calls.eraseIdx i } g source = 0 := by
  have hsingle := hs.single g source
  have hadd := countP_eraseIdx_add (p := underWay g source) hi
  rw [if_pos hway] at hadd
  simp only [activity] at hsingle ⊢
  omega

variable [DecidableEq Key]

theorem tidy_openAccountStream {s : State Key} {g : Nat} {source : AccountSource} (hs : Tidy s)
    (hg : Registered s g) (hroom : activity s g source = 0) (timed : Bool) :
    Tidy (openAccountStream s g source timed) := by
  have hopened : Tidy (s.push (.opened g source)) := by
    refine tidy_push hs ?_ (fun _ _ => rfl)
    intro h hh
    rw [streamed, Option.mem_some_iff] at hh
    exact hh ▸ hg
  simp only [openAccountStream]
  split
  next =>
    split
    next => exact hopened
    next => exact hs
  next =>
    refine tidy_push_underWay hs ?_ ?_
    · intro h hh
      rw [streamed, Option.mem_some_iff] at hh
      exact hh ▸ hg
    · intro h other hway
      simp only [underWay, Bool.and_eq_true, decide_eq_true_eq] at hway
      obtain ⟨rfl, rfl⟩ := hway
      exact hroom

theorem tidy_poll {s : State Key} (hs : Tidy s) (g : Nat) (first : Bool) : Tidy (poll s g first) := by
  simp only [poll]
  split
  next =>
    split
    next => exact tidy_setPollTimer hs g
    next => exact hs
  next =>
    have hset : Tidy (s.setGroup g { s.heap g with polling := true }) :=
      tidy_setGroup hs ⟨rfl, rfl, rfl, rfl⟩
    exact tidy_push_other hset rfl

theorem tidy_fire {s : State Key} (hs : Tidy s) {timer : Timer} (ht : timer ∈ s.timers) :
    Tidy (fire s timer) := by
  have hheap : (expire s timer).heap = Function.update s.heap timer.group _ := rfl
  exact tidy_openAccountStream (tidy_expire hs ht)
    (registered_of_update hheap rfl rfl (Nat.le_refl _) rfl (hs.timers timer ht)) (expired hs ht) true

theorem registered_createGroup {s : State Key} {key : Key} (hnew : s.groups.get? key = none)
    (mode : StreamMode) {g : Nat} (hg : Registered s g) : Registered (createGroup s key mode) g := by
  have hrows : (createGroup s key mode).groups.rows = s.groups.rows ++ [(key, s.fresh)] :=
    KeyedRows.put_of_get?_eq_none hnew
  have hold : (createGroup s key mode).heap g = s.heap g := by
    simp [createGroup, State.setGroup, Nat.ne_of_lt hg.1]
  refine ⟨Nat.lt_succ_of_lt hg.1, ?_⟩
  rw [hold, hrows]
  exact fun hrunning => List.mem_append_left _ (hg.2 hrunning)

theorem registered_new {s : State Key} {key : Key} (hnew : s.groups.get? key = none) (mode : StreamMode) :
    Registered (createGroup s key mode) s.fresh := by
  have hrows : (createGroup s key mode).groups.rows = s.groups.rows ++ [(key, s.fresh)] :=
    KeyedRows.put_of_get?_eq_none hnew
  refine ⟨Nat.lt_succ_self _, fun _ => ?_⟩
  rw [hrows]
  simp [createGroup, State.setGroup]

theorem tidy_createGroup {s : State Key} (hs : Tidy s) {key : Key} (hnew : s.groups.get? key = none)
    (mode : StreamMode) : Tidy (createGroup s key mode) := by
  have hold {g : Nat} (hg : Registered s g) : (createGroup s key mode).heap g = s.heap g := by
    simp [createGroup, State.setGroup, Nat.ne_of_lt hg.1]
  have hreg {g : Nat} (hg : Registered s g) := registered_createGroup hnew mode hg
  refine ⟨hs.single, ?_, ?_, ?_, ?_, ?_, ?_⟩
  · intro st hst hopen
    rw [hold (hs.streams st hst)]
    exact hs.closer st hst hopen
  · intro timer htimer
    rw [hold (hs.timers timer htimer)]
    exact hs.handle timer htimer
  · intro st hst hopen
    rw [hold (hs.streams st hst)]
    exact hs.running st hst hopen
  · exact fun call hcall g hg => hreg (hs.calls call hcall g hg)
  · exact fun timer htimer => hreg (hs.timers timer htimer)
  · exact fun st hst => hreg (hs.streams st hst)

theorem tidy_start {s : State Key} (hs : Tidy s) (maxSseConnections : Nat) (key : Key) :
    Tidy (start maxSseConnections s key) := by
  simp only [start]
  split
  next => exact hs
  next hnew =>
    simp only [Bool.or_eq_true, not_or, Bool.not_eq_true] at hnew
    have hnone := get_eq_none hnew.1
    have hpoll : Tidy (startPolling s key) :=
      tidy_push_other (tidy_createGroup hs hnone .poll) rfl
    split
    next => exact hs
    next => exact hpoll
    next =>
      split
      next => exact hpoll
      next =>
        have hcreated := tidy_createGroup hs hnone .sse
        have hcounted : Tidy { createGroup s key .sse with
            activeSseConnections := (createGroup s key .sse).activeSseConnections + 2 } :=
          tidy_of_same hcreated (Nat.le_refl _) rfl (fun _ => .refl _) rfl rfl (fun _ hcall => .inl hcall)
            (fun _ _ => Nat.le_refl _)
        refine tidy_push_underWay hcounted ?_ ?_
        · intro g hg
          rw [streamed, Option.mem_some_iff] at hg
          exact hg ▸ registered_new hnone .sse
        · intro g source hway
          simp only [underWay, decide_eq_true_eq] at hway
          exact hway ▸ hs.idle_fresh source

theorem mem_closeGroup_streams {s : State Key} (hs : Tidy s) {key : Key} {g : Nat} {st : Stream}
    (h : st ∈ (closeGroup s key g).streams) :
    ∃ old ∈ s.streams, st.id = old.id ∧ st.group = old.group ∧ st.source = old.source ∧
      (st.isOpen = true → old.isOpen = true ∧ old.group ≠ g) := by
  obtain ⟨mid, hmid, hid, hgroup, hsource, hpayment⟩ := mem_closeStream h
  obtain ⟨old, hold, hid', hgroup', hsource', htransaction⟩ := mem_closeStream hmid
  refine ⟨old, hold, hid.trans hid', hgroup.trans hgroup', hsource.trans hsource', ?_⟩
  intro hopen
  have hopen' := (htransaction (hpayment hopen).1).1
  refine ⟨hopen', ?_⟩
  rintro rfl
  have hcloser := hs.closer old hold hopen'
  cases hsrc : old.source with
  | transaction => exact (htransaction (hpayment hopen).1).2 (hsrc ▸ hcloser)
  | payment => exact (hpayment hopen).2 (hid' ▸ hsrc ▸ hcloser)

theorem mem_closeGroup_timers {s : State Key} (hs : Tidy s) {key : Key} {g : Nat} {timer : Timer}
    (h : timer ∈ (closeGroup s key g).timers) : timer ∈ s.timers ∧ timer.group ≠ g := by
  obtain ⟨hmid, hpayment⟩ := mem_delete.mp h
  obtain ⟨hold, htransaction⟩ := mem_delete.mp hmid
  refine ⟨hold, ?_⟩
  rintro rfl
  have hhandle := hs.handle timer hold
  cases hsrc : timer.source with
  | transaction => rw [hsrc] at hhandle; simp [hhandle] at htransaction
  | payment => rw [hsrc] at hhandle; simp [hhandle] at hpayment

/-- Stopping a group closes the streams that its closers name, which are all it has open. -/
theorem tidy_closeGroup {s : State Key} (hs : Tidy s) {g : Nat}
    (hg : ((s.heap g).key, g) ∈ s.groups.rows) : Tidy (closeGroup s (s.heap g).key g) := by
  have hheap : (closeGroup s (s.heap g).key g).heap = Function.update s.heap g _ := rfl
  have hreg {h : Nat} (hh : Registered s h) : Registered (closeGroup s (s.heap g).key g) h := by
    refine ⟨hh.1, ?_⟩
    intro hrunning
    have hne : h ≠ g := by
      rintro rfl
      rw [hheap, Function.update_self] at hrunning
      cases hrunning
    rw [hheap, Function.update_of_ne hne] at hrunning ⊢
    refine KeyedRows.mem_delete.mpr ⟨hh.2 hrunning, ?_⟩
    -- another running group of the same key would be registered under it too
    intro hsame
    exact hne (Prod.mk.inj (KeyedRows.eq_of_key (hh.2 hrunning) hg hsame)).2
  refine ⟨?_, ?_, ?_, ?_, ?_, ?_, ?_⟩
  · intro h other
    have hsingle := hs.single h other
    have htransaction := countP_closeStream_le ((s.heap g).closers .transaction) s.streams h other
    have hpayment := countP_closeStream_le ((s.heap g).closers .payment)
      (closeStream ((s.heap g).closers .transaction) s.streams) h other
    have htimers := countP_delete_le (fun timer => decide ((s.heap g).reconnectTimers .transaction = some timer.id))
      (waitsFor h other) s.timers
    have htimers' := countP_delete_le (fun timer => decide ((s.heap g).reconnectTimers .payment = some timer.id))
      (waitsFor h other) (clearTimeout ((s.heap g).reconnectTimers .transaction) s.timers)
    simp only [activity, closeGroup, State.setGroup, clearTimeout] at hsingle htimers' ⊢
    omega
  · intro st hst hopen
    obtain ⟨old, hold, hid, hgroup, hsource, hstays⟩ := mem_closeGroup_streams hs hst
    rw [field_of_update hheap StreamGroup.closers rfl, hid, hgroup, hsource]
    exact hs.closer old hold (hstays hopen).1
  · intro timer htimer
    obtain ⟨hold, hne⟩ := mem_closeGroup_timers hs htimer
    rw [hheap, Function.update_of_ne hne]
    exact hs.handle timer hold
  · intro st hst hopen
    obtain ⟨old, hold, -, hgroup, -, hstays⟩ := mem_closeGroup_streams hs hst
    rw [hgroup, hheap, Function.update_of_ne (hstays hopen).2]
    exact hs.running old hold (hstays hopen).1
  · exact fun call hcall h hh => hreg (hs.calls call hcall h hh)
  · exact fun timer htimer => hreg (hs.timers timer (mem_closeGroup_timers hs htimer).1)
  · intro st hst
    obtain ⟨old, hold, -, hgroup, -⟩ := mem_closeGroup_streams hs hst
    exact hgroup ▸ hreg (hs.streams old hold)

theorem tidy_promotePollingGroup {s : State Key} {maxSseConnections : Nat} (hs : Tidy s)
    (hb : Budget maxSseConnections s) : Tidy (promotePollingGroup maxSseConnections s) := by
  simp only [promotePollingGroup]
  split
  next => exact hs
  next =>
    split
    next => exact hs
    next key g hfind =>
      have hmem := List.mem_of_find?_eq_some hfind
      refine tidy_push_other (tidy_closeGroup hs ?_) rfl
      rw [hb.named _ hmem]
      exact hmem

theorem tidy_stop {s : State Key} {maxSseConnections : Nat} (hs : Tidy s)
    (hb : Budget maxSseConnections s) (key : Key) : Tidy (stop maxSseConnections s key) := by
  simp only [stop]
  split
  next => exact hs
  next g hg =>
    obtain ⟨⟨key', g'⟩, hget, rfl⟩ := Option.map_eq_some_iff.mp hg
    obtain ⟨hmem, rfl⟩ := KeyedRows.get?_eq_some.mp hget
    have hclosed : Tidy (closeGroup s key' g') := by
      have hnamed : (s.heap g').key = key' := hb.named _ hmem
      have hclose := @tidy_closeGroup _ _ _ hs g' (hnamed ▸ hmem)
      rwa [hnamed] at hclose
    dsimp only
    split
    next hmode =>
      apply tidy_promotePollingGroup
      · exact tidy_of_same hclosed (Nat.le_refl _) rfl (fun _ => .refl _) rfl rfl
          (fun _ hcall => .inl hcall) (fun _ _ => Nat.le_refl _)
      · refine budget_closeGroup hb hmem rfl rfl rfl ?_
        simp [hmode, closeGroup, State.setGroup]
    next => exact hclosed

theorem openAccountStream_eq (s : State Key) (g : Nat) (source : AccountSource) (timed : Bool) :
    openAccountStream s g source timed = s ∨
      ∃ call, openAccountStream s g source timed = s.push call ∧
        ∀ h other, underWay h other call = true → h = g ∧ other = source := by
  simp only [openAccountStream]
  split
  next =>
    split
    next => exact .inr ⟨_, rfl, fun _ _ h => by cases h⟩
    next => exact .inl rfl
  next =>
    refine .inr ⟨_, rfl, ?_⟩
    intro h other hway
    simp only [underWay, Bool.and_eq_true, decide_eq_true_eq] at hway
    exact ⟨hway.1.symm, hway.2.symm⟩

theorem tidy_openBoth {s : State Key} {g : Nat} (hs : Tidy s) (hg : Registered s g)
    (hroom : ∀ source, activity s g source = 0) :
    Tidy (openAccountStream (openAccountStream s g .transaction false) g .payment false) := by
  have hfirst := tidy_openAccountStream hs hg (hroom .transaction) false
  rcases openAccountStream_eq s g .transaction false with heq | ⟨call, heq, honly⟩
  · rw [heq]
    exact tidy_openAccountStream hs hg (hroom .payment) false
  · rw [heq] at hfirst ⊢
    refine tidy_openAccountStream hfirst ?_ ?_ false
    · exact hg
    · rw [activity_push, hroom]
      cases hway : underWay g .payment call with
      | false => rfl
      | true => exact absurd (honly g .payment hway).2 (by decide)

end Savitools.Monitor.StreamGroups
