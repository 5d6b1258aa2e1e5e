import Savitools.Monitor.StreamManager

namespace Savitools.Monitor.StreamActivity

open Stores.Table Stores.Keyed Monitor.Types StreamManager

variable {Key : Type}

/-- A call that is about to open a stream of the source or to set its timer. -/
def underWay (g : Nat) (source : AccountSource) : Call Key → Bool
  | .starting h => h = g
  | .opening h other _ | .reconnecting h other => h = g && other = source
  | _ => false

def waitsFor (g : Nat) (source : AccountSource) (timer : Timer) : Bool :=
  timer.group = g && timer.source = source

def isOpenFor (g : Nat) (source : AccountSource) (stream : Stream) : Bool :=
  stream.isOpen && (stream.group = g && stream.source = source)

/-- Everything that is a stream of the source or can still become one. -/
def activity (s : State Key) (g : Nat) (source : AccountSource) : Nat :=
  s.calls.countP (underWay g source) + s.timers.countP (waitsFor g source) +
    s.streams.countP (isOpenFor g source)

def streamed : Call Key → Option Nat
  | .starting g | .opening g _ _ | .rejected g _ | .reconnecting g _ | .opened g _ | .marking g _ => some g
  | _ => none

/-- The object exists, and it is registered as long as it is not stopped. -/
def Registered (s : State Key) (g : Nat) : Prop :=
  g < s.fresh ∧ ((s.heap g).stopped = false → ((s.heap g).key, g) ∈ s.groups.rows)

structure Tidy (s : State Key) : Prop where
  single : ∀ g source, activity s g source ≤ 1
  closer : ∀ stream ∈ s.streams, stream.isOpen = true →
    (s.heap stream.group).closers stream.source = some stream.id
  handle : ∀ timer ∈ s.timers, (s.heap timer.group).reconnectTimers timer.source = some timer.id
  running : ∀ stream ∈ s.streams, stream.isOpen = true → (s.heap stream.group).stopped = false
  calls : ∀ call ∈ s.calls, ∀ g ∈ streamed call, Registered s g
  timers : ∀ timer ∈ s.timers, Registered s timer.group
  streams : ∀ stream ∈ s.streams, Registered s stream.group

structure SameGroup (a b : StreamGroup Key) : Prop where
  key : b.key = a.key
  stopped : b.stopped = a.stopped
  closers : b.closers = a.closers
  timers : b.reconnectTimers = a.reconnectTimers

theorem Registered.mono {s t : State Key} {g : Nat} (h : Registered s g) (hfresh : s.fresh ≤ t.fresh)
    (hgroups : t.groups = s.groups) (hkey : (t.heap g).key = (s.heap g).key)
    (hstopped : (t.heap g).stopped = (s.heap g).stopped) : Registered t g := by
  refine ⟨Nat.lt_of_lt_of_le h.1 hfresh, ?_⟩
  rw [hkey, hstopped, hgroups]
  exact h.2

theorem underWay_streamed {g : Nat} {source : AccountSource} {call : Call Key}
    (h : underWay g source call = true) : streamed call = some g := by
  cases call <;> simp_all [underWay, streamed]

theorem Tidy.idle_fresh {s : State Key} (hs : Tidy s) (source : AccountSource) :
    activity s s.fresh source = 0 := by
  have hcalls : s.calls.countP (underWay s.fresh source) = 0 := by
    rw [List.countP_eq_zero]
    intro call hcall hway
    exact Nat.lt_irrefl _ (hs.calls call hcall s.fresh (underWay_streamed hway)).1
  have htimers : s.timers.countP (waitsFor s.fresh source) = 0 := by
    rw [List.countP_eq_zero]
    intro timer htimer hwait
    simp only [waitsFor, Bool.and_eq_true, decide_eq_true_eq] at hwait
    exact absurd (hs.timers timer htimer).1 (hwait.1 ▸ Nat.lt_irrefl _)
  have hstreams : s.streams.countP (isOpenFor s.fresh source) = 0 := by
    rw [List.countP_eq_zero]
    intro stream hstream hopen
    simp only [isOpenFor, Bool.and_eq_true, decide_eq_true_eq] at hopen
    exact absurd (hs.streams stream hstream).1 (hopen.2.1 ▸ Nat.lt_irrefl _)
  simp only [activity]
  omega

theorem tidy_of_same {s t : State Key} (hs : Tidy s) (hfresh : s.fresh ≤ t.fresh)
    (hgroups : t.groups = s.groups) (hheap : ∀ g, SameGroup (s.heap g) (t.heap g))
    (hstreams : t.streams = s.streams) (htimers : t.timers = s.timers)
    (hcalls : ∀ call ∈ t.calls, call ∈ s.calls ∨ ∀ g ∈ streamed call, Registered s g)
    (hcount : ∀ g source, t.calls.countP (underWay g source) ≤ s.calls.countP (underWay g source)) :
    Tidy t := by
  have hreg {g : Nat} (h : Registered s g) : Registered t g :=
    h.mono hfresh hgroups (hheap g).key (hheap g).stopped
  refine ⟨?_, ?_, ?_, ?_, ?_, ?_, ?_⟩
  · intro g source
    have hsingle := hs.single g source
    have hle := hcount g source
    simp only [activity] at hsingle ⊢
    rw [htimers, hstreams]
    omega
  · intro stream hstream hopen
    rw [hstreams] at hstream
    rw [(hheap _).closers]
    exact hs.closer stream hstream hopen
  · intro timer htimer
    rw [htimers] at htimer
    rw [(hheap _).timers]
    exact hs.handle timer htimer
  · intro stream hstream hopen
    rw [hstreams] at hstream
    rw [(hheap _).stopped]
    exact hs.running stream hstream hopen
  · intro call hcall g hg
    rcases hcalls call hcall with hold | hnew
    · exact hreg (hs.calls call hold g hg)
    · exact hreg (hnew g hg)
  · intro timer htimer
    rw [htimers] at htimer
    exact hreg (hs.timers timer htimer)
  · intro stream hstream
    rw [hstreams] at hstream
    exact hreg (hs.streams stream hstream)

theorem SameGroup.refl (group : StreamGroup Key) : SameGroup group group := ⟨rfl, rfl, rfl, rfl⟩

theorem sameGroup_update {heap : Nat → StreamGroup Key} {g : Nat} {group : StreamGroup Key}
    (h : SameGroup (heap g) group) (other : Nat) :
    SameGroup (heap other) (Function.update heap g group other) := by
  by_cases hg : other = g
  · subst hg; rwa [Function.update_self]
  · rw [Function.update_of_ne hg]; exact .refl _

theorem tidy_push {s : State Key} (hs : Tidy s) {call : Call Key}
    (hcall : ∀ g ∈ streamed call, Registered s g) (hway : ∀ g source, underWay g source call = false) :
    Tidy (s.push call) := by
  refine tidy_of_same hs (Nat.le_refl _) rfl (fun _ => .refl _) rfl rfl ?_ ?_
  · intro other hother
    rcases List.mem_append.mp hother with hold | hnew
    · exact .inl hold
    · exact .inr (List.mem_singleton.mp hnew ▸ hcall)
  · intro g source
    simp [State.push, List.countP_append, hway]

theorem tidy_push_other {s : State Key} (hs : Tidy s) {call : Call Key} (hcall : streamed call = none) :
    Tidy (s.push call) := by
  refine tidy_push hs (by simp [hcall]) ?_
  intro g source
  cases hway : underWay g source call with
  | false => rfl
  | true => rw [underWay_streamed hway] at hcall; cases hcall

theorem tidy_push_for {s : State Key} (hs : Tidy s) {call : Call Key} {g : Nat}
    (hcall : streamed call = some g) (hg : Registered s g)
    (hway : ∀ h source, underWay h source call = false) : Tidy (s.push call) := by
  refine tidy_push hs ?_ hway
  intro h hh
  rw [hcall, Option.mem_some_iff] at hh
  exact hh ▸ hg

theorem activity_push (s : State Key) (call : Call Key) (g : Nat) (source : AccountSource) :
    activity (s.push call) g source = activity s g source + if underWay g source call then 1 else 0 := by
  simp only [activity, State.push, List.countP_append, List.countP_singleton]
  omega

theorem tidy_push_underWay {s : State Key} (hs : Tidy s) {call : Call Key}
    (hcall : ∀ g ∈ streamed call, Registered s g)
    (hroom : ∀ g source, underWay g source call = true → activity s g source = 0) : Tidy (s.push call) := by
  refine ⟨?_, hs.closer, hs.handle, hs.running, ?_, hs.timers, hs.streams⟩
  · intro g source
    rw [activity_push]
    cases hway : underWay g source call with
    | true => simp [hroom g source hway]
    | false => simpa using hs.single g source
  · intro other hother
    rcases List.mem_append.mp hother with hold | hnew
    · exact hs.calls other hold
    · exact List.mem_singleton.mp hnew ▸ hcall

theorem no_open_of_room {s : State Key} {g : Nat} {source : AccountSource} (h : activity s g source = 0)
    {stream : Stream} (hstream : stream ∈ s.streams) (hopen : stream.isOpen = true) :
    ¬ (stream.group = g ∧ stream.source = source) := by
  intro hgs
  have hzero : s.streams.countP (isOpenFor g source) = 0 := by unfold activity at h; omega
  exact List.countP_eq_zero.mp hzero stream hstream (by simp [isOpenFor, hopen, hgs])

theorem no_timer_of_room {s : State Key} {g : Nat} {source : AccountSource} (h : activity s g source = 0)
    {timer : Timer} (htimer : timer ∈ s.timers) : ¬ (timer.group = g ∧ timer.source = source) := by
  intro hgs
  have hzero : s.timers.countP (waitsFor g source) = 0 := by unfold activity at h; omega
  exact List.countP_eq_zero.mp hzero timer htimer (by simp [waitsFor, hgs])

theorem field_of_update {α : Type} {s t : State Key} {g : Nat} {group : StreamGroup Key}
    (hheap : t.heap = Function.update s.heap g group) (field : StreamGroup Key → α)
    (hgroup : field group = field (s.heap g)) (h : Nat) : field (t.heap h) = field (s.heap h) := by
  rw [hheap]
  by_cases hg : h = g
  · rw [hg, Function.update_self, hgroup]
  · rw [Function.update_of_ne hg]

theorem entry_of_update {s t : State Key} {g h : Nat} {source other : AccountSource}
    {group : StreamGroup Key} {value : Option Nat} (hheap : t.heap = Function.update s.heap g group)
    (field : StreamGroup Key → AccountSource → Option Nat)
    (hgroup : field group = Function.update (field (s.heap g)) source value)
    (hne : ¬ (h = g ∧ other = source)) : field (t.heap h) other = field (s.heap h) other := by
  rw [hheap]
  by_cases hg : h = g
  · have hother : other ≠ source := fun ho => hne ⟨hg, ho⟩
    rw [hg, Function.update_self, hgroup, Function.update_of_ne hother]
  · rw [Function.update_of_ne hg]

theorem registered_of_update {s t : State Key} {g : Nat} {group : StreamGroup Key}
    (hheap : t.heap = Function.update s.heap g group) (hkey : group.key = (s.heap g).key)
    (hstopped : group.stopped = (s.heap g).stopped) (hfresh : s.fresh ≤ t.fresh)
    (hgroups : t.groups = s.groups) {h : Nat} (hh : Registered s h) : Registered t h :=
  hh.mono hfresh hgroups (field_of_update hheap StreamGroup.key hkey h)
    (field_of_update hheap StreamGroup.stopped hstopped h)

end Savitools.Monitor.StreamActivity

namespace Savitools.Monitor.StreamRecovery

open Stores.Table Monitor.Types StreamManager StreamActivity

variable {Key : Type}

theorem tidy_stream {s : State Key} {g : Nat} {source : AccountSource} (hs : Tidy s)
    (hg : Registered s g) (hroom : activity s g source = 0) (hrunning : (s.heap g).stopped = false) :
    Tidy (stream s g source) := by
  have hheap : (stream s g source).heap = Function.update s.heap g _ := rfl
  have hreg {h : Nat} (hh : Registered s h) : Registered (stream s g source) h :=
    registered_of_update hheap rfl rfl (Nat.le_succ _) rfl hh
  have hstopped := field_of_update hheap StreamGroup.stopped rfl
  refine ⟨?_, ?_, ?_, ?_, ?_, ?_, ?_⟩
  · intro h other
    have hsingle := hs.single h other
    simp only [activity, stream, State.setGroup, List.countP_append, List.countP_singleton, isOpenFor,
      Bool.true_and, Bool.and_eq_true, decide_eq_true_eq] at hroom hsingle ⊢
    split
    next hgs => obtain ⟨rfl, rfl⟩ := hgs; omega
    next => omega
  · intro st hst hopen
    rcases List.mem_append.mp hst with hold | hnew
    · rw [entry_of_update hheap StreamGroup.closers rfl (no_open_of_room hroom hold hopen)]
      exact hs.closer st hold hopen
    · rw [List.mem_singleton.mp hnew, hheap]
      simp
  · intro timer htimer
    rw [field_of_update hheap StreamGroup.reconnectTimers rfl]
    exact hs.handle timer htimer
  · intro st hst hopen
    rw [hstopped]
    rcases List.mem_append.mp hst with hold | hnew
    · exact hs.running st hold hopen
    · rw [List.mem_singleton.mp hnew]
      exact hrunning
  · exact fun call hcall h hh => hreg (hs.calls call hcall h hh)
  · exact fun timer htimer => hreg (hs.timers timer htimer)
  · intro st hst
    rcases List.mem_append.mp hst with hold | hnew
    · exact hreg (hs.streams st hold)
    · exact List.mem_singleton.mp hnew ▸ hreg hg

theorem tidy_setReconnectTimer {s : State Key} {g : Nat} {source : AccountSource} (hs : Tidy s)
    (hg : Registered s g) (hroom : activity s g source = 0) : Tidy (setReconnectTimer s g source) := by
  have hheap : (setReconnectTimer s g source).heap = Function.update s.heap g _ := rfl
  have hreg {h : Nat} (hh : Registered s h) : Registered (setReconnectTimer s g source) h :=
    registered_of_update hheap rfl rfl (Nat.le_succ _) rfl hh
  refine ⟨?_, ?_, ?_, ?_, ?_, ?_, ?_⟩
  · intro h other
    have hsingle := hs.single h other
    simp only [activity, setReconnectTimer, State.setGroup, List.countP_append, List.countP_singleton,
      waitsFor, Bool.and_eq_true, decide_eq_true_eq] at hroom hsingle ⊢
    split
    next hgs => obtain ⟨rfl, rfl⟩ := hgs; omega
    next => omega
  · intro st hst hopen
    rw [field_of_update hheap StreamGroup.closers rfl]
    exact hs.closer st hst hopen
  · intro timer htimer
    rcases List.mem_append.mp htimer with hold | hnew
    · rw [entry_of_update hheap StreamGroup.reconnectTimers rfl (no_timer_of_room hroom hold)]
      exact hs.handle timer hold
    · rw [List.mem_singleton.mp hnew, hheap]
      simp
  · intro st hst hopen
    rw [field_of_update hheap StreamGroup.stopped rfl]
    exact hs.running st hst hopen
  · exact fun call hcall h hh => hreg (hs.calls call hcall h hh)
  · intro timer htimer
    rcases List.mem_append.mp htimer with hold | hnew
    · exact hreg (hs.timers timer hold)
    · exact List.mem_singleton.mp hnew ▸ hreg hg
  · exact fun st hst => hreg (hs.streams st hst)

theorem mem_closeStream {closer : Option Nat} {streams : List Stream} {st : Stream}
    (h : st ∈ closeStream closer streams) :
    ∃ old ∈ streams, st.id = old.id ∧ st.group = old.group ∧ st.source = old.source ∧
      (st.isOpen = true → old.isOpen = true ∧ closer ≠ some old.id) := by
  obtain ⟨old, hold, rfl⟩ := mem_update.mp h
  refine ⟨old, hold, ?_⟩
  by_cases hc : closer = some old.id <;> simp [hc]

theorem countP_closeStream_le (closer : Option Nat) (streams : List Stream) (g : Nat)
    (source : AccountSource) :
    (closeStream closer streams).countP (isOpenFor g source) ≤ streams.countP (isOpenFor g source) :=
  countP_update_le (fun _ _ _ => rfl)

theorem tidy_disconnect {s : State Key} (hs : Tidy s) (g : Nat) (source : AccountSource) :
    Tidy (disconnect s g source) := by
  have hheap : (disconnect s g source).heap = Function.update s.heap g _ := rfl
  have hreg {h : Nat} (hh : Registered s h) : Registered (disconnect s g source) h :=
    registered_of_update hheap rfl rfl (Nat.le_refl _) rfl hh
  refine ⟨?_, ?_, ?_, ?_, ?_, ?_, ?_⟩
  · intro h other
    have hsingle := hs.single h other
    have hle := countP_closeStream_le ((s.heap g).closers source) s.streams h other
    simp only [activity, disconnect, State.setGroup] at hsingle ⊢
    omega
  · intro st hst hopen
    obtain ⟨old, hold, hid, hgroup, hsource, hstays⟩ := mem_closeStream hst
    have hcloser := hs.closer old hold (hstays hopen).1
    rw [hid, hgroup, hsource]
    rw [entry_of_update hheap StreamGroup.closers rfl]
    · exact hcloser
    · rintro ⟨rfl, rfl⟩
      exact (hstays hopen).2 hcloser
  · intro timer htimer
    rw [field_of_update hheap StreamGroup.reconnectTimers rfl]
    exact hs.handle timer htimer
  · intro st hst hopen
    obtain ⟨old, hold, -, hgroup, -, hstays⟩ := mem_closeStream hst
    rw [hgroup, field_of_update hheap StreamGroup.stopped rfl]
    exact hs.running old hold (hstays hopen).1
  · exact fun call hcall h hh => hreg (hs.calls call hcall h hh)
  · exact fun timer htimer => hreg (hs.timers timer htimer)
  · intro st hst
    obtain ⟨old, hold, -, hgroup, -⟩ := mem_closeStream hst
    exact hgroup ▸ hreg (hs.streams old hold)

theorem disconnected {s : State Key} (hs : Tidy s) (g : Nat) (source : AccountSource) :
    (disconnect s g source).streams.countP (isOpenFor g source) = 0 := by
  rw [List.countP_eq_zero]
  intro st hst hopen
  simp only [isOpenFor, Bool.and_eq_true, decide_eq_true_eq] at hopen
  obtain ⟨old, hold, -, hgroup, hsource, hstays⟩ := mem_closeStream hst
  have hcloser := hs.closer old hold (hstays hopen.1).1
  rw [← hgroup, ← hsource, hopen.2.1, hopen.2.2] at hcloser
  exact (hstays hopen.1).2 hcloser

/-- What a call of `reconnect` does that passes its own check: it closes the one
open stream of the source, if there is any, and goes on to write the status. -/
theorem tidy_reconnect {s : State Key} {g : Nat} {source : AccountSource} (hs : Tidy s)
    (hg : Registered s g)
    (hquiet : (s.heap g).stopped = false → (s.heap g).reconnectTimers source = none →
      s.calls.countP (underWay g source) = 0) : Tidy (reconnect s g source) := by
  simp only [reconnect]
  split
  next => exact hs
  next hpass =>
    simp only [Bool.or_eq_true, not_or, Bool.not_eq_true, Option.isSome_eq_false_iff,
      Option.isNone_iff_eq_none] at hpass
    have hcalls := hquiet hpass.1 hpass.2
    have htimers : s.timers.countP (waitsFor g source) = 0 := by
      rw [List.countP_eq_zero]
      intro timer htimer hwait
      simp only [waitsFor, Bool.and_eq_true, decide_eq_true_eq] at hwait
      have hhandle := hs.handle timer htimer
      rw [hwait.1, hwait.2, hpass.2] at hhandle
      cases hhandle
    have hroom : activity (disconnect s g source) g source = 0 := by
      have hclosed := disconnected hs g source
      have hsame : activity (disconnect s g source) g source =
          s.calls.countP (underWay g source) + s.timers.countP (waitsFor g source) +
            (disconnect s g source).streams.countP (isOpenFor g source) := rfl
      omega
    refine tidy_push_underWay (tidy_disconnect hs g source) ?_ ?_
    · intro h hh
      rw [streamed, Option.mem_some_iff] at hh
      subst hh
      have hheap : (disconnect s g source).heap = Function.update s.heap g _ := rfl
      exact registered_of_update hheap rfl rfl (Nat.le_refl _) rfl hg
    · intro h other hway
      simp only [underWay, Bool.and_eq_true, decide_eq_true_eq] at hway
      obtain ⟨rfl, rfl⟩ := hway
      exact hroom

theorem expired {s : State Key} (hs : Tidy s) {timer : Timer} (ht : timer ∈ s.timers) :
    activity (expire s timer) timer.group timer.source = 0 := by
  have hsingle := hs.single timer.group timer.source
  have hlt : (expire s timer).timers.countP (waitsFor timer.group timer.source) <
      s.timers.countP (waitsFor timer.group timer.source) :=
    countP_delete_lt ht (by simp) (by simp [waitsFor])
  have hsame : activity (expire s timer) timer.group timer.source =
      s.calls.countP (underWay timer.group timer.source) +
        (expire s timer).timers.countP (waitsFor timer.group timer.source) +
          s.streams.countP (isOpenFor timer.group timer.source) := rfl
  simp only [activity] at hsingle
  omega

theorem tidy_expire {s : State Key} (hs : Tidy s) {timer : Timer} (ht : timer ∈ s.timers) :
    Tidy (expire s timer) := by
  have hroom := expired hs ht
  have hheap : (expire s timer).heap = Function.update s.heap timer.group _ := rfl
  have hreg {h : Nat} (hh : Registered s h) : Registered (expire s timer) h :=
    registered_of_update hheap rfl rfl (Nat.le_refl _) rfl hh
  have hsub {other : Timer} (hother : other ∈ (expire s timer).timers) : other ∈ s.timers :=
    (mem_delete.mp hother).1
  refine ⟨?_, ?_, ?_, ?_, ?_, ?_, ?_⟩
  · intro h other
    have hsingle := hs.single h other
    have hle := countP_delete_le (fun other => decide (other.id = timer.id)) (waitsFor h other) s.timers
    simp only [activity, expire, State.setGroup] at hsingle ⊢
    omega
  · intro st hst hopen
    rw [field_of_update hheap StreamGroup.closers rfl]
    exact hs.closer st hst hopen
  · intro other hother
    rw [entry_of_update hheap StreamGroup.reconnectTimers rfl (no_timer_of_room hroom hother)]
    exact hs.handle other (hsub hother)
  · intro st hst hopen
    rw [field_of_update hheap StreamGroup.stopped rfl]
    exact hs.running st hst hopen
  · exact fun call hcall h hh => hreg (hs.calls call hcall h hh)
  · exact fun other hother => hreg (hs.timers other (hsub hother))
  · exact fun st hst => hreg (hs.streams st hst)

end Savitools.Monitor.StreamRecovery
