import Mathlib.Data.List.ReduceOption
import Mathlib.Data.List.Perm.Basic
import Mathlib.Logic.Function.Iterate
import Savitools.Outbound.RedirectContainment
import Savitools.Transitions.Runs

namespace Savitools.Contracts.ReplaySchedules

open Strings.CodeUnits Net.Urls Net.GuardedChains Transitions.Runs Webhook.Signature Contracts.EventReplays
open Common.Exceptions Net.PlainUrls Transitions.Loops Outbound.Destinations Outbound.RedirectContainment

def REPLAY_CONCURRENCY : Nat := 4

/-- A replay while its workers wait. A worker has the index of the delivery it waits for, or `none`
once it has returned; a slot of `results` has `none` while it is a hole. -/
structure Replaying where
  next : Nat
  workers : List (Option Nat)
  results : List (Option ReplayResult)
  called : List Nat

/-- `const index = next++`, and then the call of `deliverOne` or the end of the worker. -/
def takeIndex (count : Nat) (s : Replaying) : Option Nat × Replaying :=
  if count ≤ s.next then (none, { s with next := s.next + 1 })
  else (some s.next, { s with next := s.next + 1, called := s.called ++ [s.next] })

def startWorker (count : Nat) (s : Replaying) : Replaying :=
  let taken := takeIndex count s
  { taken.2 with workers := taken.2.workers ++ [taken.1] }

/-- The workers run one after another, each up to its first `await`. -/
def startWorkers (count : Nat) : Replaying :=
  (startWorker count)^[min REPLAY_CONCURRENCY count] ⟨0, [], List.replicate count none, []⟩

/-- The worker goes on with what its delivery has come to. -/
def resume (count : Nat) (deliver : Nat → Option ReplayResult) (s : Replaying) (worker : Nat) : Option Replaying := do
  let index ← s.workers[worker]?.join
  let result ← deliver index
  let taken := takeIndex count { s with results := s.results.set index (some result) }
  some { taken.2 with workers := taken.2.workers.set worker taken.1 }

/-- What is returned after `Promise.all(workers)`. -/
def summary (secret : Text) (s : Replaying) : ReplaySummary :=
  let results := s.results.reduceOption
  let delivered := (results.filter fun result => result.ok).length
  ⟨delivered, s.results.length - delivered, results, secret⟩

def inFlight (s : Replaying) : List Nat := s.workers.reduceOption

def Returned (s : Replaying) : Prop := ∀ worker ∈ s.workers, worker = none

/-- What holds whenever the workers wait: no index has had two deliveries, few deliveries are in flight,
each slot has the outcome of its own event once that has come, and the replay can go on. -/
structure OnceEach (count : Nat) (deliver : Nat → Option ReplayResult) (s : Replaying) : Prop where
  once : s.called.Nodup ∧ ∀ index ∈ s.called, index < count
  few : (inFlight s).length ≤ REPLAY_CONCURRENCY
  told : ∀ index < count,
    s.results[index]? = some (if index ∈ s.called ∧ index ∉ inFlight s then deliver index else none)
  goesOn : ¬Returned s → ∃ worker, (resume count deliver s worker).isSome = true

/-- What holds once the workers have returned. -/
structure Complete (count : Nat) (deliver : Nat → Option ReplayResult) (secret : Text) (s : Replaying) : Prop where
  each : ∀ index < count, s.called.count index = 1
  outcomes : ∀ index < count, (summary secret s).results[index]? = deliver index
  length : (summary secret s).results.length = count
  sum : (summary secret s).delivered + (summary secret s).failed = count

section Workers

variable {count : Nat} {deliver : Nat → Option ReplayResult}

theorem returned_iff {s : Replaying} : Returned s ↔ inFlight s = [] := by
  rw [inFlight, List.reduceOption, List.filterMap_eq_nil_iff]
  rfl

/-- The cursor says which deliveries have been called, and all of these are over but those in flight. -/
structure Kept (count : Nat) (deliver : Nat → Option ReplayResult) (s : Replaying) : Prop where
  called : s.called = List.range (min s.next count)
  workers : s.workers.length = min REPLAY_CONCURRENCY count
  flying : (inFlight s).Nodup
  flown : inFlight s ⊆ s.called
  ended : none ∈ s.workers → count ≤ s.next
  length : s.results.length = count
  told : ∀ index < count,
    s.results[index]? = some (if index ∈ s.called ∧ index ∉ inFlight s then deliver index else none)

theorem startWorkers_iterate {n : Nat} (hn : n ≤ count) :
    (startWorker count)^[n] ⟨0, [], List.replicate count none, []⟩ =
      ⟨n, (List.range n).map some, List.replicate count none, List.range n⟩ := by
  induction n with
  | zero => rfl
  | succ n ih =>
      have hlt : ¬count ≤ n := Nat.not_le_of_lt hn
      rw [Function.iterate_succ_apply', ih (Nat.le_of_succ_le hn)]
      simp [startWorker, takeIndex, hlt, List.range_succ]

theorem reduceOption_map_some {α : Type} {l : List α} : (l.map some).reduceOption = l := by
  rw [List.reduceOption, List.filterMap_map]
  exact List.filterMap_some

theorem kept_start : Kept count deliver (startWorkers count) := by
  rw [startWorkers, startWorkers_iterate (Nat.min_le_right _ _)]
  have hfew : min (min REPLAY_CONCURRENCY count) count = min REPLAY_CONCURRENCY count :=
    Nat.min_eq_left (Nat.min_le_right _ _)
  refine ⟨by rw [hfew], by simp, ?_, ?_, by simp, by simp, fun index hindex => ?_⟩
  · rw [inFlight, reduceOption_map_some]
    exact List.nodup_range
  · rw [inFlight, reduceOption_map_some]
    exact List.Subset.refl _
  · rw [inFlight, reduceOption_map_some, if_neg (fun h => h.2 h.1)]
    simp [hindex]

/-- The worker that goes on, among the others. -/
theorem resume_eq_some {s t : Replaying} {worker : Nat} (h : resume count deliver s worker = some t) :
    ∃ before index after result, s.workers = before ++ some index :: after ∧ deliver index = some result ∧
      t.results = s.results.set index (some result) ∧ t.next = s.next + 1 ∧
      ((count ≤ s.next ∧ t.called = s.called ∧ t.workers = before ++ none :: after) ∨
        (s.next < count ∧ t.called = s.called ++ [s.next] ∧ t.workers = before ++ some s.next :: after)) := by
  rw [resume] at h
  simp only [Option.bind_eq_bind, Option.bind_eq_some_iff, Option.some.injEq] at h
  obtain ⟨index, hindex, result, hresult, rfl⟩ := h
  obtain ⟨hworker, hget⟩ := List.getElem?_eq_some_iff.mp (Option.join_eq_some_iff.mp hindex)
  have hbefore : s.workers = s.workers.take worker ++ some index :: s.workers.drop (worker + 1) := by
    rw [← hget, List.getElem_cons_drop, List.take_append_drop]
  refine ⟨s.workers.take worker, index, s.workers.drop (worker + 1), result, hbefore, hresult, ?_⟩
  by_cases hnext : count ≤ s.next
  · simp [takeIndex, hnext, List.set_eq_take_append_cons_drop, hworker]
  · simp [takeIndex, hnext, List.set_eq_take_append_cons_drop, hworker, Nat.lt_of_not_le hnext]

/-- Where one of the deliveries in flight is over, and perhaps the next one begins. -/
theorem inFlight_resumed {before after : List (Option Nat)} {index : Nat} {s t : Replaying} {next : Option Nat}
    (hs : s.workers = before ++ some index :: after) (ht : t.workers = before ++ next :: after) :
    ∃ others, (inFlight s).Perm (index :: others) ∧ (inFlight t).Perm (next.toList ++ others) := by
  refine ⟨before.reduceOption ++ after.reduceOption, ?_, ?_⟩
  · rw [inFlight, hs, List.reduceOption_append, List.reduceOption_cons_of_some]
    exact List.perm_middle
  · rw [inFlight, ht, List.reduceOption_append]
    cases next with
    | none => exact .refl _
    | some next => exact List.perm_middle

theorem kept_preserved : Preserves (resume count deliver) always (Kept count deliver) := by
  intro s worker t hs _ hstep
  obtain ⟨before, index, after, result, hworkers, hresult, hresults, hnext, hcases⟩ := resume_eq_some hstep
  have hindex : index ∈ s.called := hs.flown (by simp [inFlight, hworkers, List.reduceOption])
  have hlt : index < min s.next count := by simpa [hs.called] using hindex
  have hlength : t.results.length = count := by rw [hresults, List.length_set, hs.length]
  have htold {others : List Nat} (hothers : index ∉ others) (hflying : ∀ i, i ∈ inFlight s ↔ i = index ∨ i ∈ others)
      (hcalled : ∀ i < count, (i ∈ t.called ∧ i ∉ inFlight t) ↔ (i ∈ s.called ∧ i ∉ others)) :
      ∀ i < count, t.results[i]? = some (if i ∈ t.called ∧ i ∉ inFlight t then deliver i else none) := by
    intro i hi
    rw [hresults, List.getElem?_set]
    by_cases heq : index = i
    · subst heq
      rw [if_pos rfl, if_pos (hs.length.symm ▸ hi), if_pos ((hcalled index hi).mpr ⟨hindex, hothers⟩), hresult]
    · rw [if_neg heq, hs.told i hi]
      simp only [hcalled i hi, hflying, not_or, Ne.symm heq, not_false_eq_true, true_and]
  rcases hcases with ⟨hdone, hcalled, hworkers'⟩ | ⟨hmore, hcalled, hworkers'⟩
  · obtain ⟨others, hbefore, hafter⟩ := inFlight_resumed hworkers hworkers'
    have hnodup := hbefore.nodup_iff.mp hs.flying
    rw [List.nodup_cons] at hnodup
    have hflying (i : Nat) : i ∈ inFlight s ↔ i = index ∨ i ∈ others := by rw [hbefore.mem_iff, List.mem_cons]
    have hflying' (i : Nat) : i ∈ inFlight t ↔ i ∈ others := hafter.mem_iff
    refine ⟨?_, ?_, hafter.nodup_iff.mpr hnodup.2, ?_, fun _ => by omega, hlength, ?_⟩
    · rw [hcalled, hs.called, hnext, Nat.min_eq_right hdone, Nat.min_eq_right (Nat.le_succ_of_le hdone)]
    · rw [hworkers', ← hs.workers, hworkers]
      simp
    · intro i hi
      rw [hcalled]
      exact hs.flown ((hflying i).mpr (.inr ((hflying' i).mp hi)))
    · refine htold hnodup.1 hflying fun i _ => ?_
      rw [hcalled, hflying']
  · obtain ⟨others, hbefore, hafter⟩ := inFlight_resumed hworkers hworkers'
    have hnodup := hbefore.nodup_iff.mp hs.flying
    rw [List.nodup_cons] at hnodup
    have hflying (i : Nat) : i ∈ inFlight s ↔ i = index ∨ i ∈ others := by rw [hbefore.mem_iff, List.mem_cons]
    have hflying' (i : Nat) : i ∈ inFlight t ↔ i = s.next ∨ i ∈ others := by rw [hafter.mem_iff]; simp
    have hnew : s.next ∉ s.called := by simp [hs.called]
    have hothers : s.next ∉ others := fun h => hnew (hs.flown ((hflying _).mpr (.inr h)))
    refine ⟨?_, ?_, hafter.nodup_iff.mpr (List.nodup_cons.mpr ⟨hothers, hnodup.2⟩), ?_, ?_, hlength, ?_⟩
    · rw [hcalled, hs.called, hnext, Nat.min_eq_left hmore, Nat.min_eq_left (Nat.le_of_lt hmore), List.range_succ]
    · rw [hworkers', ← hs.workers, hworkers]
      simp
    · intro i hi
      rw [hcalled, List.mem_append, List.mem_singleton]
      rcases (hflying' i).mp hi with heq | hold
      · exact .inr heq
      · exact .inl (hs.flown ((hflying i).mpr (.inr hold)))
    · intro hnone
      have hended := hs.ended (by simpa [hworkers, hworkers'] using hnone)
      omega
    · refine htold hnodup.1 hflying fun i _ => ?_
      rw [hcalled, hflying', List.mem_append, List.mem_singleton]
      by_cases heq : i = s.next
      · subst heq
        simp [hnew]
      · simp [heq]

variable (count deliver) in
theorem kept_run {schedule : List Nat} {s : Replaying}
    (h : run (resume count deliver) (startWorkers count) schedule = some s) : Kept count deliver s :=
  kept_preserved.run_always kept_start h

theorem Kept.onceEach (hdeliver : ∀ index, (deliver index).isSome = true) {s : Replaying} (hs : Kept count deliver s) :
    OnceEach count deliver s where
  once := by
    rw [hs.called]
    exact ⟨List.nodup_range, fun index hindex => by simpa using (List.mem_range.mp hindex).trans_le (Nat.min_le_right _ _)⟩
  few := (List.reduceOption_length_le _).trans (by rw [hs.workers]; exact Nat.min_le_left _ _)
  told := hs.told
  goesOn := fun hwaits => by
    obtain ⟨_ | index, hmem, hsome⟩ : ∃ worker ∈ s.workers, worker ≠ none := by simpa [Returned] using hwaits
    · exact absurd rfl hsome
    · obtain ⟨worker, hworker⟩ := List.getElem?_of_mem hmem
      obtain ⟨result, hresult⟩ := Option.isSome_iff_exists.mp (hdeliver index)
      exact ⟨worker, by simp [resume, hworker, hresult]⟩

theorem Kept.called_of_returned {s : Replaying} (hs : Kept count deliver s) (hreturned : Returned s) :
    s.called = List.range count := by
  have hended : count ≤ s.next := by
    by_cases hcount : count = 0
    · exact hcount ▸ Nat.zero_le _
    · have hpos : 0 < s.workers.length := by
        rw [hs.workers, REPLAY_CONCURRENCY]
        omega
      have hmem := List.getElem_mem hpos
      rw [hreturned _ hmem] at hmem
      exact hs.ended hmem
  rw [hs.called, Nat.min_eq_right hended]

theorem Kept.results_of_returned (hdeliver : ∀ index, (deliver index).isSome = true) {s : Replaying}
    (hs : Kept count deliver s) (hreturned : Returned s) :
    ∃ outcome, (∀ index, deliver index = some (outcome index)) ∧ s.results = ((List.range count).map outcome).map some := by
  obtain ⟨outcome, houtcome⟩ := Classical.axiomOfChoice fun index => Option.isSome_iff_exists.mp (hdeliver index)
  refine ⟨outcome, houtcome, List.ext_getElem? fun i => ?_⟩
  by_cases hi : i < count
  · rw [hs.told i hi]
    simp [hs.called_of_returned hreturned, returned_iff.mp hreturned, hi, houtcome]
  · rw [List.getElem?_eq_none (by rw [hs.length]; omega), List.getElem?_eq_none (by simpa using hi)]

theorem Kept.complete (hdeliver : ∀ index, (deliver index).isSome = true) (secret : Text) {s : Replaying}
    (hs : Kept count deliver s) (hreturned : Returned s) : Complete count deliver secret s := by
  obtain ⟨outcome, houtcome, hresults⟩ := hs.results_of_returned hdeliver hreturned
  have hsummary : (summary secret s).results = (List.range count).map outcome := by
    rw [summary, hresults, reduceOption_map_some]
  refine ⟨fun index hindex => ?_, fun index hindex => ?_, ?_, ?_⟩
  · rw [hs.called_of_returned hreturned]
    exact List.count_eq_one_of_mem List.nodup_range (List.mem_range.mpr hindex)
  · rw [hsummary, houtcome]
    simp [hindex]
  · rw [hsummary, List.length_map, List.length_range]
  · have hle := List.length_filter_le (fun result : ReplayResult => result.ok) ((List.range count).map outcome)
    rw [List.length_map, List.length_range] at hle
    simp only [summary, hresults, reduceOption_map_some, List.length_map, List.length_range]
    omega

/-- Every step ends one delivery, so that the deliveries in flight and those which have ended make up the calls. -/
theorem called_resumed {s t : Replaying} {worker : Nat} (h : resume count deliver s worker = some t) :
    t.called.length + (inFlight s).length = s.called.length + (inFlight t).length + 1 := by
  obtain ⟨before, index, after, result, hworkers, -, -, -, hcases⟩ := resume_eq_some h
  rcases hcases with ⟨-, hcalled, hworkers'⟩ | ⟨-, hcalled, hworkers'⟩
  · obtain ⟨others, hbefore, hafter⟩ := inFlight_resumed hworkers hworkers'
    rw [hcalled, hbefore.length_eq, hafter.length_eq, List.length_cons]
    simp only [Option.toList_none, List.nil_append]
    omega
  · obtain ⟨others, hbefore, hafter⟩ := inFlight_resumed hworkers hworkers'
    rw [hcalled, hbefore.length_eq, hafter.length_eq, List.length_cons, List.length_append]
    simp only [Option.toList_some, List.singleton_append, List.length_cons, List.length_nil]
    omega

theorem called_run {schedule : List Nat} {s t : Replaying} (h : run (resume count deliver) s schedule = some t) :
    t.called.length + (inFlight s).length = s.called.length + (inFlight t).length + schedule.length := by
  induction schedule generalizing s with
  | nil =>
      obtain rfl := Option.some.inj h
      rfl
  | cons worker schedule ih =>
      obtain ⟨u, hu, ht⟩ := run_cons.mp h
      have hstep := called_resumed hu
      have hrest := ih ht
      rw [List.length_cons]
      omega

/-- The workers have returned when as many deliveries have ended as there are events. -/
theorem length_schedule {schedule : List Nat} {s : Replaying}
    (h : run (resume count deliver) (startWorkers count) schedule = some s) :
    schedule.length ≤ count ∧ (Returned s ↔ schedule.length = count) := by
  have hs := kept_run count deliver h
  have hcalled := called_run h
  have hstart : (startWorkers count).called.length = (inFlight (startWorkers count)).length := by
    rw [startWorkers, startWorkers_iterate (Nat.min_le_right _ _), inFlight, reduceOption_map_some]
  have hle : s.called.length ≤ count := by
    rw [hs.called, List.length_range]
    exact Nat.min_le_right _ _
  refine ⟨by omega, fun hreturned => ?_, fun hlength => ?_⟩
  · rw [hs.called_of_returned hreturned, List.length_range, returned_iff.mp hreturned, List.length_nil] at hcalled
    omega
  · rw [returned_iff, ← List.length_eq_zero_iff]
    omega

end Workers

variable {Url : Type} {urls : Urls Url} {hmac : Bytes → Bytes → Digest} {replay : Replay Url} {dto : ReplayEventsDto}

variable (urls hmac replay dto) in
/-- A delivery ends, whatever its peers answer. -/
theorem delivery_isSome (destination : Url) {fuel : Nat} (hfuel : MAX_SAFE_REDIRECTS + 1 < fuel) (index : Nat) :
    (delivery urls hmac replay dto destination index fuel).result.isSome = true := by
  have hends : Outbound.Destinations.MAX_WEBHOOK_REDIRECTS + 1 - 0 < fuel := hfuel
  obtain ⟨r, hr⟩ := redirects_end urls (replay.peers index) _ (s := ⟨0, destination⟩) hends
  rw [delivery, deliverOne, Trace.map, fetchWithRedirectGuard, hr]
  rfl

/-- What a delivery of the replay comes to. -/
abbrev outcomes (urls : Urls Url) (hmac : Bytes → Bytes → Digest) (replay : Replay Url) (dto : ReplayEventsDto)
    (destination : Url) (fuel index : Nat) : Option ReplayResult :=
  (delivery urls hmac replay dto destination index fuel).result

/-- Once the workers have returned, the summary is that of the deliveries one after another. -/
theorem replayEvents_eq_summary {destination : Url} {fuel : Nat} {s : Replaying}
    (hdestination : replayDestination urls replay dto = .ok destination)
    (hresults : ∃ outcome, (∀ index, outcomes urls hmac replay dto destination fuel index = some (outcome index)) ∧
      s.results = ((List.range dto.events.length).map outcome).map some) :
    replayEvents urls hmac replay dto fuel = some (.ok (summary (replaySecret replay dto) s)) := by
  obtain ⟨outcome, houtcome, hresults⟩ := hresults
  have hall := mapM_eq_some fun index (_ : index ∈ List.range dto.events.length) => houtcome index
  rw [replayEvents, hdestination]
  dsimp only
  rw [hall, summary, hresults, reduceOption_map_some]
  simp

variable (urls hmac replay dto) in
/-- Whatever the order in which the deliveries end, each event has one, and the replay comes to what the deliveries
come to one after another. -/
theorem replay_delivers_once (destination : Url) {fuel : Nat} (hfuel : MAX_SAFE_REDIRECTS + 1 < fuel) (schedule : List Nat) :
    Throughout (resume dto.events.length (outcomes urls hmac replay dto destination fuel))
        (fun s => OnceEach dto.events.length (outcomes urls hmac replay dto destination fuel) s ∧ (Returned s →
          Complete dto.events.length (outcomes urls hmac replay dto destination fuel) (replaySecret replay dto) s ∧
            (replayDestination urls replay dto = .ok destination →
              replayEvents urls hmac replay dto fuel = some (.ok (summary (replaySecret replay dto) s)))))
        (startWorkers dto.events.length) schedule ∧
      ∀ s, run (resume dto.events.length (outcomes urls hmac replay dto destination fuel))
          (startWorkers dto.events.length) schedule = some s →
        schedule.length ≤ dto.events.length ∧ (Returned s ↔ schedule.length = dto.events.length) := by
  have hdeliver := delivery_isSome urls hmac replay dto destination hfuel
  refine ⟨kept_preserved.throughout (fun s hs => ?_) kept_start (guarded_always _ _ schedule), fun s hrun => length_schedule hrun⟩
  refine ⟨hs.onceEach hdeliver, fun hreturned => ⟨hs.complete hdeliver _ hreturned, fun hdestination => ?_⟩⟩
  exact replayEvents_eq_summary hdestination (hs.results_of_returned hdeliver hreturned)

/-- Two of the sample deliveries end before the first, and its last event is delivered by the second worker. -/
theorem sample_delivers_once : ∃ destination s, replayDestination plainUrls sampleReplay sampleDto = .ok destination ∧
    run (resume 5 (outcomes plainUrls sampleHmac sampleReplay sampleDto destination 7)) (startWorkers 5) [1, 2, 0, 3, 1] =
      some s ∧
    Returned s ∧ Complete 5 (outcomes plainUrls sampleHmac sampleReplay sampleDto destination 7) (text "00ff") s := by
  obtain ⟨destination, hdestination⟩ := exists_destination
  have hfuel : MAX_SAFE_REDIRECTS + 1 < 7 := by decide
  obtain ⟨hall, hends⟩ :=
    replay_delivers_once plainUrls sampleHmac sampleReplay sampleDto destination hfuel [1, 2, 0, 3, 1]
  obtain ⟨outcome, houtcome⟩ := Classical.axiomOfChoice fun index =>
    Option.isSome_iff_exists.mp (delivery_isSome plainUrls sampleHmac sampleReplay sampleDto destination hfuel index)
  have hdeliver : outcomes plainUrls sampleHmac sampleReplay sampleDto destination 7 = fun index => some (outcome index) :=
    funext houtcome
  have hrun : ∃ s, run (resume 5 fun index => some (outcome index)) (startWorkers 5) [1, 2, 0, 3, 1] = some s := ⟨_, rfl⟩
  obtain ⟨s, hs⟩ := hrun
  rw [← hdeliver] at hs
  have hreturned := (hends s hs).2.mpr rfl
  exact ⟨destination, s, hdestination, hs, hreturned, ((hall.last hs).2 hreturned).1⟩

end Savitools.Contracts.ReplaySchedules
