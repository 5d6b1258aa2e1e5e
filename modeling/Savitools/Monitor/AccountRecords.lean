import Savitools.Monitor.AccountInvariant

namespace Savitools.Monitor.AccountOpenings

open Stores.Table AccountStream AccountCursors AccountInvariant

variable (account : Account)

def opensAlone (s : State) : Prop :=
  lowestCursor account s.memory = none → ∀ opening ∈ s.openings, inFlight opening.lookup = false

variable {account : Account} {base : Cursors} {s t : State} {i cursor : Nat} {opening : Opening}

theorem invariant_alone (h : Invariant account base s) (hi : s.openings[i]? = some opening)
    (hflight : inFlight opening.lookup = true) {other : Opening}
    (hmem : other ∈ s.openings.set i { opening with lookup := .ended }) : inFlight other.lookup = false := by
  have hcount := countP_set_add (p := fun o : Opening => inFlight o.lookup)
    (b := { opening with lookup := .ended }) hi
  have hsingle := h.single
  rw [if_pos hflight] at hcount
  have hzero : (s.openings.set i { opening with lookup := .ended }).countP
      (fun o : Opening => inFlight o.lookup) = 0 := by
    simp only [inFlight, Bool.false_eq_true, if_false] at hcount hsingle ⊢
    omega
  exact Bool.eq_false_iff.mpr (List.countP_eq_zero.mp hzero other hmem)

/-- The opening that looks for the first cursor may set the cursors of the account
to anything level and let the following begin there. -/
theorem invariant_follow {memory stored : Cursors} {floor : Option Nat} {lookup : Lookup}
    (h : Invariant account base s) (hi : s.openings[i]? = some opening) (hflight : inFlight opening.lookup = true)
    (ht : t = { s with
      memory := memory, stored := stored, floor := floor
      openings := s.openings.set i { opening with lookup := lookup } })
    (hc : CursorsOk account base t) (hlookup : LookupOk account base t lookup) : Invariant account base t := by
  subst ht
  have hf : s.floor = none := (h.openings opening (List.mem_of_getElem? hi)).lookup.unfollowed hflight
  refine ⟨hc, ?_, ?_, ?_, fun w hmem => (h.workers w hmem).of_unfollowed hf _, ?_⟩
  · intro other hmem
    rcases mem_set_or hmem { opening with lookup := .ended } with rfl | hother
    · exact ⟨hlookup, (h.openings opening (List.mem_of_getElem? hi)).queue⟩
    · have hquiet := invariant_alone h hi hflight hother
      rcases List.mem_or_eq_of_mem_set hother with hold | rfl
      · have hopening := h.openings other hold
        refine ⟨?_, hopening.queue⟩
        rw [hopening.lookup.quiet hf hquiet]
        trivial
      · exact ⟨trivial, (h.openings opening (List.mem_of_getElem? hi)).queue⟩
  · have hcount := countP_set_add (p := fun o : Opening => inFlight o.lookup)
      (b := { opening with lookup := lookup }) hi
    have hsingle := h.single
    rw [if_pos hflight] at hcount
    show List.countP _ (s.openings.set i { opening with lookup := lookup }) ≤ 1
    split at hcount <;> omega
  · intro stream hmem
    obtain ⟨low, hlow, -⟩ := (h.streams stream hmem).low
    cases hf.symm.trans hlow
  · exact fun token hmem => absurd hf (h.delivered token hmem).2.followed

theorem mem_allIds {watch : Watch} (h : watch ∈ account.watches) : watch.id ∈ allIds account :=
  List.mem_map_of_mem h

theorem cursorIds_eq_allIds (h : ∀ watch ∈ account.watches, s.memory watch.id = none) :
    cursorIds account s cursor = allIds account := by
  rw [cursorIds, allIds, List.filter_eq_self.mpr]
  intro watch hw
  rw [h watch hw]
  rfl

theorem invariant_latest (h : Invariant account base s) (hne : account.watches ≠ [])
    (hi : s.openings[i]? = some opening) (hlookup : opening.lookup = .searching) :
    Invariant account base (s.setOpening i opening
      (if cursorIds account s cursor = [] then .ready cursor else .updating cursor (cursorIds account s cursor))) := by
  have hf := (h.openings opening (List.mem_of_getElem? hi)).lookup
  rw [hlookup] at hf
  have hids : cursorIds account s cursor = allIds account := cursorIds_eq_allIds (h.cursors.unread hf)
  have hids' : allIds account ≠ [] := fun hnil => hne (List.map_eq_nil_iff.mp hnil)
  rw [hids, if_neg hids']
  exact h.setOpening hi _ ⟨hf, rfl⟩ (fun _ => by rw [hlookup]; rfl)

theorem invariant_firstCursor {ids : List Nat} {lookup : Lookup} (h : Invariant account base s)
    (hi : s.openings[i]? = some opening) (hlookup : opening.lookup = .updating cursor ids)
    (hnext : lookup = .updated cursor ids ∨ lookup = .ended) :
    Invariant account base
      ({ s with stored := setCursors s.stored ids cursor }.setOpening i opening lookup) := by
  have hold := (h.openings opening (List.mem_of_getElem? hi)).lookup
  rw [hlookup] at hold
  obtain ⟨hf, rfl⟩ := hold
  have hlevel : ∀ watch ∈ account.watches, setCursors s.stored (allIds account) cursor watch.id = some cursor :=
    fun watch hw => setCursors_of_mem (mem_allIds hw)
  refine invariant_follow h hi (by rw [hlookup]; rfl) rfl ?_ ?_
  · refine ⟨sound_of_unfollowed ?_ _, sound_of_unfollowed ?_ _, h.cursors.unread, fun _ => ⟨_, hlevel⟩, ?_⟩
    · exact hf
    · exact hf
    · exact fun id hnone => h.cursors.written id (setCursors_eq_none hnone).2
  · rcases hnext with rfl | rfl
    · exact ⟨hf, rfl, hlevel⟩
    · trivial

theorem invariant_resumeOpening {ids : List Nat} (h : Invariant account base s) (hne : account.watches ≠ [])
    (hi : s.openings[i]? = some opening) (hlookup : opening.lookup = .updated cursor ids) :
    Invariant account base
      ({ s with
        memory := setCursors s.memory ids cursor
        floor := s.floor.or (some cursor) }.setOpening i opening (.ready cursor)) := by
  have hold := (h.openings opening (List.mem_of_getElem? hi)).lookup
  rw [hlookup] at hold
  obtain ⟨hf, rfl, hstored⟩ := hold
  rw [hf]
  have hlevel : ∀ watch ∈ account.watches, setCursors s.memory (allIds account) cursor watch.id = some cursor :=
    fun watch hw => setCursors_of_mem (mem_allIds hw)
  refine invariant_follow h hi (by rw [hlookup]; rfl) rfl ?_ ⟨⟨cursor, rfl, le_rfl⟩, doneTo_floor rfl⟩
  refine ⟨sound_of_level hne rfl hlevel, sound_of_level hne rfl hstored, fun hnone => (by cases hnone),
    fun hnone => (by cases hnone), ?_⟩
  intro id hnone
  have hmem : id ∉ allIds account := by
    intro hmem
    obtain ⟨watch, hw, rfl⟩ := List.mem_map.mp hmem
    cases (hstored watch hw).symm.trans hnone
  exact (setCursors_of_not_mem hmem).trans (h.cursors.written id hnone)

theorem invariant_ensureAccountCursor {queue : Option Nat} (h : Invariant account base s)
    (halone : opensAlone account s) (hqueue : ∀ k, queue = some k → HasQueue s k) :
    Invariant account base (ensureAccountCursor account s queue) := by
  have hl : Later s (ensureAccountCursor account s queue) := later_of_eq rfl rfl rfl rfl
  refine ⟨h.cursors.later hl rfl rfl, ?_, ?_, ?_, fun w hmem => (h.workers w hmem).later hl, ?_⟩
  · intro opening hmem
    rcases List.mem_append.mp hmem with hold | hnew
    · exact (h.openings opening hold).later hl (fun _ => rfl) (fun _ hk => hk)
    · rw [List.mem_singleton.mp hnew]
      refine ⟨?_, hqueue⟩
      cases hf : s.floor with
      | some low =>
          obtain ⟨cursor, hlow, hle, hdone⟩ := h.cursors.memory.lowestCursor hf
          simp only [hlow]
          exact ⟨⟨low, hf, hle⟩, hdone.later hl⟩
      | none =>
          cases hlow : lowestCursor account s.memory with
          | none => exact hf
          | some cursor =>
              obtain ⟨⟨watch, hw, hc⟩, -⟩ := lowestCursor_eq_some hlow
              cases (h.cursors.unread hf watch hw).symm.trans hc
  · show List.countP _ (s.openings ++ [_]) ≤ 1
    rw [List.countP_append, List.countP_singleton]
    have hsingle := h.single
    cases hlow : lowestCursor account s.memory with
    | some cursor => exact hsingle
    | none =>
        have hzero : s.openings.countP (fun opening => inFlight opening.lookup) = 0 :=
          List.countP_eq_zero.mpr (fun o hmem => Bool.eq_false_iff.mp (halone hlow o hmem))
        rw [hzero]
        exact le_rfl
  · exact fun stream hmem => (h.streams stream hmem).keep hl rfl
  · exact h.delivered_later hl

theorem workerOk_new (s : State) : WorkerOk account base s { streamed := true } :=
  ⟨trivial, nofun, fun _ hmem => absurd hmem List.not_mem_nil, trivial⟩

theorem invariant_openGroup (h : Invariant account base s) (halone : opensAlone account s) :
    Invariant account base (ensureAccountCursor account
      { s with workers := s.workers ++ [{ streamed := true }] } (some s.workers.length)) := by
  have hnew : Invariant account base { s with workers := s.workers ++ [{ streamed := true }] } := by
    simpa using h.addWorker [] (workerOk_new s) (fun _ hmem => absurd hmem List.not_mem_nil)
  refine invariant_ensureAccountCursor hnew halone ?_
  rintro k ⟨⟩
  exact ⟨_, List.getElem?_concat_length, rfl⟩

end Savitools.Monitor.AccountOpenings

namespace Savitools.Monitor.AccountRecords

open Queues.Order AccountStream AccountCursors AccountInvariant AccountOpenings

variable {account : Account} {base : Cursors} {s t : State} {i cursor token : Nat}
  {opening : Opening} {stream : Stream}

/-- A page holds all the records after its cursor up to its last one. -/
theorem workerOk_page (hdone : DoneTo account base s cursor) (hf : ∃ low, s.floor = some low ∧ low ≤ cursor)
    (page : Nat) :
    WorkerOk account base s { streamed := false, pending := pageAfter account cursor page } := by
  refine ⟨?_, nofun, ?_, trivial⟩
  · refine (gapless_of_sorted (account.ordered.filter _) (fun token => ?_)).take _
    by_cases hle : token ≤ cursor
    · exact .inl (.inl (hdone token hle))
    · by_cases hmem : token ∈ account.records
      · exact .inr (List.mem_filter.mpr ⟨hmem, decide_eq_true (not_le.mp hle)⟩)
      · exact .inl (.inl (done_of_not_mem hmem))
  · intro token hmem
    obtain ⟨hrecord, hlt⟩ := List.mem_filter.mp (List.mem_of_mem_take hmem)
    obtain ⟨low, hlow, hle⟩ := hf
    exact ⟨hrecord, low, hlow, hle.trans_lt (of_decide_eq_true hlt)⟩

theorem invariant_connect (h : Invariant account base s) (page : Nat) (hi : s.openings[i]? = some opening)
    (hlookup : opening.lookup = .ready cursor) :
    Invariant account base (connect account s cursor page opening.worker) := by
  have hopening := h.openings opening (List.mem_of_getElem? hi)
  have hready := hopening.lookup
  rw [hlookup] at hready
  obtain ⟨hlow, hdone⟩ := hready
  cases hw : opening.worker with
  | some k =>
      obtain ⟨worker, hk, hs⟩ := hopening.queue k hw
      refine h.setStreams (fun stream hmem => ?_) h.delivered
      rcases List.mem_append.mp hmem with hold | hnew
      · exact h.streams stream hold
      · rw [List.mem_singleton.mp hnew]
        exact ⟨hlow, worker, hk, hs, fun token hle => .inl (.inl (hdone token hle))⟩
  | none =>
      have hpage := workerOk_page hdone hlow page
      exact h.addWorker _ hpage hpage.passed

theorem invariant_stepOpening (h : Invariant account base s) (hne : account.watches ≠ [])
    (hi : s.openings[i]? = some opening) {act : Act}
    (hstep : stepOpening account s i opening opening.lookup act = some t) : Invariant account base t := by
  have hover : Invariant account base (s.setOpening i opening .ended) :=
    h.setOpening hi .ended trivial (fun hflight => absurd hflight Bool.false_ne_true)
  cases hl : opening.lookup <;> cases act <;> simp only [hl, stepOpening, reduceCtorEq] at hstep
  case searching.latest _ cursor =>
    cases cursor with
    | none => cases hstep
    | some cursor => exact Option.some.inj hstep ▸ invariant_latest h hne hi hl
  case updating.firstCursor cursor ids _ outcome =>
    cases outcome with
    | answered => exact Option.some.inj hstep ▸ invariant_firstCursor h hi hl (.inl rfl)
    | lost => exact Option.some.inj hstep ▸ invariant_firstCursor h hi hl (.inr rfl)
    | rejected => cases hstep
  case updated.resumeOpening => exact Option.some.inj hstep ▸ invariant_resumeOpening h hne hi hl
  case ready.connect cursor _ page =>
    have hopenings : (connect account s cursor page opening.worker).openings = s.openings := by
      cases opening.worker <;> rfl
    have hconnected := (invariant_connect h page hi hl).setOpening (hopenings ▸ hi) .ended trivial
      (fun hflight => absurd hflight Bool.false_ne_true)
    exact Option.some.inj hstep ▸ hconnected
  all_goals exact Option.some.inj hstep ▸ hover

theorem nextRecord_eq_some {position : Nat} (h : nextRecord account position = some token) :
    token ∈ account.records ∧ position < token ∧
      ∀ record ∈ account.records, position < record → token ≤ record := by
  obtain ⟨hlt, before, after, hrecords, hbefore⟩ := List.find?_eq_some_iff_append.mp h
  refine ⟨by rw [hrecords]; simp, of_decide_eq_true hlt, fun record hmem hrecord => ?_⟩
  have hordered := account.ordered
  rw [hrecords] at hmem hordered
  rcases List.mem_append.mp hmem with hmem | hmem
  · simpa [hrecord] using hbefore record hmem
  · rcases List.mem_cons.mp hmem with rfl | hmem
    · exact le_rfl
    · exact ((List.pairwise_cons.mp (List.pairwise_append.mp hordered).2.1).1 record hmem).le

theorem queue_enqueue (worker : Worker) (token : Nat) :
    queue { worker with pending := worker.pending ++ [token] } = queue worker ++ [token] := by
  simp only [queue]
  cases worker.progress <;> rfl

theorem invariant_deliver (h : Invariant account base s) (hi : s.streams[i]? = some stream)
    (hstep : deliver account s i stream = some t) : Invariant account base t := by
  have hstream := h.streams stream (List.mem_of_getElem? hi)
  obtain ⟨low, hlow, hle⟩ := hstream.low
  obtain ⟨worker, hk, hs, hcov⟩ := hstream.covered
  have hworker := h.workers worker (List.mem_of_getElem? hk)
  simp only [deliver, hk] at hstep
  cases hnext : nextRecord account stream.position with
  | none => simp only [hnext, reduceCtorEq] at hstep
  | some token =>
      simp only [hnext, Option.ite_none_right_eq_some, Option.some.injEq] at hstep
      obtain ⟨-, rfl⟩ := hstep
      obtain ⟨hrecord, hlt, hleast⟩ := nextRecord_eq_some hnext
      have hpassed : Passed s token := ⟨low, hlow, hle.trans_lt hlt⟩
      -- there is no record between the position of the stream and the one delivered
      have hbelow : ∀ other < token, Settled account base s worker other ∨ other ∈ queue worker := by
        intro other hother
        by_cases hposition : other ≤ stream.position
        · exact hcov other hposition
        · by_cases hmem : other ∈ account.records
          · exact absurd hother (hleast other hmem (not_le.mp hposition)).not_gt
          · exact .inl (.inl (done_of_not_mem hmem))
      have hq := queue_enqueue worker token
      have hnext : WorkerOk account base s { worker with pending := worker.pending ++ [token] } := by
        refine ⟨hq ▸ hworker.gapless.concat hbelow, hworker.complete, ?_, hworker.progress⟩
        rw [hq]
        intro other hmem
        rcases List.mem_append.mp hmem with hold | hnew
        · exact hworker.passed other hold
        · rw [List.mem_singleton.mp hnew]
          exact ⟨hrecord, hpassed⟩
      have hqueued : Invariant account base (s.setWorker stream.worker
          { worker with pending := worker.pending ++ [token] }) :=
        h.setWorker_self hk ⟨rfl, hnext, fun _ other hmem =>
          hmem.imp .inr (fun hmem => hq ▸ List.mem_append_left _ hmem)⟩
      have hl : Later s (s.setWorker stream.worker { worker with pending := worker.pending ++ [token] }) :=
        later_of_eq rfl rfl rfl rfl
      refine hqueued.setStreams (fun other hmem => ?_) (fun other hmem => ?_)
      · rcases List.mem_or_eq_of_mem_set hmem with hold | rfl
        · exact hqueued.streams other hold
        · have hself := List.getElem?_set_self (a := { worker with pending := worker.pending ++ [token] })
            (List.getElem?_eq_some_iff.mp hk).1
          refine ⟨⟨low, hlow, hle.trans hlt.le⟩, _, hself, hs, ?_⟩
          rw [hq]
          intro other hother
          rcases hother.lt_or_eq with hother | rfl
          · exact (hbelow other hother).imp (fun hs => hs.later hl) (List.mem_append_left _)
          · exact .inr (List.mem_append_right _ List.mem_cons_self)
      · rcases List.mem_append.mp hmem with hold | hnew
        · exact hqueued.delivered other hold
        · rw [List.mem_singleton.mp hnew]
          exact ⟨hrecord, hl.passed hpassed⟩

theorem invariant_close (h : Invariant account base s) (hi : s.streams[i]? = some stream) :
    Invariant account base { s with streams := s.streams.set i { stream with isOpen := false } } := by
  refine h.setStreams (fun other hmem => ?_) h.delivered
  rcases List.mem_or_eq_of_mem_set hmem with hold | rfl
  · exact h.streams other hold
  · have hstream := h.streams stream (List.mem_of_getElem? hi)
    exact ⟨hstream.low, hstream.covered⟩

end Savitools.Monitor.AccountRecords
