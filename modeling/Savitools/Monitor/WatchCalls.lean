import Savitools.Monitor.AlertEvaluator
import Savitools.Stores.Keyed
import Savitools.Transitions.Runs

namespace Savitools.Monitor.WatchCalls

open Transitions.Runs Stores.Keyed Watches

/-- What a call of `createWatch` or `deleteWatch` waits for, or how it has ended. Of a row that waits to be inserted,
`seen` says how many watches of its user had been inserted when they were counted; that number is history. -/
inductive Call
  | counting (draft : Watch)
  | inserting (draft : Watch) (seen : Nat)
  | starting (watch : Watch)
  | created (watch : Watch)
  | finding (userId watchId : Nat)
  | deleting (watchId : Nat)
  | stopping
  | deleted
  | thrown (message : String)

/-- The rows of `watches` and the calls. The ids of rules from `nextRule` on are fresh. How many watches each user has
had inserted is history. -/
structure State where
  watches : KeyedRows Watch.id
  calls : List Call := []
  nextRule : Nat := 0
  inserts : Nat → Nat := fun _ => 0

/-- How what a call waits for is served: by the database, which gives a new row its id, or by the streams, which are
started or stopped once the row is written. -/
inductive Served
  | count
  | insert (id : Nat)
  | find
  | remove
  | streams (ok : Bool)
  | fail

inductive Act
  | create (userId : Nat) (dto : CreateWatchDto)
  | delete (userId watchId : Nat)
  | serve (i : Nat) (served : Served)

def owned (s : State) (userId : Nat) : Nat := s.watches.rows.countP fun watch => watch.userId = userId

def State.setCall (s : State) (i : Nat) (call : Call) : State := { s with calls := s.calls.set i call }

def limitMessage (maxWatches : Nat) : String :=
  "Watch limit reached: each user may keep at most " ++ toString maxWatches ++
    " watches. Delete an existing watch before creating another."

def createWatch (strKey : StrKey) (s : State) (userId : Nat) (dto : CreateWatchDto) : State :=
  match draftWatch strKey userId s.nextRule dto with
  | .error message => { s with calls := s.calls ++ [.thrown message] }
  | .ok draft => { s with calls := s.calls ++ [.counting draft], nextRule := s.nextRule + draft.alertRules.length }

def countWatches (maxWatchesPerUser : Nat) (s : State) (i : Nat) (draft : Watch) : State :=
  if owned s draft.userId ≥ maxWatchesPerUser then s.setCall i (.thrown (limitMessage maxWatchesPerUser))
  else s.setCall i (.inserting draft (s.inserts draft.userId))

def insertWatch (s : State) (i : Nat) (draft : Watch) (id : Nat) (h : id ∉ s.watches.rows.map Watch.id) : State where
  watches := s.watches.insert { draft with id := id } h
  calls := s.calls.set i (.starting { draft with id := id })
  nextRule := s.nextRule
  inserts := Function.update s.inserts draft.userId (s.inserts draft.userId + 1)

def findWatch (s : State) (i userId watchId : Nat) : State :=
  match s.watches.get? watchId with
  | some watch => s.setCall i (if watch.userId = userId then .deleting watch.id else .thrown "Watch not found")
  | none => s.setCall i (.thrown "Watch not found")

def removeWatch (s : State) (i watchId : Nat) : State :=
  { s.setCall i .stopping with watches := s.watches.delete watchId }

/-- How a call ends when what it waits for fails; a call that has ended waits for nothing. -/
def failed : Call → Option Call
  | .created _ | .deleted | .thrown _ => none
  | _ => some (.thrown "The database has failed")

variable (strKey : StrKey) (maxWatchesPerUser : Nat)

def serve (s : State) (i : Nat) : Served → Call → Option State
  | .count, .counting draft => some (countWatches maxWatchesPerUser s i draft)
  | .insert id, .inserting draft _ =>
      if h : id ∉ s.watches.rows.map Watch.id then some (insertWatch s i draft id h) else none
  | .find, .finding userId watchId => some (findWatch s i userId watchId)
  | .remove, .deleting watchId => some (removeWatch s i watchId)
  | .streams ok, .starting watch =>
      some (s.setCall i (if ok then .created watch else .thrown "The stream has failed"))
  | .streams ok, .stopping => some (s.setCall i (if ok then .deleted else .thrown "The stream has failed"))
  | .fail, call => (failed call).map (s.setCall i)
  | _, _ => none

def step (s : State) : Act → Option State
  | .create userId dto => some (createWatch strKey s userId dto)
  | .delete userId watchId => some { s with calls := s.calls ++ [.finding userId watchId] }
  | .serve i served => (s.calls[i]?).bind (serve maxWatchesPerUser s i served)

/-- Before any call. -/
def start (watches : KeyedRows Watch.id) : State := { watches := watches }

end Savitools.Monitor.WatchCalls

namespace Savitools.Monitor.WatchQuota

open Strings.CodeUnits Transitions.Runs Stores.Keyed Stores.Table Watches WatchCalls

/-- The user has at most as many watches as one may keep. -/
def Quota (maxWatchesPerUser userId : Nat) (s : State) : Prop := owned s userId ≤ maxWatchesPerUser

/-- A watch of the user is only inserted where there is still room for it. -/
def Room (maxWatchesPerUser userId : Nat) (s : State) : Act → Prop
  | .serve i (.insert _) => ∀ (draft : Watch) (seen : Nat), s.calls[i]? = some (.inserting draft seen) →
      draft.userId = userId → owned s userId < maxWatchesPerUser
  | _ => True

/-- A watch of the user is only inserted where none has been since they were counted for it. -/
def Alone (userId : Nat) (s : State) : Act → Prop
  | .serve i (.insert _) => ∀ (draft : Watch) (seen : Nat), s.calls[i]? = some (.inserting draft seen) →
      draft.userId = userId → seen = s.inserts userId
  | _ => True

/-- The counts that calls go by: where nothing has been inserted since, there is still room. -/
def Counted (maxWatchesPerUser : Nat) (s : State) : Prop :=
  ∀ (i : Nat) (draft : Watch) (seen : Nat), s.calls[i]? = some (.inserting draft seen) →
    seen ≤ s.inserts draft.userId ∧ (seen = s.inserts draft.userId → owned s draft.userId < maxWatchesPerUser)

/-- A step that inserts nothing: nobody has more watches than before, and what waits to be inserted has been waiting, or
was counted just now. -/
structure Calm (maxWatchesPerUser : Nat) (s t : State) : Prop where
  inserts : t.inserts = s.inserts
  fewer : ∀ userId, owned t userId ≤ owned s userId
  waiting : ∀ (i : Nat) (draft : Watch) (seen : Nat), t.calls[i]? = some (.inserting draft seen) →
    s.calls[i]? = some (.inserting draft seen) ∨
      seen = s.inserts draft.userId ∧ owned s draft.userId < maxWatchesPerUser

variable {strKey : StrKey} {maxWatchesPerUser : Nat} {s t : State}

theorem calm_append {call : Call} (hcall : ∀ draft seen, call ≠ .inserting draft seen) (nextRule : Nat) :
    Calm maxWatchesPerUser s { s with calls := s.calls ++ [call], nextRule := nextRule } := by
  refine ⟨rfl, fun _ => Nat.le_refl _, fun i draft seen h => .inl ?_⟩
  rcases lt_trichotomy i s.calls.length with hlt | rfl | hgt
  · rwa [List.getElem?_append_left hlt] at h
  · simp only [List.getElem?_concat_length, Option.some.injEq] at h
    exact absurd h (hcall draft seen)
  · rw [List.getElem?_eq_none (by rw [List.length_append]; exact hgt)] at h
    cases h

theorem calm_setCall {i : Nat} {call : Call}
    (hcall : ∀ draft seen, call = .inserting draft seen → seen = s.inserts draft.userId ∧
      owned s draft.userId < maxWatchesPerUser) :
    Calm maxWatchesPerUser s (s.setCall i call) := by
  refine ⟨rfl, fun _ => Nat.le_refl _, fun j draft seen h => ?_⟩
  rw [State.setCall, List.getElem?_set] at h
  split at h
  next =>
    split at h
    next => exact .inr (hcall draft seen (Option.some.inj h))
    next => cases h
  next => exact .inl h

theorem calm_countWatches {i : Nat} {draft : Watch} :
    Calm maxWatchesPerUser s (countWatches maxWatchesPerUser s i draft) := by
  rw [countWatches]
  split
  next => exact calm_setCall nofun
  next hroom =>
    refine calm_setCall fun draft' seen h => ?_
    cases h
    exact ⟨rfl, Nat.lt_of_not_le hroom⟩

theorem calm_removeWatch {i watchId : Nat} : Calm maxWatchesPerUser s (removeWatch s i watchId) := by
  have hset : Calm maxWatchesPerUser s (s.setCall i .stopping) := calm_setCall nofun
  exact ⟨hset.inserts, fun userId => countP_delete_le _ _ _, hset.waiting⟩

/-- A step inserts a watch, or is calm. -/
theorem step_cases {a : Act} (h : step strKey maxWatchesPerUser s a = some t) :
    (∃ i draft seen id, ∃ hid : id ∉ s.watches.rows.map Watch.id, a = .serve i (.insert id) ∧
      s.calls[i]? = some (.inserting draft seen) ∧ t = insertWatch s i draft id hid) ∨
    (∀ i id, a ≠ .serve i (.insert id)) ∧ Calm maxWatchesPerUser s t := by
  cases a with
  | create userId dto =>
      cases h
      refine .inr ⟨nofun, ?_⟩
      rw [createWatch]
      split
      next => exact calm_append (by nofun) _
      next => exact calm_append (by nofun) _
  | delete userId watchId =>
      cases h
      exact .inr ⟨nofun, calm_append (by nofun) _⟩
  | serve i served =>
      obtain ⟨call, hcall, hserve⟩ := Option.bind_eq_some_iff.mp h
      cases served with
      | insert id =>
          cases call with
          | inserting draft seen =>
              simp only [serve] at hserve
              split at hserve
              next hid =>
                cases hserve
                exact .inl ⟨i, draft, seen, id, hid, rfl, hcall, rfl⟩
              next => cases hserve
          | _ => cases hserve
      | count =>
          refine .inr ⟨nofun, ?_⟩
          cases call with
          | counting draft =>
              cases hserve
              exact calm_countWatches
          | _ => cases hserve
      | find =>
          refine .inr ⟨nofun, ?_⟩
          cases call with
          | finding userId watchId =>
              cases hserve
              rw [findWatch]
              split
              next =>
                split
                next => exact calm_setCall nofun
                next => exact calm_setCall nofun
              next => exact calm_setCall nofun
          | _ => cases hserve
      | remove =>
          refine .inr ⟨nofun, ?_⟩
          cases call with
          | deleting watchId =>
              cases hserve
              exact calm_removeWatch
          | _ => cases hserve
      | streams ok =>
          refine .inr ⟨nofun, ?_⟩
          cases call with
          | starting watch =>
              cases hserve
              cases ok <;> exact calm_setCall nofun
          | stopping =>
              cases hserve
              cases ok <;> exact calm_setCall nofun
          | _ => cases hserve
      | fail =>
          refine .inr ⟨nofun, ?_⟩
          obtain ⟨last, hlast, rfl⟩ := Option.map_eq_some_iff.mp hserve
          refine calm_setCall fun draft seen h => ?_
          subst h
          cases call <;> cases hlast

theorem owned_insertWatch {i id : Nat} {draft : Watch} (hid : id ∉ s.watches.rows.map Watch.id) (userId : Nat) :
    owned (insertWatch s i draft id hid) userId = owned s userId + if draft.userId = userId then 1 else 0 := by
  simp only [owned, insertWatch, KeyedRows.insert, List.countP_append, List.countP_singleton, decide_eq_true_eq]

theorem counted_of_calm (hs : Counted maxWatchesPerUser s) (h : Calm maxWatchesPerUser s t) :
    Counted maxWatchesPerUser t := by
  intro i draft seen hi
  rw [h.inserts]
  have hfewer := h.fewer draft.userId
  rcases h.waiting i draft seen hi with hold | ⟨hseen, hroom⟩
  · obtain ⟨hle, hroom⟩ := hs i draft seen hold
    exact ⟨hle, fun heq => hfewer.trans_lt (hroom heq)⟩
  · exact ⟨hseen.le, fun _ => hfewer.trans_lt hroom⟩

theorem counted_insertWatch (hs : Counted maxWatchesPerUser s) {i id : Nat} {draft : Watch}
    (hid : id ∉ s.watches.rows.map Watch.id) : Counted maxWatchesPerUser (insertWatch s i draft id hid) := by
  intro j other seen hj
  have hold : s.calls[j]? = some (.inserting other seen) := by
    simp only [insertWatch, List.getElem?_set] at hj
    split at hj
    next =>
      split at hj
      next => cases hj
      next => cases hj
    next => exact hj
  obtain ⟨hle, hroom⟩ := hs j other seen hold
  rw [owned_insertWatch]
  by_cases hsame : draft.userId = other.userId
  · have hinserts : (insertWatch s i draft id hid).inserts other.userId = s.inserts other.userId + 1 := by
      rw [← hsame]
      exact Function.update_self _ _ _
    rw [hinserts]
    exact ⟨Nat.le_succ_of_le hle, fun heq => absurd hle (by omega)⟩
  · have hinserts : (insertWatch s i draft id hid).inserts other.userId = s.inserts other.userId :=
      Function.update_of_ne (Ne.symm hsame) _ _
    rw [hinserts, if_neg hsame]
    exact ⟨hle, hroom⟩

theorem counted_preserved : Preserves (step strKey maxWatchesPerUser) always (Counted maxWatchesPerUser) := by
  intro s a t hs _ h
  obtain ⟨i, draft, seen, id, hid, -, -, rfl⟩ | ⟨-, hcalm⟩ := step_cases h
  · exact counted_insertWatch hs hid
  · exact counted_of_calm hs hcalm

/-- A step keeps the quota exactly when it inserts no watch for which there is no room. -/
theorem quota_iff_room {userId : Nat} {a : Act} (hs : Quota maxWatchesPerUser userId s)
    (h : step strKey maxWatchesPerUser s a = some t) :
    Quota maxWatchesPerUser userId t ↔ Room maxWatchesPerUser userId s a := by
  obtain ⟨i, draft, seen, id, hid, rfl, hcall, rfl⟩ | ⟨hother, hcalm⟩ := step_cases h
  · rw [Quota, owned_insertWatch, Room]
    constructor
    · intro hquota draft' seen' hcall' huser
      cases hcall.symm.trans hcall'
      rw [if_pos huser] at hquota
      exact hquota
    · intro hroom
      split
      next huser => exact hroom draft seen hcall huser
      next => exact hs
  · refine iff_of_true ((hcalm.fewer userId).trans hs) ?_
    match a with
    | .create _ _ | .delete _ _ | .serve _ .count | .serve _ .find | .serve _ .remove | .serve _ (.streams _) |
      .serve _ .fail => trivial
    | .serve i (.insert id) => exact absurd rfl (hother i id)

theorem room_of_alone {userId : Nat} {a : Act} (hs : Counted maxWatchesPerUser s) (h : Alone userId s a) :
    Room maxWatchesPerUser userId s a := by
  match a with
  | .create _ _ | .delete _ _ | .serve _ .count | .serve _ .find | .serve _ .remove | .serve _ (.streams _) |
    .serve _ .fail => trivial
  | .serve i (.insert id) =>
      intro draft seen hcall huser
      subst huser
      exact (hs i draft seen hcall).2 (h draft seen hcall rfl)

/-- A user never has too many watches exactly when none is inserted where there is no room for it any more; so it is
where no watch of the user is inserted between the count and the insert of another. -/
theorem watch_quota_iff (strKey : StrKey) (maxWatchesPerUser userId : Nat) (watches : KeyedRows Watch.id)
    (hquota : Quota maxWatchesPerUser userId (start watches)) (acts : List Act) :
    (Throughout (step strKey maxWatchesPerUser) (Quota maxWatchesPerUser userId) (start watches) acts ↔
      Guarded (step strKey maxWatchesPerUser) (Room maxWatchesPerUser userId) (start watches) acts) ∧
    (Guarded (step strKey maxWatchesPerUser) (Alone userId) (start watches) acts →
      Throughout (step strKey maxWatchesPerUser) (Quota maxWatchesPerUser userId) (start watches) acts) := by
  have hquotas : Throughout (step strKey maxWatchesPerUser) (Quota maxWatchesPerUser userId) (start watches) acts ↔
      Guarded (step strKey maxWatchesPerUser) (Room maxWatchesPerUser userId) (start watches) acts :=
    throughout_iff_guarded_of_inv (I := fun _ => True) (fun _ _ _ _ _ _ => trivial)
      (fun s a t _ hs h => quota_iff_room hs h) trivial hquota acts
  have hcounted : Counted maxWatchesPerUser (start watches) := nofun
  refine ⟨hquotas, fun halone => hquotas.mpr ?_⟩
  have hpreserved : Preserves (step strKey maxWatchesPerUser) (Alone userId) (Counted maxWatchesPerUser) :=
    fun s a t hs _ h => counted_preserved s a t hs trivial h
  exact hpreserved.guarded (fun s a hs h => room_of_alone hs h) hcounted halone

def publicKey : Text := text "GA5ZSEJYB37JRC5AVCIA5MOP4RHT3VM35KCEIWI6VH5XY4O2Y5JV3CJQ"

/-- An SDK that knows the one account. -/
def oneAccount : StrKey := ⟨(· == publicKey), fun _ => false⟩

def noWatches : KeyedRows Watch.id := ⟨[], List.nodup_nil⟩

def paymentWatch : CreateWatchDto := { publicKey := publicKey, eventTypes := [.payment] }

/-- Two calls of a user that count the watches before either inserts one. -/
def overlapping : List Act :=
  [.create 7 paymentWatch, .create 7 paymentWatch, .serve 0 .count, .serve 1 .count, .serve 0 (.insert 0),
    .serve 1 (.insert 1)]

theorem watch_quota_iff_none :
    (Throughout (step oneAccount 1) (Quota 1 7) (start noWatches) overlapping ↔
      Guarded (step oneAccount 1) (Room 1 7) (start noWatches) overlapping) ∧
    (Guarded (step oneAccount 1) (Alone 7) (start noWatches) overlapping →
      Throughout (step oneAccount 1) (Quota 1 7) (start noWatches) overlapping) :=
  watch_quota_iff oneAccount 1 7 noWatches (Nat.zero_le 1) overlapping

/-- A user who may keep one watch gets two. -/
theorem not_watch_quota : ¬∀ (strKey : StrKey) (maxWatchesPerUser userId : Nat) (watches : KeyedRows Watch.id)
    (acts : List Act) (s : State), Quota maxWatchesPerUser userId (start watches) →
      run (step strKey maxWatchesPerUser) (start watches) acts = some s → Quota maxWatchesPerUser userId s := by
  intro h
  obtain ⟨s, hrun, hs⟩ := exists_of_run_any (step oneAccount 1) (start noWatches) overlapping
    (fun s => decide (1 < owned s 7)) (by decide)
  exact absurd (h oneAccount 1 7 noWatches overlapping s (Nat.zero_le 1) hrun) (Nat.not_le.mpr (of_decide_eq_true hs))

end Savitools.Monitor.WatchQuota
