import Mathlib.Data.List.Basic
import Savitools.Monitor.AlertEvaluator
import Savitools.Transitions.Runs

namespace Savitools.Monitor.RuleAdditions

open Transitions.Runs Monitor.Types AlertRules Watches

/-- A watch that waits to be saved with one more rule. How many rules had been added when the watch was found is
history. -/
structure Pending where
  watch : Watch
  rule : AlertRuleDefinition
  seen : Nat

/-- What a call of `addAlertRule` waits for, or how it has ended. -/
inductive Phase
  | finding
  | saving (pending : Pending)
  | returned (rule : AlertRuleDefinition)
  | thrown (message : String)

structure AddCall where
  userId : Nat
  watchId : Nat
  dto : AlertRuleDto
  phase : Phase := .finding

/-- The row of a watch, its copy in the registry, and the calls. The ids from `nextId` on are fresh. The rules that were
added, in the order in which they were saved, are history: no step reads them. -/
structure State where
  stored : Watch
  registered : Watch
  calls : List AddCall := []
  nextId : Nat
  added : List AlertRuleDefinition := []

inductive Act
  | call (userId watchId : Nat) (dto : AlertRuleDto)
  | find (i : Nat)
  | save (i : Nat)
  | fail (i : Nat)

def State.setPhase (s : State) (i : Nat) (call : AddCall) (phase : Phase) : State :=
  { s with calls := s.calls.set i { call with phase := phase } }

/-- `requireWatch` and all that follows it up to the save. -/
def findWatch (s : State) (i : Nat) (call : AddCall) : State :=
  if call.watchId = s.stored.id ∧ call.userId = s.stored.userId then
    match toAlertRule s.nextId call.dto s.stored.type with
    | .error message => s.setPhase i call (.thrown message)
    | .ok rule =>
        let watch := { s.stored with alertRules := s.stored.alertRules ++ [rule] }
        { s.setPhase i call (.saving ⟨watch, rule, s.added.length⟩) with nextId := s.nextId + 1 }
  else s.setPhase i call (.thrown "Watch not found")

/-- The save of the whole row, and what follows it. -/
def saveWatch (s : State) (i : Nat) (call : AddCall) (pending : Pending) : State :=
  { s.setPhase i call (.returned pending.rule) with
    stored := pending.watch
    registered := pending.watch
    added := s.added ++ [pending.rule] }

def step (s : State) : Act → Option State
  | .call userId watchId dto => some { s with calls := s.calls ++ [⟨userId, watchId, dto, .finding⟩] }
  | .find i =>
      match s.calls[i]? with
      | some call =>
          match call.phase with
          | .finding => some (findWatch s i call)
          | _ => none
      | none => none
  | .save i =>
      match s.calls[i]? with
      | some call =>
          match call.phase with
          | .saving pending => some (saveWatch s i call pending)
          | _ => none
      | none => none
  | .fail i =>
      match s.calls[i]? with
      | some call =>
          match call.phase with
          | .finding | .saving _ => some (s.setPhase i call (.thrown "The database has failed"))
          | _ => none
      | none => none

def freshId (rules : List AlertRuleDefinition) : Nat := (rules.map AlertRuleDefinition.id).foldr max 0 + 1

/-- A watch that no call has touched yet. -/
def start (watch : Watch) : State where
  stored := watch
  registered := watch
  nextId := freshId watch.alertRules

def pendingOf (s : State) (i : Nat) : Option Pending :=
  match s.calls[i]? with
  | some ⟨_, _, _, .saving pending⟩ => some pending
  | _ => none

/-- The rule that a call has returned. -/
def returnedBy (s : State) (i : Nat) : Option AlertRuleDefinition :=
  match s.calls[i]? with
  | some ⟨_, _, _, .returned rule⟩ => some rule
  | _ => none

/-- Everything that a step can do. -/
theorem step_cases {s t : State} {a : Act} (h : step s a = some t) :
    (∃ userId watchId dto, a = .call userId watchId dto ∧ t = { s with calls := s.calls ++ [⟨userId, watchId, dto, .finding⟩] }) ∨
    (∃ i call, a = .find i ∧ s.calls[i]? = some call ∧ call.phase = .finding ∧ t = findWatch s i call) ∨
    (∃ i call pending, a = .save i ∧ s.calls[i]? = some call ∧ call.phase = .saving pending ∧
      t = saveWatch s i call pending) ∨
    ∃ i call message, a = .fail i ∧ s.calls[i]? = some call ∧ (∀ rule, call.phase ≠ .returned rule) ∧
      t = s.setPhase i call (.thrown message) := by
  cases a with
  | call userId watchId dto =>
      cases h
      exact .inl ⟨_, _, _, rfl, rfl⟩
  | find i =>
      simp only [step] at h
      split at h
      next call hcall =>
        split at h
        next hphase =>
          cases h
          exact .inr (.inl ⟨i, call, rfl, hcall, hphase, rfl⟩)
        next => cases h
      next => cases h
  | save i =>
      simp only [step] at h
      split at h
      next call hcall =>
        split at h
        next pending hphase =>
          cases h
          exact .inr (.inr (.inl ⟨i, call, pending, rfl, hcall, hphase, rfl⟩))
        next => cases h
      next => cases h
  | fail i =>
      simp only [step] at h
      split at h
      next call hcall =>
        split at h
        next hphase =>
          cases h
          exact .inr (.inr (.inr ⟨i, call, _, rfl, hcall, (fun rule hrule => nomatch hphase.symm.trans hrule), rfl⟩))
        next pending hphase =>
          cases h
          exact .inr (.inr (.inr ⟨i, call, _, rfl, hcall, (fun rule hrule => nomatch hphase.symm.trans hrule), rfl⟩))
        next => cases h
      next => cases h

section Phases

variable {s : State} {i j : Nat} {call : AddCall} {phase : Phase}

theorem getElem?_setPhase (h : s.calls[i]? = some call) :
    (s.setPhase i call phase).calls[j]? = if i = j then some { call with phase := phase } else s.calls[j]? := by
  have hlength : i < s.calls.length := (List.getElem?_eq_some_iff.mp h).1
  rw [State.setPhase, List.getElem?_set, if_pos hlength]

theorem pendingOf_setPhase (h : s.calls[i]? = some call) (hne : i ≠ j) :
    pendingOf (s.setPhase i call phase) j = pendingOf s j := by
  rw [pendingOf, pendingOf, getElem?_setPhase h, if_neg hne]

theorem returnedBy_setPhase (h : s.calls[i]? = some call) (hne : i ≠ j) :
    returnedBy (s.setPhase i call phase) j = returnedBy s j := by
  rw [returnedBy, returnedBy, getElem?_setPhase h, if_neg hne]

end Phases

end Savitools.Monitor.RuleAdditions

namespace Savitools.Monitor.KeptRules

open Transitions.Runs Monitor.Types AlertRules Watches RuleAdditions

/-- The stored watch has the rules that it had before, and every rule that a call has returned. -/
def Kept (before : List AlertRuleDefinition) (s : State) : Prop :=
  (∀ rule ∈ before, rule ∈ s.stored.alertRules) ∧ ∀ i rule, returnedBy s i = some rule → rule ∈ s.stored.alertRules

/-- No rule has been added between the find and the save of a call. -/
def Timely (s : State) : Act → Prop
  | .save i => ∀ pending ∈ pendingOf s i, pending.seen = s.added.length
  | _ => True

/-- What a pending watch consists of. -/
structure PendingOk (before : List AlertRuleDefinition) (s : State) (pending : Pending) : Prop where
  seen : pending.seen ≤ s.added.length
  own : pending.rule ∈ pending.watch.alertRules
  known : ∀ rule ∈ pending.watch.alertRules, rule = pending.rule ∨ rule ∈ before ∨ rule ∈ s.added.take pending.seen
  newest : pending.seen = s.added.length → ∀ rule ∈ s.stored.alertRules, rule ∈ pending.watch.alertRules
  unused : freshId before ≤ pending.rule.id ∧ pending.rule.id < s.nextId
  unadded : pending.rule.id ∉ s.added.map AlertRuleDefinition.id

structure Invariant (before : List AlertRuleDefinition) (s : State) : Prop where
  stored : ∀ rule ∈ s.stored.alertRules, rule ∈ before ∨ rule ∈ s.added
  ids : freshId before ≤ s.nextId ∧ ∀ rule ∈ s.added, freshId before ≤ rule.id ∧ rule.id < s.nextId
  nodup : (s.added.map AlertRuleDefinition.id).Nodup
  returned : ∀ rule, rule ∈ s.added ↔ ∃ i, returnedBy s i = some rule
  pending : ∀ i pending, pendingOf s i = some pending → PendingOk before s pending
  distinct : ∀ i j pending other, pendingOf s i = some pending → pendingOf s j = some other →
    pending.rule.id = other.rule.id → i = j

theorem id_lt_freshId {rules : List AlertRuleDefinition} {rule : AlertRuleDefinition} (h : rule ∈ rules) :
    rule.id < freshId rules := by
  induction rules with
  | nil => cases h
  | cons first rules ih =>
      simp only [freshId, List.map_cons, List.foldr_cons] at ih ⊢
      rcases List.mem_cons.mp h with rfl | hmem
      · omega
      · have := ih hmem
        omega

variable {before : List AlertRuleDefinition} {s : State}

theorem invariant_start (watch : Watch) : Invariant watch.alertRules (start watch) := by
  have hpending (i : Nat) : pendingOf (start watch) i = none := rfl
  have hreturned (i : Nat) : returnedBy (start watch) i = none := rfl
  have hadded : (start watch).added = [] := rfl
  constructor
  case stored => exact fun rule hrule => .inl hrule
  case ids => simp [start]
  case nodup => simp [hadded]
  case returned => simp [hadded, hreturned]
  case pending => simp [hpending]
  case distinct => simp [hpending]

/-- A rule that was added since a watch was found is missing from it. -/
theorem missing_of_late (hs : Invariant before s) {i : Nat} {pending : Pending} (hpending : pendingOf s i = some pending)
    (hlate : pending.seen < s.added.length) : s.added[pending.seen] ∉ pending.watch.alertRules := by
  have hok := hs.pending i pending hpending
  have hmem : s.added[pending.seen] ∈ s.added := List.getElem_mem hlate
  intro hknown
  rcases hok.known _ hknown with hown | hbefore | hearlier
  · exact hok.unadded (hown ▸ List.mem_map_of_mem hmem)
  · have hlow := (hs.ids.2 _ hmem).1
    have hhigh := id_lt_freshId hbefore
    omega
  · obtain ⟨k, hk, hsame⟩ := List.mem_take_iff_getElem.mp hearlier
    have hinj := (List.Nodup.getElem_inj_iff (List.Nodup.of_map _ hs.nodup)).mp hsame
    omega

/-- The step changes neither the watch nor what is returned, and lets no watch wait. -/
structure Quiet (s t : State) : Prop where
  stored : t.stored = s.stored
  added : t.added = s.added
  nextId : t.nextId = s.nextId
  returned : ∀ i, returnedBy t i = returnedBy s i
  pending : ∀ i pending, pendingOf t i = some pending → pendingOf s i = some pending

section Steps

variable {t : State}

theorem invariant_of_quiet (hs : Invariant before s) (h : Quiet s t) : Invariant before t := by
  constructor
  case stored =>
    rw [h.stored, h.added]
    exact hs.stored
  case ids =>
    rw [h.added, h.nextId]
    exact hs.ids
  case nodup =>
    rw [h.added]
    exact hs.nodup
  case returned =>
    intro rule
    simp only [h.added, h.returned]
    exact hs.returned rule
  case pending =>
    intro i pending hpending
    obtain ⟨hseen, hown, hknown, hnewest, hunused, hunadded⟩ := hs.pending i pending (h.pending i pending hpending)
    constructor <;> simpa only [h.stored, h.added, h.nextId]
  case distinct =>
    exact fun i j pending other hi hj => hs.distinct i j pending other (h.pending i pending hi) (h.pending j other hj)

theorem quiet_call (userId watchId : Nat) (dto : AlertRuleDto) :
    Quiet s { s with calls := s.calls ++ [⟨userId, watchId, dto, .finding⟩] } := by
  have hcalls (i : Nat) : (s.calls ++ [⟨userId, watchId, dto, .finding⟩])[i]? = s.calls[i]? ∨
      s.calls[i]? = none ∧ (s.calls ++ [⟨userId, watchId, dto, .finding⟩])[i]? = some ⟨userId, watchId, dto, .finding⟩ := by
    rcases lt_trichotomy i s.calls.length with hlt | rfl | hgt
    · exact .inl (List.getElem?_append_left hlt)
    · exact .inr ⟨by simp, by simp⟩
    · refine .inl ?_
      rw [List.getElem?_eq_none (by rw [List.length_append]; exact hgt), List.getElem?_eq_none hgt.le]
  refine ⟨rfl, rfl, rfl, fun i => ?_, fun i pending hpending => ?_⟩
  · rcases hcalls i with h | ⟨hnone, hnew⟩
    · simp only [returnedBy, h]
    · simp only [returnedBy, hnone, hnew]
  · rcases hcalls i with h | ⟨hnone, hnew⟩
    · simpa only [pendingOf, h] using hpending
    · simp only [pendingOf, hnew] at hpending
      cases hpending

section Calls

variable {i : Nat} {call : AddCall} (hcall : s.calls[i]? = some call)

include hcall

theorem returnedBy_open {phase : Phase} (hold : ∀ rule, call.phase ≠ .returned rule) (hnew : ∀ rule, phase ≠ .returned rule)
    (j : Nat) : returnedBy (s.setPhase i call phase) j = returnedBy s j := by
  by_cases hij : i = j
  · subst hij
    obtain ⟨userId, watchId, dto, old⟩ := call
    rw [returnedBy, returnedBy, getElem?_setPhase hcall, if_pos rfl, hcall]
    cases old <;> cases phase <;> simp_all
  · exact returnedBy_setPhase hcall hij

theorem pendingOf_eq {pending : Pending} (hphase : call.phase = .saving pending) : pendingOf s i = some pending := by
  obtain ⟨userId, watchId, dto, phase⟩ := call
  cases hphase
  rw [pendingOf, hcall]

theorem quiet_thrown (hphase : ∀ rule, call.phase ≠ .returned rule) (message : String) :
    Quiet s (s.setPhase i call (.thrown message)) := by
  refine ⟨rfl, rfl, rfl, returnedBy_open hcall hphase nofun, fun j pending hpending => ?_⟩
  by_cases hij : i = j
  · subst hij
    rw [pendingOf, getElem?_setPhase hcall, if_pos rfl] at hpending
    cases hpending
  · rwa [pendingOf_setPhase hcall hij] at hpending

/-- A watch that is found waits with a fresh rule. -/
theorem invariant_found (hs : Invariant before s) (hphase : call.phase = .finding) {rule : AlertRuleDefinition}
    (hid : rule.id = s.nextId) {watch : Watch} (hwatch : watch.alertRules = s.stored.alertRules ++ [rule]) :
    Invariant before { s.setPhase i call (.saving ⟨watch, rule, s.added.length⟩) with nextId := s.nextId + 1 } := by
  have hpendingOf (j : Nat) : pendingOf
      { s.setPhase i call (.saving ⟨watch, rule, s.added.length⟩) with nextId := s.nextId + 1 } j =
        if i = j then some ⟨watch, rule, s.added.length⟩ else pendingOf s j := by
    split
    next hij =>
      subst hij
      exact pendingOf_eq (getElem?_setPhase hcall |>.trans (if_pos rfl)) rfl
    next hij => exact pendingOf_setPhase hcall hij
  have hreturnedBy (j : Nat) : returnedBy (s.setPhase i call (.saving ⟨watch, rule, s.added.length⟩)) j = returnedBy s j :=
    returnedBy_open hcall (fun rule' h => nomatch hphase.symm.trans h) (by nofun) j
  obtain ⟨hbase, hids⟩ := hs.ids
  constructor
  case stored => exact hs.stored
  case ids => exact ⟨Nat.le_succ_of_le hbase, fun rule' h => ⟨(hids rule' h).1, Nat.lt_succ_of_lt (hids rule' h).2⟩⟩
  case nodup => exact hs.nodup
  case returned =>
    intro rule'
    exact (hs.returned rule').trans (exists_congr fun j => by rw [← hreturnedBy j]; rfl)
  case pending =>
    intro j pending hj
    rw [hpendingOf] at hj
    split at hj
    next =>
      cases hj
      constructor
      case seen => exact Nat.le_refl _
      case own => simp [hwatch]
      case known =>
        intro rule' h
        rw [hwatch] at h
        rcases List.mem_append.mp h with h | h
        · refine .inr ((hs.stored rule' h).imp_right fun h => ?_)
          change rule' ∈ s.added.take s.added.length
          rwa [List.take_length]
        · exact .inl (List.mem_singleton.mp h)
      case newest => exact fun _ rule' h => by rw [hwatch]; exact List.mem_append_left _ h
      case unused =>
        rw [hid]
        exact ⟨hbase, Nat.lt_succ_self _⟩
      case unadded =>
        intro h
        obtain ⟨other, hother, hsame⟩ := List.mem_map.mp h
        exact absurd (hsame.trans hid) (hids other hother).2.ne
    next =>
      obtain ⟨hseen, hown, hknown, hnewest, hunused, hunadded⟩ := hs.pending j pending hj
      exact ⟨hseen, hown, hknown, hnewest, ⟨hunused.1, Nat.lt_succ_of_lt hunused.2⟩, hunadded⟩
  case distinct =>
    intro j k pending other hj hk hsame
    rw [hpendingOf] at hj hk
    split at hj
    next hij =>
      split at hk
      next hik => exact hij.symm.trans hik
      next =>
        cases hj
        exact absurd (hsame.symm.trans hid) (hs.pending k other hk).unused.2.ne
    next =>
      split at hk
      next =>
        cases hk
        exact absurd (hsame.trans hid) (hs.pending j pending hj).unused.2.ne
      next => exact hs.distinct j k pending other hj hk hsame

theorem invariant_saved (hs : Invariant before s) {pending : Pending} (hphase : call.phase = .saving pending) :
    Invariant before (saveWatch s i call pending) := by
  have hok := hs.pending i pending (pendingOf_eq hcall hphase)
  have hreturnedBy (j : Nat) : returnedBy (saveWatch s i call pending) j =
      if i = j then some pending.rule else returnedBy s j := by
    split
    next hij =>
      subst hij
      have hset : (saveWatch s i call pending).calls[i]? = some { call with phase := .returned pending.rule } :=
        (getElem?_setPhase hcall).trans (if_pos rfl)
      rw [returnedBy, hset]
    next hij => exact returnedBy_setPhase hcall hij
  have hnone : returnedBy s i = none := by
    obtain ⟨userId, watchId, dto, phase⟩ := call
    cases hphase
    rw [returnedBy, hcall]
  have hpendingOf (j : Nat) : pendingOf (saveWatch s i call pending) j = if i = j then none else pendingOf s j := by
    split
    next hij =>
      subst hij
      have hset : (saveWatch s i call pending).calls[i]? = some { call with phase := .returned pending.rule } :=
        (getElem?_setPhase hcall).trans (if_pos rfl)
      rw [pendingOf, hset]
    next hij => exact pendingOf_setPhase hcall hij
  have hadded : (saveWatch s i call pending).added = s.added ++ [pending.rule] := rfl
  constructor
  case stored =>
    intro rule h
    rw [hadded]
    rcases hok.known rule h with rfl | hbefore | hearlier
    · exact .inr (List.mem_append_right _ List.mem_cons_self)
    · exact .inl hbefore
    · exact .inr (List.mem_append_left _ (List.mem_of_mem_take hearlier))
  case ids =>
    refine ⟨hs.ids.1, fun rule h => ?_⟩
    rw [hadded] at h
    rcases List.mem_append.mp h with h | h
    · exact hs.ids.2 rule h
    · cases List.mem_singleton.mp h
      exact hok.unused
  case nodup =>
    rw [hadded, List.map_append, List.nodup_append]
    refine ⟨hs.nodup, List.nodup_singleton _, ?_⟩
    rintro a ha b hb rfl
    exact hok.unadded (List.mem_singleton.mp hb ▸ ha)
  case returned =>
    intro rule
    simp only [hadded, hreturnedBy, List.mem_append, List.mem_singleton, hs.returned rule]
    constructor
    · rintro (⟨j, hj⟩ | rfl)
      · refine ⟨j, ?_⟩
        rw [if_neg fun hij => by rw [← hij, hnone] at hj; cases hj]
        exact hj
      · exact ⟨i, if_pos rfl⟩
    · rintro ⟨j, hj⟩
      split at hj
      next => exact .inr (Option.some.inj hj).symm
      next => exact .inl ⟨j, hj⟩
  case pending =>
    intro j other hj
    rw [hpendingOf] at hj
    split at hj
    next => cases hj
    next hij =>
      obtain ⟨hseen, hown, hknown, -, hunused, hunadded⟩ := hs.pending j other hj
      refine ⟨?_, hown, fun rule h => ?_, fun h => ?_, hunused, fun h => ?_⟩
      · rw [hadded, List.length_append]
        omega
      · rw [hadded, List.take_append_of_le_length hseen]
        exact hknown rule h
      · rw [hadded, List.length_append, List.length_singleton] at h
        omega
      · rw [hadded, List.map_append] at h
        rcases List.mem_append.mp h with h | h
        · exact hunadded h
        · exact hij (hs.distinct i j pending other (pendingOf_eq hcall hphase) hj (List.mem_singleton.mp h).symm)
  case distinct =>
    intro j k first second hj hk
    rw [hpendingOf] at hj hk
    split at hj
    next => cases hj
    next =>
      split at hk
      next => cases hk
      next => exact hs.distinct j k first second hj hk

theorem kept_saved (hs : Invariant before s) (hk : Kept before s) {pending : Pending}
    (hphase : call.phase = .saving pending) :
    Kept before (saveWatch s i call pending) ↔ pending.seen = s.added.length := by
  have hpending := pendingOf_eq hcall hphase
  have hok := hs.pending i pending hpending
  constructor
  · intro hkept
    by_contra hne
    have hlate : pending.seen < s.added.length := lt_of_le_of_ne hok.seen hne
    obtain ⟨j, hj⟩ := (hs.returned _).mp (List.getElem_mem hlate)
    have hij : i ≠ j := by
      rintro rfl
      obtain ⟨userId, watchId, dto, phase⟩ := call
      cases hphase
      rw [returnedBy, hcall] at hj
      cases hj
    have hj' : returnedBy (saveWatch s i call pending) j = some s.added[pending.seen] :=
      (returnedBy_setPhase hcall hij).trans hj
    exact missing_of_late hs hpending hlate (hkept.2 j _ hj')
  · intro hseen
    have hstored := hok.newest hseen
    refine ⟨fun rule h => hstored rule (hk.1 rule h), fun j rule hj => ?_⟩
    by_cases hij : i = j
    · subst hij
      have hset : (saveWatch s i call pending).calls[i]? = some { call with phase := .returned pending.rule } :=
        (getElem?_setPhase hcall).trans (if_pos rfl)
      rw [returnedBy, hset] at hj
      cases hj
      exact hok.own
    · exact hstored rule (hk.2 j rule ((returnedBy_setPhase hcall hij).symm.trans hj))

end Calls

theorem kept_of_quiet (hk : Kept before s) (h : Quiet s t) : Kept before t := by
  refine ⟨?_, fun i rule hi => ?_⟩
  · rw [h.stored]
    exact hk.1
  · rw [h.returned] at hi
    rw [h.stored]
    exact hk.2 i rule hi

/-- A find is quiet, or lets the watch wait with a fresh rule. -/
theorem findWatch_cases {i : Nat} {call : AddCall} (hcall : s.calls[i]? = some call) (hphase : call.phase = .finding) :
    Quiet s (findWatch s i call) ∨ ∃ rule watch, rule.id = s.nextId ∧ watch.alertRules = s.stored.alertRules ++ [rule] ∧
      findWatch s i call =
        { s.setPhase i call (.saving ⟨watch, rule, s.added.length⟩) with nextId := s.nextId + 1 } := by
  have hopen : ∀ rule, call.phase ≠ .returned rule := fun rule h => nomatch hphase.symm.trans h
  rw [findWatch]
  split
  next =>
    split
    next => exact .inl (quiet_thrown hcall hopen _)
    next rule hrule => exact .inr ⟨rule, _, (toAlertRule_ok hrule).1, rfl, rfl⟩
  next => exact .inl (quiet_thrown hcall hopen _)

theorem invariant_preserved (before : List AlertRuleDefinition) : Preserves step always (Invariant before) := by
  intro s a t hs _ h
  obtain ⟨userId, watchId, dto, -, rfl⟩ | ⟨i, call, -, hcall, hphase, rfl⟩ | ⟨i, call, pending, -, hcall, hphase, rfl⟩ |
    ⟨i, call, message, -, hcall, hphase, rfl⟩ := step_cases h
  · exact invariant_of_quiet hs (quiet_call userId watchId dto)
  · rcases findWatch_cases hcall hphase with hquiet | ⟨rule, watch, hid, hwatch, hfound⟩
    · exact invariant_of_quiet hs hquiet
    · rw [hfound]
      exact invariant_found hcall hs hphase hid hwatch
  · exact invariant_saved hcall hs hphase
  · exact invariant_of_quiet hs (quiet_thrown hcall hphase message)

theorem kept_iff_timely (hs : Invariant before s) (hk : Kept before s) {a : Act} (h : step s a = some t) :
    Kept before t ↔ Timely s a := by
  obtain ⟨userId, watchId, dto, rfl, rfl⟩ | ⟨i, call, rfl, hcall, hphase, rfl⟩ | ⟨i, call, pending, rfl, hcall, hphase, rfl⟩ |
    ⟨i, call, message, rfl, hcall, hphase, rfl⟩ := step_cases h
  · exact iff_of_true (kept_of_quiet hk (quiet_call userId watchId dto)) trivial
  · refine iff_of_true ?_ trivial
    rcases findWatch_cases hcall hphase with hquiet | ⟨rule, watch, hid, hwatch, hfound⟩
    · exact kept_of_quiet hk hquiet
    · rw [hfound]
      have hreturned (j : Nat) : returnedBy (s.setPhase i call (.saving ⟨watch, rule, s.added.length⟩)) j =
          returnedBy s j := returnedBy_open hcall (fun rule' h => nomatch hphase.symm.trans h) (by nofun) j
      exact ⟨hk.1, fun j rule' hj => hk.2 j rule' ((hreturned j).symm.trans hj)⟩
  · rw [kept_saved hcall hs hk hphase, Timely, pendingOf_eq hcall hphase]
    simp
  · exact iff_of_true (kept_of_quiet hk (quiet_thrown hcall hphase message)) trivial

end Steps

/-- No added rule is ever missing from the stored watch exactly when no call saves the watch after another has saved it
since this one found it. -/
theorem added_rules_kept_iff (watch : Watch) (acts : List Act) :
    Throughout step (Kept watch.alertRules) (start watch) acts ↔ Guarded step Timely (start watch) acts := by
  have hstart : Kept watch.alertRules (start watch) := ⟨fun rule h => h, fun i rule h => by cases h⟩
  exact throughout_iff_guarded_of_inv (invariant_preserved watch.alertRules)
    (fun s a t hs hk h => kept_iff_timely hs hk h) (invariant_start watch) hstart acts

def accountWatch : Watch := ⟨0, 7, [], .account, none, .testnet, [.payment], []⟩

def anyActivity : AlertRuleDto := { type := .anyActivity }

/-- Two calls that find the watch before either saves it. -/
def overlapping : List Act := [.call 7 0 anyActivity, .call 7 0 anyActivity, .find 0, .find 1, .save 0, .save 1]

/-- Of two calls that have both returned, the rule of the first is lost. -/
theorem not_added_rules_kept : ¬∀ (watch : Watch) (acts : List Act) (s : State), run step (start watch) acts = some s →
    (∀ i < s.calls.length, (returnedBy s i).isSome) → Kept watch.alertRules s := by
  intro h
  obtain ⟨s, hrun, hs⟩ := exists_of_run_any step (start accountWatch) overlapping
    (fun s => decide ((∀ i < s.calls.length, (returnedBy s i).isSome) ∧
      (returnedBy s 0).any fun rule => decide (rule ∉ s.stored.alertRules))) (by decide)
  obtain ⟨hall, hlost⟩ := of_decide_eq_true hs
  obtain ⟨rule, hrule, hmissing⟩ := (Option.any_eq_true _ _).mp hlost
  exact of_decide_eq_true hmissing ((h accountWatch overlapping s hrun hall).2 0 rule hrule)

end Savitools.Monitor.KeptRules
