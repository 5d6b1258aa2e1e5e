import Savitools.Dates.IsoTexts
import Savitools.Json.Conversions
import Savitools.Transitions.Runs
import Savitools.Stores.Table

namespace Savitools.Contracts.ContractQuota

open Strings.CodeUnits Dates.IsoTexts Json.Numbers Json.Conversions Transitions.Runs

inductive ContractQuotaAction
  | deploy
  | invoke
deriving DecidableEq

def defaultContractDailyDeployQuota : Nat := 10

def defaultContractDailyInvokeQuota : Nat := 100

def quotaDefaults : ContractQuotaAction → Nat
  | .deploy => defaultContractDailyDeployQuota
  | .invoke => defaultContractDailyInvokeQuota

def actionText : ContractQuotaAction → Text
  | .deploy => text "deploy"
  | .invoke => text "invoke"

/-- The two settings `CONTRACT_DAILY_DEPLOY_QUOTA` and `CONTRACT_DAILY_INVOKE_QUOTA`, and
whether there is a Redis client. -/
structure Config where
  quota : ContractQuotaAction → Option Text
  redis : Bool

def getLimit (cfg : Config) (action : ContractQuotaAction) : Nat :=
  match cfg.quota action with
  | none | some [] => quotaDefaults action
  | some raw =>
      match parseInt raw with
      | some (.finite q) => if 0 ≤ q then q.num.toNat else quotaDefaults action
      | _ => quotaDefaults action

structure Call where
  userId : Text
  action : ContractQuotaAction
  now : Int
deriving DecidableEq

def Call.day (call : Call) : Text := (toISOString call.now).take 10

def Call.key (call : Call) : Text :=
  text "contracts:quota:" ++ actionText call.action ++ unit ':' :: call.userId ++ unit ':' :: call.day

/-- A call of `consume`, cut at its awaits. The last two are its ends: it returns, or it
throws 429. Which counter a grant is from is history: no step reads it. -/
inductive Phase
  | incrementing
  | expiring
  | granted (fallback : Bool)
  | refused
deriving DecidableEq

/-- The counters of Redis, which all instances share, and the instance with its calls. -/
structure State where
  redis : Text → Nat
  localCounters : Text → Nat
  localDay : Text
  calls : List (Call × Phase)

def init (redis : Text → Nat) : State := ⟨redis, fun _ => 0, [], []⟩

/-- How a call of Redis ends. A rejected increment may have been counted all the same. -/
inductive Answer
  | ok
  | rejected (counted : Bool)

inductive Act
  | consume (call : Call)
  | incr (i : Nat) (answer : Answer)
  | expire (i : Nat) (ok : Bool)
  | elsewhere (key : Text)

def count (counters : Text → Nat) (key : Text) : Text → Nat :=
  fun k => if k = key then counters k + 1 else counters k

def State.countRedis (s : State) (key : Text) : State := { s with redis := count s.redis key }

/-- The end of `consume`: `used` is what `increment` returned. -/
def settle (cfg : Config) (call : Call) (used : Nat) (fallback : Bool) : Phase :=
  if getLimit cfg call.action < used then .refused else .granted fallback

/-- The local counters, emptied when the day is another one. -/
def State.countersFor (s : State) (day : Text) : Text → Nat :=
  if s.localDay = day then s.localCounters else fun _ => 0

/-- The part of `increment` after the catch. -/
def State.countLocally (s : State) (call : Call) : Nat × State :=
  (s.countersFor call.day call.key + 1,
    { s with localCounters := count (s.countersFor call.day) call.key, localDay := call.day })

def State.fallBack (cfg : Config) (s : State) (call : Call) : Phase × State :=
  (settle cfg call (s.countLocally call).1 true, (s.countLocally call).2)

def State.setPhase (s : State) (i : Nat) (call : Call) (phase : Phase) : State :=
  { s with calls := s.calls.set i (call, phase) }

def State.begin (s : State) (call : Call) (phase : Phase) : State := { s with calls := s.calls ++ [(call, phase)] }

def consume (cfg : Config) (s : State) (call : Call) : State :=
  if cfg.redis then s.begin call .incrementing
  else
    let (phase, s) := s.fallBack cfg call
    s.begin call phase

def incr (cfg : Config) (s : State) (i : Nat) (call : Call) : Answer → State
  | .ok =>
      let used := s.redis call.key + 1
      (s.countRedis call.key).setPhase i call (if used = 1 then .expiring else settle cfg call used false)
  | .rejected counted =>
      let s := if counted then s.countRedis call.key else s
      let (phase, s) := s.fallBack cfg call
      s.setPhase i call phase

def expire (cfg : Config) (s : State) (i : Nat) (call : Call) (ok : Bool) : State :=
  if ok then s.setPhase i call (settle cfg call 1 false)
  else
    let (phase, s) := s.fallBack cfg call
    s.setPhase i call phase

def step (cfg : Config) : Step State Act
  | s, .consume call => some (consume cfg s call)
  | s, .incr i answer =>
      match s.calls[i]? with
      | some (call, .incrementing) => some (incr cfg s i call answer)
      | _ => none
  | s, .expire i ok =>
      match s.calls[i]? with
      | some (call, .expiring) => some (expire cfg s i call ok)
      | _ => none
  | s, .elsewhere key => some (s.countRedis key)

end Savitools.Contracts.ContractQuota

namespace Savitools.Contracts.QuotaCounters

open Strings.CodeUnits Dates.IsoTexts Transitions.Runs Stores.Table ContractQuota

/-- What the daily limit is on. -/
structure Quota where
  userId : Text
  action : ContractQuotaAction
  day : Int
deriving DecidableEq

def quotaOf (call : Call) : Quota := ⟨call.userId, call.action, utcDay call.now⟩

def Quota.day10 (quota : Quota) : Text := (dateText quota.day).take 10

def Quota.key (quota : Quota) : Text :=
  text "contracts:quota:" ++ actionText quota.action ++ unit ':' :: quota.userId ++ unit ':' :: quota.day10

def countOf (s : State) (quota : Quota) (phase : Phase) : Nat :=
  s.calls.countP (fun c => quotaOf c.1 = quota ∧ c.2 = phase)

/-- The calls that were granted, by either counter. -/
def granted (s : State) (quota : Quota) : Nat := countOf s quota (.granted false) + countOf s quota (.granted true)

def Kept (cfg : Config) (s : State) : Prop := ∀ quota, granted s quota ≤ getLimit cfg quota.action

/-- The counter value that decides a call in this step, and whether it is a local one. -/
def counted (cfg : Config) (s : State) : Act → Option (Call × Nat × Bool)
  | .consume call => if cfg.redis then none else some (call, (s.countLocally call).1, true)
  | .incr i answer =>
      match s.calls[i]? with
      | some (call, .incrementing) =>
          match answer with
          | .ok => if s.redis call.key = 0 then none else some (call, s.redis call.key + 1, false)
          | .rejected _ => some (call, (s.countLocally call).1, true)
      | _ => none
  | .expire i ok =>
      match s.calls[i]? with
      | some (call, .expiring) => some (call, if ok then (1, false) else ((s.countLocally call).1, true))
      | _ => none
  | .elsewhere _ => none

theorem key_eq (call : Call) : call.key = (quotaOf call).key := by
  rw [Call.key, Call.day, take_toISOString]
  rfl

theorem day_eq (call : Call) : call.day = (quotaOf call).day10 := take_toISOString call.now

/-- All that a step can do, by what decides the call. -/
inductive Effect (cfg : Config) (s : State) (a : Act) : State → Prop
  | elsewhere (key : Text) (hnone : counted cfg s a = none) : Effect cfg s a (s.countRedis key)
  | begun (call : Call) (hnone : counted cfg s a = none) :
      Effect cfg s a (s.begin call .incrementing)
  | first {i : Nat} {call : Call} (hi : s.calls[i]? = some (call, .incrementing)) (hzero : s.redis call.key = 0)
      (hnone : counted cfg s a = none) : Effect cfg s a ((s.countRedis call.key).setPhase i call .expiring)
  | metered {i : Nat} {call : Call} (hi : s.calls[i]? = some (call, .incrementing)) (hpos : s.redis call.key ≠ 0)
      (hsome : counted cfg s a = some (call, s.redis call.key + 1, false)) :
      Effect cfg s a ((s.countRedis call.key).setPhase i call (settle cfg call (s.redis call.key + 1) false))
  | expired {i : Nat} {call : Call} (hi : s.calls[i]? = some (call, .expiring))
      (hsome : counted cfg s a = some (call, 1, false)) : Effect cfg s a (s.setPhase i call (settle cfg call 1 false))
  | fellBack {i : Nat} {call : Call} {phase : Phase} (redis : Text → Nat) (hi : s.calls[i]? = some (call, phase))
      (hphase : phase = .incrementing ∨ phase = .expiring) (hredis : ∀ key, s.redis key ≤ redis key)
      (hsome : counted cfg s a = some (call, (s.countLocally call).1, true)) :
      Effect cfg s a ({ (s.countLocally call).2 with redis := redis }.setPhase i call
        (settle cfg call (s.countLocally call).1 true))
  | metLocally (call : Call) (hsome : counted cfg s a = some (call, (s.countLocally call).1, true)) :
      Effect cfg s a ((s.countLocally call).2.begin call (settle cfg call (s.countLocally call).1 true))

theorem le_count (counters : Text → Nat) (key k : Text) : counters k ≤ count counters key k := by
  rw [count]
  split <;> omega

theorem step_effect {cfg : Config} {s t : State} {a : Act} (h : step cfg s a = some t) : Effect cfg s a t := by
  cases a with
  | elsewhere key =>
      obtain rfl := Option.some.inj h
      exact .elsewhere key rfl
  | consume call =>
      obtain rfl := Option.some.inj h
      rw [consume]
      split
      next hredis => exact .begun call (if_pos hredis)
      next hredis => exact .metLocally call (if_neg hredis)
  | incr i answer =>
      rw [step] at h
      split at h
      next call hi =>
        obtain rfl := Option.some.inj h
        cases answer with
        | ok =>
            rw [incr]
            by_cases hzero : s.redis call.key = 0
            · simp only [hzero, Nat.zero_add, if_true]
              exact .first hi hzero (by simp only [counted, hi, hzero, if_true])
            · simp only [Nat.add_eq_right, hzero, if_false]
              exact .metered hi hzero (by simp only [counted, hi, hzero, if_false])
        | rejected reached =>
            have hsome : counted cfg s (.incr i (.rejected reached)) = some (call, (s.countLocally call).1, true) := by
              simp only [counted, hi]
            cases reached with
            | false => exact .fellBack s.redis hi (.inl rfl) (fun _ => Nat.le_refl _) hsome
            | true => exact .fellBack (count s.redis call.key) hi (.inl rfl) (le_count s.redis call.key) hsome
      next => cases h
  | expire i ok =>
      rw [step] at h
      split at h
      next call hi =>
        obtain rfl := Option.some.inj h
        cases ok with
        | true => exact .expired hi (by simp only [counted, hi, if_true])
        | false =>
            exact .fellBack s.redis hi (.inr rfl) (fun _ => Nat.le_refl _)
              (by simp only [counted, hi, Bool.false_eq_true, if_false])
      next => cases h

theorem countOf_begin (s : State) (call : Call) (phase : Phase) (quota : Quota) (p : Phase) :
    countOf (s.begin call phase) quota p = countOf s quota p + if quotaOf call = quota ∧ phase = p then 1 else 0 := by
  rw [countOf, State.begin, List.countP_append, List.countP_singleton]
  simp only [countOf, decide_eq_true_eq]

theorem countOf_setPhase {s : State} {i : Nat} {call : Call} {old : Phase} (hi : s.calls[i]? = some (call, old))
    (phase : Phase) (quota : Quota) (p : Phase) :
    countOf (s.setPhase i call phase) quota p + (if quotaOf call = quota ∧ old = p then 1 else 0) =
      countOf s quota p + if quotaOf call = quota ∧ phase = p then 1 else 0 := by
  have h := @countP_set_add _ (fun c => decide (quotaOf c.1 = quota ∧ c.2 = p)) _ _ _ (call, phase) hi
  simp only [decide_eq_true_eq] at h
  exact h

/-- What a counter value adds to the grants of a quota. -/
def gain (cfg : Config) (quota : Quota) : Call × Nat × Bool → Nat
  | (call, used, _) => if quotaOf call = quota ∧ used ≤ getLimit cfg call.action then 1 else 0

theorem settle_eq_granted {cfg : Config} {call : Call} {used : Nat} {fallback other : Bool} :
    settle cfg call used fallback = .granted other ↔ used ≤ getLimit cfg call.action ∧ fallback = other := by
  rw [settle]
  split
  next h => simp [Nat.not_le_of_lt h]
  next h => simp [Nat.le_of_not_lt h]

theorem granted_setPhase {s : State} {i : Nat} {call : Call} {old : Phase} (hi : s.calls[i]? = some (call, old))
    (hold : old = .incrementing ∨ old = .expiring) (phase : Phase) (quota : Quota) (fallback : Bool) :
    countOf (s.setPhase i call phase) quota (.granted fallback) =
      countOf s quota (.granted fallback) + if quotaOf call = quota ∧ phase = .granted fallback then 1 else 0 := by
  have h := countOf_setPhase hi phase quota (.granted fallback)
  have hne : old ≠ .granted fallback := by
    rcases hold with rfl | rfl <;> exact Phase.noConfusion
  rwa [if_neg (fun hc => hne hc.2), Nat.add_zero] at h

/-- Every call of a quota is decided by the same counter, and the local counters are not
emptied for a day on which they have granted calls. -/
def OneCounter (cfg : Config) (s : State) (a : Act) : Prop :=
  ∀ c ∈ counted cfg s a,
    if c.2.2 then
      countOf s (quotaOf c.1) (.granted false) = 0 ∧
        (s.localDay ≠ c.1.day → ∀ quota, quota.day10 = c.1.day → countOf s quota (.granted true) = 0)
    else countOf s (quotaOf c.1) (.granted true) = 0

/-- What the grants of a quota have to do with its two counters. -/
structure Metered (cfg : Config) (s : State) (quota : Quota) : Prop where
  counted : countOf s quota (.granted false) + countOf s quota .expiring ≤ s.redis quota.key
  limited : 0 < getLimit cfg quota.action →
    countOf s quota (.granted false) + countOf s quota .expiring ≤ getLimit cfg quota.action
  closed : getLimit cfg quota.action = 0 → countOf s quota (.granted false) = 0
  countedLocally : quota.day10 = s.localDay → countOf s quota (.granted true) ≤ s.localCounters quota.key
  limitedLocally : countOf s quota (.granted true) ≤ getLimit cfg quota.action
  one : countOf s quota (.granted true) = 0 ∨ countOf s quota (.granted false) = 0

theorem Metered.granted_le {cfg : Config} {s : State} {quota : Quota} (h : Metered cfg s quota) :
    granted s quota ≤ getLimit cfg quota.action := by
  rw [granted]
  rcases h.one with hnone | hnone
  · rcases Nat.eq_zero_or_pos (getLimit cfg quota.action) with hzero | hpos
    · rw [hnone, h.closed hzero]
      exact Nat.zero_le _
    · have := h.limited hpos
      omega
  · rw [hnone, Nat.zero_add]
    exact h.limitedLocally

theorem count_self (counters : Text → Nat) (key : Text) : count counters key key = counters key + 1 := if_pos rfl

theorem countOf_other {s : State} {i : Nat} {call : Call} {old : Phase} (hi : s.calls[i]? = some (call, old))
    (phase : Phase) {quota : Quota} (hq : quotaOf call ≠ quota) (p : Phase) :
    countOf (s.setPhase i call phase) quota p = countOf s quota p := by
  have h := countOf_setPhase hi phase quota p
  rwa [if_neg (fun hc => hq hc.1), if_neg (fun hc => hq hc.1)] at h

theorem countOf_settled {cfg : Config} {s : State} {i : Nat} {call : Call} {old : Phase}
    (hi : s.calls[i]? = some (call, old)) (hold : old = .incrementing ∨ old = .expiring) (used : Nat)
    (fallback other : Bool) (quota : Quota) :
    countOf (s.setPhase i call (settle cfg call used fallback)) quota (.granted other) =
      countOf s quota (.granted other) +
        if (quotaOf call = quota ∧ used ≤ getLimit cfg call.action) ∧ fallback = other then 1 else 0 := by
  rw [granted_setPhase hi hold]
  simp only [settle_eq_granted, and_assoc]

theorem expiring_settled {cfg : Config} {s : State} {i : Nat} {call : Call} {old : Phase}
    (hi : s.calls[i]? = some (call, old)) (used : Nat) (fallback : Bool) (quota : Quota) :
    countOf (s.setPhase i call (settle cfg call used fallback)) quota .expiring +
        (if quotaOf call = quota ∧ old = .expiring then 1 else 0) = countOf s quota .expiring := by
  have hne : settle cfg call used fallback ≠ .expiring := by
    rw [settle]
    split <;> exact Phase.noConfusion
  have hnew : ¬(quotaOf call = quota ∧ settle cfg call used fallback = .expiring) := fun hc => hne hc.2
  have h := countOf_setPhase hi (settle cfg call used fallback) quota .expiring
  rwa [if_neg hnew, Nat.add_zero] at h

/-- A step that neither grants a call of the quota nor touches its local counter. -/
theorem Metered.later {cfg : Config} {s t : State} {quota : Quota} (h : Metered cfg s quota)
    (hgranted : ∀ fallback, countOf t quota (.granted fallback) = countOf s quota (.granted fallback))
    (hexpiring : countOf t quota .expiring = countOf s quota .expiring) (hredis : ∀ key, s.redis key ≤ t.redis key)
    (hday : t.localDay = s.localDay) (hlocal : t.localCounters = s.localCounters) : Metered cfg t quota := by
  obtain ⟨hcounted, hlimited, hclosed, hcountedLocally, hlimitedLocally, hone⟩ := h
  constructor <;> simp only [hgranted, hexpiring, hday, hlocal]
  · exact Nat.le_trans hcounted (hredis _)
  · exact hlimited
  · exact hclosed
  · exact hcountedLocally
  · exact hlimitedLocally
  · exact hone

/-- The grants of the local counter stay below its value and below the limit. -/
theorem fallback_part {cfg : Config} {s : State} {call : Call} (hs : ∀ quota, Metered cfg s quota)
    (hday : s.localDay ≠ call.day → ∀ quota, quota.day10 = call.day → countOf s quota (.granted true) = 0)
    (quota : Quota) {l : Nat} (hl : l = countOf s quota (.granted true) +
      if quotaOf call = quota ∧ (s.countLocally call).1 ≤ getLimit cfg call.action then 1 else 0) :
    (quota.day10 = call.day → l ≤ (s.countLocally call).2.localCounters quota.key) ∧ l ≤ getLimit cfg quota.action := by
  have hbase (hq : quota.day10 = call.day) : countOf s quota (.granted true) ≤ s.countersFor call.day quota.key := by
    rw [State.countersFor]
    split
    next hsame => exact (hs quota).countedLocally (hq.trans hsame.symm)
    next hother => exact Nat.le_of_eq (hday hother quota hq)
  have hused : (s.countLocally call).1 = s.countersFor call.day call.key + 1 := rfl
  have hcounters : (s.countLocally call).2.localCounters = count (s.countersFor call.day) call.key := rfl
  rw [hcounters]
  by_cases hq : quotaOf call = quota
  · subst hq
    have hthis := hbase (day_eq call).symm
    rw [← key_eq] at hthis ⊢
    rw [count_self]
    split at hl
    next hroom =>
      have hlimit := hroom.2
      rw [hused] at hlimit
      exact ⟨fun _ => by omega, hl ▸ Nat.le_trans (Nat.succ_le_succ hthis) hlimit⟩
    next => exact ⟨fun _ => by omega, hl ▸ (hs _).limitedLocally⟩
  · rw [if_neg (fun hc => hq hc.1), Nat.add_zero] at hl
    exact ⟨fun hq => hl ▸ Nat.le_trans (hbase hq) (le_count _ _ _), hl ▸ (hs quota).limitedLocally⟩

/-- A call that falls back: its quota has no grants by Redis, and now one fewer that may get one. -/
theorem Metered.fallBack {cfg : Config} {s t : State} {call : Call} {quota : Quota} (hs : ∀ quota, Metered cfg s quota)
    (hclear : countOf s (quotaOf call) (.granted false) = 0)
    (hday : s.localDay ≠ call.day → ∀ quota, quota.day10 = call.day → countOf s quota (.granted true) = 0)
    (hgranted : countOf t quota (.granted false) = countOf s quota (.granted false))
    (hexpiring : countOf t quota .expiring ≤ countOf s quota .expiring)
    (hfallback : countOf t quota (.granted true) = countOf s quota (.granted true) +
      if quotaOf call = quota ∧ (s.countLocally call).1 ≤ getLimit cfg call.action then 1 else 0)
    (hredis : ∀ key, s.redis key ≤ t.redis key) (hlocalDay : t.localDay = call.day)
    (hlocal : t.localCounters = (s.countLocally call).2.localCounters) : Metered cfg t quota := by
  obtain ⟨hcounted, hlimited, hclosed, -, -, hone⟩ := hs quota
  obtain ⟨hbelow, hlimit⟩ := fallback_part hs hday quota hfallback
  have hkey := hredis quota.key
  refine ⟨by omega, fun hpos => ?_, fun hzero => hgranted ▸ hclosed hzero, ?_, hlimit, ?_⟩
  · have := hlimited hpos
    omega
  · rw [hlocalDay, hlocal]
    exact hbelow
  · by_cases hq : quotaOf call = quota
    · exact .inr (hgranted ▸ hq ▸ hclear)
    · rw [if_neg (fun hc => hq hc.1), Nat.add_zero] at hfallback
      rwa [hgranted, hfallback]

/-- A call that Redis decides: its quota has no local grants. -/
theorem Metered.settled {cfg : Config} {s t : State} {call : Call} {used : Nat} (h : Metered cfg s (quotaOf call))
    (hclear : countOf s (quotaOf call) (.granted true) = 0) (hpos : 0 < used)
    (hgranted : countOf t (quotaOf call) (.granted false) = countOf s (quotaOf call) (.granted false) +
      if used ≤ getLimit cfg call.action then 1 else 0)
    (hfallback : countOf t (quotaOf call) (.granted true) = countOf s (quotaOf call) (.granted true))
    (hcounted : countOf s (quotaOf call) (.granted false) + countOf t (quotaOf call) .expiring + 1 ≤ t.redis call.key)
    (hlimited : used ≤ getLimit cfg call.action →
      countOf s (quotaOf call) (.granted false) + countOf t (quotaOf call) .expiring + 1 ≤ getLimit cfg call.action)
    (hexpiring : countOf t (quotaOf call) .expiring ≤ countOf s (quotaOf call) .expiring) :
    Metered cfg t (quotaOf call) := by
  have hnone := hfallback.trans hclear
  refine ⟨?_, fun hlimit => ?_, fun hzero => ?_, fun _ => ?_, ?_, .inl hnone⟩
  · rw [← key_eq]
    split at hgranted <;> omega
  · have hbefore := h.limited hlimit
    split at hgranted
    next hroom =>
      have hafter := hlimited hroom
      change _ ≤ getLimit cfg call.action
      omega
    next => omega
  · have hbefore := h.closed hzero
    have hclosed : ¬used ≤ getLimit cfg call.action := fun hroom => by
      have hlimit : getLimit cfg call.action = 0 := hzero
      omega
    rw [hgranted, if_neg hclosed, hbefore]
  · rw [hnone]
    exact Nat.zero_le _
  · rw [hnone]
    exact Nat.zero_le _

theorem metered_effect {cfg : Config} {s t : State} {a : Act} (hs : ∀ quota, Metered cfg s quota)
    (hg : OneCounter cfg s a) (h : Effect cfg s a t) (quota : Quota) : Metered cfg t quota := by
  cases h with
  | elsewhere key hnone => exact (hs quota).later (fun _ => rfl) rfl (le_count s.redis key) rfl rfl
  | begun call hnone =>
      have hsame (p : Phase) (hp : ¬.incrementing = p) :
          countOf (s.begin call .incrementing) quota p = countOf s quota p := by
        rw [countOf_begin, if_neg (fun hc => hp hc.2), Nat.add_zero]
      exact (hs quota).later (fun _ => hsame _ nofun) (hsame _ nofun) (fun _ => Nat.le_refl _) rfl rfl
  | @first i call hi hzero hnone =>
      by_cases hq : quotaOf call = quota
      · subst hq
        obtain ⟨hcounted, -, -, hlocally, hlimitedLocally, -⟩ := hs (quotaOf call)
        have hgranted := @granted_setPhase (s.countRedis call.key) _ _ _ hi (.inl rfl) .expiring (quotaOf call)
        have hexpiring := @countOf_setPhase (s.countRedis call.key) _ _ _ hi .expiring (quotaOf call) .expiring
        simp only [reduceCtorEq, and_false, if_false, and_true, if_true, Nat.add_zero] at hgranted hexpiring
        have hsame (p : Phase) : countOf (s.countRedis call.key) (quotaOf call) p = countOf s (quotaOf call) p := rfl
        rw [← key_eq, hzero] at hcounted
        constructor <;> simp only [hgranted, hexpiring, hsame]
        · rw [← key_eq]
          exact Nat.le_trans (Nat.succ_le_succ hcounted) (hzero ▸ Nat.le_of_eq (count_self s.redis call.key).symm)
        · omega
        · omega
        · exact hlocally
        · exact hlimitedLocally
        · omega
      · exact (hs quota).later (fun _ => countOf_other hi _ hq _) (countOf_other hi _ hq _) (le_count s.redis call.key) rfl rfl
  | @metered i call hi hpos hsome =>
      by_cases hq : quotaOf call = quota
      · subst hq
        have hclear := hg _ hsome
        simp only [Bool.false_eq_true, if_false] at hclear
        have hcounted := (hs (quotaOf call)).counted
        rw [← key_eq] at hcounted
        have hset := @countOf_settled cfg (s.countRedis call.key) _ _ _ hi (.inl rfl) (s.redis call.key + 1) false
        have hexpiring := @expiring_settled cfg (s.countRedis call.key) _ _ _ hi (s.redis call.key + 1) false (quotaOf call)
        rw [if_neg (fun hc => nomatch hc.2), Nat.add_zero] at hexpiring
        have hredis : (s.countRedis call.key).redis call.key = s.redis call.key + 1 := count_self s.redis call.key
        refine (hs (quotaOf call)).settled hclear (Nat.succ_pos (s.redis call.key)) ((hset false _).trans ?_) ((hset true _).trans ?_)
          ?_ ?_ (Nat.le_of_eq hexpiring)
        · simp only [and_true, true_and]
          rfl
        · rw [if_neg (fun hc => nomatch hc.2)]
          rfl
        · rw [hexpiring]
          exact Nat.le_trans (Nat.succ_le_succ hcounted) (Nat.le_of_eq hredis.symm)
        · rw [hexpiring]
          exact fun hroom => Nat.le_trans (Nat.succ_le_succ hcounted) hroom
      · exact (hs quota).later (fun _ => countOf_other hi _ hq _) (countOf_other hi _ hq _) (le_count s.redis call.key) rfl rfl
  | @expired i call hi hsome =>
      by_cases hq : quotaOf call = quota
      · subst hq
        have hclear := hg _ hsome
        simp only [Bool.false_eq_true, if_false] at hclear
        obtain ⟨hcounted, hlimited, -, -, -, -⟩ := hs (quotaOf call)
        rw [← key_eq] at hcounted
        have hset := @countOf_settled cfg s _ _ _ hi (.inr rfl) 1 false
        have hexpiring := @expiring_settled cfg s _ _ _ hi 1 false (quotaOf call)
        rw [if_pos ⟨rfl, rfl⟩] at hexpiring
        refine (hs (quotaOf call)).settled hclear Nat.one_pos ((hset false _).trans ?_) ((hset true _).trans ?_)
          ?_ ?_ (Nat.le.intro hexpiring)
        · simp only [and_true, true_and]
        · rw [if_neg (fun hc => nomatch hc.2), Nat.add_zero]
        · rw [Nat.add_assoc, hexpiring]
          exact hcounted
        · rw [Nat.add_assoc, hexpiring]
          exact hlimited
      · exact (hs quota).later (fun _ => countOf_other hi _ hq _) (countOf_other hi _ hq _) (fun _ => Nat.le_refl _) rfl rfl
  | @fellBack i call phase redis hi hphase hredis hsome =>
      have hg := hg _ hsome
      simp only [if_true] at hg
      have hset := @countOf_settled cfg { (s.countLocally call).2 with redis := redis } _ _ _ hi hphase
        (s.countLocally call).1 true
      have hexpiring := @expiring_settled cfg { (s.countLocally call).2 with redis := redis } _ _ _ hi
        (s.countLocally call).1 true quota
      refine Metered.fallBack hs hg.1 hg.2 ((hset false quota).trans ?_) (Nat.le.intro hexpiring)
        ((hset true quota).trans ?_) hredis rfl rfl
      · rw [if_neg (fun hc => nomatch hc.2)]
        rfl
      · simp only [and_true]
        rfl
  | metLocally call hsome =>
      have hg := hg _ hsome
      simp only [if_true] at hg
      have hbegin := countOf_begin (s.countLocally call).2 call (settle cfg call (s.countLocally call).1 true) quota
      have hne : ¬(quotaOf call = quota ∧ settle cfg call (s.countLocally call).1 true = .expiring) := by
        rw [settle]
        split <;> exact fun hc => nomatch hc.2
      refine Metered.fallBack hs hg.1 hg.2 ((hbegin _).trans ?_) (Nat.le_of_eq ((hbegin _).trans ?_)) ((hbegin _).trans ?_)
        (fun _ => Nat.le_refl _) rfl rfl
      · rw [if_neg (by simp [settle_eq_granted])]
        rfl
      · rw [if_neg hne]
        rfl
      · simp only [settle_eq_granted, and_true]
        rfl

theorem metered_init (cfg : Config) (redis : Text → Nat) (quota : Quota) : Metered cfg (init redis) quota :=
  ⟨Nat.zero_le _, fun _ => Nat.zero_le _, fun _ => rfl, fun _ => Nat.zero_le _, Nat.zero_le _, .inl rfl⟩

/-- As long as one counter decides all calls of a quota, Redis may fail as it likes. -/
theorem quota_kept_of_one_counter (cfg : Config) (redis : Text → Nat) {acts : List Act} {s : State}
    (hone : Guarded (step cfg) (OneCounter cfg) (init redis) acts) (hrun : run (step cfg) (init redis) acts = some s) :
    Kept cfg s := by
  have hpreserved : Preserves (step cfg) (OneCounter cfg) (fun s => ∀ quota, Metered cfg s quota) :=
    fun s a t hs hg h => metered_effect hs hg (step_effect h)
  exact fun quota => (hpreserved.run (metered_init cfg redis) hone hrun quota).granted_le

end Savitools.Contracts.QuotaCounters
