import Mathlib.Logic.Function.Basic
import Savitools.Monitor.AlertEvaluator
import Savitools.Transitions.Runs

namespace Savitools.Monitor.StateEvaluation

open Strings.CodeUnits Transitions.Runs Monitor.Types AlertRules AlertEvaluator

/-- Whether each rule was met at the previous evaluation; the rules it has no entry for
are falsy. -/
abbrev AlertRuleState := Nat → Option Bool

/-- The columns of a watch that the evaluation reads or writes. -/
structure Watch where
  id : Nat
  type : WatchType
  alertRules : List AlertRuleDefinition
  alertState : AlertRuleState
  lastEvaluatedAt : Option Text
  nodup : (alertRules.map AlertRuleDefinition.id).Nodup

/-- The payload of an alert of a state rule. -/
structure AlertPayload where
  ruleType : AlertRuleType
  publicKey : Text
  network : Text
  observedAt : Text
  observed : Option Text
  threshold : Option Text
  windowMinutes : Option Nat
  asset : Option Text
deriving DecidableEq

structure AlertEvent where
  watchId : Nat
  ruleId : Nat
  payload : AlertPayload
  deliveryStatus : DeliveryStatus
  deliveryAttempts : List DeliveryAttempt
deriving DecidableEq

/-- A watch of the registry with its rows of `alert_events`. The state it was loaded
with and the list `settled` are history and no step reads them: an evaluation of a rule
is settled once its state is saved and the alert it is due, if any, is inserted. -/
structure Watched where
  watch : Watch
  loaded : AlertRuleState
  alertEvents : List AlertEvent
  settled : List (Nat × Bool)

def load (watch : Watch) : Watched := ⟨watch, watch.alertState, [], []⟩

/-- How the database answers in one round. -/
structure Db where
  stateSave : Nat → Outcome
  alertSave : Nat → Nat → Outcome

def Watched.settle (w : Watched) (ruleId : Nat) (met : Bool) : Watched :=
  { w with settled := w.settled ++ [(ruleId, met)] }

def alertEvent (watchId : Nat) (rule : AlertRuleDefinition) (snapshot : AccountStateSnapshot) : AlertEvent where
  watchId := watchId
  ruleId := rule.id
  payload := {
    ruleType := rule.type
    publicKey := snapshot.publicKey
    network := snapshot.network
    observedAt := snapshot.observedAt
    observed := observedValue rule snapshot
    threshold := rule.threshold
    windowMinutes := if rule.type = .transactionCount then some (windowMinutes rule) else none
    asset := if rule.type = .transactionCount then none else some (balanceAsset rule) }
  deliveryStatus := .pending
  deliveryAttempts := rule.channels.map (fun channel => { channel := channel, status := .pending })

def insertAlert (w : Watched) (rule : AlertRuleDefinition) (snapshot : AccountStateSnapshot) : Watched :=
  { w with alertEvents := w.alertEvents ++ [alertEvent w.watch.id rule snapshot] }.settle rule.id true

/-- The state rules of a watch. -/
def stateRules (watch : Watch) : List AlertRuleDefinition :=
  watch.alertRules.filter (fun rule => isStateAlertRule rule.type)

def nextState (watch : Watch) (snapshot : AccountStateSnapshot) : AlertRuleState :=
  (stateRules watch).foldl (fun next rule => Function.update next rule.id (some (matchesState rule snapshot)))
    (fun _ => none)

def active (watch : Watch) (ruleId : Nat) : Bool := (watch.alertState ruleId).getD false

def fires (watch : Watch) (snapshot : AccountStateSnapshot) (rule : AlertRuleDefinition) : Bool :=
  matchesState rule snapshot && !active watch rule.id

/-- `raiseAlert` for the fired rules in turn, until one throws; the enqueueing of an
alert never throws. The answer is whether all went through. -/
def raiseAlerts (db : Db) (snapshot : AccountStateSnapshot) : List AlertRuleDefinition → Watched → Bool × Watched
  | [], w => (true, w)
  | rule :: rest, w =>
      match db.alertSave w.watch.id rule.id with
      | .answered => raiseAlerts db snapshot rest (insertAlert w rule snapshot)
      | .lost => (false, insertAlert w rule snapshot)
      | .rejected => (false, w)

def saveState (w : Watched) (snapshot : AccountStateSnapshot) : Watched where
  watch := { w.watch with
    alertState := nextState w.watch snapshot
    lastEvaluatedAt := some snapshot.observedAt }
  loaded := w.loaded
  alertEvents := w.alertEvents
  settled := w.settled ++
    ((stateRules w.watch).filter (fun rule => !fires w.watch snapshot rule)).map
      (fun rule => (rule.id, matchesState rule snapshot))

def evaluateWatch (db : Db) (snapshot : AccountStateSnapshot) (w : Watched) : Bool × Watched :=
  match db.stateSave w.watch.id with
  | .answered =>
      raiseAlerts db snapshot ((stateRules w.watch).filter (fires w.watch snapshot)) (saveState w snapshot)
  -- The call throws; a save whose answer is lost does not reach the watch in memory.
  | .rejected | .lost => (false, w)

def eligible (watch : Watch) : Bool :=
  watch.type = .account && watch.alertRules.any (fun rule => isStateAlertRule rule.type)

/-- The watches of one key, until an evaluation throws. -/
def evaluateKey (db : Db) (snapshot : AccountStateSnapshot) : List Watched → List Watched
  | [] => []
  | w :: ws =>
      if eligible w.watch then
        let (ok, w') := evaluateWatch db snapshot w
        w' :: (if ok then evaluateKey db snapshot ws else ws)
      else w :: evaluateKey db snapshot ws

/-- One call of `evaluateAll`: a snapshot for each key whose account could be fetched. -/
structure Round where
  isLeader : Bool
  snapshot : Text → Option AccountStateSnapshot
  db : Db

abbrev Registry := List (Text × List Watched)

def evaluateGroup (round : Round) (key : Text) (watches : List Watched) : List Watched :=
  match round.snapshot key with
  | none => watches
  | some snapshot => evaluateKey round.db snapshot watches

/-- The flag `evaluating` keeps the rounds apart, so that a round is one step. -/
def evaluateAll (round : Round) (registry : Registry) : Registry :=
  if round.isLeader then registry.map (fun group => (group.1, evaluateGroup round group.1 group.2))
  else registry

def step : Step Registry Round := fun registry round => some (evaluateAll round registry)

end Savitools.Monitor.StateEvaluation

namespace Savitools.Monitor.StateAlerts

open Strings.CodeUnits Transitions.Runs Monitor.Types AlertRules AlertEvaluator StateEvaluation

/-- The false-to-true transitions of a condition, from what it was before. -/
def rises : Bool → List Bool → Nat
  | _, [] => 0
  | before, met :: rest => (if met && !before then 1 else 0) + rises met rest

def lastMet (before : Bool) (evaluations : List Bool) : Bool := evaluations.getLastD before

theorem rises_append (before : Bool) (evaluations : List Bool) (met : Bool) :
    rises before (evaluations ++ [met]) =
      rises before evaluations + if met && !lastMet before evaluations then 1 else 0 := by
  induction evaluations generalizing before with
  | nil => simp [rises, lastMet]
  | cons m rest ih =>
      have hlast : lastMet before (m :: rest) = lastMet m rest := by
        cases rest <;> rfl
      rw [List.cons_append, rises, rises, ih, hlast, Nat.add_assoc]

theorem lastMet_append (before : Bool) (evaluations : List Bool) (met : Bool) :
    lastMet before (evaluations ++ [met]) = met := by
  simp [lastMet]

/-- The settled evaluations of one rule, in order. -/
def evaluations (w : Watched) (ruleId : Nat) : List Bool :=
  (w.settled.filter (fun e => e.1 = ruleId)).map Prod.snd

def alerts (w : Watched) (ruleId : Nat) : Nat := w.alertEvents.countP (fun a => a.ruleId = ruleId)

def before (w : Watched) (ruleId : Nat) : Bool := (w.loaded ruleId).getD false

/-- Each transition between settled evaluations has raised one alert, and nothing else has. -/
def Exact (w : Watched) : Prop :=
  ∀ rule ∈ stateRules w.watch, alerts w rule.id = rises (before w rule.id) (evaluations w rule.id)

/-- A rule that is not remembered as met was not met when last settled. -/
def Remembered (w : Watched) : Prop :=
  ∀ rule ∈ stateRules w.watch, active w.watch rule.id = false →
    lastMet (before w rule.id) (evaluations w rule.id) = false

theorem nodup_stateRules (watch : Watch) : ((stateRules watch).map AlertRuleDefinition.id).Nodup :=
  watch.nodup.sublist (List.filter_sublist.map _)

theorem evaluations_settle (w : Watched) (i j : Nat) (met : Bool) :
    evaluations (w.settle i met) j = evaluations w j ++ if i = j then [met] else [] := by
  by_cases h : i = j <;> simp [evaluations, Watched.settle, h]

theorem evaluations_insertAlert (w : Watched) (rule : AlertRuleDefinition) (snapshot : AccountStateSnapshot)
    (j : Nat) : evaluations (insertAlert w rule snapshot) j = evaluations w j ++ if rule.id = j then [true] else [] :=
  evaluations_settle _ _ _ _

theorem alerts_insertAlert (w : Watched) (rule : AlertRuleDefinition) (snapshot : AccountStateSnapshot) (j : Nat) :
    alerts (insertAlert w rule snapshot) j = alerts w j + if rule.id = j then 1 else 0 := by
  simp [alerts, insertAlert, Watched.settle, alertEvent, List.countP_append, List.countP_singleton]

/-- What happens to one rule when its alert is due: it is inserted and settled, or neither. -/
inductive Raise (w w' : Watched) (ruleId : Nat) : Prop
  | inserted (halerts : alerts w' ruleId = alerts w ruleId + 1)
      (hevaluations : evaluations w' ruleId = evaluations w ruleId ++ [true])
  | missed (halerts : alerts w' ruleId = alerts w ruleId) (hevaluations : evaluations w' ruleId = evaluations w ruleId)

theorem raiseAlerts_watch (db : Db) (snapshot : AccountStateSnapshot) (rules : List AlertRuleDefinition)
    (w : Watched) : (raiseAlerts db snapshot rules w).2.watch = w.watch ∧
      (raiseAlerts db snapshot rules w).2.loaded = w.loaded := by
  induction rules generalizing w with
  | nil => exact ⟨rfl, rfl⟩
  | cons rule rest ih =>
      rw [raiseAlerts]
      split
      next => exact ih (insertAlert w rule snapshot)
      next => exact ⟨rfl, rfl⟩
      next => exact ⟨rfl, rfl⟩

theorem raiseAlerts_of_notMem (db : Db) (snapshot : AccountStateSnapshot) {rules : List AlertRuleDefinition}
    (w : Watched) {i : Nat} (hi : i ∉ rules.map AlertRuleDefinition.id) :
    alerts (raiseAlerts db snapshot rules w).2 i = alerts w i ∧
      evaluations (raiseAlerts db snapshot rules w).2 i = evaluations w i := by
  induction rules generalizing w with
  | nil => exact ⟨rfl, rfl⟩
  | cons rule rest ih =>
      rw [List.map_cons, List.mem_cons, not_or] at hi
      have hne : ¬ rule.id = i := fun h => hi.1 h.symm
      have halerts := alerts_insertAlert w rule snapshot i
      have hevaluations := evaluations_insertAlert w rule snapshot i
      rw [if_neg hne] at halerts hevaluations
      rw [Nat.add_zero] at halerts
      rw [List.append_nil] at hevaluations
      rw [raiseAlerts]
      split
      next =>
        obtain ⟨ha, he⟩ := ih (insertAlert w rule snapshot) hi.2
        exact ⟨ha.trans halerts, he.trans hevaluations⟩
      next => exact ⟨halerts, hevaluations⟩
      next => exact ⟨rfl, rfl⟩

theorem raiseAlerts_of_mem (db : Db) (snapshot : AccountStateSnapshot) {rules : List AlertRuleDefinition}
    (w : Watched) (hnodup : (rules.map AlertRuleDefinition.id).Nodup) {rule : AlertRuleDefinition}
    (hrule : rule ∈ rules) : Raise w (raiseAlerts db snapshot rules w).2 rule.id := by
  induction rules generalizing w with
  | nil => cases hrule
  | cons r rest ih =>
      rw [List.map_cons, List.nodup_cons] at hnodup
      have halerts := alerts_insertAlert w r snapshot rule.id
      have hevaluations := evaluations_insertAlert w r snapshot rule.id
      rw [raiseAlerts]
      rcases List.mem_cons.mp hrule with rfl | hrest
      · rw [if_pos rfl] at halerts hevaluations
        split
        next =>
          obtain ⟨ha, he⟩ := raiseAlerts_of_notMem db snapshot (insertAlert w rule snapshot) hnodup.1
          exact .inserted (ha.trans halerts) (he.trans hevaluations)
        next => exact .inserted halerts hevaluations
        next => exact .missed rfl rfl
      · have hne : ¬ r.id = rule.id := fun h => hnodup.1 (h ▸ List.mem_map_of_mem hrest)
        rw [if_neg hne] at halerts hevaluations
        rw [Nat.add_zero] at halerts
        rw [List.append_nil] at hevaluations
        split
        next =>
          cases ih (insertAlert w r snapshot) hnodup.2 hrest with
          | inserted ha he => exact .inserted (halerts ▸ ha) (hevaluations ▸ he)
          | missed ha he => exact .missed (ha.trans halerts) (he.trans hevaluations)
        next => exact .missed halerts hevaluations
        next => exact .missed rfl rfl

/-- The entries of one rule among those that the rules with `p` contribute. -/
def entriesOf (f p : AlertRuleDefinition → Bool) (rules : List AlertRuleDefinition) (i : Nat) : List Bool :=
  (((rules.filter p).map (fun r => (r.id, f r))).filter (fun e => e.1 = i)).map Prod.snd

theorem entriesOf_cons (f p : AlertRuleDefinition → Bool) (r : AlertRuleDefinition)
    (rest : List AlertRuleDefinition) (i : Nat) :
    entriesOf f p (r :: rest) i = (if p r ∧ r.id = i then [f r] else []) ++ entriesOf f p rest i := by
  by_cases hp : p r = true <;> by_cases hi : r.id = i <;> simp [entriesOf, hp, hi]

theorem entriesOf_of_notMem (f p : AlertRuleDefinition → Bool) {rules : List AlertRuleDefinition} {i : Nat}
    (hi : i ∉ rules.map AlertRuleDefinition.id) : entriesOf f p rules i = [] := by
  induction rules with
  | nil => rfl
  | cons r rest ih =>
      rw [List.map_cons, List.mem_cons, not_or] at hi
      rw [entriesOf_cons, if_neg (fun h => hi.1 h.2.symm), ih hi.2, List.append_nil]

theorem entriesOf_of_mem (f p : AlertRuleDefinition → Bool) {rules : List AlertRuleDefinition}
    (hnodup : (rules.map AlertRuleDefinition.id).Nodup) {rule : AlertRuleDefinition} (hrule : rule ∈ rules) :
    entriesOf f p rules rule.id = if p rule then [f rule] else [] := by
  induction rules with
  | nil => cases hrule
  | cons r rest ih =>
      rw [List.map_cons, List.nodup_cons] at hnodup
      rw [entriesOf_cons]
      rcases List.mem_cons.mp hrule with rfl | hrest
      · rw [entriesOf_of_notMem f p hnodup.1, List.append_nil]
        simp
      · have hne : ¬ r.id = rule.id := fun h => hnodup.1 (h ▸ List.mem_map_of_mem hrest)
        rw [if_neg (fun h => hne h.2), List.nil_append, ih hnodup.2 hrest]

theorem foldl_update_of_notMem (f : AlertRuleDefinition → Option Bool) {rules : List AlertRuleDefinition}
    (start : AlertRuleState) {i : Nat} (hi : i ∉ rules.map AlertRuleDefinition.id) :
    rules.foldl (fun next r => Function.update next r.id (f r)) start i = start i := by
  induction rules generalizing start with
  | nil => rfl
  | cons r rest ih =>
      rw [List.map_cons, List.mem_cons, not_or] at hi
      rw [List.foldl_cons, ih _ hi.2, Function.update_of_ne hi.1]

theorem foldl_update_of_mem (f : AlertRuleDefinition → Option Bool) {rules : List AlertRuleDefinition}
    (start : AlertRuleState) (hnodup : (rules.map AlertRuleDefinition.id).Nodup) {rule : AlertRuleDefinition}
    (hrule : rule ∈ rules) :
    rules.foldl (fun next r => Function.update next r.id (f r)) start rule.id = f rule := by
  induction rules generalizing start with
  | nil => cases hrule
  | cons r rest ih =>
      rw [List.map_cons, List.nodup_cons] at hnodup
      rw [List.foldl_cons]
      rcases List.mem_cons.mp hrule with rfl | hrest
      · rw [foldl_update_of_notMem f _ hnodup.1, Function.update_self]
      · exact ih _ hnodup.2 hrest

theorem active_saveState (w : Watched) (snapshot : AccountStateSnapshot) {rule : AlertRuleDefinition}
    (hrule : rule ∈ stateRules w.watch) :
    active (saveState w snapshot).watch rule.id = matchesState rule snapshot := by
  have hnext : nextState w.watch snapshot rule.id = some (matchesState rule snapshot) :=
    foldl_update_of_mem _ _ (nodup_stateRules w.watch) hrule
  simp [active, saveState, hnext]

theorem evaluations_saveState (w : Watched) (snapshot : AccountStateSnapshot) {rule : AlertRuleDefinition}
    (hrule : rule ∈ stateRules w.watch) :
    evaluations (saveState w snapshot) rule.id =
      evaluations w rule.id ++ if fires w.watch snapshot rule then [] else [matchesState rule snapshot] := by
  have hentries := entriesOf_of_mem (fun r => matchesState r snapshot) (fun r => !fires w.watch snapshot r)
    (nodup_stateRules w.watch) hrule
  rw [evaluations, saveState, List.filter_append, List.map_append]
  refine congrArg _ (hentries.trans ?_)
  cases fires w.watch snapshot rule <;> rfl

/-- All that an evaluation can do to a state rule of its watch. -/
inductive Evaluated (w w' : Watched) (ruleId : Nat) (met : Bool) : Prop
  | quiet (hfires : (met && !active w.watch ruleId) = false) (halerts : alerts w' ruleId = alerts w ruleId)
      (hevaluations : evaluations w' ruleId = evaluations w ruleId ++ [met])
  | fired (hfires : (met && !active w.watch ruleId) = true) (hraise : Raise w w' ruleId)

theorem evaluateWatch_spec (db : Db) (snapshot : AccountStateSnapshot) (w : Watched) :
    (evaluateWatch db snapshot w).2 = w ∧ db.stateSave w.watch.id ≠ .answered ∨
      db.stateSave w.watch.id = .answered ∧
        (evaluateWatch db snapshot w).2.watch = (saveState w snapshot).watch ∧
        (evaluateWatch db snapshot w).2.loaded = w.loaded ∧
        ∀ rule ∈ stateRules w.watch,
          Evaluated w (evaluateWatch db snapshot w).2 rule.id (matchesState rule snapshot) := by
  unfold evaluateWatch
  split
  next hsave =>
    obtain ⟨hwatch, hloaded⟩ := raiseAlerts_watch db snapshot
      ((stateRules w.watch).filter (fires w.watch snapshot)) (saveState w snapshot)
    refine .inr ⟨hsave, hwatch, hloaded, fun rule hrule => ?_⟩
    have hevaluations := evaluations_saveState w snapshot hrule
    have hnodup : (((stateRules w.watch).filter (fires w.watch snapshot)).map AlertRuleDefinition.id).Nodup :=
      (nodup_stateRules w.watch).sublist (List.filter_sublist.map _)
    cases hfires : fires w.watch snapshot rule with
    | false =>
        rw [hfires] at hevaluations
        have hquiet : rule.id ∉ ((stateRules w.watch).filter (fires w.watch snapshot)).map AlertRuleDefinition.id := by
          intro hmem
          obtain ⟨r, hr, hid⟩ := List.mem_map.mp hmem
          obtain ⟨hr, hfr⟩ := List.mem_filter.mp hr
          rw [List.inj_on_of_nodup_map (nodup_stateRules w.watch) hr hrule hid, hfires] at hfr
          cases hfr
        obtain ⟨ha, he⟩ := raiseAlerts_of_notMem db snapshot (saveState w snapshot) hquiet
        exact .quiet hfires ha (he.trans hevaluations)
    | true =>
        rw [hfires, if_pos rfl, List.append_nil] at hevaluations
        refine .fired hfires ?_
        cases raiseAlerts_of_mem db snapshot (saveState w snapshot) hnodup (List.mem_filter.mpr ⟨hrule, hfires⟩) with
        | inserted ha he => exact .inserted ha (hevaluations ▸ he)
        | missed ha he => exact .missed ha (he.trans hevaluations)
  next hsave => exact .inl ⟨rfl, by simp [hsave]⟩
  next hsave => exact .inl ⟨rfl, by simp [hsave]⟩

theorem before_of_loaded {w w' : Watched} (h : w'.loaded = w.loaded) (i : Nat) : before w' i = before w i := by
  rw [before, h, before]

/-- No rule is met while it is remembered as met from an evaluation that was never
settled, when the state is saved again. -/
def NotConsumed (db : Db) (snapshot : AccountStateSnapshot) (w : Watched) : Prop :=
  db.stateSave w.watch.id = .answered → ∀ rule ∈ stateRules w.watch, matchesState rule snapshot = true →
    active w.watch rule.id = true → lastMet (before w rule.id) (evaluations w rule.id) = true

/-- One rule stays exact unless its remembered edge has been consumed. -/
theorem Evaluated.exact_iff {w w' : Watched} {i : Nat} {met : Bool} (h : Evaluated w w' i met)
    (hexact : alerts w i = rises (before w i) (evaluations w i))
    (hrem : active w.watch i = false → lastMet (before w i) (evaluations w i) = false) :
    alerts w' i = rises (before w i) (evaluations w' i) ↔
      (met = true → active w.watch i = true → lastMet (before w i) (evaluations w i) = true) := by
  cases h with
  | quiet hfires halerts hevaluations =>
      rw [halerts, hevaluations, rises_append, hexact]
      cases met <;> cases hlast : lastMet (before w i) (evaluations w i) <;> simp_all
  | fired hfires hraise =>
      rw [Bool.and_eq_true, Bool.not_eq_true'] at hfires
      have hlast := hrem hfires.2
      cases hraise with
      | inserted halerts hevaluations =>
          rw [halerts, hevaluations, rises_append, hexact, hlast, hfires.1, hfires.2]
          simp
      | missed halerts hevaluations =>
          rw [halerts, hevaluations, hfires.2]
          simp [hexact]

theorem exact_evaluateWatch_iff (db : Db) (snapshot : AccountStateSnapshot) {w : Watched} (hexact : Exact w)
    (hrem : Remembered w) : Exact (evaluateWatch db snapshot w).2 ↔ NotConsumed db snapshot w := by
  rcases evaluateWatch_spec db snapshot w with ⟨hsame, hsave⟩ | ⟨hsave, hwatch, hloaded, hrules⟩
  · rw [hsame]
    exact iff_of_true hexact (fun h => absurd h hsave)
  · have hbefore := before_of_loaded hloaded
    have hstate : stateRules (evaluateWatch db snapshot w).2.watch = stateRules w.watch := by
      rw [hwatch]
      rfl
    simp only [Exact, NotConsumed, hstate, hbefore, hsave, true_implies]
    constructor
    · intro h rule hrule
      exact ((hrules rule hrule).exact_iff (hexact rule hrule) (hrem rule hrule)).mp (h rule hrule)
    · intro h rule hrule
      exact ((hrules rule hrule).exact_iff (hexact rule hrule) (hrem rule hrule)).mpr (h rule hrule)

theorem remembered_evaluateWatch (db : Db) (snapshot : AccountStateSnapshot) {w : Watched} (hrem : Remembered w) :
    Remembered (evaluateWatch db snapshot w).2 := by
  rcases evaluateWatch_spec db snapshot w with ⟨hsame, -⟩ | ⟨-, hwatch, hloaded, hrules⟩
  · rw [hsame]
    exact hrem
  · intro rule hrule hactive
    rw [hwatch] at hrule hactive
    have hmet := active_saveState w snapshot hrule
    rw [hactive] at hmet
    rw [before_of_loaded hloaded]
    cases hrules rule hrule with
    | quiet hfires halerts hevaluations => rw [hevaluations, lastMet_append, ← hmet]
    | fired hfires hraise =>
        rw [← hmet] at hfires
        cases hfires

/-- The watches of one key that a round gets to. -/
def visited (db : Db) (snapshot : AccountStateSnapshot) : List Watched → List Watched
  | [] => []
  | w :: ws =>
      if eligible w.watch then w :: (if (evaluateWatch db snapshot w).1 then visited db snapshot ws else [])
      else visited db snapshot ws

def AllExact (registry : Registry) : Prop := ∀ group ∈ registry, ∀ w ∈ group.2, Exact w

def AllRemembered (registry : Registry) : Prop := ∀ group ∈ registry, ∀ w ∈ group.2, Remembered w

/-- The round consumes no remembered edge of a watch that it gets to. -/
def EdgesKept (registry : Registry) (round : Round) : Prop :=
  round.isLeader = true → ∀ group ∈ registry, ∀ snapshot, round.snapshot group.1 = some snapshot →
    ∀ w ∈ visited round.db snapshot group.2, NotConsumed round.db snapshot w

theorem evaluateKey_cons (db : Db) (snapshot : AccountStateSnapshot) (w : Watched) (ws : List Watched) :
    evaluateKey db snapshot (w :: ws) =
      if eligible w.watch then
        (evaluateWatch db snapshot w).2 :: (if (evaluateWatch db snapshot w).1 then evaluateKey db snapshot ws else ws)
      else w :: evaluateKey db snapshot ws :=
  rfl

theorem exact_evaluateKey_iff (db : Db) (snapshot : AccountStateSnapshot) {ws : List Watched}
    (hexact : ∀ w ∈ ws, Exact w) (hrem : ∀ w ∈ ws, Remembered w) :
    (∀ w ∈ evaluateKey db snapshot ws, Exact w) ↔ ∀ w ∈ visited db snapshot ws, NotConsumed db snapshot w := by
  induction ws with
  | nil => exact iff_of_true (fun _ h => absurd h List.not_mem_nil) (fun _ h => absurd h List.not_mem_nil)
  | cons w ws ih =>
      rw [List.forall_mem_cons] at hexact hrem
      have hi := ih hexact.2 hrem.2
      rw [evaluateKey_cons, visited]
      split
      next =>
        rw [List.forall_mem_cons, List.forall_mem_cons, exact_evaluateWatch_iff db snapshot hexact.1 hrem.1]
        split
        next => rw [hi]
        next =>
          exact and_congr_right' (iff_of_true hexact.2 (fun _ h => absurd h List.not_mem_nil))
      next =>
        rw [List.forall_mem_cons, ← hi]
        exact and_iff_right hexact.1

theorem remembered_evaluateKey (db : Db) (snapshot : AccountStateSnapshot) {ws : List Watched}
    (hrem : ∀ w ∈ ws, Remembered w) : ∀ w ∈ evaluateKey db snapshot ws, Remembered w := by
  induction ws with
  | nil => exact fun _ h => absurd h List.not_mem_nil
  | cons w ws ih =>
      rw [List.forall_mem_cons] at hrem
      rw [evaluateKey_cons]
      split
      next =>
        refine List.forall_mem_cons.mpr ⟨remembered_evaluateWatch db snapshot hrem.1, ?_⟩
        split
        next => exact ih hrem.2
        next => exact hrem.2
      next => exact List.forall_mem_cons.mpr ⟨hrem.1, ih hrem.2⟩

theorem mem_evaluateAll {round : Round} {registry : Registry} (h : round.isLeader = true) {p : Watched → Prop} :
    (∀ group ∈ evaluateAll round registry, ∀ w ∈ group.2, p w) ↔
      ∀ group ∈ registry, ∀ w ∈ evaluateGroup round group.1 group.2, p w := by
  rw [evaluateAll, if_pos h]
  simp only [List.forall_mem_map]

theorem preserves_remembered : Preserves step always AllRemembered := by
  rintro registry round next hrem - hstep
  cases hstep
  cases hl : round.isLeader with
  | false =>
      rw [evaluateAll, hl]
      exact hrem
  | true =>
      refine (mem_evaluateAll hl).mpr ?_
      intro group hgroup
      unfold evaluateGroup
      split
      next => exact hrem group hgroup
      next snapshot _ => exact remembered_evaluateKey round.db snapshot (hrem group hgroup)

theorem allExact_evaluateAll_iff (round : Round) {registry : Registry} (hexact : AllExact registry)
    (hrem : AllRemembered registry) : AllExact (evaluateAll round registry) ↔ EdgesKept registry round := by
  cases hl : round.isLeader with
  | false =>
      rw [evaluateAll, hl]
      refine iff_of_true hexact ?_
      intro h
      rw [hl] at h
      cases h
  | true =>
      rw [AllExact, mem_evaluateAll hl, EdgesKept]
      simp only [hl, true_implies]
      refine forall_congr' (fun group => forall_congr' (fun hgroup => ?_))
      unfold evaluateGroup
      split
      next hnone => exact iff_of_true (hexact group hgroup) (fun snapshot hs => by rw [hnone] at hs; cases hs)
      next snapshot hsome =>
        rw [exact_evaluateKey_iff round.db snapshot (hexact group hgroup) (hrem group hgroup)]
        constructor
        · intro h snapshot' hs
          obtain rfl : snapshot = snapshot' := Option.some.inj (hsome.symm.trans hs)
          exact h
        · exact fun h => h snapshot hsome

/-- Every state rule of the watch has got one more settled evaluation, of this snapshot. -/
def Settles (snapshot : AccountStateSnapshot) (w w' : Watched) : Prop :=
  ∀ rule ∈ stateRules w.watch, evaluations w' rule.id = evaluations w rule.id ++ [matchesState rule snapshot]

/-- Every save of the round is answered. -/
def Recovered (db : Db) : Prop := (∀ i, db.stateSave i = .answered) ∧ ∀ i j, db.alertSave i j = .answered

theorem raiseAlerts_recovered {db : Db} (hdb : Recovered db) (snapshot : AccountStateSnapshot)
    {rules : List AlertRuleDefinition} (hnodup : (rules.map AlertRuleDefinition.id).Nodup) (w : Watched) :
    (raiseAlerts db snapshot rules w).1 = true ∧
      ∀ rule ∈ rules, evaluations (raiseAlerts db snapshot rules w).2 rule.id = evaluations w rule.id ++ [true] := by
  induction rules generalizing w with
  | nil => exact ⟨rfl, fun _ h => absurd h List.not_mem_nil⟩
  | cons r rest ih =>
      rw [List.map_cons, List.nodup_cons] at hnodup
      obtain ⟨hok, hrest⟩ := ih hnodup.2 (insertAlert w r snapshot)
      rw [raiseAlerts, hdb.2 w.watch.id r.id]
      refine ⟨hok, List.forall_mem_cons.mpr ⟨?_, fun rule hrule => ?_⟩⟩
      · rw [(raiseAlerts_of_notMem db snapshot (insertAlert w r snapshot) hnodup.1).2, evaluations_insertAlert,
          if_pos rfl]
      · have hne : ¬ r.id = rule.id := fun h => hnodup.1 (h ▸ List.mem_map_of_mem hrule)
        rw [hrest rule hrule, evaluations_insertAlert, if_neg hne, List.append_nil]

theorem evaluateWatch_recovered {db : Db} (hdb : Recovered db) (snapshot : AccountStateSnapshot) (w : Watched) :
    (evaluateWatch db snapshot w).1 = true ∧ Settles snapshot w (evaluateWatch db snapshot w).2 := by
  have hnodup : (((stateRules w.watch).filter (fires w.watch snapshot)).map AlertRuleDefinition.id).Nodup :=
    (nodup_stateRules w.watch).sublist (List.filter_sublist.map _)
  have hraise := raiseAlerts_recovered hdb snapshot hnodup (saveState w snapshot)
  refine ⟨by rw [evaluateWatch, hdb.1]; exact hraise.1, fun rule hrule => ?_⟩
  rcases evaluateWatch_spec db snapshot w with ⟨-, hsave⟩ | ⟨-, -, -, hrules⟩
  · exact absurd (hdb.1 _) hsave
  · cases hrules rule hrule with
    | quiet hfires halerts hevaluations => exact hevaluations
    | fired hfires _ =>
        have hmet : matchesState rule snapshot = true := (Bool.and_eq_true _ _ ▸ hfires).1
        have hevaluations := evaluations_saveState w snapshot hrule
        rw [show fires w.watch snapshot rule = true from hfires, if_pos rfl, List.append_nil] at hevaluations
        rw [evaluateWatch, hdb.1, hmet, ← hevaluations]
        exact hraise.2 rule (List.mem_filter.mpr ⟨hrule, hfires⟩)

theorem evaluateKey_recovered {db : Db} (hdb : Recovered db) (snapshot : AccountStateSnapshot) (ws : List Watched) :
    List.Forall₂ (fun w w' => eligible w.watch = true → Settles snapshot w w') ws (evaluateKey db snapshot ws) := by
  induction ws with
  | nil => exact .nil
  | cons w ws ih =>
      obtain ⟨hok, hsettles⟩ := evaluateWatch_recovered hdb snapshot w
      rw [evaluateKey_cons, hok, if_pos rfl]
      split
      next => exact .cons (fun _ => hsettles) ih
      next hskip => exact .cons (fun h => absurd h hskip) ih

def loadAll (watches : List (Text × List Watch)) : Registry :=
  watches.map (fun group => (group.1, group.2.map load))

theorem forall_mem_loadAll {watches : List (Text × List Watch)} {p : Watched → Prop} (h : ∀ watch, p (load watch)) :
    ∀ group ∈ loadAll watches, ∀ w ∈ group.2, p w := by
  intro group hgroup w hw
  obtain ⟨g, -, rfl⟩ := List.mem_map.mp hgroup
  obtain ⟨watch, -, rfl⟩ := List.mem_map.mp hw
  exact h watch

/-- Throughout a run every state rule has raised one alert for each of its transitions
between settled evaluations, if and only if no round consumes a remembered edge; and in
every state that is reached a round in which the database answers settles every rule. -/
theorem state_alerts_exact_iff (watches : List (Text × List Watch)) (rounds : List Round) :
    (Throughout step AllExact (loadAll watches) rounds ↔ Guarded step EdgesKept (loadAll watches) rounds) ∧
      ∀ registry, run step (loadAll watches) rounds = some registry →
        ∀ round : Round, Recovered round.db → ∀ group ∈ registry, ∀ snapshot, round.snapshot group.1 = some snapshot →
          List.Forall₂ (fun w w' => eligible w.watch = true → Settles snapshot w w') group.2
            (evaluateGroup round group.1 group.2) := by
  refine ⟨throughout_iff_guarded_of_inv preserves_remembered ?_ ?_ ?_ rounds, ?_⟩
  · intro registry round next hrem hexact hstep
    cases hstep
    exact allExact_evaluateAll_iff round hexact hrem
  · exact forall_mem_loadAll (fun watch rule _ hactive => hactive)
  · exact forall_mem_loadAll (fun watch rule _ => rfl)
  · intro registry _ round hdb group _ snapshot hsnapshot
    rw [evaluateGroup, hsnapshot]
    exact evaluateKey_recovered hdb snapshot group.2

def hundredLumens : Watch where
  id := 0
  type := .account
  alertRules := [⟨7, .balanceAbove, none, some (text "100"), none, [.inApp], none⟩]
  alertState := fun _ => none
  lastEvaluatedAt := none
  nodup := by decide

def balanceOf (xlm : Text) : AccountStateSnapshot :=
  ⟨[], text "testnet", [], fun asset => if asset = text "XLM" then some xlm else none, fun _ => none⟩

/-- A round that finds 150 lumens; the saves of alerts end as given. -/
def roundAbove (alertSave : Outcome) : Round :=
  ⟨true, fun _ => some (balanceOf (text "150")), ⟨fun _ => .answered, fun _ _ => alertSave⟩⟩

/-- The insertion of the alert fails once; the next round works and finds the same balance. -/
theorem edge_consumed :
    ¬ Throughout step AllExact (loadAll [(text "k", [hundredLumens])]) [roundAbove .rejected, roundAbove .answered] := by
  intro h
  have hlast := ((h.2 _ rfl).2 _ rfl).here
  have hcount := hlast _ (List.mem_singleton_self _) _ (List.mem_singleton_self _) _ (List.mem_singleton_self _)
  revert hcount
  decide

end Savitools.Monitor.StateAlerts
