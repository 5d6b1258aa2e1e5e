import Savitools.Common.Exceptions
import Savitools.Json.Doubles
import Savitools.Json.Writing
import Savitools.Counters.Windows

namespace Savitools.Composer.TransactionSequence

open Strings.CodeUnits Strings.Decimals Json.Numbers Json.Values Json.Doubles Json.Writing Common.Exceptions

/-- The source is an account or an object that refers to an earlier step. -/
structure TransactionStepInputDto where
  source : Option (Value Number)
  operations : List (Value Number)
  memo : Option Text

/-- What `build` gives: the transaction has the number after that of its account. -/
structure Transaction (Memo Op : Type) where
  source : Text
  sequence : Int
  memo : Option Memo
  operations : List Op

/-- What is used of the SDK and of the composer, for one network. Where they throw, the message is given. -/
structure Sdk (Memo Op : Type) where
  account : Text → Int → Except Text Unit
  memoText : Text → Except Text Memo
  mapOperation : Value Number → Except Text Op
  /-- Whether a transaction can be built, with the timeout that is set for it. -/
  build : Transaction Memo Op → Option Nat → Except Text Unit
  hash : Transaction Memo Op → Text
  /-- The sequence number of an account when the step with this index asks for it. -/
  loadSequenceNumber : Nat → Text → Except Text Int

inductive StepStatus
  | success
  | failed
deriving DecidableEq

/-- The envelope is given as the transaction that is in it. -/
structure StepResult (Memo Op : Type) where
  stepIndex : Nat
  sourceAccount : Text
  status : StepStatus
  txHash : Option Text
  nextSequence : Number
  error : Option Text
  sequence : Option Number
  xdr : Option (Transaction Memo Op)

/-- What the loop keeps. The list `fetched` is history: no step reads it. -/
structure Run (Memo Op : Type) where
  results : List (StepResult Memo Op) := []
  destinationByStep : List (Nat × Text) := []
  sequencesBySource : List (Text × Int) := []
  fetched : List (Text × Int) := []

inductive RunStatus
  | succeeded
  | partly
  | failed
deriving DecidableEq

structure SequenceRunResult (Memo Op : Type) where
  status : RunStatus
  results : List (StepResult Memo Op)

variable {Memo Op : Type}

/-- `typeof source === 'object' && source !== null` -/
def isReference : Value Number → Bool
  | .arr _ | .obj _ => true
  | _ => false

/-- The step of a reference, if it is a whole number that is not negative. -/
def referredStep (ref : Value Number) : Option Nat :=
  match member (text "step") ref with
  | some (.num (.finite q)) => if q.den = 1 ∧ 0 ≤ q.num then some q.num.toNat else none
  | _ => none

def validateStepOrder (steps : List TransactionStepInputDto) : Except Exception Unit :=
  steps.zipIdx.forM fun (step, index) =>
    match step.source.filter isReference with
    | none => .ok ()
    | some ref =>
        if (referredStep ref).any (· < index) then .ok ()
        else
          .error (.badRequest (text "Step " ++ ofNat index ++ text " has invalid source reference: " ++ stringify ref))

/-- The result of the step that is referred to, when it succeeded. -/
def priorResult (stepIndex : Nat) (ref : Value Number) (run : Run Memo Op) : Except Text (StepResult Memo Op) :=
  match ((referredStep ref).bind fun step => run.results[step]?).filter (·.status = .success) with
  | some prior => .ok prior
  | none =>
      .error (text "Step " ++ ofNat stepIndex ++ text " references step " ++
        (referredStep ref).elim (text "undefined") ofNat ++ text " which has not succeeded")

/-- The source of a step, with a reference replaced by the account it stands for. -/
def resolveSource (stepIndex : Nat) (source : Option (Value Number)) (run : Run Memo Op) :
    Except Text (Option (Value Number)) :=
  match source.filter isReference with
  | none => .ok source
  | some ref =>
      (priorResult stepIndex ref run).map fun prior =>
        some (.str (if textMember (text "field") ref = some (text "destination") then
          (run.destinationByStep.lookup ((referredStep ref).getD 0)).getD prior.sourceAccount
        else prior.sourceAccount))

def resolveSourceAccount (stepIndex : Nat) (source : Option (Value Number)) (run : Run Memo Op) : Except Text Text :=
  match source with
  | some (.str account) =>
      if account ≠ [] then .ok account else .error (text "Step " ++ ofNat stepIndex ++ text " is missing a source account")
  | some (.obj fields) => (priorResult stepIndex (.obj fields) run).map (·.sourceAccount)
  | some (.arr items) => (priorResult stepIndex (.arr items) run).map (·.sourceAccount)
  | _ => .error (text "Step " ++ ofNat stepIndex ++ text " is missing a source account")

def destinationTypes : List Text :=
  [text "payment", text "create_account", text "account_merge", text "path_payment_strict_send",
    text "path_payment_strict_receive"]

/-- The destination of the first operation that has one, or the source. -/
def destinationOf (operations : List (Value Number)) (sourceAccount : Text) : Text :=
  ((operations.find? fun op => (textMember (text "type") op).any destinationTypes.contains).bind
    (textMember (text "destination"))).getD sourceAccount

variable (sdk : Sdk Memo Op)

/-- The account of a step and the sequence number that it is at, with whether it had to be fetched. -/
def numberStep (step : TransactionStepInputDto) (run : Run Memo Op) : Except Text (Text × Int × Bool) :=
  let stepIndex := run.results.length
  (resolveSource stepIndex step.source run).bind fun source =>
    (resolveSourceAccount stepIndex source run).bind fun sourceAccount =>
      match run.sequencesBySource.lookup sourceAccount with
      | some sequence => .ok (sourceAccount, sequence, false)
      | none => (sdk.loadSequenceNumber stepIndex sourceAccount).map fun sequence => (sourceAccount, sequence, true)

def stepMemo (step : TransactionStepInputDto) : Except Text (Option Memo) :=
  match step.memo.filter (· ≠ []) with
  | none => .ok none
  | some memo => (sdk.memoText memo).map some

/-- Only a transaction without a memo is given a timeout. -/
def buildStep (step : TransactionStepInputDto) (sourceAccount : Text) (sequence : Int) :
    Except Text (Transaction Memo Op) :=
  (sdk.account sourceAccount sequence).bind fun _ =>
    (stepMemo sdk step).bind fun memo =>
      (step.operations.mapM sdk.mapOperation).bind fun operations =>
        let transaction : Transaction Memo Op := ⟨sourceAccount, sequence + 1, memo, operations⟩
        (sdk.build transaction (if memo.isSome then none else some 30)).map fun _ => transaction

/-- The counter of the account moves on before the transaction is built. -/
def takeNumber (run : Run Memo Op) (sourceAccount : Text) (sequence : Int) (isFetched : Bool) : Run Memo Op :=
  { run with
    sequencesBySource := (sourceAccount, sequence + 1) :: run.sequencesBySource
    fetched := if isFetched then (sourceAccount, sequence) :: run.fetched else run.fetched }

def succeed (step : TransactionStepInputDto) (sourceAccount : Text) (sequence : Int)
    (transaction : Transaction Memo Op) (run : Run Memo Op) : Run Memo Op :=
  { run with
    destinationByStep := (run.results.length, destinationOf step.operations sourceAccount) :: run.destinationByStep
    results := run.results ++ [{
      stepIndex := run.results.length
      sourceAccount := sourceAccount
      status := .success
      txHash := some (sdk.hash transaction)
      nextSequence := round (sequence + 1)
      error := none
      sequence := some (round sequence)
      xdr := some transaction }] }

def failStep (message : Text) (run : Run Memo Op) : Run Memo Op :=
  { run with
    results := run.results ++ [{
      stepIndex := run.results.length
      sourceAccount := []
      status := .failed
      txHash := none
      nextSequence := .finite 0
      error := some message
      sequence := none
      xdr := none }] }

/-- One pass of the loop, and whether the step succeeded. -/
def runStep (step : TransactionStepInputDto) (run : Run Memo Op) : Run Memo Op × Bool :=
  match numberStep sdk step run with
  | .error message => (failStep message run, false)
  | .ok (sourceAccount, sequence, isFetched) =>
      let run := takeNumber run sourceAccount sequence isFetched
      match buildStep sdk step sourceAccount sequence with
      | .error message => (failStep message run, false)
      | .ok transaction => (succeed sdk step sourceAccount sequence transaction run, true)

def runSteps (stopOnFailure : Bool) : List TransactionStepInputDto → Run Memo Op → Run Memo Op
  | [], run => run
  | step :: rest, run =>
      let (run, succeeded) := runStep sdk step run
      if !succeeded && stopOnFailure then run else runSteps stopOnFailure rest run

def runStatus (results : List (StepResult Memo Op)) : RunStatus :=
  if results.all (·.status = .success) then .succeeded
  else if results.any (·.status = .success) then .partly
  else .failed

def run (stopOnFailure : Bool) (steps : List TransactionStepInputDto) : Except Exception (SequenceRunResult Memo Op) :=
  if steps = [] then .error (.badRequest (text "Transaction sequence must contain at least one step"))
  else
    (validateStepOrder steps).map fun _ =>
      let results := (runSteps sdk stopOnFailure steps {}).results
      ⟨runStatus results, results⟩

end Savitools.Composer.TransactionSequence

namespace Savitools.Composer.SequenceNumbers

open Strings.CodeUnits Json.Numbers Json.Values Common.Exceptions Counters.Draws TransactionSequence

variable {Memo Op : Type}

/-- The sequence numbers of the transactions that were built for an account, in order. -/
def sequenceNumbers (account : Text) (results : List (StepResult Memo Op)) : List Int :=
  results.filterMap fun result =>
    result.xdr.bind fun transaction => if transaction.source = account then some transaction.sequence else none

/-- The numbers of an account follow the one that was fetched for it, without a gap. -/
def Consecutive (account : Text) (fetched : List (Text × Int)) (results : List (StepResult Memo Op)) : Prop :=
  ∀ n, fetched.lookup account = some n →
    sequenceNumbers account results = (List.range (sequenceNumbers account results).length).map (fun k : Nat => n + 1 + k)

variable (sdk : Sdk Memo Op)

/-- Whether a step that takes a number of the account, if it does, can be built with it. -/
def mark (account : Text) (run : Run Memo Op) (step : TransactionStepInputDto) : Option Bool :=
  match numberStep sdk step run with
  | .error _ => none
  | .ok (sourceAccount, sequence, _) =>
      if sourceAccount = account then some (buildStep sdk step sourceAccount sequence).isOk else none

/-- What the loop keeps after some steps, none of which stops it. -/
def after (steps : List TransactionStepInputDto) : Run Memo Op := runSteps sdk false steps {}

/-- No step takes a number and cannot be built with it before another step of the account is built. -/
def BurnsNone (account : Text) (steps : List TransactionStepInputDto) : Prop :=
  ∀ before failing between building rest, steps = before ++ failing :: (between ++ building :: rest) →
    mark sdk account (after sdk before) failing = some false →
      mark sdk account (after sdk (before ++ failing :: between)) building ≠ some true

def marks (account : Text) : List TransactionStepInputDto → Run Memo Op → List Bool
  | [], _ => []
  | step :: rest, run => (mark sdk account run step).toList ++ marks account rest (runStep sdk step run).1

variable {sdk}

theorem runSteps_cons (step : TransactionStepInputDto) (rest : List TransactionStepInputDto) (run : Run Memo Op) :
    runSteps sdk false (step :: rest) run = runSteps sdk false rest (runStep sdk step run).1 := by
  simp only [runSteps, Bool.and_false, Bool.false_eq_true, if_false]

theorem of_buildStep {step : TransactionStepInputDto} {sourceAccount : Text} {sequence : Int}
    {transaction : Transaction Memo Op} (h : buildStep sdk step sourceAccount sequence = .ok transaction) :
    transaction.source = sourceAccount ∧ transaction.sequence = sequence + 1 := by
  obtain ⟨_, -, h⟩ := bind_eq_ok.mp h
  obtain ⟨memo, -, h⟩ := bind_eq_ok.mp h
  obtain ⟨operations, -, h⟩ := bind_eq_ok.mp h
  obtain ⟨_, -, h⟩ := map_eq_ok_iff.mp h
  rw [← h]
  exact ⟨rfl, rfl⟩

theorem of_numberStep {step : TransactionStepInputDto} {run : Run Memo Op} {sourceAccount : Text} {sequence : Int}
    {isFetched : Bool} (h : numberStep sdk step run = .ok (sourceAccount, sequence, isFetched)) :
    run.sequencesBySource.lookup sourceAccount = (if isFetched then none else some sequence) := by
  obtain ⟨source, -, h⟩ := bind_eq_ok.mp h
  obtain ⟨account, -, h⟩ := bind_eq_ok.mp h
  split at h
  next known hlookup =>
    cases h
    exact hlookup
  next hlookup =>
    obtain ⟨loaded, -, h⟩ := map_eq_ok_iff.mp h
    cases h
    exact hlookup

theorem sequenceNumbers_append (account : Text) (results more : List (StepResult Memo Op)) :
    sequenceNumbers account (results ++ more) = sequenceNumbers account results ++ sequenceNumbers account more :=
  List.filterMap_append

@[simp] theorem sequenceNumbers_failStep (account message : Text) (run : Run Memo Op) :
    sequenceNumbers account (failStep message run).results = sequenceNumbers account run.results := by
  rw [failStep, sequenceNumbers_append]
  exact List.append_nil _

theorem sequenceNumbers_succeed (account : Text) {step : TransactionStepInputDto} {sourceAccount : Text} {sequence : Int}
    {transaction : Transaction Memo Op} (h : buildStep sdk step sourceAccount sequence = .ok transaction)
    (run : Run Memo Op) :
    sequenceNumbers account (succeed sdk step sourceAccount sequence transaction run).results =
      sequenceNumbers account run.results ++ (if sourceAccount = account then [sequence + 1] else []) := by
  obtain ⟨hsource, hsequence⟩ := of_buildStep h
  rw [succeed, sequenceNumbers_append]
  congr 1
  by_cases haccount : sourceAccount = account
  · simp [sequenceNumbers, hsource, hsequence, haccount]
  · simp [sequenceNumbers, hsource, haccount]

/-- A step that takes no number of the account changes nothing about it. -/
theorem runStep_unmarked {account : Text} {run : Run Memo Op} {step : TransactionStepInputDto}
    (h : mark sdk account run step = none) :
    (runStep sdk step run).1.sequencesBySource.lookup account = run.sequencesBySource.lookup account ∧
      (runStep sdk step run).1.fetched.lookup account = run.fetched.lookup account ∧
      sequenceNumbers account (runStep sdk step run).1.results = sequenceNumbers account run.results := by
  rw [mark] at h
  rw [runStep]
  cases hnumber : numberStep sdk step run with
  | error message => exact ⟨rfl, rfl, sequenceNumbers_failStep account message run⟩
  | ok taken =>
      obtain ⟨sourceAccount, sequence, isFetched⟩ := taken
      rw [hnumber] at h
      have hother : sourceAccount ≠ account := fun heq => by
        simp only [heq, if_true] at h
        cases h
      have hlookup {value : Int} {rest : List (Text × Int)} :
          ((sourceAccount, value) :: rest).lookup account = rest.lookup account := by
        rw [List.lookup_cons, beq_false_of_ne hother.symm]
      have hseq : (takeNumber run sourceAccount sequence isFetched).sequencesBySource.lookup account =
          run.sequencesBySource.lookup account := hlookup
      have hfetched : (takeNumber run sourceAccount sequence isFetched).fetched.lookup account =
          run.fetched.lookup account := by
        cases isFetched with
        | false => rfl
        | true => exact hlookup
      simp only
      cases hbuild : buildStep sdk step sourceAccount sequence with
      | error message => exact ⟨hseq, hfetched, sequenceNumbers_failStep account message _⟩
      | ok transaction =>
          refine ⟨hseq, hfetched, ?_⟩
          have happend := sequenceNumbers_succeed account hbuild (takeNumber run sourceAccount sequence isFetched)
          rw [if_neg hother, List.append_nil] at happend
          exact happend

/-- A step that takes a number of the account moves its counter on, and has the number if it is built. -/
theorem runStep_marked {account : Text} {run : Run Memo Op} {step : TransactionStepInputDto} {built : Bool}
    (h : mark sdk account run step = some built) :
    ∃ n, (runStep sdk step run).1.sequencesBySource.lookup account = some (n + 1) ∧
      sequenceNumbers account (runStep sdk step run).1.results =
        sequenceNumbers account run.results ++ (if built then [n + 1] else []) ∧
      ((run.sequencesBySource.lookup account = some n ∧
          (runStep sdk step run).1.fetched.lookup account = run.fetched.lookup account) ∨
        (run.sequencesBySource.lookup account = none ∧ (runStep sdk step run).1.fetched.lookup account = some n)) := by
  rw [mark] at h
  rw [runStep]
  cases hnumber : numberStep sdk step run with
  | error message => rw [hnumber] at h; cases h
  | ok taken =>
      obtain ⟨sourceAccount, sequence, isFetched⟩ := taken
      rw [hnumber] at h
      simp only at h
      split at h
      next heq =>
        subst heq
        have hbefore := of_numberStep hnumber
        refine ⟨sequence, ?_⟩
        have hseq : (takeNumber run sourceAccount sequence isFetched).sequencesBySource.lookup sourceAccount =
            some (sequence + 1) := List.lookup_cons_self
        have hfetched : (run.sequencesBySource.lookup sourceAccount = some sequence ∧
              (takeNumber run sourceAccount sequence isFetched).fetched.lookup sourceAccount =
                run.fetched.lookup sourceAccount) ∨
            (run.sequencesBySource.lookup sourceAccount = none ∧
              (takeNumber run sourceAccount sequence isFetched).fetched.lookup sourceAccount = some sequence) := by
          cases isFetched with
          | false => exact .inl ⟨hbefore, rfl⟩
          | true => exact .inr ⟨hbefore, List.lookup_cons_self⟩
        simp only
        cases hbuild : buildStep sdk step sourceAccount sequence with
        | error message =>
            rw [hbuild] at h
            cases h
            refine ⟨hseq, ?_, hfetched⟩
            rw [sequenceNumbers_failStep]
            exact (List.append_nil _).symm
        | ok transaction =>
            rw [hbuild] at h
            cases h
            refine ⟨hseq, ?_, hfetched⟩
            have happend := sequenceNumbers_succeed sourceAccount hbuild
              (takeNumber run sourceAccount sequence isFetched)
            rw [if_pos rfl] at happend
            exact happend
      next => cases h

theorem map_places_succ (n : Int) (draws : List Bool) :
    (places 0 draws).map (fun k : Nat => n + 1 + 1 + k) = (places 1 draws).map (fun k : Nat => n + 1 + k) := by
  rw [places_succ 0, List.map_map]
  apply List.map_congr_left
  intro k _
  simp only [Function.comp_apply]
  omega

/-- From a state in which the counter of the account is at `n`. -/
theorem numbers_of_counter {account : Text} (steps : List TransactionStepInputDto) {run : Run Memo Op} {n : Int}
    (hn : run.sequencesBySource.lookup account = some n) :
    sequenceNumbers account (runSteps sdk false steps run).results =
        sequenceNumbers account run.results ++ (places 0 (marks sdk account steps run)).map (fun k : Nat => n + 1 + k) ∧
      (runSteps sdk false steps run).fetched.lookup account = run.fetched.lookup account := by
  induction steps generalizing run n with
  | nil => exact ⟨(List.append_nil _).symm, rfl⟩
  | cons step rest ih =>
      rw [runSteps_cons, marks]
      cases hmark : mark sdk account run step with
      | none =>
          obtain ⟨hseq, hfetched, hnumbers⟩ := runStep_unmarked hmark
          obtain ⟨hrest, hsame⟩ := ih (hseq.trans hn)
          rw [hrest, hsame, hnumbers, hfetched]
          exact ⟨rfl, rfl⟩
      | some built =>
          obtain ⟨m, hseq, hnumbers, ⟨hm, hfetched⟩ | ⟨hm, -⟩⟩ := runStep_marked hmark
          · rw [hn] at hm
            cases hm
            obtain ⟨hrest, hsame⟩ := ih hseq
            refine ⟨?_, hsame.trans hfetched⟩
            rw [hrest, hnumbers, List.append_assoc, map_places_succ]
            cases built <;> simp [places]
          · rw [hn] at hm
            cases hm

/-- From a state in which no number of the account has been fetched. -/
theorem numbers_of_unfetched {account : Text} (steps : List TransactionStepInputDto) {run : Run Memo Op}
    (hnone : run.sequencesBySource.lookup account = none) :
    (marks sdk account steps run = [] ∧
        sequenceNumbers account (runSteps sdk false steps run).results = sequenceNumbers account run.results ∧
        (runSteps sdk false steps run).fetched.lookup account = run.fetched.lookup account) ∨
      ∃ n, (runSteps sdk false steps run).fetched.lookup account = some n ∧
        sequenceNumbers account (runSteps sdk false steps run).results =
          sequenceNumbers account run.results ++ (places 0 (marks sdk account steps run)).map (fun k : Nat => n + 1 + k) := by
  induction steps generalizing run with
  | nil => exact .inl ⟨rfl, rfl, rfl⟩
  | cons step rest ih =>
      rw [runSteps_cons, marks]
      cases hmark : mark sdk account run step with
      | none =>
          obtain ⟨hseq, hfetched, hnumbers⟩ := runStep_unmarked hmark
          have hrest := ih (hseq.trans hnone)
          rw [hnumbers, hfetched] at hrest
          exact hrest
      | some built =>
          right
          obtain ⟨n, hseq, hnumbers, ⟨hn, -⟩ | ⟨-, hfetched⟩⟩ := runStep_marked hmark
          · rw [hnone] at hn
            cases hn
          · obtain ⟨hrest, hsame⟩ := numbers_of_counter rest hseq
            refine ⟨n, hsame.trans hfetched, ?_⟩
            rw [hrest, hnumbers, List.append_assoc, map_places_succ]
            cases built <;> simp [places]

theorem consecutive_iff_failsLast (account : Text) (steps : List TransactionStepInputDto) :
    Consecutive account (after sdk steps).fetched (after sdk steps).results ↔ FailsLast (marks sdk account steps {}) := by
  rcases @numbers_of_unfetched Memo Op sdk account steps {} rfl with
    ⟨hmarks, -, hfetched⟩ | ⟨n, hfetched, hnumbers⟩
  · rw [hmarks]
    refine iff_of_true (fun n hn => ?_) List.Pairwise.nil
    exact absurd (hfetched.symm.trans hn) nofun
  · have hinj : Function.Injective (fun k : Nat => n + 1 + (k : Int)) := fun a b h => by
      simp only at h
      omega
    rw [Consecutive, after, hfetched, hnumbers, ← places_consecutive_iff (k := 0)]
    simp only [Option.some.injEq, forall_eq', sequenceNumbers, List.filterMap_nil, List.nil_append, List.length_map]
    rw [(List.map_injective_iff.mpr hinj).eq_iff, List.range_eq_range']

theorem mem_marks {account : Text} {steps : List TransactionStepInputDto} {run : Run Memo Op} {built : Bool} :
    built ∈ marks sdk account steps run ↔ ∃ before step rest, steps = before ++ step :: rest ∧
      mark sdk account (runSteps sdk false before run) step = some built := by
  induction steps generalizing run with
  | nil => simp [marks]
  | cons first steps ih =>
      rw [marks, List.mem_append, Option.mem_toList, ih]
      constructor
      · rintro (h | ⟨before, step, rest, rfl, h⟩)
        · exact ⟨[], first, steps, rfl, h⟩
        · exact ⟨first :: before, step, rest, rfl, runSteps_cons first before run ▸ h⟩
      · rintro ⟨before, step, rest, hsteps, h⟩
        cases before with
        | nil =>
            cases hsteps
            exact .inl h
        | cons other before =>
            cases hsteps
            exact .inr ⟨before, step, rest, rfl, runSteps_cons first before run ▸ h⟩

/-- The marks of an account, told by the states in which they are made. -/
theorem failsLast_marks_iff {account : Text} {steps : List TransactionStepInputDto} {run : Run Memo Op} :
    FailsLast (marks sdk account steps run) ↔
      ∀ before failing between building rest, steps = before ++ failing :: (between ++ building :: rest) →
        mark sdk account (runSteps sdk false before run) failing = some false →
          mark sdk account (runSteps sdk false (before ++ failing :: between) run) building ≠ some true := by
  induction steps generalizing run with
  | nil => exact iff_of_true List.Pairwise.nil fun before _ _ _ _ h => absurd h (by simp)
  | cons first steps ih =>
      rw [marks, FailsLast, List.pairwise_append]
      constructor
      · rintro ⟨-, hrest, hfirst⟩ before failing between building rest hsteps hfailing hbuilding
        cases before with
        | nil =>
            cases hsteps
            have hlater : true ∈ marks sdk account (between ++ building :: rest) (runStep sdk first run).1 :=
              mem_marks.mpr ⟨between, building, rest, rfl, runSteps_cons first between run ▸ hbuilding⟩
            exact Bool.noConfusion (hfirst false (Option.mem_toList.mpr hfailing) true hlater rfl)
        | cons other before =>
            cases hsteps
            rw [List.cons_append, runSteps_cons] at hbuilding
            rw [runSteps_cons] at hfailing
            exact ih.mp hrest before failing between building rest rfl hfailing hbuilding
      · intro h
        refine ⟨?_, ?_, ?_⟩
        · cases mark sdk account run first with
          | none => exact List.Pairwise.nil
          | some built => exact List.pairwise_singleton _ _
        · refine ih.mpr fun before failing between building rest hsteps hfailing => ?_
          have hcons := h (first :: before) failing between building rest (congrArg (first :: ·) hsteps)
          rw [List.cons_append, runSteps_cons, runSteps_cons] at hcons
          exact hcons hfailing
        · intro earlier hearlier later hlater hfalse
          subst hfalse
          obtain ⟨between, building, rest, rfl, hbuilding⟩ := mem_marks.mp hlater
          cases later with
          | false => rfl
          | true =>
              refine absurd ?_ (h [] first between building rest rfl (Option.mem_toList.mp hearlier))
              rw [List.nil_append, runSteps_cons]
              exact hbuilding

/-- The transactions of an account have the consecutive numbers after the one that was fetched for
it, exactly when no step of it wastes a number before another is built. -/
theorem run_consecutive_iff (sdk : Sdk Memo Op) (steps : List TransactionStepInputDto) (account : Text)
    (result : SequenceRunResult Memo Op) (hrun : run sdk false steps = .ok result) :
    Consecutive account (after sdk steps).fetched result.results ↔ BurnsNone sdk account steps := by
  have hresults : result.results = (after sdk steps).results := by
    rw [run] at hrun
    split at hrun
    next => cases hrun
    next =>
      obtain ⟨_, -, rfl⟩ := map_eq_ok_iff.mp hrun
      rfl
  rw [hresults, consecutive_iff_failsLast, failsLast_marks_iff]
  rfl

def knownAccount : Text := text "GAAZI4TCR3TY5OJHCTJC2A4QSY6CJWJH5IAJTGKIN2ER7LBNVKOCCWN7"

/-- An SDK that knows one account, at number 100, and payments. A transaction without a timeout is not built. -/
def sampleSdk : Sdk Text (Value Number) where
  account source _ := if source = knownAccount then .ok () else .error (text "accountId is invalid")
  memoText memo := if memo.length ≤ 28 then .ok memo else .error (text "Expects string, array or buffer, max 28 bytes")
  mapOperation op :=
    if textMember (text "type") op = some (text "payment") then .ok op else .error (text "Unsupported operation type")
  build _ timeout :=
    if timeout.isSome then .ok ()
    else .error (text "TimeBounds has to be set or you must call setTimeout(TimeoutInfinite).")
  hash transaction := transaction.source
  loadSequenceNumber _ source := if source = knownAccount then .ok 100 else .error (text "Not Found")

def paymentStep (memo : Option Text) : TransactionStepInputDto where
  source := some (.str knownAccount)
  operations := [.obj [(text "type", .str (text "payment")), (text "destination", .str knownAccount),
    (text "asset", .obj [(text "code", .str (text "XLM"))]), (text "amount", .str (text "10"))]]
  memo := memo

theorem run_consecutive_payments : ∃ result, run sampleSdk false [paymentStep none, paymentStep none] = .ok result ∧
    Consecutive knownAccount (after sampleSdk [paymentStep none, paymentStep none]).fetched result.results := by
  refine ⟨_, rfl, (run_consecutive_iff sampleSdk _ knownAccount _ rfl).mpr ?_⟩
  refine failsLast_marks_iff.mp ?_
  have hmarks : marks sampleSdk knownAccount [paymentStep none, paymentStep none] {} = [true, true] := by decide
  rw [hmarks]
  exact List.pairwise_pair.mpr nofun

/-- A step with a memo is never built, and the next one has the number after its own. -/
theorem not_run_consecutive : ¬∀ (steps : List TransactionStepInputDto) (account : Text)
    (result : SequenceRunResult Text (Value Number)), run sampleSdk false steps = .ok result →
      Consecutive account (after sampleSdk steps).fetched result.results := by
  intro h
  let steps := [paymentStep (some (text "hi")), paymentStep none]
  have hrun : run sampleSdk false steps = .ok ⟨runStatus (after sampleSdk steps).results, (after sampleSdk steps).results⟩ :=
    rfl
  have hfetched : (after sampleSdk steps).fetched.lookup knownAccount = some 100 := by decide
  have hnumbers : sequenceNumbers knownAccount (after sampleSdk steps).results = [102] := by decide
  have hconsecutive := h steps knownAccount _ hrun 100 hfetched
  rw [hnumbers] at hconsecutive
  exact absurd hconsecutive (by decide)

end Savitools.Composer.SequenceNumbers
