import Savitools.Composer.SequenceNumbers
import Savitools.Json.Doubles
import Savitools.Strings.Utf8

namespace Savitools.Composer.SequenceReports

open Strings.CodeUnits Strings.Utf8 Json.Numbers Json.Values Json.Doubles Json.Wholes Common.Exceptions TransactionSequence

variable {Memo Op : Type}

/-- What the SDK does: a transaction has to have time bounds or a timeout, and its number 63 bits. -/
structure Documented (sdk : Sdk Memo Op) : Prop where
  noAccount : ∀ sequence, ∃ message, sdk.account [] sequence = .error message
  needsTimeout : ∀ transaction, ∃ message, sdk.build transaction none = .error message
  builds : ∀ transaction timeout, 0 ≤ transaction.sequence → transaction.sequence < 2 ^ 63 →
    sdk.build transaction (some timeout) = .ok ()
  loads : ∀ index account sequence, sdk.loadSequenceNumber index account = .ok sequence → 0 ≤ sequence ∧ sequence < 2 ^ 63

/-- An account that the SDK takes and that the network knows. -/
def IsAccount (sdk : Sdk Memo Op) (account : Text) : Prop :=
  (∀ sequence, sdk.account account sequence = .ok ()) ∧ ∀ index, ∃ sequence, sdk.loadSequenceNumber index account = .ok sequence

structure WellFormed (sdk : Sdk Memo Op) (step : TransactionStepInputDto) : Prop where
  source : (∃ account, step.source = some (.str account) ∧ IsAccount sdk account) ∨
    ∃ ref, step.source = some ref ∧ isReference ref = true
  operations : ∀ op ∈ step.operations, ∃ mapped, sdk.mapOperation op = .ok mapped
  memo : ∀ memo ∈ step.memo, (textEncode memo).length ≤ 28

/-- The report of a step that succeeded with the numbers of its transaction, as whole numbers. -/
def IsExact (result : StepResult Memo Op) : Prop :=
  result.status = .success ∧ ∃ transaction, result.xdr = some transaction ∧
    result.sequence = some (.ofInt (transaction.sequence - 1)) ∧ result.nextSequence = .ofInt transaction.sequence

/-- The accounts that a step uses and sends to. -/
structure Accounts where
  source : Text
  destination : Text

/-- The account that a source stands for, behind steps with these accounts. -/
def sourceFor (done : List Accounts) : Option (Value Number) → Text
  | some (.str account) => account
  | some ref =>
      match (referredStep ref).bind (done[·]?) with
      | some accounts =>
          if textMember (text "field") ref = some (text "destination") then accounts.destination else accounts.source
      | none => []
  | none => []

def accountsOf (done : List Accounts) (step : TransactionStepInputDto) : Accounts where
  source := sourceFor done step.source
  destination := destinationOf step.operations (sourceFor done step.source)

/-- The accounts of steps one after another. -/
def resolve (steps : List TransactionStepInputDto) : List Accounts :=
  steps.foldl (fun done step => done ++ [accountsOf done step]) []

variable (sdk : Sdk Memo Op)

/-- The number an account is at: what its first step loads, and one more for each step that uses it. -/
def numberFor (done : List Accounts) (account : Text) : Except Text Int :=
  (sdk.loadSequenceNumber ((done.map (·.source)).idxOf account) account).map (· + (done.map (·.source)).count account)

/-- A step without a memo, whose account is at a number below 2^53. -/
def Reportable (done : List Accounts) (step : TransactionStepInputDto) : Prop :=
  step.memo.getD [] = [] ∧ ∃ sequence, numberFor sdk done (sourceFor done step.source) = .ok sequence ∧
    sdk.account (sourceFor done step.source) sequence = .ok () ∧ sequence < 2 ^ 53

/-- The state of the loop when the steps so far have succeeded with these accounts. -/
structure Lockstep (done : List Accounts) (run : Run Memo Op) : Prop where
  count : run.results.length = done.length
  succeeded : ∀ (index : Nat) accounts, done[index]? = some accounts →
    ∃ result, run.results[index]? = some result ∧ result.status = .success ∧ result.sourceAccount = accounts.source
  destination : ∀ (index : Nat) accounts, done[index]? = some accounts →
    run.destinationByStep.lookup index = some accounts.destination
  counter : ∀ account ∈ done.map (·.source), ∃ sequence, numberFor sdk done account = .ok sequence ∧
    run.sequencesBySource.lookup account = some sequence
  unseen : ∀ account ∉ done.map (·.source), run.sequencesBySource.lookup account = none

/-- A reference is to a step in front of this place. -/
def RefersBack (index : Nat) (step : TransactionStepInputDto) : Prop :=
  ∀ ref, step.source.filter isReference = some ref → ∃ earlier < index, referredStep ref = some earlier

theorem round_whole (n : Int) : Json.Doubles.round n = ofBigInt n := by
  have hnegative : decide ((n : Rat) < 0) = decide (n < 0) := decide_eq_decide.mpr (@Rat.intCast_lt_intCast n 0)
  rw [Json.Doubles.round, hnegative]
  rfl

/-- A whole number and the next are both doubles only below 2^53. -/
theorem exact_pair_iff {n : Int} (hn : 0 ≤ n) : Exact n ∧ Exact (n + 1) ↔ n < 2 ^ 53 := by
  constructor
  · rintro ⟨hfirst, hsecond⟩
    have heven := even_of_ofBigInt hn hfirst
    have hnext := even_of_ofBigInt (Int.le_add_one hn) hsecond
    omega
  · intro hsmall
    exact ⟨exact_of_le hn (Int.le_of_lt hsmall), exact_of_le (Int.le_add_one hn) hsmall⟩

variable {sdk}

section Step

variable {done : List Accounts} {run : Run Memo Op} {step : TransactionStepInputDto}

theorem resolveSource_eq (h : Lockstep sdk done run) (hwell : WellFormed sdk step) (hback : RefersBack done.length step) :
    resolveSource run.results.length step.source run = .ok (some (.str (sourceFor done step.source))) := by
  obtain ⟨account, haccount, -⟩ | ⟨ref, href, hreference⟩ := hwell.source
  · rw [haccount]
    rfl
  · have hfilter : step.source.filter isReference = some ref := Option.filter_eq_some_iff.mpr ⟨href, hreference⟩
    obtain ⟨earlier, hearlier, hstep⟩ := hback ref hfilter
    have haccounts : done[earlier]? = some done[earlier] := List.getElem?_eq_getElem hearlier
    obtain ⟨prior, hprior, hsuccess, hsource⟩ := h.succeeded earlier _ haccounts
    have hresult : priorResult run.results.length ref run = .ok prior := by
      simp only [priorResult, hstep, Option.bind_some, hprior, Option.filter_some, hsuccess, decide_true, if_true]
    have hfor : sourceFor done (some ref) =
        if textMember (text "field") ref = some (text "destination") then done[earlier].destination
        else done[earlier].source := by
      cases ref with
      | arr items => simp only [sourceFor, hstep, Option.bind_some, haccounts]
      | obj fields => simp only [sourceFor, hstep, Option.bind_some, haccounts]
      | null | bool b | num n | str t => cases hreference
    rw [resolveSource, hfilter]
    simp only [hresult, Except.map, hstep, Option.getD_some, h.destination earlier _ haccounts, hsource, href, hfor]

theorem numberStep_eq (h : Lockstep sdk done run) (hwell : WellFormed sdk step) (hback : RefersBack done.length step)
    (hne : sourceFor done step.source ≠ []) : ∃ isFetched, numberStep sdk step run =
      (numberFor sdk done (sourceFor done step.source)).map fun sequence =>
        (sourceFor done step.source, sequence, isFetched) := by
  have haccount : resolveSourceAccount run.results.length (some (.str (sourceFor done step.source))) run =
      .ok (sourceFor done step.source) := if_pos hne
  simp only [numberStep, resolveSource_eq h hwell hback, Except.bind, haccount]
  by_cases hseen : sourceFor done step.source ∈ done.map (·.source)
  · obtain ⟨sequence, hnumber, hlookup⟩ := h.counter _ hseen
    refine ⟨false, ?_⟩
    rw [hlookup, hnumber]
    rfl
  · refine ⟨true, ?_⟩
    rw [h.unseen _ hseen, numberFor, List.idxOf_eq_length hseen, List.length_map, List.count_eq_zero_of_not_mem hseen,
      h.count]
    cases sdk.loadSequenceNumber done.length (sourceFor done step.source) with
    | error message => rfl
    | ok sequence => simp [Except.map]

/-- A step whose source is nothing fails. -/
theorem numberStep_missing (h : Lockstep sdk done run) (hwell : WellFormed sdk step) (hback : RefersBack done.length step)
    (hnone : sourceFor done step.source = []) : ∃ message, numberStep sdk step run = .error message := by
  have haccount : resolveSourceAccount run.results.length (some (.str (sourceFor done step.source))) run =
      .error (text "Step " ++ Strings.Decimals.ofNat run.results.length ++ text " is missing a source account") :=
    if_neg (not_not.mpr hnone)
  simp only [numberStep, resolveSource_eq h hwell hback, Except.bind, haccount]
  exact ⟨_, rfl⟩

/-- With a memo the builder is given no timeout, and nothing is built. -/
theorem buildStep_memo (hsdk : Documented sdk) (hmemo : step.memo.getD [] ≠ []) (account : Text) (sequence : Int) :
    ∃ message, buildStep sdk step account sequence = .error message := by
  cases hbuild : buildStep sdk step account sequence with
  | error message => exact ⟨message, rfl⟩
  | ok transaction =>
      obtain ⟨_, -, hbuild⟩ := bind_eq_ok.mp hbuild
      obtain ⟨memo, hstep, hbuild⟩ := bind_eq_ok.mp hbuild
      obtain ⟨operations, -, hbuild⟩ := bind_eq_ok.mp hbuild
      obtain ⟨_, hbuilt, -⟩ := map_eq_ok_iff.mp hbuild
      obtain ⟨given, hgiven⟩ : ∃ given, step.memo = some given :=
        Option.ne_none_iff_exists'.mp fun hnone => hmemo (by rw [hnone]; rfl)
      rw [hgiven, Option.getD_some] at hmemo
      rw [stepMemo, hgiven, Option.filter_some, if_pos (decide_eq_true hmemo)] at hstep
      obtain ⟨made, -, rfl⟩ := map_eq_ok_iff.mp hstep
      obtain ⟨message, hmessage⟩ := hsdk.needsTimeout ⟨account, sequence + 1, some made, operations⟩
      cases hmessage.symm.trans hbuilt

theorem buildStep_plain (hsdk : Documented sdk) (hwell : WellFormed sdk step) (hmemo : step.memo.getD [] = [])
    {account : Text} {sequence : Int} (hnonneg : 0 ≤ sequence) (hsmall : sequence < 2 ^ 53)
    (haccount : sdk.account account sequence = .ok ()) :
    ∃ transaction, buildStep sdk step account sequence = .ok transaction := by
  have hstep : stepMemo sdk step = .ok none := by
    cases hgiven : step.memo with
    | none => rw [stepMemo, hgiven]; rfl
    | some memo =>
        rw [hgiven, Option.getD_some] at hmemo
        rw [stepMemo, hgiven, hmemo]
        rfl
  obtain ⟨operations, hoperations⟩ := exists_mapM_ok hwell.operations
  have hbuilt := hsdk.builds ⟨account, sequence + 1, none, operations⟩ 30 (Int.le_add_one hnonneg) (by simp only; omega)
  refine ⟨⟨account, sequence + 1, none, operations⟩, ?_⟩
  simp only [buildStep, haccount, hstep, hoperations, Except.bind, Option.isSome_none, Bool.false_eq_true, if_false, hbuilt,
    Except.map]

theorem numberFor_concat (accounts : Accounts) :
    numberFor sdk (done ++ [accounts]) accounts.source = (numberFor sdk done accounts.source).map (· + 1) := by
  have hindex : ((done ++ [accounts]).map (·.source)).idxOf accounts.source = (done.map (·.source)).idxOf accounts.source := by
    rw [List.map_append, List.idxOf_append]
    split
    · rfl
    · next hnew => rw [List.map_singleton, List.idxOf_cons_self, List.idxOf_eq_length hnew, Nat.zero_add]
  have hcount : ((done ++ [accounts]).map (·.source)).count accounts.source =
      (done.map (·.source)).count accounts.source + 1 := by
    rw [List.map_append, List.count_append, List.map_singleton, List.count_singleton_self]
  rw [numberFor, numberFor, hindex, hcount]
  cases sdk.loadSequenceNumber ((done.map (·.source)).idxOf accounts.source) accounts.source with
  | error message => rfl
  | ok sequence => simp [Except.map, Int.add_assoc]

theorem numberFor_concat_other {accounts : Accounts} {account : Text} (hmem : account ∈ done.map (·.source))
    (hother : account ≠ accounts.source) : numberFor sdk (done ++ [accounts]) account = numberFor sdk done account := by
  have hindex : ((done ++ [accounts]).map (·.source)).idxOf account = (done.map (·.source)).idxOf account := by
    rw [List.map_append, List.idxOf_append_of_mem hmem]
  have hcount : ((done ++ [accounts]).map (·.source)).count account = (done.map (·.source)).count account := by
    rw [List.map_append, List.count_append, List.map_singleton, List.count_singleton, beq_false_of_ne hother.symm]
    rfl
  rw [numberFor, numberFor, hindex, hcount]

theorem lookup_cons_other {α β : Type} [BEq α] [LawfulBEq α] {a b : α} {value : β} {entries : List (α × β)} (h : a ≠ b) :
    ((b, value) :: entries).lookup a = entries.lookup a := by
  rw [List.lookup_cons, beq_false_of_ne h]

theorem getElem?_concat {α : Type} {l : List α} {a b : α} {index : Nat} (h : (l ++ [a])[index]? = some b) :
    (index < l.length ∧ l[index]? = some b) ∨ (index = l.length ∧ b = a) := by
  rw [List.getElem?_append] at h
  split at h
  next hlt => exact .inl ⟨hlt, h⟩
  next hge =>
    rw [List.getElem?_singleton] at h
    split at h
    next hlast => exact .inr ⟨by omega, (Option.some.inj h).symm⟩
    next => cases h

theorem succeed_lockstep (h : Lockstep sdk done run) {sequence : Int}
    (hnumber : numberFor sdk done (sourceFor done step.source) = .ok sequence) (isFetched : Bool)
    (transaction : Transaction Memo Op) :
    Lockstep sdk (done ++ [accountsOf done step]) (succeed sdk step (sourceFor done step.source) sequence transaction
      (takeNumber run (sourceFor done step.source) sequence isFetched)) where
  count := by
    rw [succeed, List.length_append, List.length_append]
    exact congrArg (· + 1) h.count
  succeeded index accounts hindex := by
    rcases getElem?_concat hindex with ⟨hlt, hold⟩ | ⟨rfl, rfl⟩
    · obtain ⟨result, hresult, hspec⟩ := h.succeeded index accounts hold
      refine ⟨result, ?_, hspec⟩
      rw [succeed]
      exact (List.getElem?_append_left (h.count ▸ hlt)).trans hresult
    · rw [← h.count, succeed]
      exact ⟨_, List.getElem?_concat_length, rfl, rfl⟩
  destination index accounts hindex := by
    rw [succeed]
    rcases getElem?_concat hindex with ⟨hlt, hold⟩ | ⟨rfl, rfl⟩
    · exact (lookup_cons_other (h.count ▸ Nat.ne_of_lt hlt)).trans (h.destination index accounts hold)
    · rw [← h.count]
      exact List.lookup_cons_self
  counter account haccount := by
    by_cases hsame : account = sourceFor done step.source
    · refine ⟨sequence + 1, ?_, ?_⟩
      · have hconcat := @numberFor_concat Memo Op sdk done (accountsOf done step)
        rw [accountsOf, hnumber] at hconcat
        rw [hsame]
        exact hconcat
      · rw [hsame]
        exact List.lookup_cons_self
    · have hmem : account ∈ done.map (·.source) := by
        rw [List.map_append, List.mem_append, List.map_singleton, List.mem_singleton] at haccount
        exact haccount.resolve_right hsame
      obtain ⟨other, hother, hlookup⟩ := h.counter account hmem
      refine ⟨other, (numberFor_concat_other hmem hsame).trans hother, ?_⟩
      exact (lookup_cons_other hsame).trans hlookup
  unseen account haccount := by
    rw [List.map_append, List.mem_append, List.map_singleton, List.mem_singleton, not_or] at haccount
    exact (lookup_cons_other haccount.2).trans (h.unseen account haccount.1)

theorem numberFor_nonneg (hsdk : Documented sdk) {account : Text} {sequence : Int}
    (h : numberFor sdk done account = .ok sequence) : 0 ≤ sequence := by
  obtain ⟨loaded, hloaded, rfl⟩ := map_eq_ok_iff.mp h
  have hnonneg := (hsdk.loads _ _ _ hloaded).1
  omega

theorem runStep_reportable (hsdk : Documented sdk) (h : Lockstep sdk done run) (hwell : WellFormed sdk step)
    (hback : RefersBack done.length step) (hgood : Reportable sdk done step) :
    ∃ run' result, runStep sdk step run = (run', true) ∧ run'.results = run.results ++ [result] ∧ IsExact result ∧
      Lockstep sdk (done ++ [accountsOf done step]) run' := by
  obtain ⟨hmemo, sequence, hnumber, haccount, hsmall⟩ := hgood
  have hne : sourceFor done step.source ≠ [] := fun hnone => by
    obtain ⟨message, hmessage⟩ := hsdk.noAccount sequence
    rw [hnone, hmessage] at haccount
    cases haccount
  have hnonneg := numberFor_nonneg hsdk hnumber
  obtain ⟨isFetched, hstep⟩ := numberStep_eq h hwell hback hne
  obtain ⟨transaction, hbuild⟩ := buildStep_plain hsdk hwell hmemo hnonneg hsmall haccount
  obtain ⟨hexact, hnext⟩ := (exact_pair_iff hnonneg).mpr hsmall
  have htaken : transaction.sequence = sequence + 1 := (SequenceNumbers.of_buildStep hbuild).2
  refine ⟨_, _, ?_, rfl, ⟨rfl, transaction, rfl, ?_, ?_⟩, succeed_lockstep h hnumber isFetched transaction⟩
  · rw [runStep, hstep, hnumber]
    simp only [Except.map, hbuild]
  · simp only [round_whole, htaken, Int.add_sub_cancel]
    exact congrArg some hexact
  · have hcast : ((sequence : Rat) + 1) = ((sequence + 1 : Int) : Rat) := by push_cast; rfl
    simp only [hcast, round_whole, htaken]
    exact hnext

theorem runStep_adds (step : TransactionStepInputDto) (run : Run Memo Op) :
    ∃ result, (runStep sdk step run).1.results = run.results ++ [result] := by
  rw [runStep]
  split
  next => exact ⟨_, rfl⟩
  next sourceAccount sequence isFetched _ =>
    simp only
    split
    next => exact ⟨_, rfl⟩
    next => exact ⟨_, rfl⟩

/-- Only a step that can be reported exactly is. -/
theorem reportable_of_exact (hsdk : Documented sdk) (h : Lockstep sdk done run) (hwell : WellFormed sdk step)
    (hback : RefersBack done.length step) {result : StepResult Memo Op}
    (hresult : (runStep sdk step run).1.results = run.results ++ [result]) (hexact : IsExact result) :
    Reportable sdk done step := by
  obtain ⟨hsuccess, transaction, hxdr, hsequence, hnext⟩ := hexact
  have hfailed : ∀ message (run' : Run Memo Op), run'.results = run.results →
      (failStep message run').results ≠ run.results ++ [result] := by
    intro message run' hsame heq
    rw [failStep, hsame] at heq
    have hlast := List.append_cancel_left heq
    rw [← (List.cons.inj hlast).1] at hsuccess
    cases hsuccess
  by_cases hne : sourceFor done step.source = []
  · obtain ⟨message, hmessage⟩ := numberStep_missing h hwell hback hne
    rw [runStep, hmessage] at hresult
    exact absurd hresult (hfailed message run rfl)
  obtain ⟨isFetched, hstep⟩ := numberStep_eq h hwell hback hne
  cases hnumber : numberFor sdk done (sourceFor done step.source) with
  | error message =>
      rw [runStep, hstep, hnumber] at hresult
      exact absurd hresult (hfailed message run rfl)
  | ok sequence =>
      rw [runStep, hstep, hnumber] at hresult
      simp only [Except.map] at hresult
      cases hbuild : buildStep sdk step (sourceFor done step.source) sequence with
      | error message =>
          rw [hbuild] at hresult
          exact absurd hresult (hfailed message _ rfl)
      | ok built =>
          rw [hbuild] at hresult
          have hlast := (List.cons.inj (List.append_cancel_left hresult)).1
          rw [← hlast] at hxdr hsequence hnext
          cases hxdr
          have htaken : transaction.sequence = sequence + 1 := (SequenceNumbers.of_buildStep hbuild).2
          have hmemo : step.memo.getD [] = [] := by
            by_contra hmemo
            obtain ⟨message, hmessage⟩ := buildStep_memo hsdk hmemo (sourceFor done step.source) sequence
            cases hmessage.symm.trans hbuild
          obtain ⟨_, haccount, -⟩ := bind_eq_ok.mp hbuild
          refine ⟨hmemo, sequence, hnumber, haccount, (exact_pair_iff (numberFor_nonneg hsdk hnumber)).mp ⟨?_, ?_⟩⟩
          · simp only [round_whole, htaken, Int.add_sub_cancel] at hsequence
            exact Option.some.inj hsequence
          · have hcast : ((sequence : Rat) + 1) = ((sequence + 1 : Int) : Rat) := by push_cast; rfl
            simp only [hcast, round_whole, htaken] at hnext
            exact hnext

end Step

theorem resolve_concat (before : List TransactionStepInputDto) (step : TransactionStepInputDto) :
    resolve (before ++ [step]) = resolve before ++ [accountsOf (resolve before) step] := by
  rw [resolve, List.foldl_append]
  rfl

theorem length_resolve (steps : List TransactionStepInputDto) : (resolve steps).length = steps.length := by
  induction steps using List.reverseRecOn with
  | nil => rfl
  | append_singleton before step ih => rw [resolve_concat, List.length_append, List.length_append, ih]; rfl

theorem runSteps_keeps (stopOnFailure : Bool) (steps : List TransactionStepInputDto) (run : Run Memo Op) :
    ∃ more, (runSteps sdk stopOnFailure steps run).results = run.results ++ more := by
  induction steps generalizing run with
  | nil => exact ⟨[], (List.append_nil _).symm⟩
  | cons step rest ih =>
      obtain ⟨result, hresult⟩ := @runStep_adds Memo Op sdk step run
      rw [runSteps]
      simp only
      split
      · exact ⟨[result], hresult⟩
      · obtain ⟨more, hmore⟩ := ih (runStep sdk step run).1
        exact ⟨result :: more, by rw [hmore, hresult, List.append_assoc, List.singleton_append]⟩

theorem forall_split_cons {α : Type} {P : List α → α → Prop} {a : α} {l : List α} :
    (∀ before x rest, a :: l = before ++ x :: rest → P before x) ↔
      P [] a ∧ ∀ before x rest, l = before ++ x :: rest → P (a :: before) x := by
  constructor
  · intro h
    exact ⟨h [] a l rfl, fun before x rest hl => h (a :: before) x rest (congrArg (a :: ·) hl)⟩
  · rintro ⟨hfirst, hlater⟩ before x rest hsplit
    cases before with
    | nil =>
        obtain ⟨rfl, -⟩ := List.cons.inj hsplit
        exact hfirst
    | cons b before =>
        obtain ⟨rfl, hl⟩ := List.cons.inj hsplit
        exact hlater before x rest hl

/-- The run lemma: from a state in lockstep all reports are exact if all further steps can be reported. -/
theorem runSteps_exact_iff (hsdk : Documented sdk) (stopOnFailure : Bool) {before rest : List TransactionStepInputDto}
    {run : Run Memo Op} (h : Lockstep sdk (resolve before) run) (hwell : ∀ step ∈ rest, WellFormed sdk step)
    (hback : ∀ mid step after, rest = mid ++ step :: after → RefersBack (before ++ mid).length step)
    (hexact : ∀ result ∈ run.results, IsExact result) :
    ((runSteps sdk stopOnFailure rest run).results.length = (before ++ rest).length ∧
        ∀ result ∈ (runSteps sdk stopOnFailure rest run).results, IsExact result) ↔
      ∀ mid step after, rest = mid ++ step :: after → Reportable sdk (resolve (before ++ mid)) step := by
  induction rest generalizing before run with
  | nil =>
      refine iff_of_true ⟨?_, hexact⟩ fun mid step after hsplit => absurd hsplit (by simp)
      rw [List.append_nil, ← length_resolve, ← h.count]
      rfl
  | cons step rest ih =>
      have hwellStep := hwell step List.mem_cons_self
      have hbackStep : RefersBack (resolve before).length step := by
        have hfirst := hback [] step rest rfl
        rwa [List.append_nil, ← length_resolve] at hfirst
      rw [forall_split_cons, List.append_nil]
      by_cases hgood : Reportable sdk (resolve before) step
      · obtain ⟨run', result, hstep, hresults, hresult, hnext⟩ := runStep_reportable hsdk h hwellStep hbackStep hgood
        have hrun : runSteps sdk stopOnFailure (step :: rest) run = runSteps sdk stopOnFailure rest run' := by
          rw [runSteps, hstep]
          rfl
        rw [← resolve_concat] at hnext
        have hrest := ih hnext (fun other hother => hwell other (List.mem_cons_of_mem _ hother))
          (fun mid other after hsplit => by
            have hlater := hback (step :: mid) other after (congrArg (step :: ·) hsplit)
            rwa [List.append_cons] at hlater)
          (by rw [hresults]; exact List.forall_mem_append.mpr ⟨hexact, List.forall_mem_singleton.mpr hresult⟩)
        rw [hrun, List.append_cons, hrest, and_iff_right hgood]
        simp only [List.append_assoc, List.singleton_append]
      · refine iff_of_false (fun hall => hgood ?_) fun hall => hgood hall.1
        obtain ⟨result, hresult⟩ := @runStep_adds Memo Op sdk step run
        refine reportable_of_exact hsdk h hwellStep hbackStep hresult (hall.2 result ?_)
        have hmem : result ∈ (runStep sdk step run).1.results := hresult ▸ List.mem_append_right _ List.mem_cons_self
        rw [runSteps]
        simp only
        split
        · exact hmem
        · obtain ⟨more, hmore⟩ := @runSteps_keeps Memo Op sdk stopOnFailure rest (runStep sdk step run).1
          rw [hmore]
          exact List.mem_append_left _ hmem

theorem lockstep_start : Lockstep sdk (resolve []) ({} : Run Memo Op) where
  count := rfl
  succeeded _ _ hindex := by cases hindex
  destination _ _ hindex := by cases hindex
  counter _ haccount := by cases haccount
  unseen _ _ := rfl

theorem refersBack_of_valid {steps : List TransactionStepInputDto} (h : validateStepOrder steps = .ok ())
    (before : List TransactionStepInputDto) (step : TransactionStepInputDto) (rest : List TransactionStepInputDto)
    (hsplit : steps = before ++ step :: rest) : RefersBack before.length step := by
  intro ref href
  have hmem : (step, before.length) ∈ steps.zipIdx := by
    rw [hsplit, List.zipIdx_append]
    refine List.mem_append_right _ ?_
    rw [List.zipIdx_cons, Nat.zero_add]
    exact List.mem_cons_self
  have hstep := of_forM h _ hmem
  simp only [href] at hstep
  split at hstep
  next hany =>
    obtain ⟨earlier, hearlier, hlt⟩ := (Option.any_eq_true _ _).mp hany
    exact ⟨earlier, of_decide_eq_true hlt, hearlier⟩
  next => cases hstep

/-- Every step succeeds and is reported exactly, exactly when none has a memo and each takes a number below 2^53. -/
theorem run_exact_iff (hsdk : Documented sdk) (stopOnFailure : Bool) (steps : List TransactionStepInputDto)
    (hwell : ∀ step ∈ steps, WellFormed sdk step) (result : SequenceRunResult Memo Op)
    (hrun : run sdk stopOnFailure steps = .ok result) :
    (result.results.length = steps.length ∧ ∀ report ∈ result.results, IsExact report) ↔
      ∀ before step rest, steps = before ++ step :: rest → Reportable sdk (resolve before) step := by
  rw [run] at hrun
  split at hrun
  next => cases hrun
  next =>
    obtain ⟨_, hvalid, rfl⟩ := map_eq_ok_iff.mp hrun
    exact runSteps_exact_iff hsdk stopOnFailure lockstep_start hwell (refersBack_of_valid hvalid)
      (List.forall_mem_nil _)

theorem sample_documented : Documented SequenceNumbers.sampleSdk where
  noAccount _ := ⟨text "accountId is invalid", rfl⟩
  needsTimeout _ := ⟨_, rfl⟩
  builds _ _ _ _ := rfl
  loads index account sequence h := by
    simp only [SequenceNumbers.sampleSdk] at h
    split at h
    · cases h
      decide
    · cases h

theorem paymentStep_wellFormed {memo : Option Text} (hmemo : ∀ t ∈ memo, (textEncode t).length ≤ 28) :
    WellFormed SequenceNumbers.sampleSdk (SequenceNumbers.paymentStep memo) where
  source := .inl ⟨_, rfl, fun _ => rfl, fun _ => ⟨100, rfl⟩⟩
  operations := List.forall_mem_singleton.mpr ⟨_, rfl⟩
  memo := hmemo

def twoPayments : List TransactionStepInputDto := [SequenceNumbers.paymentStep none, SequenceNumbers.paymentStep none]

theorem run_exact_payments : ∃ result, run SequenceNumbers.sampleSdk true twoPayments = .ok result ∧
    result.results.length = twoPayments.length ∧ ∀ report ∈ result.results, IsExact report := by
  have hwell : ∀ step ∈ twoPayments, WellFormed SequenceNumbers.sampleSdk step :=
    List.forall_mem_cons.mpr ⟨paymentStep_wellFormed nofun, List.forall_mem_singleton.mpr (paymentStep_wellFormed nofun)⟩
  refine ⟨_, rfl, (run_exact_iff sample_documented true twoPayments hwell _ rfl).mpr ?_⟩
  refine forall_split_cons.mpr ⟨⟨rfl, 100, rfl, rfl, by decide⟩, forall_split_cons.mpr ⟨⟨rfl, 101, rfl, rfl, by decide⟩, ?_⟩⟩
  intro before step rest hsplit
  exact absurd hsplit (by simp)

/-- A payment with the memo `hi` fails. -/
theorem not_run_exact : ¬∀ (steps : List TransactionStepInputDto) (result : SequenceRunResult Text (Value Number)),
    (∀ step ∈ steps, WellFormed SequenceNumbers.sampleSdk step) → run SequenceNumbers.sampleSdk true steps = .ok result →
      result.results.length = steps.length ∧ ∀ report ∈ result.results, IsExact report := by
  intro h
  have hwell : WellFormed SequenceNumbers.sampleSdk (SequenceNumbers.paymentStep (some (text "hi"))) :=
    paymentStep_wellFormed (by
      rintro t ⟨⟩
      decide)
  have hrun := h [SequenceNumbers.paymentStep (some (text "hi"))] _ (List.forall_mem_singleton.mpr hwell) rfl
  exact absurd (hrun.2 _ List.mem_cons_self).1 (by decide)

end Savitools.Composer.SequenceReports
