import Mathlib.Data.List.Sort
import Savitools.Json.Doubles
import Savitools.Searches.Best
import Savitools.Common.Exceptions
import Savitools.Transitions.Folds

namespace Savitools.SequencePlanner.Planner

open Strings.CodeUnits Json.Numbers Json.Conversions Json.Doubles Json.Wholes Searches.Upward

structure TransactionPlanDto where
  id : Text
  sourceAccount : Text
  sequenceNumber : Option Number
  description : Option Text
  dependencies : Option (List Text)

inductive ConflictType
  | duplicate
  | gap
  | outOfOrder
  | dependencyViolation
deriving DecidableEq

inductive Severity
  | error
  | warning
deriving DecidableEq

structure SequenceConflict where
  type : ConflictType
  severity : Severity
  message : Text
  transactions : List Text
  accounts : List Text

structure AccountSequenceInfo where
  account : Text
  currentSequence : Text
  nextSequence : Text
  plannedSequences : List Number

inductive Status
  | valid
  | conflict
  | warning
deriving DecidableEq

structure PlannedTransaction extends TransactionPlanDto where
  assignedSequence : Number
  status : Status
  issues : List Text

/-- What ends a plan without a result: `BigInt` of a number that is not whole, or a search
for a free sequence that goes on beyond its fuel. -/
inductive Failure
  | notAnInteger (n : Number)
  | endless
deriving DecidableEq

/-- The current sequences that Horizon tells, where it knows the account: they are 64-bit
numbers and not negative. -/
structure Ledger where
  sequence : Text → Option Int
  nonneg : ∀ account n, sequence account = some n → 0 ≤ n
  bounded : ∀ account n, sequence account = some n → n < 2 ^ 63

/-- Sets of numbers by account, both in the order of insertion. -/
abbrev UsedSequences := List (Text × List Number)

def addNumber (n : Number) (set : List Number) : List Number := if n ∈ set then set else set ++ [n]

def usedBy (used : UsedSequences) (account : Text) : List Number := (used.lookup account).getD []

def addUsed (used : UsedSequences) (account : Text) (n : Number) : UsedSequences :=
  if (used.lookup account).isSome then
    used.map fun (a, set) => (a, if a = account then addNumber n set else set)
  else used ++ [(account, [n])]

def buildDependencyGraph (transactions : List TransactionPlanDto) : List (Text × List Text) :=
  transactions.map fun tx => (tx.id, tx.dependencies.getD [])

/-- `graph.get(id) || []`; of entries with one key the last was set. -/
def dependenciesOf (graph : List (Text × List Text)) (id : Text) : List Text := (graph.reverse.lookup id).getD []

def atLeast (a b : Number) : Bool := !exceeds b a

def notFoundIssue (depId : Text) : Text := text "Dependency '" ++ depId ++ text "' not found in plan"

def orderIssue (depId : Text) (assigned own : Number) : Text :=
  text "Dependency '" ++ depId ++ text "' has sequence " ++ numberText assigned ++
    text " >= current transaction sequence " ++ numberText own

def checkDependency (tx : TransactionPlanDto) (planned : List PlannedTransaction) (depId : Text) : List Text :=
  match planned.find? (fun t => t.id = depId) with
  | none => [notFoundIssue depId]
  | some depTx =>
      if depTx.sourceAccount = tx.sourceAccount then
        match tx.sequenceNumber with
        | some own => if atLeast depTx.assignedSequence own then [orderIssue depId depTx.assignedSequence own] else []
        | none => []
      else []

def checkDependencies (tx : TransactionPlanDto) (graph : List (Text × List Text)) (planned : List PlannedTransaction) :
    List Text :=
  (dependenciesOf graph tx.id).flatMap (checkDependency tx planned)

/-- What a transaction gets: its sequence, status, further issues and conflicts, and whether
the sequence counts as used. -/
structure Assignment where
  assignedSequence : Number
  status : Status
  issues : List Text
  conflicts : List SequenceConflict
  counts : Bool

/-- A sequence that the user provided is validated. -/
def validateGiven (currentSeq : Option Int) (usedSeqs : List Number) (tx : TransactionPlanDto) (given : Number) :
    Except Failure Assignment :=
  let duplicate := decide (given ∈ usedSeqs)
  let duplicateIssues := if duplicate then
    [text "Duplicate sequence number " ++ numberText given ++ text " for account " ++ tx.sourceAccount] else []
  let conflicts := if duplicate then
    [{ type := .duplicate
       severity := .error
       message := text "Duplicate sequence number " ++ numberText given
       transactions := [tx.id]
       accounts := [tx.sourceAccount] }] else []
  match currentSeq with
  | none => .ok ⟨given, if duplicate then .conflict else .valid, duplicateIssues, conflicts, true⟩
  | some current =>
      match toBigInt given with
      | none => .error (.notAnInteger given)
      | some n =>
          let usedIssues := if n ≤ current then
            [text "Sequence " ++ numberText given ++ text " has already been used"] else []
          .ok ⟨given, if n ≤ current ∨ duplicate then .conflict else .valid, usedIssues ++ duplicateIssues, conflicts, true⟩

/-- The next available sequence is assigned. -/
def autoAssign (fuel : Nat) (currentSeq : Option Int) (usedSeqs : List Number) (tx : TransactionPlanDto) :
    Except Failure Assignment :=
  match currentSeq with
  | none => .ok ⟨.ofInt 0, .warning, [text "Cannot fetch current sequence for " ++ tx.sourceAccount], [], false⟩
  | some current =>
      match search (fun n => decide (ofBigInt n ∉ usedSeqs)) fuel (current + 1) with
      | none => .error .endless
      | some nextSeq => .ok ⟨ofBigInt nextSeq, .valid, [], [], true⟩

structure Planning where
  plannedTransactions : List PlannedTransaction := []
  conflicts : List SequenceConflict := []
  usedSequences : UsedSequences := []
  accountSequences : List AccountSequenceInfo

def assign (ledger : Ledger) (fuel : Nat) (planning : Planning) (tx : TransactionPlanDto) : Except Failure Assignment :=
  let currentSeq := ledger.sequence tx.sourceAccount
  let usedSeqs := usedBy planning.usedSequences tx.sourceAccount
  match tx.sequenceNumber with
  | some given => validateGiven currentSeq usedSeqs tx given
  | none => autoAssign fuel currentSeq usedSeqs tx

def record (graph : List (Text × List Text)) (planning : Planning) (tx : TransactionPlanDto) (assignment : Assignment) :
    Planning :=
  { plannedTransactions := planning.plannedTransactions ++
      [{ tx with
         assignedSequence := assignment.assignedSequence
         status := assignment.status
         issues := checkDependencies tx graph planning.plannedTransactions ++ assignment.issues }]
    conflicts := planning.conflicts ++ assignment.conflicts
    usedSequences := if assignment.counts then
      addUsed planning.usedSequences tx.sourceAccount assignment.assignedSequence else planning.usedSequences
    accountSequences := planning.accountSequences.map fun info =>
      if info.account = tx.sourceAccount then
        { info with plannedSequences := info.plannedSequences ++ [assignment.assignedSequence] }
      else info }

def planTransaction (ledger : Ledger) (graph : List (Text × List Text)) (fuel : Nat) (planning : Planning)
    (tx : TransactionPlanDto) : Except Failure Planning :=
  (assign ledger fuel planning tx).map (record graph planning tx)

/-- The accounts whose sequences can be fetched, in the order of the groups. -/
def fetchSequences (ledger : Ledger) (transactions : List TransactionPlanDto) : List AccountSequenceInfo :=
  (transactions.map (·.sourceAccount)).eraseDups.filterMap fun account =>
    (ledger.sequence account).map fun n => ⟨account, intText n, intText (n + 1), []⟩

def gapConflict (planned : List PlannedTransaction) (account : Text) (expectedSeq : Double) (actualSeq : Number) :
    SequenceConflict :=
  { type := .gap
    severity := .error
    message := text "Gap detected: expected sequence " ++ doubleText expectedSeq ++ text ", found " ++ numberText actualSeq
    transactions := (planned.filter fun t => t.sourceAccount = account ∧ t.assignedSequence = actualSeq).map (·.id)
    accounts := [account] }

/-- `a + b` -/
def add (a b : Double) : Double := sub a (sub (ofInt 0) b)

def detectGaps (ledger : Ledger) (planned : List PlannedTransaction) (account : Text) (sequences : List Number) :
    List SequenceConflict :=
  match ledger.sequence account with
  | none => []
  | some current =>
      let sortedSeqs := sequences.insertionSort (fun a b => atLeast b a = true)
      let expectedNext := add (some (ofBigInt current)) (ofInt 1)
      sortedSeqs.zipIdx.filterMap fun (actualSeq, i) =>
        let expectedSeq := add expectedNext (ofInt i)
        if some actualSeq = expectedSeq then none else some (gapConflict planned account expectedSeq actualSeq)

structure Summary where
  total : Nat
  valid : Nat
  conflicts : Nat
  warnings : Nat

structure SequencePlan where
  plannedTransactions : List PlannedTransaction
  conflicts : List SequenceConflict
  accountSequences : List AccountSequenceInfo
  summary : Summary

def planSequences (ledger : Ledger) (fuel : Nat) (transactions : List TransactionPlanDto) : Except Failure SequencePlan :=
  (transactions.foldlM (planTransaction ledger (buildDependencyGraph transactions) fuel)
    { accountSequences := fetchSequences ledger transactions }).map fun planning =>
    let planned := planning.plannedTransactions
    { plannedTransactions := planned
      conflicts := planning.conflicts ++
        planning.usedSequences.flatMap fun (account, sequences) => detectGaps ledger planned account sequences
      accountSequences := planning.accountSequences
      summary :=
        { total := planned.length
          valid := planned.countP fun t => t.status = .valid
          conflicts := planned.countP fun t => t.status = .conflict
          warnings := planned.countP fun t => t.status = .warning } }

end Savitools.SequencePlanner.Planner

namespace Savitools.SequencePlanner.AssignedSequences

open Strings.CodeUnits Json.Numbers Json.Wholes Searches.Upward Transitions.Folds Common.Exceptions Planner

variable {ledger : Ledger} {graph : List (Text × List Text)} {fuel : Nat}

theorem planTransaction_ok {planning planning' : Planning} {tx : TransactionPlanDto} :
    planTransaction ledger graph fuel planning tx = .ok planning' ↔
      ∃ assignment, assign ledger fuel planning tx = .ok assignment ∧ record graph planning tx assignment = planning' :=
  map_eq_ok_iff

theorem lookup_map_set (used : UsedSequences) (account b : Text) (f : List Number → List Number) :
    (used.map fun (a, set) => (a, if a = account then f set else set)).lookup b =
      (used.lookup b).map fun set => if b = account then f set else set := by
  induction used with
  | nil => rfl
  | cons entry used ih =>
      obtain ⟨a, set⟩ := entry
      rw [List.map_cons, List.lookup_cons, List.lookup_cons, ih]
      by_cases hb : b = a
      · rw [hb]
        simp
      · simp [beq_false_of_ne hb]

theorem lookup_append_new {used : UsedSequences} {account : Text} {set : List Number} (hnone : used.lookup account = none)
    (b : Text) : (used ++ [(account, set)]).lookup b = if b = account then some set else used.lookup b := by
  induction used with
  | nil =>
      rw [List.nil_append, List.lookup_cons]
      by_cases hb : b = account
      · rw [hb, beq_self_eq_true, if_pos rfl]
      · rw [beq_false_of_ne hb, if_neg hb]
  | cons entry used ih =>
      obtain ⟨a, other⟩ := entry
      rw [List.lookup_cons] at hnone
      rw [List.cons_append, List.lookup_cons, List.lookup_cons]
      by_cases ha : account = a
      · rw [ha, beq_self_eq_true] at hnone
        cases hnone
      · rw [beq_false_of_ne ha] at hnone
        rw [ih hnone]
        by_cases hb : b = a
        · simp only [hb, beq_self_eq_true, if_neg (Ne.symm ha)]
        · rw [beq_false_of_ne hb]

/-- A number joins the set of its account and no other. -/
theorem usedBy_addUsed (used : UsedSequences) (account b : Text) (n : Number) :
    usedBy (addUsed used account n) b = if b = account then addNumber n (usedBy used account) else usedBy used b := by
  rw [addUsed]
  by_cases hsome : (used.lookup account).isSome
  · rw [if_pos hsome, usedBy, lookup_map_set]
    obtain ⟨set, hset⟩ := Option.isSome_iff_exists.mp hsome
    by_cases hb : b = account
    · rw [if_pos hb, usedBy, hb, hset]
      simp
    · simp only [if_neg hb, Option.map_id', usedBy]
  · have hnone : used.lookup account = none := Option.not_isSome_iff_eq_none.mp hsome
    rw [if_neg hsome, usedBy, lookup_append_new hnone]
    by_cases hb : b = account
    · rw [if_pos hb, if_pos hb, usedBy, hnone]
      rfl
    · rw [if_neg hb, if_neg hb, usedBy]

def transactionsOf (account : Text) (transactions : List TransactionPlanDto) : List TransactionPlanDto :=
  transactions.filter fun tx => tx.sourceAccount = account

theorem transactionsOf_cons (account : Text) (tx : TransactionPlanDto) (rest : List TransactionPlanDto) :
    transactionsOf account (tx :: rest) =
      (if tx.sourceAccount = account then [tx] else []) ++ transactionsOf account rest := by
  by_cases hown : tx.sourceAccount = account
  · simp only [transactionsOf, hown, decide_true, List.filter_cons_of_pos, if_true, List.singleton_append]
  · simp only [transactionsOf, hown, decide_false, Bool.false_eq_true, not_false_eq_true, List.filter_cons_of_neg, if_false,
      List.nil_append]

theorem transactionsOf_append (account : Text) (before rest : List TransactionPlanDto) :
    transactionsOf account (before ++ rest) = transactionsOf account before ++ transactionsOf account rest :=
  List.filter_append before rest

def assignedTo (account : Text) (planned : List PlannedTransaction) : List Number :=
  (planned.filter fun t => t.sourceAccount = account).map (·.assignedSequence)

theorem assignedTo_record (planning : Planning) (tx : TransactionPlanDto) (assignment : Assignment) (account : Text) :
    assignedTo account (record graph planning tx assignment).plannedTransactions =
      assignedTo account planning.plannedTransactions ++
        if tx.sourceAccount = account then [assignment.assignedSequence] else [] := by
  rw [assignedTo, record, List.filter_append, List.map_append, assignedTo]
  by_cases haccount : tx.sourceAccount = account
  · simp only [haccount, decide_true, List.filter_cons_of_pos, List.filter_nil, List.map_cons, List.map_nil, if_true]
  · simp only [haccount, decide_false, Bool.false_eq_true, not_false_eq_true, List.filter_cons_of_neg, List.filter_nil,
      List.map_nil, if_false]

theorem usedBy_record (planning : Planning) (tx : TransactionPlanDto) (assignment : Assignment) (account : Text) :
    usedBy (record graph planning tx assignment).usedSequences account =
      if assignment.counts ∧ account = tx.sourceAccount then
        addNumber assignment.assignedSequence (usedBy planning.usedSequences tx.sourceAccount)
      else usedBy planning.usedSequences account := by
  rw [record]
  cases assignment.counts with
  | false => simp
  | true => simp [usedBy_addUsed]

theorem length_addNumber (n : Number) (set : List Number) : (addNumber n set).length ≤ set.length + 1 := by
  rw [addNumber]
  split
  · exact Nat.le_succ _
  · rw [List.length_append, List.length_singleton]

def free (used : List Number) (n : Int) : Bool := decide (ofBigInt n ∉ used)

/-- From a 64-bit number on, the search in a set as small as an array comes to an end: among
the doubles that follow 2^64 there are enough. -/
theorem search_ends {used : List Number} {n : Int} (hused : used.length < 2 ^ 32) (hlow : 0 ≤ n) (hhigh : n ≤ 2 ^ 63)
    (hfuel : 2 ^ 65 ≤ fuel) : ∃ m, search (free used) fuel n = some m := by
  have hinjective : Function.Injective fun j : Nat => Number.ofInt (((2 ^ 52 + j) * 2 ^ 12 : Nat) : Int) := by
    intro i j heq
    have hnum : (((2 ^ 52 + i) * 2 ^ 12 : Nat) : Int) = (((2 ^ 52 + j) * 2 ^ 12 : Nat) : Int) :=
      congrArg Rat.num (Number.finite.inj heq)
    omega
  obtain ⟨j, hj, hfree⟩ := exists_not_mem hinjective used
  have hexact : ofBigInt (((2 ^ 52 + j) * 2 ^ 12 : Nat) : Int) = _ := exact_of_normal (by omega) (by omega) le_rfl
  refine @search_isSome _ _ _ (((2 ^ 52 + j) * 2 ^ 12 : Nat) : Int) ?_ (by omega) (by omega)
  rw [free, hexact]
  exact decide_eq_true hfree

/-- The numbers that follow `s`, as doubles. -/
def following (s : Int) (k : Nat) : List Number := (List.range k).map fun i : Nat => .ofInt (s + 1 + i)

theorem following_succ (s : Int) (k : Nat) : following s (k + 1) = following s k ++ [.ofInt (s + 1 + k)] := by
  rw [following, List.range_succ, List.map_append, following]
  rfl

theorem mem_following {s n : Int} {k : Nat} : Number.ofInt n ∈ following s k ↔ s < n ∧ n ≤ s + k := by
  rw [following, List.mem_map]
  constructor
  · rintro ⟨i, hi, heq⟩
    have hnum : s + 1 + i = n := congrArg Rat.num (Number.finite.inj heq)
    have hlt := List.mem_range.mp hi
    omega
  · rintro ⟨hlow, hhigh⟩
    refine ⟨(n - s - 1).toNat, List.mem_range.mpr (by omega), congrArg Number.ofInt (by omega)⟩

theorem search_following {s : Int} {k : Nat} (hexact : ∀ i : Nat, i ≤ k → Exact (s + 1 + i)) (hfuel : k < fuel) :
    search (free (following s k)) fuel (s + 1) = some (s + 1 + k) := by
  refine search_eq_some ?_ (by omega) (fun n hlow hhigh => ?_) (by omega)
  · rw [free, (hexact k le_rfl : ofBigInt _ = _), decide_eq_true_iff, mem_following]
    omega
  · obtain ⟨i, rfl⟩ : ∃ i : Nat, n = s + 1 + i := ⟨(n - s - 1).toNat, by omega⟩
    rw [free, (hexact i (by omega) : ofBigInt _ = _), decide_eq_false_iff_not, not_not, mem_following]
    omega

/-- The explicit sequences of accounts that can be fetched are whole numbers. -/
def Whole (ledger : Ledger) (transactions : List TransactionPlanDto) : Prop :=
  ∀ tx ∈ transactions, ∀ given, tx.sequenceNumber = some given → (ledger.sequence tx.sourceAccount).isSome →
    (toBigInt given).isSome

theorem assign_given {planning : Planning} {tx : TransactionPlanDto} {given : Number} (hgiven : tx.sequenceNumber = some given) :
    (∃ assignment, assign ledger fuel planning tx = .ok assignment) ↔
      ((ledger.sequence tx.sourceAccount).isSome → (toBigInt given).isSome) := by
  simp only [assign, hgiven, validateGiven]
  cases ledger.sequence tx.sourceAccount with
  | none => simp
  | some current =>
      cases toBigInt given with
      | none => simp
      | some n => simp

theorem assign_auto {planning : Planning} {tx : TransactionPlanDto} (hnone : tx.sequenceNumber = none) {s : Int}
    (hs : ledger.sequence tx.sourceAccount = some s) :
    assign ledger fuel planning tx =
      match search (free (usedBy planning.usedSequences tx.sourceAccount)) fuel (s + 1) with
      | none => .error .endless
      | some n => .ok ⟨ofBigInt n, .valid, [], [], true⟩ := by
  simp only [assign, hnone, autoAssign, hs]
  rfl

/-- A transaction of a small plan gets an assignment unless it has a fraction for a sequence. -/
theorem assign_ends {planning : Planning} {tx : TransactionPlanDto}
    (hused : (usedBy planning.usedSequences tx.sourceAccount).length < 2 ^ 32)
    (hwhole : ∀ given, tx.sequenceNumber = some given → (ledger.sequence tx.sourceAccount).isSome → (toBigInt given).isSome)
    (hfuel : 2 ^ 65 ≤ fuel) : ∃ assignment, assign ledger fuel planning tx = .ok assignment := by
  cases hgiven : tx.sequenceNumber with
  | some given => exact (assign_given hgiven).mpr (hwhole given hgiven)
  | none =>
      cases hs : ledger.sequence tx.sourceAccount with
      | none =>
          rw [assign, hgiven, hs]
          exact ⟨_, rfl⟩
      | some s =>
          have hlow := ledger.nonneg _ _ hs
          have hhigh := ledger.bounded _ _ hs
          obtain ⟨m, hm⟩ := search_ends hused (show 0 ≤ s + 1 by omega) (by omega) hfuel
          rw [assign_auto hgiven hs, hm]
          exact ⟨_, rfl⟩

/-- No transaction of the account has a sequence of its own. -/
def Unnumbered (account : Text) (transactions : List TransactionPlanDto) : Prop :=
  ∀ tx ∈ transactions, tx.sourceAccount = account → tx.sequenceNumber = none

instance decidableUnnumbered (account : Text) (transactions : List TransactionPlanDto) :
    Decidable (Unnumbered account transactions) :=
  inferInstanceAs (Decidable (∀ tx ∈ transactions, tx.sourceAccount = account → tx.sequenceNumber = none))

/-- What the planner knows when some transactions are planned. -/
structure Progress (account : Text) (s : Int) (done : List TransactionPlanDto) (planning : Planning) : Prop where
  planned : planning.plannedTransactions.map (·.toTransactionPlanDto) = done
  used_le : ∀ a, (usedBy planning.usedSequences a).length ≤ done.length
  used_eq : usedBy planning.usedSequences account = assignedTo account planning.plannedTransactions
  values : ∀ x ∈ assignedTo account planning.plannedTransactions, ∃ n, 0 ≤ n ∧ x = ofBigInt n
  first : ∀ x, (assignedTo account planning.plannedTransactions).head? = some x → x = ofBigInt (s + 1)

theorem planned_record {planning : Planning} {done : List TransactionPlanDto}
    (h : planning.plannedTransactions.map (·.toTransactionPlanDto) = done) (tx : TransactionPlanDto)
    (assignment : Assignment) :
    (record graph planning tx assignment).plannedTransactions.map (·.toTransactionPlanDto) = done ++ [tx] := by
  rw [record, List.map_append, h]
  rfl

theorem used_le_record {planning : Planning} {k : Nat} (h : ∀ a, (usedBy planning.usedSequences a).length ≤ k)
    (tx : TransactionPlanDto) (assignment : Assignment) (a : Text) :
    (usedBy (record graph planning tx assignment).usedSequences a).length ≤ k + 1 := by
  have hlength := length_addNumber assignment.assignedSequence (usedBy planning.usedSequences tx.sourceAccount)
  have hsource := h tx.sourceAccount
  have hown := h a
  rw [usedBy_record]
  split <;> omega

theorem Progress.start (ledger : Ledger) (transactions : List TransactionPlanDto) (account : Text) (s : Int) :
    Progress account s [] { accountSequences := fetchSequences ledger transactions } :=
  ⟨rfl, fun _ => le_rfl, rfl, nofun, nofun⟩

theorem Progress.other {account : Text} {s : Int} {done : List TransactionPlanDto} {planning : Planning}
    (h : Progress account s done planning) {tx : TransactionPlanDto} (hother : tx.sourceAccount ≠ account)
    (assignment : Assignment) : Progress account s (done ++ [tx]) (record graph planning tx assignment) := by
  have hassigned := @assignedTo_record graph planning tx assignment account
  rw [if_neg hother, List.append_nil] at hassigned
  refine ⟨planned_record h.planned tx assignment, fun a => ?_, ?_, hassigned ▸ h.values, hassigned ▸ h.first⟩
  · rw [List.length_append, List.length_singleton]
    exact used_le_record h.used_le tx assignment a
  · rw [hassigned, usedBy_record, if_neg (fun hcounts => hother hcounts.2.symm), h.used_eq]

/-- The account's next transaction gets a number that none before it has. -/
theorem Progress.own {account : Text} {s n : Int} {done : List TransactionPlanDto} {planning : Planning}
    (h : Progress account s done planning) {tx : TransactionPlanDto} (hown : tx.sourceAccount = account) (hs : 0 ≤ s)
    (hsearch : search (free (usedBy planning.usedSequences account)) fuel (s + 1) = some n) :
    Progress account s (done ++ [tx]) (record graph planning tx ⟨ofBigInt n, .valid, [], [], true⟩) := by
  obtain ⟨hle, hfree, hbelow⟩ := search_spec hsearch
  have hassigned : assignedTo account (record graph planning tx ⟨ofBigInt n, .valid, [], [], true⟩).plannedTransactions =
      assignedTo account planning.plannedTransactions ++ [ofBigInt n] := by
    rw [assignedTo_record, if_pos hown]
  have hnew : ofBigInt n ∉ usedBy planning.usedSequences account := of_decide_eq_true hfree
  refine ⟨planned_record h.planned tx _, fun a => ?_, ?_, fun x hx => ?_, fun x hx => ?_⟩
  · rw [List.length_append, List.length_singleton]
    exact used_le_record h.used_le tx _ a
  · rw [hassigned, usedBy_record, if_pos ⟨rfl, hown.symm⟩, hown, addNumber, if_neg hnew, h.used_eq]
  · rw [hassigned] at hx
    rcases List.mem_append.mp hx with hold | hlast
    · exact h.values x hold
    · exact ⟨n, by omega, List.mem_singleton.mp hlast⟩
  · rw [hassigned] at hx
    cases hold : assignedTo account planning.plannedTransactions with
    | nil =>
        rw [hold, List.nil_append, List.head?_cons] at hx
        rw [h.used_eq, hold] at hsearch
        have hnext : search (free []) fuel (s + 1) = some (s + 1) := by
          cases fuel with
          | zero => cases hsearch
          | succ fuel => exact if_pos (decide_eq_true List.not_mem_nil)
        cases hsearch.symm.trans hnext
        exact (Option.some.inj hx).symm
    | cons y rest =>
        rw [hold, List.cons_append, List.head?_cons] at hx
        exact h.first x (by rw [hold, List.head?_cons, hx])

theorem Progress.step {account : Text} {s : Int} (hs : ledger.sequence account = some s)
    {done : List TransactionPlanDto} {planning planning' : Planning} (h : Progress account s done planning)
    {tx : TransactionPlanDto} (hnone : tx.sourceAccount = account → tx.sequenceNumber = none)
    (hstep : planTransaction ledger graph fuel planning tx = .ok planning') :
    Progress account s (done ++ [tx]) planning' := by
  obtain ⟨assignment, hassign, rfl⟩ := planTransaction_ok.mp hstep
  by_cases hown : tx.sourceAccount = account
  · rw [assign_auto (hnone hown) (hown ▸ hs), hown] at hassign
    cases hsearch : search (free (usedBy planning.usedSequences account)) fuel (s + 1) with
    | none =>
        rw [hsearch] at hassign
        cases hassign
    | some n =>
        rw [hsearch] at hassign
        rw [← Except.ok.inj hassign]
        exact h.own hown (ledger.nonneg _ _ hs) hsearch
  · exact h.other hown assignment

/-- The planner gives the account's transactions the numbers after `s`, in their order. -/
def AssignsNext (ledger : Ledger) (transactions : List TransactionPlanDto) (account : Text) (s : Int) : Prop :=
  ∃ fuel plan, planSequences ledger fuel transactions = .ok plan ∧
    plan.plannedTransactions.map (·.toTransactionPlanDto) = transactions ∧
    assignedTo account plan.plannedTransactions = following s (transactionsOf account transactions).length

section Runs

variable {transactions : List TransactionPlanDto} {account : Text} {s : Int} (hs : ledger.sequence account = some s)
  (hnone : Unnumbered account transactions)

include hs hnone

theorem progress_of_ok {plan : SequencePlan} (hplan : planSequences ledger fuel transactions = .ok plan) :
    ∃ planning, Progress account s transactions planning ∧ plan.plannedTransactions = planning.plannedTransactions ∧
      transactions.foldlM (planTransaction ledger (buildDependencyGraph transactions) fuel)
        { accountSequences := fetchSequences ledger transactions } = .ok planning := by
  obtain ⟨planning, hfold, rfl⟩ := map_eq_ok_iff.mp hplan
  refine ⟨planning, ?_, rfl, hfold⟩
  refine @foldlM_keeps _ _ _ _ _ _ (Progress account s) [] transactions ?_ (Progress.start ledger transactions account s) hfold
  intro before tx rest planning planning' hlist hprogress hstep
  have htx : tx ∈ transactions := by
    rw [← List.nil_append transactions, hlist]
    exact List.mem_append_right before List.mem_cons_self
  exact hprogress.step hs (hnone tx htx) hstep

theorem assigns_of_exact (hexact : ∀ i < (transactionsOf account transactions).length, Exact (s + 1 + (i : Nat)))
    (hwhole : Whole ledger transactions) (hlength : transactions.length < 2 ^ 32) :
    AssignsNext ledger transactions account s := by
  have hreach : ∃ planning, transactions.foldlM (planTransaction ledger (buildDependencyGraph transactions) (2 ^ 65))
      { accountSequences := fetchSequences ledger transactions } = .ok planning ∧
      (Progress account s transactions planning ∧ assignedTo account planning.plannedTransactions =
        following s (transactionsOf account transactions).length) := by
    refine @foldlM_reaches _ _ _ _ _ (fun done planning => Progress account s done planning ∧
      assignedTo account planning.plannedTransactions = following s (transactionsOf account done).length) [] transactions ?_
      ⟨Progress.start ledger transactions account s, rfl⟩
    rintro before tx rest planning hlist ⟨hprogress, hassigned⟩
    rw [List.nil_append] at hlist
    have htx : tx ∈ transactions := hlist ▸ List.mem_append_right before List.mem_cons_self
    have hshort : (usedBy planning.usedSequences tx.sourceAccount).length < 2 ^ 32 := by
      have hused := hprogress.used_le tx.sourceAccount
      rw [hlist, List.length_append, List.length_cons] at hlength
      omega
    obtain ⟨assignment, hassign⟩ := assign_ends hshort (hwhole tx htx) le_rfl
    have hstep : planTransaction ledger (buildDependencyGraph transactions) (2 ^ 65) planning tx =
        .ok (record (buildDependencyGraph transactions) planning tx assignment) :=
      planTransaction_ok.mpr ⟨assignment, hassign, rfl⟩
    refine ⟨_, hstep, hprogress.step hs (hnone tx htx) hstep, ?_⟩
    rw [assignedTo_record, hassigned, transactionsOf_append, transactionsOf_cons]
    by_cases hown : tx.sourceAccount = account
    · have hcount : (transactionsOf account before).length < (transactionsOf account transactions).length := by
        rw [hlist, transactionsOf_append, transactionsOf_cons, if_pos hown, List.length_append, List.length_append,
          List.length_singleton]
        omega
      have hfew : (transactionsOf account transactions).length ≤ transactions.length := List.length_filter_le _ _
      have hsearch := @search_following (2 ^ 65) s (transactionsOf account before).length
        (fun i hi => hexact i (hi.trans_lt hcount)) (by omega)
      rw [assign_auto (hnone tx htx hown) (hown ▸ hs), hown, hprogress.used_eq, hassigned, hsearch] at hassign
      have hnext : ofBigInt (s + 1 + (transactionsOf account before).length) = _ := hexact _ hcount
      rw [← Except.ok.inj hassign, hnext, if_pos hown, if_pos hown, List.length_append, ← following_succ]
      rfl
    · rw [if_neg hown, if_neg hown, List.append_nil]
      exact congrArg (following s) (congrArg List.length (List.append_nil _).symm)
  obtain ⟨planning, hfold, hprogress, hassigned⟩ := hreach
  exact ⟨2 ^ 65, _, map_eq_ok_iff.mpr ⟨planning, hfold, rfl⟩, hprogress.planned, hassigned⟩

theorem exact_of_assigns (hassigns : AssignsNext ledger transactions account s) :
    (∀ i < (transactionsOf account transactions).length, Exact (s + 1 + (i : Nat))) ∧ Whole ledger transactions := by
  obtain ⟨fuel, plan, hplan, -, hassigned⟩ := hassigns
  obtain ⟨planning, hprogress, hplanned, hfold⟩ := progress_of_ok hs hnone hplan
  rw [hplanned] at hassigned
  refine ⟨fun i hi => ?_, fun tx htx given hgiven => ?_⟩
  · have hlow := ledger.nonneg _ _ hs
    by_cases hone : (transactionsOf account transactions).length = 1
    · have hzero : i = 0 := by omega
      have hfirst := hprogress.first (.ofInt (s + 1 + (0 : Nat))) (by rw [hassigned, hone]; rfl)
      rw [hzero, Exact, hfirst]
      exact congrArg ofBigInt (by omega)
    · have hvalue : ∀ n, s < n → n ≤ s + (transactionsOf account transactions).length → n ≤ 2 ^ 53 ∨ 2 ∣ n := by
        intro n hn hle
        obtain ⟨m, hm, heq⟩ := hprogress.values (.ofInt n) (hassigned ▸ mem_following.mpr ⟨hn, hle⟩)
        exact even_of_ofBigInt hm heq.symm
      have hlast := hvalue (s + (transactionsOf account transactions).length) (by omega) le_rfl
      have hprevious := hvalue (s + (transactionsOf account transactions).length - 1) (by omega) (by omega)
      exact exact_of_le (by omega) (by omega)
  · obtain ⟨before, after, hstep⟩ := foldlM_step hfold htx
    obtain ⟨assignment, hassign, -⟩ := planTransaction_ok.mp hstep
    exact (assign_given hgiven).mp ⟨assignment, hassign⟩

end Runs

/-- The transactions of a request; no array has more. -/
structure TransactionArray where
  transactions : List TransactionPlanDto
  length_lt : transactions.length < 2 ^ 32

/-- The numbers are assigned where all of them are doubles, and no other account's explicit
sequence stops the planner. -/
theorem assignsNext_iff (ledger : Ledger) (plan : TransactionArray) (account : Text) (s : Int)
    (hs : ledger.sequence account = some s) (hnone : Unnumbered account plan.transactions) :
    AssignsNext ledger plan.transactions account s ↔
      (∀ i < (transactionsOf account plan.transactions).length, Exact (s + 1 + (i : Nat))) ∧
        Whole ledger plan.transactions :=
  ⟨exact_of_assigns hs hnone, fun ⟨hexact, hwhole⟩ => assigns_of_exact hs hnone hexact hwhole plan.length_lt⟩

def unnumbered (id account : Text) : TransactionPlanDto := ⟨id, account, none, none, none⟩

/-- An account created in ledger 50000000, whose sequence is that ledger's number shifted. -/
def shiftedLedger : Ledger where
  sequence _ := some (50000000 * 2 ^ 32)
  nonneg := by
    rintro _ _ ⟨⟩
    decide
  bounded := by
    rintro _ _ ⟨⟩
    decide

def samplePlan : TransactionArray := ⟨[unnumbered (text "setup") (text "GA"), unnumbered (text "payment") (text "GA")], by decide⟩

theorem shiftedLedger_assigns :
    (shiftedLedger.sequence (text "GA") = some (50000000 * 2 ^ 32) ∧ Unnumbered (text "GA") samplePlan.transactions) ∧
    (AssignsNext shiftedLedger samplePlan.transactions (text "GA") (50000000 * 2 ^ 32) ↔
      (∀ i < (transactionsOf (text "GA") samplePlan.transactions).length, Exact (50000000 * 2 ^ 32 + 1 + (i : Nat))) ∧
        Whole shiftedLedger samplePlan.transactions) :=
  ⟨⟨rfl, by decide⟩, assignsNext_iff _ samplePlan _ _ rfl (by decide)⟩

/-- The number after the first sequence of that account is no double. -/
theorem not_assignsNext : ¬∀ (ledger : Ledger) (plan : TransactionArray) (account : Text) (s : Int),
    ledger.sequence account = some s → Unnumbered account plan.transactions →
    s + (transactionsOf account plan.transactions).length < 2 ^ 63 → AssignsNext ledger plan.transactions account s := by
  intro hassigns
  have hnone : Unnumbered (text "GA") samplePlan.transactions := by decide
  have hsample := hassigns shiftedLedger samplePlan (text "GA") (50000000 * 2 ^ 32) rfl hnone (by decide)
  have hexact := (exact_of_assigns rfl hnone hsample).1 0 (by decide)
  have heven := even_of_ofBigInt (by decide) hexact
  exact absurd heven (by decide)

end Savitools.SequencePlanner.AssignedSequences
