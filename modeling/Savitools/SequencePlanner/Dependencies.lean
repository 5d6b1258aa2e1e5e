import Savitools.SequencePlanner.Planner

namespace Savitools.SequencePlanner.Dependencies

open Strings.CodeUnits Json.Numbers Json.Wholes Searches.Upward Transitions.Folds Common.Exceptions Planner
  AssignedSequences

def isDependencyIssue (issue : Text) : Bool := (text "Dependency '").isPrefixOf issue

/-- A dependency of the same account has no lower sequence than the transaction. -/
def Violates (plan : List PlannedTransaction) (own : PlannedTransaction) : Prop :=
  ∃ dep ∈ plan, dep.id ∈ own.dependencies.getD [] ∧ dep.sourceAccount = own.sourceAccount ∧
    atLeast dep.assignedSequence own.assignedSequence = true

def Reported (own : PlannedTransaction) : Prop := own.issues.any isDependencyIssue = true ∧ own.status ≠ .valid

/-- The transactions planned before have no such identifier. -/
def Unlisted (before : List PlannedTransaction) (depId : Text) : Prop := ∀ t ∈ before, t.id ≠ depId

/-- The sequence was planned before for the account. -/
def Taken (ledger : Ledger) (before : List PlannedTransaction) (account : Text) (n : Number) : Prop :=
  ∃ t ∈ before, t.sourceAccount = account ∧ t.assignedSequence = n ∧
    (t.sequenceNumber.isSome ∨ (ledger.sequence account).isSome)

/-- Nothing but its own status, and a dependency not listed before it, tells on a transaction without
a sequence of its own; with one, it is told on by the numbers of the dependencies before it. -/
def Caught (ledger : Ledger) (transactions : List TransactionPlanDto) (before : List PlannedTransaction)
    (own : PlannedTransaction) : Prop :=
  let dependencies := dependenciesOf (buildDependencyGraph transactions) own.id
  match own.sequenceNumber with
  | some given =>
      ((∃ current n, ledger.sequence own.sourceAccount = some current ∧ toBigInt given = some n ∧ n ≤ current) ∨
        Taken ledger before own.sourceAccount given) ∧
      ∃ depId ∈ dependencies, Unlisted before depId ∨ ∃ dep, before.find? (fun t => t.id = depId) = some dep ∧
        dep.sourceAccount = own.sourceAccount ∧ atLeast dep.assignedSequence given = true
  | none => ledger.sequence own.sourceAccount = none ∧ ∃ depId ∈ dependencies, Unlisted before depId

variable {ledger : Ledger} {graph : List (Text × List Text)} {fuel : Nat}

/-- What tells on a transaction for one of its dependencies. -/
def Tells (tx : TransactionPlanDto) (planned : List PlannedTransaction) (depId : Text) : Prop :=
  Unlisted planned depId ∨ ∃ dep, planned.find? (fun t => t.id = depId) = some dep ∧
    dep.sourceAccount = tx.sourceAccount ∧ ∃ given, tx.sequenceNumber = some given ∧ atLeast dep.assignedSequence given = true

theorem unlisted_iff {planned : List PlannedTransaction} {depId : Text} :
    Unlisted planned depId ↔ planned.find? (fun t => t.id = depId) = none := by
  rw [List.find?_eq_none]
  simp [Unlisted]

theorem isDependencyIssue_append (rest : Text) : isDependencyIssue (text "Dependency '" ++ rest) = true :=
  List.isPrefixOf_iff_prefix.mpr (List.prefix_append _ rest)

/-- A dependency is checked without an issue, or with one that tells. -/
theorem checkDependency_cases (tx : TransactionPlanDto) (planned : List PlannedTransaction) (depId : Text) :
    (checkDependency tx planned depId = [] ∧ ¬Tells tx planned depId) ∨
      (∃ rest, checkDependency tx planned depId = [text "Dependency '" ++ rest]) ∧ Tells tx planned depId := by
  rw [checkDependency, Tells, unlisted_iff]
  cases hfind : planned.find? (fun t => t.id = depId) with
  | none => exact .inr ⟨⟨depId ++ text "' not found in plan", List.append_assoc _ _ _ ▸ rfl⟩, .inl rfl⟩
  | some dep =>
      by_cases haccount : dep.sourceAccount = tx.sourceAccount
      · cases hgiven : tx.sequenceNumber with
        | none => exact .inl ⟨by simp [haccount], by simp⟩
        | some given =>
            by_cases horder : atLeast dep.assignedSequence given = true
            · refine .inr ⟨⟨depId ++ (text "' has sequence " ++ (numberText dep.assignedSequence ++
                (text " >= current transaction sequence " ++ numberText given))), ?_⟩,
                .inr ⟨dep, rfl, haccount, given, rfl, horder⟩⟩
              simp only [haccount, horder, if_true, orderIssue, List.append_assoc]
            · exact .inl ⟨by simp [haccount, horder], by simp [horder]⟩
      · exact .inl ⟨by simp [haccount], by simp [haccount]⟩

theorem any_checkDependencies (tx : TransactionPlanDto) (planned : List PlannedTransaction) :
    (checkDependencies tx graph planned).any isDependencyIssue = true ↔
      ∃ depId ∈ dependenciesOf graph tx.id, Tells tx planned depId := by
  rw [checkDependencies, List.any_flatMap, List.any_eq_true]
  refine exists_congr fun depId => and_congr_right fun _ => ?_
  rcases checkDependency_cases tx planned depId with ⟨hnone, hsilent⟩ | ⟨⟨rest, hissue⟩, htells⟩
  · rw [hnone]
    exact iff_of_false nofun hsilent
  · rw [hissue, List.any_cons, isDependencyIssue_append]
    exact iff_of_true rfl htells

/-- The other issues are not about dependencies, and the status is that of the sequence. -/
theorem assign_facts {planning : Planning} {tx : TransactionPlanDto} {assignment : Assignment}
    (h : assign ledger fuel planning tx = .ok assignment) :
    assignment.issues.any isDependencyIssue = false ∧
    (assignment.counts = true ↔ tx.sequenceNumber.isSome ∨ (ledger.sequence tx.sourceAccount).isSome) ∧
    (assignment.status ≠ .valid ↔
      match tx.sequenceNumber with
      | some given => (∃ current n, ledger.sequence tx.sourceAccount = some current ∧ toBigInt given = some n ∧ n ≤ current) ∨
          given ∈ usedBy planning.usedSequences tx.sourceAccount
      | none => ledger.sequence tx.sourceAccount = none) := by
  have hduplicate (rest : Text) : isDependencyIssue (text "Duplicate sequence number " ++ rest) = false := rfl
  have hused (rest : Text) : isDependencyIssue (text "Sequence " ++ rest) = false := rfl
  have hfetch (rest : Text) : isDependencyIssue (text "Cannot fetch current sequence for " ++ rest) = false := rfl
  cases hgiven : tx.sequenceNumber with
  | none =>
      cases hs : ledger.sequence tx.sourceAccount with
      | none =>
          simp only [assign, hgiven, autoAssign, hs] at h
          cases h
          simp [hfetch]
      | some s =>
          rw [assign_auto hgiven hs] at h
          cases hsearch : search (free (usedBy planning.usedSequences tx.sourceAccount)) fuel (s + 1) with
          | none =>
              rw [hsearch] at h
              cases h
          | some n =>
              rw [hsearch] at h
              rw [← Except.ok.inj h]
              simp
  | some given =>
      simp only [assign, hgiven, validateGiven] at h
      cases hs : ledger.sequence tx.sourceAccount with
      | none =>
          rw [hs] at h
          cases h
          by_cases hmem : given ∈ usedBy planning.usedSequences tx.sourceAccount <;> simp [hmem, hduplicate]
      | some current =>
          rw [hs] at h
          cases hn : toBigInt given with
          | none =>
              rw [hn] at h
              cases h
          | some n =>
              rw [hn] at h
              cases h
              by_cases hmem : given ∈ usedBy planning.usedSequences tx.sourceAccount <;>
                by_cases hle : n ≤ current <;> simp [hn, hmem, hle, hduplicate, hused]

/-- The sets are those of the planned transactions. -/
def Accounted (ledger : Ledger) (planning : Planning) : Prop :=
  ∀ account n, n ∈ usedBy planning.usedSequences account ↔ Taken ledger planning.plannedTransactions account n

theorem mem_addNumber {n m : Number} {set : List Number} : m ∈ addNumber n set ↔ m ∈ set ∨ m = n := by
  rw [addNumber]
  by_cases hn : n ∈ set
  · rw [if_pos hn]
    exact ⟨Or.inl, Or.rec id (fun h => h ▸ hn)⟩
  · rw [if_neg hn, List.mem_append, List.mem_singleton]

/-- The last planned transaction, as it is listed. -/
def entry (graph : List (Text × List Text)) (planning : Planning) (tx : TransactionPlanDto) (assignment : Assignment) :
    PlannedTransaction :=
  { tx with
    assignedSequence := assignment.assignedSequence
    status := assignment.status
    issues := checkDependencies tx graph planning.plannedTransactions ++ assignment.issues }

theorem planned_eq (planning : Planning) (tx : TransactionPlanDto) (assignment : Assignment) :
    (record graph planning tx assignment).plannedTransactions =
      planning.plannedTransactions ++ [entry graph planning tx assignment] := rfl

theorem taken_append {planned : List PlannedTransaction} {t : PlannedTransaction} {account : Text} {n : Number} :
    Taken ledger (planned ++ [t]) account n ↔ Taken ledger planned account n ∨
      (t.sourceAccount = account ∧ t.assignedSequence = n ∧
        (t.sequenceNumber.isSome ∨ (ledger.sequence account).isSome)) := by
  simp only [Taken, List.mem_append, List.mem_singleton, or_and_right, exists_or, exists_eq_left]

theorem Accounted.record {planning : Planning} (h : Accounted ledger planning) {tx : TransactionPlanDto}
    {assignment : Assignment} (hassign : assign ledger fuel planning tx = .ok assignment) :
    Accounted ledger (record graph planning tx assignment) := by
  obtain ⟨-, hcounts, -⟩ := assign_facts hassign
  intro account n
  rw [planned_eq, taken_append, usedBy_record, ← h account n]
  by_cases hown : account = tx.sourceAccount
  · rw [hown]
    by_cases hsome : tx.sequenceNumber.isSome ∨ (ledger.sequence tx.sourceAccount).isSome
    · rw [if_pos ⟨hcounts.mpr hsome, rfl⟩, mem_addNumber]
      exact or_congr_right ⟨fun hn => ⟨rfl, hn.symm, hsome⟩, fun hn => hn.2.1.symm⟩
    · rw [if_neg (fun hboth => hsome (hcounts.mp hboth.1))]
      exact ⟨Or.inl, Or.rec id (fun hn => absurd hn.2.2 hsome)⟩
  · rw [if_neg (fun hboth => hown hboth.2)]
    exact ⟨Or.inl, Or.rec id (fun hn => absurd hn.1.symm hown)⟩

/-- Each planned transaction is an entry that was made in the state of those before it. -/
structure Entered (ledger : Ledger) (graph : List (Text × List Text)) (fuel : Nat) (planning : Planning) : Prop where
  accounted : Accounted ledger planning
  entries : ∀ (i : Nat) own, planning.plannedTransactions[i]? = some own → ∃ previous tx assignment,
    Accounted ledger previous ∧ previous.plannedTransactions = planning.plannedTransactions.take i ∧
      assign ledger fuel previous tx = .ok assignment ∧ own = entry graph previous tx assignment

theorem Entered.step {planning planning' : Planning} (h : Entered ledger graph fuel planning) {tx : TransactionPlanDto}
    (hstep : planTransaction ledger graph fuel planning tx = .ok planning') : Entered ledger graph fuel planning' := by
  obtain ⟨assignment, hassign, rfl⟩ := planTransaction_ok.mp hstep
  refine ⟨h.accounted.record hassign, fun i own hown => ?_⟩
  rw [planned_eq] at hown ⊢
  rcases Nat.lt_trichotomy i planning.plannedTransactions.length with hlt | heq | hgt
  · rw [List.getElem?_append_left hlt] at hown
    rw [List.take_append_of_le_length hlt.le]
    exact h.entries i own hown
  · rw [heq, List.getElem?_concat_length] at hown
    rw [heq, List.take_left]
    exact ⟨planning, tx, assignment, h.accounted, rfl, hassign, (Option.some.inj hown).symm⟩
  · rw [List.getElem?_eq_none (by rw [List.length_append, List.length_singleton]; omega)] at hown
    cases hown

theorem reported_entry_iff {transactions : List TransactionPlanDto} {previous : Planning} {tx : TransactionPlanDto}
    {assignment : Assignment} (haccounted : Accounted ledger previous)
    (hassign : assign ledger fuel previous tx = .ok assignment) :
    Reported (entry (buildDependencyGraph transactions) previous tx assignment) ↔
      Caught ledger transactions previous.plannedTransactions (entry (buildDependencyGraph transactions) previous tx assignment) := by
  obtain ⟨hissues, -, hstatus⟩ := assign_facts hassign
  have hany : (entry (buildDependencyGraph transactions) previous tx assignment).issues.any isDependencyIssue = true ↔
      ∃ depId ∈ dependenciesOf (buildDependencyGraph transactions) tx.id, Tells tx previous.plannedTransactions depId := by
    rw [entry, List.any_append, hissues, Bool.or_false, any_checkDependencies]
  rw [Reported, hany, and_comm]
  refine Iff.trans (and_congr_left' hstatus) ?_
  simp only [Caught, entry, Tells, haccounted tx.sourceAccount _]
  cases tx.sequenceNumber with
  | none => simp
  | some given => simp

/-- Every violating transaction of a plan has a dependency issue and another status than `valid`. -/
def DependenciesSound (plan : SequencePlan) : Prop :=
  ∀ own ∈ plan.plannedTransactions, Violates plan.plannedTransactions own → Reported own

/-- A plan is sound where each violating transaction is caught in the state it is planned in. -/
theorem dependenciesSound_iff (ledger : Ledger) (fuel : Nat) (transactions : List TransactionPlanDto) (plan : SequencePlan)
    (hplan : planSequences ledger fuel transactions = .ok plan) :
    DependenciesSound plan ↔ ∀ (i : Nat) own, plan.plannedTransactions[i]? = some own →
      Violates plan.plannedTransactions own → Caught ledger transactions (plan.plannedTransactions.take i) own := by
  obtain ⟨planning, hfold, rfl⟩ := map_eq_ok_iff.mp hplan
  have hstart : Entered ledger (buildDependencyGraph transactions) fuel
      { accountSequences := fetchSequences ledger transactions } := by
    refine ⟨fun account n => iff_of_false nofun ?_, nofun⟩
    rintro ⟨t, ht, -⟩
    cases ht
  have hentered : Entered ledger (buildDependencyGraph transactions) fuel planning :=
    @foldlM_keeps _ _ _ _ _ _ (fun _ => Entered ledger (buildDependencyGraph transactions) fuel) [] transactions
      (fun before tx rest planning planning' _ h hstep => h.step hstep) hstart hfold
  have hreported : ∀ (i : Nat) own, planning.plannedTransactions[i]? = some own →
      (Reported own ↔ Caught ledger transactions (planning.plannedTransactions.take i) own) := by
    intro i own hown
    obtain ⟨previous, tx, assignment, haccounted, hprevious, hassign, rfl⟩ := hentered.entries i own hown
    rw [← hprevious]
    exact reported_entry_iff haccounted hassign
  constructor
  · intro hsound i own hown hviolates
    exact (hreported i own hown).mp (hsound own (List.mem_of_getElem? hown) hviolates)
  · intro hcaught own hown hviolates
    obtain ⟨i, hi⟩ := List.mem_iff_getElem?.mp hown
    exact (hreported i own hi).mpr (hcaught i own hi hviolates)

def hundredLedger : Ledger where
  sequence _ := some 100
  nonneg := by
    rintro _ _ ⟨⟩
    decide
  bounded := by
    rintro _ _ ⟨⟩
    decide

/-- A payment that is listed before what it depends on, and has the lower sequence. -/
def forwardPlan : List TransactionPlanDto :=
  [{ unnumbered (text "payment") (text "GA") with
     sequenceNumber := some (.ofInt 101)
     dependencies := some [text "setup"] },
   { unnumbered (text "setup") (text "GA") with sequenceNumber := some (.ofInt 102) }]

theorem forwardPlan_sound : ∃ plan, planSequences hundredLedger 0 forwardPlan = .ok plan ∧
    (DependenciesSound plan ↔ ∀ (i : Nat) own, plan.plannedTransactions[i]? = some own →
      Violates plan.plannedTransactions own → Caught hundredLedger forwardPlan (plan.plannedTransactions.take i) own) := by
  obtain ⟨plan, hplan⟩ : ∃ plan, planSequences hundredLedger 0 forwardPlan = .ok plan := ⟨_, rfl⟩
  exact ⟨plan, hplan, dependenciesSound_iff _ _ _ plan hplan⟩

/-- The payment has the sequence 101 and what it depends on 102, and it is valid. -/
theorem not_dependenciesSound : ¬∀ (ledger : Ledger) (fuel : Nat) (transactions : List TransactionPlanDto)
    (plan : SequencePlan), planSequences ledger fuel transactions = .ok plan → DependenciesSound plan := by
  intro hsound
  obtain ⟨plan, hplan, payment, setup, hplanned, hid, haccount, horder, hstatus⟩ :
      ∃ plan, planSequences hundredLedger 0 forwardPlan = .ok plan ∧ ∃ payment setup,
        plan.plannedTransactions = [payment, setup] ∧ setup.id ∈ payment.dependencies.getD [] ∧
        setup.sourceAccount = payment.sourceAccount ∧ atLeast setup.assignedSequence payment.assignedSequence = true ∧
        payment.status = .valid :=
    ⟨_, rfl, _, _, rfl, by decide, rfl, by decide, rfl⟩
  have hreported := hsound _ _ _ plan hplan payment (hplanned ▸ List.mem_cons_self)
    ⟨setup, hplanned ▸ List.mem_cons_of_mem _ List.mem_cons_self, hid, haccount, horder⟩
  exact hreported.2 hstatus

end Savitools.SequencePlanner.Dependencies
