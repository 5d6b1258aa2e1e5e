import Mathlib.Data.List.Nodup
import Savitools.Common.Exceptions
import Savitools.Monitor.StateEvaluation
import Savitools.Paging.Cursors
import Mathlib.Data.List.Dedup

namespace Savitools.Monitor.TransactionCounts

open Strings.CodeUnits Common.Exceptions Paging.Cursors AlertRules AlertEvaluator StateEvaluation

def transactionPageLimit : Nat := 200

def maxScannedTransactions : Nat := 1000

structure TransactionRecord where
  pagingToken : Text
  createdAt : Text

/-- The request of a page of an account's transactions. -/
structure TransactionsRequest where
  forAccount : Text
  includeFailed : Bool
  descending : Bool
  limit : Nat
  cursor : Option Text

/-- A page, with the request of the page behind it. -/
structure TransactionPage where
  records : List TransactionRecord
  next : TransactionsRequest

abbrev Horizon := TransactionsRequest → Except Exception TransactionPage

/-- How many transactions are counted for each window. -/
abbrev Counts := Nat → Option Nat

/-- The windows of the rules that count transactions, each once. -/
def rateWindows (watches : List Watch) : List Nat :=
  (watches.flatMap fun watch =>
    (watch.alertRules.filter fun rule => rule.type = .transactionCount).map windowMinutes).dedup

def firstRequest (publicKey : Text) : TransactionsRequest := ⟨publicKey, true, true, transactionPageLimit, none⟩

def cutoff (observedAt : Int) (window : Nat) : Int := observedAt - window * 60000

def bump (counts : Counts) (window : Nat) : Counts := Function.update counts window ((counts window).map (· + 1))

/-- A transaction counts for every window that it is not too old for. -/
def countRecord (cutoffs : List (Nat × Int)) (createdAt : Int) (counts : Counts) : Counts :=
  cutoffs.foldl (fun counts entry => if entry.2 ≤ createdAt then bump counts entry.1 else counts) counts

/-- No cutoff at all counts as one that nothing reaches. -/
def tooOld (cutoffs : List (Nat × Int)) (createdAt : Int) : Bool :=
  (cutoffs.map Prod.snd).min?.all fun oldestCutoff => createdAt < oldestCutoff

variable (dateParse : Text → Option Int)

/-- The records of a page in turn, until one is too old; the flag says whether one is. -/
def scanRecords (cutoffs : List (Nat × Int)) : List TransactionRecord → Counts → Bool × Counts
  | [], counts => (false, counts)
  | record :: records, counts =>
      match dateParse record.createdAt with
      | none => (true, counts)
      | some createdAt =>
          if tooOld cutoffs createdAt then (true, counts)
          else scanRecords cutoffs records (countRecord cutoffs createdAt counts)

variable (horizon : Horizon)

def scanPages (cutoffs : List (Nat × Int)) (page : TransactionPage) (scanned : Nat) (counts : Counts) :
    Except Exception Counts :=
  if h : page.records ≠ [] ∧ scanned < maxScannedTransactions then
    match scanRecords dateParse cutoffs page.records counts with
    | (true, counts) => .ok counts
    | (false, counts) =>
        match horizon page.next with
        | .error error => .error error
        | .ok next => scanPages cutoffs next (scanned + page.records.length) counts
  else .ok counts
termination_by maxScannedTransactions - scanned
decreasing_by
  have hpage := List.length_pos_of_ne_nil h.1
  omega

def transactionCounts (publicKey : Text) (windows : List Nat) (observedAt : Int) : Except Exception Counts :=
  let counts : Counts := fun window => if window ∈ windows then some 0 else none
  let cutoffs := windows.map fun window => (window, cutoff observedAt window)
  match horizon (firstRequest publicKey) with
  | .error error => .error error
  | .ok page => scanPages dateParse horizon cutoffs page 0 counts

end Savitools.Monitor.TransactionCounts

namespace Savitools.Monitor.RateWindows

open Strings.CodeUnits Common.Exceptions Paging.Cursors StateEvaluation TransactionCounts

section Counting

variable {counts : Counts} {createdAt : Int}

theorem countRecord_of_notMem {entries : List (Nat × Int)} {window : Nat} (h : window ∉ entries.map Prod.fst) :
    countRecord entries createdAt counts window = counts window := by
  induction entries generalizing counts with
  | nil => rfl
  | cons entry entries ih =>
      rw [List.map_cons, List.mem_cons, not_or] at h
      have hrest := @ih (if entry.2 ≤ createdAt then bump counts entry.1 else counts) h.2
      rw [countRecord] at hrest
      rw [countRecord, List.foldl_cons, hrest]
      split
      · exact Function.update_of_ne h.1 _ _
      · rfl

/-- A record counts once for each window that it is not too old for. -/
theorem countRecord_of_mem {entries : List (Nat × Int)} (hnodup : (entries.map Prod.fst).Nodup) {entry : Nat × Int}
    (h : entry ∈ entries) : countRecord entries createdAt counts entry.1 =
      if entry.2 ≤ createdAt then (counts entry.1).map (· + 1) else counts entry.1 := by
  induction entries generalizing counts with
  | nil => cases h
  | cons first entries ih =>
      rw [List.map_cons, List.nodup_cons] at hnodup
      rw [countRecord, List.foldl_cons]
      rcases List.mem_cons.mp h with rfl | hmem
      · have hrest := @countRecord_of_notMem
          (if entry.2 ≤ createdAt then bump counts entry.1 else counts) createdAt entries entry.1 hnodup.1
        rw [countRecord] at hrest
        rw [hrest]
        split
        · exact Function.update_self _ _ _
        · rfl
      · have hrest := @ih (if first.2 ≤ createdAt then bump counts first.1 else counts) hnodup.2 hmem
        have hne : entry.1 ≠ first.1 := fun heq => hnodup.1 (heq ▸ List.mem_map_of_mem hmem)
        have hkept : (if first.2 ≤ createdAt then bump counts first.1 else counts) entry.1 = counts entry.1 := by
          split
          · exact Function.update_of_ne hne _ _
          · rfl
        rw [countRecord, hkept] at hrest
        exact hrest

end Counting

variable {dateParse : Text → Option Int}

/-- The transactions of an account as Horizon serves them, the newest first: each has its own token and a time, and no
time is later than that of one in front. -/
structure AccountHistory (dateParse : Text → Option Int) where
  records : List TransactionRecord
  nodup : (records.map TransactionRecord.pagingToken).Nodup
  timed : ∀ record ∈ records, ∃ ms, dateParse record.createdAt = some ms
  newestFirst : records.Pairwise fun a b =>
    ∀ m n, dateParse a.createdAt = some m → dateParse b.createdAt = some n → n ≤ m

/-- Horizon's pages: what comes behind the cursor, at least one record where there is one, and with a link to what is
behind the last record. -/
structure Serves (history : AccountHistory dateParse) (publicKey : Text) (horizon : Horizon) : Prop where
  page : ∀ cursor, (∀ c, cursor = some c → c ∈ history.records.map TransactionRecord.pagingToken) →
    ∃ page rest, horizon { firstRequest publicKey with cursor := cursor } = .ok page ∧
      after TransactionRecord.pagingToken cursor history.records = page.records ++ rest ∧
      page.records.length ≤ transactionPageLimit ∧ (page.records = [] → rest = []) ∧
      ∀ last, page.records.getLast? = some last →
        page.next = { firstRequest publicKey with cursor := some last.pagingToken }

/-- The transaction was created at the time or after it. -/
def createdSince (dateParse : Text → Option Int) (since : Int) (record : TransactionRecord) : Bool :=
  (dateParse record.createdAt).any fun ms => since ≤ ms

section Windows

variable {windows : List Nat} {observedAt : Int} {largest : Nat}

/-- For each window what it should be for the transactions. -/
def Exact (dateParse : Text → Option Int) (windows : List Nat) (observedAt : Int) (records : List TransactionRecord)
    (counts : Counts) : Prop :=
  ∀ window ∈ windows, counts window = some (records.countP (createdSince dateParse (cutoff observedAt window)))

/-- The oldest cutoff is that of the largest window. -/
theorem tooOld_iff (hlargest : largest ∈ windows) (hmax : ∀ window ∈ windows, window ≤ largest) (createdAt : Int) :
    tooOld (windows.map fun window => (window, cutoff observedAt window)) createdAt = true ↔
      createdAt < cutoff observedAt largest := by
  have hmin : ((windows.map fun window => (window, cutoff observedAt window)).map Prod.snd).min? =
      some (cutoff observedAt largest) := by
    rw [List.min?_eq_some_iff, List.map_map]
    constructor
    · exact List.mem_map_of_mem hlargest
    · intro b hb
      obtain ⟨window, hwindow, rfl⟩ := List.mem_map.mp hb
      have hle := hmax window hwindow
      simp only [Function.comp_apply, cutoff]
      omega
  rw [tooOld, hmin, Option.all_some, decide_eq_true_iff]

theorem exact_append {done : List TransactionRecord} {record : TransactionRecord} {counts : Counts} {createdAt : Int}
    (hnodup : windows.Nodup) (hexact : Exact dateParse windows observedAt done counts)
    (hcreated : dateParse record.createdAt = some createdAt) :
    Exact dateParse windows observedAt (done ++ [record])
      (countRecord (windows.map fun window => (window, cutoff observedAt window)) createdAt counts) := by
  intro window hwindow
  have hkeys : ((windows.map fun window => (window, cutoff observedAt window)).map Prod.fst).Nodup := by
    have hfst : Prod.fst ∘ (fun window => (window, cutoff observedAt window)) = id := rfl
    rwa [List.map_map, hfst, List.map_id]
  have hentry : (window, cutoff observedAt window) ∈ windows.map fun window => (window, cutoff observedAt window) :=
    List.mem_map_of_mem hwindow
  have hsince : createdSince dateParse (cutoff observedAt window) record = decide (cutoff observedAt window ≤ createdAt) := by
    rw [createdSince, hcreated, Option.any_some]
  rw [countRecord_of_mem hkeys hentry, hexact window hwindow, List.countP_append, List.countP_singleton, hsince]
  simp only [decide_eq_true_eq]
  split <;> rfl

theorem length_lt_of_inside {history : AccountHistory dateParse} {done rest : List TransactionRecord} (hsplit : history.records = done ++ rest)
    (hinside : ∀ record ∈ done, createdSince dateParse (cutoff observedAt largest) record = true)
    (hfew : history.records.countP (createdSince dateParse (cutoff observedAt largest)) < maxScannedTransactions) :
    done.length < maxScannedTransactions := by
  rw [hsplit, List.countP_append, List.countP_eq_length.mpr hinside] at hfew
  omega

variable {history : AccountHistory dateParse} (hlargest : largest ∈ windows)
  (hmax : ∀ window ∈ windows, window ≤ largest)

include hmax

/-- Behind a transaction that is too old nothing counts. -/
theorem exact_all {done rest : List TransactionRecord} {record : TransactionRecord} {counts : Counts} {createdAt : Int}
    (hsplit : history.records = done ++ record :: rest) (hexact : Exact dateParse windows observedAt done counts)
    (hcreated : dateParse record.createdAt = some createdAt) (hold : createdAt < cutoff observedAt largest) :
    Exact dateParse windows observedAt history.records counts := by
  intro window hwindow
  have hwindowMax := hmax window hwindow
  have hcutoff : cutoff observedAt largest ≤ cutoff observedAt window := by
    simp only [cutoff]
    omega
  have hnewest := history.newestFirst
  rw [hsplit, List.pairwise_append, List.pairwise_cons] at hnewest
  have hnone : (record :: rest).countP (createdSince dateParse (cutoff observedAt window)) = 0 := by
    rw [List.countP_eq_zero]
    intro other hother hsince
    obtain ⟨ms, hms, hge⟩ := (Option.any_eq_true _ _).mp hsince
    have hge' := of_decide_eq_true hge
    rcases List.mem_cons.mp hother with rfl | hmem
    · cases hcreated.symm.trans hms
      omega
    · have hle := hnewest.2.1.1 other hmem _ _ hcreated hms
      omega
  rw [hexact window hwindow, hsplit, List.countP_append, hnone, Nat.add_zero]

include hlargest

/-- A page is counted whole, or everything is counted when a transaction of it is too old. -/
theorem scanRecords_exact (hnodup : windows.Nodup) {done records rest : List TransactionRecord} {counts : Counts}
    (hsplit : history.records = done ++ (records ++ rest)) (hexact : Exact dateParse windows observedAt done counts) :
    ∃ counts', Exact dateParse windows observedAt history.records counts' ∧
        scanRecords dateParse (windows.map fun window => (window, cutoff observedAt window)) records counts = (true, counts') ∨
      Exact dateParse windows observedAt (done ++ records) counts' ∧
        (∀ record ∈ records, createdSince dateParse (cutoff observedAt largest) record = true) ∧
        scanRecords dateParse (windows.map fun window => (window, cutoff observedAt window)) records counts =
          (false, counts') := by
  induction records generalizing done counts with
  | nil => exact ⟨counts, .inr ⟨by rwa [List.append_nil], nofun, rfl⟩⟩
  | cons record records ih =>
      obtain ⟨createdAt, hcreated⟩ := history.timed record (by rw [hsplit]; simp)
      simp only [scanRecords, hcreated]
      by_cases hold : createdAt < cutoff observedAt largest
      · rw [if_pos ((tooOld_iff hlargest hmax createdAt).mpr hold)]
        exact ⟨counts, .inl ⟨exact_all hmax hsplit hexact hcreated hold, rfl⟩⟩
      · rw [if_neg fun h => hold ((tooOld_iff hlargest hmax createdAt).mp h)]
        have hlist : history.records = (done ++ [record]) ++ (records ++ rest) := by rw [hsplit]; simp
        obtain ⟨counts', hall | ⟨hpage, hinside, hscan⟩⟩ := ih hlist (exact_append hnodup hexact hcreated)
        · exact ⟨counts', .inl hall⟩
        · refine ⟨counts', .inr ⟨by rwa [List.append_cons], List.forall_mem_cons.mpr ⟨?_, hinside⟩, hscan⟩⟩
          rw [createdSince, hcreated, Option.any_some, decide_eq_true_iff]
          exact not_lt.mp hold

/-- Every run of the loop from a page on counts everything, when what is behind it is counted. -/
theorem scanPages_exact {publicKey : Text} {horizon : Horizon} (hserves : Serves history publicKey horizon)
    (hnodup : windows.Nodup)
    (hfew : history.records.countP (createdSince dateParse (cutoff observedAt largest)) < maxScannedTransactions)
    {done rest : List TransactionRecord} {page : TransactionPage} {counts : Counts}
    (hsplit : history.records = done ++ (page.records ++ rest)) (hend : page.records = [] → rest = [])
    (hnext : ∀ last, page.records.getLast? = some last →
      page.next = { firstRequest publicKey with cursor := some last.pagingToken })
    (hinside : ∀ record ∈ done, createdSince dateParse (cutoff observedAt largest) record = true)
    (hexact : Exact dateParse windows observedAt done counts) :
    ∃ counts', scanPages dateParse horizon (windows.map fun window => (window, cutoff observedAt window)) page done.length
        counts = .ok counts' ∧ Exact dateParse windows observedAt history.records counts' := by
  induction hlength : (page.records ++ rest).length using Nat.strong_induction_on generalizing done rest page counts with
  | _ n ih =>
      rw [scanPages]
      by_cases hempty : page.records = []
      · rw [dif_neg fun h => h.1 hempty]
        rw [hempty, hend hempty, List.append_nil, List.append_nil] at hsplit
        exact ⟨counts, rfl, hsplit ▸ hexact⟩
      · rw [dif_pos ⟨hempty, length_lt_of_inside hsplit hinside hfew⟩]
        obtain ⟨counts', ⟨hall, hscan⟩ | ⟨hpage, hinsidePage, hscan⟩⟩ :=
          scanRecords_exact hlargest hmax hnodup hsplit hexact
        · rw [hscan]
          exact ⟨counts', rfl, hall⟩
        · obtain ⟨last, hlast⟩ : ∃ last, page.records.getLast? = some last := ⟨_, List.getLast?_eq_some_getLast hempty⟩
          obtain ⟨front, hfront⟩ := List.getLast?_eq_some_iff.mp hlast
          have hall : history.records = (done ++ front) ++ last :: rest := by
            rw [hsplit, hfront]
            simp
          have hmem : last ∈ history.records := by
            rw [hall]
            simp
          obtain ⟨next, rest', hpage', hafter, -, hend', hnext'⟩ := hserves.page (some last.pagingToken) (by
            rintro c ⟨⟩
            exact List.mem_map_of_mem hmem)
          have htokens := history.nodup
          rw [hall] at hafter htokens
          rw [after_token htokens] at hafter
          have hcontinued : history.records = (done ++ page.records) ++ (next.records ++ rest') := by
            rw [hsplit, hafter, List.append_assoc]
          have hshorter : (next.records ++ rest').length < n := by
            have hpos := List.length_pos_of_ne_nil hempty
            rw [← hafter, ← hlength, List.length_append]
            omega
          have hcounted := ih _ hshorter hcontinued hend' hnext'
            (List.forall_mem_append.mpr ⟨hinside, hinsidePage⟩) hpage rfl
          rw [hscan, hnext last hlast]
          simp only [hpage']
          rwa [List.length_append] at hcounted

omit hlargest hmax

theorem exact_nil : Exact dateParse windows observedAt [] fun window => if window ∈ windows then some 0 else none :=
  fun _ hwindow => if_pos hwindow

end Windows

/-- Where fewer transactions than the cap are in the largest window, the loop ends and counts for every window exactly
the transactions created since its start. -/
theorem transactionCounts_exact (history : AccountHistory dateParse) {publicKey : Text} {horizon : Horizon}
    (hserves : Serves history publicKey horizon) {windows : List Nat} (hnodup : windows.Nodup) (observedAt : Int)
    {largest : Nat} (hlargest : largest ∈ windows) (hmax : ∀ window ∈ windows, window ≤ largest)
    (hfew : history.records.countP (createdSince dateParse (cutoff observedAt largest)) < maxScannedTransactions) :
    ∃ counts, transactionCounts dateParse horizon publicKey windows observedAt = .ok counts ∧
      ∀ window ∈ windows,
        counts window = some (history.records.countP (createdSince dateParse (cutoff observedAt window))) := by
  obtain ⟨page, rest, hpage, hafter, -, hend, hnext⟩ := hserves.page none nofun
  have hfirst : horizon (firstRequest publicKey) = .ok page := hpage
  have hsplit : history.records = [] ++ (page.records ++ rest) := hafter
  have hcounted := scanPages_exact hlargest hmax hserves hnodup hfew hsplit hend hnext nofun exact_nil
  rw [transactionCounts]
  simp only [hfirst]
  exact hcounted

/-- A Horizon that fills every page. -/
def serve (records : List TransactionRecord) : Horizon := fun request =>
  let page := (after TransactionRecord.pagingToken request.cursor records).take request.limit
  .ok ⟨page, { request with cursor := (page.getLast?.map TransactionRecord.pagingToken).or request.cursor }⟩

theorem serves_serve (history : AccountHistory dateParse) (publicKey : Text) :
    Serves history publicKey (serve history.records) := by
  refine ⟨fun cursor _ => ?_⟩
  generalize hafter : after TransactionRecord.pagingToken cursor history.records = remaining
  refine ⟨_, remaining.drop transactionPageLimit, rfl, ?_, ?_, fun hempty => ?_, fun last hlast => ?_⟩
  · simp only [hafter, firstRequest]
    exact (List.take_append_drop _ _).symm
  · simp only [hafter, firstRequest]
    exact List.length_take_le _ _
  · simp only [hafter, firstRequest, List.take_eq_nil_iff] at hempty
    rcases hempty with hlimit | hempty
    · cases hlimit
    · rw [hempty, List.drop_nil]
  · simp only [hafter, firstRequest] at hlast ⊢
    rw [hlast]
    rfl

/-- Three transactions of one morning. -/
def morning : List TransactionRecord :=
  [⟨text "3", text "2026-10-17T10:00:00Z"⟩, ⟨text "2", text "2026-10-17T09:59:00Z"⟩, ⟨text "1", text "2026-10-17T08:00:00Z"⟩]

def parseMorning (t : Text) : Option Int :=
  [(text "2026-10-17T10:00:00Z", 1792231200000), (text "2026-10-17T09:59:00Z", 1792231140000),
    (text "2026-10-17T08:00:00Z", 1792224000000)].lookup t

def morningHistory : AccountHistory parseMorning where
  records := morning
  nodup := by decide
  timed := by
    have htimed : ∀ record ∈ morning, (parseMorning record.createdAt).isSome = true := by decide
    exact fun record hrecord => Option.isSome_iff_exists.mp (htimed record hrecord)
  newestFirst := by
    have horder : morning.Pairwise fun a b => (parseMorning b.createdAt).getD 0 ≤ (parseMorning a.createdAt).getD 0 := by
      decide
    refine horder.imp fun h m n hm hn => ?_
    rwa [hm, hn] at h

theorem transactionCounts_exact_morning : ∃ counts,
    transactionCounts parseMorning (serve morning) (text "GA") [1, 60] 1792231230000 = .ok counts ∧
      ∀ window ∈ [1, 60], counts window =
        some (morning.countP (createdSince parseMorning (cutoff 1792231230000 window))) :=
  transactionCounts_exact morningHistory (serves_serve morningHistory (text "GA")) (by decide) 1792231230000
    (by decide : 60 ∈ [1, 60]) (by decide) (by decide)

end Savitools.Monitor.RateWindows
