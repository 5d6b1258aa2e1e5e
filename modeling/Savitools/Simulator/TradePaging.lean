import Savitools.Paging.Cursors
import Savitools.Simulator.Trades

namespace Savitools.Simulator.TradePaging

open Strings.CodeUnits Paging.Cursors Trades

def token (record : HorizonTrade) : Text := record.pagingToken.getD []

def closesBefore (order : Order) (m n : Int) : Prop :=
  match order with
  | .asc => m ≤ n
  | .desc => n ≤ m

instance (order : Order) (m n : Int) : Decidable (closesBefore order m n) :=
  match order with
  | .asc => inferInstanceAs (Decidable (m ≤ n))
  | .desc => inferInstanceAs (Decidable (n ≤ m))

/-- The trades of a market as Horizon serves them in one order: well-formed records with
unique tokens, and close times that follow the order. -/
structure History (dateParse : Text → Option Int) (order : Order) where
  records : List HorizonTrade
  tokens : ∀ r ∈ records, token r ≠ []
  nodup : (records.map token).Nodup
  priced : ∀ r ∈ records, ∃ row, mapHorizonTrade r = .ok row
  timed : ∀ r ∈ records, ∃ ms, closeMs dateParse r = some ms
  monotone : (records.filterMap (closeMs dateParse)).Pairwise (closesBefore order)

variable {dateParse : Text → Option Int} {query : TradesQuery}

def serve {order : Order} (history : History dateParse order) (limit : Nat) (cursor : Option Text) :
    Except Text (List HorizonTrade) :=
  .ok ((after token cursor history.records).take limit)

def inWindow (dateParse : Text → Option Int) (query : TradesQuery) (record : HorizonTrade) : Bool :=
  (closeMs dateParse record).any (fun ms =>
    query.startTime.all (fun startTime => startTime ≤ ((ms / 1000 : Int) : Rat)) &&
      query.endTime.all (fun endTime => ((ms / 1000 : Int) : Rat) ≤ endTime))

/-- The row of a trade that satisfies the window and the filters. -/
def wanted (dateParse : Text → Option Int) (query : TradesQuery) (record : HorizonTrade) : Option TradeRow :=
  match mapHorizonTrade record with
  | .error _ => none
  | .ok row => if inWindow dateParse query record && passes query row then some row else none

theorem seconds_mono {m n : Int} (h : m ≤ n) : ((m / 1000 : Int) : Rat) ≤ ((n / 1000 : Int) : Rat) :=
  Rat.intCast_le_intCast.mpr (Int.ediv_le_ediv (by decide) h)

def tooEarly (query : TradesQuery) (ms : Int) : Bool :=
  query.startTime.any (fun startTime => ((ms / 1000 : Int) : Rat) < startTime)

def tooLate (query : TradesQuery) (ms : Int) : Bool :=
  query.endTime.any (fun endTime => endTime < ((ms / 1000 : Int) : Rat))

theorem inWindow_eq {r : HorizonTrade} {ms : Int} (hms : closeMs dateParse r = some ms) :
    inWindow dateParse query r = (!tooEarly query ms && !tooLate query ms) := by
  rw [inWindow, hms, Option.any_some, tooEarly, tooLate]
  congr 1
  · cases query.startTime with
    | none => rfl
    | some startTime => rw [Option.all_some, Option.any_some, ← decide_not, decide_eq_decide, Rat.not_lt]
  · cases query.endTime with
    | none => rfl
    | some endTime => rw [Option.all_some, Option.any_some, ← decide_not, decide_eq_decide, Rat.not_lt]

theorem window_eq {r : HorizonTrade} {ms : Int} (hms : closeMs dateParse r = some ms) :
    window dateParse query r =
      if tooEarly query ms then if query.pageOrder = .desc then .exhausted else .outside
      else if tooLate query ms then if query.pageOrder = .asc then .exhausted else .outside
      else .inside := by
  rw [window, hms]
  rfl

theorem tooEarly_mono {m n : Int} (h : n ≤ m) (hm : tooEarly query m = true) : tooEarly query n = true := by
  obtain ⟨startTime, hstart, hlt⟩ := (Option.any_eq_true _ _).mp hm
  have hn : ((n / 1000 : Int) : Rat) < startTime :=
    Rat.not_le.mp (fun hle => Rat.not_le.mpr (of_decide_eq_true hlt) (Rat.le_trans hle (seconds_mono h)))
  exact (Option.any_eq_true _ _).mpr ⟨startTime, hstart, decide_eq_true hn⟩

theorem tooLate_mono {m n : Int} (h : m ≤ n) (hm : tooLate query m = true) : tooLate query n = true := by
  obtain ⟨endTime, hend, hlt⟩ := (Option.any_eq_true _ _).mp hm
  have hn : endTime < ((n / 1000 : Int) : Rat) :=
    Rat.not_le.mp (fun hle => Rat.not_le.mpr (of_decide_eq_true hlt) (Rat.le_trans (seconds_mono h) hle))
  exact (Option.any_eq_true _ _).mpr ⟨endTime, hend, decide_eq_true hn⟩

/-- What the window test tells; when it ends the window, all later trades are outside. -/
theorem window_cases (query : TradesQuery) {r : HorizonTrade} {ms : Int} (hms : closeMs dateParse r = some ms) :
    (window dateParse query r = .inside ∧ inWindow dateParse query r = true) ∨
      (window dateParse query r = .outside ∧ inWindow dateParse query r = false) ∨
      (window dateParse query r = .exhausted ∧ inWindow dateParse query r = false ∧
        ∀ q n, closeMs dateParse q = some n → closesBefore query.pageOrder ms n → inWindow dateParse query q = false) := by
  rw [window_eq hms, inWindow_eq hms]
  cases hearly : tooEarly query ms with
  | true =>
      cases horder : query.pageOrder with
      | desc =>
          refine .inr (.inr ⟨rfl, rfl, fun q n hn hle => ?_⟩)
          rw [inWindow_eq hn, tooEarly_mono hle hearly]
          rfl
      | asc => exact .inr (.inl ⟨rfl, rfl⟩)
  | false =>
      cases hlate : tooLate query ms with
      | true =>
          cases horder : query.pageOrder with
          | desc => exact .inr (.inl ⟨rfl, rfl⟩)
          | asc =>
              refine .inr (.inr ⟨rfl, rfl, fun q n hn hle => ?_⟩)
              rw [inWindow_eq hn, tooLate_mono hle hlate, Bool.not_true, Bool.and_false]
      | false => exact .inl ⟨rfl, rfl⟩

theorem wanted_eq_none {r : HorizonTrade} (hwindow : inWindow dateParse query r = false) :
    wanted dateParse query r = none := by
  rw [wanted, hwindow]
  cases mapHorizonTrade r <;> rfl

theorem wanted_eq {r : HorizonTrade} {row : TradeRow} (hwindow : inWindow dateParse query r = true)
    (hrow : mapHorizonTrade r = .ok row) :
    wanted dateParse query r = if passes query row then some row else none := by
  rw [wanted, hrow, hwindow]
  rfl

theorem pagingToken_of_map {r : HorizonTrade} {row : TradeRow} (hrow : mapHorizonTrade r = .ok row) :
    row.pagingToken = token r := by
  rw [mapHorizonTrade] at hrow
  cases hprice : formatPriceRatio r.price with
  | error error => rw [hprice] at hrow; cases hrow
  | ok price =>
      rw [hprice] at hrow
      cases hrow
      rfl

/-- What a batch loop has found when it ends: the trades wanted among `done`, and whether
`done` is the whole batch, ends with the trade that met the limit or stands before one
that ends the window. -/
structure Batched (dateParse : Text → Option Int) (query : TradesQuery) (scan scan' : Scan) (ended : Bool)
    (done rest : List HorizonTrade) : Prop where
  trades : scan'.trades = scan.trades ++ done.filterMap (wanted dateParse query)
  stop : (ended = true ∧ ∃ r, rest.head? = some r ∧ window dateParse query r = .exhausted) ∨
    (ended = false ∧ query.pageLimit ≤ scan'.trades.length ∧
      ∃ r, done.getLast? = some r ∧ scan'.trades.getLast?.map TradeRow.pagingToken = some (token r)) ∨
    (ended = false ∧ scan'.trades.length < query.pageLimit ∧ rest = [] ∧
      scan'.lastScannedToken = (done.getLast?.map token <|> scan.lastScannedToken))

theorem Batched.cons {scan scan' : Scan} {ended : Bool} {r : HorizonTrade} {done rest : List HorizonTrade}
    {trades : List TradeRow} (hbatched : Batched dateParse query ⟨trades, some (token r)⟩ scan' ended done rest)
    (htrades : trades = scan.trades ++ (wanted dateParse query r).toList) :
    Batched dateParse query scan scan' ended (r :: done) rest := by
  have hlast : ∀ q, done.getLast? = some q → (r :: done).getLast? = some q := by
    intro q hq
    rw [List.getLast?_cons, hq, Option.getD_some]
  refine ⟨?_, ?_⟩
  · rw [hbatched.trades, htrades, List.append_assoc, List.filterMap_cons]
    cases wanted dateParse query r <;> rfl
  · rcases hbatched.stop with hexhausted | ⟨hended, hmet, q, hq, htoken⟩ | ⟨hended, hopen, hrest, htoken⟩
    · exact .inl hexhausted
    · exact .inr (.inl ⟨hended, hmet, q, hlast q hq, htoken⟩)
    · refine .inr (.inr ⟨hended, hopen, hrest, ?_⟩)
      rw [htoken, List.getLast?_cons]
      cases done.getLast? <;> rfl

theorem scanBatch_cons (r : HorizonTrade) (batch : List HorizonTrade) (scan : Scan) (htoken : token r ≠ []) :
    scanBatch dateParse query (r :: batch) scan =
      match window dateParse query r with
      | .exhausted => .ok (⟨scan.trades, some (token r)⟩, true)
      | .outside => scanBatch dateParse query batch ⟨scan.trades, some (token r)⟩
      | .inside =>
          match mapHorizonTrade r with
          | .error error => .error error
          | .ok row =>
              if passes query row then
                if query.pageLimit ≤ (scan.trades ++ [row]).length then
                  .ok (⟨scan.trades ++ [row], some (token r)⟩, false)
                else scanBatch dateParse query batch ⟨scan.trades ++ [row], some (token r)⟩
              else scanBatch dateParse query batch ⟨scan.trades, some (token r)⟩ := by
  have hlast : (if r.pagingToken.getD [] = [] then scan.lastScannedToken else some (r.pagingToken.getD [])) =
      some (token r) := if_neg htoken
  simp only [scanBatch, hlast] <;> rfl

theorem scanBatch_spec (batch : List HorizonTrade) (scan : Scan) (hopen : scan.trades.length < query.pageLimit)
    (htokens : ∀ r ∈ batch, token r ≠ []) (hpriced : ∀ r ∈ batch, ∃ row, mapHorizonTrade r = .ok row)
    (htimed : ∀ r ∈ batch, ∃ ms, closeMs dateParse r = some ms) :
    ∃ scan' ended done rest, scanBatch dateParse query batch scan = .ok (scan', ended) ∧ batch = done ++ rest ∧
      Batched dateParse query scan scan' ended done rest := by
  induction batch generalizing scan with
  | nil => exact ⟨scan, false, [], [], rfl, rfl, by simp, .inr (.inr ⟨rfl, hopen, rfl, rfl⟩)⟩
  | cons r batch ih =>
      have hgoOn : ∀ trades : List TradeRow, trades.length < query.pageLimit →
          trades = scan.trades ++ (wanted dateParse query r).toList →
          ∃ scan' ended done rest, scanBatch dateParse query batch ⟨trades, some (token r)⟩ = .ok (scan', ended) ∧
            r :: batch = done ++ rest ∧ Batched dateParse query scan scan' ended done rest := by
        intro trades hroom htrades
        obtain ⟨scan', ended, done, rest, hscan, rfl, hbatched⟩ := ih ⟨trades, some (token r)⟩ hroom
          (fun q hq => htokens q (List.mem_cons_of_mem _ hq)) (fun q hq => hpriced q (List.mem_cons_of_mem _ hq))
          (fun q hq => htimed q (List.mem_cons_of_mem _ hq))
        exact ⟨scan', ended, r :: done, rest, hscan, rfl, hbatched.cons htrades⟩
      rw [scanBatch_cons r batch scan (htokens r List.mem_cons_self)]
      obtain ⟨ms, hms⟩ := htimed r List.mem_cons_self
      obtain ⟨row, hrow⟩ := hpriced r List.mem_cons_self
      rcases window_cases query hms with ⟨hwindow, hin⟩ | ⟨hwindow, hout⟩ | ⟨hwindow, -, -⟩
      · simp only [hwindow, hrow]
        have hwanted := wanted_eq hin hrow
        split
        next hpasses =>
          rw [if_pos hpasses] at hwanted
          split
          next hmet =>
            refine ⟨_, _, [r], batch, rfl, rfl, ?_, .inr (.inl ⟨rfl, hmet, r, rfl, ?_⟩)⟩
            · rw [List.filterMap_cons_some hwanted, List.filterMap_nil]
            · rw [List.getLast?_concat, Option.map_some, pagingToken_of_map hrow]
          next hroom => exact hgoOn _ (Nat.lt_of_not_le hroom) (by rw [hwanted, Option.toList_some])
        next hpasses =>
          rw [if_neg hpasses] at hwanted
          exact hgoOn _ hopen (by rw [hwanted, Option.toList_none, List.append_nil])
      · simp only [hwindow]
        exact hgoOn _ hopen (by rw [wanted_eq_none hout, Option.toList_none, List.append_nil])
      · simp only [hwindow]
        exact ⟨_, _, [], r :: batch, rfl, rfl, by simp, .inl ⟨rfl, r, rfl, hwindow⟩⟩

/-- Where a scan over the pages may stop: `done` is scanned and the history goes on with `rest`. -/
def StopsAt (dateParse : Text → Option Int) (query : TradesQuery) (scan scan' : Scan) (done rest : List HorizonTrade) :
    StopReason → Prop
  | .limit => ∃ r, done.getLast? = some r ∧ scan'.trades.getLast?.map TradeRow.pagingToken = some (token r)
  | .endOfData | .windowEnd => rest.filterMap (wanted dateParse query) = []
  | .scanBound => scan'.lastScannedToken = (done.getLast?.map token <|> scan.lastScannedToken)

theorem StopsAt.prepend {scan scan₁ scan' : Scan} {front done rest : List HorizonTrade} {stop : StopReason}
    (hstops : StopsAt dateParse query scan₁ scan' done rest stop)
    (htoken : scan₁.lastScannedToken = (front.getLast?.map token <|> scan.lastScannedToken)) :
    StopsAt dateParse query scan scan' (front ++ done) rest stop := by
  cases stop with
  | limit =>
      obtain ⟨r, hr, hlast⟩ := hstops
      exact ⟨r, by rw [List.getLast?_append, hr, Option.some_or], hlast⟩
  | endOfData => exact hstops
  | windowEnd => exact hstops
  | scanBound =>
      rw [StopsAt] at hstops ⊢
      rw [hstops, htoken, List.getLast?_append]
      cases done.getLast? <;> cases front.getLast? <;> rfl

/-- Once a trade ends the window, neither it nor a later one is wanted. -/
theorem wanted_eq_nil_of_exhausted (history : History dateParse query.pageOrder) {r : HorizonTrade}
    {later : List HorizonTrade} (hsuffix : r :: later <:+ history.records)
    (hexhausted : window dateParse query r = .exhausted) :
    (r :: later).filterMap (wanted dateParse query) = [] := by
  have htimed : ∀ q ∈ r :: later, ∃ ms, closeMs dateParse q = some ms := fun q hq =>
    history.timed q (hsuffix.subset hq)
  obtain ⟨ms, hms⟩ := htimed r List.mem_cons_self
  have hordered := history.monotone.sublist (hsuffix.sublist.filterMap (closeMs dateParse))
  rw [List.filterMap_cons_some hms] at hordered
  rcases window_cases query hms with ⟨hwindow, -⟩ | ⟨hwindow, -⟩ | ⟨-, hout, hlater⟩
  · rw [hexhausted] at hwindow
    cases hwindow
  · rw [hexhausted] at hwindow
    cases hwindow
  · refine List.filterMap_eq_nil_iff.mpr (fun q hq => wanted_eq_none ?_)
    rcases List.mem_cons.mp hq with rfl | hq
    · exact hout
    · obtain ⟨n, hn⟩ := htimed q (List.mem_cons_of_mem _ hq)
      exact hlater q n hn (List.rel_of_pairwise_cons hordered (List.mem_filterMap.mpr ⟨q, hq, hn⟩))

theorem scanPages_succ {horizon : Nat → Option Text → Except Text (List HorizonTrade)} {pages : Nat}
    {cursor : Option Text} {scan : Scan} {batch : List HorizonTrade} (hopen : scan.trades.length < query.pageLimit)
    (hpage : horizon query.pageLimit (cursor.filter (fun c => c ≠ [])) = .ok batch) (hbatch : batch ≠ []) :
    scanPages dateParse horizon query (pages + 1) cursor scan =
      match scanBatch dateParse query batch scan with
      | .error error => .error error
      | .ok (scan, true) => .ok (scan, .windowEnd)
      | .ok (scan, false) =>
          if query.pageLimit ≤ scan.trades.length then .ok (scan, .limit)
          else if batch.length < query.pageLimit then .ok (scan, .endOfData)
          else scanPages dateParse horizon query pages (some (lastToken batch)) scan := by
  rw [scanPages, if_neg (Nat.not_le_of_lt hopen), hpage]
  cases batch with
  | nil => exact absurd rfl hbatch
  | cons r records => rfl

/-- A cursor of the history is not empty, so the page after it is asked for. -/
theorem serve_cursor (history : History dateParse query.pageOrder) {cursor : Option Text}
    (hcursor : ∀ c, cursor = some c → c ∈ history.records.map token) :
    serve history query.pageLimit (cursor.filter (fun c => c ≠ [])) =
      .ok ((after token cursor history.records).take query.pageLimit) := by
  have hfilter : cursor.filter (fun c => c ≠ []) = cursor := by
    cases cursor with
    | none => rfl
    | some c =>
        obtain ⟨r, hr, rfl⟩ := List.mem_map.mp (hcursor c rfl)
        exact if_pos (decide_eq_true (history.tokens r hr))
  rw [hfilter, serve]

theorem drop_of_short {remaining : List HorizonTrade} {n : Nat} (hshort : (remaining.take n).length < n) :
    remaining.drop n = [] := by
  rw [List.length_take] at hshort
  exact List.drop_eq_nil_of_le (by omega)

theorem lastToken_of_getLast {batch : List HorizonTrade} {r : HorizonTrade} (hlast : batch.getLast? = some r) :
    lastToken batch = token r := by
  rw [lastToken, hlast]
  rfl

theorem scanPages_spec (history : History dateParse query.pageOrder) (pages : Nat) (cursor : Option Text) (scan : Scan)
    (hopen : scan.trades.length < query.pageLimit)
    (hcursor : ∀ c, cursor = some c → c ∈ history.records.map token)
    (hsuffix : after token cursor history.records <:+ history.records) :
    ∃ scan' stop done rest, scanPages dateParse (serve history) query pages cursor scan = .ok (scan', stop) ∧
      after token cursor history.records = done ++ rest ∧
      scan'.trades = scan.trades ++ done.filterMap (wanted dateParse query) ∧
      StopsAt dateParse query scan scan' done rest stop ∧
      (stop = .scanBound → 0 < pages → done ≠ []) := by
  induction pages generalizing cursor scan with
  | zero => exact ⟨scan, .scanBound, [], _, rfl, rfl, by simp, rfl, by simp⟩
  | succ pages ih =>
      have hpage := @serve_cursor dateParse query history cursor hcursor
      generalize hremaining : after token cursor history.records = remaining at hsuffix hpage
      have hbatchSub : ∀ r ∈ remaining.take query.pageLimit, r ∈ history.records := fun r hr =>
        hsuffix.subset (List.mem_of_mem_take hr)
      obtain ⟨scan', ended, done, rest, hscan, hbatch, hbatched⟩ := scanBatch_spec (remaining.take query.pageLimit)
        scan hopen (fun r hr => history.tokens r (hbatchSub r hr)) (fun r hr => history.priced r (hbatchSub r hr))
        (fun r hr => history.timed r (hbatchSub r hr))
      have hsplit : remaining = done ++ (rest ++ remaining.drop query.pageLimit) := by
        rw [← List.append_assoc, ← hbatch, List.take_append_drop]
      by_cases hnil : remaining = []
      · subst hnil
        rw [scanPages, if_neg (Nat.not_le_of_lt hopen), hpage, List.take_nil]
        exact ⟨scan, .endOfData, [], [], rfl, rfl, by simp, rfl, by simp⟩
      · have hne : remaining.take query.pageLimit ≠ [] := by
          rw [Ne, List.take_eq_nil_iff]
          exact not_or.mpr ⟨by omega, hnil⟩
        rw [scanPages_succ hopen hpage hne, hscan]
        generalize hlater : remaining.drop query.pageLimit = later at hsplit
        rcases hbatched.stop with ⟨rfl, r, hr, hexhausted⟩ | ⟨rfl, hmet, hlast⟩ | ⟨rfl, hroom, rfl, htoken⟩
        · obtain ⟨behind, rfl⟩ := List.head?_eq_some_iff.mp hr
          refine ⟨scan', .windowEnd, done, _, rfl, hsplit, hbatched.trades, ?_, by simp⟩
          exact wanted_eq_nil_of_exhausted history ((hsplit ▸ List.suffix_append ..).trans hsuffix) hexhausted
        · exact ⟨scan', .limit, done, _, if_pos hmet, hsplit, hbatched.trades, hlast, by simp⟩
        · rw [List.append_nil] at hbatch
          rw [List.nil_append] at hsplit
          simp only [if_neg (Nat.not_le_of_lt hroom)]
          split
          next hshort =>
            have hdrop : later = [] := hlater.symm.trans (drop_of_short hshort)
            exact ⟨scan', .endOfData, done, later, rfl, hsplit, hbatched.trades, by rw [hdrop]; rfl, by simp⟩
          next =>
            obtain ⟨r, hlast⟩ := List.getLast?_isSome.mpr (hbatch ▸ hne) |> Option.isSome_iff_exists.mp
            subst hremaining
            obtain ⟨hafter, hmem, hrest⟩ := after_last history.nodup hsuffix hsplit hlast
            obtain ⟨scan'', stop, done', rest, hscans, hdone', htrades, hstops, -⟩ := ih (some (token r)) scan' hroom
              (by rintro c ⟨⟩; exact hmem) (hafter ▸ hrest)
            rw [hafter] at hdone'
            refine ⟨scan'', stop, done ++ done', rest, ?_, ?_, ?_, hstops.prepend htoken, ?_⟩
            · rw [hbatch, lastToken_of_getLast hlast, hscans]
            · rw [hsplit, hdone', List.append_assoc]
            · rw [htrades, hbatched.trades, List.append_assoc, ← List.filterMap_append]
            · rintro - - hnil
              exact hne (hbatch.trans (List.append_eq_nil_iff.mp hnil).1)

theorem nextCursor_cases {scan scan' : Scan} {done rest : List HorizonTrade} {stop : StopReason}
    (hstops : StopsAt dateParse query scan scan' done rest stop) (htokens : ∀ r ∈ done, token r ≠ [])
    (hmoved : stop = .scanBound → done ≠ []) :
    (nextCursor scan' stop = none ∧ rest.filterMap (wanted dateParse query) = []) ∨
      ∃ r, done.getLast? = some r ∧ nextCursor scan' stop = some (token r) := by
  cases stop with
  | limit => exact .inr hstops
  | endOfData => exact .inl ⟨rfl, hstops⟩
  | windowEnd => exact .inl ⟨rfl, hstops⟩
  | scanBound =>
      obtain ⟨r, hlast⟩ := Option.isSome_iff_exists.mp (List.getLast?_isSome.mpr (hmoved rfl))
      rw [StopsAt, hlast] at hstops
      refine .inr ⟨r, hlast, ?_⟩
      rw [nextCursor, hstops]
      exact if_pos (decide_eq_true (htokens r (List.mem_of_getLast? hlast)))

theorem pageLimit_pos (query : TradesQuery) : 0 < query.pageLimit := by
  rw [TradesQuery.pageLimit]
  omega

theorem getTrades_spec (history : History dateParse query.pageOrder)
    (hcursor : ∀ c, query.cursor = some c → c ∈ history.records.map token)
    (hsuffix : after token query.cursor history.records <:+ history.records) :
    ∃ tape done rest, getTrades dateParse (serve history) query = .ok tape ∧
      Covers token (wanted dateParse query) (after token query.cursor history.records) done rest
        ⟨tape.trades, tape.nextCursor⟩ := by
  obtain ⟨scan, stop, done, rest, hscan, hsplit, htrades, hstops, hmoved⟩ :=
    scanPages_spec history maxTradePages query.cursor ⟨[], query.cursor⟩ (pageLimit_pos _) hcursor hsuffix
  have htokens : ∀ r ∈ done, token r ≠ [] := by
    intro r hr
    refine history.tokens r (hsuffix.subset ?_)
    rw [hsplit]
    exact List.mem_append_left _ hr
  have hnext := nextCursor_cases hstops htokens (fun hstop => hmoved hstop (by decide))
  refine ⟨_, done, rest, by rw [getTrades, hscan], hsplit, htrades, ?_, ?_⟩
  · intro hnone
    rcases hnext with ⟨-, hrest⟩ | ⟨r, -, hsome⟩
    · exact hrest
    · rw [hsome] at hnone
      cases hnone
  · intro c hc
    rcases hnext with ⟨hnone, -⟩ | ⟨r, hlast, hsome⟩
    · rw [hnone] at hc
      cases hc
    · exact ⟨r, hlast, Option.some.inj (hc.symm.trans hsome)⟩

/-- The page of an answer; a call that throws has none. -/
def page : Except Text TradeTape → Option (Page TradeRow Text)
  | .error _ => none
  | .ok tape => some ⟨tape.trades, tape.nextCursor⟩

def pageAt (query : TradesQuery) (history : History dateParse query.pageOrder) (cursor : Option Text) :
    Option (Page TradeRow Text) :=
  page (getTrades dateParse (serve history) { query with cursor := cursor })

theorem covers_pageAt (history : History dateParse query.pageOrder) (cursor : Option Text)
    (hcursor : ∀ c, cursor = some c → c ∈ history.records.map token)
    (hsuffix : after token cursor history.records <:+ history.records) :
    ∃ page done rest, pageAt query history cursor = some page ∧
      Covers token (wanted dateParse query) (after token cursor history.records) done rest page := by
  obtain ⟨tape, done, rest, htape, hcovers⟩ :=
    @getTrades_spec dateParse { query with cursor := cursor } history hcursor hsuffix
  exact ⟨_, done, rest, congrArg page htape, hcovers⟩

/-- Following the next cursors from the start ends, and gives the trades that satisfy the
window and the filters in the order of the history. -/
theorem trades_lossless (query : TradesQuery) (history : History dateParse query.pageOrder) (fuel : Nat)
    (hfuel : history.records.length < fuel) :
    follow (pageAt query history) fuel none = some (history.records.filterMap (wanted dateParse query)) :=
  follow_eq history.nodup (covers_pageAt history) fuel none nofun hfuel (List.suffix_refl _)

def sampleTrade (id closeTime : String) (baseIsSeller : Bool) : HorizonTrade where
  id := some (text id)
  pagingToken := some (text id)
  ledger := none
  ledgerCloseTime := some (text closeTime)
  createdAt := none
  tradeType := some (text "orderbook")
  operationType := none
  baseAsset := ⟨text "native", none, none⟩
  counterAsset := ⟨text "credit_alphanum4", some (text "USDC"), some (text "GA")⟩
  price := .ratio 1 8
  baseAmount := some (text "8.0000000")
  counterAmount := some (text "1.0000000")
  baseAccount := some (text "GB")
  counterAccount := some (text "GC")
  baseIsSeller := baseIsSeller

def sampleDate (date : Text) : Option Int :=
  if date = text "2024-01-01T00:00:00Z" then some 1704067200000
  else if date = text "2024-01-01T00:00:05Z" then some 1704067205000
  else none

/-- Three trades, newest first; two of them closed in one second. -/
def sampleHistory : History sampleDate .desc where
  records := [sampleTrade "12-1" "2024-01-01T00:00:05Z" true, sampleTrade "12-0" "2024-01-01T00:00:05Z" false,
    sampleTrade "7-0" "2024-01-01T00:00:00Z" false]
  tokens := by decide
  nodup := by decide
  priced := by
    intro r hr
    simp only [List.mem_cons, List.not_mem_nil, or_false] at hr
    rcases hr with rfl | rfl | rfl <;> exact ⟨_, rfl⟩
  timed := by
    intro r hr
    simp only [List.mem_cons, List.not_mem_nil, or_false] at hr
    rcases hr with rfl | rfl | rfl <;> exact ⟨_, rfl⟩
  monotone := by decide

theorem trades_lossless_sales :
    follow (pageAt { limit := some 1, side := some .sell, startTime := some 1704067201 } sampleHistory) 4 none =
      some (sampleHistory.records.filterMap
        (wanted sampleDate { limit := some 1, side := some .sell, startTime := some 1704067201 })) :=
  trades_lossless { limit := some 1, side := some .sell, startTime := some 1704067201 } sampleHistory 4 (by decide)

end Savitools.Simulator.TradePaging
