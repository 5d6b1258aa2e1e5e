import Mathlib.Data.List.Sort
import Savitools.Common.Exceptions
import Savitools.Dates.IsoTexts
import Savitools.Json.Writing
import Savitools.Json.Conversions
import Savitools.Monitor.AlertEvaluator
import Savitools.Paging.Cursors

namespace Savitools.Monitor.EventSearch

open Strings.CodeUnits Strings.Decimals Dates.IsoTexts Json.Numbers Json.Values Json.Conversions Json.Writing Paging.Chunks
open Common.Exceptions AlertEvaluator

def EXPORT_MAX_ROWS : Nat := 10000

def EXPORT_CHUNK_SIZE : Nat := 1000

def DEFAULT_PAGE : Int := 1

def DEFAULT_PAGE_LIMIT : Int := 25

def MAX_PAGE : Int := 10000

def MAX_PAGE_LIMIT : Int := 100

/-- A row of `watch_events`. Its id is a UUID, which the database orders as a number. -/
structure WatchEvent where
  id : Nat
  watchId : Text
  pagingToken : Text
  source : EventSource
  eventType : EventSource
  payload : List (Text × Value Number)
  occurredAt : Int

structure SearchEventsQueryDto where
  page : Option Int := none
  limit : Option Int := none
  watchId : Option Text := none
  eventType : Option EventSource := none
  q : Option Text := none
  fromDate : Option Text := none
  toDate : Option Text := none

/-- The events, and the users of their watches. `iLike` is the database's search of a pattern in the paging token, the
payload and the source of an event. -/
structure EventTable where
  events : List WatchEvent
  userOf : Text → Option Text
  iLike : Text → WatchEvent → Bool
  nodup : (events.map WatchEvent.id).Nodup

variable (dateParse : Text → Option Int)

/-- A filter that is left out or empty excludes nothing. -/
def unlessEmpty (value : Option Text) (holds : Text → Bool) : Bool :=
  match value.getD [] with
  | [] => true
  | u :: rest => holds (u :: rest)

def matchesQuery (table : EventTable) (userId : Text) (query : SearchEventsQueryDto) (event : WatchEvent) : Bool :=
  table.userOf event.watchId == some userId &&
    unlessEmpty query.watchId (fun watchId => event.watchId == watchId) &&
    query.eventType.all (fun eventType => event.eventType == eventType) &&
    unlessEmpty query.fromDate (fun date => (dateParse date).any (· ≤ event.occurredAt)) &&
    unlessEmpty query.toDate (fun date => (dateParse date).any (event.occurredAt ≤ ·)) &&
    unlessEmpty (query.q.map trim) (fun q => table.iLike (unit '%' :: (q ++ [unit '%'])) event)

/-- The latest event first, of those at one time the one with the greatest id. -/
def Precedes (a b : WatchEvent) : Prop :=
  b.occurredAt < a.occurredAt ∨ b.occurredAt = a.occurredAt ∧ b.id ≤ a.id

instance : DecidableRel Precedes := fun _ _ => inferInstanceAs (Decidable (_ ∨ _))

/-- The rows of the query that the search and the export share. -/
def buildEventsQuery (table : EventTable) (userId : Text) (query : SearchEventsQueryDto) : List WatchEvent :=
  (table.events.filter (matchesQuery dateParse table userId query)).insertionSort Precedes

def findEventPage (table : EventTable) (userId : Text) (query : SearchEventsQueryDto) (page limit : Nat) :
    List WatchEvent :=
  offsetPage (buildEventsQuery dateParse table userId query) page limit

def normalizePagination (query : SearchEventsQueryDto) : Except Exception (Int × Int) :=
  let page := query.page.getD DEFAULT_PAGE
  let limit := query.limit.getD DEFAULT_PAGE_LIMIT
  if page < 1 ∨ page > MAX_PAGE then
    .error (.badRequest (text "page must be an integer between 1 and " ++ intText MAX_PAGE))
  else if limit < 1 ∨ limit > MAX_PAGE_LIMIT then
    .error (.badRequest (text "limit must be an integer between 1 and " ++ intText MAX_PAGE_LIMIT))
  else .ok (page, limit)

structure PaginatedResult where
  items : List WatchEvent
  page : Int
  limit : Int
  total : Int
  totalPages : Int
  hasNextPage : Bool
  hasPreviousPage : Bool
  nextPage : Option Int
  previousPage : Option Int

def buildPaginatedResult (items : List WatchEvent) (total page limit : Int) : PaginatedResult :=
  let totalPages := (total + limit - 1) / limit
  let hasNextPage := decide (page < totalPages)
  let hasPreviousPage := decide (1 < page ∧ 0 < totalPages)
  { items := items
    page := page
    limit := limit
    total := total
    totalPages := totalPages
    hasNextPage := hasNextPage
    hasPreviousPage := hasPreviousPage
    nextPage := if hasNextPage then some (page + 1) else none
    previousPage := if hasPreviousPage then some (page - 1) else none }

def searchEvents (table : EventTable) (userId : Text) (query : SearchEventsQueryDto) : Except Exception PaginatedResult :=
  (normalizePagination query).map fun (page, limit) =>
    let rows := buildEventsQuery dateParse table userId query
    buildPaginatedResult (offsetPage rows page.toNat limit.toNat) rows.length page limit

/-- A cell of a row; nothing stands for null. -/
abbrev Cell := Option Text

def eventTypeText : EventSource → Text
  | .transaction => text "transaction"
  | .payment => text "payment"
  | .contract => text "contract"

/-- The first of the members that is a string. -/
def firstText (payload : List (Text × Value Number)) : List Text → Cell
  | [] => none
  | name :: names =>
      match payload.lookup name with
      | some (.str t) => some t
      | _ => firstText payload names

def amountCell (payload : List (Text × Value Number)) : Cell :=
  match payload.lookup (text "amount") with
  | some (.str t) => some t
  | some (.num n) => some (numberText n)
  | _ => none

def assetCell (payload : List (Text × Value Number)) : Cell :=
  if (payload.lookup (text "asset_type")).any (Value.strictEqText (text "native")) then some (text "XLM")
  else firstText payload [text "asset_code", text "asset"]

def eventToCsvRow (event : WatchEvent) : List Cell :=
  [some (eventTypeText event.eventType),
    some (toISOString event.occurredAt),
    amountCell event.payload,
    assetCell event.payload,
    firstText event.payload [text "from", text "source_account"],
    firstText event.payload [text "to", text "account"],
    firstText event.payload [text "transaction_hash", text "hash", text "transactionHash"],
    some event.pagingToken,
    some event.watchId,
    some (stringify (.obj event.payload))]

/-- How many rows an export may have. -/
def maxRows (query : SearchEventsQueryDto) : Nat := (min (query.limit.getD EXPORT_MAX_ROWS) EXPORT_MAX_ROWS).toNat

/-- The events of an export in the order in which they are written. -/
def exportedEvents (table : EventTable) (userId : Text) (query : SearchEventsQueryDto) : List WatchEvent :=
  readChunks (findEventPage dateParse table userId query) EXPORT_CHUNK_SIZE (maxRows query) 1 0

/-- The rows that are written, and their total. -/
def streamSearchEventsCsv (table : EventTable) (userId : Text) (query : SearchEventsQueryDto) : List (List Cell) × Nat :=
  let events := exportedEvents dateParse table userId query
  (events.map eventToCsvRow, events.length)

end Savitools.Monitor.EventSearch

namespace Savitools.Monitor.EventExports

open Strings.CodeUnits Strings.Decimals Paging.Chunks EventSearch

variable (dateParse : Text → Option Int) (table : EventTable) (userId : Text) (query : SearchEventsQueryDto)

theorem buildEventsQuery_perm :
    (buildEventsQuery dateParse table userId query).Perm (table.events.filter (matchesQuery dateParse table userId query)) :=
  List.perm_insertionSort _ _

theorem buildEventsQuery_nodup : (buildEventsQuery dateParse table userId query).Nodup :=
  (buildEventsQuery_perm dateParse table userId query).nodup_iff.mpr (table.nodup.of_map.filter _)

theorem maxRows_eq {limit : Nat} (hlimit : query.limit = some (limit : Int)) (h : limit ≤ EXPORT_MAX_ROWS) :
    maxRows query = limit := by
  rw [maxRows, hlimit, Option.getD_some]
  omega

/-- The last chunk is as large as the others, or the only one, or the results end before it. -/
def Aligned (limit total : Nat) : Prop :=
  limit < EXPORT_CHUNK_SIZE ∨ EXPORT_CHUNK_SIZE ∣ limit ∨ total < limit / EXPORT_CHUNK_SIZE * EXPORT_CHUNK_SIZE

/-- An export has the first rows of the search, each once, exactly when its last chunk is aligned; and then the rows
that are written are theirs. -/
theorem exportedEvents_iff :
    (exportedEvents dateParse table userId query =
        (buildEventsQuery dateParse table userId query).take (maxRows query) ↔
      Aligned (maxRows query) (buildEventsQuery dateParse table userId query).length) ∧
    (Aligned (maxRows query) (buildEventsQuery dateParse table userId query).length →
      streamSearchEventsCsv dateParse table userId query =
        (((buildEventsQuery dateParse table userId query).take (maxRows query)).map eventToCsvRow,
          min (maxRows query) (buildEventsQuery dateParse table userId query).length)) := by
  have hevents : exportedEvents dateParse table userId query =
        (buildEventsQuery dateParse table userId query).take (maxRows query) ↔
      Aligned (maxRows query) (buildEventsQuery dateParse table userId query).length :=
    readChunks_offset_iff (by decide) (buildEventsQuery_nodup dateParse table userId query)
  refine ⟨hevents, fun haligned => ?_⟩
  rw [streamSearchEventsCsv, hevents.mpr haligned, List.length_take]

/-- Events of one watch at one time. -/
def events (n : Nat) : List WatchEvent :=
  (List.range n).map fun id => ⟨id, text "watch", ofNat id, .payment, .payment, [], 0⟩

def oneWatch (n : Nat) : EventTable where
  events := events n
  userOf := fun _ => some (text "user")
  iLike := fun _ _ => true
  nodup := by
    rw [events, List.map_map]
    exact List.nodup_range.map fun _ _ h => h

theorem length_oneWatch (n : Nat) (limit : Option Int) :
    (buildEventsQuery (fun _ => none) (oneWatch n) (text "user") { limit := limit }).length = n := by
  have hall : ∀ event ∈ (oneWatch n).events,
      matchesQuery (fun _ => none) (oneWatch n) (text "user") { limit := limit } event = true := by
    intro event _
    simp [matchesQuery, oneWatch, unlessEmpty]
  have hevents : (oneWatch n).events = events n := rfl
  rw [(buildEventsQuery_perm _ _ _ _).length_eq, List.filter_eq_self.mpr hall, hevents, events, List.length_map,
    List.length_range]

/-- Of 1500 events an export of at most 1500 does not have each once. -/
theorem not_exported_once : ¬∀ (dateParse : Text → Option Int) (table : EventTable) (userId : Text)
    (query : SearchEventsQueryDto) (limit : Nat), query.limit = some (limit : Int) → 1 ≤ limit → limit ≤ EXPORT_MAX_ROWS →
      exportedEvents dateParse table userId query = (buildEventsQuery dateParse table userId query).take limit := by
  intro h
  let query : SearchEventsQueryDto := { limit := some 1500 }
  have hlength : (buildEventsQuery (fun _ => none) (oneWatch 1500) (text "user") query).length = 1500 :=
    length_oneWatch 1500 _
  have hrows : maxRows query = 1500 := maxRows_eq query rfl (by decide)
  have hexported := h (fun _ => none) (oneWatch 1500) (text "user") query 1500 rfl (by decide) (by decide)
  rw [exportedEvents, hrows] at hexported
  have haligned := (readChunks_offset_iff (by decide) (buildEventsQuery_nodup _ _ _ _)).mp hexported
  rw [hlength] at haligned
  revert haligned
  decide

end Savitools.Monitor.EventExports
