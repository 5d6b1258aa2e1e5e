import Mathlib.Data.Rat.Defs
import Savitools.Common.Decimal

namespace Savitools.Simulator.Trades

open Strings.CodeUnits Common.Decimal

def maxTradePages : Nat := 5

inductive Side
  | buy
  | sell
deriving DecidableEq

inductive Order
  | asc
  | desc
deriving DecidableEq

structure ParsedAsset where
  type : Text
  code : Option Text
  issuer : Option Text

inductive RecordPrice
  | text (price : Text)
  | ratio (n d : Int)
  | other

/-- A record of Horizon's trades; the members that may be missing are options. -/
structure HorizonTrade where
  id : Option Text
  pagingToken : Option Text
  ledger : Option Nat
  ledgerCloseTime : Option Text
  createdAt : Option Text
  tradeType : Option Text
  operationType : Option Text
  baseAsset : ParsedAsset
  counterAsset : ParsedAsset
  price : RecordPrice
  baseAmount : Option Text
  counterAmount : Option Text
  baseAccount : Option Text
  counterAccount : Option Text
  baseIsSeller : Bool

structure TradeRow where
  id : Text
  pagingToken : Text
  operationId : Option Text
  ledger : Option Nat
  closeTime : Option Text
  tradeType : Text
  baseAsset : Text
  quoteAsset : Text
  price : Text
  baseAmount : Text
  quoteAmount : Text
  buyer : Text
  seller : Text
  side : Side
deriving DecidableEq

def formatAssetString (asset : ParsedAsset) : Text :=
  if asset.type = text "native" ∨ asset.code.getD [] = [] then text "XLM"
  else asset.code.getD [] ++ unit ':' :: asset.issuer.getD []

def formatPriceRatio : RecordPrice → Except Text Text
  | .text price => (parseFixed price).map formatFixed
  | .ratio n d => if d = 0 then .error (text "Invalid trade price") else .ok (formatFixed ((n * fixedScale).tdiv d))
  | .other => .error (text "Invalid trade price in Horizon response")

def mapHorizonTrade (record : HorizonTrade) : Except Text TradeRow :=
  let id := (record.id <|> record.pagingToken).getD []
  (formatPriceRatio record.price).map (fun price => {
    id := id
    pagingToken := record.pagingToken.getD []
    operationId := if id = [] then none else (split (unit '-') id).head?
    ledger := record.ledger
    closeTime := record.ledgerCloseTime <|> record.createdAt
    tradeType := (record.tradeType <|> record.operationType).getD (text "orderbook")
    baseAsset := formatAssetString record.baseAsset
    quoteAsset := formatAssetString record.counterAsset
    price := price
    baseAmount := record.baseAmount.getD (text "0")
    quoteAmount := record.counterAmount.getD (text "0")
    buyer := (if record.baseIsSeller then record.counterAccount else record.baseAccount).getD []
    seller := (if record.baseIsSeller then record.baseAccount else record.counterAccount).getD []
    side := if record.baseIsSeller then .sell else .buy })

structure TradesQuery where
  limit : Option Int := none
  cursor : Option Text := none
  order : Option Order := none
  side : Option Side := none
  account : Option Text := none
  startTime : Option Rat := none
  endTime : Option Rat := none

def TradesQuery.pageLimit (query : TradesQuery) : Nat := (min (max (query.limit.getD 50) 1) 200).toNat

def TradesQuery.pageOrder (query : TradesQuery) : Order := query.order.getD .desc

inductive StopReason
  | limit
  | endOfData
  | windowEnd
  | scanBound

structure Scan where
  trades : List TradeRow
  lastScannedToken : Option Text

inductive Window
  | inside
  | outside
  | exhausted
deriving DecidableEq

structure TradeTape where
  order : Order
  limit : Nat
  cursor : Option Text
  trades : List TradeRow
  nextCursor : Option Text
  hasMore : Bool
  truncated : Bool

-- `Date.parse`, in milliseconds, with `none` for NaN.
variable (dateParse : Text → Option Int)

def closeMs (record : HorizonTrade) : Option Int :=
  dateParse ((record.ledgerCloseTime <|> record.createdAt).getD [])

def window (query : TradesQuery) (record : HorizonTrade) : Window :=
  match closeMs dateParse record with
  | none => .inside
  | some closeMs =>
      let closeSeconds : Rat := ((closeMs / 1000 : Int) : Rat)
      if query.startTime.any (fun startTime => closeSeconds < startTime) then
        if query.pageOrder = .desc then .exhausted else .outside
      else if query.endTime.any (fun endTime => endTime < closeSeconds) then
        if query.pageOrder = .asc then .exhausted else .outside
      else .inside

/-- The side and account filters; an empty account is no filter. -/
def passes (query : TradesQuery) (row : TradeRow) : Bool :=
  query.side.all (fun side => row.side = side) &&
    (query.account.getD [] = [] || row.buyer = query.account.getD [] || row.seller = query.account.getD [])

/-- The loop over one batch; the answer is whether it ended the window. -/
def scanBatch (query : TradesQuery) : List HorizonTrade → Scan → Except Text (Scan × Bool)
  | [], scan => .ok (scan, false)
  | record :: rest, scan =>
      let token := record.pagingToken.getD []
      let lastScannedToken := if token = [] then scan.lastScannedToken else some token
      let scan := { scan with lastScannedToken := lastScannedToken }
      match window dateParse query record with
      | .exhausted => .ok (scan, true)
      | .outside => scanBatch query rest scan
      | .inside =>
          match mapHorizonTrade record with
          | .error error => .error error
          | .ok row =>
              if passes query row then
                let scan := { scan with trades := scan.trades ++ [row] }
                if query.pageLimit ≤ scan.trades.length then .ok (scan, false) else scanBatch query rest scan
              else scanBatch query rest scan

-- Horizon's trades of the market in the order of the query, for a page size and a cursor.
variable (horizon : Nat → Option Text → Except Text (List HorizonTrade))

def lastToken (batch : List HorizonTrade) : Text := (batch.getLast?.bind HorizonTrade.pagingToken).getD []

/-- The loop over the pages that are left. -/
def scanPages (query : TradesQuery) : Nat → Option Text → Scan → Except Text (Scan × StopReason)
  | 0, _, scan => .ok (scan, .scanBound)
  | pages + 1, cursor, scan =>
      if query.pageLimit ≤ scan.trades.length then .ok (scan, .scanBound)
      else
        match horizon query.pageLimit (cursor.filter (fun c => c ≠ [])) with
        | .error error => .error error
        | .ok [] => .ok (scan, .endOfData)
        | .ok (record :: records) =>
            let batch := record :: records
            match scanBatch dateParse query batch scan with
            | .error error => .error error
            | .ok (scan, true) => .ok (scan, .windowEnd)
            | .ok (scan, false) =>
                if query.pageLimit ≤ scan.trades.length then .ok (scan, .limit)
                else if batch.length < query.pageLimit then .ok (scan, .endOfData)
                else scanPages query pages (some (lastToken batch)) scan

def nextCursor (scan : Scan) : StopReason → Option Text
  | .limit => scan.trades.getLast?.map TradeRow.pagingToken
  | .scanBound => scan.lastScannedToken.filter (fun token => token ≠ [])
  | .endOfData | .windowEnd => none

def getTrades (query : TradesQuery) : Except Text TradeTape :=
  match scanPages dateParse horizon query maxTradePages query.cursor ⟨[], query.cursor⟩ with
  | .error error => .error error
  | .ok (scan, stopReason) =>
      .ok {
        order := query.pageOrder
        limit := query.pageLimit
        cursor := query.cursor
        trades := scan.trades
        nextCursor := nextCursor scan stopReason
        hasMore := (nextCursor scan stopReason).isSome
        truncated := match stopReason with
          | .scanBound => (nextCursor scan stopReason).isSome
          | _ => false }

end Savitools.Simulator.Trades
