import Mathlib.Data.List.Sort
import Savitools.Common.Exceptions
import Savitools.Fills.Greedy
import Savitools.Json.Doubles
import Savitools.Simulator.Trades

namespace Savitools.Simulator.OrderQuotes

open Strings.CodeUnits Fills.Greedy Json.Numbers Json.Wholes Common.Exceptions Common.Decimal Trades

inductive OrderbookNetwork
  | mainnet
  | testnet
deriving DecidableEq

structure OrderQuoteDto where
  selling : Text
  buying : Text
  side : Side
  amount : Text
  network : Option OrderbookNetwork

structure HorizonLevel where
  price : Text
  amount : Text

structure HorizonOrderBookResponse where
  bids : Option (List HorizonLevel)
  asks : Option (List HorizonLevel)

inductive QuoteStatus
  | filled
  | partlyFilled
  | unfilled
deriving DecidableEq

/-- A quote, without the time. -/
structure OrderQuoteResult where
  selling : Text
  buying : Text
  network : OrderbookNetwork
  side : Side
  requestedAmount : Text
  filledAmount : Text
  unfilledAmount : Text
  status : QuoteStatus
  averagePrice : Option Text
  worstPrice : Option Text
  bestPrice : Option Text
  cost : Text
  priceImpactBps : Option Number
  estimatedFee : Text
  levelsConsumed : Nat

def estimatedTradeFeeStroops : Text := text "100"

/-- A level of the book, in stroops. -/
abbrev Level := Offer Int

/-- `parseFixed` of the service -/
def parseAmount (value : Text) : Except Exception Int :=
  match parseFixed value with
  | .error message => .error (.badRequest message)
  | .ok amount => .ok amount

def parseLevel (level : HorizonLevel) : Except Exception Level :=
  (parseAmount level.price).bind fun price => (parseAmount level.amount).map fun amount => ⟨price, amount⟩

/-- The levels that a quote takes from. -/
def sideLevels (side : Side) (raw : HorizonOrderBookResponse) : List HorizonLevel :=
  match side with
  | .buy => raw.asks.getD []
  | .sell => raw.bids.getD []

/-- The levels with a price and an amount. -/
def bookLevels (levels : List Level) : List Level := levels.filter fun level => 0 < level.price ∧ 0 < level.amount

/-- The best price first: for a buy the lowest one, for a sell the highest. -/
def bestFirst (side : Side) (levels : List Level) : List Level :=
  match side with
  | .buy => levels.insertionSort fun a b => a.price ≤ b.price
  | .sell => levels.insertionSort fun a b => b.price ≤ a.price

structure Walk where
  remaining : Int
  filled : Int
  cost : Int
  worstPrice : Option Int
  levelsConsumed : Nat

def Walk.step (walk : Walk) (level : Level) : Walk :=
  let take := if level.amount < walk.remaining then level.amount else walk.remaining
  { remaining := walk.remaining - take
    filled := walk.filled + take
    cost := walk.cost + mulFixed take level.price
    worstPrice := some level.price
    levelsConsumed := walk.levelsConsumed + 1 }

def walkLevels : List Level → Walk → Walk
  | [], walk => walk
  | level :: levels, walk => if walk.remaining ≤ 0 then walk else walkLevels levels (walk.step level)

def priceImpact (side : Side) (averagePrice bestPrice : Option Int) : Option Number :=
  match averagePrice, bestPrice with
  | some average, some best =>
      if best > 0 then
        let delta := if side = .buy then average - best else best - average
        let bps := (delta * 10000).tdiv best
        some (if bps > 0 then ofBigInt bps else .finite 0)
      else none
  | _, _ => none

/-- The average price; a division by the filled amount does not fail, as it is positive. -/
def averageOf (walk : Walk) : Option Int :=
  if walk.filled > 0 then (divFixed walk.cost walk.filled).toOption else none

def quoteResult (dto : OrderQuoteDto) (requested : Int) (levels : List Level) (walk : Walk) : OrderQuoteResult :=
  let averagePrice := averageOf walk
  let bestPrice := if walk.levelsConsumed > 0 then levels.head?.map (·.price) else none
  { selling := dto.selling
    buying := dto.buying
    network := dto.network.getD .testnet
    side := dto.side
    requestedAmount := formatFixed requested
    filledAmount := formatFixed walk.filled
    unfilledAmount := formatFixed walk.remaining
    status := if walk.filled = requested then .filled else if walk.filled = 0 then .unfilled else .partlyFilled
    averagePrice := averagePrice.map formatFixed
    worstPrice := walk.worstPrice.map formatFixed
    bestPrice := bestPrice.map formatFixed
    cost := formatFixed walk.cost
    priceImpactBps := priceImpact dto.side averagePrice bestPrice
    estimatedFee := if walk.filled > 0 then estimatedTradeFeeStroops else text "0"
    levelsConsumed := walk.levelsConsumed }

/-- `fetched` is the order book that Horizon gives for the pair, or the error of the request. -/
def getQuote (dto : OrderQuoteDto) (fetched : Except Exception HorizonOrderBookResponse) : Except Exception OrderQuoteResult :=
  (parseAmount dto.amount).bind fun requested =>
    if requested ≤ 0 then .error (.badRequest (text "amount must be positive"))
    else
      fetched.bind fun raw =>
        ((sideLevels dto.side raw).mapM parseLevel).map fun parsed =>
          let levels := bestFirst dto.side (bookLevels parsed)
          quoteResult dto requested levels (walkLevels levels ⟨requested, 0, 0, none, 0⟩)

/-- The sum of the costs of the levels, each truncated. -/
def truncatedCost (parts : List (Level × Int)) : Int := (parts.map fun part => mulFixed part.2 part.1.price).sum

/-- What the walk through the levels comes to, by the parts that it takes. -/
theorem walkLevels_eq (levels : List Level) (walk : Walk) :
    walkLevels levels walk =
      { remaining := walk.remaining - amountOf (consumed walk.remaining levels)
        filled := walk.filled + amountOf (consumed walk.remaining levels)
        cost := walk.cost + truncatedCost (consumed walk.remaining levels)
        worstPrice := ((consumed walk.remaining levels).getLast?.map (·.1.price)).or walk.worstPrice
        levelsConsumed := walk.levelsConsumed + (consumed walk.remaining levels).length } := by
  induction levels generalizing walk with
  | nil => simp [walkLevels, consumed, amountOf, truncatedCost]
  | cons level levels ih =>
      rw [walkLevels, consumed]
      split
      · simp [amountOf, truncatedCost]
      · have htake : (if level.amount < walk.remaining then level.amount else walk.remaining) =
            min level.amount walk.remaining := by
          rcases lt_or_ge level.amount walk.remaining with h | h
          · rw [if_pos h, min_eq_left h.le]
          · rw [if_neg h.not_gt, min_eq_right h]
        have hlast (parts : List (Level × Int)) (part : Level × Int) :
            (((part :: parts).getLast?).map (·.1.price)).or walk.worstPrice =
              ((parts.getLast?).map (·.1.price)).or (some part.1.price) := by
          rw [List.getLast?_cons]
          cases parts.getLast? <;> rfl
        rw [ih, hlast]
        simp only [Walk.step, htake, amountOf_cons, truncatedCost, List.map_cons, List.sum_cons, List.length_cons]
        congr 1 <;> omega

section Book

variable {side : Side} {levels : List Level}

theorem bestFirst_perm (side : Side) (levels : List Level) : (bestFirst side levels).Perm levels := by
  cases side <;> exact List.perm_insertionSort _ _

/-- The one price is at least as good as the other. -/
def NoWorse (side : Side) (price other : Int) : Prop :=
  match side with
  | .buy => price ≤ other
  | .sell => other ≤ price

theorem noWorse_refl (side : Side) (price : Int) : NoWorse side price price := by
  cases side <;> exact Int.le_refl price

/-- The levels are sorted with the best price first. -/
def Sorted (side : Side) (levels : List Level) : Prop := levels.Pairwise fun a b => NoWorse side a.price b.price

theorem sorted_bestFirst (side : Side) (levels : List Level) : Sorted side (bestFirst side levels) := by
  cases side with
  | buy =>
      have htotal : Std.Total fun a b : Level => a.price ≤ b.price := ⟨fun a b => le_total a.price b.price⟩
      have htrans : IsTrans Level fun a b => a.price ≤ b.price := ⟨fun a b c => le_trans⟩
      exact List.pairwise_insertionSort (fun a b : Level => a.price ≤ b.price) levels
  | sell =>
      have htotal : Std.Total fun a b : Level => b.price ≤ a.price := ⟨fun a b => le_total b.price a.price⟩
      have htrans : IsTrans Level fun a b => b.price ≤ a.price := ⟨fun a b c hab hbc => le_trans hbc hab⟩
      exact List.pairwise_insertionSort (fun a b : Level => b.price ≤ a.price) levels

theorem bestFirst_of_sorted (h : Sorted side levels) : bestFirst side levels = levels := by
  cases side with
  | buy => exact List.Pairwise.insertionSort_eq (r := fun a b : Level => a.price ≤ b.price) h
  | sell => exact List.Pairwise.insertionSort_eq (r := fun a b : Level => b.price ≤ a.price) h

theorem bookLevels_pos {level : Level} (h : level ∈ bookLevels levels) : 0 < level.price ∧ 0 < level.amount :=
  of_decide_eq_true (List.mem_filter.mp h).2

end Book

end Savitools.Simulator.OrderQuotes

namespace Savitools.Simulator.QuoteOptimality

open Strings.CodeUnits Fills.Greedy Common.Exceptions Common.Decimal Trades OrderQuotes

/-- The parts that a quote takes from the levels of a book. -/
def partsOf (side : Side) (requested : Int) (levels : List Level) : List (Level × Int) :=
  consumed requested (bestFirst side levels)

section Parts

variable {side : Side} {requested : Int} {levels : List Level}

/-- Each part takes something, and no more than there is. -/
theorem consumed_pos (hamounts : ∀ level ∈ levels, 0 < level.amount) :
    ∀ part ∈ consumed requested levels, 0 < part.2 ∧ part.2 ≤ part.1.amount := by
  induction levels generalizing requested with
  | nil => exact List.forall_mem_nil _
  | cons level levels ih =>
      rw [consumed]
      split
      · exact List.forall_mem_nil _
      · rename_i hwanted
        have hlevel := hamounts level List.mem_cons_self
        refine List.forall_mem_cons.mpr ⟨⟨lt_min hlevel (not_le.mp hwanted), min_le_left _ _⟩, ?_⟩
        exact ih fun other hother => hamounts other (List.mem_cons_of_mem _ hother)

theorem amounts_bestFirst : ∀ level ∈ bestFirst side (bookLevels levels), 0 < level.amount := fun _ hlevel =>
  (bookLevels_pos ((bestFirst_perm side _).mem_iff.mp hlevel)).2

/-- The exact cost of the parts is the least one for a buy, and the greatest for a sell. -/
def Optimal (side : Side) (book : List Level) (parts : List (Level × Int)) : Prop :=
  ∀ way : List (Level × Int), Way way → (way.map (·.1)).Perm book → amountOf way = amountOf parts →
    match side with
    | .buy => costOf parts ≤ costOf way
    | .sell => costOf way ≤ costOf parts

theorem optimal_partsOf (hrequested : 0 ≤ requested) :
    Optimal side (bookLevels levels) (partsOf side requested (bookLevels levels)) := by
  intro way hway hperm hamount
  have hamounts : ∀ level ∈ bestFirst side (bookLevels levels), 0 ≤ level.amount := fun level hlevel =>
    (amounts_bestFirst level hlevel).le
  have hsame := hperm.trans (bestFirst_perm side (bookLevels levels)).symm
  obtain ⟨htotal, hcost⟩ := consumed_sums hamounts hrequested
  rw [partsOf, htotal] at hamount
  have hsorted := sorted_bestFirst side (bookLevels levels)
  cases side with
  | buy =>
      change costOf (consumed _ _) ≤ costOf way
      rw [hcost]
      exact costOf_greedy_le hsorted hamounts hsame hway hamount
  | sell =>
      change costOf way ≤ costOf (consumed _ _)
      rw [hcost]
      exact le_costOf_greedy hsorted hamounts hsame hway hamount

theorem amountOf_partsOf (hrequested : 0 ≤ requested) :
    amountOf (partsOf side requested (bookLevels levels)) = min requested ((bookLevels levels).map (·.amount)).sum := by
  have hamounts : ∀ level ∈ bestFirst side (bookLevels levels), 0 ≤ level.amount := fun level hlevel =>
    (amounts_bestFirst level hlevel).le
  rw [partsOf, (consumed_sums hamounts hrequested).1, amountOf_greedy hamounts hrequested,
    ((bestFirst_perm side (bookLevels levels)).map _).sum_eq]

theorem amountOf_nonneg (hrequested : 0 ≤ requested) : 0 ≤ amountOf (partsOf side requested (bookLevels levels)) := by
  rw [amountOf_partsOf hrequested]
  exact le_min hrequested (List.sum_nonneg (List.forall_mem_map.mpr fun level hlevel => (bookLevels_pos hlevel).2.le))

end Parts

/-- The walk that the parts of a quote come to. -/
def walkOf (requested : Int) (parts : List (Level × Int)) : Walk where
  remaining := requested - amountOf parts
  filled := amountOf parts
  cost := truncatedCost parts
  worstPrice := parts.getLast?.map (·.1.price)
  levelsConsumed := parts.length

/-- A quote for an amount that is read and positive, from a book that is read. -/
theorem getQuote_eq {dto : OrderQuoteDto} {raw : HorizonOrderBookResponse} {requested : Int} {parsed : List Level}
    (hamount : parseFixed dto.amount = .ok requested) (hpositive : 0 < requested)
    (hlevels : (sideLevels dto.side raw).mapM parseLevel = .ok parsed) :
    getQuote dto (.ok raw) = .ok (quoteResult dto requested (bestFirst dto.side (bookLevels parsed))
      (walkOf requested (partsOf dto.side requested (bookLevels parsed)))) := by
  have hwalk := walkLevels_eq (bestFirst dto.side (bookLevels parsed)) ⟨requested, 0, 0, none, 0⟩
  simp only [Int.zero_add, Nat.zero_add, Option.or_none] at hwalk
  rw [getQuote, parseAmount, hamount]
  simp only [Except.bind, if_neg hpositive.not_ge, hlevels, Except.map, hwalk]
  rfl

/-- The quote conserves the amount and takes the levels in their order, all but the last in full, as far as there is
something; and it is optimal. -/
structure Conserved (side : Side) (requested : Int) (book : List Level) (parts : List (Level × Int))
    (result : OrderQuoteResult) : Prop where
  filled : parseFixed result.filledAmount = .ok (amountOf parts)
  unfilled : parseFixed result.unfilledAmount = .ok (requested - amountOf parts)
  depth : amountOf parts = min requested (book.map (·.amount)).sum
  consumed : result.levelsConsumed = parts.length
  inOrder : parts.map (·.1) <+: bestFirst side book
  ownOrder : Sorted side book → parts.map (·.1) <+: book
  taken : ∀ part ∈ parts, 0 < part.2 ∧ part.2 ≤ part.1.amount
  full : ∀ part ∈ parts.dropLast, part.2 = part.1.amount
  cost : result.cost = formatFixed (truncatedCost parts)
  optimal : Optimal side book parts

theorem getQuote_conserved {dto : OrderQuoteDto} {raw : HorizonOrderBookResponse} {requested : Int} {parsed : List Level}
    (hamount : parseFixed dto.amount = .ok requested) (hpositive : 0 < requested)
    (hlevels : (sideLevels dto.side raw).mapM parseLevel = .ok parsed) :
    ∃ result parts, getQuote dto (.ok raw) = .ok result ∧
      Conserved dto.side requested (bookLevels parsed) parts result := by
  have hdepth : amountOf (partsOf dto.side requested (bookLevels parsed)) =
      min requested ((bookLevels parsed).map (·.amount)).sum := amountOf_partsOf hpositive.le
  have hinOrder : (partsOf dto.side requested (bookLevels parsed)).map (·.1) <+: bestFirst dto.side (bookLevels parsed) :=
    consumed_prefix requested _
  refine ⟨_, partsOf dto.side requested (bookLevels parsed), getQuote_eq hamount hpositive hlevels, ?_⟩
  exact
    { filled := parseFixed_formatFixed (amountOf_nonneg hpositive.le)
      unfilled := parseFixed_formatFixed (sub_nonneg.mpr (hdepth.trans_le (min_le_left _ _)))
      depth := hdepth
      consumed := rfl
      inOrder := hinOrder
      ownOrder := fun hsorted => by
        rw [bestFirst_of_sorted hsorted] at hinOrder
        exact hinOrder
      taken := consumed_pos amounts_bestFirst
      full := full_of_mem_dropLast requested _
      cost := rfl
      optimal := optimal_partsOf hpositive.le }

def buyDto (amount : Text) : OrderQuoteDto := ⟨text "XLM", text "USDC:ISSUER", .buy, amount, none⟩

/-- A book that is thinner than what is asked for. -/
def thinBook : HorizonOrderBookResponse :=
  ⟨none, some [⟨text "0.1020000", text "150.0000000"⟩, ⟨text "0.1030000", text "300.0000000"⟩]⟩

theorem getQuote_conserved_thin : ∃ result parts, getQuote (buyDto (text "500")) (.ok thinBook) = .ok result ∧
    Conserved .buy 5000000000 (bookLevels [⟨1020000, 1500000000⟩, ⟨1030000, 3000000000⟩]) parts result :=
  getQuote_conserved (by decide) (by decide) (by decide)

end Savitools.Simulator.QuoteOptimality

namespace Savitools.Simulator.QuotedPrices

open Strings.CodeUnits Fills.Greedy Common.Exceptions Common.Decimal Trades OrderQuotes QuoteOptimality

/-- What truncation drops from the costs of the parts, in ten-millionths of a stroop. -/
def dropped (parts : List (Level × Int)) : Int := (parts.map fun part => part.2 * part.1.price % 10000000).sum

/-- The excess of the exact cost over a price for all parts. -/
def excess (price : Int) (parts : List (Level × Int)) : Int := (parts.map fun part => part.2 * (part.1.price - price)).sum

theorem excess_eq (price : Int) (parts : List (Level × Int)) : excess price parts = costOf parts - price * amountOf parts := by
  induction parts with
  | nil => simp [excess, costOf, amountOf]
  | cons part parts ih =>
      rw [excess, List.map_cons, List.sum_cons, ← excess, ih, costOf_cons, amountOf_cons]
      ring

section Parts

variable {parts : List (Level × Int)}

/-- Before it is truncated, the cost is the sum of what is kept and what is dropped. -/
theorem costOf_eq (hparts : ∀ part ∈ parts, 0 ≤ part.2 * part.1.price) :
    costOf parts = truncatedCost parts * 10000000 + dropped parts := by
  induction parts with
  | nil => rfl
  | cons part parts ih =>
      have hpart : part.2 * part.1.price = mulFixed part.2 part.1.price * 10000000 + part.2 * part.1.price % 10000000 := by
        rw [mulFixed, Int.tdiv_eq_ediv_of_nonneg (hparts part List.mem_cons_self), fixedScale]
        omega
      have hrest := ih fun other hother => hparts other (List.mem_cons_of_mem _ hother)
      rw [costOf_cons, truncatedCost, dropped, List.map_cons, List.map_cons, List.sum_cons, List.sum_cons, ← truncatedCost,
        ← dropped, hrest, Int.add_mul]
      omega

theorem dropped_nonneg : 0 ≤ dropped parts :=
  List.sum_nonneg (List.forall_mem_map.mpr fun _ _ => Int.emod_nonneg _ (by decide))

theorem truncatedCost_nonneg (hparts : ∀ part ∈ parts, 0 ≤ part.2 * part.1.price) : 0 ≤ truncatedCost parts :=
  List.sum_nonneg (List.forall_mem_map.mpr fun part hpart => Int.tdiv_nonneg (hparts part hpart) (by decide))

/-- Prices that are all at most as high cost at most as much. -/
theorem costOf_le {price : Int} (hparts : ∀ part ∈ parts, 0 ≤ part.2 ∧ part.1.price ≤ price) :
    costOf parts ≤ price * amountOf parts := by
  induction parts with
  | nil => simp [costOf, amountOf]
  | cons part parts ih =>
      obtain ⟨hnonneg, hle⟩ := hparts part List.mem_cons_self
      rw [costOf_cons, amountOf_cons, mul_add, mul_comm price part.2]
      exact Int.add_le_add (Int.mul_le_mul_of_nonneg_left hle hnonneg)
        (ih fun other hother => hparts other (List.mem_cons_of_mem _ hother))

theorem averageOf_walkOf {requested : Int} (hfilled : 0 < amountOf parts) (hcost : 0 ≤ truncatedCost parts) :
    averageOf (walkOf requested parts) = some (truncatedCost parts * 10000000 / amountOf parts) := by
  have hne : ¬(walkOf requested parts).filled = 0 := hfilled.ne'
  have hsome : (walkOf requested parts).filled > 0 := hfilled
  rw [averageOf, if_pos hsome, divFixed, if_neg hne]
  refine congrArg some ?_
  exact Int.tdiv_eq_ediv_of_nonneg (Int.mul_nonneg hcost (by decide))

/-- The average is at most every price that is not below the prices of the parts. -/
theorem average_le {price : Int} (hfilled : 0 < amountOf parts) (hparts : ∀ part ∈ parts, 0 ≤ part.2 * part.1.price)
    (hle : ∀ part ∈ parts, 0 ≤ part.2 ∧ part.1.price ≤ price) : truncatedCost parts * 10000000 / amountOf parts ≤ price := by
  refine Int.ediv_le_of_le_mul hfilled ?_
  have hcost := costOf_le hle
  have hexact := costOf_eq hparts
  have hdropped : 0 ≤ dropped parts := dropped_nonneg
  omega

/-- It is at least a price exactly when no more is dropped than the cost exceeds that price. -/
theorem le_average_iff {price : Int} (hfilled : 0 < amountOf parts) (hparts : ∀ part ∈ parts, 0 ≤ part.2 * part.1.price) :
    price ≤ truncatedCost parts * 10000000 / amountOf parts ↔ dropped parts ≤ excess price parts := by
  rw [Int.le_ediv_iff_mul_le hfilled, excess_eq, costOf_eq hparts]
  omega

end Parts

/-- How the prices of a quote are ordered, with all that holds and when the rest does. -/
structure Ordered (side : Side) (parts : List (Level × Int)) (best average worst : Int) : Prop where
  buy : side = .buy → best ≤ worst ∧ average ≤ worst ∧ (best ≤ average ↔ dropped parts ≤ excess best parts)
  sell : side = .sell → worst ≤ best ∧ average ≤ best ∧ (worst ≤ average ↔ dropped parts ≤ excess worst parts)

/-- The prices of sorted parts lie between that of the first one and that of the last. -/
theorem prices_between {side : Side} {parts : List (Level × Int)} {first last : Level × Int}
    (hsorted : Sorted side (parts.map (·.1))) (hfirst : parts.head? = some first) (hlast : parts.getLast? = some last) :
    ∀ part ∈ parts, NoWorse side first.1.price part.1.price ∧ NoWorse side part.1.price last.1.price := by
  rw [Sorted, List.pairwise_map] at hsorted
  intro part hpart
  constructor
  · obtain ⟨rest, rfl⟩ := List.head?_eq_some_iff.mp hfirst
    rcases List.mem_cons.mp hpart with rfl | hrest
    · exact noWorse_refl side _
    · exact (List.pairwise_cons.mp hsorted).1 part hrest
  · obtain ⟨front, rfl⟩ := List.getLast?_eq_some_iff.mp hlast
    rcases List.mem_append.mp hpart with hfront | hback
    · exact (List.pairwise_append.mp hsorted).2.2 part hfront last (List.mem_singleton_self _)
    · rw [List.mem_singleton.mp hback]
      exact noWorse_refl side _

theorem ordered_parts {side : Side} {parts : List (Level × Int)} {first last : Level × Int}
    (hsorted : Sorted side (parts.map (·.1))) (hfirst : parts.head? = some first) (hlast : parts.getLast? = some last)
    (hparts : ∀ part ∈ parts, 0 < part.2 ∧ 0 < part.1.price) (hfilled : 0 < amountOf parts) :
    Ordered side parts first.1.price (truncatedCost parts * 10000000 / amountOf parts) last.1.price := by
  have hbetween := prices_between hsorted hfirst hlast
  have hbest := (hbetween last (List.mem_of_getLast? hlast)).1
  have hproducts : ∀ part ∈ parts, 0 ≤ part.2 * part.1.price := fun part hpart =>
    Int.mul_nonneg (hparts part hpart).1.le (hparts part hpart).2.le
  constructor
  · rintro rfl
    exact ⟨hbest, average_le hfilled hproducts fun part hpart => ⟨(hparts part hpart).1.le, (hbetween part hpart).2⟩,
      le_average_iff hfilled hproducts⟩
  · rintro rfl
    exact ⟨hbest, average_le hfilled hproducts fun part hpart => ⟨(hparts part hpart).1.le, (hbetween part hpart).1⟩,
      le_average_iff hfilled hproducts⟩

/-- Whenever a quote fills something, its prices are ordered as far as truncation leaves them so. -/
theorem getQuote_prices {dto : OrderQuoteDto} {raw : HorizonOrderBookResponse} {requested : Int} {parsed : List Level}
    (hamount : parseFixed dto.amount = .ok requested) (hpositive : 0 < requested)
    (hlevels : (sideLevels dto.side raw).mapM parseLevel = .ok parsed)
    (hfilled : 0 < amountOf (partsOf dto.side requested (bookLevels parsed))) :
    ∃ result best average worst, getQuote dto (.ok raw) = .ok result ∧ result.bestPrice.map parseFixed = some (.ok best) ∧
      result.averagePrice.map parseFixed = some (.ok average) ∧ result.worstPrice.map parseFixed = some (.ok worst) ∧
        Ordered dto.side (partsOf dto.side requested (bookLevels parsed)) best average worst := by
  have hprefix : (partsOf dto.side requested (bookLevels parsed)).map (·.1) <+: bestFirst dto.side (bookLevels parsed) :=
    consumed_prefix requested _
  have hsorted : Sorted dto.side ((partsOf dto.side requested (bookLevels parsed)).map (·.1)) :=
    (sorted_bestFirst dto.side (bookLevels parsed)).sublist hprefix.sublist
  have hparts : ∀ part ∈ partsOf dto.side requested (bookLevels parsed), 0 < part.2 ∧ 0 < part.1.price := by
    intro part hpart
    have hmem := hprefix.subset (List.mem_map_of_mem (f := (·.1)) hpart)
    exact ⟨(consumed_pos amounts_bestFirst part hpart).1, (bookLevels_pos ((bestFirst_perm dto.side _).mem_iff.mp hmem)).1⟩
  have hquote := getQuote_eq hamount hpositive hlevels
  generalize partsOf dto.side requested (bookLevels parsed) = parts at hfilled hprefix hsorted hparts hquote ⊢
  obtain ⟨first, rest, rfl⟩ : ∃ first rest, parts = first :: rest := by
    cases parts with
    | nil => cases hfilled
    | cons first rest => exact ⟨first, rest, rfl⟩
  obtain ⟨last, hlast⟩ : ∃ last, (first :: rest).getLast? = some last := ⟨_, List.getLast?_cons⟩
  have hcost : 0 ≤ truncatedCost (first :: rest) := truncatedCost_nonneg fun part hpart =>
    Int.mul_nonneg (hparts part hpart).1.le (hparts part hpart).2.le
  obtain ⟨others, hothers⟩ := hprefix
  have hhead : (bestFirst dto.side (bookLevels parsed)).head? = some first.1 := by
    rw [← hothers]
    rfl
  refine ⟨_, first.1.price, truncatedCost (first :: rest) * 10000000 / amountOf (first :: rest), last.1.price, hquote, ?_, ?_, ?_,
    ordered_parts hsorted rfl hlast hparts hfilled⟩
  · have hconsumed : (walkOf requested (first :: rest)).levelsConsumed > 0 := Nat.succ_pos _
    rw [quoteResult, hhead]
    dsimp only
    rw [if_pos hconsumed]
    exact congrArg some (parseFixed_formatFixed (hparts first List.mem_cons_self).2.le)
  · rw [quoteResult, averageOf_walkOf hfilled hcost]
    exact congrArg some (parseFixed_formatFixed (Int.ediv_nonneg (Int.mul_nonneg hcost (by decide)) hfilled.le))
  · rw [quoteResult, walkOf, hlast]
    exact congrArg some (parseFixed_formatFixed (hparts last (List.mem_of_getLast? hlast)).2.le)

theorem getQuote_prices_thin : ∃ result best average worst, getQuote (buyDto (text "500")) (.ok thinBook) = .ok result ∧
    result.bestPrice.map parseFixed = some (.ok best) ∧ result.averagePrice.map parseFixed = some (.ok average) ∧
      result.worstPrice.map parseFixed = some (.ok worst) ∧
        Ordered .buy (partsOf .buy 5000000000 (bookLevels [⟨1020000, 1500000000⟩, ⟨1030000, 3000000000⟩])) best average worst :=
  getQuote_prices (by decide) (by decide) (by decide) (by decide)

def halfBook : HorizonOrderBookResponse := ⟨none, some [⟨text "0.5000000", text "1.0000000"⟩]⟩

/-- One stroop at half a unit costs nothing once it is truncated, and so does it on average. -/
theorem not_prices_ordered : ¬∀ dto raw result best average worst, getQuote dto (.ok raw) = .ok result →
    result.bestPrice.map parseFixed = some (.ok best) → result.averagePrice.map parseFixed = some (.ok average) →
      result.worstPrice.map parseFixed = some (.ok worst) →
        (dto.side = .buy → best ≤ average ∧ average ≤ worst) ∧ (dto.side = .sell → worst ≤ average ∧ average ≤ best) := by
  intro h
  have hquote : (getQuote (buyDto (text "0.0000001")) (.ok halfBook)).toOption.map (fun result =>
      (result.bestPrice.map parseFixed, result.averagePrice.map parseFixed, result.worstPrice.map parseFixed)) =
        some (some (.ok 5000000), some (.ok 0), some (.ok 5000000)) := by decide
  obtain ⟨result, hresult, hprices⟩ := Option.map_eq_some_iff.mp hquote
  have hok : getQuote (buyDto (text "0.0000001")) (.ok halfBook) = .ok result := by
    cases hget : getQuote (buyDto (text "0.0000001")) (.ok halfBook) with
    | error error =>
        rw [hget] at hresult
        cases hresult
    | ok other =>
        rw [hget] at hresult
        exact congrArg Except.ok (Option.some.inj hresult)
  rw [Prod.mk.injEq, Prod.mk.injEq] at hprices
  have hbelow := ((h _ _ result _ _ _ hok hprices.1 hprices.2.1 hprices.2.2).1 rfl).1
  exact absurd hbelow (by decide)

end Savitools.Simulator.QuotedPrices
