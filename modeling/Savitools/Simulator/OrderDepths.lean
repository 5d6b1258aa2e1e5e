import Savitools.Json.Roundings
import Savitools.Simulator.OrderQuotes

namespace Savitools.Simulator.OrderDepths

open Strings.CodeUnits Json.Numbers Json.Doubles Json.Wholes Json.Roundings Common.Exceptions Common.Decimal OrderQuotes

structure OrderbookLevel where
  price : Text
  amount : Text
  cumulativeAmount : Text
  cumulativePercent : Double

/-- The analytics of a book, without the time. -/
structure OrderbookResult where
  selling : Text
  buying : Text
  network : OrderbookNetwork
  spread : Text
  spreadBps : Double
  midPrice : Text
  bestBid : Text
  bestAsk : Text
  liquidityScore : Number
  bids : List OrderbookLevel
  asks : List OrderbookLevel

structure ParsedLevel where
  raw : HorizonLevel
  price : Int
  amount : Int

inductive BookSide
  | bids
  | asks
deriving DecidableEq

def parseLevels (levels : List HorizonLevel) : Except Exception (List ParsedLevel) :=
  levels.mapM fun raw =>
    (parseAmount raw.price).bind fun price => (parseAmount raw.amount).map fun amount => ⟨raw, price, amount⟩

def sumAmounts (levels : List ParsedLevel) : Int := levels.foldl (fun sum level => sum + level.amount) 0

/-- `numerator / denominator` where the denominator is positive, and zero where it is not. -/
def ratioRound (numerator denominator : Int) : Except Exception Int :=
  if 0 < denominator then (divRound numerator denominator).mapError .error else .ok 0

/-- The levels that are built from a running total on. -/
def buildFrom (total : Int) : Int → List ParsedLevel → Except Exception (List OrderbookLevel)
  | _, [] => .ok []
  | cumulative, level :: levels => do
      let cumulative := cumulative + level.amount
      let percentBps ← ratioRound (cumulative * 10000) total
      let rest ← buildFrom total cumulative levels
      return {
        price := level.raw.price
        amount := level.raw.amount
        cumulativeAmount := formatFixed cumulative
        cumulativePercent := div (some (ofBigInt percentBps)) (ofInt 100) } :: rest

def buildLevels (levels : List ParsedLevel) : Except Exception (List OrderbookLevel) :=
  buildFrom (sumAmounts levels) 0 levels

def withinRange (midTwice : Int) (side : BookSide) (level : ParsedLevel) : Bool :=
  let scaled := level.price * 200
  match side with
  | .bids => midTwice * 99 ≤ scaled
  | .asks => scaled ≤ midTwice * 101

def volumeWithinOnePercent (levels : List ParsedLevel) (midTwice : Int) (side : BookSide) : Int :=
  levels.foldl (fun sum level => if withinRange midTwice side level then sum + level.amount else sum) 0

def bestPrice (levels : List ParsedLevel) : Int := (levels.head?.map ParsedLevel.price).getD 0

def twoSided (bestBid bestAsk : Int) : Bool := 0 < bestBid ∧ 0 < bestAsk

/-- Twice the mid; of a book with one side, twice its price. -/
def midTwice (bestBid bestAsk : Int) : Int :=
  if twoSided bestBid bestAsk then bestBid + bestAsk else if 0 < bestBid then bestBid * 2 else bestAsk * 2

/-- `Math.min(100, x)` -/
def atMostHundred (x : Number) : Number := if exceeds x (.ofInt 100) then .ofInt 100 else x

def computeOrderbook (selling buying : Text) (network : OrderbookNetwork) (raw : HorizonOrderBookResponse) :
    Except Exception OrderbookResult := do
  let rawBids := raw.bids.getD []
  let rawAsks := raw.asks.getD []
  let bids ← parseLevels rawBids
  let asks ← parseLevels rawAsks
  let mid := midTwice (bestPrice bids) (bestPrice asks)
  let midPrice := (mid + 1).tdiv 2
  let spread := if twoSided (bestPrice bids) (bestPrice asks) then bestPrice asks - bestPrice bids else 0
  let spreadBpsHundredths ← ratioRound (spread * 2000000) mid
  let totalVolume := sumAmounts bids + sumAmounts asks
  let volumeWithin1Pct := volumeWithinOnePercent bids mid .bids + volumeWithinOnePercent asks mid .asks
  let score ← ratioRound (volumeWithin1Pct * 100) totalVolume
  let builtBids ← buildLevels bids
  let builtAsks ← buildLevels asks
  return {
    selling := selling
    buying := buying
    network := network
    spread := formatFixed spread
    spreadBps := div (some (ofBigInt spreadBpsHundredths)) (ofInt 100)
    midPrice := formatFixed midPrice
    bestBid := (rawBids.head?.map HorizonLevel.price).getD (text "0")
    bestAsk := (rawAsks.head?.map HorizonLevel.price).getD (text "0")
    liquidityScore := atMostHundred (ofBigInt score)
    bids := builtBids
    asks := builtAsks }

/-- The price of a level, as a number. -/
def ParsedLevel.value (level : ParsedLevel) : Rat := level.price / fixedScale

/-- The exact mid of the best prices; of a book with one side, its best price. -/
def exactMid (bestBid bestAsk : Rat) : Rat :=
  if 0 < bestBid ∧ 0 < bestAsk then (bestBid + bestAsk) / 2 else if 0 < bestBid then bestBid else bestAsk

/-- Within one percent of the mid, on the side that is nearer to it. -/
def InBand (mid : Rat) (side : BookSide) (price : Rat) : Prop :=
  match side with
  | .bids => 99 / 100 * mid ≤ price
  | .asks => price ≤ 101 / 100 * mid

instance decidableInBand (mid : Rat) : ∀ side, DecidablePred (InBand mid side)
  | .bids => fun price => inferInstanceAs (Decidable (99 / 100 * mid ≤ price))
  | .asks => fun price => inferInstanceAs (Decidable (price ≤ 101 / 100 * mid))

/-- The depths of the levels do not fall, up to the total, of which the last one has a hundred percent. -/
structure Cumulative (levels : List ParsedLevel) (built : List OrderbookLevel) : Prop where
  depths : ∃ depths : List Int,
    List.Forall₂ (fun level depth => parseFixed level.cumulativeAmount = .ok depth) built depths ∧
    depths.Pairwise (· ≤ ·) ∧ depths.length = levels.length ∧ ∀ depth ∈ depths.getLast?, depth = sumAmounts levels
  last : 0 < sumAmounts levels → ∃ level, built.getLast? = some level ∧ level.cumulativePercent = ofInt 100

/-- The volume in the band is that of the levels whose prices are in it, and at most all of it. -/
structure Banded (levels : List ParsedLevel) (mid : Rat) (side : BookSide) (volume : Int) : Prop where
  counted : volume = sumAmounts (levels.filter fun level => InBand mid side level.value)
  nonneg : 0 ≤ volume
  bounded : volume ≤ sumAmounts levels

/-- The analytics agree with each other, and the score is that of the two bands. -/
structure Consistent (bids asks : List ParsedLevel) (result : OrderbookResult) : Prop where
  bidDepths : Cumulative bids result.bids
  askDepths : Cumulative asks result.asks
  bidBand : Banded bids (exactMid (bestPrice bids / fixedScale) (bestPrice asks / fixedScale)) .bids
    (volumeWithinOnePercent bids (midTwice (bestPrice bids) (bestPrice asks)) .bids)
  askBand : Banded asks (exactMid (bestPrice bids / fixedScale) (bestPrice asks / fixedScale)) .asks
    (volumeWithinOnePercent asks (midTwice (bestPrice bids) (bestPrice asks)) .asks)
  score : (ratioRound ((volumeWithinOnePercent bids (midTwice (bestPrice bids) (bestPrice asks)) .bids +
    volumeWithinOnePercent asks (midTwice (bestPrice bids) (bestPrice asks)) .asks) * 100)
    (sumAmounts bids + sumAmounts asks)).map ofBigInt = .ok result.liquidityScore

section Ratios

theorem ratioRound_eq {a b : Int} (hb : 0 < b) : ∃ q, ratioRound a b = .ok q ∧ NearestAway (a / b) q := by
  obtain ⟨q, hq, hnearest⟩ := divRound_nearest (a := a) hb.ne'
  refine ⟨q, ?_, hnearest⟩
  rw [ratioRound, if_pos hb, hq]
  rfl

theorem exists_ratioRound (a b : Int) : ∃ q, ratioRound a b = .ok q := by
  by_cases hb : 0 < b
  · obtain ⟨q, hq, -⟩ := ratioRound_eq (a := a) hb
    exact ⟨q, hq⟩
  · exact ⟨0, if_neg hb⟩

theorem ratioRound_mul {a n : Int} (ha : 0 < a) : ratioRound (a * n) a = .ok n := by
  obtain ⟨q, hq, hnearest⟩ := ratioRound_eq (a := a * n) ha
  have hne : (a : Rat) ≠ 0 := by exact_mod_cast ha.ne'
  rw [Int.cast_mul, mul_div_cancel_left₀ _ hne] at hnearest
  rw [hq, nearestAway_whole hnearest]

/-- A part is at most a hundred percent, also when it's rounded. -/
theorem ratioRound_percent {part whole q : Int} (hpart : 0 ≤ part) (hle : part ≤ whole)
    (h : ratioRound (part * 100) whole = .ok q) : 0 ≤ q ∧ q ≤ 100 := by
  by_cases hwhole : 0 < whole
  · obtain ⟨r, hr, hnearest⟩ := ratioRound_eq (a := part * 100) hwhole
    cases hr.symm.trans h
    have hpos : (0 : Rat) < whole := by exact_mod_cast hwhole
    have hlow : (0 : Rat) ≤ (part * 100 : Int) / whole :=
      div_nonneg (by exact_mod_cast Int.mul_nonneg hpart (by decide)) hpos.le
    have hhigh : ((part * 100 : Int) : Rat) / whole ≤ 100 := by
      rw [div_le_iff₀ hpos]
      exact_mod_cast (by omega : part * 100 ≤ 100 * whole)
    exact ⟨hnearest.le_of_ge (by exact_mod_cast hlow), hnearest.le_of_le (by exact_mod_cast hhigh)⟩
  · rw [ratioRound, if_neg hwhole] at h
    cases h
    decide

end Ratios

section Levels

variable {levels : List ParsedLevel}

theorem sumAmounts_cons (level : ParsedLevel) (levels : List ParsedLevel) :
    sumAmounts (level :: levels) = level.amount + sumAmounts levels := by
  have hshift (ls : List ParsedLevel) (sum : Int) :
      ls.foldl (fun sum level => sum + level.amount) sum = sum + ls.foldl (fun sum level => sum + level.amount) 0 := by
    induction ls generalizing sum with
    | nil => exact (Int.add_zero sum).symm
    | cons l ls ih => rw [List.foldl_cons, ih, List.foldl_cons, ih (0 + l.amount), Int.zero_add, Int.add_assoc]
  rw [sumAmounts, List.foldl_cons, hshift, Int.zero_add, sumAmounts]

theorem sumAmounts_nonneg (h : ∀ level ∈ levels, 0 ≤ level.amount) : 0 ≤ sumAmounts levels := by
  induction levels with
  | nil => exact le_rfl
  | cons level levels ih =>
      obtain ⟨hlevel, hlevels⟩ := List.forall_mem_cons.mp h
      rw [sumAmounts_cons]
      exact Int.add_nonneg hlevel (ih hlevels)

theorem sumAmounts_filter_le (h : ∀ level ∈ levels, 0 ≤ level.amount) (p : ParsedLevel → Bool) :
    sumAmounts (levels.filter p) ≤ sumAmounts levels := by
  induction levels with
  | nil => exact le_rfl
  | cons level levels ih =>
      obtain ⟨hlevel, hlevels⟩ := List.forall_mem_cons.mp h
      have hrest := ih hlevels
      rw [List.filter_cons, sumAmounts_cons]
      split
      next =>
        rw [sumAmounts_cons]
        omega
      next => omega

theorem amounts_nonneg {raw : List HorizonLevel} (h : parseLevels raw = .ok levels) :
    ∀ level ∈ levels, 0 ≤ level.amount := by
  intro level hlevel
  obtain ⟨horizon, -, hparsed⟩ := (mapM_ok h).2 level hlevel
  obtain ⟨price, -, hparsed⟩ := bind_eq_ok.mp hparsed
  obtain ⟨amount, hamount, rfl⟩ := map_eq_ok_iff.mp hparsed
  rw [parseAmount] at hamount
  split at hamount
  next => cases hamount
  next hfixed =>
    cases hamount
    exact parseFixed_nonneg hfixed

/-- The running totals of the levels. -/
def depthsFrom : Int → List ParsedLevel → List Int
  | _, [] => []
  | cumulative, level :: levels => (cumulative + level.amount) :: depthsFrom (cumulative + level.amount) levels

theorem length_depthsFrom (cumulative : Int) (levels : List ParsedLevel) :
    (depthsFrom cumulative levels).length = levels.length := by
  induction levels generalizing cumulative with
  | nil => rfl
  | cons level levels ih => rw [depthsFrom, List.length_cons, ih, List.length_cons]

theorem getLast_depthsFrom (cumulative : Int) (levels : List ParsedLevel) :
    ∀ depth ∈ (depthsFrom cumulative levels).getLast?, depth = cumulative + sumAmounts levels := by
  induction levels generalizing cumulative with
  | nil => simp [depthsFrom]
  | cons level levels ih =>
      intro depth hdepth
      rw [sumAmounts_cons, ← Int.add_assoc]
      rw [depthsFrom, List.getLast?_cons] at hdepth
      cases hlast : (depthsFrom (cumulative + level.amount) levels).getLast? with
      | none =>
          obtain rfl : levels = [] := by
            rw [List.getLast?_eq_none_iff] at hlast
            exact List.eq_nil_of_length_eq_zero (by rw [← length_depthsFrom, hlast]; rfl)
          rw [hlast] at hdepth
          have hsum : sumAmounts [] = 0 := rfl
          rw [hsum, Int.add_zero]
          simpa using hdepth.symm
      | some last =>
          rw [hlast] at hdepth
          have heq := ih (cumulative + level.amount) last hlast
          rw [← heq]
          simpa using hdepth.symm

theorem pairwise_depthsFrom (h : ∀ level ∈ levels, 0 ≤ level.amount) (cumulative : Int) :
    (∀ depth ∈ depthsFrom cumulative levels, cumulative ≤ depth) ∧
      (depthsFrom cumulative levels).Pairwise (· ≤ ·) := by
  induction levels generalizing cumulative with
  | nil => exact ⟨List.forall_mem_nil _, List.Pairwise.nil⟩
  | cons level levels ih =>
      obtain ⟨hlevel, hlevels⟩ := List.forall_mem_cons.mp h
      obtain ⟨hlow, hpairs⟩ := ih hlevels (cumulative + level.amount)
      refine ⟨List.forall_mem_cons.mpr ⟨by omega, fun depth hdepth => ?_⟩, List.pairwise_cons.mpr ⟨hlow, hpairs⟩⟩
      have hle := hlow depth hdepth
      omega

/-- The levels are built for any total, with the running totals as their depths and percents. -/
theorem buildFrom_spec (h : ∀ level ∈ levels, 0 ≤ level.amount) (total : Int) {cumulative : Int}
    (hcumulative : 0 ≤ cumulative) :
    ∃ built, buildFrom total cumulative levels = .ok built ∧
      List.Forall₂ (fun level depth => parseFixed level.cumulativeAmount = .ok depth ∧
        ∀ q, ratioRound (depth * 10000) total = .ok q → level.cumulativePercent = div (some (ofBigInt q)) (ofInt 100))
        built (depthsFrom cumulative levels) := by
  induction levels generalizing cumulative with
  | nil => exact ⟨[], rfl, .nil⟩
  | cons level levels ih =>
      obtain ⟨hlevel, hlevels⟩ := List.forall_mem_cons.mp h
      have hdepth := Int.add_nonneg hcumulative hlevel
      obtain ⟨rest, hrest, hdepths⟩ := ih hlevels hdepth
      obtain ⟨bps, hbps⟩ := exists_ratioRound ((cumulative + level.amount) * 10000) total
      refine ⟨_, bind_eq_ok.mpr ⟨bps, hbps, bind_eq_ok.mpr ⟨rest, hrest, rfl⟩⟩,
        .cons ⟨?_, fun q hq => ?_⟩ hdepths⟩
      · exact parseFixed_formatFixed hdepth
      · cases hbps.symm.trans hq
        dsimp only

theorem div_hundred {x : Number} (hx : x = .ofInt 10000) : div (some x) (ofInt 100) = ofInt 100 := by
  have hne : Rat.ofInt 100 ≠ 0 := by decide
  have hquotient : Rat.ofInt 10000 / Rat.ofInt 100 = Rat.ofInt 100 :=
    (by norm_num : ((10000 : Int) : Rat) / ((100 : Int) : Rat) = ((100 : Int) : Rat))
  have hround : Json.Doubles.round (Rat.ofInt 100) = .ofInt 100 := round_ofInt (by decide)
  simp only [hx, div, ofInt, Number.ofInt, Json.Roundings.divide]
  rw [if_pos hne, hquotient, hround, Number.ofInt]

theorem getLast_of_forall₂ {α β : Type} {R : α → β → Prop} {xs : List α} {ys : List β}
    (h : List.Forall₂ R xs ys) {y : β} (hy : ys.getLast? = some y) : ∃ x, xs.getLast? = some x ∧ R x y := by
  have hreverse := List.rel_reverse h
  rw [List.getLast?_eq_head?_reverse] at hy ⊢
  generalize xs.reverse = xs' at hreverse ⊢
  generalize ys.reverse = ys' at hreverse hy
  cases hreverse with
  | nil => cases hy
  | cons hxy _ =>
      cases hy
      exact ⟨_, rfl, hxy⟩

theorem cumulative_buildLevels (h : ∀ level ∈ levels, 0 ≤ level.amount) :
    ∃ built, buildLevels levels = .ok built ∧ Cumulative levels built := by
  obtain ⟨built, hbuilt, hdepths⟩ := buildFrom_spec h (sumAmounts levels) le_rfl
  have hlast := getLast_depthsFrom 0 levels
  rw [Int.zero_add] at hlast
  refine ⟨built, hbuilt, ⟨⟨depthsFrom 0 levels, hdepths.imp fun _ _ => And.left, (pairwise_depthsFrom h 0).2,
    length_depthsFrom 0 levels, hlast⟩, fun htotal => ?_⟩⟩
  have hne : depthsFrom 0 levels ≠ [] := by
    intro hnil
    have hlength := length_depthsFrom 0 levels
    rw [hnil] at hlength
    rw [List.eq_nil_of_length_eq_zero hlength.symm] at htotal
    exact absurd htotal (by decide)
  obtain ⟨depth, hdepth⟩ := Option.ne_none_iff_exists'.mp fun hnone => hne (List.getLast?_eq_none_iff.mp hnone)
  obtain ⟨level, hlevel, -, hpercent⟩ := getLast_of_forall₂ hdepths hdepth
  refine ⟨level, hlevel, ?_⟩
  rw [hpercent 10000 (by rw [hlast depth hdepth]; exact ratioRound_mul htotal),
    div_hundred (exact_of_le (by decide) (by decide))]

end Levels

section Bands

theorem midTwice_eq (bestBid bestAsk : Int) :
    exactMid (bestBid / fixedScale) (bestAsk / fixedScale) = midTwice bestBid bestAsk / 2 / fixedScale := by
  have hscale : (0 : Rat) < fixedScale := by
    have hpos : 0 < fixedScale := by decide
    exact_mod_cast hpos
  have hpositive (n : Int) : (0 : Rat) < n / fixedScale ↔ 0 < n := by
    rw [lt_div_iff₀ hscale, zero_mul]
    exact Int.cast_pos
  simp only [exactMid, midTwice, twoSided, hpositive, decide_eq_true_eq]
  split
  next =>
    push_cast
    ring
  next =>
    split
    next =>
      push_cast
      ring
    next =>
      push_cast
      ring

/-- The test of the code is that of the exact prices. -/
theorem withinRange_iff (mid : Int) (side : BookSide) (level : ParsedLevel) :
    withinRange mid side level = true ↔ InBand (mid / 2 / fixedScale) side level.value := by
  have hscale : (0 : Rat) < fixedScale := by
    have hpos : 0 < fixedScale := by decide
    exact_mod_cast hpos
  cases side with
  | bids =>
      rw [withinRange, InBand, ParsedLevel.value, decide_eq_true_eq, le_div_iff₀ hscale]
      have hcancel : 99 / 100 * ((mid : Rat) / 2 / fixedScale) * fixedScale = mid * 99 / 200 := by
        field_simp
        ring
      rw [hcancel, div_le_iff₀ (by norm_num)]
      exact_mod_cast Iff.rfl
  | asks =>
      rw [withinRange, InBand, ParsedLevel.value, decide_eq_true_eq, div_le_iff₀ hscale]
      have hcancel : 101 / 100 * ((mid : Rat) / 2 / fixedScale) * fixedScale = mid * 101 / 200 := by
        field_simp
        ring
      rw [hcancel, le_div_iff₀ (by norm_num)]
      exact_mod_cast Iff.rfl

theorem banded_volume {levels : List ParsedLevel} (h : ∀ level ∈ levels, 0 ≤ level.amount) (mid : Int)
    (side : BookSide) :
    Banded levels (mid / 2 / fixedScale) side (volumeWithinOnePercent levels mid side) := by
  have hcounted : volumeWithinOnePercent levels mid side = sumAmounts (levels.filter (withinRange mid side)) := by
    rw [volumeWithinOnePercent, sumAmounts, List.foldl_filter]
  have hfilter : levels.filter (withinRange mid side) =
      levels.filter fun level => InBand (mid / 2 / fixedScale) side level.value :=
    List.filter_congr fun level _ => Bool.eq_iff_iff.mpr ((withinRange_iff mid side level).trans decide_eq_true_iff.symm)
  refine ⟨hcounted.trans (congrArg sumAmounts hfilter), ?_, ?_⟩
  · rw [hcounted]
    exact sumAmounts_nonneg fun level hlevel => h level (List.mem_of_mem_filter hlevel)
  · rw [hcounted]
    exact sumAmounts_filter_le h _

end Bands

theorem atMostHundred_ofBigInt {n : Int} (hn : 0 ≤ n) (hle : n ≤ 100) : atMostHundred (ofBigInt n) = ofBigInt n := by
  have hexact : ofBigInt n = .ofInt n := exact_of_le hn (hle.trans (by decide))
  have hmost : exceeds (.ofInt n) (.ofInt 100) = false :=
    decide_eq_false (not_lt.mpr ((Int.cast_le (R := Rat)).mpr hle))
  rw [atMostHundred, hexact, hmost, if_neg Bool.false_ne_true]

/-- The analytics of a book whose prices and amounts are decimals are computed, and agree. -/
theorem orderbook_consistent {raw : HorizonOrderBookResponse} {bids asks : List ParsedLevel}
    (hbids : parseLevels (raw.bids.getD []) = .ok bids) (hasks : parseLevels (raw.asks.getD []) = .ok asks)
    (selling buying : Text) (network : OrderbookNetwork) :
    ∃ result, computeOrderbook selling buying network raw = .ok result ∧ Consistent bids asks result := by
  have hbidAmounts := amounts_nonneg hbids
  have haskAmounts := amounts_nonneg hasks
  obtain ⟨builtBids, hbuiltBids, hbidDepths⟩ := cumulative_buildLevels hbidAmounts
  obtain ⟨builtAsks, hbuiltAsks, haskDepths⟩ := cumulative_buildLevels haskAmounts
  have hbidBand := banded_volume hbidAmounts (midTwice (bestPrice bids) (bestPrice asks)) .bids
  have haskBand := banded_volume haskAmounts (midTwice (bestPrice bids) (bestPrice asks)) .asks
  obtain ⟨spreadBps, hspreadBps⟩ := exists_ratioRound ((if twoSided (bestPrice bids) (bestPrice asks) then
    bestPrice asks - bestPrice bids else 0) * 2000000) (midTwice (bestPrice bids) (bestPrice asks))
  obtain ⟨score, hscore⟩ := exists_ratioRound ((volumeWithinOnePercent bids (midTwice (bestPrice bids) (bestPrice asks)) .bids +
    volumeWithinOnePercent asks (midTwice (bestPrice bids) (bestPrice asks)) .asks) * 100) (sumAmounts bids + sumAmounts asks)
  have hpercent := ratioRound_percent (Int.add_nonneg hbidBand.nonneg haskBand.nonneg)
    (Int.add_le_add hbidBand.bounded haskBand.bounded) hscore
  refine ⟨_, bind_eq_ok.mpr ⟨bids, hbids, bind_eq_ok.mpr ⟨asks, hasks, bind_eq_ok.mpr ⟨spreadBps, hspreadBps,
    bind_eq_ok.mpr ⟨score, hscore, bind_eq_ok.mpr ⟨builtBids, hbuiltBids, bind_eq_ok.mpr ⟨builtAsks, hbuiltAsks, rfl⟩⟩⟩⟩⟩⟩, ?_⟩
  exact
    { bidDepths := hbidDepths
      askDepths := haskDepths
      bidBand := by rw [midTwice_eq]; exact hbidBand
      askBand := by rw [midTwice_eq]; exact haskBand
      score := by
        dsimp only
        rw [atMostHundred_ofBigInt hpercent.1 hpercent.2]
        exact map_eq_ok_iff.mpr ⟨score, hscore, Eq.refl _⟩ }

theorem narrow_book_consistent :
    ∃ result, computeOrderbook (text "XLM") (text "USD") .testnet
      ⟨some [⟨text "0.2", text "10"⟩, ⟨text "0.19", text "5.5"⟩], some [⟨text "0.201", text "7"⟩]⟩ = .ok result ∧
      Consistent [⟨⟨text "0.2", text "10"⟩, 2000000, 100000000⟩, ⟨⟨text "0.19", text "5.5"⟩, 1900000, 55000000⟩]
        [⟨⟨text "0.201", text "7"⟩, 2010000, 70000000⟩] result :=
  orderbook_consistent rfl rfl (text "XLM") (text "USD") .testnet

end Savitools.Simulator.OrderDepths
