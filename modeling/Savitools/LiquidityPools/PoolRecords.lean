import Savitools.Json.Roundings
import Savitools.Shares.ProRata
import Savitools.Simulator.PathSimulations
import Savitools.Simulator.SlippageVerdicts
import Savitools.Strings.Utf8

namespace Savitools.LiquidityPools.PoolRecords

open Strings.CodeUnits Strings.Utf8 Json.Doubles Json.Wholes Json.Roundings Shares.ProRata Common.Exceptions
open Simulator Simulator.LpMath Simulator.PathSimulations Simulator.SlippageVerdicts

structure HorizonLpReserve where
  asset : Text
  amount : Text

structure HorizonLpRecord where
  id : Text
  feeBp : Int
  totalShares : Text
  reserves : HorizonLpReserve × HorizonLpReserve
  totalTrustlines : Nat
  type : Text

structure PoolDetails where
  poolId : Text
  network : Text
  assetA : Text
  assetB : Text
  reserveA : Text
  reserveB : Text
  totalShares : Text
  feePct : Text
  totalTrustlines : Nat
  type : Text
  spotPriceAperB : Text
  spotPriceBperA : Text

structure ShareValueResult where
  poolId : Text
  network : Text
  shares : Text
  valueA : Text
  valueB : Text
  sharePercentage : Text
  assetA : Text
  assetB : Text

structure PoolSearchDto where
  assetA : Text
  assetB : Text
  network : Option Text

structure ShareValueDto where
  poolId : Text
  shares : Text
  network : Option Text

/-- What is thrown besides exceptions: by a division by zero, by `BigInt` and by `encodeURIComponent`. -/
inductive Failure
  | exception (exception : Exception)
  | divisionByZero
  | syntaxError
  | uriError
deriving DecidableEq

/-- What Horizon answers; a page need not have records. -/
structure Horizon where
  page : Text → Except Exception (Option (List HorizonLpRecord))
  pool : Text → Except Exception HorizonLpRecord

def stroopsOf (decimal : Text) : Except Failure Int :=
  match toStroops decimal with
  | none => .error .syntaxError
  | some stroops => .ok stroops

/-- `a / b` of bigints. -/
def quotient (a b : Int) : Except Failure Int := (LpMath.divide a b).mapError fun _ => .divisionByZero

def encoded (t : Text) : Except Failure Text :=
  match encodeURIComponent t with
  | none => .error .uriError
  | some e => .ok e

def isConstantProduct (pool : HorizonLpRecord) : Bool := pool.type = text "constant_product"

def formatPoolDetails (pool : HorizonLpRecord) (network : Text) : Except Failure PoolDetails := do
  let (ra, rb) := pool.reserves
  let reserveA ← stroopsOf ra.amount
  let reserveB ← stroopsOf rb.amount
  let spotPriceAperB ← quotient (reserveA * stroop) reserveB
  let spotPriceBperA ← quotient (reserveB * stroop) reserveA
  let feePct := toFixed 2 (div (ofInt pool.feeBp) (ofInt 100))
  return {
    poolId := pool.id
    network := network
    assetA := ra.asset
    assetB := rb.asset
    reserveA := ra.amount
    reserveB := rb.amount
    totalShares := pool.totalShares
    feePct := feePct ++ text "%"
    totalTrustlines := pool.totalTrustlines
    type := pool.type
    spotPriceAperB := fromStroops spotPriceAperB
    spotPriceBperA := fromStroops spotPriceBperA }

def nativeName (asset : Text) : Text := if asset = text "XLM" then text "native" else asset

/-- The URL of a search, once its parameters have passed their checks. -/
def searchUrl (dto : PoolSearchDto) : Except Failure Text := do
  let horizonUrl ← (getHorizonUrl (dto.network.getD (text "testnet"))).mapError .exception
  let _ ← (parseAssetParams dto.assetA).mapError .exception
  let _ ← (parseAssetParams dto.assetB).mapError .exception
  let reserves ← encoded (nativeName dto.assetA ++ unit ',' :: nativeName dto.assetB)
  return horizonUrl ++ text "/liquidity_pools?reserves=" ++ reserves ++ text "&limit=10"

/-- A bad request is thrown as it is. -/
def rethrown (other : Text → Exception) : Exception → Failure
  | .badRequest message => .exception (.badRequest message)
  | error => .exception (other error.message)

def searchPools (horizon : Horizon) (dto : PoolSearchDto) : Except Failure (List PoolDetails) := do
  let url ← searchUrl dto
  let page ← (horizon.page url).mapError (rethrown fun msg => .badRequest (text "Pool search failed: " ++ msg))
  ((page.getD []).filter isConstantProduct).mapM fun pool => formatPoolDetails pool (dto.network.getD (text "testnet"))

def poolUrl (poolId network : Text) : Except Failure Text := do
  let horizonUrl ← (getHorizonUrl network).mapError .exception
  let id ← encoded poolId
  return horizonUrl ++ text "/liquidity_pools/" ++ id

def getPoolDetails (horizon : Horizon) (poolId network : Text) : Except Failure PoolDetails := do
  let url ← poolUrl poolId network
  let pool ← (horizon.pool url).mapError
    (rethrown fun msg => .notFound (text "Pool \"" ++ poolId ++ text "\" not found: " ++ msg))
  if isConstantProduct pool then formatPoolDetails pool network
  else
    .error (.exception (.badRequest (text "Pool \"" ++ poolId ++ text "\" is of type \"" ++ pool.type ++
      text "\". Only constant_product pools are supported.")))

def emptyPool : Failure := .exception (.badRequest (text "Pool has no shares (empty pool)"))

def tooManyShares : Failure := .exception (.badRequest (text "Shares cannot exceed total pool shares"))

def calculateShareValue (horizon : Horizon) (dto : ShareValueDto) : Except Failure ShareValueResult := do
  let network := dto.network.getD (text "testnet")
  let pool ← getPoolDetails horizon dto.poolId network
  let shares ← stroopsOf dto.shares
  let totalShares ← stroopsOf pool.totalShares
  let reserveA ← stroopsOf pool.reserveA
  let reserveB ← stroopsOf pool.reserveB
  if totalShares = 0 then .error emptyPool
  else if totalShares < shares then .error tooManyShares
  else
    let valueA ← quotient (shares * reserveA) totalShares
    let valueB ← quotient (shares * reserveB) totalShares
    let sharePercentage ← quotient (shares * 10000000000) totalShares
    return {
      poolId := pool.poolId
      network := network
      shares := dto.shares
      valueA := fromStroops valueA
      valueB := fromStroops valueB
      sharePercentage := toFixed 8 (div (some (ofBigInt sharePercentage)) (ofInt 100000000))
      assetA := pool.assetA
      assetB := pool.assetB }

/-- The amounts of a record are decimals that are not negative. -/
structure Amounts (pool : HorizonLpRecord) (reserveA reserveB totalShares : Int) : Prop where
  readsA : toStroops pool.reserves.1.amount = some reserveA
  readsB : toStroops pool.reserves.2.amount = some reserveB
  readsShares : toStroops pool.totalShares = some totalShares
  nonnegA : 0 ≤ reserveA
  nonnegB : 0 ≤ reserveB
  nonnegShares : 0 ≤ totalShares

/-- Both reserves of the pool have something. -/
def TwoSided (pool : HorizonLpRecord) : Prop :=
  toStroops pool.reserves.1.amount ≠ some 0 ∧ toStroops pool.reserves.2.amount ≠ some 0

/-- The details are those of the record. -/
structure Describes (pool : HorizonLpRecord) (details : PoolDetails) : Prop where
  poolId : details.poolId = pool.id
  assetA : details.assetA = pool.reserves.1.asset
  assetB : details.assetB = pool.reserves.2.asset
  reserveA : details.reserveA = pool.reserves.1.amount
  reserveB : details.reserveB = pool.reserves.2.amount
  totalShares : details.totalShares = pool.totalShares
  totalTrustlines : details.totalTrustlines = pool.totalTrustlines

/-- The two values of a result, in stroops. -/
def valuesOf (result : Except Failure ShareValueResult) : Option (Int × Int) := do
  let value ← result.toOption
  let valueA ← toStroops value.valueA
  let valueB ← toStroops value.valueB
  some (valueA, valueB)

/-- The share values of a pool: rejected for an empty pool alone and for more shares than there are, otherwise
at most the reserves, and for the parts of some shares at most what these are worth together. -/
structure ShareLaw (value : Text → Except Failure ShareValueResult) (reserveA reserveB totalShares : Int) : Prop where
  divides : ∀ shares, value shares ≠ .error .divisionByZero
  empty : ∀ shares amount, toStroops shares = some amount → (value shares = .error emptyPool ↔ totalShares = 0)
  excess : ∀ shares amount, toStroops shares = some amount → totalShares ≠ 0 → totalShares < amount →
    value shares = .error tooManyShares
  bounded : ∀ shares amount, toStroops shares = some amount → totalShares ≠ 0 → 0 ≤ amount → amount ≤ totalShares →
    ∃ valueA valueB, valuesOf (value shares) = some (valueA, valueB) ∧ valueA ≤ reserveA ∧ valueB ≤ reserveB
  split : ∀ (parts : List (Text × Int)) whole amount, (∀ part ∈ parts, toStroops part.1 = some part.2 ∧ 0 ≤ part.2) →
    toStroops whole = some amount → totalShares ≠ 0 → amount ≤ totalShares → amount = (parts.map (·.2)).foldr (· + ·) 0 →
    ∃ (values : List (Int × Int)) (wholeA wholeB : Int),
      List.Forall₂ (fun part v => valuesOf (value part.1) = some v) parts values ∧
      valuesOf (value whole) = some (wholeA, wholeB) ∧
      (values.map (·.1)).foldr (· + ·) 0 ≤ wholeA ∧ (values.map (·.2)).foldr (· + ·) 0 ≤ wholeB

/-- Whoever asks for the pool gets its details, and values of its shares. -/
def Handled (pool : HorizonLpRecord) : Prop :=
  ∀ (horizon : Horizon) (poolId url : Text) (network : Option Text),
    poolUrl poolId (network.getD (text "testnet")) = .ok url → horizon.pool url = .ok pool →
      (∃ details, getPoolDetails horizon poolId (network.getD (text "testnet")) = .ok details ∧ Describes pool details) ∧
        ∀ reserveA reserveB totalShares, Amounts pool reserveA reserveB totalShares →
          ShareLaw (fun shares => calculateShareValue horizon ⟨poolId, shares, network⟩) reserveA reserveB totalShares

/-- A search has the details of all the pools of the page. -/
def Found (horizon : Horizon) (dto : PoolSearchDto) (pools : List HorizonLpRecord) : Prop :=
  ∃ found, searchPools horizon dto = .ok found ∧ List.Forall₂ Describes pools found

theorem quotient_eq_ok {a b q : Int} : quotient a b = .ok q ↔ b ≠ 0 ∧ a.tdiv b = q := by
  rw [quotient, LpMath.divide]
  split
  next h => simp [Except.mapError, h]
  next h => simp [Except.mapError, h]

theorem stroopsOf_eq_ok {t : Text} {n : Int} : stroopsOf t = .ok n ↔ toStroops t = some n := by
  rw [stroopsOf]
  split
  next h => simp [h]
  next h => simp [h]

theorem formatPoolDetails_eq_ok {pool : HorizonLpRecord} {network : Text} {details : PoolDetails} :
    formatPoolDetails pool network = .ok details ↔ ∃ reserveA reserveB, toStroops pool.reserves.1.amount = some reserveA ∧
      toStroops pool.reserves.2.amount = some reserveB ∧ reserveB ≠ 0 ∧ reserveA ≠ 0 ∧
      details = {
        poolId := pool.id
        network := network
        assetA := pool.reserves.1.asset
        assetB := pool.reserves.2.asset
        reserveA := pool.reserves.1.amount
        reserveB := pool.reserves.2.amount
        totalShares := pool.totalShares
        feePct := toFixed 2 (div (ofInt pool.feeBp) (ofInt 100)) ++ text "%"
        totalTrustlines := pool.totalTrustlines
        type := pool.type
        spotPriceAperB := fromStroops ((reserveA * stroop).tdiv reserveB)
        spotPriceBperA := fromStroops ((reserveB * stroop).tdiv reserveA) } := by
  constructor
  · intro h
    obtain ⟨reserveA, hA, h⟩ := bind_eq_ok.mp h
    obtain ⟨reserveB, hB, h⟩ := bind_eq_ok.mp h
    obtain ⟨spotA, hspotA, h⟩ := bind_eq_ok.mp h
    obtain ⟨spotB, hspotB, h⟩ := bind_eq_ok.mp h
    obtain ⟨hneB, rfl⟩ := quotient_eq_ok.mp hspotA
    obtain ⟨hneA, rfl⟩ := quotient_eq_ok.mp hspotB
    exact ⟨reserveA, reserveB, stroopsOf_eq_ok.mp hA, stroopsOf_eq_ok.mp hB, hneB, hneA, (Except.ok.inj h).symm⟩
  · rintro ⟨reserveA, reserveB, hA, hB, hneB, hneA, rfl⟩
    refine bind_eq_ok.mpr ⟨reserveA, stroopsOf_eq_ok.mpr hA, bind_eq_ok.mpr ⟨reserveB, stroopsOf_eq_ok.mpr hB, ?_⟩⟩
    exact bind_eq_ok.mpr ⟨_, quotient_eq_ok.mpr ⟨hneB, rfl⟩, bind_eq_ok.mpr ⟨_, quotient_eq_ok.mpr ⟨hneA, rfl⟩, rfl⟩⟩

theorem describes_of_format {pool : HorizonLpRecord} {network : Text} {details : PoolDetails}
    (h : formatPoolDetails pool network = .ok details) : Describes pool details := by
  obtain ⟨_, _, -, -, -, -, rfl⟩ := formatPoolDetails_eq_ok.mp h
  exact ⟨rfl, rfl, rfl, rfl, rfl, rfl, rfl⟩

/-- The details of a pool whose amounts are decimals are given when both reserves have something. -/
theorem formatPoolDetails_iff {pool : HorizonLpRecord} {reserveA reserveB totalShares : Int}
    (h : Amounts pool reserveA reserveB totalShares) (network : Text) :
    (∃ details, formatPoolDetails pool network = .ok details) ↔ TwoSided pool := by
  rw [TwoSided, h.readsA, h.readsB, ne_eq, ne_eq, Option.some.injEq, Option.some.injEq]
  constructor
  · rintro ⟨details, hdetails⟩
    obtain ⟨a, b, ha, hb, hneB, hneA, -⟩ := formatPoolDetails_eq_ok.mp hdetails
    cases h.readsA.symm.trans ha
    cases h.readsB.symm.trans hb
    exact ⟨hneA, hneB⟩
  · rintro ⟨hA, hB⟩
    exact ⟨_, formatPoolDetails_eq_ok.mpr ⟨reserveA, reserveB, h.readsA, h.readsB, hB, hA, rfl⟩⟩

theorem getPoolDetails_eq {horizon : Horizon} {poolId network url : Text} {pool : HorizonLpRecord}
    (hurl : poolUrl poolId network = .ok url) (hpool : horizon.pool url = .ok pool) (htype : isConstantProduct pool = true) :
    getPoolDetails horizon poolId network = formatPoolDetails pool network := by
  rw [getPoolDetails, hurl]
  show (Except.mapError _ (horizon.pool url)).bind _ = _
  rw [hpool]
  exact if_pos htype

section Shares

variable {horizon : Horizon} {poolId url : Text} {network : Option Text} {pool : HorizonLpRecord}
variable {reserveA reserveB totalShares : Int}

/-- The pool is found, and has something on both sides. -/
structure Serves (horizon : Horizon) (poolId url : Text) (network : Option Text) (pool : HorizonLpRecord)
    (reserveA reserveB totalShares : Int) : Prop where
  requested : poolUrl poolId (network.getD (text "testnet")) = .ok url
  answers : horizon.pool url = .ok pool
  type : isConstantProduct pool = true
  amounts : Amounts pool reserveA reserveB totalShares
  sided : TwoSided pool

/-- What the value of shares that can be read is computed from. -/
theorem calculateShareValue_eq (h : Serves horizon poolId url network pool reserveA reserveB totalShares) (shares : Text) :
    ∃ details : PoolDetails, calculateShareValue horizon ⟨poolId, shares, network⟩ = (stroopsOf shares).bind fun amount =>
      if totalShares = 0 then .error emptyPool
      else if totalShares < amount then .error tooManyShares
      else (quotient (amount * reserveA) totalShares).bind fun valueA =>
        (quotient (amount * reserveB) totalShares).bind fun valueB =>
          (quotient (amount * 10000000000) totalShares).bind fun sharePercentage => .ok {
            poolId := details.poolId
            network := network.getD (text "testnet")
            shares := shares
            valueA := fromStroops valueA
            valueB := fromStroops valueB
            sharePercentage := toFixed 8 (div (some (ofBigInt sharePercentage)) (ofInt 100000000))
            assetA := details.assetA
            assetB := details.assetB } := by
  obtain ⟨details, hdetails⟩ := (formatPoolDetails_iff h.amounts (network.getD (text "testnet"))).mpr h.sided
  have hdescribes := describes_of_format hdetails
  refine ⟨details, ?_⟩
  rw [calculateShareValue]
  show (getPoolDetails horizon poolId (network.getD (text "testnet"))).bind _ = _
  rw [getPoolDetails_eq h.requested h.answers h.type, hdetails]
  refine congrArg (stroopsOf shares).bind (funext fun amount => ?_)
  show (stroopsOf details.totalShares).bind _ = _
  rw [hdescribes.totalShares, stroopsOf_eq_ok.mpr h.amounts.readsShares]
  show (stroopsOf details.reserveA).bind _ = _
  rw [hdescribes.reserveA, stroopsOf_eq_ok.mpr h.amounts.readsA]
  show (stroopsOf details.reserveB).bind _ = _
  rw [hdescribes.reserveB, stroopsOf_eq_ok.mpr h.amounts.readsB]
  rfl

/-- The outcome for an amount of shares. -/
theorem calculateShareValue_cases (h : Serves horizon poolId url network pool reserveA reserveB totalShares) {shares : Text}
    {amount : Int} (hshares : toStroops shares = some amount) :
    (totalShares = 0 ∧ calculateShareValue horizon ⟨poolId, shares, network⟩ = .error emptyPool) ∨
      (totalShares ≠ 0 ∧ totalShares < amount ∧
        calculateShareValue horizon ⟨poolId, shares, network⟩ = .error tooManyShares) ∨
      (totalShares ≠ 0 ∧ amount ≤ totalShares ∧
        ∃ result, calculateShareValue horizon ⟨poolId, shares, network⟩ = .ok result ∧
          result.valueA = fromStroops (portion amount reserveA totalShares) ∧
          result.valueB = fromStroops (portion amount reserveB totalShares)) := by
  obtain ⟨details, hsteps⟩ := calculateShareValue_eq h shares
  rw [hsteps, stroopsOf_eq_ok.mpr hshares, Except.bind]
  by_cases hempty : totalShares = 0
  · exact .inl ⟨hempty, if_pos hempty⟩
  · rw [if_neg hempty]
    by_cases hexcess : totalShares < amount
    · exact .inr (.inl ⟨hempty, hexcess, if_pos hexcess⟩)
    · rw [if_neg hexcess, quotient_eq_ok.mpr ⟨hempty, rfl⟩, quotient_eq_ok.mpr ⟨hempty, rfl⟩,
        quotient_eq_ok.mpr ⟨hempty, rfl⟩]
      exact .inr (.inr ⟨hempty, Int.not_lt.mp hexcess, _, rfl, rfl, rfl⟩)

theorem valuesOf_portions (h : Serves horizon poolId url network pool reserveA reserveB totalShares) {shares : Text}
    {amount : Int} (hshares : toStroops shares = some amount) (hne : totalShares ≠ 0) (hnonneg : 0 ≤ amount)
    (hle : amount ≤ totalShares) : valuesOf (calculateShareValue horizon ⟨poolId, shares, network⟩) =
      some (portion amount reserveA totalShares, portion amount reserveB totalShares) := by
  have hread {v : Int} (hv : 0 ≤ v) : toStroops (fromStroops v) = some v := by
    have hstroop : stroop = 10000000 := rfl
    rw [StroopTexts.toStroops_fromStroops, if_neg (Int.not_lt.mpr hv), hstroop, Option.some_inj]
    omega
  have htotal : 0 < totalShares := lt_of_le_of_ne h.amounts.nonnegShares (Ne.symm hne)
  rcases calculateShareValue_cases h hshares with ⟨hempty, -⟩ | ⟨-, hexcess, -⟩ | ⟨-, -, result, hresult, hA, hB⟩
  · exact absurd hempty hne
  · omega
  · have hreadA := hread (portion_nonneg htotal hnonneg h.amounts.nonnegA)
    have hreadB := hread (portion_nonneg htotal hnonneg h.amounts.nonnegB)
    rw [← hA] at hreadA
    rw [← hB] at hreadB
    rw [hresult]
    simp [valuesOf, Except.toOption, hreadA, hreadB]

theorem shareLaw_of_serves (h : Serves horizon poolId url network pool reserveA reserveB totalShares) :
    ShareLaw (fun shares => calculateShareValue horizon ⟨poolId, shares, network⟩) reserveA reserveB totalShares where
  divides shares hdivision := by
    cases hshares : toStroops shares with
    | none =>
        obtain ⟨details, hsteps⟩ := calculateShareValue_eq h shares
        simp only [hsteps, stroopsOf, hshares] at hdivision
        cases hdivision
    | some amount =>
        rcases calculateShareValue_cases h hshares with ⟨-, heq⟩ | ⟨-, -, heq⟩ | ⟨-, -, result, heq, -⟩ <;>
          cases heq.symm.trans hdivision
  empty shares amount hshares := by
    rcases calculateShareValue_cases h hshares with ⟨hempty, heq⟩ | ⟨hne, -, heq⟩ | ⟨hne, -, result, heq, -⟩
    · exact iff_of_true heq hempty
    · refine iff_of_false (fun herror => ?_) hne
      exact absurd (Except.error.inj (heq.symm.trans herror)) (by decide)
    · refine iff_of_false (fun herror => ?_) hne
      cases heq.symm.trans herror
  excess shares amount hshares hne hexcess := by
    rcases calculateShareValue_cases h hshares with ⟨hempty, -⟩ | ⟨-, -, heq⟩ | ⟨-, hle, -⟩
    · exact absurd hempty hne
    · exact heq
    · omega
  bounded shares amount hshares hne hnonneg hle := by
    have htotal : 0 < totalShares := lt_of_le_of_ne h.amounts.nonnegShares (Ne.symm hne)
    exact ⟨_, _, valuesOf_portions h hshares hne hnonneg hle,
      portion_le_reserve htotal hnonneg hle h.amounts.nonnegA, portion_le_reserve htotal hnonneg hle h.amounts.nonnegB⟩
  split parts whole amount hparts hwhole hne hle hsum := by
    have htotal : 0 < totalShares := lt_of_le_of_ne h.amounts.nonnegShares (Ne.symm hne)
    have hnonneg : ∀ x ∈ parts.map (·.2), 0 ≤ x := by
      intro x hx
      obtain ⟨part, hpart, rfl⟩ := List.mem_map.mp hx
      exact (hparts part hpart).2
    have hamount : 0 ≤ amount := hsum ▸ foldr_nonneg hnonneg
    refine ⟨parts.map fun part => (portion part.2 reserveA totalShares, portion part.2 reserveB totalShares), _, _,
      List.forall₂_map_right_iff.mpr (List.forall₂_same.mpr fun part hpart => ?_),
      valuesOf_portions h hwhole hne hamount hle, ?_, ?_⟩
    · obtain ⟨hread, hpos⟩ := hparts part hpart
      refine valuesOf_portions h hread hne hpos (le_trans ?_ hle)
      exact hsum ▸ le_foldr hnonneg (List.mem_map_of_mem hpart)
    · have hportions := foldr_portion_le htotal h.amounts.nonnegA hnonneg
      rw [List.map_map] at hportions ⊢
      exact hsum ▸ hportions
    · have hportions := foldr_portion_le htotal h.amounts.nonnegB hnonneg
      rw [List.map_map] at hportions ⊢
      exact hsum ▸ hportions

end Shares

theorem handled_iff {pool : HorizonLpRecord} (htype : isConstantProduct pool = true) {reserveA reserveB totalShares : Int}
    (h : Amounts pool reserveA reserveB totalShares) : Handled pool ↔ TwoSided pool := by
  constructor
  · intro hhandled
    have hurl : poolUrl [] (text "testnet") = .ok (text "https://horizon-testnet.stellar.org/liquidity_pools/") := by
      have hencoded : encoded [] = .ok [] := by
        rw [encoded, encodeURIComponent.eq_def]
      rw [poolUrl, hencoded]
      rfl
    let horizon : Horizon := ⟨fun _ => .ok none, fun _ => .ok pool⟩
    have hanswers : horizon.pool (text "https://horizon-testnet.stellar.org/liquidity_pools/") = .ok pool := rfl
    obtain ⟨⟨details, hdetails, -⟩, -⟩ := hhandled horizon [] _ none hurl hanswers
    exact (formatPoolDetails_iff h _).mp ⟨details, (getPoolDetails_eq hurl hanswers htype).symm.trans hdetails⟩
  · intro hsided horizon poolId url network hurl hanswers
    refine ⟨?_, fun _ _ _ hamounts => shareLaw_of_serves ⟨hurl, hanswers, htype, hamounts, hsided⟩⟩
    rw [getPoolDetails_eq hurl hanswers htype]
    obtain ⟨details, hdetails⟩ := (formatPoolDetails_iff h _).mpr hsided
    exact ⟨details, hdetails, describes_of_format hdetails⟩

theorem found_iff {horizon : Horizon} {dto : PoolSearchDto} {url : Text} {records : List HorizonLpRecord}
    (hurl : searchUrl dto = .ok url) (hpage : horizon.page url = .ok (some records))
    (h : ∀ pool ∈ records.filter isConstantProduct, ∃ reserveA reserveB totalShares,
      Amounts pool reserveA reserveB totalShares) :
    Found horizon dto (records.filter isConstantProduct) ↔ ∀ pool ∈ records.filter isConstantProduct, TwoSided pool := by
  have hsearch : searchPools horizon dto = (records.filter isConstantProduct).mapM fun pool =>
      formatPoolDetails pool (dto.network.getD (text "testnet")) := by
    rw [searchPools, hurl]
    show (Except.mapError _ (horizon.page url)).bind _ = _
    rw [hpage]
    rfl
  rw [Found, hsearch]
  constructor
  · rintro ⟨found, hfound, -⟩ pool hpool
    obtain ⟨_, _, _, hamounts⟩ := h pool hpool
    obtain ⟨details, -, hdetails⟩ := (mapM_ok hfound).1 pool hpool
    exact (formatPoolDetails_iff hamounts _).mp ⟨details, hdetails⟩
  · intro hsided
    obtain ⟨found, hfound⟩ := exists_mapM_ok fun pool hpool => by
      obtain ⟨_, _, _, hamounts⟩ := h pool hpool
      exact (formatPoolDetails_iff hamounts (dto.network.getD (text "testnet"))).mpr (hsided pool hpool)
    exact ⟨found, hfound, (forall₂_of_mapM hfound).imp fun _ _ => describes_of_format⟩

/-- Pools with something on both sides are handled, no others, and one pool of another kind spoils a search. -/
theorem pools_handled_iff {records : List HorizonLpRecord} (h : ∀ pool ∈ records.filter isConstantProduct,
    ∃ reserveA reserveB totalShares, Amounts pool reserveA reserveB totalShares) {horizon : Horizon} {dto : PoolSearchDto}
    {url : Text} (hurl : searchUrl dto = .ok url) (hpage : horizon.page url = .ok (some records)) :
    (Found horizon dto (records.filter isConstantProduct) ↔ ∀ pool ∈ records.filter isConstantProduct, TwoSided pool) ∧
      ∀ pool ∈ records.filter isConstantProduct, Handled pool ↔ TwoSided pool := by
  refine ⟨found_iff hurl hpage h, fun pool hpool => ?_⟩
  obtain ⟨_, _, _, hamounts⟩ := h pool hpool
  exact handled_iff (List.mem_filter.mp hpool).2 hamounts

def issuer : Text := text "GBBD47IF6LWK7P7MDEVSCWR7DPUWV3NY3DTQEVFL4NAT4AQH3ZLLFLA5"

def sampleRecord (reserveB totalShares : String) : HorizonLpRecord where
  id := text "a468d41d"
  feeBp := 30
  totalShares := text totalShares
  reserves := (⟨text "native", text "100.0000000"⟩, ⟨text "USDC:" ++ issuer, text reserveB⟩)
  totalTrustlines := 2
  type := text "constant_product"

def sampleHorizon (records : List HorizonLpRecord) : Horizon := ⟨fun _ => .ok (some records), fun _ => .error (.notFound [])⟩

def sampleSearch : PoolSearchDto := ⟨text "XLM", text "USDC:" ++ issuer, none⟩

theorem amounts_sampleRecord : Amounts (sampleRecord "25.5000000" "50.0000000") 1000000000 255000000 500000000 :=
  ⟨by decide, by decide, by decide, by decide, by decide, by decide⟩

theorem amounts_emptyRecord : Amounts (sampleRecord "0.0000000" "0.0000000") 1000000000 0 0 :=
  ⟨by decide, by decide, by decide, by decide, by decide, by decide⟩

theorem searchUrl_eq_ok {dto : PoolSearchDto} {base e : Text} {a b}
    (hbase : getHorizonUrl (dto.network.getD (text "testnet")) = .ok base) (ha : parseAssetParams dto.assetA = .ok a)
    (hb : parseAssetParams dto.assetB = .ok b) (he : encoded (nativeName dto.assetA ++ unit ',' :: nativeName dto.assetB) = .ok e) :
    searchUrl dto = .ok (base ++ text "/liquidity_pools?reserves=" ++ e ++ text "&limit=10") := by
  rw [searchUrl, hbase, ha, hb, he]
  rfl

theorem encoded_pair : ∃ e, encoded (text "native" ++ unit ',' :: (text "USDC:" ++ issuer)) = .ok e := by
  have hissuer := @encodeURIComponent_append issuer [] (by decide)
  have hcolon : encodeURIComponent (unit ':' :: issuer) = (encodeURIComponent issuer).map (text "%3A" ++ ·) := by
    rw [encodeURIComponent.eq_def]
    rfl
  have hcode := @encodeURIComponent_append (text "USDC") (unit ':' :: issuer) (by decide)
  have hcomma : encodeURIComponent (unit ',' :: (text "USDC:" ++ issuer)) =
      (encodeURIComponent (text "USDC:" ++ issuer)).map (text "%2C" ++ ·) := by
    rw [encodeURIComponent.eq_def]
    rfl
  have hname := @encodeURIComponent_append (text "native") (unit ',' :: (text "USDC:" ++ issuer)) (by decide)
  rw [List.append_nil] at hissuer
  rw [hcolon, hissuer] at hcode
  have hasset : encodeURIComponent (text "USDC:" ++ issuer) = encodeURIComponent (text "USDC" ++ unit ':' :: issuer) := rfl
  rw [hcomma, hasset, hcode] at hname
  rw [encoded, hname]
  exact ⟨_, rfl⟩

theorem searchUrl_sampleSearch : ∃ url, searchUrl sampleSearch = .ok url := by
  obtain ⟨e, he⟩ := encoded_pair
  have hnative : nativeName (text "XLM") = text "native" := if_pos rfl
  have hasset : nativeName (text "USDC:" ++ issuer) = text "USDC:" ++ issuer := if_neg (by decide)
  rw [← hnative, ← hasset] at he
  exact ⟨_, searchUrl_eq_ok rfl rfl rfl he⟩

/-- A pool with 100 native lumens and 25.5 dollars is found. -/
theorem sample_pools_handled :
    Found (sampleHorizon [sampleRecord "25.5000000" "50.0000000"]) sampleSearch
      ([sampleRecord "25.5000000" "50.0000000"].filter isConstantProduct) := by
  have hpools : [sampleRecord "25.5000000" "50.0000000"].filter isConstantProduct = [sampleRecord "25.5000000" "50.0000000"] :=
    List.filter_cons_of_pos (decide_eq_true rfl)
  obtain ⟨url, hurl⟩ := searchUrl_sampleSearch
  refine ((pools_handled_iff ?_ hurl rfl).1).mpr ?_
  · rw [hpools]
    exact List.forall_mem_singleton.mpr ⟨_, _, _, amounts_sampleRecord⟩
  · rw [hpools]
    refine List.forall_mem_singleton.mpr ⟨?_, ?_⟩
    · rw [amounts_sampleRecord.readsA]
      decide
    · rw [amounts_sampleRecord.readsB]
      decide

/-- A pool of lumens alone takes the search down. -/
theorem not_pools_handled : ¬∀ (records : List HorizonLpRecord) (horizon : Horizon) (dto : PoolSearchDto) (url : Text),
    (∀ pool ∈ records.filter isConstantProduct, ∃ reserveA reserveB totalShares, Amounts pool reserveA reserveB totalShares) →
    searchUrl dto = .ok url → horizon.page url = .ok (some records) →
      Found horizon dto (records.filter isConstantProduct) ∧ ∀ pool ∈ records.filter isConstantProduct, Handled pool := by
  intro h
  have hpools : [sampleRecord "0.0000000" "0.0000000"].filter isConstantProduct = [sampleRecord "0.0000000" "0.0000000"] :=
    List.filter_cons_of_pos (decide_eq_true rfl)
  have hamounts : ∀ pool ∈ [sampleRecord "0.0000000" "0.0000000"].filter isConstantProduct,
      ∃ reserveA reserveB totalShares, Amounts pool reserveA reserveB totalShares := by
    rw [hpools]
    exact List.forall_mem_singleton.mpr ⟨_, _, _, amounts_emptyRecord⟩
  obtain ⟨url, hurl⟩ := searchUrl_sampleSearch
  have hfound := (h _ (sampleHorizon [sampleRecord "0.0000000" "0.0000000"]) sampleSearch url hamounts hurl rfl).1
  rw [found_iff hurl rfl hamounts, hpools, List.forall_mem_singleton] at hfound
  exact hfound.2 amounts_emptyRecord.readsB

end Savitools.LiquidityPools.PoolRecords
