import Mathlib.Data.List.DropRight
import Savitools.Json.Doubles
import Savitools.Strings.Utf8
import Savitools.Transitions.Folds

namespace Savitools.Wallet.AssetControl

open Strings.CodeUnits Strings.Decimals Strings.Utf8 Json.Numbers Json.Conversions Json.Doubles Transitions.Loops

inductive AssetControlErrorCode
  | INVALID_ASSET
  | HORIZON_ERROR

/-- What is thrown: a rejection with its code, or an error of the platform. -/
inductive Thrown
  | failure (code : AssetControlErrorCode) (message : Text)
  | error (message : Text)

structure Asset where
  code : Text
  issuer : Text

/-- `new Asset(code, issuer)` of the SDK; what it throws has a message when it is an `Error`. -/
abbrev NewAsset := Text → Text → Except (Option Text) Asset

structure HorizonTrustlineBalance where
  assetCode : Option Text
  assetIssuer : Option Text
  balance : Text
  limit : Option Text
  isAuthorized : Option Bool
  isAuthorizedToMaintainLiabilities : Option Bool
  isClawbackEnabled : Option Bool

structure HorizonAccountRecord where
  accountId : Text
  balances : Option (List HorizonTrustlineBalance)

structure HorizonPage where
  records : Option (List HorizonAccountRecord) := none
  next : Option Text := none

/-- What a request ends with. The body may not be a page, and may not be readable. -/
inductive Response
  | thrown (message : Option Text)
  | answered (status : Nat) (statusText : Text) (json : Except Text HorizonPage) (body : Option Text)

structure TrustlineRow where
  account : Text
  balance : Text
  limit : Option Text
  authorized : Bool
  authorizedToMaintainLiabilities : Bool
  clawbackEnabled : Bool

structure TrustlineFilters where
  authorized : Option Bool := none
  clawbackEnabled : Option Bool := none
  minBalance : Option Double := none
  maxBalance : Option Double := none
  account : Option Text := none

structure TrustlinesResult where
  asset : Asset
  total : Nat
  fetched : Nat
  pages : Nat
  truncated : Bool
  trustlines : List TrustlineRow

def HORIZON_PAGE_LIMIT : Nat := 200

def MAX_TRUSTLINE_PAGES : Nat := 50

/-- `/^G[A-Z2-7]{55}$/` -/
def isIssuerKey : Text → Bool
  | [] => false
  | u :: key => u == unit 'G' && key.length == 55 && key.all (fun v => between 'A' 'Z' v || between '2' '7' v)

def baseUrl (serverUrl : Option Text) : Text :=
  match serverUrl.filter (· ≠ []) with
  | some url => url.rdropWhile (· == unit '/')
  | none => text "https://horizon-testnet.stellar.org"

def parseAsset (newAsset : NewAsset) (code issuer : Text) : Except Thrown Asset :=
  if !isIssuerKey issuer then
    .error (.failure .INVALID_ASSET
      (text "Invalid asset issuer \"" ++ issuer ++ text "\": expected a 56-character Stellar public key"))
  else if code = [] then .error (.failure .INVALID_ASSET (text "Asset code is required"))
  else
    (newAsset code issuer).mapError fun message =>
      .failure .INVALID_ASSET (text "Invalid asset " ++ code ++ text ":" ++ issuer ++ text ": " ++
        message.getD (text "unknown error"))

def firstUrl (serverUrl : Option Text) (asset : Asset) : Except Thrown Text :=
  match encodeURIComponent (asset.code ++ text ":" ++ asset.issuer) with
  | some assetParam =>
      .ok (baseUrl serverUrl ++ text "/accounts?asset=" ++ assetParam ++ text "&limit=" ++ ofNat HORIZON_PAGE_LIMIT ++
        text "&order=asc")
  | none => .error (.error (text "URI malformed"))

/-- A filtered query with nothing to return can be answered with 404. -/
def fetchPage : Response → Except Thrown HorizonPage
  | .thrown message =>
      .error (.failure .HORIZON_ERROR (text "Horizon request failed: " ++ message.getD (text "unknown error")))
  | .answered status statusText json body =>
      if 200 ≤ status ∧ status ≤ 299 then json.mapError .error
      else if status = 404 then .ok {}
      else
        .error (.failure .HORIZON_ERROR (text "Horizon returned " ++ ofNat status ++ text ": " ++
          (body.filter (· ≠ [])).getD statusText))

def isOfAsset (asset : Asset) (entry : HorizonTrustlineBalance) : Bool :=
  entry.assetCode = some asset.code && entry.assetIssuer = some asset.issuer

def trustlineRow (account : Text) (balance : HorizonTrustlineBalance) : TrustlineRow where
  account := account
  balance := balance.balance
  limit := balance.limit
  authorized := balance.isAuthorized.getD true
  authorizedToMaintainLiabilities := balance.isAuthorizedToMaintainLiabilities.getD false
  clawbackEnabled := balance.isClawbackEnabled.getD false

def accountRow (asset : Asset) (account : HorizonAccountRecord) : Option TrustlineRow :=
  ((account.balances.getD []).find? (isOfAsset asset)).map (trustlineRow account.accountId)

/-- `a >= b` -/
def atLeast : Double → Double → Bool
  | some a, some b => !exceeds b a
  | _, _ => false

/-- Whether a row stays in, one filter after another. -/
def passesFilters (beyondAscii : Text → Text) (filters : TrustlineFilters) (row : TrustlineRow) : Bool :=
  filters.authorized.all (row.authorized == ·) && filters.clawbackEnabled.all (row.clawbackEnabled == ·) &&
    filters.minBalance.all (atLeast (parseFloat row.balance)) &&
    filters.maxBalance.all (atLeast · (parseFloat row.balance)) &&
    (filters.account.filter (· ≠ [])).all fun account =>
      toLowerCase beyondAscii account <:+: toLowerCase beyondAscii row.account

/-- What the loop keeps. -/
structure Scan where
  url : Option Text
  rows : List TrustlineRow := []
  pages : Nat := 0
  truncated : Bool := false

def readPage (asset : Asset) (page : HorizonPage) (scan : Scan) : Scan where
  url := page.next
  rows := scan.rows ++ (page.records.getD []).filterMap (accountRow asset)
  pages := scan.pages + 1
  truncated := scan.truncated || page.next.any (· ≠ []) && MAX_TRUSTLINE_PAGES ≤ scan.pages + 1

/-- What Horizon answers to the requests of a scan, by their number and their address. -/
abbrev Horizon := Nat → Text → Response

def scanPass (horizon : Horizon) (asset : Asset) (scan : Scan) : Pass Scan Text (Except Thrown Scan) :=
  match scan.url.filter fun url => url ≠ [] ∧ scan.pages < MAX_TRUSTLINE_PAGES with
  | none => ⟨[], .inr (.ok scan)⟩
  | some url =>
      match fetchPage (horizon scan.pages url) with
      | .error thrown => ⟨[url], .inr (.error thrown)⟩
      | .ok page => ⟨[url], .inl (readPage asset page scan)⟩

def report (beyondAscii : Text → Text) (code issuer : Text) (filters : TrustlineFilters) (scan : Scan) : TrustlinesResult :=
  let trustlines := scan.rows.filter (passesFilters beyondAscii filters)
  { asset := ⟨code, issuer⟩
    total := trustlines.length
    fetched := scan.rows.length
    pages := scan.pages
    truncated := scan.truncated
    trustlines := trustlines }

/-- What the service has besides the request. -/
structure Service where
  newAsset : NewAsset
  serverUrl : Option Text
  horizon : Horizon
  beyondAscii : Text → Text

/-- The requests that are made, and what is returned or thrown. -/
def getTrustlines (service : Service) (code issuer : Text) (filters : TrustlineFilters) :
    Trace Text (Except Thrown TrustlinesResult) :=
  match (parseAsset service.newAsset code issuer).bind fun asset => (firstUrl service.serverUrl asset).map (asset, ·) with
  | .error thrown => ⟨[], some (.error thrown)⟩
  | .ok (asset, url) =>
      (iterate (scanPass service.horizon asset) (MAX_TRUSTLINE_PAGES + 1) { url := some url }).map
        (·.map (report service.beyondAscii code issuer filters))

theorem scanPass_ends {horizon : Horizon} {asset : Asset} {scan next : Scan}
    (h : (scanPass horizon asset scan).outcome = .inl next) :
    MAX_TRUSTLINE_PAGES - next.pages < MAX_TRUSTLINE_PAGES - scan.pages := by
  rw [scanPass] at h
  split at h
  next => cases h
  next url hurl =>
    have hpages := (of_decide_eq_true (Option.filter_eq_some_iff.mp hurl).2).2
    split at h
    next => cases h
    next page _ =>
      cases h
      exact Nat.sub_lt_sub_left hpages (Nat.lt_succ_self _)

/-- Whatever Horizon answers, the scan ends. -/
theorem getTrustlines_ends (service : Service) (code issuer : Text) (filters : TrustlineFilters) :
    ∃ result, (getTrustlines service code issuer filters).result = some result := by
  rw [getTrustlines]
  split
  next thrown _ => exact ⟨.error thrown, rfl⟩
  next asset url _ =>
    obtain ⟨ended, hended⟩ := iterate_ends (fun scan : Scan => MAX_TRUSTLINE_PAGES - scan.pages)
      (fun _ _ => @scanPass_ends service.horizon asset _ _)
      (Nat.lt_succ_self (MAX_TRUSTLINE_PAGES - ({ url := some url } : Scan).pages))
    exact ⟨_, congrArg (Option.map _) hended⟩

end Savitools.Wallet.AssetControl

namespace Savitools.Wallet.TrustlineScans

open Strings.CodeUnits Strings.Decimals Strings.Utf8 Transitions.Loops AssetControl

/-- An account that holds the asset, with its trustline. -/
structure Holder (asset : Asset) where
  account : HorizonAccountRecord
  trustline : HorizonTrustlineBalance
  holds : (account.balances.getD []).find? (isOfAsset asset) = some trustline

variable {service : Service} {asset : Asset} {pages : List (List (Holder asset))} {link : Nat → Text}

def Holder.row (holder : Holder asset) : TrustlineRow := trustlineRow holder.account.accountId holder.trustline

/-- Horizon serves the holders in pages: each request is answered with the next page and a link to the one behind it,
and past the last page there are empty ones. -/
structure Served (service : Service) (asset : Asset) (pages : List (List (Holder asset))) (link : Nat → Text) : Prop where
  first : firstUrl service.serverUrl asset = .ok (link 0)
  linked : ∀ k, link k ≠ []
  answers : ∀ k, fetchPage (service.horizon k (link k)) =
    .ok ⟨some ((pages.getD k []).map Holder.account), some (link (k + 1))⟩
  nonempty : ∀ page ∈ pages, page ≠ []
  distinct : (pages.flatten.map fun holder => holder.account.accountId).Nodup

/-- What a scan with these requests should report. -/
structure Complete (beyondAscii : Text → Text) (filters : TrustlineFilters) (pages : List (List (Holder asset)))
    (requested : List Text) (result : TrustlinesResult) : Prop where
  ordered : (result.trustlines.map (·.account)).Sublist (pages.flatten.map fun holder => holder.account.accountId)
  once : (result.trustlines.map (·.account)).Nodup
  all : pages.length ≤ MAX_TRUSTLINE_PAGES →
    result.trustlines = (pages.flatten.map Holder.row).filter (passesFilters beyondAscii filters)
  truncated : result.truncated = true ↔ ∃ holder ∈ pages.flatten, holder ∉ (pages.take requested.length).flatten
  requests : requested.length ≤ pages.length + 1
  filtered : result.trustlines =
    ((pages.take requested.length).flatten.map Holder.row).filter (passesFilters beyondAscii filters)

/-- The loop after so many pages. -/
def scanAfter (pages : List (List (Holder asset))) (link : Nat → Text) (k : Nat) : Scan where
  url := some (link k)
  rows := (pages.take k).flatten.map Holder.row
  pages := k
  truncated := MAX_TRUSTLINE_PAGES ≤ k

theorem filterMap_accountRow (holders : List (Holder asset)) :
    (holders.map Holder.account).filterMap (accountRow asset) = holders.map Holder.row := by
  rw [List.filterMap_map, ← List.filterMap_eq_map]
  refine List.filterMap_congr fun holder _ => ?_
  simp only [Function.comp_apply, accountRow, holder.holds]
  rfl

theorem take_succ_flatten (k : Nat) : (pages.take (k + 1)).flatten = (pages.take k).flatten ++ pages.getD k [] := by
  rw [List.take_add_one, List.flatten_append, List.getD_eq_getElem?_getD]
  cases pages[k]? <;> simp

theorem scanPass_served (h : Served service asset pages link) {k : Nat} (hk : k < MAX_TRUSTLINE_PAGES) :
    scanPass service.horizon asset (scanAfter pages link k) = ⟨[link k], .inl (scanAfter pages link (k + 1))⟩ := by
  have hurl : (scanAfter pages link k).url.filter
      (fun url => url ≠ [] ∧ (scanAfter pages link k).pages < MAX_TRUSTLINE_PAGES) = some (link k) :=
    Option.filter_eq_some_iff.mpr ⟨rfl, decide_eq_true ⟨h.linked k, hk⟩⟩
  have hnext : readPage asset ⟨some ((pages.getD k []).map Holder.account), some (link (k + 1))⟩ (scanAfter pages link k) =
      scanAfter pages link (k + 1) := by
    have hearly : decide (MAX_TRUSTLINE_PAGES ≤ k) = false := decide_eq_false (Nat.not_le.mpr hk)
    simp only [readPage, scanAfter, Option.getD_some, filterMap_accountRow, take_succ_flatten, List.map_append, hearly,
      Bool.false_or, Option.any_some, h.linked (k + 1), ne_eq, not_false_eq_true, decide_true, Bool.true_and]
  rw [scanPass, hurl]
  simp only [h.answers k, show (scanAfter pages link k).pages = k from rfl, hnext]

/-- Horizon always gives a link to go on with, so only the cap ends the scan. -/
theorem getTrustlines_served (code issuer : Text) (filters : TrustlineFilters)
    (hasset : parseAsset service.newAsset code issuer = .ok asset) (h : Served service asset pages link) :
    getTrustlines service code issuer filters = ⟨(List.range MAX_TRUSTLINE_PAGES).map link,
      some (.ok (report service.beyondAscii code issuer filters (scanAfter pages link MAX_TRUSTLINE_PAGES)))⟩ := by
  have hstart : ({ url := some (link 0) } : Scan) = scanAfter pages link 0 := by
    rw [scanAfter, List.take_zero]
    rfl
  have hstop : iterate (scanPass service.horizon asset) 1 (scanAfter pages link MAX_TRUSTLINE_PAGES) =
      ⟨[], some (.ok (scanAfter pages link MAX_TRUSTLINE_PAGES))⟩ := by
    have hurl : (scanAfter pages link MAX_TRUSTLINE_PAGES).url.filter
        (fun url => url ≠ [] ∧ (scanAfter pages link MAX_TRUSTLINE_PAGES).pages < MAX_TRUSTLINE_PAGES) = none :=
      Option.filter_eq_none_iff.mpr fun url _ hmore => Nat.lt_irrefl _ (of_decide_eq_true hmore).2
    have hpass : scanPass service.horizon asset (scanAfter pages link MAX_TRUSTLINE_PAGES) =
        ⟨[], .inr (.ok (scanAfter pages link MAX_TRUSTLINE_PAGES))⟩ := by
      rw [scanPass, hurl]
    rw [iterate_inr (congrArg Pass.outcome hpass), congrArg Pass.actions hpass]
  have hactions : ((List.range MAX_TRUSTLINE_PAGES).flatMap fun k =>
      (scanPass service.horizon asset (scanAfter pages link k)).actions) = (List.range MAX_TRUSTLINE_PAGES).map link := by
    rw [List.map_eq_flatMap]
    refine List.flatMap_congr fun k hk => ?_
    rw [scanPass_served h (List.mem_range.mp hk)]
  rw [getTrustlines, hasset]
  simp only [Except.bind, h.first, Except.map]
  rw [hstart, iterate_known (fun k hk => congrArg Pass.outcome (scanPass_served h hk)), hstop, hactions]
  simp only [Trace.after, List.append_nil]
  rfl

theorem take_all_iff (h : Served service asset pages link) (n : Nat) :
    (∃ holder ∈ pages.flatten, holder ∉ (pages.take n).flatten) ↔ n < pages.length := by
  constructor
  · rintro ⟨holder, hholder, hunread⟩
    refine Nat.lt_of_not_le fun hle => hunread ?_
    rwa [List.take_of_length_le hle]
  · intro hn
    obtain ⟨holder, hholder⟩ := List.exists_mem_of_ne_nil _ (h.nonempty pages[n] (List.getElem_mem hn))
    have hdrop : holder ∈ (pages.drop n).flatten := by
      rw [List.drop_eq_getElem_cons hn]
      exact List.mem_flatten_of_mem List.mem_cons_self hholder
    have hsplit : pages.flatten = (pages.take n).flatten ++ (pages.drop n).flatten := by
      rw [← List.flatten_append, List.take_append_drop]
    refine ⟨holder, hsplit ▸ List.mem_append_right _ hdrop, fun htake => ?_⟩
    have hdistinct := hsplit ▸ h.distinct.of_map
    exact (List.nodup_append.mp hdistinct).2.2 holder htake holder hdrop rfl

theorem listed_sublist (beyondAscii : Text → Text) (filters : TrustlineFilters) (n : Nat) :
    (((((pages.take n).flatten.map Holder.row).filter (passesFilters beyondAscii filters))).map (·.account)).Sublist
      (pages.flatten.map fun holder => holder.account.accountId) := by
  have hrows : (pages.flatten.map fun holder => holder.account.accountId) =
      (pages.flatten.map Holder.row).map (·.account) := by
    rw [List.map_map]
    rfl
  rw [hrows]
  have hread : (pages.take n).flatten.Sublist pages.flatten := by
    rw [← List.take_append_drop n pages, List.flatten_append, List.take_append_drop]
    exact List.sublist_append_left _ _
  exact (List.filter_sublist.trans (hread.map _)).map _

/-- The scan is complete, and says so, exactly when the holders do not fit in the pages that it reads at most. -/
theorem getTrustlines_complete_iff (code issuer : Text) (filters : TrustlineFilters)
    (hasset : parseAsset service.newAsset code issuer = .ok asset) (h : Served service asset pages link) :
    (∃ result, (getTrustlines service code issuer filters).result = some (.ok result) ∧
        Complete service.beyondAscii filters pages (getTrustlines service code issuer filters).actions result) ↔
      MAX_TRUSTLINE_PAGES < pages.length := by
  have hlength : ((List.range MAX_TRUSTLINE_PAGES).map link).length = MAX_TRUSTLINE_PAGES := by
    rw [List.length_map, List.length_range]
  rw [getTrustlines_served code issuer filters hasset h]
  constructor
  · rintro ⟨result, hresult, hcomplete⟩
    cases hresult
    have hunread := hcomplete.truncated.mp (decide_eq_true (Nat.le_refl MAX_TRUSTLINE_PAGES))
    rwa [hlength, take_all_iff h] at hunread
  · intro hmany
    refine ⟨_, rfl, ?_⟩
    have hordered := @listed_sublist asset pages service.beyondAscii filters MAX_TRUSTLINE_PAGES
    exact
      { ordered := hordered
        once := h.distinct.sublist hordered
        all := fun hfew => absurd hmany (Nat.not_lt.mpr hfew)
        truncated := by
          rw [hlength, take_all_iff h]
          exact iff_of_true (decide_eq_true (Nat.le_refl MAX_TRUSTLINE_PAGES)) hmany
        requests := by
          rw [hlength]
          exact Nat.le_succ_of_le (Nat.le_of_lt hmany)
        filtered := by
          rw [hlength]
          rfl }

def sampleAsset : Asset := ⟨text "USDC", text "GAAZI4TCR3TY5OJHCTJC2A4QSY6CJWJH5IAJTGKIN2ER7LBNVKOCCWN7"⟩

def sampleHolder (account : Text) : Holder sampleAsset where
  account := ⟨account, some [⟨some sampleAsset.code, some sampleAsset.issuer, text "5.0000000", none, none, none, none⟩]⟩
  trustline := ⟨some sampleAsset.code, some sampleAsset.issuer, text "5.0000000", none, none, none, none⟩
  holds := List.find?_cons_of_pos (by rw [isOfAsset, decide_eq_true rfl, decide_eq_true rfl, Bool.and_true])

def sampleUrl : Text :=
  text "https://horizon-testnet.stellar.org/accounts?asset=USDC%3A" ++ sampleAsset.issuer ++ text "&limit=200&order=asc"

def sampleLink (k : Nat) : Text := if k = 0 then sampleUrl else sampleUrl ++ text "&cursor=" ++ ofNat k

def sampleService (pages : List (List (Holder sampleAsset))) : Service where
  newAsset code issuer := .ok ⟨code, issuer⟩
  serverUrl := none
  horizon k _ := .answered 200 (text "OK") (.ok ⟨some ((pages.getD k []).map Holder.account), some (sampleLink (k + 1))⟩) none
  beyondAscii := id

theorem sample_served {pages : List (List (Holder sampleAsset))} (hnonempty : ∀ page ∈ pages, page ≠ [])
    (hdistinct : (pages.flatten.map fun holder => holder.account.accountId).Nodup) :
    Served (sampleService pages) sampleAsset pages sampleLink where
  first := by
    have hencoded : encodeURIComponent (sampleAsset.code ++ text ":" ++ sampleAsset.issuer) =
        some (text "USDC%3A" ++ sampleAsset.issuer) := by
      have hcolon : encodeURIComponent (unit ':' :: sampleAsset.issuer) =
          (encodeURIComponent sampleAsset.issuer).map (text "%3A" ++ ·) := by
        rw [encodeURIComponent.eq_def]
        rfl
      have hissuer := @encodeURIComponent_append sampleAsset.issuer [] (by decide)
      have hcode := @encodeURIComponent_append sampleAsset.code (unit ':' :: sampleAsset.issuer) (by decide)
      rw [List.append_nil] at hissuer
      rw [hcolon, hissuer] at hcode
      rw [List.append_assoc]
      exact hcode
    have hquery : text "&limit=" ++ (ofNat HORIZON_PAGE_LIMIT ++ text "&order=asc") = text "&limit=200&order=asc" := by
      decide
    have hbase : baseUrl none ++ (text "/accounts?asset=" ++ text "USDC%3A") =
        text "https://horizon-testnet.stellar.org/accounts?asset=USDC%3A" := by decide
    rw [firstUrl, hencoded, sampleLink, if_pos rfl, sampleUrl, ← hbase, ← hquery]
    simp only [List.append_assoc]
    rfl
  linked k := by
    rw [sampleLink]
    split
    · decide
    · exact List.append_ne_nil_of_left_ne_nil (List.append_ne_nil_of_left_ne_nil (by decide) _) _
  answers k := rfl
  nonempty := hnonempty
  distinct := hdistinct

def manyPages : List (List (Holder sampleAsset)) := (List.range 51).map fun k => [sampleHolder (text "G" ++ ofNat k)]

theorem getTrustlines_complete_many : ∃ result,
    (getTrustlines (sampleService manyPages) sampleAsset.code sampleAsset.issuer {}).result = some (.ok result) ∧
      Complete id {} manyPages (getTrustlines (sampleService manyPages) sampleAsset.code sampleAsset.issuer {}).actions
        result := by
  refine (getTrustlines_complete_iff _ _ _ (by rfl) (sample_served (fun page hpage => ?_) ?_)).mpr (by decide)
  · obtain ⟨k, -, rfl⟩ := List.mem_map.mp hpage
    exact List.cons_ne_nil _ _
  · have hids : manyPages.flatten.map (fun holder => holder.account.accountId) =
        (List.range 51).map fun k => text "G" ++ ofNat k := by
      rw [manyPages, ← List.flatMap_def, List.map_flatMap, List.map_eq_flatMap]
      rfl
    rw [hids]
    exact List.nodup_range.map fun j k hjk => ofNat_inj (List.append_cancel_left hjk)

/-- An asset with one holder: the scan goes on over the empty pages and says that it was cut short. -/
theorem not_getTrustlines_complete : ¬∀ (pages : List (List (Holder sampleAsset))),
    Served (sampleService pages) sampleAsset pages sampleLink → ∃ result,
      (getTrustlines (sampleService pages) sampleAsset.code sampleAsset.issuer {}).result = some (.ok result) ∧
        Complete id {} pages (getTrustlines (sampleService pages) sampleAsset.code sampleAsset.issuer {}).actions result := by
  intro h
  let pages := [[sampleHolder sampleAsset.issuer]]
  have hserved : Served (sampleService pages) sampleAsset pages sampleLink :=
    sample_served (List.forall_mem_singleton.mpr (List.cons_ne_nil _ _)) (List.nodup_singleton _)
  obtain ⟨result, hresult, hcomplete⟩ := h pages hserved
  rw [getTrustlines_served sampleAsset.code sampleAsset.issuer {} (by rfl) hserved] at hresult hcomplete
  cases hresult
  obtain ⟨holder, hholder, hunread⟩ := hcomplete.truncated.mp (by decide)
  exact hunread hholder

end Savitools.Wallet.TrustlineScans
