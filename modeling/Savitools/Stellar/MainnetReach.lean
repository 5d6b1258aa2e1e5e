import Savitools.Net.Urls
import Savitools.Stellar.Endpoints

namespace Savitools.Stellar.MainnetReach

open Strings.CodeUnits Net.Urls Net.PlainUrls Common.Exceptions Endpoints

def publicHost : Text := text "horizon.stellar.org"

def defaultUrls : List Text :=
  [[], text "http://localhost:8000", text "http://localhost:8000/friendbot", text "http://localhost:8000/soroban/rpc",
    text "https://horizon-testnet.stellar.org", text "https://friendbot.stellar.org",
    text "https://soroban-rpc-testnet.stellar.org"]

variable {Url : Type} (urls : Urls Url)

def OnPublicHost (t : Text) : Prop := ∃ url, urls.parse t = some url ∧ urls.hostname url = publicHost

/-- The hosts of the default endpoints are their own. -/
def HostsDocumented : Prop := ∀ t ∈ defaultUrls, ¬OnPublicHost urls t

/-- The origin of a URL is on the operator's list. -/
def OnAllowlist (envValue : Option Text) (t : Text) : Prop :=
  ∃ allowlist, parseAllowlist urls envValue = .ok allowlist ∧ ∃ url, urls.parse t = some url ∧ urls.origin url ∈ allowlist

/-- What the sandbox promises of the endpoints that it works with. -/
structure Isolated (hosted : Bool) (overrides : Overrides) (env : Environment) (endpoints : StellarNetworkEndpoints) :
    Prop where
  passphrase : endpoints.passphrase ≠ publicPassphrase
  horizon : ¬OnPublicHost urls endpoints.horizonUrl
  friendbot : ¬OnPublicHost urls endpoints.friendbotUrl
  rpc : ¬OnPublicHost urls endpoints.rpcUrl
  allowedHorizon : hosted = true → ∀ t ∈ given overrides.horizonUrl, OnAllowlist urls env.allowedHorizonUrls t
  allowedFriendbot : hosted = true → ∀ t ∈ given overrides.friendbotUrl, OnAllowlist urls env.allowedFriendbotUrls t
  allowedRpc : hosted = true → ∀ t ∈ given overrides.rpcUrl, OnAllowlist urls env.allowedRpcUrls t

/-- Where the caller and the operator can set an endpoint or the passphrase of a network, in the
order in which they are asked. -/
structure Settings where
  horizonUrl : List (Option Text)
  friendbotUrl : List (Option Text)
  rpcUrl : List (Option Text)
  passphrase : List (Option Text)

def settings (name : Text) (overrides : Overrides) (env : Environment) : Settings :=
  if name = text "quickstart" ∨ name = text "local" then
    { horizonUrl := [overrides.horizonUrl, env.quickstartHorizonUrl]
      friendbotUrl := [overrides.friendbotUrl, env.quickstartFriendbotUrl]
      rpcUrl := [overrides.rpcUrl, env.quickstartRpcUrl]
      passphrase := [overrides.passphrase, env.quickstartPassphrase] }
  else if name = text "custom" then
    { horizonUrl := [overrides.horizonUrl]
      friendbotUrl := [overrides.friendbotUrl]
      rpcUrl := [overrides.rpcUrl]
      passphrase := [overrides.passphrase] }
  else
    { horizonUrl := [overrides.horizonUrl, env.horizonUrl]
      friendbotUrl := [overrides.friendbotUrl, env.friendbotUrl]
      rpcUrl := [overrides.rpcUrl, env.rpcUrl]
      passphrase := [overrides.passphrase, env.networkPassphrase] }

/-- The caller or the operator sets the passphrase or the host of the public network. -/
def NamesPublic (s : Settings) : Prop :=
  firstGiven s.passphrase = some publicPassphrase ∨
    ∃ values ∈ [s.horizonUrl, s.friendbotUrl, s.rpcUrl], ∃ t ∈ firstGiven values, OnPublicHost urls t

variable (beyondAscii : Text → Text)

/-- The request is refused: by its name, for an allowlist that is none, for an override that the
operator does not allow, or for the URL that a custom network lacks. -/
def Refused (networkName : Option Text) (overrides : Overrides) (env : Environment) : Prop :=
  let name := normalized beyondAscii networkName
  name = text "mainnet" ∨ name = text "public" ∨ (∃ error, parseAllowlists urls env = .error error) ∨
    (isHostedMode beyondAscii env = true ∧
      ∃ allowed, parseAllowlists urls env = .ok allowed ∧ ∃ error, assertOverridesAllowlisted urls overrides allowed = .error error) ∨
    (name = text "custom" ∧ given overrides.horizonUrl = none)

variable {urls} {beyondAscii}

theorem orElse_eq {p : Text → Prop} {values : List (Option Text)} {fallback : Text} (hfallback : ¬p fallback) :
    p (orElse values fallback) ↔ ∃ t ∈ firstGiven values, p t := by
  rw [orElse]
  cases h : firstGiven values with
  | none => simp [hfallback]
  | some t => simp

theorem onAllowlist_of_asserted {label : Text} {url envValue : Option Text} {allowlist : List Text}
    (hlist : parseAllowlist urls envValue = .ok allowlist) (h : assertOverrideAllowlisted urls label url allowlist = .ok ()) :
    ∀ t ∈ given url, OnAllowlist urls envValue t := by
  intro t ht
  rw [assertOverrideAllowlisted, Option.mem_def.mp ht] at h
  simp only at h
  split at h
  next => cases h
  next =>
    rw [assertAllowedEndpoint] at h
    cases hparse : (urls.parse t).filter (isWebUrl urls) with
    | none => rw [hparse] at h; cases h
    | some parsed =>
        rw [hparse] at h
        simp only at h
        split at h
        next hmem => exact ⟨allowlist, hlist, parsed, Option.eq_some_of_filter_eq_some hparse, hmem⟩
        next => cases h

/-- The endpoints of a request that is not refused. -/
def chosen (name : Text) (overrides : Overrides) (env : Environment) : StellarNetworkEndpoints :=
  if name = text "quickstart" ∨ name = text "local" then quickstartEndpoints overrides env
  else if name = text "custom" then customEndpoints overrides (orElse [overrides.horizonUrl] [])
  else testnetEndpoints overrides env

theorem parsed_of_parseAllowlists {env : Environment} {allowed : Allowlists} (h : parseAllowlists urls env = .ok allowed) :
    parseAllowlist urls env.allowedHorizonUrls = .ok allowed.horizon ∧
      parseAllowlist urls env.allowedRpcUrls = .ok allowed.rpc ∧
      parseAllowlist urls env.allowedFriendbotUrls = .ok allowed.friendbot := by
  obtain ⟨horizon, hhorizon, h⟩ := bind_eq_ok.mp h
  obtain ⟨rpc, hrpc, h⟩ := bind_eq_ok.mp h
  cases hfriendbot : parseAllowlist urls env.allowedFriendbotUrls with
  | error error => rw [hfriendbot] at h; cases h
  | ok friendbot =>
      rw [hfriendbot] at h
      cases h
      exact ⟨hhorizon, hrpc, rfl⟩

theorem asserted_of_overrides {overrides : Overrides} {allowed : Allowlists}
    (h : assertOverridesAllowlisted urls overrides allowed = .ok ()) :
    assertOverrideAllowlisted urls (text "horizonUrl") overrides.horizonUrl allowed.horizon = .ok () ∧
      assertOverrideAllowlisted urls (text "rpcUrl") overrides.rpcUrl allowed.rpc = .ok () ∧
      assertOverrideAllowlisted urls (text "friendbotUrl") overrides.friendbotUrl allowed.friendbot = .ok () := by
  obtain ⟨_, hhorizon, h⟩ := bind_eq_ok.mp h
  obtain ⟨_, hrpc, hfriendbot⟩ := bind_eq_ok.mp h
  exact ⟨hhorizon, hrpc, hfriendbot⟩

theorem resolve_of_refused {networkName : Option Text} {overrides : Overrides} {env : Environment}
    (h : Refused urls beyondAscii networkName overrides env) (endpoints : StellarNetworkEndpoints) :
    resolveStellarEndpoints urls beyondAscii networkName overrides env ≠ .ok endpoints := by
  intro hok
  rw [resolveStellarEndpoints] at hok
  split at hok
  next => cases hok
  next hname =>
    obtain ⟨allowed, hallowed, hok⟩ := bind_eq_ok.mp hok
    obtain ⟨_, hchecked, hok⟩ := bind_eq_ok.mp hok
    rcases h with h | h | ⟨error, herror⟩ | ⟨hhosted, allowed', hallowed', error, herror⟩ | ⟨hcustom, hnone⟩
    · exact hname (.inl h)
    · exact hname (.inr h)
    · rw [hallowed] at herror
      cases herror
    · rw [hallowed] at hallowed'
      cases hallowed'
      rw [if_pos hhosted, herror] at hchecked
      cases hchecked
    · rw [hcustom, if_neg (by decide), if_pos rfl, hnone] at hok
      cases hok

theorem resolve_of_not_refused {networkName : Option Text} {overrides : Overrides} {env : Environment}
    (h : ¬Refused urls beyondAscii networkName overrides env) :
    resolveStellarEndpoints urls beyondAscii networkName overrides env =
        .ok (chosen (normalized beyondAscii networkName) overrides env) ∧
      (isHostedMode beyondAscii env = true → ∃ allowed, parseAllowlists urls env = .ok allowed ∧
        assertOverridesAllowlisted urls overrides allowed = .ok ()) := by
  simp only [Refused, not_or, not_and, not_exists] at h
  obtain ⟨hmainnet, hpublic, hparse, hoverrides, hcustom⟩ := h
  cases hallowed : parseAllowlists urls env with
  | error error => exact absurd hallowed (hparse error)
  | ok allowed =>
      have hasserted (hhosted : isHostedMode beyondAscii env = true) :
          assertOverridesAllowlisted urls overrides allowed = .ok () := by
        cases h : assertOverridesAllowlisted urls overrides allowed with
        | error error => exact absurd h (hoverrides hhosted allowed hallowed error)
        | ok _ => rfl
      refine ⟨?_, fun hhosted => ⟨allowed, rfl, hasserted hhosted⟩⟩
      have hchecked : (if isHostedMode beyondAscii env = true then assertOverridesAllowlisted urls overrides allowed
          else .ok ()) = .ok () := by
        split
        next hhosted => exact hasserted hhosted
        next => rfl
      rw [resolveStellarEndpoints, hallowed]
      simp only [hmainnet, hpublic, or_self, if_false, Except.bind, hchecked, chosen]
      split
      · rfl
      split
      next hname =>
        cases hgiven : given overrides.horizonUrl with
        | none => exact absurd hgiven (hcustom hname)
        | some t =>
            have hagain : (if isHostedMode beyondAscii env = true then
                assertAllowedEndpoint urls (text "horizonUrl") t allowed.horizon else .ok ()) = .ok () := by
              split
              next hhosted =>
                have hhorizon := (asserted_of_overrides (hasserted hhosted)).1
                rw [assertOverrideAllowlisted, hgiven] at hhorizon
                simp only at hhorizon
                split at hhorizon
                next => cases hhorizon
                next => exact hhorizon
              next => rfl
            have hfirst : orElse [overrides.horizonUrl] [] = t := by
              rw [orElse, firstGiven, List.findSome?_cons, hgiven]
              rfl
            simp only [hagain, hfirst]
            rfl
      next => rfl

/-- Beside the allowlists the promise is that nobody sets what belongs to the public network. -/
theorem chosen_iff (hhosts : HostsDocumented urls) (name : Text) (overrides : Overrides) (env : Environment) :
    ((chosen name overrides env).passphrase ≠ publicPassphrase ∧ ¬OnPublicHost urls (chosen name overrides env).horizonUrl ∧
        ¬OnPublicHost urls (chosen name overrides env).friendbotUrl ∧ ¬OnPublicHost urls (chosen name overrides env).rpcUrl) ↔
      ¬NamesPublic urls (settings name overrides env) := by
  have hhost {fallback : Text} (hfallback : fallback ∈ defaultUrls) (values : List (Option Text)) :
      OnPublicHost urls (orElse values fallback) ↔ ∃ t ∈ firstGiven values, OnPublicHost urls t :=
    orElse_eq (hhosts fallback hfallback)
  have hpassphrase {fallback : Text} (hfallback : fallback ≠ publicPassphrase) (values : List (Option Text)) :
      orElse values fallback = publicPassphrase ↔ firstGiven values = some publicPassphrase := by
    rw [orElse_eq (p := (· = publicPassphrase)) hfallback]
    simp
  have hstandalone : STANDALONE_PASSPHRASE ≠ publicPassphrase := by decide
  have htestnet : testnetPassphrase ≠ publicPassphrase := by decide
  rw [← not_iff_not, not_not]
  simp only [NamesPublic, List.mem_cons, List.not_mem_nil, or_false, exists_eq_or_imp, exists_eq_left, not_and_or, not_not,
    ne_eq]
  rw [chosen, settings]
  split
  · rw [quickstartEndpoints, hpassphrase hstandalone, hhost (by decide), hhost (by decide), hhost (by decide)]
  split
  · rw [customEndpoints, hpassphrase hstandalone, hhost (by decide), hhost (by decide), hhost (by decide)]
  · rw [testnetEndpoints, hpassphrase htestnet, hhost (by decide), hhost (by decide), hhost (by decide)]

/-- The endpoints keep the promise exactly when the request is refused or nobody names the public
network in what it is resolved from. -/
theorem resolved_isolated_iff (hhosts : HostsDocumented urls) (beyondAscii : Text → Text) (networkName : Option Text)
    (overrides : Overrides) (env : Environment) :
    (∀ endpoints, resolveStellarEndpoints urls beyondAscii networkName overrides env = .ok endpoints →
        Isolated urls (isHostedMode beyondAscii env) overrides env endpoints) ↔
      Refused urls beyondAscii networkName overrides env ∨
        ¬NamesPublic urls (settings (normalized beyondAscii networkName) overrides env) := by
  by_cases hrefused : Refused urls beyondAscii networkName overrides env
  · exact iff_of_true (fun endpoints h => absurd h (resolve_of_refused hrefused endpoints)) (.inl hrefused)
  obtain ⟨hresolved, hasserted⟩ := resolve_of_not_refused hrefused
  rw [or_iff_right hrefused, ← chosen_iff hhosts, hresolved]
  constructor
  · intro h
    have hisolated := h _ rfl
    exact ⟨hisolated.passphrase, hisolated.horizon, hisolated.friendbot, hisolated.rpc⟩
  · rintro ⟨hpassphrase, hhorizon, hfriendbot, hrpc⟩ endpoints hendpoints
    cases hendpoints
    have hallowed (hhosted : isHostedMode beyondAscii env = true) :
        (∀ t ∈ given overrides.horizonUrl, OnAllowlist urls env.allowedHorizonUrls t) ∧
          (∀ t ∈ given overrides.friendbotUrl, OnAllowlist urls env.allowedFriendbotUrls t) ∧
          ∀ t ∈ given overrides.rpcUrl, OnAllowlist urls env.allowedRpcUrls t := by
      obtain ⟨allowed, hparsed, hoverrides⟩ := hasserted hhosted
      have hlists := parsed_of_parseAllowlists hparsed
      have hchecks := asserted_of_overrides hoverrides
      exact ⟨onAllowlist_of_asserted hlists.1 hchecks.1, onAllowlist_of_asserted hlists.2.2 hchecks.2.2,
        onAllowlist_of_asserted hlists.2.1 hchecks.2.1⟩
    exact ⟨hpassphrase, hhorizon, hfriendbot, hrpc, fun h => (hallowed h).1, fun h => (hallowed h).2.1,
      fun h => (hallowed h).2.2⟩

theorem hostsDocumented_plainUrls : HostsDocumented plainUrls := by
  have hhosts : defaultUrls.all (fun t => !(parsePlain t).any (fun url => url.host = publicHost)) = true := by decide
  rintro t ht ⟨url, hparse, hhost⟩
  have hnot := List.all_eq_true.mp hhosts t ht
  rw [show parsePlain t = some url from hparse, Option.any_some, show url.host = publicHost from hhost] at hnot
  cases hnot

theorem testnet_isolated : resolveStellarEndpoints plainUrls id none {} {} = .ok (testnetEndpoints {} {}) ∧
    Isolated plainUrls (isHostedMode id {}) {} {} (testnetEndpoints {} {}) := by
  have hresolved : resolveStellarEndpoints plainUrls id none {} {} = .ok (testnetEndpoints {} {}) := by decide
  refine ⟨hresolved, (resolved_isolated_iff hostsDocumented_plainUrls id none {} {}).mpr (.inr ?_) _ hresolved⟩
  have hnothing : NamesPublic plainUrls (settings (normalized id none) {} {}) ↔
      NamesPublic plainUrls ⟨[none, none], [none, none], [none, none], [none, none]⟩ := by
    rw [settings, if_neg (by decide), if_neg (by decide)]
  rw [hnothing]
  rintro (h | ⟨values, hvalues, t, ht, -⟩)
  · cases h
  · simp only [List.mem_cons, List.not_mem_nil, or_false, or_self] at hvalues
    rw [hvalues] at ht
    cases ht

/-- The passphrase of the caller is not checked. -/
theorem not_resolved_isolated : ¬∀ (networkName : Option Text) (overrides : Overrides) (env : Environment)
    (endpoints : StellarNetworkEndpoints), resolveStellarEndpoints plainUrls id networkName overrides env = .ok endpoints →
      Isolated plainUrls (isHostedMode id env) overrides env endpoints := by
  intro h
  let overrides : Overrides := { passphrase := some publicPassphrase }
  have hresolved : resolveStellarEndpoints plainUrls id (some (text "testnet")) overrides {} =
      .ok (testnetEndpoints overrides {}) := by decide
  exact (h _ _ _ _ hresolved).passphrase rfl

end Savitools.Stellar.MainnetReach
