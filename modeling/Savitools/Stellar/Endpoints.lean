import Savitools.Common.Exceptions
import Savitools.Net.Urls

namespace Savitools.Stellar.Endpoints

open Strings.CodeUnits Net.Urls Common.Exceptions

structure StellarNetworkEndpoints where
  network : Text
  horizonUrl : Text
  friendbotUrl : Text
  rpcUrl : Text
  passphrase : Text
deriving DecidableEq

structure Overrides where
  horizonUrl : Option Text := none
  friendbotUrl : Option Text := none
  passphrase : Option Text := none
  rpcUrl : Option Text := none

/-- The environment variables `STELLAR_…`. -/
structure Environment where
  hostedMode : Option Text := none
  allowedHorizonUrls : Option Text := none
  allowedRpcUrls : Option Text := none
  allowedFriendbotUrls : Option Text := none
  quickstartHorizonUrl : Option Text := none
  quickstartFriendbotUrl : Option Text := none
  quickstartRpcUrl : Option Text := none
  quickstartPassphrase : Option Text := none
  horizonUrl : Option Text := none
  friendbotUrl : Option Text := none
  rpcUrl : Option Text := none
  networkPassphrase : Option Text := none

/-- The allowlists of origins, one for each kind of endpoint. -/
structure Allowlists where
  horizon : List Text
  rpc : List Text
  friendbot : List Text

def publicPassphrase : Text := text "Public Global Stellar Network ; September 2015"

def testnetPassphrase : Text := text "Test SDF Network ; September 2015"

def STANDALONE_PASSPHRASE : Text := text "Standalone Network ; February 2017"

/-- A value that counts as given: `||` passes over an empty text. -/
def given (value : Option Text) : Option Text := if value = some [] then none else value

/-- The first that is given. -/
def firstGiven (values : List (Option Text)) : Option Text := values.findSome? given

def orElse (values : List (Option Text)) (fallback : Text) : Text := (firstGiven values).getD fallback

variable {Url : Type} (urls : Urls Url)

def originOf (entry : Text) : Except Exception Text :=
  match urls.parse entry with
  | none => .error (.badRequest (text "Invalid endpoint in allowlist configuration: " ++ entry))
  | some url => .ok (urls.origin url)

def parseAllowlist (envValue : Option Text) : Except Exception (List Text) :=
  match given envValue with
  | none => .ok []
  | some value => (((split (unit ',') value).map trim).filter (· ≠ [])).mapM (originOf urls)

def parseAllowlists (env : Environment) : Except Exception Allowlists :=
  (parseAllowlist urls env.allowedHorizonUrls).bind fun horizon =>
    (parseAllowlist urls env.allowedRpcUrls).bind fun rpc =>
      (parseAllowlist urls env.allowedFriendbotUrls).map fun friendbot => ⟨horizon, rpc, friendbot⟩

def isWebUrl (url : Url) : Bool := urls.protocol url = text "https:" || urls.protocol url = text "http:"

def assertAllowedEndpoint (label url : Text) (allowlist : List Text) : Except Exception Unit :=
  match (urls.parse url).filter (isWebUrl urls) with
  | none => .error (.badRequest (label ++ text " must be a valid http(s) URL"))
  | some parsed =>
      if urls.origin parsed ∈ allowlist then .ok ()
      else
        .error (.badRequest (label ++
          text " is not in the configured allowlist. Operators must explicitly allow this endpoint."))

def assertOverrideAllowlisted (label : Text) (url : Option Text) (allowlist : List Text) : Except Exception Unit :=
  match given url with
  | none => .ok ()
  | some url =>
      if allowlist = [] then
        .error (.badRequest (label ++
          text " overrides are disabled in hosted mode: no allowlist is configured by the operator."))
      else assertAllowedEndpoint urls label url allowlist

def assertOverridesAllowlisted (overrides : Overrides) (allowed : Allowlists) : Except Exception Unit :=
  (assertOverrideAllowlisted urls (text "horizonUrl") overrides.horizonUrl allowed.horizon).bind fun _ =>
    (assertOverrideAllowlisted urls (text "rpcUrl") overrides.rpcUrl allowed.rpc).bind fun _ =>
      assertOverrideAllowlisted urls (text "friendbotUrl") overrides.friendbotUrl allowed.friendbot

def quickstartEndpoints (overrides : Overrides) (env : Environment) : StellarNetworkEndpoints where
  network := text "quickstart"
  horizonUrl := orElse [overrides.horizonUrl, env.quickstartHorizonUrl] (text "http://localhost:8000")
  friendbotUrl := orElse [overrides.friendbotUrl, env.quickstartFriendbotUrl] (text "http://localhost:8000/friendbot")
  rpcUrl := orElse [overrides.rpcUrl, env.quickstartRpcUrl] (text "http://localhost:8000/soroban/rpc")
  passphrase := orElse [overrides.passphrase, env.quickstartPassphrase] STANDALONE_PASSPHRASE

def customEndpoints (overrides : Overrides) (horizonUrl : Text) : StellarNetworkEndpoints where
  network := text "custom"
  horizonUrl := horizonUrl
  friendbotUrl := orElse [overrides.friendbotUrl] []
  rpcUrl := orElse [overrides.rpcUrl] []
  passphrase := orElse [overrides.passphrase] STANDALONE_PASSPHRASE

def testnetEndpoints (overrides : Overrides) (env : Environment) : StellarNetworkEndpoints where
  network := text "testnet"
  horizonUrl := orElse [overrides.horizonUrl, env.horizonUrl] (text "https://horizon-testnet.stellar.org")
  friendbotUrl := orElse [overrides.friendbotUrl, env.friendbotUrl] (text "https://friendbot.stellar.org")
  rpcUrl := orElse [overrides.rpcUrl, env.rpcUrl] (text "https://soroban-rpc-testnet.stellar.org")
  passphrase := orElse [overrides.passphrase, env.networkPassphrase] testnetPassphrase

variable (beyondAscii : Text → Text)

def isHostedMode (env : Environment) : Bool :=
  toLowerCase beyondAscii (env.hostedMode.getD (text "true")) ≠ text "false"

def normalized (networkName : Option Text) : Text :=
  trim (toLowerCase beyondAscii (orElse [networkName] (text "testnet")))

def resolveStellarEndpoints (networkName : Option Text) (overrides : Overrides) (env : Environment) :
    Except Exception StellarNetworkEndpoints :=
  let name := normalized beyondAscii networkName
  if name = text "mainnet" ∨ name = text "public" then
    .error (.badRequest (text "Mainnet is prohibited in Sandbox. Sandbox operations are strictly limited to " ++
      text "testnet, local quickstart, and private custom networks."))
  else
    (parseAllowlists urls env).bind fun allowed =>
      (if isHostedMode beyondAscii env then assertOverridesAllowlisted urls overrides allowed else .ok ()).bind fun _ =>
        if name = text "quickstart" ∨ name = text "local" then .ok (quickstartEndpoints overrides env)
        else if name = text "custom" then
          match given overrides.horizonUrl with
          | none => .error (.badRequest (text "Custom network requires a valid horizonUrl"))
          | some horizonUrl =>
              (if isHostedMode beyondAscii env then
                assertAllowedEndpoint urls (text "horizonUrl") horizonUrl allowed.horizon
              else .ok ()).map fun _ => customEndpoints overrides horizonUrl
        else .ok (testnetEndpoints overrides env)

end Savitools.Stellar.Endpoints
