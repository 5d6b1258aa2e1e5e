import Mathlib.Data.List.Infix
import Savitools.Federation.StellarToml

namespace Savitools.Federation.Diagnostics

open Strings.CodeUnits Strings.Decimals Net.Urls Json.Values Common.Exceptions Domains Fetching StellarToml

inductive DiagnosticStageName
  | toml
  | http
  | forwardLookup
  | reverseLookup
deriving DecidableEq

inductive DiagnosticFailureKind
  | dns
  | toml
  | tls
  | http
  | timeout
  | schema
  | ssrf
  | redirects
deriving DecidableEq

/-- A probed step. The details are texts and status codes. -/
structure DiagnosticStage where
  stage : DiagnosticStageName
  ok : Bool
  error : Option DiagnosticFailureKind
  details : List (Text × Value Nat)
  redirectChain : List Text

structure FederationDiagnosticsReport where
  domain : Text
  ok : Bool
  serverUrl : Option Text
  serverStatus : Option Nat
  forwardStatus : Option Nat
  reverseStatus : Option Nat
  stages : List DiagnosticStage
  failures : List DiagnosticFailureKind

/-- `/pattern/i.test(message)`, for a pattern of letters, blanks and hyphens -/
def mentions (pattern message : Text) : Bool := pattern.map toLowerAscii <:+: message.map toLowerAscii

def classifyError (error : Exception) : DiagnosticFailureKind :=
  let message := error.message
  if mentions (text "timed out") message then .timeout
  else if mentions (text "non-public address") message then .ssrf
  else if mentions (text "Could not resolve host") message then .dns
  else if mentions (text "Unsupported protocol") message then .tls
  else
    match error with
    | .badGateway _ => .redirects
    | .notFound _ => if mentions (text "redirect") message then .redirects else .toml
    | .badRequest _ =>
        if mentions (text "redirect") message then .redirects
        else if mentions (text "Malformed TOML") message || mentions (text "TOML document") message ||
            mentions (text "stellar.toml") message then .toml
        else .http
    | _ => if mentions (text "redirect") message then .redirects else .http

variable {Url N : Type} (urls : Urls Url)

def appendQuery (serverUrl : Text) (params : List (Text × Text)) : Except Exception Text :=
  match urls.parse serverUrl with
  | none => .error invalidUrl
  | some url => .ok (urls.href (setParams urls params url))

def redactUrl (url : Text) : Text :=
  match urls.parse url with
  | some parsed => urls.origin parsed ++ urls.pathname parsed
  | none => text "(unparseable URL)"

/-- `/^https?:\/\//.test(value)` -/
def startsAsWeb (value : Text) : Bool := (text "https://").isPrefixOf value || (text "http://").isPrefixOf value

def redactDetail : Text × Value Nat → Text × Value Nat
  | (key, .str value) => (key, .str (if startsAsWeb value && key != text "serverUrl" then redactUrl urls value else value))
  | detail => detail

def redactStage (stage : DiagnosticStage) : DiagnosticStage :=
  { stage with details := stage.details.map (redactDetail urls) }

def redactReport (report : FederationDiagnosticsReport) : FederationDiagnosticsReport :=
  { report with stages := report.stages.map (redactStage urls) }

def probeQuery (domain : Text) : Text := text "savitools-diagnostic*" ++ domain

def statusDetail (status : Nat) : Text × Value Nat := (text "statusCode", .num status)

def messageDetail (message : Text) : Text × Value Nat := (text "message", .str message)

/-- A report that ends before the lookups. -/
def earlyReport (domain : Text) (stages : List DiagnosticStage) (failure : DiagnosticFailureKind) :
    FederationDiagnosticsReport :=
  { domain := domain, ok := false, serverUrl := none, serverStatus := none, forwardStatus := none, reverseStatus := none,
    stages := stages, failures := [failure] }

/-- A request of a lookup, with the address that is asked for. -/
def lookupRequest (network : Network) (server q type : Text) : List Text × Except Exception Response :=
  match appendQuery urls server [(text "q", q), (text "type", type)] with
  | .error error => ([], .error error)
  | .ok url => fetchWithTimeout urls network url

def reachStage (network : Network) (server domain : Text) : DiagnosticStage × Except Exception Response :=
  let (chain, result) := lookupRequest urls network server (probeQuery domain) (text "name")
  let details := [(text "serverUrl", .str server)]
  match result with
  | .error error =>
      (⟨.http, false, some (classifyError error), details ++ [messageDetail error.message], chain⟩, .error error)
  | .ok res =>
      (⟨.http, res.ok, if res.ok then none else some .http,
        details ++ [statusDetail res.status] ++
          if res.ok then [] else [messageDetail (text "Federation server responded with HTTP " ++ ofNat res.status)],
        chain⟩, .ok res)

def requestDetail (server q type : Text) : Except Exception (Text × Value Nat) :=
  (appendQuery urls server [(text "q", q), (text "type", type)]).map fun url => (text "requestUrl", .str (redactUrl urls url))

def forwardStage (network : Network) (server domain : Text) : Except Exception (DiagnosticStage × Option Nat) :=
  let testAddress := text "savitools-probe*" ++ domain
  (requestDetail urls server testAddress (text "name")).map fun request =>
    match (lookupRequest urls network server testAddress (text "name")).2 with
    | .error error =>
        (⟨.forwardLookup, false, some (classifyError error), [request, messageDetail error.message], []⟩, none)
    | .ok res =>
        let (ok, message) :=
          if res.ok then
            (true, text "Unexpected 2xx for the synthetic probe user (should be 404); treating as non-blocking")
          else if res.status = 404 then (true, text "Unknown user returned 404 (SEP-2 compliant)")
          else (false, text "Forward lookup returned HTTP " ++ ofNat res.status)
        (⟨.forwardLookup, ok, if ok then none else some .http, [request, statusDetail res.status, messageDetail message], []⟩,
          some res.status)

/-- What `json()` gives: a value, or the message with which it fails. -/
abbrev JsonReader (N : Type) := Text → Except Text (Value N)

/-- What the answer of the reverse lookup adds to its stage. A member of null cannot be read. -/
def reverseRecord (readJson : JsonReader N) (body : Except Text Text) :
    Except Exception (Bool × (Text × Value Nat)) :=
  match body.bind readJson with
  | .error message => .error (.error message)
  | .ok .null => .error (.error (text "Cannot read properties of null (reading 'stellar_address')"))
  | .ok (.obj fields) =>
      match stringMember (text "stellar_address") fields with
      | some address => .ok (true, (text "stellarAddress", .str address))
      | none => .ok (false, messageDetail (text "Response missing stellar_address field"))
  | .ok _ => .ok (false, messageDetail (text "Response missing stellar_address field"))

def reverseAnswer (readJson : JsonReader N) (request : Text × Value Nat) (result : Except Exception Response) :
    DiagnosticStage × Option Nat :=
  match result with
  | .error error =>
      (⟨.reverseLookup, false, some (classifyError error), [request, messageDetail error.message], []⟩, none)
  | .ok res =>
      let details := [request, statusDetail res.status]
      if res.ok = false then
        (⟨.reverseLookup, false, some .http,
          details ++ [messageDetail (text "Reverse lookup returned HTTP " ++ ofNat res.status)], []⟩, some res.status)
      else
        match reverseRecord readJson res.body with
        | .error error =>
            (⟨.reverseLookup, false, some (classifyError error), details ++ [messageDetail error.message], []⟩,
              some res.status)
        | .ok (ok, detail) =>
            (⟨.reverseLookup, ok, if ok then none else some .schema, details ++ [detail], []⟩, some res.status)

/-- The first account of the document with a public key. -/
def reverseKey (toml : Table N) : Option Text :=
  match toml.lookup (text "ACCOUNTS") with
  | some (.arr entries) =>
      entries.findSome? fun entry =>
        match entry with
        | .obj fields => (stringMember (text "PUBLIC_KEY") fields).filter isStellarPublicKey
        | _ => none
  | _ => none

def reverseStage (readJson : JsonReader N) (network : Network) (server : Text) (toml : Table N) :
    Except Exception (DiagnosticStage × Option Nat) :=
  match reverseKey toml with
  | none =>
      .ok (⟨.reverseLookup, true, none,
        [messageDetail (text "Skipped: no ACCOUNTS entry in stellar.toml to probe the reverse direction")], []⟩, none)
  | some key =>
      (requestDetail urls server key (text "id")).map fun request =>
        reverseAnswer readJson request (lookupRequest urls network server key (text "id")).2

/-- An empty text counts as none. -/
def federationServer (toml : Table N) : Option Text := (stringMember (text "FEDERATION_SERVER") toml).filter (· ≠ [])

/-- What the requests of the stages after the discovery meet. -/
structure Probes where
  reach : Network
  forward : Network
  reverse : Network

def tomlStage (ok : Bool) (error : Option DiagnosticFailureKind) (details : List (Text × Value Nat)) : DiagnosticStage :=
  ⟨.toml, ok, error, details, []⟩

/-- The stages of a document with a server. The requests' texts are made again in the lookup
stages, where an error is not caught. -/
def probedReport (readJson : JsonReader N) (probes : Probes) (domain server : Text) (toml : Table N) :
    Except Exception FederationDiagnosticsReport :=
  let discovered := tomlStage true none
    [(text "tomlUrl", .str (tomlUrl domain)), (text "federationServer", .str server)]
  let (reach, reached) := reachStage urls probes.reach server domain
  match reached with
  | .error error => .ok (redactReport urls (earlyReport domain [discovered, reach] (classifyError error)))
  | .ok res =>
      (forwardStage urls probes.forward server domain).bind fun (forward, forwardStatus) =>
        (reverseStage urls readJson probes.reverse server toml).map fun (reverse, reverseStatus) =>
          let stages := [discovered, reach, forward, reverse]
          let failures := (stages.filter (fun stage => !stage.ok)).filterMap (·.error)
          redactReport urls
            { domain := domain, ok := failures.isEmpty, serverUrl := some server, serverStatus := some res.status,
              forwardStatus := forwardStatus, reverseStatus := reverseStatus, stages := stages, failures := failures.eraseDups }

def getServerDiagnostics (source : TomlSource Url N) (readJson : JsonReader N) (probes : Probes) (domain : Text) :
    Except Exception FederationDiagnosticsReport :=
  let cleanDomain := normalizeDomain source.beyondAscii domain
  if isDomain cleanDomain = false then .error (.badRequest (text "Invalid domain: " ++ domain))
  else
    match fetchTomlRecord source cleanDomain with
    | .error error =>
        .ok (redactReport source.urls
          (earlyReport cleanDomain [tomlStage false (some (classifyError error)) [messageDetail error.message]]
            (classifyError error)))
    | .ok toml =>
        match federationServer toml with
        | none =>
            .ok (redactReport source.urls (earlyReport cleanDomain
              [tomlStage false (some .schema)
                [(text "tomlUrl", .str (tomlUrl cleanDomain)),
                  messageDetail (text "stellar.toml does not declare a FEDERATION_SERVER")]] .schema))
        | some server => probedReport source.urls readJson probes cleanDomain server toml

end Savitools.Federation.Diagnostics
