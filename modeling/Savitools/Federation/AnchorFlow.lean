import Savitools.Common.Redaction
import Savitools.Federation.Diagnostics
import Savitools.Json.Reading

namespace Savitools.Federation.AnchorFlow

open Strings.CodeUnits Strings.Decimals Net.Urls Json.Numbers Json.Values Json.Reading Common.Exceptions Common.SsrfGuard
open Common.Redaction Domains Fetching StellarToml Diagnostics

inductive Sep24TimelineStage
  | discovery
  | authentication
  | interactiveUrl
  | redirect
  | statusPoll
  | terminal
deriving DecidableEq

inductive Sep24DiagnosticKind
  | nonJson
  | anchorError
  | expiredToken
  | unknownState
  | unsafeUrl
  | ssrf
  | timeout
  | cancelled
  | http
  | schema
deriving DecidableEq

/-- An entry, without its times. A request is a method and a URL, a response a status and a body. -/
structure Sep24TimelineEntry where
  stage : Sep24TimelineStage
  request : Option (Text × Text)
  response : Option (Nat × Value Number)
  message : Text
  diagnostic : Option Sep24DiagnosticKind

structure Sep24DebuggerParams where
  domain : Text
  flow : Text
  asset : Text
  account : Text
  amount : Option Text
  callback : Option Text
  jwt : Option Text
  pollTimeoutMs : Nat

/-- `/^\d+(\.\d+)?$/` -/
def isDecimalString (t : Text) : Bool :=
  match split (unit '.') t with
  | [whole] => whole != [] && whole.all isDigit
  | [whole, fraction] => whole != [] && whole.all isDigit && fraction != [] && fraction.all isDigit
  | _ => false

/-- `/^https:\/\/[^\s]+$/i` -/
def isHttpsUrl (t : Text) : Bool :=
  (t.take 8).map toLowerAscii == text "https://" && t.drop 8 != [] && (t.drop 8).all (fun u => !isSpace u)

/-- The checks of the parameters, in their order. -/
def checkParams (params : Sep24DebuggerParams) (cleanDomain : Text) : Except Exception Unit :=
  if isDomain cleanDomain = false then .error (.badRequest (text "Invalid domain: " ++ params.domain))
  else if params.flow ≠ text "deposit" ∧ params.flow ≠ text "withdraw" then
    .error (.badRequest (text "flow must be 'deposit' or 'withdraw'"))
  else if isStellarPublicKey params.account = false then
    .error (.badRequest (text "account must be a Stellar public key (G…)"))
  else if params.amount.any (fun amount => !isDecimalString amount) then
    .error (.badRequest (text "amount must be a non-negative decimal string (e.g. \"100.50\")"))
  else if params.callback.any (fun callback => callback != [] && !isHttpsUrl callback) then
    .error (.badRequest (text "callback must be a well-formed https:// URL"))
  else .ok ()

def SEP24_TERMINAL_STATES : List Text :=
  [text "completed", text "refunded", text "expired", text "error", text "no_market", text "too_small", text "too_large",
    text "pending_user_transfer_complete"]

/-- One turn of the polling loop: whether the caller has cancelled or the time is up before it, and
what its request meets. -/
structure Round where
  cancelled : Bool
  expired : Bool
  network : Network

/-- What the requests after the discovery meet: the first of the interactive endpoint, the one that
posts to it, the look-up of the interactive URL's host, and the polls. -/
structure AnchorCalls where
  probe : Network
  post : Network
  navigation : Text → Option (List Text)
  rounds : List Round

variable {N Url : Type}

/-- The transfer server and the endpoint of the authentication. -/
def discoverAnchor (source : TomlSource Url N) (cleanDomain : Text) : Except Exception (Text × Option Text) :=
  match fetchTomlRecord source cleanDomain with
  | .error error =>
      .error (.badRequest (text "SEP-24 discovery failed for " ++ cleanDomain ++ text ": " ++ error.message))
  | .ok toml =>
      match (stringMember (text "TRANSFER_SERVER_SEP0024") toml).filter (· ≠ []) with
      | none =>
          .error (.badRequest (text "Domain " ++ cleanDomain ++ text " does not declare TRANSFER_SERVER_SEP0024"))
      | some server => .ok (server, stringMember (text "WEB_AUTH_ENDPOINT") toml)

def discoveryEntry (server : Text) (webAuthEndpoint : Option Text) : Sep24TimelineEntry :=
  ⟨.discovery, none,
    some (200, .obj [(text "transferServerSep0024", .str server),
      (text "webAuthEndpoint", webAuthEndpoint.elim .null .str)]),
    text "Discovered SEP-24 transfer server", none⟩

def authenticationEntry (jwt : Option Text) : Sep24TimelineEntry :=
  if (jwt.filter (· ≠ [])).isSome then
    ⟨.authentication, none, none, text "Reused SEP-10 JWT from prior authentication handoff", none⟩
  else
    ⟨.authentication, none, none,
      text "No SEP-10 JWT supplied; the interactive flow will likely be rejected. " ++
        text "Run the SEP-10 debugger first and pass its token.", some .expiredToken⟩

section

variable (urls : Urls Url)

/-- The request of `postJsonWithTimeout` and `getJsonWithTimeout`, which follow no redirects. -/
def requestJson (network : Network) (url : Text) : Except Exception Response :=
  match urls.parse url with
  | none => .error invalidUrl
  | some target =>
      (checkTarget urls network 0 (text "Unsupported protocol: ") target).bind fun _ =>
        (network.send 0 (urls.href target)).mapError network.caught

def postJsonWithTimeout (network : Network) (url : Text) : Except Exception Response := requestJson urls network url

def getJsonWithTimeout (network : Network) (url : Text) : Except Exception Response := requestJson urls network url

/-- The error that an anchor gives, or else the status. -/
def anchorErrorOf (status : Nat) (json : Value N) : Text :=
  (textMember (text "error") json).getD (text "HTTP " ++ ofNat status)

/-- The answer that creates an interactive transaction. -/
structure Interactive where
  status : Nat
  json : Value Number
  url : Text
  id : Option Text

def interactiveEndpoint (server flow : Text) : Text :=
  dropSlash server ++ text "/transactions/" ++ flow ++ text "/interactive"

def interactiveFailed (error : Exception) : Exception :=
  .badGateway (text "SEP-24 interactive request failed: " ++ error.message)

/-- The endpoint is first asked by `fetchWithTimeout`, then by a post. -/
def createInteractive (calls : AnchorCalls) (endpoint : Text) : Except Exception Interactive :=
  match (fetchWithTimeout urls calls.probe endpoint).2.bind fun _ => postJsonWithTimeout urls calls.post endpoint with
  | .error error => .error (interactiveFailed error)
  | .ok response =>
      match response.body with
      | .error message => .error (.error message)
      | .ok raw =>
          match parse raw with
          | none => .error (.badGateway (text "SEP-24 interactive endpoint returned a non-JSON response"))
          | some .null =>
              .error (.error (text "Cannot read properties of null (reading '" ++
                (if response.ok then text "url" else text "error") ++ text "')"))
          | some json =>
              if response.ok = false then
                .error (.badGateway (text "SEP-24 anchor error: " ++ anchorErrorOf response.status json))
              else
                match (textMember (text "url") json).filter (· ≠ []) with
                | none =>
                    .error (.badGateway (text "SEP-24 interactive response is missing the required \"url\" field"))
                | some url => .ok ⟨response.status, json, url, textMember (text "id") json⟩

def assertSafeNavigationUrl (lookup : Text → Option (List Text)) (urlStr : Text) : Except Exception Url :=
  match urls.parse urlStr with
  | none => .error (.badRequest (text "Unsafe navigation URL: " ++ urlStr))
  | some parsed =>
      if urls.protocol parsed ≠ text "https:" then
        .error (.badRequest
          (text "Unsafe navigation scheme '" ++ urls.protocol parsed ++ text "': only https:// is allowed"))
      else (assertPublicHostname lookup (urls.hostname parsed)).map fun _ => parsed

/-- The origins of the interactive URL and of the anchor. -/
def observeRedirect (lookup : Text → Option (List Text)) (server interactiveUrl : Text) : Except Exception (Text × Text) :=
  (assertSafeNavigationUrl urls lookup interactiveUrl).bind fun parsed =>
    match urls.parse server with
    | none => .error invalidUrl
    | some anchor => .ok (urls.origin parsed, urls.origin anchor)

def redirectEntry (interactiveUrl origin anchorOrigin : Text) : Sep24TimelineEntry :=
  ⟨.redirect, some (text "GET", redactUrl urls interactiveUrl), none,
    if origin ≠ anchorOrigin then
      text "Interactive URL origin " ++ origin ++ text " differs from anchor origin " ++ anchorOrigin
    else text "Interactive URL origin matches anchor origin", none⟩

def interactiveEntry (endpoint : Text) (interactive : Interactive) : Sep24TimelineEntry :=
  ⟨.interactiveUrl, some (text "POST", redactUrl urls endpoint),
    some (interactive.status, redactValue none interactive.json),
    text "Interactive transaction created; open the URL in a sandbox tab", none⟩

end

/-- What the polls have found out. -/
structure Known where
  finalStatus : Option Text
  terminal : Bool
  cancelled : Bool
  timedOut : Bool
  moreInfoUrl : Option Text
  requiredFields : Option (Value Number)
  message : Option Text

def Known.start : Known := ⟨none, false, false, false, none, none, none⟩

/-- The state of the transaction in an answer, whether it is empty or not. -/
def statusOf (parsed : Value N) : Option Text :=
  match (member (text "transaction") parsed).bind (textMember (text "status")) with
  | some status => some status
  | none => textMember (text "status") parsed

/-- The transaction of an answer: what the answer has under that name, unless it is null. -/
def transactionOf (parsed : Value N) : Value N :=
  match member (text "transaction") parsed with
  | none | some .null => parsed
  | some tx => tx

/-- `value && typeof value === 'object'` -/
def isObject : Value N → Bool
  | .arr _ | .obj _ => true
  | _ => false

def Known.learn (known : Known) (tx : Value Number) : Known :=
  { known with
    moreInfoUrl := (textMember (text "more_info_url") tx).or known.moreInfoUrl
    requiredFields := (((member (text "required_info_updates") tx).filter isObject).map (redactValue none)).or
      known.requiredFields
    message := (textMember (text "message") tx).or known.message }

/-- `/token|jwt|auth|expired/i` -/
def meansExpired (anchorError : Text) : Bool :=
  [text "token", text "jwt", text "auth", text "expired"].any (fun pattern => mentions pattern anchorError)

def nullMember (name : Text) : Exception :=
  .error (text "Cannot read properties of null (reading '" ++ name ++ text "')")

section

variable (urls : Urls Url)

/-- A poll's answer with its text. -/
def pollAnswer (network : Network) (pollUrl : Text) : Except Exception (Response × Text) :=
  (getJsonWithTimeout urls network pollUrl).bind fun res =>
    (res.body.mapError Exception.error).map fun raw => (res, raw)

def failedPoll (request : Text × Text) (error : Exception) : Sep24TimelineEntry :=
  ⟨.statusPoll, some request, none, error.message, some (if error = .requestTimeout then .timeout else .http)⟩

/-- What an answer other than null adds to the timeline, what is known after it, and whether polling
goes on. -/
def recordAnswer (request : Text × Text) (res : Response) (parsed : Value Number) (known : Known) :
    Sep24TimelineEntry × Known × Bool :=
  let response := some (res.status, redactValue none parsed)
  if res.ok = false then
    let anchorError := anchorErrorOf res.status parsed
    (⟨.statusPoll, some request, response, text "Anchor status error: " ++ anchorError,
      some (if meansExpired anchorError then .expiredToken else .anchorError)⟩, known, false)
  else
    let known := known.learn (transactionOf parsed)
    match (statusOf parsed).filter (· ≠ []) with
    | none =>
        (⟨.statusPoll, some request, response, text "Status response did not include a recognized status field",
          some .unknownState⟩, known, false)
    | some status =>
        let terminal := SEP24_TERMINAL_STATES.contains status
        (⟨.statusPoll, some request, response, text "Transaction status: " ++ status, none⟩,
          { known with finalStatus := some status, terminal := terminal }, !terminal)

/-- What a poll adds to the timeline, what is known after it, and whether polling goes on. -/
def pollOnce (network : Network) (pollUrl : Text) (known : Known) : Sep24TimelineEntry × Known × Bool :=
  let request := (text "GET", redactUrl urls pollUrl)
  match pollAnswer urls network pollUrl with
  | .error error => (failedPoll request error, known, false)
  | .ok (res, raw) =>
      match parse raw with
      | none =>
          (⟨.statusPoll, some request, some (res.status, .str (raw.take 512)),
            text "Anchor returned a non-JSON status response", some .nonJson⟩, known, false)
      | some .null =>
          (failedPoll request (nullMember (if res.ok then text "more_info_url" else text "error")), known, false)
      | some parsed => recordAnswer request res parsed known

/-- The polling loop, as far as the rounds go. -/
def pollLoop (pollTimeoutMs : Nat) (statusEndpoint id : Text) :
    List Round → Known → Option (Except Exception (List Sep24TimelineEntry × Known))
  | [], _ => none
  | round :: rounds, known =>
      if round.cancelled then
        some (.ok ([⟨.statusPoll, none, none, text "Polling cancelled by caller", some .cancelled⟩],
          { known with cancelled := true }))
      else if round.expired then
        some (.ok ([⟨.statusPoll, none, none, text "Polling timed out after " ++ ofNat pollTimeoutMs ++ text "ms",
          some .timeout⟩], { known with timedOut := true }))
      else
        match appendQuery urls statusEndpoint [(text "id", id)] with
        | .error error => some (.error error)
        | .ok pollUrl =>
            let (entry, known, goesOn) := pollOnce urls round.network pollUrl known
            if goesOn then
              (pollLoop pollTimeoutMs statusEndpoint id rounds known).map fun result =>
                result.map fun (entries, known) => (entry :: entries, known)
            else some (.ok ([entry], known))

def statusEndpoint (server : Text) : Text := dropSlash server ++ text "/transaction"

def pollStage (pollTimeoutMs : Nat) (server : Text) (id : Option Text) (rounds : List Round) :
    Option (Except Exception (List Sep24TimelineEntry × Known)) :=
  match id.filter (· ≠ []) with
  | none =>
      some (.ok ([⟨.statusPoll, none, none,
        text "Interactive response did not include a transaction id; polling skipped", some .schema⟩], .start))
  | some id => pollLoop urls pollTimeoutMs (statusEndpoint server) id rounds .start

end

def terminalEntries (known : Known) : List Sep24TimelineEntry :=
  if known.terminal then
    [⟨.terminal, none, none, text "Reached terminal state: " ++ known.finalStatus.getD (text "null"), none⟩]
  else []

structure Sep24DebuggerResult where
  domain : Text
  flow : Text
  asset : Text
  transferServerSep0024 : Text
  webAuthEndpoint : Option Text
  interactiveUrl : Text
  interactiveUrlOrigin : Text
  originChanged : Bool
  transactionId : Option Text
  known : Known
  diagnostics : List Sep24DiagnosticKind
  timeline : List Sep24TimelineEntry

/-- Nothing comes back as long as the polling loop has rounds to go. -/
def debugSep24InteractiveFlow (source : TomlSource Url N) (calls : AnchorCalls) (params : Sep24DebuggerParams) :
    Option (Except Exception Sep24DebuggerResult) :=
  let cleanDomain := normalizeDomain source.beyondAscii params.domain
  match (checkParams params cleanDomain).bind fun _ => discoverAnchor source cleanDomain with
  | .error error => some (.error error)
  | .ok (server, webAuthEndpoint) =>
      let endpoint := interactiveEndpoint server params.flow
      match createInteractive source.urls calls endpoint with
      | .error error => some (.error error)
      | .ok interactive =>
          match observeRedirect source.urls calls.navigation server interactive.url with
          | .error error => some (.error error)
          | .ok (origin, anchorOrigin) =>
              (pollStage source.urls params.pollTimeoutMs server interactive.id calls.rounds).map fun polled =>
                polled.map fun (polls, known) =>
                  let timeline :=
                    [discoveryEntry server webAuthEndpoint, authenticationEntry params.jwt,
                      redirectEntry source.urls interactive.url origin anchorOrigin,
                      interactiveEntry source.urls endpoint interactive] ++ polls ++ terminalEntries known
                  { domain := cleanDomain, flow := params.flow, asset := params.asset, transferServerSep0024 := server,
                    webAuthEndpoint := webAuthEndpoint, interactiveUrl := interactive.url, interactiveUrlOrigin := origin,
                    originChanged := origin != anchorOrigin, transactionId := interactive.id, known := known,
                    diagnostics := (timeline.filterMap (·.diagnostic)).eraseDups, timeline := timeline }

end Savitools.Federation.AnchorFlow
