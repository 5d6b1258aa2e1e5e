import Savitools.Common.Exceptions
import Savitools.Json.Conversions
import Savitools.Stores.Entries
import Savitools.Common.SecretTexts
import Savitools.Json.Reading
import Savitools.Json.Writing
import Savitools.Sep24.SafeTargets
import Savitools.Strings.Utf8

namespace Savitools.Sep24.AnchorToml

open Strings.CodeUnits Json.Numbers Json.Values Json.Conversions Common.Exceptions Stores.Entries

/-- `domain.trim().replace(/^https?:\/\//i, '').replace(/\/.*$/, '')`, in lower case. -/
def normalizeDomain (beyondAscii : Text → Text) (domain : Text) : Except Exception Text :=
  let t := trim domain
  let t :=
    if (text "https://").isPrefixOf (t.map toLowerAscii) then t.drop 8
    else if (text "http://").isPrefixOf (t.map toLowerAscii) then t.drop 7
    else t
  let trimmed := cutPath t
  if trimmed = [] then .error (.badRequest (text "anchorDomain must be a non-empty hostname"))
  else .ok (toLowerCase beyondAscii trimmed)
where
  /-- The first slash cuts that has no line end behind it. -/
  cutPath : Text → Text
    | [] => []
    | u :: rest => if u = unit '/' ∧ ¬rest.any isLineEnd then [] else u :: cutPath rest

/-- Of lines that a line feed ends, a carriage return before it is no part. -/
def dropReturns : List Text → List Text
  | [] => []
  | [last] => [last]
  | line :: next :: lines =>
      (if line.getLast? = some (unit '\r') then line.dropLast else line) :: dropReturns (next :: lines)

def withoutComment : Text → Text
  | [] => []
  | u :: rest => if u = unit '#' ∧ ¬rest.any isLineEnd then [] else u :: withoutComment rest

/-- `/^\[(.+)\]$/`, with its group trimmed -/
def sectionName (line : Text) : Option Text :=
  let inner := (line.drop 1).dropLast
  if line.head? = some (unit '[') ∧ (line.drop 1).getLast? = some (unit ']') ∧ inner ≠ [] ∧ ¬inner.any isLineEnd then
    some (trim inner)
  else none

def isKeyUnit (u : UInt16) : Bool :=
  between 'A' 'Z' u || between 'a' 'z' u || isDigit u || u == unit '_' || u == unit '-'

/-- `/^([\w-]+)\s*=\s*(.*)$/` -/
def keyMatch (line : Text) : Option (Text × Text) :=
  let key := line.takeWhile isKeyUnit
  let rest := trimStart (line.dropWhile isKeyUnit)
  let value := trimStart (rest.drop 1)
  if key ≠ [] ∧ rest.head? = some (unit '=') ∧ ¬value.any isLineEnd then some (key, value) else none

def tomlValue (value : Text) : Value Number :=
  let value := trim value
  if value.head? = some (unit '"') ∧ 2 ≤ value.length ∧ value.getLast? = some (unit '"') then
    .str ((value.drop 1).dropLast)
  else if value ≠ [] ∧ value.all isDigit then ((toNumber value).map Value.num).getD .null
  else if value = text "true" ∨ value = text "false" then .bool (value = text "true")
  else .str value

abbrev Fields := List (Text × Value Number)

/-- A key that comes again gathers its values in an array. -/
def addKey (key : Text) (value : Value Number) (fields : Fields) : Fields :=
  match fields.lookup key with
  | none => put key value fields
  | some (.arr items) => put key (.arr (items ++ [value])) fields
  | some existing => put key (.arr [existing, value]) fields

def sectionFields (result : Fields) (name : Text) : Option Fields :=
  match result.lookup name with
  | some (.obj fields) => some fields
  | _ => none

/-- The document that has been read, and the section that is open; none is the document itself. -/
structure TomlState where
  result : Fields
  currentSection : Option Text

def readLine (state : TomlState) (rawLine : Text) : TomlState :=
  let line := trim (withoutComment rawLine)
  if line = [] then state
  else
    match sectionName line with
    | some name =>
        if (sectionFields state.result name).isSome then { state with currentSection := some name }
        else ⟨put name (.obj []) state.result, some name⟩
    | none =>
        match keyMatch line with
        | none => state
        | some (key, value) =>
            match state.currentSection with
            | none => { state with result := addKey key (tomlValue value) state.result }
            | some name =>
                let fields := (sectionFields state.result name).getD []
                { state with result := put name (.obj (addKey key (tomlValue value) fields)) state.result }

def parseToml (source : Text) : Fields :=
  ((dropReturns (split (unit '\n') source)).foldl readLine ⟨[], none⟩).result

def textField (name : Text) (toml : Fields) : Option Text :=
  match toml.lookup name with
  | some (.str t) => some t
  | _ => none

def extractTransferServer (toml : Fields) : Except Exception Text :=
  match (textField (text "TRANSFER_SERVER_SEP0024") toml).filter (· ≠ []) with
  | none => .error (.badRequest (text "Anchor stellar.toml does not declare TRANSFER_SERVER_SEP0024."))
  | some value => .ok value

def extractSep10Endpoint (toml : Fields) : Option Text := textField (text "WEB_AUTH_ENDPOINT") toml

end Savitools.Sep24.AnchorToml

namespace Savitools.Sep24.Timelines

open Strings.CodeUnits Json.Values Common.Redaction Common.RedactedValues Common.SecretTexts

variable {N : Type}

inductive TimelineEntryKind
  | discovery
  | auth
  | interactiveUrl
  | redirect
  | callback
  | poll
  | error

/-- An entry, without its id, its time and its duration. -/
structure TimelineEntry (N : Type) where
  kind : TimelineEntryKind
  method : Option Text
  url : Option Text
  status : Option Nat
  request : Option (Value N)
  response : Option (Value N)
  message : Option Text
  details : Option (Value N)

/-- The entry as it is recorded. -/
def record (entry : TimelineEntry N) : TimelineEntry N :=
  { entry with
    request := entry.request.map (redactValue none)
    response := entry.response.map (redactValue none)
    details := entry.details.map (redactValue none) }

def valueTexts (value : Option (Value N)) : List Text := value.elim [] fun value => names value ++ strings value

/-- The texts of an entry: of the values the names of members and the strings. -/
def entryTexts (entry : TimelineEntry N) : List Text :=
  entry.method.toList ++ entry.url.toList ++ entry.message.toList ++ valueTexts entry.request ++
    valueTexts entry.response ++ valueTexts entry.details

/-- The names that are still in a value when it is redacted. -/
def keptNames (value : Option (Value N)) : List Text := value.elim [] fun value => names (redactValue none value)

/-- What `record` takes over as it is. -/
def rawTexts (entry : TimelineEntry N) : List Text :=
  entry.method.toList ++ entry.url.toList ++ entry.message.toList ++ keptNames entry.request ++
    keptNames entry.response ++ keptNames entry.details

def DiscreetEntry (IsToken : Text → Prop) (entry : TimelineEntry N) : Prop := ∀ t ∈ entryTexts entry, Discreet IsToken t

variable {IsToken : Text → Prop}

theorem discreet_valueTexts (hshape : ∀ t, IsToken t → IsJwt t) (value : Option (Value N)) :
    (∀ t ∈ valueTexts (value.map (redactValue none)), Discreet IsToken t) ↔
      ∀ t ∈ keptNames value, Discreet IsToken t := by
  cases value with
  | none => exact Iff.rfl
  | some value =>
      rw [Option.map_some, valueTexts, keptNames, Option.elim_some, Option.elim_some, List.forall_mem_append]
      exact and_iff_left (discreet_redacted hshape value)

/-- A recorded entry gives away what it takes over as it is, and nothing else. -/
theorem discreetEntry_record (hshape : ∀ t, IsToken t → IsJwt t) (entry : TimelineEntry N) :
    DiscreetEntry IsToken (record entry) ↔ ∀ t ∈ rawTexts entry, Discreet IsToken t := by
  simp only [DiscreetEntry, entryTexts, rawTexts, record, List.forall_mem_append, discreet_valueTexts hshape]

end Savitools.Sep24.Timelines

namespace Savitools.Sep24.Sessions

open Strings.CodeUnits Strings.Decimals Strings.Utf8 Net.Urls Json.Numbers Json.Values Json.Conversions Json.Reading Json.Writing
open Common.Exceptions Stores.Entries AnchorToml SafeTargets Timelines

inductive Sep24Operation
  | deposit
  | withdrawal

def Sep24Operation.name : Sep24Operation → Text
  | .deposit => text "deposit"
  | .withdrawal => text "withdrawal"

inductive Sep24TransactionStatus
  | incomplete
  | pendingAnchor
  | pendingStellar
  | pendingUser
  | completed
  | refunded
  | expired
  | error
  | noop
  | unknown
deriving DecidableEq

def Sep24TransactionStatus.name : Sep24TransactionStatus → Text
  | .incomplete => text "incomplete"
  | .pendingAnchor => text "pending_anchor"
  | .pendingStellar => text "pending_stellar"
  | .pendingUser => text "pending_user"
  | .completed => text "completed"
  | .refunded => text "refunded"
  | .expired => text "expired"
  | .error => text "error"
  | .noop => text "noop"
  | .unknown => text "unknown"

def terminalStatuses : List Sep24TransactionStatus := [.completed, .refunded, .expired, .error, .noop]

def knownStatuses : List Sep24TransactionStatus :=
  [.incomplete, .pendingAnchor, .pendingStellar, .pendingUser, .completed, .refunded, .expired, .error, .noop]

def normalizeStatus : Option (Value Number) → Sep24TransactionStatus
  | some (.str status) => (knownStatuses.find? (·.name = status)).getD .unknown
  | _ => .unknown

structure StartSessionDto where
  anchorDomain : Text
  assetCode : Text
  operation : Sep24Operation
  assetIssuer : Option Text
  account : Option Text
  jwt : Option Text
  sep10Jwt : Option Text
  moreInfoUrl : Option Text
  amount : Option Number
  extraFields : Fields

/-- A session. Its transaction id is what the anchor gives, and times are in milliseconds. -/
structure Sep24SessionState where
  id : Text
  anchorDomain : Text
  assetCode : Text
  operation : Sep24Operation
  transferServer : Text
  jwt : Text
  timeline : List (TimelineEntry Number)
  interactiveUrl : Option Text
  transactionId : Value Number
  lastStatus : Sep24TransactionStatus
  lastStatusAt : Nat
  createdAt : Nat
  expiresAt : Nat

def defaultPollTimeoutMs : Nat := 300000

def maxPollTimeoutMs : Nat := 1800000

/-- The timeout of what is configured, in whole milliseconds; nothing stands for NaN. -/
def timeoutMs (configured : Option Number) : Nat :=
  match configured with
  | some (.finite q) => if q ≤ 0 then defaultPollTimeoutMs else min q.floor.toNat maxPollTimeoutMs
  | _ => defaultPollTimeoutMs

/-- What the network gives to one request: the addresses of its host, the status and the body that come
back, and what a second reading of a body gives that is no JSON. -/
structure Exchange where
  lookup : Text → Except Text (List Text)
  answer : Except Exception (Nat × Text)
  reread : Except Exception Text

def isZero (n : Number) : Bool := n == .finite 0

/-- A member that counts as true. -/
def truthyMember (name : Text) (value : Value Number) : Option (Value Number) :=
  (member name value).filter (Value.truthy isZero)

def isObject : Value Number → Bool
  | .arr _ | .obj _ => true
  | _ => false

section Requests

variable {Url : Type} (urls : Urls Url) (exchange : Exchange)

/-- A request, which is sent only to a safe target. -/
def send (url : Text) : Except Exception (Nat × Text) :=
  (assertSafeServerTarget urls exchange.lookup url).bind fun _ => exchange.answer

/-- The status and the data of an answer. -/
def sendJson (url : Text) : Except Exception (Nat × Value Number) :=
  (send urls exchange url).bind fun (status, raw) =>
    match parse raw with
    | some data => .ok (status, data)
    | none => exchange.reread.map fun t => (status, .str t)

def stellarTomlUrl (domain : Text) : Text := text "https://" ++ domain ++ text "/.stellar.toml"

def fetchStellarToml (domain : Text) : Except Exception Fields :=
  (send urls exchange (stellarTomlUrl domain)).map fun answer => parseToml answer.2

end Requests

/-- `replace(/\/+$/, '')` -/
def dropSlashes (t : Text) : Text := (t.reverse.dropWhile (· == unit '/')).reverse

def interactiveEndpoint (transferServer : Text) (operation : Sep24Operation) : Text :=
  dropSlashes transferServer ++ text "/transactions/" ++ operation.name ++ text "/interactive"

/-- A text member of the body; the empty text is left out. -/
def putText (name : Text) (value : Option Text) (body : Fields) : Fields :=
  match value.filter (· ≠ []) with
  | none => body
  | some t => put name (.str t) body

def interactiveBody (dto : StartSessionDto) : Fields :=
  let body := put (text "asset_code") (.str dto.assetCode) []
  let body := putText (text "asset_issuer") dto.assetIssuer body
  let body := putText (text "account") dto.account body
  let body := putText (text "amount") (dto.amount.map numberText) body
  let body := putText (text "quote_id") dto.moreInfoUrl body
  dto.extraFields.foldl (fun body field => put field.1 field.2 body) body

def describeAnchorError (data : Value Number) : Text :=
  if data.truthy isZero = false then text "no response body"
  else
    match data with
    | .str t => t.take 500
    | data =>
        if isObject data then
          match textMember (text "error") data, textMember (text "message") data with
          | some error, _ => error
          | none, some message => message
          | none, none => (stringify data).take 500
        else stringOf data

/-- What the anchor answers when a transaction is asked for: its data with the transaction and its id. -/
def acceptInteractive (status : Nat) (data : Value Number) : Except Exception (Value Number × Value Number) :=
  if 400 ≤ status then
    .error (.badRequest (text "Anchor rejected interactive request (" ++ ofNat status ++ text "): " ++
      describeAnchorError data))
  else if isObject data = false then
    .error (.badRequest (text "Anchor returned a non-JSON interactive response; cannot continue the flow."))
  else
    match truthyMember (text "error") data with
    | some error => .error (.badRequest (text "Anchor error: " ++ stringOf error))
    | none =>
        match truthyMember (text "transaction") data with
        | none =>
            .error (.badRequest (text "Anchor response did not include a transaction id; cannot poll status."))
        | some transaction =>
            match truthyMember (text "id") transaction with
            | none =>
                .error (.badRequest (text "Anchor response did not include a transaction id; cannot poll status."))
            | some id => .ok (transaction, id)

def extractInteractiveUrl (transaction : Value Number) : Option Text :=
  [text "url", text "interactive_url", text "more_info_url"].findSome? fun name =>
    (textMember name transaction).filter (· ≠ [])

/-- An object of the members that are defined. -/
def definedMembers (members : List (Text × Option (Value Number))) : Value Number :=
  .obj (members.filterMap fun (name, value) => value.map (name, ·))

def discoveryEntry (domain transferServer : Text) (sep10Endpoint : Option Text) : TimelineEntry Number where
  kind := .discovery
  method := some (text "GET")
  url := some (stellarTomlUrl domain)
  status := some 200
  request := none
  response :=
    some (definedMembers [(text "TRANSFER_SERVER_SEP0024", some (.str transferServer)),
      (text "WEB_AUTH_ENDPOINT", sep10Endpoint.map .str)])
  message := some (text "Discovered SEP-24 transfer server from stellar.toml")
  details := none

def authEntry (jwt : Text) (sep10Endpoint : Option Text) : TimelineEntry Number where
  kind := .auth
  method := none
  url := none
  status := none
  request := none
  response := none
  message := some (text "Using provided SEP-10 JWT for SEP-24 interactive request")
  details := some (definedMembers [(text "jwt", some (.str jwt)), (text "sep10Endpoint", sep10Endpoint.map .str)])

def interactiveEntry (endpoint : Text) (status : Nat) (body : Fields) (data transaction id : Value Number) :
    TimelineEntry Number where
  kind := .interactiveUrl
  method := some (text "POST")
  url := some endpoint
  status := some status
  request := some (.obj body)
  response := some data
  message :=
    some (if (extractInteractiveUrl transaction).isSome then text "Interactive URL created; open in sandbox tab"
      else text "Transaction created without an interactive URL")
  details :=
    some (definedMembers [(text "transactionId", some id),
      (text "interactiveUrl", (extractInteractiveUrl transaction).map .str),
      (text "moreInfoUrl", member (text "more_info_url") transaction),
      (text "status", member (text "status") transaction)])

/-- What the platform gives to a start: the id of the session, the time at its end and its two requests. -/
structure Start where
  sessionId : Text
  now : Nat
  discovery : Exchange
  interactive : Exchange

section Start

variable {Url : Type} (urls : Urls Url) (beyondAscii : Text → Text) (timeout : Nat)

def discover (exchange : Exchange) (domain : Text) : Except Exception (Text × Option Text) :=
  (fetchStellarToml urls exchange domain).bind fun toml =>
    (extractTransferServer toml).map fun transferServer => (transferServer, extractSep10Endpoint toml)

def providedJwt (dto : StartSessionDto) : Except Exception Text :=
  match (dto.jwt.or dto.sep10Jwt).filter (· ≠ []) with
  | none =>
      .error (.badRequest (text ("A sep10 JWT is required to begin an interactive SEP-24 flow. Run the SEP-10 debugger " ++
        "first and pass the resulting token.")))
  | some jwt => .ok jwt

/-- The URL of a transaction, where it has one, must be safe to open. -/
def checkInteractiveUrl (transaction : Value Number) : Except Exception Unit :=
  match extractInteractiveUrl transaction with
  | none => .ok ()
  | some url => (assertSafeExternalUrl urls url).map fun _ => ()

/-- Of a start that fails the timeline is lost. -/
def startSession (dto : StartSessionDto) (start : Start) : Except Exception Sep24SessionState :=
  (normalizeDomain beyondAscii dto.anchorDomain).bind fun domain =>
    (discover urls start.discovery domain).bind fun (transferServer, sep10Endpoint) =>
      (providedJwt dto).bind fun jwt =>
        let endpoint := interactiveEndpoint transferServer dto.operation
        let body := interactiveBody dto
        (sendJson urls start.interactive endpoint).bind fun (status, data) =>
          (acceptInteractive status data).bind fun (transaction, id) =>
            (checkInteractiveUrl urls transaction).map fun _ =>
              { id := start.sessionId
                anchorDomain := domain
                assetCode := dto.assetCode
                operation := dto.operation
                transferServer := transferServer
                jwt := jwt
                timeline :=
                  [record (discoveryEntry domain transferServer sep10Endpoint), record (authEntry jwt sep10Endpoint),
                    record (interactiveEntry endpoint status body data transaction id)]
                interactiveUrl := extractInteractiveUrl transaction
                transactionId := id
                lastStatus := normalizeStatus (member (text "status") transaction)
                lastStatusAt := start.now
                createdAt := start.now
                expiresAt := start.now + timeout }

end Start

def pollEndpoint (session : Sep24SessionState) : Except Exception Text :=
  match encodeURIComponent (stringOf session.transactionId) with
  | none => .error (.error (text "URI malformed"))
  | some id => .ok (dropSlashes session.transferServer ++ text "/transaction?id=" ++ id)

/-- How an answer to a poll is taken. -/
inductive PollAnswer
  | unauthorized
  | failed
  | notJson
  | anchorError (error : Value Number)
  | noTransaction
  | transaction (transaction : Value Number)

def classifyPoll (httpStatus : Nat) (data : Value Number) : PollAnswer :=
  if httpStatus = 401 ∨ httpStatus = 403 then .unauthorized
  else if 400 ≤ httpStatus then .failed
  else if isObject data = false then .notJson
  else
    match truthyMember (text "error") data with
    | some error => .anchorError error
    | none =>
        match truthyMember (text "transaction") data with
        | none => .noTransaction
        | some transaction => .transaction transaction

def pollMessage (httpStatus : Nat) : PollAnswer → Text
  | .unauthorized => text "Auth token expired or rejected by anchor"
  | .failed => text "Anchor returned HTTP " ++ ofNat httpStatus ++ text " while polling"
  | .notJson => text "Anchor returned a non-JSON poll response"
  | .anchorError error => text "Anchor error while polling: " ++ stringOf error
  | .noTransaction => text "Poll response did not include a transaction object"
  | .transaction transaction =>
      let normalized := normalizeStatus (member (text "status") transaction)
      if normalized ∈ terminalStatuses then text "Terminal status '" ++ normalized.name ++ text "'"
      else text "Status " ++ normalized.name

def pollKind : PollAnswer → TimelineEntryKind
  | .transaction _ => .poll
  | _ => .error

def pollDetails : PollAnswer → Option (Value Number)
  | .transaction transaction =>
      some (definedMembers
        [(text "requiredInfo", (member (text "required_info") transaction).bind (member (text "fields"))),
          (text "moreInfoUrl", member (text "more_info_url") transaction),
          (text "message", member (text "message") transaction),
          (text "statusEta", member (text "status_eta") transaction)])
  | _ => none

def pollEntry (endpoint : Text) (httpStatus : Nat) (data : Value Number) : TimelineEntry Number :=
  let answer := classifyPoll httpStatus data
  { kind := pollKind answer
    method := some (text "GET")
    url := some endpoint
    status := some httpStatus
    request := none
    response := some data
    message := some (pollMessage httpStatus answer)
    details := pollDetails answer }

/-- An entry that is a message alone. -/
def errorEntry (message : Text) : TimelineEntry Number :=
  ⟨.error, none, none, none, none, none, some message, none⟩

/-- What a poll gives back, but for the timeline, which is that of the session. -/
structure PollResult where
  status : Sep24TransactionStatus
  terminal : Bool
  transaction : Value Number
  diagnostic : Option Text

def unknownStatus (status : Option (Value Number)) : Text :=
  text "Unknown transaction status '" ++ ((status.map stringOf).getD (text "undefined")).take 64 ++
    text "'; treating as non-terminal."

def pollResult (httpStatus : Nat) (data : Value Number) : Except Exception PollResult :=
  match classifyPoll httpStatus data with
  | .unauthorized =>
      .error (.badRequest (text ("SEP-10 token expired or was rejected by the anchor. Re-authenticate with the SEP-10 " ++
        "debugger and retry.")))
  | .failed =>
      .error (.badRequest (text "Anchor returned HTTP " ++ ofNat httpStatus ++ text " while polling: " ++
        describeAnchorError data))
  | .notJson =>
      .error (.badRequest (text "Anchor returned a non-JSON poll response; cannot determine transaction state."))
  | .anchorError error => .error (.badRequest (text "Anchor error while polling: " ++ stringOf error))
  | .noTransaction =>
      .error (.badRequest (text "Poll response did not include a transaction object; cannot determine state."))
  | .transaction transaction =>
      let status := member (text "status") transaction
      let normalized := normalizeStatus status
      .ok
        { status := normalized
          terminal := normalized ∈ terminalStatuses
          transaction := transaction
          diagnostic := if normalized = .unknown then some (unknownStatus status) else none }

def Sep24SessionState.recorded (session : Sep24SessionState) (entry : TimelineEntry Number) : Sep24SessionState :=
  { session with timeline := session.timeline ++ [record entry] }

/-- The session after an answer to a poll. -/
def Sep24SessionState.polled (session : Sep24SessionState) (endpoint : Text) (httpStatus : Nat) (data : Value Number)
    (now : Nat) : Sep24SessionState :=
  match pollResult httpStatus data with
  | .error _ => session.recorded (pollEntry endpoint httpStatus data)
  | .ok result =>
      { session.recorded (pollEntry endpoint httpStatus data) with
        lastStatus := result.status
        lastStatusAt := now }

def getEntries (session : Sep24SessionState) : List (TimelineEntry Number) := session.timeline

/-- What is exported, without the time. -/
structure TimelineExport where
  sessionId : Text
  assetCode : Text
  operation : Sep24Operation
  anchorDomain : Text
  entries : List (TimelineEntry Number)

def exportTimeline (session : Sep24SessionState) : TimelineExport :=
  ⟨session.id, session.assetCode, session.operation, session.anchorDomain, getEntries session⟩

/-- The service: the session objects that there have been, those that are found by their ids, and the polls
that wait for their answers, each with its object and its endpoint. -/
structure Sep24DebuggerService where
  objects : List Sep24SessionState
  sessions : List (Text × Nat)
  polls : List (Nat × Text)

inductive Event
  | startSession (dto : StartSessionDto) (start : Start)
  | pollStatus (sessionId : Text) (now : Nat)
  | answered (poll : Nat) (exchange : Exchange) (now : Nat)
  | cancelSession (sessionId : Text)

/-- The object of a session that is open. -/
def Sep24DebuggerService.getSession (service : Sep24DebuggerService) (sessionId : Text) :
    Except Exception (Nat × Sep24SessionState) :=
  match (service.sessions.lookup sessionId).bind fun object => service.objects[object]?.map fun session => (object, session) with
  | none => .error (.notFound (text "SEP-24 debug session " ++ sessionId ++ text " not found"))
  | some found => .ok found

def deadlinePassed : TimelineEntry Number := errorEntry (text "Polling timeout exceeded for this session")

def cancelled : TimelineEntry Number := errorEntry (text "Session cancelled by user")

section Service

variable {Url : Type} (urls : Urls Url) (beyondAscii : Text → Text) (timeout : Nat)

/-- What happens to the service in one step. An error leaves it as it is, but for what is recorded before. -/
def step (service : Sep24DebuggerService) : Event → Sep24DebuggerService
  | .startSession dto start =>
      match startSession urls beyondAscii timeout dto start with
      | .error _ => service
      | .ok session =>
          { service with
            objects := service.objects ++ [session]
            sessions := put session.id service.objects.length service.sessions }
  | .pollStatus sessionId now =>
      match service.getSession sessionId with
      | .error _ => service
      | .ok (object, session) =>
          if session.transactionId.truthy isZero = false then service
          else if session.expiresAt < now then
            { service with objects := service.objects.set object (session.recorded deadlinePassed) }
          else
            match pollEndpoint session with
            | .error _ => service
            | .ok endpoint => { service with polls := service.polls ++ [(object, endpoint)] }
  | .answered poll exchange now =>
      match service.polls[poll]? with
      | none => service
      | some (object, endpoint) =>
          let service := { service with polls := service.polls.eraseIdx poll }
          match sendJson urls exchange endpoint, service.objects[object]? with
          | .ok (httpStatus, data), some session =>
              { service with objects := service.objects.set object (session.polled endpoint httpStatus data now) }
          | _, _ => service
  | .cancelSession sessionId =>
      match service.getSession sessionId with
      | .error _ => service
      | .ok (object, session) =>
          { service with
            objects := service.objects.set object (session.recorded cancelled)
            sessions := service.sessions.filter (·.1 != sessionId) }

def initial : Sep24DebuggerService := ⟨[], [], []⟩

def run (events : List Event) : Sep24DebuggerService := events.foldl (step urls beyondAscii timeout) initial

end Service

end Savitools.Sep24.Sessions
