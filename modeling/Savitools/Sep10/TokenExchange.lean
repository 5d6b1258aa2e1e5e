import Savitools.Common.Exceptions
import Savitools.Json.Conversions
import Savitools.Json.Reading
import Savitools.Strings.Base64
import Savitools.Strings.Utf8

namespace Savitools.Sep10.Endpoints

open Strings.CodeUnits Json.Numbers Json.Values Json.Conversions Common.Exceptions

/-- An answer with its data as the client gives them: JSON that has been read, or a text. -/
structure AxiosResponse where
  status : Nat
  statusText : Text
  headers : List (Text × Value Number)
  data : Value Number

/-- What was asked for, as far as it is known when a request fails. -/
structure AxiosConfig where
  method : Text
  url : Text
  headers : List (Text × Value Number)

inductive RequestFailure
  /-- An error of the client, with the answer of a status that it does not accept. -/
  | axios (message : Text) (config : Option AxiosConfig) (response : Option AxiosResponse)
  | other (message : Text)

/-- `domain.endsWith('/') ? domain.slice(0, -1) : domain` -/
def normalizeDomain (domain : Text) : Text := if domain.getLast? = some (unit '/') then domain.dropLast else domain

def stellarTomlUrl (domain : Text) : Text := normalizeDomain domain ++ text "/.well-known/stellar.toml"

def endpointName : Text := text "WEB_AUTH_ENDPOINT"

/-- The group of `WEB_AUTH_ENDPOINT\s*=\s*"([^"]+)"` at the start of a text. -/
def endpointAt (t : Text) : Option Text :=
  let rest := trimStart (t.drop endpointName.length)
  let value := trimStart (rest.drop 1)
  let endpoint := (value.drop 1).takeWhile (· != unit '"')
  if endpointName <+: t ∧ rest.head? = some (unit '=') ∧ value.head? = some (unit '"') ∧ endpoint ≠ [] ∧
      endpoint.length < (value.drop 1).length then some endpoint
  else none

def matchEndpoint (t : Text) : Option Text := t.tails.findSome? endpointAt

/-- The first line that starts with the name decides. -/
def parseWebAuthEndpoint (stellarToml : Text) : Option Text :=
  match (split (unit '\n') stellarToml).find? (fun line => endpointName.isPrefixOf (trim line)) with
  | some line => matchEndpoint (trim line)
  | none => none

/-- What is thrown where the data of the document are no text. -/
def notText : Value Number → Text
  | .null => text "Cannot read properties of null (reading 'split')"
  | _ => text "stellarToml.split is not a function"

/-- The endpoint that the document of a domain names, or the message of what is thrown. -/
def endpointOf (data : Value Number) : Except Text Text :=
  match data with
  | .str stellarToml =>
      match parseWebAuthEndpoint stellarToml with
      | none => .error (text "No WEB_AUTH_ENDPOINT found in stellar.toml")
      | some endpoint => .ok endpoint
  | data => .error (notText data)

end Savitools.Sep10.Endpoints

namespace Savitools.Sep10.TokenExchange

open Strings.CodeUnits Strings.Base64 Strings.Utf8 Json.Numbers Json.Values Json.Reading Json.Conversions Endpoints

/-- The diagnostics of a request, without its duration. The body of the request is fixed. -/
structure HttpDiagnostics where
  method : Text
  url : Text
  requestHeaders : List (Text × Text)
  transaction : Text
  status : Nat
  statusText : Text
  responseHeaders : List (Text × Text)
  body : Option (Value Number)

structure ExchangeResult where
  token : Option Text
  decodedClaims : Option (List (Text × Value Number))
  httpDiagnostics : HttpDiagnostics
  redactionNotice : Text

/-- The payload of the exception that is thrown. -/
inductive ExchangeException
  | diagnosed (message : Text) (httpDiagnostics : HttpDiagnostics) (redactionNotice : Text)
  | plain (message : Text)

def sensitiveHeaders : List Text := [text "authorization", text "x-api-key", text "cookie", text "set-cookie"]

variable (beyondAscii : Text → Text)

def isSensitiveHeader (key : Text) : Bool := sensitiveHeaders.contains (toLowerCase beyondAscii key)

def redactSensitiveHeaders (headers : List (Text × Value Number)) : List (Text × Text) :=
  headers.map fun (key, value) =>
    (key, if isSensitiveHeader beyondAscii key then text "[REDACTED]" else stringOf value)

def redactedXdr : Text := text "[REDACTED_XDR]"

/-- The claims that are shown of a token. -/
def claimNames : List Text := [text "iss", text "sub", text "iat", text "exp"]

/-- The payload of a token, where it can be read; null has no claims. -/
def decodedPayload (token : Value Number) : Option (Value Number) :=
  match token with
  | .str t => ((split (unit '.') t)[1]?.bind fun payload => parse (textDecode (fromBase64 payload)))
  | _ => none

def decodedClaims (token : Value Number) : Option (List (Text × Value Number)) :=
  match decodedPayload token with
  | none | some .null => none
  | some decoded => some (claimNames.filterMap fun name => (member name decoded).map fun value => (name, value))

def isZero (n : Number) : Bool := n == .finite 0

def exchangeResult (webAuthEndpoint : Text) (tokenResponse : AxiosResponse) : Except Text ExchangeResult :=
  match tokenResponse.data with
  | .null => .error (text "Cannot read properties of null (reading 'token')")
  | data =>
      let token := (member (text "token") data).filter (Value.truthy isZero)
      .ok
        { token := token.map fun _ => text "[REDACTED_FOR_SECURITY]"
          decodedClaims := token.bind decodedClaims
          httpDiagnostics :=
            { method := text "POST"
              url := webAuthEndpoint
              requestHeaders :=
                redactSensitiveHeaders beyondAscii [(text "Content-Type", .str (text "application/json"))]
              transaction := redactedXdr
              status := tokenResponse.status
              statusText := tokenResponse.statusText
              responseHeaders := redactSensitiveHeaders beyondAscii tokenResponse.headers
              body := some tokenResponse.data }
          redactionNotice := text "JWT token has been redacted from response for security" }

def exchangeException : RequestFailure → ExchangeException
  | .axios message config response =>
      .diagnosed (text "Token exchange failed: " ++ message)
        { method := text "POST"
          url := config.elim [] AxiosConfig.url
          requestHeaders := redactSensitiveHeaders beyondAscii (config.elim [] AxiosConfig.headers)
          transaction := redactedXdr
          status := response.elim 0 AxiosResponse.status
          statusText :=
            ((response.map AxiosResponse.statusText).filter (· ≠ [])).getD (text "Network Error")
          responseHeaders := redactSensitiveHeaders beyondAscii (response.elim [] AxiosResponse.headers)
          body := response.map AxiosResponse.data }
        (text "Sensitive data has been redacted for security")
  | .other message => .plain (text "Token exchange failed: " ++ message)

/-- What the two requests of the exchange meet, by their URLs. -/
structure Anchor where
  get : Text → Except RequestFailure AxiosResponse
  post : Text → Except RequestFailure AxiosResponse

def exchangeToken (anchor : Anchor) (domain : Text) : Except ExchangeException ExchangeResult :=
  match anchor.get (stellarTomlUrl domain) with
  | .error failure => .error (exchangeException beyondAscii failure)
  | .ok tomlResponse =>
      match endpointOf tomlResponse.data with
      | .error message => .error (exchangeException beyondAscii (.other message))
      | .ok webAuthEndpoint =>
          match anchor.post webAuthEndpoint with
          | .error failure => .error (exchangeException beyondAscii failure)
          | .ok tokenResponse =>
              match exchangeResult beyondAscii webAuthEndpoint tokenResponse with
              | .error message => .error (exchangeException beyondAscii (.other message))
              | .ok result => .ok result

end Savitools.Sep10.TokenExchange
