import Savitools.Net.Urls
import Savitools.Sep10.TokenExchange
import Savitools.Sep24.PrivateAddresses
import Savitools.Sep24.Sessions

namespace Savitools.Outbound.DebuggerRequests

open Strings.CodeUnits Strings.Utf8 Net.Addresses Net.Urls Net.PlainUrls Common.Exceptions Common.SsrfGuard
open Sep10.Endpoints hiding normalizeDomain
open Sep10.TokenExchange hiding isZero
open Sep24.Sessions hiding stellarTomlUrl
open Sep24.AnchorToml Sep24.SafeTargets Sep24.PrivateAddresses

/-- What a request meets on its way: the addresses of names when the client connects, and the URLs to which
the answers send it on. Both clients follow redirects. -/
structure Delivery (Url : Type) where
  resolve : Text → List Text
  redirects : List Url

/-- A request: its URL, the lookup of the guard that stands before it, where one does, and its delivery. -/
structure Request (Url : Type) where
  url : Text
  guard : Option (Text → Except Text (List Text))
  delivery : Delivery Url

structure ChallengeRequestDto where
  domain : Text
  account : Text
  homeDomain : Option Text
  clientDomain : Option Text

def isFormUnescaped (u : UInt16) : Bool :=
  between 'A' 'Z' u || between 'a' 'z' u || isDigit u || (text "*-._").contains u

/-- A name or a value as `URLSearchParams` writes it. -/
def formEncode (t : Text) : Text :=
  (textEncode t).flatMap fun b =>
    let u : UInt16 := b.toNat.toUInt16
    if isFormUnescaped u then [u] else if u = unit ' ' then [unit '+'] else percentEncode [b]

/-- `new URLSearchParams(params).toString()` -/
def searchParams (params : List (Text × Text)) : Text :=
  [unit '&'].intercalate (params.map fun (name, value) => formEncode name ++ unit '=' :: formEncode value)

def challengeParams (dto : ChallengeRequestDto) : List (Text × Text) :=
  (text "account", dto.account) ::
    ((dto.homeDomain.filter (· ≠ [])).toList.map (text "home_domain", ·) ++
      (dto.clientDomain.filter (· ≠ [])).toList.map (text "client_domain", ·))

def challengeRequestUrl (webAuthEndpoint : Text) (dto : ChallengeRequestDto) : Text :=
  webAuthEndpoint ++ unit '?' :: searchParams (challengeParams dto)

/-- The calls that send requests, each with what its requests meet. -/
inductive Call
  | fetchChallenge (dto : ChallengeRequestDto) (anchor : Anchor)
  | exchangeToken (domain : Text) (anchor : Anchor)
  | startSession (dto : StartSessionDto) (start : Start)
  | pollStatus (session : Sep24SessionState) (exchange : Exchange) (now : Nat)

section Requests

variable {Url : Type} (urls : Urls Url) (beyondAscii : Text → Text) (deliver : Text → Delivery Url)

/-- The document of a domain is read, and a second request goes to what is made of its endpoint. -/
def webAuthRequests (domain : Text) (anchor : Anchor) (second : Text → Text) : List (Request Url) :=
  let discovery : Request Url := ⟨stellarTomlUrl domain, none, deliver (stellarTomlUrl domain)⟩
  match anchor.get (stellarTomlUrl domain) with
  | .error _ => [discovery]
  | .ok tomlResponse =>
      match endpointOf tomlResponse.data with
      | .error _ => [discovery]
      | .ok webAuthEndpoint => [discovery, ⟨second webAuthEndpoint, none, deliver (second webAuthEndpoint)⟩]

def startRequests (dto : StartSessionDto) (start : Start) : List (Request Url) :=
  match normalizeDomain beyondAscii dto.anchorDomain with
  | .error _ => []
  | .ok domain =>
      let tomlUrl := Sep24.Sessions.stellarTomlUrl domain
      let discovery : Request Url := ⟨tomlUrl, some start.discovery.lookup, deliver tomlUrl⟩
      match discover urls start.discovery domain, providedJwt dto with
      | .ok (transferServer, _), .ok _ =>
          let endpoint := interactiveEndpoint transferServer dto.operation
          [discovery, ⟨endpoint, some start.interactive.lookup, deliver endpoint⟩]
      | _, _ => [discovery]

def pollRequests (session : Sep24SessionState) (exchange : Exchange) (now : Nat) : List (Request Url) :=
  if session.transactionId.truthy isZero = false ∨ session.expiresAt < now then []
  else
    match pollEndpoint session with
    | .error _ => []
    | .ok endpoint => [⟨endpoint, some exchange.lookup, deliver endpoint⟩]

/-- The requests that a call comes to, in their order. -/
def requestsOf : Call → List (Request Url)
  | .fetchChallenge dto anchor => webAuthRequests deliver dto.domain anchor fun endpoint => challengeRequestUrl endpoint dto
  | .exchangeToken domain anchor => webAuthRequests deliver domain anchor id
  | .startSession dto start => startRequests urls beyondAscii deliver dto start
  | .pollStatus session exchange now => pollRequests deliver session exchange now

/-- Where a request is sent to, if it is. -/
def sentTo (request : Request Url) : Option Url :=
  match request.guard with
  | some lookup => (assertSafeServerTarget urls lookup request.url).toOption
  | none => (urls.parse request.url).filter fun url => urls.protocol url ∈ httpProtocols

end Requests

variable {Url : Type} {urls : Urls Url} {beyondAscii : Text → Text} {deliver : Text → Delivery Url}

theorem sent_of_send {exchange : Exchange} {url : Text} {answer : Nat × Text} (h : send urls exchange url = .ok answer)
    (delivery : Delivery Url) : (sentTo urls ⟨url, some exchange.lookup, delivery⟩).isSome = true := by
  obtain ⟨target, htarget, -⟩ := bind_eq_ok.mp h
  rw [sentTo]
  dsimp only
  rw [htarget]
  rfl

theorem sent_of_sendJson {exchange : Exchange} {url : Text} {answer : Nat × Json.Values.Value Json.Numbers.Number}
    (h : sendJson urls exchange url = .ok answer) (delivery : Delivery Url) :
    (sentTo urls ⟨url, some exchange.lookup, delivery⟩).isSome = true := by
  obtain ⟨_, hsend, -⟩ := bind_eq_ok.mp h
  exact sent_of_send hsend delivery

/-- A session is started by requests that have all been sent. -/
theorem sent_of_started {timeout : Nat} {dto : StartSessionDto} {start : Start} {session : Sep24SessionState}
    (h : Sep24.Sessions.startSession urls beyondAscii timeout dto start = .ok session) :
    ∀ request ∈ requestsOf urls beyondAscii deliver (.startSession dto start), (sentTo urls request).isSome = true := by
  obtain ⟨domain, hdomain, h⟩ := bind_eq_ok.mp h
  obtain ⟨⟨transferServer, sep10Endpoint⟩, hdiscover, h⟩ := bind_eq_ok.mp h
  obtain ⟨jwt, hjwt, h⟩ := bind_eq_ok.mp h
  obtain ⟨answer, hinteractive, -⟩ := bind_eq_ok.mp h
  obtain ⟨toml, hfetch, -⟩ := bind_eq_ok.mp hdiscover
  obtain ⟨document, hdocument, -⟩ := map_eq_ok_iff.mp hfetch
  rw [requestsOf, startRequests, hdomain]
  dsimp only
  rw [hdiscover, hjwt]
  dsimp only
  rw [List.forall_mem_cons, List.forall_mem_singleton]
  exact ⟨sent_of_send hdocument _, sent_of_sendJson hinteractive _⟩

end Savitools.Outbound.DebuggerRequests
