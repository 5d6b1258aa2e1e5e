import Savitools.Json.Conversions
import Savitools.Json.Doubles
import Savitools.Json.Writing
import Savitools.Outbound.Destinations
import Savitools.Strings.CodeUnits

namespace Savitools.Playground.ProxyRequests

open Strings.CodeUnits Strings.Decimals Strings.Cases Json.Numbers Json.Values Json.Reading Json.Writing Json.Conversions Json.Doubles
open Net.Urls Net.GuardedChains Transitions.Loops Common.Exceptions Outbound.Destinations

def MAX_RESPONSE_SIZE : Nat := 10 * 1024 * 1024

structure ProxyRequestDto where
  provider : Text
  method : Text
  path : Text
  query : List (Text × Text)
  /-- The members of the body, which is an object. -/
  body : Option (List (Text × Value Number))
  headers : List (Text × Text)

structure RequestInit where
  method : Text
  headers : List (Text × Text)
  body : Option Text

structure ProxyResult where
  status : Nat
  headers : List (Text × Text)
  body : Value Number

/-- Assignment to a member of a record. -/
def setMember (name value : Text) : List (Text × Text) → List (Text × Text)
  | [] => [(name, value)]
  | (key, v) :: members => if key = name then (name, value) :: members else (key, v) :: setMember name value members

def deleteMember (name : Text) (members : List (Text × Text)) : List (Text × Text) :=
  members.filter fun member => member.1 != name

/-- The body is sent, but not with these methods. -/
def ProxyRequestDto.sentBody (dto : ProxyRequestDto) : Option (Value Number) :=
  (dto.body.filter fun _ => dto.method != text "GET" && dto.method != text "HEAD").map .obj

def requestHeaders (dto : ProxyRequestDto) (apiKey : Text) : List (Text × Text) :=
  let headers := dto.headers.foldl (fun members header => setMember header.1 header.2 members)
    [(text "Accept", text "application/json")]
  let headers := deleteMember (text "authorization") headers
  let headers :=
    if dto.sentBody.isSome then setMember (text "Content-Type") (text "application/json") headers else headers
  setMember (text "Authorization") (text "Bearer " ++ apiKey) headers

/-- What an error inside of the `try` becomes; an error of the platform stands here as its string. -/
def proxyFailure (dto : ProxyRequestDto) : Exception → Exception
  | .badGateway message => .badGateway message
  | .badRequest message => .badRequest message
  | error => .badGateway (text "Request to " ++ dto.provider ++ text " failed: " ++ error.message)

variable {Url : Type} (urls : Urls Url) (peers : Peers Url RequestInit Text) (dto : ProxyRequestDto)

/-- The state of the loop over redirects. -/
structure Hop (Url : Type) where
  hops : Nat
  target : Url
  response : Response Text

/-- Where a response sends on to. -/
def redirection (response : Response Text) : Option Text :=
  if redirectStatusCodes.contains response.status then response.get (text "location") else none

def redirectedInit (status : Nat) (init : RequestInit) : RequestInit :=
  { init with
    method := if status = 303 then text "GET" else init.method
    body := if status = 303 then none else init.body }

/-- One pass of the `while`. -/
def followRedirect (allowedOrigins : List Text) (init : RequestInit) (s : Hop Url) :
    Pass (Hop Url) (Action Url RequestInit) (Except Exception (Response Text)) :=
  match redirection s.response with
  | none => ⟨[], .inr (.ok s.response)⟩
  | some location =>
      let hops := s.hops + 1
      if MAX_SAFE_REDIRECTS < hops then
        ⟨[], .inr (.error (.badGateway (text "Too many redirects from " ++ dto.provider)))⟩
      else
        match urls.resolve location s.target with
        | none => ⟨[], .inr (.error (.error (text "TypeError: Invalid URL")))⟩
        | some target =>
            let init := redirectedInit s.response.status init
            match visit hops target init (assertSafeDestination urls (peers.lookup hops) target allowedOrigins)
              (peers.fetch hops target init) with
            | (actions, .error error) => ⟨actions, .inr (.error error)⟩
            | (actions, .ok response) => ⟨actions, .inl ⟨hops, target, response⟩⟩

/-- What is made of the last response. `syntaxError` is what is said of a text that is no JSON. -/
def proxyResult (syntaxError : Text → Text) (response : Response Text) : Except Exception ProxyResult :=
  let contentLength := (response.get (text "content-length")).getD []
  if contentLength ≠ [] ∧ gt (parseInt contentLength) (ofInt MAX_RESPONSE_SIZE) then
    .error (.badGateway (text "Response from " ++ dto.provider ++ text " exceeds maximum size limit (" ++
      ofNat MAX_RESPONSE_SIZE ++ text " bytes)"))
  else
    let unreadable (error : Text) : Exception := .badGateway (text "Failed to read response from " ++ dto.provider ++ text ": " ++ error)
    match response.body with
    | .error (.badGateway message) => .error (.badGateway message)
    | .error error => .error (unreadable error.message)
    | .ok body =>
        if text "application/json" <:+: (response.get (text "content-type")).getD [] then
          match parse body with
          | none => .error (unreadable (syntaxError body))
          | some value => .ok ⟨response.status, response.headers, value⟩
        else .ok ⟨response.status, response.headers, .str body⟩

variable (beyondAscii syntaxError : Text → Text) (apiKey baseUrl : Text)

def requestInit : RequestInit where
  method := toUpperCase beyondAscii dto.method
  headers := requestHeaders dto apiKey
  body := dto.sentBody.map stringify

/-- The URL of the request, and the origins that are allowed. -/
def requestTarget : Except Exception (Url × List Text) :=
  (assertRelativePath urls dto.path).bind fun _ =>
    match urls.parse baseUrl with
    | none => .error invalidUrl
    | some base =>
        match urls.resolve dto.path base with
        | none => .error invalidUrl
        | some url => .ok (setParams urls dto.query url, [urls.origin base])

/-- The loop may be stopped after so many passes. -/
def executeProxyRequest (fuel : Nat) : Trace (Action Url RequestInit) (Except Exception ProxyResult) :=
  match requestTarget urls dto baseUrl with
  | .error error => ⟨[], some (.error error)⟩
  | .ok (url, allowedOrigins) =>
      let init := requestInit dto beyondAscii apiKey
      match visit 0 url init (assertSafeDestination urls (peers.lookup 0) url allowedOrigins) (peers.fetch 0 url init) with
      -- The check of the first target is outside of the `try`, where what it throws is thrown on as well.
      | (actions, .error error) => ⟨actions, some (.error (proxyFailure dto error))⟩
      | (actions, .ok response) =>
          ((iterate (followRedirect urls peers dto allowedOrigins init) fuel ⟨0, url, response⟩).map fun result =>
            (result.mapError (proxyFailure dto)).bind (proxyResult dto syntaxError)).after actions

/-- The guard of the proxy, which is that of the origin that the base URL has. -/
def Passes (n : Nat) (url : Url) : Prop :=
  ∃ base, urls.parse baseUrl = some base ∧ assertSafeDestination urls (peers.lookup n) url [urls.origin base] = .ok ()

variable {urls peers dto beyondAscii syntaxError apiKey baseUrl}

section

variable {allowedOrigins : List Text} {init : RequestInit}

theorem followRedirect_inl {s t : Hop Url} (h : (followRedirect urls peers dto allowedOrigins init s).outcome = .inl t) :
    s.hops < MAX_SAFE_REDIRECTS ∧ t.hops = s.hops + 1 := by
  rw [followRedirect] at h
  cases hlocation : redirection s.response with
  | none => simp [hlocation] at h
  | some location =>
      simp only [hlocation] at h
      by_cases hlimit : MAX_SAFE_REDIRECTS < s.hops + 1
      · simp [hlimit] at h
      · rw [if_neg hlimit] at h
        cases hresolve : urls.resolve location s.target with
        | none => simp [hresolve] at h
        | some target =>
            simp only [hresolve] at h
            refine ⟨Nat.not_lt.mp hlimit, ?_⟩
            cases hvisit : visit (s.hops + 1) target (redirectedInit s.response.status init)
                (assertSafeDestination urls (peers.lookup (s.hops + 1)) target allowedOrigins)
                (peers.fetch (s.hops + 1) target (redirectedInit s.response.status init)) with
            | mk actions result =>
                rw [hvisit] at h
                cases result with
                | error error => cases h
                | ok response =>
                    cases h
                    rfl

variable (urls peers dto allowedOrigins init) in
/-- What a pass does is nothing, or a visit while there are hops left. -/
theorem followRedirect_actions (s : Hop Url) :
    (followRedirect urls peers dto allowedOrigins init s).actions = [] ∨
      s.hops < MAX_SAFE_REDIRECTS ∧ ∃ target init',
        (followRedirect urls peers dto allowedOrigins init s).actions =
          (visit (s.hops + 1) target init' (assertSafeDestination urls (peers.lookup (s.hops + 1)) target allowedOrigins)
            (peers.fetch (s.hops + 1) target init')).1 := by
  rw [followRedirect]
  cases redirection s.response with
  | none => exact .inl rfl
  | some location =>
      dsimp only
      by_cases hlimit : MAX_SAFE_REDIRECTS < s.hops + 1
      · exact .inl (by rw [if_pos hlimit])
      · rw [if_neg hlimit]
        cases urls.resolve location s.target with
        | none => exact .inl rfl
        | some target =>
            refine .inr ⟨Nat.not_lt.mp hlimit, target, redirectedInit s.response.status init, ?_⟩
            dsimp only
            cases visit (s.hops + 1) target (redirectedInit s.response.status init)
                (assertSafeDestination urls (peers.lookup (s.hops + 1)) target allowedOrigins)
                (peers.fetch (s.hops + 1) target (redirectedInit s.response.status init)) with
            | mk actions result => cases result <;> rfl

theorem guarded_redirects (fuel : Nat) (s : Hop Url) :
    Guarded (fun n url => assertSafeDestination urls (peers.lookup n) url allowedOrigins = .ok ())
      (iterate (followRedirect urls peers dto allowedOrigins init) fuel s).actions := by
  refine guarded_iterate (fun s => ?_) fuel s
  obtain hactions | ⟨-, target, init', hactions⟩ := followRedirect_actions urls peers dto allowedOrigins init s
  · rw [hactions]
    exact guarded_nil
  · rw [hactions]
    exact guarded_visit id

variable (urls peers dto allowedOrigins init) in
theorem sends_followRedirect (s : Hop Url) : sends (followRedirect urls peers dto allowedOrigins init s).actions ≤ 1 := by
  obtain hactions | ⟨-, target, init', hactions⟩ := followRedirect_actions urls peers dto allowedOrigins init s
  · rw [hactions]
    exact Nat.zero_le 1
  · rw [hactions]
    exact sends_visit

theorem sends_redirects (fuel : Nat) (s : Hop Url) :
    sends (iterate (followRedirect urls peers dto allowedOrigins init) fuel s).actions ≤ MAX_SAFE_REDIRECTS - s.hops := by
  refine sends_iterate (fun s : Hop Url => MAX_SAFE_REDIRECTS - s.hops) ?_ ?_ fuel s
  · intro s r _
    obtain hactions | ⟨hlt, target, init', hactions⟩ := followRedirect_actions urls peers dto allowedOrigins init s
    · rw [hactions]
      exact Nat.zero_le _
    · rw [hactions]
      exact Nat.le_trans sends_visit (Nat.sub_pos_of_lt hlt)
  · intro s t hnext
    obtain ⟨hlt, ht⟩ := followRedirect_inl hnext
    have hone := sends_followRedirect urls peers dto allowedOrigins init s
    omega

variable (urls peers dto allowedOrigins init) in
theorem redirects_end {fuel : Nat} {s : Hop Url} (hfuel : MAX_SAFE_REDIRECTS - s.hops < fuel) :
    ∃ r, (iterate (followRedirect urls peers dto allowedOrigins init) fuel s).result = some r := by
  refine iterate_ends (fun s : Hop Url => MAX_SAFE_REDIRECTS - s.hops) (fun s t hnext => ?_) hfuel
  obtain ⟨hlt, ht⟩ := followRedirect_inl hnext
  omega

end

theorem requestTarget_eq_ok {url : Url} {allowedOrigins : List Text}
    (h : requestTarget urls dto baseUrl = .ok (url, allowedOrigins)) :
    ∃ base, urls.parse baseUrl = some base ∧ allowedOrigins = [urls.origin base] := by
  obtain ⟨-, -, h⟩ := bind_eq_ok.mp h
  cases hbase : urls.parse baseUrl with
  | none => simp [hbase] at h
  | some base =>
      simp only [hbase] at h
      cases hresolve : urls.resolve dto.path base with
      | none => simp [hresolve] at h
      | some url =>
          simp only [hresolve, Except.ok.injEq, Prod.mk.injEq] at h
          exact ⟨base, rfl, h.2.symm⟩

variable (urls peers dto beyondAscii syntaxError apiKey baseUrl) in
/-- Every request of the proxy is contained. -/
theorem executeProxyRequest_contained :
    Contained (Passes urls peers baseUrl) (executeProxyRequest urls peers dto beyondAscii syntaxError apiKey baseUrl) := by
  unfold executeProxyRequest
  cases htarget : requestTarget urls dto baseUrl with
  | error error => exact contained_of_nothing _
  | ok target =>
      obtain ⟨url, allowedOrigins⟩ := target
      obtain ⟨base, hbase, rfl⟩ := requestTarget_eq_ok htarget
      have hpasses {n : Nat} {url : Url} (h : assertSafeDestination urls (peers.lookup n) url [urls.origin base] = .ok ()) :
          Passes urls peers baseUrl n url := ⟨base, hbase, h⟩
      have hguarded : Guarded (Passes urls peers baseUrl) (visit 0 url (requestInit dto beyondAscii apiKey)
          (assertSafeDestination urls (peers.lookup 0) url [urls.origin base])
          (peers.fetch 0 url (requestInit dto beyondAscii apiKey))).1 := guarded_visit hpasses
      have hsends : sends (visit 0 url (requestInit dto beyondAscii apiKey)
          (assertSafeDestination urls (peers.lookup 0) url [urls.origin base])
          (peers.fetch 0 url (requestInit dto beyondAscii apiKey))).1 ≤ 1 := sends_visit
      dsimp only
      generalize visit 0 url (requestInit dto beyondAscii apiKey)
          (assertSafeDestination urls (peers.lookup 0) url [urls.origin base])
          (peers.fetch 0 url (requestInit dto beyondAscii apiKey)) = visited at *
      obtain ⟨actions, result⟩ := visited
      cases result with
      | error error => exact ⟨fun _ => hguarded, fun _ => Nat.le_trans hsends (by decide), fun _ _ => ⟨_, rfl⟩⟩
      | ok response =>
          refine ⟨fun fuel => hguarded.append ?_, fun fuel => ?_, fun fuel hfuel => ?_⟩
          · exact (guarded_redirects fuel _).imp fun n url => hpasses
          · rw [actions_after, actions_map, sends_append, Nat.add_comm]
            exact Nat.add_le_add (sends_redirects fuel _) hsends
          · obtain ⟨r, hr⟩ := redirects_end urls peers dto [urls.origin base] (requestInit dto beyondAscii apiKey)
              (s := ⟨0, url, response⟩) (Nat.lt_of_succ_lt hfuel)
            exact ⟨_, by rw [result_after, Trace.map, hr, Option.map_some]⟩

end Savitools.Playground.ProxyRequests
