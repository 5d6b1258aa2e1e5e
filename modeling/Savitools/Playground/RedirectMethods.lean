import Savitools.Playground.ProxyRequests

namespace Savitools.Playground.RedirectMethods

open Strings.CodeUnits Json.Values Net.Urls Net.GuardedChains Transitions.Loops Common.Exceptions
open Outbound.Destinations ProxyRequests

variable {Url : Type}

def sentBy : Action Url RequestInit → Option (Url × RequestInit)
  | .send url init => some (url, init)
  | .check _ _ => none

/-- The requests of a run, in their order. -/
def requests (actions : List (Action Url RequestInit)) : List (Url × RequestInit) := actions.filterMap sentBy

/-- What the request with this number is answered with, where the first one has the number `n`. -/
def statusFrom (peers : Peers Url RequestInit Text) (n : Nat) (sent : List (Url × RequestInit)) (k : Nat) : Option Nat :=
  sent[k]?.bind fun request => (peers.fetch (n + k) request.1 request.2).toOption.map (·.status)

/-- A GET without a body. -/
def Bodyless (init : RequestInit) : Prop := init.method = text "GET" ∧ init.body = none

/-- After a request that is answered with 303, all later ones are GETs without a body. -/
def KeepsMethod (peers : Peers Url RequestInit Text) (sent : List (Url × RequestInit)) : Prop :=
  ∀ k j request, k < j → statusFrom peers 0 sent k = some 303 → sent[j]? = some request → Bodyless request.2

/-- A redirect that is followed after a 303 is a 303 as well. -/
def KeepsStatus (peers : Peers Url RequestInit Text) (sent : List (Url × RequestInit)) : Prop :=
  ∀ k j, k < j → j + 1 < sent.length → statusFrom peers 0 sent k = some 303 → statusFrom peers 0 sent j = some 303

/-- Each request is the original one as the answer before it rewrites that; the first comes after this status. -/
def Rewritten (peers : Peers Url RequestInit Text) (init : RequestInit) : Nat → Nat → List (Url × RequestInit) → Prop
  | _, _, [] => True
  | n, status, request :: rest => request.2 = redirectedInit status init ∧
      (rest ≠ [] → ∃ response, peers.fetch n request.1 request.2 = .ok response ∧
        Rewritten peers init (n + 1) response.status rest)

theorem requests_append (actions others : List (Action Url RequestInit)) :
    requests (actions ++ others) = requests actions ++ requests others := List.filterMap_append

section Visits

variable {n : Nat} {url : Url} {init : RequestInit} {check : Except Exception Unit} {answer : Except Exception (Response Text)}
  {actions : List (Action Url RequestInit)}

/-- A visit that is answered has sent its request. -/
theorem requests_visit_ok {response : Response Text} (h : visit n url init check answer = (actions, .ok response)) :
    requests actions = [(url, init)] ∧ answer = .ok response := by
  cases check with
  | error error => cases h
  | ok _ =>
      obtain ⟨rfl, rfl⟩ := Prod.mk.inj h
      exact ⟨rfl, rfl⟩

theorem requests_visit_error {error : Exception} (h : visit n url init check answer = (actions, .error error)) :
    requests actions = [] ∨ requests actions = [(url, init)] := by
  cases check with
  | error error =>
      obtain ⟨rfl, -⟩ := Prod.mk.inj h
      exact .inl rfl
  | ok _ =>
      obtain ⟨rfl, -⟩ := Prod.mk.inj h
      exact .inr rfl

end Visits

section Redirects

variable {urls : Urls Url} {peers : Peers Url RequestInit Text} {dto : ProxyRequestDto} {allowedOrigins : List Text}
  {init : RequestInit}

/-- A pass ends the loop, having sent at most one request, or has sent one and goes on with the answer to it. -/
theorem followRedirect_cases (s : Hop Url) :
    (∃ result, (followRedirect urls peers dto allowedOrigins init s).outcome = .inr result ∧
      (requests (followRedirect urls peers dto allowedOrigins init s).actions = [] ∨
        ∃ target, requests (followRedirect urls peers dto allowedOrigins init s).actions =
          [(target, redirectedInit s.response.status init)])) ∨
    ∃ target t, (followRedirect urls peers dto allowedOrigins init s).outcome = .inl t ∧
      requests (followRedirect urls peers dto allowedOrigins init s).actions =
        [(target, redirectedInit s.response.status init)] ∧
      peers.fetch (s.hops + 1) target (redirectedInit s.response.status init) = .ok t.response ∧ t.hops = s.hops + 1 := by
  rw [followRedirect]
  cases hlocation : redirection s.response with
  | none => exact .inl ⟨_, rfl, .inl rfl⟩
  | some location =>
      dsimp only
      by_cases hlimit : MAX_SAFE_REDIRECTS < s.hops + 1
      · rw [if_pos hlimit]
        exact .inl ⟨_, rfl, .inl rfl⟩
      · rw [if_neg hlimit]
        cases hresolve : urls.resolve location s.target with
        | none => exact .inl ⟨_, rfl, .inl rfl⟩
        | some target =>
            dsimp only
            cases hvisit : visit (s.hops + 1) target (redirectedInit s.response.status init)
                (assertSafeDestination urls (peers.lookup (s.hops + 1)) target allowedOrigins)
                (peers.fetch (s.hops + 1) target (redirectedInit s.response.status init)) with
            | mk actions answer =>
                cases answer with
                | error error =>
                    exact .inl ⟨_, rfl, (requests_visit_error hvisit).imp_right fun hsent => ⟨target, hsent⟩⟩
                | ok response =>
                    obtain ⟨hsent, hanswer⟩ := requests_visit_ok hvisit
                    exact .inr ⟨target, _, rfl, hsent, hanswer, rfl⟩

theorem rewritten_redirects (fuel : Nat) (s : Hop Url) : Rewritten peers init (s.hops + 1) s.response.status
    (requests (iterate (followRedirect urls peers dto allowedOrigins init) fuel s).actions) := by
  refine iterate_induction (P := fun s actions => Rewritten peers init (s.hops + 1) s.response.status (requests actions))
    (fun _ => trivial) (fun s result h => ?_) (fun s t rest h hrest => ?_) fuel s
  · obtain ⟨-, -, hnone | ⟨target, hone⟩⟩ | ⟨target, t, hgoes, -⟩ := followRedirect_cases s
    · rw [hnone]
      trivial
    · rw [hone]
      exact ⟨rfl, fun hne => absurd rfl hne⟩
    · cases h.symm.trans hgoes
  · obtain ⟨result, hends, -⟩ | ⟨target, u, hgoes, hone, hfetch, hhops⟩ := followRedirect_cases s
    · cases h.symm.trans hends
    · obtain rfl := Sum.inl.inj (h.symm.trans hgoes)
      rw [requests_append, hone]
      refine ⟨rfl, fun _ => ⟨t.response, hfetch, ?_⟩⟩
      rw [hhops] at hrest
      exact hrest

end Redirects

section Requests

variable {peers : Peers Url RequestInit Text} {init : RequestInit}

theorem statusFrom_zero {n : Nat} {request : Url × RequestInit} {rest : List (Url × RequestInit)} {response : Response Text}
    (h : peers.fetch n request.1 request.2 = .ok response) : statusFrom peers n (request :: rest) 0 = some response.status := by
  rw [statusFrom, List.getElem?_cons_zero, Option.bind_some, Nat.add_zero, h]
  rfl

theorem statusFrom_succ {n k : Nat} {request : Url × RequestInit} {rest : List (Url × RequestInit)} :
    statusFrom peers n (request :: rest) (k + 1) = statusFrom peers (n + 1) rest k := by
  rw [statusFrom, statusFrom, List.getElem?_cons_succ, Nat.add_right_comm, Nat.add_assoc]

/-- Each request but the first was rewritten by the answer to the one before it. -/
theorem Rewritten.get {n status j : Nat} {sent : List (Url × RequestInit)} (h : Rewritten peers init n status sent)
    {request : Url × RequestInit} (hrequest : sent[j + 1]? = some request) :
    ∃ status', statusFrom peers n sent j = some status' ∧ request.2 = redirectedInit status' init := by
  induction sent generalizing n status j with
  | nil => cases hrequest
  | cons first rest ih =>
      obtain ⟨-, hrest⟩ := h
      rw [List.getElem?_cons_succ] at hrequest
      have hne : rest ≠ [] := by
        rintro rfl
        cases hrequest
      obtain ⟨response, hfetch, hrewritten⟩ := hrest hne
      cases j with
      | zero =>
          refine ⟨response.status, statusFrom_zero hfetch, ?_⟩
          cases rest with
          | nil => cases hrequest
          | cons second rest =>
              cases hrequest
              exact hrewritten.1
      | succ j =>
          rw [statusFrom_succ]
          exact ih hrewritten hrequest

/-- A chain keeps the rewritten method just when it starts with a GET without a body, or has no other redirect after a 303. -/
theorem keepsMethod_iff {sent : List (Url × RequestInit)}
    (hlater : ∀ j request, sent[j + 1]? = some request →
      ∃ status, statusFrom peers 0 sent j = some status ∧ request.2 = redirectedInit status init) :
    KeepsMethod peers sent ↔ Bodyless init ∨ KeepsStatus peers sent := by
  have hrewritten : Bodyless (redirectedInit 303 init) := ⟨rfl, rfl⟩
  have hkept {status : Nat} (hstatus : status ≠ 303) : redirectedInit status init = init := by
    rw [redirectedInit, if_neg hstatus, if_neg hstatus]
  constructor
  · intro h
    rw [or_iff_not_imp_left]
    intro hbody k j hkj hj hk
    obtain ⟨status, hstatus, hinit⟩ := hlater j _ (List.getElem?_eq_getElem hj)
    rw [hstatus]
    by_contra hother
    have hbodyless := h k (j + 1) _ (Nat.lt_succ_of_lt hkj) hk (List.getElem?_eq_getElem hj)
    rw [hinit, hkept (fun heq => hother (congrArg some heq))] at hbodyless
    exact hbody hbodyless
  · intro h k j request hkj hk hrequest
    obtain ⟨j, rfl⟩ : ∃ i, j = i + 1 := ⟨j - 1, by omega⟩
    obtain ⟨status, hstatus, hinit⟩ := hlater j request hrequest
    rw [hinit]
    by_cases h303 : status = 303
    · rw [h303]
      exact hrewritten
    · rw [hkept h303]
      rcases h with hbodyless | hkeeps
      · exact hbodyless
      · obtain ⟨hj, -⟩ := List.getElem?_eq_some_iff.mp hrequest
        have hsame : statusFrom peers 0 sent j = some 303 := by
          rcases Nat.lt_or_eq_of_le (Nat.le_of_lt_succ hkj) with hlt | rfl
          · exact hkeeps k j hlt hj hk
          · exact hk
        rw [hstatus] at hsame
        exact absurd (Option.some.inj hsame) h303

end Requests

variable (urls : Urls Url) (peers : Peers Url RequestInit Text) (dto : ProxyRequestDto) (beyondAscii syntaxError : Text → Text)
  (apiKey baseUrl : Text)

/-- The requests of a run are the original one and what the answers make of it. -/
theorem requests_executeProxyRequest (fuel : Nat) :
    requests (executeProxyRequest urls peers dto beyondAscii syntaxError apiKey baseUrl fuel).actions = [] ∨
      ∃ url rest, requests (executeProxyRequest urls peers dto beyondAscii syntaxError apiKey baseUrl fuel).actions =
          (url, requestInit dto beyondAscii apiKey) :: rest ∧
        (rest ≠ [] → ∃ response, peers.fetch 0 url (requestInit dto beyondAscii apiKey) = .ok response ∧
          Rewritten peers (requestInit dto beyondAscii apiKey) 1 response.status rest) := by
  rw [executeProxyRequest]
  cases requestTarget urls dto baseUrl with
  | error error => exact .inl rfl
  | ok target =>
      obtain ⟨url, allowedOrigins⟩ := target
      dsimp only
      cases hvisit : visit 0 url (requestInit dto beyondAscii apiKey)
          (assertSafeDestination urls (peers.lookup 0) url allowedOrigins)
          (peers.fetch 0 url (requestInit dto beyondAscii apiKey)) with
      | mk actions answer =>
          cases answer with
          | error error =>
              rcases requests_visit_error hvisit with hnone | hone
              · exact .inl hnone
              · exact .inr ⟨url, [], hone, fun hne => absurd rfl hne⟩
          | ok response =>
              obtain ⟨hsent, hanswer⟩ := requests_visit_ok hvisit
              have hrest := @rewritten_redirects Url urls peers dto allowedOrigins (requestInit dto beyondAscii apiKey) fuel
                ⟨0, url, response⟩
              refine .inr ⟨url, _, ?_, fun _ => ⟨response, hanswer, hrest⟩⟩
              dsimp only
              rw [actions_after, actions_map, requests_append, hsent]
              rfl

/-- In every run of the proxy, once a request was answered with 303 all later ones are GETs without a body, if and only if the
original request is one, or no followed redirect after a 303 has another status. -/
theorem keepsMethod_executeProxyRequest (fuel : Nat) :
    KeepsMethod peers (requests (executeProxyRequest urls peers dto beyondAscii syntaxError apiKey baseUrl fuel).actions) ↔
      Bodyless (requestInit dto beyondAscii apiKey) ∨
        KeepsStatus peers (requests (executeProxyRequest urls peers dto beyondAscii syntaxError apiKey baseUrl fuel).actions) := by
  rcases requests_executeProxyRequest urls peers dto beyondAscii syntaxError apiKey baseUrl fuel with
    hnone | ⟨url, rest, hsent, hrest⟩
  · rw [hnone]
    exact keepsMethod_iff fun _ _ h => nomatch h
  · rw [hsent]
    have hsent : Rewritten peers (requestInit dto beyondAscii apiKey) 0 200
        ((url, requestInit dto beyondAscii apiKey) :: rest) := ⟨rfl, hrest⟩
    exact keepsMethod_iff fun j request h => hsent.get h

/-- One URL, to which all others lead. -/
def oneUrl : Urls Unit where
  parse t := if t.head? = some (unit '/') then none else some ()
  resolve _ _ := some ()
  setParam _ _ url := url
  href _ := text "https://93.184.216.34/"
  protocol _ := text "https:"
  hostname _ := text "93.184.216.34"
  origin _ := text "https://93.184.216.34"
  pathname _ := text "/"
  search _ := []

/-- The first request is answered with 303, the second with 307. -/
def seeOther : Peers Unit RequestInit Text where
  lookup _ _ := none
  fetch n _ _ := .ok ⟨[303, 307].getD n 200, [(text "location", text "/next")], .ok []⟩

def paymentDto : ProxyRequestDto where
  provider := text "crowdpay"
  method := text "POST"
  path := text "/payments"
  query := []
  body := some []
  headers := []

/-- The body that the 303 dropped is sent again with the third request. -/
theorem not_keepsMethod : ¬KeepsMethod seeOther
    (requests (executeProxyRequest oneUrl seeOther paymentDto id id [] (text "https://93.184.216.34") 7).actions) := by
  intro h
  have hbodyless := h 0 2 ((), requestInit paymentDto id []) (by decide) (by decide) rfl
  exact absurd hbodyless.1 (by decide)

end Savitools.Playground.RedirectMethods
