import Mathlib.Tactic.SplitIfs
import Savitools.Json.Writing
import Savitools.Outbound.Destinations
import Savitools.Webhook.Signature

namespace Savitools.Contracts.EventReplays

open Strings.CodeUnits Json.Numbers Json.Values Json.Writing Json.Doubles Net.Urls Net.GuardedChains Transitions.Loops
open Common.Exceptions Outbound.Destinations Webhook.Signature

structure ReplayEventsDto where
  webhookUrl : Text
  secret : Option Text
  events : List (Value Number)

structure RequestInit where
  method : Text
  headers : List (Text × Text)
  body : Text

structure ReplayResult where
  index : Nat
  eventId : Option Text
  statusCode : Option Nat
  ok : Bool
  error : Option Text
deriving DecidableEq

structure ReplaySummary where
  delivered : Nat
  failed : Nat
  results : List ReplayResult
  secret : Text
deriving DecidableEq

variable {Url : Type} (urls : Urls Url) (peers : Peers Url RequestInit Unit)

structure Hop (Url : Type) where
  hop : Nat
  currentUrl : Url

/-- One pass of the `for`. -/
def followRedirect (init : RequestInit) (s : Hop Url) :
    Pass (Hop Url) (Action Url RequestInit) (Except Exception (Response Unit)) :=
  if s.hop ≤ MAX_WEBHOOK_REDIRECTS then
    let sent := Action.send s.currentUrl init
    match peers.fetch s.hop s.currentUrl init with
    | .error error => ⟨[sent], .inr (.error error)⟩
    | .ok response =>
        if !redirectStatusCodes.contains response.status then ⟨[sent], .inr (.ok response)⟩
        else
          let location := (response.get (text "location")).getD []
          if location = [] then ⟨[sent], .inr (.ok response)⟩
          else
            match urls.resolve location s.currentUrl with
            | none => ⟨[sent], .inr (.error invalidUrl)⟩
            | some currentUrl =>
                match assertSafeWebhookDestination urls (peers.lookup (s.hop + 1)) currentUrl with
                | .error error => ⟨[sent, .check (s.hop + 1) currentUrl], .inr (.error error)⟩
                | .ok () => ⟨[sent, .check (s.hop + 1) currentUrl], .inl ⟨s.hop + 1, currentUrl⟩⟩
  else ⟨[], .inr (.error (.badRequest (text "Too many redirects")))⟩

/-- The loop may be stopped after so many passes. -/
def fetchWithRedirectGuard (url : Url) (init : RequestInit) (fuel : Nat) :
    Trace (Action Url RequestInit) (Except Exception (Response Unit)) :=
  iterate (followRedirect urls peers init) fuel ⟨0, url⟩

def signatureHeaders (hmac : Bytes → Bytes → Digest) (nowSeconds : Double) (secret body : Text) : List (Text × Text) :=
  let signed := signBody hmac nowSeconds secret (.text body) none
  [(text "X-SaviTools-Signature", signed.signature), (text "X-SaviTools-Timestamp", signed.timestamp)]

/-- `response.ok` -/
def isOk (response : Response Unit) : Bool := 200 ≤ response.status && response.status ≤ 299

variable (hmac : Bytes → Bytes → Digest) (nowSeconds : Double)

def deliverOne (destination : Url) (event : Value Number) (index : Nat) (secret : Text) (fuel : Nat) :
    Trace (Action Url RequestInit) ReplayResult :=
  let eventId := textMember (text "id") event
  let body := stringify event
  let headers := (text "Content-Type", text "application/json") ::
    if secret = [] then [] else signatureHeaders hmac nowSeconds secret body
  (fetchWithRedirectGuard urls peers destination ⟨text "POST", headers, body⟩ fuel).map fun
    | .ok response => ⟨index, eventId, some response.status, isOk response, none⟩
    | .error error => ⟨index, eventId, none, false, some error.message⟩

/-- What a replay meets: the addresses of its destination, the throwaway secret, and the time and
the peers of the delivery of each event. -/
structure Replay (Url : Type) where
  destinationLookup : Text → Option (List Text)
  randomSecret : Text
  nowSeconds : Nat → Double
  peers : Nat → Peers Url RequestInit Unit

variable (replay : Replay Url) (dto : ReplayEventsDto)

def replaySecret : Text := (dto.secret.filter fun secret => trim secret != []).getD replay.randomSecret

/-- The delivery of the event with this index. -/
def delivery (destination : Url) (index : Nat) (fuel : Nat) : Trace (Action Url RequestInit) ReplayResult :=
  deliverOne urls (replay.peers index) hmac (replay.nowSeconds index) destination (dto.events.getD index .null) index
    (replaySecret replay dto) fuel

/-- The destination, once it has passed its check. -/
def replayDestination : Except Exception Url :=
  match urls.parse dto.webhookUrl with
  | none => .error (.badRequest (text "webhookUrl must be a valid URL"))
  | some destination => (assertSafeWebhookDestination urls replay.destinationLookup destination).map fun _ => destination

/-- The summary, once every delivery has ended. -/
def replayEvents (fuel : Nat) : Option (Except Exception ReplaySummary) :=
  match replayDestination urls replay dto with
  | .error error => some (.error error)
  | .ok destination =>
      ((List.range dto.events.length).mapM fun index => (delivery urls hmac replay dto destination index fuel).result).map
        fun results =>
          let delivered := (results.filter fun result => result.ok).length
          .ok ⟨delivered, results.length - delivered, results, replaySecret replay dto⟩

/-- What one of the workers does, which takes the events with these indices one after the other. -/
def workerActions (destination : Url) (indices : List Nat) (fuel : Nat) : List (Action Url RequestInit) :=
  indices.flatMap fun index => (delivery urls hmac replay dto destination index fuel).actions

/-- The check with number 0 is that of the destination at the start of the replay. -/
def Passes (index n : Nat) (url : Url) : Prop :=
  assertSafeWebhookDestination urls (if n = 0 then replay.destinationLookup else (replay.peers index).lookup n) url = .ok ()

section

variable {urls peers} {init : RequestInit}

theorem followRedirect_inl {s t : Hop Url} (h : (followRedirect urls peers init s).outcome = .inl t) :
    s.hop ≤ MAX_WEBHOOK_REDIRECTS ∧ t.hop = s.hop + 1 ∧
      (followRedirect urls peers init s).actions = [.send s.currentUrl init, .check t.hop t.currentUrl] ∧
      assertSafeWebhookDestination urls (peers.lookup t.hop) t.currentUrl = .ok () := by
  rw [followRedirect] at h ⊢
  by_cases hhop : s.hop ≤ MAX_WEBHOOK_REDIRECTS
  · rw [if_pos hhop] at h ⊢
    cases hfetch : peers.fetch s.hop s.currentUrl init with
    | error error => simp [hfetch] at h
    | ok response =>
        simp only [hfetch] at h ⊢
        by_cases hstatus : (!redirectStatusCodes.contains response.status) = true
        · rw [if_pos hstatus] at h
          cases h
        · rw [if_neg hstatus] at h ⊢
          by_cases hlocation : (response.get (text "location")).getD [] = []
          · rw [if_pos hlocation] at h
            cases h
          · rw [if_neg hlocation] at h ⊢
            cases hresolve : urls.resolve ((response.get (text "location")).getD []) s.currentUrl with
            | none => simp [hresolve] at h
            | some currentUrl =>
                simp only [hresolve] at h ⊢
                cases hsafe : assertSafeWebhookDestination urls (peers.lookup (s.hop + 1)) currentUrl with
                | error error => simp [hsafe] at h
                | ok _ =>
                    simp only [hsafe, Sum.inl.injEq] at h
                    subst h
                    exact ⟨hhop, rfl, rfl, hsafe⟩
  · rw [if_neg hhop] at h
    cases h

variable (urls peers init) in
/-- A pass sends its request, and makes at most the check for the next, unless the hops are used up. -/
theorem followRedirect_actions (s : Hop Url) :
    (followRedirect urls peers init s).actions = [] ∨
      s.hop ≤ MAX_WEBHOOK_REDIRECTS ∧ ((followRedirect urls peers init s).actions = [.send s.currentUrl init] ∨
        ∃ n url, (followRedirect urls peers init s).actions = [.send s.currentUrl init, .check n url]) := by
  rw [followRedirect]
  by_cases hhop : s.hop ≤ MAX_WEBHOOK_REDIRECTS
  · refine .inr ⟨hhop, ?_⟩
    rw [if_pos hhop]
    cases peers.fetch s.hop s.currentUrl init with
    | error error => exact .inl rfl
    | ok response =>
        dsimp only
        split_ifs
        · exact .inl rfl
        · exact .inl rfl
        · cases urls.resolve ((response.get (text "location")).getD []) s.currentUrl with
          | none => exact .inl rfl
          | some currentUrl =>
              dsimp only
              cases assertSafeWebhookDestination urls (peers.lookup (s.hop + 1)) currentUrl with
              | error error => exact .inr ⟨_, _, rfl⟩
              | ok _ => exact .inr ⟨_, _, rfl⟩
  · exact .inl (by rw [if_neg hhop])

theorem sends_redirects (fuel : Nat) (s : Hop Url) :
    sends (iterate (followRedirect urls peers init) fuel s).actions ≤ MAX_WEBHOOK_REDIRECTS + 1 - s.hop := by
  refine sends_iterate (fun s : Hop Url => MAX_WEBHOOK_REDIRECTS + 1 - s.hop) ?_ ?_ fuel s
  · intro s r _
    obtain hactions | ⟨hhop, hactions⟩ := followRedirect_actions urls peers init s
    · rw [hactions]
      exact Nat.zero_le _
    · have hleft : 1 ≤ MAX_WEBHOOK_REDIRECTS + 1 - s.hop := by omega
      obtain hactions | ⟨n, url, hactions⟩ := hactions <;> simpa [hactions] using hleft
  · intro s t hnext
    obtain ⟨hhop, ht, hactions, -⟩ := followRedirect_inl hnext
    simp only [hactions, sends_send, sends_check, sends_nil, ht]
    omega

variable (urls peers init) in
theorem redirects_end {fuel : Nat} {s : Hop Url} (hfuel : MAX_WEBHOOK_REDIRECTS + 1 - s.hop < fuel) :
    ∃ r, (iterate (followRedirect urls peers init) fuel s).result = some r := by
  refine iterate_ends (fun s : Hop Url => MAX_WEBHOOK_REDIRECTS + 1 - s.hop) (fun s t hnext => ?_) hfuel
  obtain ⟨hhop, ht, -⟩ := followRedirect_inl hnext
  omega

/-- The checks of one delivery with a first check of what it sets out to, whatever that was made with. -/
theorem guarded_redirects {passes : Nat → Url → Prop}
    (hpasses : ∀ n url, assertSafeWebhookDestination urls (peers.lookup (n + 1)) url = .ok () → passes (n + 1) url)
    {s : Hop Url} (hs : passes s.hop s.currentUrl) (fuel : Nat) :
    Guarded passes (.check s.hop s.currentUrl :: (iterate (followRedirect urls peers init) fuel s).actions) := by
  refine guarded_iterate_after (fun s : Hop Url => (s.hop, s.currentUrl)) ?_ ?_ fuel hs
  · intro s r _ hs
    obtain hactions | ⟨-, hactions | ⟨n, url, hactions⟩⟩ :=
      followRedirect_actions urls peers init s
    · rw [hactions]
      exact guarded_check _ _
    · rw [hactions]
      exact guarded_pair _ hs
    · rw [hactions]
      exact (guarded_pair _ hs).append (guarded_check n url)
  · intro s t hnext hs
    obtain ⟨-, ht, hactions, hsafe⟩ := followRedirect_inl hnext
    refine ⟨?_, _, hactions, guarded_pair _ hs⟩
    rw [ht] at hsafe ⊢
    exact hpasses _ _ hsafe

end

variable {urls hmac replay dto}

theorem replayDestination_eq_ok {destination : Url} (h : replayDestination urls replay dto = .ok destination) :
    assertSafeWebhookDestination urls replay.destinationLookup destination = .ok () := by
  rw [replayDestination] at h
  cases hparse : urls.parse dto.webhookUrl with
  | none => simp [hparse] at h
  | some url =>
      simp only [hparse] at h
      obtain ⟨⟨⟩, hsafe, rfl⟩ := map_eq_ok_iff.mp h
      exact hsafe

variable (hmac) in
/-- Every delivery, with the check of the destination before it, is contained. -/
theorem delivery_contained {destination : Url} (h : replayDestination urls replay dto = .ok destination) (index : Nat) :
    Contained (Passes urls replay index)
      (fun fuel => (delivery urls hmac replay dto destination index fuel).after [.check 0 destination]) where
  guarded := fun fuel => guarded_redirects (s := ⟨0, destination⟩) (fun _ _ hsafe => hsafe) (replayDestination_eq_ok h) fuel
  few := fun fuel => sends_redirects fuel ⟨0, destination⟩
  ends := fun fuel hfuel => by
    obtain ⟨r, hr⟩ := redirects_end urls (replay.peers index) _ (s := ⟨0, destination⟩) hfuel
    exact ⟨_, by rw [result_after, delivery, deliverOne, Trace.map, fetchWithRedirectGuard, hr, Option.map_some]⟩

/-- The whole replay ends. -/
theorem replayEvents_ends {fuel : Nat} (hfuel : MAX_SAFE_REDIRECTS + 1 < fuel) :
    ∃ summary, replayEvents urls hmac replay dto fuel = some summary := by
  rw [replayEvents]
  cases hdestination : replayDestination urls replay dto with
  | error error => exact ⟨_, rfl⟩
  | ok destination =>
      have hall (indices : List Nat) : ∃ results, (indices.mapM fun index =>
          (delivery urls hmac replay dto destination index fuel).result) = some results := by
        induction indices with
        | nil => exact ⟨[], rfl⟩
        | cons index indices ih =>
            obtain ⟨results, hresults⟩ := ih
            obtain ⟨result, hresult⟩ := (delivery_contained hmac hdestination index).ends fuel hfuel
            rw [result_after] at hresult
            exact ⟨result :: results, by rw [List.mapM_cons, hresult, hresults]; rfl⟩
      obtain ⟨results, hresults⟩ := hall (List.range dto.events.length)
      dsimp only
      rw [hresults]
      exact ⟨_, rfl⟩

theorem fetchWithRedirectGuard_answered {url : Url} {init : RequestInit} {response : Response Unit}
    (hfetch : peers.fetch 0 url init = .ok response) (hstatus : response.status = 200) (fuel : Nat) :
    fetchWithRedirectGuard urls peers url init (fuel + 1) = ⟨[.send url init], some (.ok response)⟩ := by
  have hpass : followRedirect urls peers init ⟨0, url⟩ = ⟨[.send url init], .inr (.ok response)⟩ := by
    simp [followRedirect, hfetch, hstatus, redirectStatusCodes]
  rw [fetchWithRedirectGuard, iterate_inr (r := .ok response) (by rw [hpass]), hpass]

variable (urls hmac dto) in
theorem delivery_answered {destination : Url} {index : Nat} {response : Response Unit}
    (hfetch : ∀ init, (replay.peers index).fetch 0 destination init = .ok response) (hstatus : response.status = 200)
    (fuel : Nat) : ∃ init, (delivery urls hmac replay dto destination index (fuel + 1)).actions = [.send destination init] := by
  rw [delivery, deliverOne, actions_map, fetchWithRedirectGuard_answered _ (hfetch _) hstatus]
  exact ⟨_, rfl⟩

end Savitools.Contracts.EventReplays
