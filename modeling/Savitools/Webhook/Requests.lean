import Mathlib.Tactic.SplitIfs
import Savitools.Outbound.Destinations

namespace Savitools.Webhook.Requests

open Strings.CodeUnits Net.Urls Net.GuardedChains Transitions.Loops Common.Exceptions Outbound.Destinations

structure RequestInit where
  method : Text
  headers : List (Text × Text)
  body : Option Text
deriving DecidableEq

/-- What reading the body up to the limit gives, and whether it was cut there. -/
structure LimitedBody where
  text : Text
  truncated : Bool

structure PerformedRequest where
  status : Nat
  headers : List (Text × Text)
  body : LimitedBody

variable {Url : Type} (urls : Urls Url) (peers : Peers Url RequestInit LimitedBody)

structure Hop (Url : Type) where
  redirects : Nat
  currentUrl : Url

/-- One pass of the `for (;;)`, which ends with a response at a `break`. -/
def followRedirect (init : RequestInit) (s : Hop Url) :
    Pass (Hop Url) (Action Url RequestInit) (Except Exception (Response LimitedBody)) :=
  let sent := Action.send s.currentUrl init
  match peers.fetch s.redirects s.currentUrl init with
  | .error error => ⟨[sent], .inr (.error error)⟩
  | .ok response =>
      if 300 ≤ response.status ∧ response.status < 400 then
        let location := (response.get (text "location")).getD []
        if location = [] ∨ MAX_WEBHOOK_REDIRECTS ≤ s.redirects then ⟨[sent], .inr (.ok response)⟩
        else
          let redirects := s.redirects + 1
          match urls.resolve location s.currentUrl with
          | none => ⟨[sent], .inr (.error invalidUrl)⟩
          | some currentUrl =>
              match assertSafeWebhookDestination urls (peers.lookup redirects) currentUrl with
              | .error error => ⟨[sent, .check redirects currentUrl], .inr (.error error)⟩
              | .ok () => ⟨[sent, .check redirects currentUrl], .inl ⟨redirects, currentUrl⟩⟩
      else ⟨[sent], .inr (.ok response)⟩

def performedRequest (response : Response LimitedBody) : Except Exception PerformedRequest :=
  response.body.map fun body => ⟨response.status, response.headers, body⟩

/-- The loop may be stopped after so many passes. -/
def performRequest (method initialUrl : Text) (headers : List (Text × Text)) (body : Option Text) (fuel : Nat) :
    Trace (Action Url RequestInit) (Except Exception PerformedRequest) :=
  match urls.parse initialUrl with
  | none => ⟨[], some (.error invalidUrl)⟩
  | some currentUrl =>
      match assertSafeWebhookDestination urls (peers.lookup 0) currentUrl with
      | .error error => ⟨[.check 0 currentUrl], some (.error error)⟩
      | .ok () =>
          let init : RequestInit := ⟨method, headers, if method ≠ text "GET" then body else none⟩
          ((iterate (followRedirect urls peers init) fuel ⟨0, currentUrl⟩).map (Except.bind · performedRequest)).after
            [.check 0 currentUrl]

variable {urls peers}

theorem followRedirect_inl {init : RequestInit} {s t : Hop Url} (h : (followRedirect urls peers init s).outcome = .inl t) :
    s.redirects < MAX_WEBHOOK_REDIRECTS ∧ t.redirects = s.redirects + 1 ∧
      (followRedirect urls peers init s).actions = [.send s.currentUrl init, .check t.redirects t.currentUrl] ∧
      assertSafeWebhookDestination urls (peers.lookup t.redirects) t.currentUrl = .ok () := by
  rw [followRedirect] at h ⊢
  cases hfetch : peers.fetch s.redirects s.currentUrl init with
  | error error => simp [hfetch] at h
  | ok response =>
      simp only [hfetch] at h ⊢
      split at h
      next hstatus =>
        split at h
        next => cases h
        next hlimit =>
          cases hresolve : urls.resolve ((response.get (text "location")).getD []) s.currentUrl with
          | none => simp [hresolve] at h
          | some currentUrl =>
              simp only [hresolve] at h ⊢
              cases hsafe : assertSafeWebhookDestination urls (peers.lookup (s.redirects + 1)) currentUrl with
              | error error => simp [hsafe] at h
              | ok _ =>
                  simp only [hsafe, Sum.inl.injEq] at h
                  subst h
                  simp only [if_pos hstatus, if_neg hlimit]
                  exact ⟨Nat.not_le.mp fun hle => hlimit (.inr hle), trivial, trivial, hsafe⟩
      next => cases h

variable (urls peers) in
/-- A pass sends its request, and makes at most the check for the next. -/
theorem followRedirect_actions (init : RequestInit) (s : Hop Url) :
    (followRedirect urls peers init s).actions = [.send s.currentUrl init] ∨
      ∃ n url, (followRedirect urls peers init s).actions = [.send s.currentUrl init, .check n url] := by
  rw [followRedirect]
  cases peers.fetch s.redirects s.currentUrl init with
  | error error => exact .inl rfl
  | ok response =>
      dsimp only
      split_ifs
      · exact .inl rfl
      · cases urls.resolve ((response.get (text "location")).getD []) s.currentUrl with
        | none => exact .inl rfl
        | some currentUrl =>
            dsimp only
            cases assertSafeWebhookDestination urls (peers.lookup (s.redirects + 1)) currentUrl with
            | error error => exact .inr ⟨_, _, rfl⟩
            | ok _ => exact .inr ⟨_, _, rfl⟩
      · exact .inl rfl

section

variable {init : RequestInit}

theorem guarded_redirects {s : Hop Url} (hs : assertSafeWebhookDestination urls (peers.lookup s.redirects) s.currentUrl = .ok ())
    (fuel : Nat) : Guarded (fun n url => assertSafeWebhookDestination urls (peers.lookup n) url = .ok ())
      (.check s.redirects s.currentUrl :: (iterate (followRedirect urls peers init) fuel s).actions) := by
  refine guarded_iterate_after (fun s : Hop Url => (s.redirects, s.currentUrl)) ?_ ?_ fuel hs
  · intro s r _ hs
    obtain hactions | ⟨n, url, hactions⟩ := followRedirect_actions urls peers init s
    · rw [hactions]
      exact guarded_pair _ hs
    · rw [hactions]
      exact (guarded_pair _ hs).append (guarded_check n url)
  · intro s t hnext hs
    obtain ⟨-, -, hactions, ht⟩ := followRedirect_inl hnext
    exact ⟨ht, _, hactions, guarded_pair _ hs⟩

theorem sends_redirects (fuel : Nat) (s : Hop Url) :
    sends (iterate (followRedirect urls peers init) fuel s).actions ≤ MAX_WEBHOOK_REDIRECTS - s.redirects + 1 := by
  refine sends_iterate (fun s : Hop Url => MAX_WEBHOOK_REDIRECTS - s.redirects + 1) ?_ ?_ fuel s
  · intro s r _
    obtain hactions | ⟨n, url, hactions⟩ := followRedirect_actions urls peers init s <;> simp [hactions]
  · intro s t hnext
    obtain ⟨hlt, ht, hactions, -⟩ := followRedirect_inl hnext
    simp only [hactions, sends_send, sends_check, sends_nil, ht]
    omega

theorem redirects_end {fuel : Nat} {s : Hop Url} (hfuel : MAX_WEBHOOK_REDIRECTS - s.redirects < fuel) :
    ∃ r, (iterate (followRedirect urls peers init) fuel s).result = some r := by
  refine iterate_ends (fun s : Hop Url => MAX_WEBHOOK_REDIRECTS - s.redirects) (fun s t hnext => ?_) hfuel
  obtain ⟨hlt, ht, -⟩ := followRedirect_inl hnext
  omega

end

/-- Every delivery of the sender is contained. -/
theorem performRequest_contained (method initialUrl : Text) (headers : List (Text × Text)) (body : Option Text) :
    Contained (fun n url => assertSafeWebhookDestination urls (peers.lookup n) url = .ok ())
      (performRequest urls peers method initialUrl headers body) := by
  unfold performRequest
  cases urls.parse initialUrl with
  | none => exact contained_of_nothing _
  | some currentUrl =>
      cases hsafe : assertSafeWebhookDestination urls (peers.lookup 0) currentUrl with
      | error error =>
          simp only [hsafe]
          exact contained_of_checked _
      | ok _ =>
          simp only [hsafe]
          refine ⟨fun fuel => guarded_redirects (s := ⟨0, currentUrl⟩) hsafe fuel, fun fuel => ?_, fun fuel hfuel => ?_⟩
          · simp only [actions_after, actions_map, List.singleton_append, sends_check]
            exact sends_redirects fuel ⟨0, currentUrl⟩
          · obtain ⟨r, hr⟩ := redirects_end (Nat.lt_of_succ_lt hfuel) (s := ⟨0, currentUrl⟩)
            exact ⟨_, by rw [result_after, Trace.map, hr, Option.map_some]⟩

end Savitools.Webhook.Requests
