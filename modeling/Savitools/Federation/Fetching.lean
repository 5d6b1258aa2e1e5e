import Savitools.Common.SsrfGuard
import Savitools.Net.Urls
import Savitools.Outbound.Destinations

namespace Savitools.Federation.Fetching

open Strings.CodeUnits Net.Urls Common.Exceptions Common.SsrfGuard

def MAX_SAFE_REDIRECTS : Nat := 5

structure Response where
  status : Nat
  location : Option Text
  /-- What `text()` gives, or the message with which it fails. -/
  body : Except Text Text

def Response.ok (response : Response) : Bool := 200 ≤ response.status && response.status ≤ 299

/-- Where a response sends on to. -/
def Response.redirection (response : Response) : Option Text :=
  if [301, 302, 303, 307, 308].contains response.status then response.location else none

/-- What one call meets: the answers to its name lookups and to its requests, each by its number
within the call, and whether the time is up or the caller gone when an error comes. -/
structure Network where
  lookup : Nat → Text → Option (List Text)
  fetch : Nat → Text → Except Text Response
  timedOut : Bool

/-- A network in which every name is at one address and every request gets the same answer. -/
def answering (response : Response) : Network := ⟨fun _ _ => some [text "93.184.216.34"], fun _ _ => .ok response, false⟩

def Network.send (network : Network) (n : Nat) (href : Text) : Except Exception Response :=
  (network.fetch n href).mapError Exception.error

/-- What is thrown on for an error. -/
def Network.caught (network : Network) (error : Exception) : Exception :=
  if network.timedOut then .requestTimeout else error

def invalidUrl : Exception := .error (text "Invalid URL")

variable {Url : Type} (urls : Urls Url) (network : Network)

/-- The checks of a target before the request number `n` is sent to it. -/
def checkTarget (n : Nat) (refusal : Text) (target : Url) : Except Exception Unit :=
  if urls.protocol target = text "https:" ∨ urls.protocol target = text "http:" then
    assertPublicHostname (network.lookup n) (urls.hostname target)
  else .error (.badRequest (refusal ++ urls.protocol target))

/-- The loop over redirects, with the hops that are left and the number of the next request. It
gives the targets it goes on to besides its result. -/
def followRedirects : Nat → Nat → Url → Response → List Text × Except Exception Response
  | left, n, target, response =>
      match response.redirection with
      | none => ([], .ok response)
      | some location =>
          match left with
          | 0 => ([], .error (.badGateway (text "Too many redirects")))
          | left + 1 =>
              match urls.resolve location target with
              | none => ([], .error invalidUrl)
              | some target =>
                  let href := urls.href target
                  match (checkTarget urls network n (text "Unsupported protocol in redirect: ") target).bind
                      fun _ => network.send n href with
                  | .error error => ([href], .error error)
                  | .ok response =>
                      let (chain, result) := followRedirects left (n + 1) target response
                      (href :: chain, result)

/-- The redirect chain and the result. The checks of the first target are outside of the `try`. -/
def fetchWithTimeout (urlStr : Text) : List Text × Except Exception Response :=
  match urls.parse urlStr with
  | none => ([], .error invalidUrl)
  | some target =>
      let href := urls.href target
      match checkTarget urls network 0 (text "Unsupported protocol: ") target with
      | .error error => ([href], .error error)
      | .ok () =>
          match network.send 0 href with
          | .error error => ([href], .error (network.caught error))
          | .ok response =>
              let (chain, result) := followRedirects urls network MAX_SAFE_REDIRECTS 1 target response
              (href :: chain, result.mapError network.caught)

variable {urls network}

/-- The chain begins with the first target, whatever the result. -/
theorem chain_fetchWithTimeout {urlStr : Text} {target : Url} (hparse : urls.parse urlStr = some target) :
    urls.href target ∈ (fetchWithTimeout urls network urlStr).1 := by
  simp only [fetchWithTimeout, hparse]
  cases checkTarget urls network 0 (text "Unsupported protocol: ") target with
  | error error => exact List.mem_singleton_self _
  | ok _ =>
      cases network.send 0 (urls.href target) with
      | error error => exact List.mem_singleton_self _
      | ok response => exact List.mem_cons_self

end Savitools.Federation.Fetching

namespace Savitools.Federation.FetchTraces

open Strings.CodeUnits Net.Urls Net.GuardedChains Transitions.Loops Common.Exceptions Fetching
open Outbound.Destinations (Contained contained_of_nothing contained_of_checked visit guarded_visit sends_visit)

structure Hop (Url : Type) where
  hops : Nat
  target : Url
  response : Response

variable {Url : Type} (urls : Urls Url) (network : Network)

/-- One pass of the `while`. -/
def followRedirect (s : Hop Url) : Pass (Hop Url) (Action Url Unit) (Except Exception Response) :=
  match s.response.redirection with
  | none => ⟨[], .inr (.ok s.response)⟩
  | some location =>
      let hops := s.hops + 1
      if MAX_SAFE_REDIRECTS < hops then ⟨[], .inr (.error (.badGateway (text "Too many redirects")))⟩
      else
        match urls.resolve location s.target with
        | none => ⟨[], .inr (.error Fetching.invalidUrl)⟩
        | some target =>
            match visit hops target () (checkTarget urls network hops (text "Unsupported protocol in redirect: ") target)
              (network.send hops (urls.href target)) with
            | (actions, .error error) => ⟨actions, .inr (.error error)⟩
            | (actions, .ok response) => ⟨actions, .inl ⟨hops, target, response⟩⟩

/-- `fetchWithTimeout` with what it does on the way; the loop may be stopped after so many passes. -/
def fetchTrace (urlStr : Text) (fuel : Nat) : Trace (Action Url Unit) (Except Exception Response) :=
  match urls.parse urlStr with
  | none => ⟨[], some (.error Fetching.invalidUrl)⟩
  | some target =>
      match checkTarget urls network 0 (text "Unsupported protocol: ") target with
      | .error error => ⟨[.check 0 target], some (.error error)⟩
      | .ok () =>
          let actions := [.check 0 target, .send target ()]
          match network.send 0 (urls.href target) with
          | .error error => ⟨actions, some (.error (network.caught error))⟩
          | .ok response =>
              ((iterate (followRedirect urls network) fuel ⟨0, target, response⟩).map
                (Except.mapError network.caught)).after actions

/-- The guard of the fetcher, with either of its refusals. -/
def Passes (n : Nat) (url : Url) : Prop := ∃ refusal, checkTarget urls network n refusal url = .ok ()

variable {urls network}

theorem followRedirect_inl {s t : Hop Url} (h : (followRedirect urls network s).outcome = .inl t) :
    s.hops < MAX_SAFE_REDIRECTS ∧ t.hops = s.hops + 1 := by
  rw [followRedirect] at h
  cases hlocation : s.response.redirection with
  | none => simp [hlocation] at h
  | some location =>
      simp only [hlocation] at h
      by_cases hlimit : MAX_SAFE_REDIRECTS < s.hops + 1
      · simp [hlimit] at h
      · rw [if_neg hlimit] at h
        cases hresolve : urls.resolve location s.target with
        | none => simp [hresolve] at h
        | some target =>
            simp only [hresolve] at h
            refine ⟨Nat.not_lt.mp hlimit, ?_⟩
            cases hvisit : visit (s.hops + 1) target ()
                (checkTarget urls network (s.hops + 1) (text "Unsupported protocol in redirect: ") target)
                (network.send (s.hops + 1) (urls.href target)) with
            | mk actions result =>
                rw [hvisit] at h
                cases result with
                | error error => cases h
                | ok response =>
                    cases h
                    rfl

variable (urls network) in
/-- What a pass does is nothing, or a visit while there are hops left. -/
theorem followRedirect_actions (s : Hop Url) :
    (followRedirect urls network s).actions = [] ∨
      s.hops < MAX_SAFE_REDIRECTS ∧ ∃ target, (followRedirect urls network s).actions =
        (visit (s.hops + 1) target () (checkTarget urls network (s.hops + 1) (text "Unsupported protocol in redirect: ") target)
          (network.send (s.hops + 1) (urls.href target))).1 := by
  rw [followRedirect]
  cases s.response.redirection with
  | none => exact .inl rfl
  | some location =>
      dsimp only
      by_cases hlimit : MAX_SAFE_REDIRECTS < s.hops + 1
      · exact .inl (by rw [if_pos hlimit])
      · rw [if_neg hlimit]
        cases urls.resolve location s.target with
        | none => exact .inl rfl
        | some target =>
            refine .inr ⟨Nat.not_lt.mp hlimit, target, ?_⟩
            dsimp only
            cases visit (s.hops + 1) target ()
                (checkTarget urls network (s.hops + 1) (text "Unsupported protocol in redirect: ") target)
                (network.send (s.hops + 1) (urls.href target)) with
            | mk actions result => cases result <;> rfl

theorem guarded_followRedirect (s : Hop Url) : Guarded (Passes urls network) (followRedirect urls network s).actions := by
  obtain hactions | ⟨-, target, hactions⟩ := followRedirect_actions urls network s
  · rw [hactions]
    exact guarded_nil
  · rw [hactions]
    exact guarded_visit fun h => ⟨_, h⟩

variable (urls network) in
theorem sends_followRedirect (s : Hop Url) : sends (followRedirect urls network s).actions ≤ 1 := by
  obtain hactions | ⟨-, target, hactions⟩ := followRedirect_actions urls network s
  · rw [hactions]
    exact Nat.zero_le 1
  · rw [hactions]
    exact sends_visit

theorem sends_redirects (fuel : Nat) (s : Hop Url) :
    sends (iterate (followRedirect urls network) fuel s).actions ≤ MAX_SAFE_REDIRECTS - s.hops := by
  refine sends_iterate (fun s : Hop Url => MAX_SAFE_REDIRECTS - s.hops) ?_ ?_ fuel s
  · intro s r _
    obtain hactions | ⟨hlt, target, hactions⟩ := followRedirect_actions urls network s
    · rw [hactions]
      exact Nat.zero_le _
    · rw [hactions]
      exact Nat.le_trans sends_visit (Nat.sub_pos_of_lt hlt)
  · intro s t hnext
    obtain ⟨hlt, ht⟩ := followRedirect_inl hnext
    have hone := sends_followRedirect urls network s
    omega

variable (urls network) in
theorem redirects_end {fuel : Nat} {s : Hop Url} (hfuel : MAX_SAFE_REDIRECTS - s.hops < fuel) :
    ∃ r, (iterate (followRedirect urls network) fuel s).result = some r := by
  refine iterate_ends (fun s : Hop Url => MAX_SAFE_REDIRECTS - s.hops) (fun s t hnext => ?_) hfuel
  obtain ⟨hlt, ht⟩ := followRedirect_inl hnext
  omega

/-- Every fetch is contained. -/
theorem fetchTrace_contained (urlStr : Text) : Contained (Passes urls network) (fetchTrace urls network urlStr) := by
  unfold fetchTrace
  cases urls.parse urlStr with
  | none => exact contained_of_nothing _
  | some target =>
      dsimp only
      cases hcheck : checkTarget urls network 0 (text "Unsupported protocol: ") target with
      | error error => exact contained_of_checked _
      | ok _ =>
          have hguarded : Guarded (Passes urls network) [.check 0 target, .send target ()] := guarded_pair () ⟨_, hcheck⟩
          dsimp only
          cases network.send 0 (urls.href target) with
          | error error => exact ⟨fun _ => hguarded, fun _ => Nat.succ_le_succ (Nat.zero_le _), fun _ _ => ⟨_, rfl⟩⟩
          | ok response =>
              refine ⟨fun fuel => hguarded.append ((guarded_iterate guarded_followRedirect fuel _)), fun fuel => ?_,
                fun fuel hfuel => ?_⟩
              · rw [actions_after, actions_map, sends_append, Nat.add_comm]
                exact Nat.add_le_add (sends_redirects fuel _) (Nat.le_refl 1)
              · obtain ⟨r, hr⟩ := redirects_end urls network (s := ⟨0, target, response⟩)
                  (Nat.lt_of_succ_lt hfuel)
                exact ⟨_, by rw [result_after, Trace.map, hr, Option.map_some]⟩

variable (urls network) in
/-- The loop with a counter gives what the loop over the hops that are left gives. -/
theorem iterate_eq_followRedirects (left : Nat) {fuel : Nat} {s : Hop Url} (hleft : s.hops + left = MAX_SAFE_REDIRECTS)
    (hfuel : left < fuel) : (iterate (followRedirect urls network) fuel s).result =
      some (followRedirects urls network left (s.hops + 1) s.target s.response).2 := by
  induction left generalizing fuel s with
  | zero =>
      obtain ⟨fuel, rfl⟩ := Nat.exists_eq_add_one_of_ne_zero (Nat.ne_of_gt hfuel)
      have hlimit : MAX_SAFE_REDIRECTS < s.hops + 1 := by omega
      cases hlocation : s.response.redirection with
      | none => simp [iterate, followRedirect, followRedirects, hlocation]
      | some location => simp [iterate, followRedirect, followRedirects, hlocation, hlimit]
  | succ left ih =>
      obtain ⟨fuel, rfl⟩ := Nat.exists_eq_add_one_of_ne_zero (Nat.ne_of_gt (Nat.zero_lt_of_lt hfuel))
      have hlimit : ¬MAX_SAFE_REDIRECTS < s.hops + 1 := by omega
      cases hlocation : s.response.redirection with
      | none => simp [iterate, followRedirect, followRedirects, hlocation]
      | some location =>
          cases hresolve : urls.resolve location s.target with
          | none => simp [iterate, followRedirect, followRedirects, hlocation, hlimit, hresolve]
          | some target =>
              cases hcheck : checkTarget urls network (s.hops + 1) (text "Unsupported protocol in redirect: ") target with
              | error error =>
                  simp [iterate, followRedirect, followRedirects, hlocation, hlimit, hresolve, visit, hcheck, Except.bind]
              | ok _ =>
                  cases hsend : network.send (s.hops + 1) (urls.href target) with
                  | error error =>
                      simp [iterate, followRedirect, followRedirects, hlocation, hlimit, hresolve, visit, hcheck, hsend,
                        Except.bind]
                  | ok response =>
                      have hrest := ih (s := ⟨s.hops + 1, target, response⟩) (by dsimp only; omega) (Nat.lt_of_succ_lt_succ hfuel)
                      have hpass : (followRedirect urls network s).outcome = .inl ⟨s.hops + 1, target, response⟩ := by
                        simp only [followRedirect, hlocation, if_neg hlimit, hresolve, visit, hcheck, hsend]
                      rw [iterate_inl hpass, result_after, hrest]
                      conv_rhs => rw [followRedirects]
                      simp only [hlocation, hresolve, hcheck, Except.bind, hsend]

/-- What a fetch gives is what `fetchWithTimeout` gives. -/
theorem fetchTrace_result (urlStr : Text) {fuel : Nat} (hfuel : MAX_SAFE_REDIRECTS < fuel) :
    (fetchTrace urls network urlStr fuel).result = some (fetchWithTimeout urls network urlStr).2 := by
  rw [fetchTrace, fetchWithTimeout]
  cases urls.parse urlStr with
  | none => rfl
  | some target =>
      dsimp only
      cases checkTarget urls network 0 (text "Unsupported protocol: ") target with
      | error error => rfl
      | ok _ =>
          dsimp only
          cases network.send 0 (urls.href target) with
          | error error => rfl
          | ok response =>
              have hloop := iterate_eq_followRedirects urls network MAX_SAFE_REDIRECTS
                (s := ⟨0, target, response⟩) (Nat.zero_add _) hfuel
              dsimp only
              rw [result_after, Trace.map, hloop]
              rfl

end Savitools.Federation.FetchTraces
