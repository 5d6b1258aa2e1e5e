import Savitools.Common.SsrfGuard
import Savitools.Net.GuardedChains
import Savitools.Net.Urls
import Savitools.Transitions.Folds

namespace Savitools.Outbound.Destinations

open Strings.CodeUnits Net.Urls Net.GuardedChains Transitions.Loops Common.Exceptions Common.SsrfGuard

def MAX_SAFE_REDIRECTS : Nat := 5

def MAX_WEBHOOK_REDIRECTS : Nat := MAX_SAFE_REDIRECTS

def redirectStatusCodes : List Nat := [301, 302, 303, 307, 308]

/-- A response; the names of its headers are in lower case, and reading its body may fail. -/
structure Response (B : Type) where
  status : Nat
  headers : List (Text × Text)
  body : Except Exception B

/-- `headers.get(name)` -/
def Response.get {B : Type} (response : Response B) (name : Text) : Option Text := response.headers.lookup name

/-- What one delivery meets: the answers to its name lookups and to its requests, each by its
number within the delivery. -/
structure Peers (Url Init B : Type) where
  lookup : Nat → Text → Option (List Text)
  fetch : Nat → Url → Init → Except Exception (Response B)

def invalidUrl : Exception := .error (text "Invalid URL")

variable {Url : Type} (urls : Urls Url) (dnsLookup : Text → Option (List Text))

def assertHttpDestination (url : Url) : Except Exception Unit :=
  if urls.protocol url ≠ text "https:" ∧ urls.protocol url ≠ text "http:" then
    .error (.badRequest (text "Unsupported protocol: " ++ urls.protocol url))
  else assertPublicHostname dnsLookup (urls.hostname url)

def assertSafeWebhookDestination (url : Url) : Except Exception Unit := assertHttpDestination urls dnsLookup url

def assertSafeDestination (url : Url) (allowedOrigins : List Text) : Except Exception Unit :=
  if !allowedOrigins.contains (urls.origin url) then
    .error (.badRequest (text "Destination origin \"" ++ urls.origin url ++ text "\" is not an allowed provider origin"))
  else assertHttpDestination urls dnsLookup url

def assertRelativePath (path : Text) : Except Exception Unit :=
  if ¬text "/" <+: path ∨ text "//" <+: path then
    .error (.badRequest (text "path must be a relative path beginning with a single \"/\""))
  else if path.contains (unit '\\') then .error (.badRequest (text "path must not contain backslashes"))
  else if (urls.parse path).isSome then .error (.badRequest (text "path must be a relative path, not an absolute URL"))
  else .ok ()

/-- The check of a URL and the request to it, which are the `n`th of the delivery. -/
def visit {Init R : Type} (n : Nat) (url : Url) (init : Init) (check : Except Exception Unit) (answer : Except Exception R) :
    List (Action Url Init) × Except Exception R :=
  match check with
  | .error error => ([.check n url], .error error)
  | .ok () => ([.check n url, .send url init], answer)

variable {urls dnsLookup}

section

variable {Init R : Type} {n : Nat} {url : Url} {init : Init} {check : Except Exception Unit} {answer : Except Exception R}

theorem guarded_visit {passes : Nat → Url → Prop} (h : check = .ok () → passes n url) :
    Guarded passes (visit n url init check answer).1 := by
  cases check with
  | error error => exact guarded_check n url
  | ok _ => exact guarded_pair init (h rfl)

theorem sends_visit : sends (visit n url init check answer).1 ≤ 1 := by
  cases check with
  | error error => exact Nat.zero_le 1
  | ok _ => exact Nat.le_refl 1

end

theorem origin_mem_of_safe {url : Url} {allowedOrigins : List Text}
    (h : assertSafeDestination urls dnsLookup url allowedOrigins = .ok ()) : urls.origin url ∈ allowedOrigins := by
  rw [assertSafeDestination] at h
  split at h
  next => cases h
  next hmem => simpa using hmem

/-- What is asked of the deliveries of a module, whatever they meet: before a request its URL has just passed the guard,
there are not too many requests, and the delivery ends. -/
structure Contained {Sent ρ : Type} (passes : Nat → Url → Prop) (delivery : Nat → Trace (Action Url Sent) ρ) : Prop where
  guarded : ∀ fuel, Guarded passes (delivery fuel).actions
  few : ∀ fuel, sends (delivery fuel).actions ≤ MAX_SAFE_REDIRECTS + 1
  ends : ∀ fuel, MAX_SAFE_REDIRECTS + 1 < fuel → ∃ r, (delivery fuel).result = some r

/-- A delivery that is stopped by its guard or by an error before any request. -/
theorem contained_of_checked {Sent ρ : Type} {passes : Nat → Url → Prop} {n : Nat} {url : Url} (r : ρ) :
    Contained passes (fun _ => (⟨[.check n url], some r⟩ : Trace (Action Url Sent) ρ)) where
  guarded := fun _ => guarded_check n url
  few := fun _ => Nat.zero_le _
  ends := fun _ _ => ⟨r, rfl⟩

theorem contained_of_nothing {Sent ρ : Type} {passes : Nat → Url → Prop} (r : ρ) :
    Contained passes (fun _ => (⟨[], some r⟩ : Trace (Action Url Sent) ρ)) where
  guarded := fun _ => guarded_nil
  few := fun _ => Nat.zero_le _
  ends := fun _ _ => ⟨r, rfl⟩

end Savitools.Outbound.Destinations
