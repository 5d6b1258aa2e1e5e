import Mathlib.Algebra.Ring.Int.Defs
import Savitools.Stores.Entries
import Savitools.Strings.CodeUnits
import Mathlib.Algebra.Order.Group.Int
import Savitools.Counters.Windows

namespace Savitools.Auth.RateLimits

open Strings.CodeUnits Stores.Entries

def passwordResetMaxPerEmail : Nat := 5

def passwordResetMaxPerIp : Nat := 20

def passwordResetWindowMs : Int := 15 * 60 * 1000

def rateLimitMaxBuckets : Nat := 10000

/-- The map `rateLimitBuckets`. -/
abbrev Buckets := List (Text × List Int)

def bucketOf (buckets : Buckets) (key : Text) : List Int := (buckets.lookup key).getD []

/-- The opportunistic cleanup. -/
def cleanUp (now windowMs : Int) (buckets : Buckets) : Buckets :=
  buckets.filter fun bucket => !bucket.2.all fun timestamp => windowMs ≤ now - timestamp

/-- Whether the limit is reached, and the buckets afterwards. -/
def isRateLimited (buckets : Buckets) (now : Int) (key : Text) (limit : Nat) (windowMs : Int) : Bool × Buckets :=
  let hits := (bucketOf buckets key).filter fun timestamp => now - timestamp < windowMs
  if limit ≤ hits.length then (true, put key hits buckets)
  else
    let after := put key (hits ++ [now]) buckets
    (false, if rateLimitMaxBuckets < after.length then cleanUp now windowMs after else after)

/-- A call of `requestPasswordReset`, with what the clock tells at each of its two limits. -/
structure ResetRequest where
  email : Text
  ipAddress : Option Text
  ipNow : Int
  emailNow : Int

def ipKey (request : ResetRequest) : Text := text "pwreset:ip:" ++ request.ipAddress.getD (text "unknown")

def emailKey (beyondAscii : Text → Text) (request : ResetRequest) : Text :=
  text "pwreset:email:" ++ toLowerCase beyondAscii (trim request.email)

/-- The attempts that were admitted, with their keys, are history: no step reads them. -/
structure State where
  buckets : Buckets := []
  admitted : List (Text × Int) := []

def attempt (s : State) (now : Int) (key : Text) (limit : Nat) : Bool × State :=
  let (limited, buckets) := isRateLimited s.buckets now key limit passwordResetWindowMs
  (limited, ⟨buckets, if limited then s.admitted else s.admitted ++ [(key, now)]⟩)

/-- The two limits of `requestPasswordReset`: the second is left out when the first is reached. -/
def requestPasswordReset (beyondAscii : Text → Text) (s : State) (request : ResetRequest) : Bool × State :=
  match attempt s request.ipNow (ipKey request) passwordResetMaxPerIp with
  | (true, s) => (true, s)
  | (false, s) => attempt s request.emailNow (emailKey beyondAscii request) passwordResetMaxPerEmail

/-- The state after the requests, made one after the other. -/
def requested (beyondAscii : Text → Text) (requests : List ResetRequest) : State :=
  requests.foldl (fun s request => (requestPasswordReset beyondAscii s request).2) {}

end Savitools.Auth.RateLimits

namespace Savitools.Auth.AdmittedAttempts

open Strings.CodeUnits Stores.Entries Counters.Windows RateLimits

def admittedAt (s : State) (key : Text) : List Int :=
  (s.admitted.filter fun entry => entry.1 = key).map (·.2)

def limitOf (key : Text) : Nat :=
  if text "pwreset:ip:" <+: key then passwordResetMaxPerIp else passwordResetMaxPerEmail

def clockReadings (request : ResetRequest) : List Int := [request.ipNow, request.emailNow]

theorem limitOf_ipKey (request : ResetRequest) : limitOf (ipKey request) = passwordResetMaxPerIp :=
  if_pos (List.prefix_append _ _)

theorem limitOf_emailKey (beyondAscii : Text → Text) (request : ResetRequest) :
    limitOf (emailKey beyondAscii request) = passwordResetMaxPerEmail := by
  refine if_neg ?_
  rintro ⟨rest, h⟩
  have hunit : some (unit 'i') = some (unit 'e') := congrArg (fun t : Text => t[8]?) h
  exact absurd hunit (by decide)

theorem bucketOf_put (key k : Text) (hits : List Int) (buckets : Buckets) :
    bucketOf (put key hits buckets) k = if k = key then hits else bucketOf buckets k := by
  rw [bucketOf, lookup_put, bucketOf]
  by_cases hk : k = key
  · rw [if_pos hk, if_pos (beq_iff_eq.mpr hk), Option.getD_some]
  · rw [if_neg hk, if_neg (fun h => hk (beq_iff_eq.mp h))]

theorem bucketOf_cleanUp {now windowMs : Int} {buckets : Buckets} (h : (buckets.map (·.1)).Nodup) (key : Text) :
    bucketOf (cleanUp now windowMs buckets) key =
      if (bucketOf buckets key).all (fun timestamp => windowMs ≤ now - timestamp) then []
      else bucketOf buckets key := by
  rw [bucketOf, cleanUp, lookup_filter h, bucketOf]
  cases buckets.lookup key with
  | none => rfl
  | some hits =>
      rw [Option.filter_some, Option.getD_some]
      cases hits.all (fun timestamp => windowMs ≤ now - timestamp) <;> rfl

theorem admittedAt_concat (s : State) (buckets : Buckets) (key k : Text) (now : Int) :
    admittedAt ⟨buckets, s.admitted ++ [(key, now)]⟩ k =
      if k = key then admittedAt s k ++ [now] else admittedAt s k := by
  simp only [admittedAt, List.filter_append, List.map_append, List.filter_singleton]
  by_cases hk : k = key
  · simp [hk]
  · simp [hk, Ne.symm hk]

/-- What an attempt relies on: the buckets tell for every key which admitted attempts are recent. -/
structure Kept (s : State) (since : Int) : Prop where
  nodup : (s.buckets.map (·.1)).Nodup
  limited : ∀ key, Limited (limitOf key) passwordResetWindowMs (admittedAt s key)
  keeps : ∀ key, Keeps passwordResetWindowMs since (bucketOf s.buckets key) (admittedAt s key)

theorem kept_start (since : Int) : Kept {} since where
  nodup := List.nodup_nil
  limited _ := limited_nil
  keeps _ := keeps_nil

theorem Kept.mono {s : State} {since now : Int} (h : Kept s since) (hle : since ≤ now) : Kept s now :=
  ⟨h.nodup, h.limited, fun key => (h.keeps key).mono hle⟩

/-- The attempts of a key that are no longer recent are forgotten. -/
theorem Kept.forget {s : State} {since now : Int} (h : Kept s since) (hle : since ≤ now) (key : Text) :
    Kept ⟨put key ((bucketOf s.buckets key).filter (recent passwordResetWindowMs now)) s.buckets, s.admitted⟩ now where
  nodup := nodup_put h.nodup
  limited := h.limited
  keeps k := by
    rw [bucketOf_put]
    split
    next hk => exact hk ▸ (h.keeps key).filter hle
    next => exact (h.keeps k).mono hle

theorem Kept.admit {s : State} {since now : Int} (h : Kept s since) (hle : since ≤ now) {key : Text}
    (hroom : ((bucketOf s.buckets key).filter (recent passwordResetWindowMs now)).length < limitOf key) :
    Kept ⟨put key ((bucketOf s.buckets key).filter (recent passwordResetWindowMs now) ++ [now]) s.buckets,
      s.admitted ++ [(key, now)]⟩ now where
  nodup := nodup_put h.nodup
  limited k := by
    rw [admittedAt_concat]
    split
    next hk =>
      subst hk
      refine (h.limited k).concat ?_
      rwa [(h.keeps k).countP_eq hle]
    next => exact h.limited k
  keeps k := by
    rw [admittedAt_concat, bucketOf_put]
    split
    next hk => exact hk ▸ ((h.keeps key).filter hle).concat now
    next => exact (h.keeps k).mono hle

theorem Kept.cleanUp {s : State} {now : Int} (h : Kept s now) :
    Kept ⟨cleanUp now passwordResetWindowMs s.buckets, s.admitted⟩ now where
  nodup := h.nodup.sublist (List.Sublist.map _ List.filter_sublist)
  limited := h.limited
  keeps k := by
    rw [bucketOf_cleanUp h.nodup]
    split
    next hold =>
      refine (h.keeps k).drop fun t ht => ?_
      have hle : passwordResetWindowMs ≤ now - t := of_decide_eq_true (List.all_eq_true.mp hold t ht)
      exact decide_eq_false (not_lt.mpr hle)
    next => exact h.keeps k

/-- An attempt is admitted only where the window has room. -/
theorem Kept.attempt {s : State} {since now : Int} (h : Kept s since) (hle : since ≤ now) (key : Text) :
    Kept (attempt s now key (limitOf key)).2 now := by
  have hrecent : (fun t => decide (now - t < passwordResetWindowMs)) = recent passwordResetWindowMs now := rfl
  simp only [RateLimits.attempt, isRateLimited, hrecent]
  by_cases hfull : limitOf key ≤ ((bucketOf s.buckets key).filter (recent passwordResetWindowMs now)).length
  · rw [if_pos hfull]
    exact h.forget hle key
  · rw [if_neg hfull]
    have hadmit := h.admit hle (not_le.mp hfull)
    dsimp only
    split
    next => exact hadmit.cleanUp
    next => exact hadmit

theorem Kept.requestPasswordReset {beyondAscii : Text → Text} {s : State} {since : Int} {request : ResetRequest}
    (h : Kept s since) (hip : since ≤ request.ipNow) (hemail : request.ipNow ≤ request.emailNow) :
    Kept (requestPasswordReset beyondAscii s request).2 request.emailNow := by
  have hfirst := h.attempt hip (ipKey request)
  rw [limitOf_ipKey] at hfirst
  rw [RateLimits.requestPasswordReset]
  split
  next after hcall =>
    rw [hcall] at hfirst
    exact hfirst.mono hemail
  next after hcall =>
    rw [hcall] at hfirst
    have hsecond := hfirst.attempt hemail (emailKey beyondAscii request)
    rwa [limitOf_emailKey] at hsecond

/-- The buckets are right from the last reading of the clock on. -/
theorem kept_requests {beyondAscii : Text → Text} {requests : List ResetRequest} : ∀ {s : State} {since : Int},
    Kept s since → (since :: requests.flatMap clockReadings).Pairwise (· ≤ ·) →
      ∃ last ∈ since :: requests.flatMap clockReadings,
        Kept (requests.foldl (fun s request => (RateLimits.requestPasswordReset beyondAscii s request).2) s) last := by
  induction requests with
  | nil => exact fun {s since} h _ => ⟨since, List.mem_cons_self, h⟩
  | cons request requests ih =>
      intro s since h hsorted
      simp only [List.flatMap_cons, clockReadings, List.cons_append, List.nil_append, List.pairwise_cons, List.mem_cons,
        forall_eq_or_imp] at hsorted
      obtain ⟨⟨hip, -, -⟩, ⟨hemail, -⟩, hrest⟩ := hsorted
      obtain ⟨last, hlast, hkept⟩ := ih (h.requestPasswordReset hip hemail) (List.pairwise_cons.mpr hrest)
      exact ⟨last, List.mem_cons_of_mem _ (List.mem_cons_of_mem _ hlast), hkept⟩

theorem kept_requested {beyondAscii : Text → Text} {requests : List ResetRequest}
    (h : (requests.flatMap clockReadings).Pairwise (· ≤ ·)) :
    (∃ last, Kept (requested beyondAscii requests) last) ∧
      ∀ now, (∀ t ∈ requests.flatMap clockReadings, t ≤ now) → Kept (requested beyondAscii requests) now := by
  cases requests with
  | nil => exact ⟨⟨0, kept_start 0⟩, fun now _ => kept_start now⟩
  | cons request requests =>
      have hsorted : (request.ipNow :: (request :: requests).flatMap clockReadings).Pairwise (· ≤ ·) := by
        refine List.pairwise_cons.mpr ⟨?_, h⟩
        rintro t (_ | ⟨_, ht⟩)
        · exact le_rfl
        · exact List.rel_of_pairwise_cons h ht
      obtain ⟨last, hlast, hkept⟩ := kept_requests (kept_start request.ipNow) hsorted
      refine ⟨⟨last, hkept⟩, fun now hnow => hkept.mono (hnow last ?_)⟩
      rcases List.mem_cons.mp hlast with rfl | hlast
      · exact List.mem_cons_self
      · exact hlast

/-- In every state, no window of the limiter's length holds more admitted attempts of a key than its
limit, and the buckets still hold every attempt that is inside the window. -/
theorem resetAttempts_limited {beyondAscii : Text → Text} {requests : List ResetRequest}
    (h : (requests.flatMap clockReadings).Pairwise (· ≤ ·)) (key : Text) :
    (∀ start, (admittedAt (requested beyondAscii requests) key).countP (inWindow passwordResetWindowMs start) ≤ limitOf key) ∧
      ∀ now, (∀ t ∈ requests.flatMap clockReadings, t ≤ now) →
        (bucketOf (requested beyondAscii requests).buckets key).filter (recent passwordResetWindowMs now) =
          (admittedAt (requested beyondAscii requests) key).filter (recent passwordResetWindowMs now) := by
  obtain ⟨⟨last, hlast⟩, hkept⟩ := @kept_requested beyondAscii _ h
  exact ⟨hlast.limited key, fun now hnow => (hkept now hnow).keeps key now le_rfl⟩

/-- Of six requests for one address within a minute, five are admitted. -/
def sixRequests : List ResetRequest :=
  (List.range 6).map fun i => ⟨text "Ada@example.org ", some (text "203.0.113.7"), 10000 * i, 10000 * i⟩

theorem resetAttempts_limited_six :
    admittedAt (requested id sixRequests) (text "pwreset:email:ada@example.org") = [0, 10000, 20000, 30000, 40000] ∧
      (∀ start, (admittedAt (requested id sixRequests) (text "pwreset:email:ada@example.org")).countP
        (inWindow passwordResetWindowMs start) ≤ limitOf (text "pwreset:email:ada@example.org")) ∧
      ∀ now, (∀ t ∈ sixRequests.flatMap clockReadings, t ≤ now) →
        (bucketOf (requested id sixRequests).buckets (text "pwreset:email:ada@example.org")).filter
            (recent passwordResetWindowMs now) =
          (admittedAt (requested id sixRequests) (text "pwreset:email:ada@example.org")).filter
            (recent passwordResetWindowMs now) :=
  ⟨by decide, resetAttempts_limited (by decide) _⟩

end Savitools.Auth.AdmittedAttempts
