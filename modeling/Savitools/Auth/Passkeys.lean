import Savitools.Common.BoundedTtlMap
import Savitools.Strings.CodeUnits
import Savitools.Transitions.Runs

namespace Savitools.Auth.Passkeys

open Strings.CodeUnits Transitions.Runs Common

def passkeyChallengeTtlSeconds : Nat := 120

def passkeyChallengeMaxEntries : Nat := 10000

def passkeyMaxPerUser : Nat := 25

def passkeyReauthScope : Text := text "passkey-reauth"

def discoverableChallengeOwner : Text := text "anonymous"

def isUuidUnit (u : UInt16) : Bool := isLowerHex u || u == unit '-'

def isBase64Url (u : UInt16) : Bool :=
  between 'A' 'Z' u || between 'a' 'z' u || isDigit u || u == unit '-' || u == unit '_'

/-- The `uuid` column `users.id`. -/
structure UserId where
  text : Text
  length_eq : text.length = 36
  uuid : ∀ u ∈ text, isUuidUnit u = true
deriving DecidableEq

/-- The id of a stored credential, which the WebAuthn library renders in base64url. -/
structure CredentialId where
  text : Text
  base64url : ∀ u ∈ text, isBase64Url u = true
deriving DecidableEq

structure PasskeyCredential where
  credentialId : CredentialId
  userId : UserId
  counter : Nat
  revokedAt : Option Nat
deriving DecidableEq

structure ReauthPayload where
  sub : Option Text
  scope : Option Text

inductive ChallengeType
  | registration
  | assertion
deriving DecidableEq

structure Challenge where
  challenge : Text
  type : ChallengeType
  rpId : Text
deriving DecidableEq

def challengeLimits : BoundedTtlMapOptions Nat where
  maxEntries := passkeyChallengeMaxEntries
  ttlMs := passkeyChallengeTtlSeconds * 1000
  maxEntries_pos := by decide
  ttlMs_pos := by decide

/-- `PASSKEY_RP_ID`, and the host name of the web origin that stands in for it. -/
structure Config where
  passkeyRpId : Option Text
  webHostname : Text

def Config.rpId (cfg : Config) (option : Option Text) : Text :=
  (option <|> cfg.passkeyRpId).getD cfg.webHostname

/-- The calls of the four passkey methods, each cut at its awaits: the name says what
is awaited. The last four are the ends of a call. -/
inductive Call
  | registrantLookup (userId : UserId) (rpId : Option Text)
  | existingLookup (userId : UserId) (rpId : Option Text)
  | creationOptions (userId : UserId) (rpId : Text)
  | attestationCheck (userId : UserId) (challenge : Text)
  | credentialSave (challenge : Text)
  | userLookup (rpId : Text)
  | credentialsLookup (rpId : Text)
  | requestOptions (rpId : Text) (allowCredentials : Option (List CredentialId))
  | credentialLookup (credentialId challenge : Text)
  | assertionCheck (credential : PasskeyCredential) (challenge : Text)
  | counterSave (credential : PasskeyCredential) (challenge : Text)
  | sessionIssue (credential : PasskeyCredential) (challenge : Text)
  | optionsReturned (challenge : Text)
  | registered (challenge : Text)
  | signedIn (credential : PasskeyCredential) (challenge : Text)
  | failed (error : String)
deriving DecidableEq

/-- What an await comes back with; `rejected` is a database or library call that fails. -/
inductive Answer
  | registrant (emailVerified : Option Bool) (grant : Option ReauthPayload)
  | existing (count : Nat)
  | options (challenge : Text)
  | user (id : Option UserId)
  | credentials (ids : List CredentialId)
  | credential (row : Option PasskeyCredential)
  | attestation (verified : Bool)
  | assertion (verified : Bool) (newCounter : Nat)
  | done
  | rejected (error : String)

/-- An issued challenge with the owner it is stored under and its allow-list. -/
structure Issued extends Challenge where
  owner : Text
  allowed : Option (List CredentialId)
deriving DecidableEq

/-- The two maps and the calls. The list `issued` is history: no step reads it. -/
structure State where
  now : Nat
  passkeyChallenges : BoundedTtlMap Text Challenge challengeLimits
  challengeKeyCache : BoundedTtlMap Text Text challengeLimits
  calls : List Call
  issued : List Issued

def init (now : Nat) : State := ⟨now, .empty, .empty, [], []⟩

def State.callAt (s : State) (call : Nat) (next : Call) : State := { s with calls := s.calls.set call next }

def State.begin (s : State) (call : Call) : State := { s with calls := s.calls ++ [call] }

def challengeKey (owner challenge : Text) : Text := owner ++ unit ':' :: challenge

def storePasskeyChallenge (s : State) (userId : Text) (type : ChallengeType) (challenge rpId : Text)
    (allowed : Option (List CredentialId)) : State :=
  { s with
    passkeyChallenges := s.passkeyChallenges.set (challengeKey userId challenge) ⟨challenge, type, rpId⟩ s.now
    challengeKeyCache :=
      match allowed with
      | none => s.challengeKeyCache
      | some ids =>
          s.challengeKeyCache.set challenge (join (unit ',') (sortTexts (ids.map CredentialId.text))) s.now
    issued := s.issued ++ [⟨⟨challenge, type, rpId⟩, userId, allowed⟩] }

def takePasskeyChallenge (s : State) (userId challenge : Text) (type : ChallengeType) (rpId : Text) :
    Except String Unit × State :=
  let key := challengeKey userId challenge
  let (entry, challenges) := s.passkeyChallenges.get key s.now
  -- The explicit delete makes the challenge single-use.
  let s := { s with passkeyChallenges := challenges.delete key }
  match entry with
  | none => (.error "PASSKEY_CHALLENGE_INVALID: challenge is expired, unknown, or already used", s)
  | some entry =>
      if entry.type ≠ type ∨ entry.rpId ≠ rpId then (.error "PASSKEY_CHALLENGE_MISMATCH", s) else (.ok (), s)

def verifyReauthToken (grant : Option ReauthPayload) (userId : UserId) : Except String Unit :=
  match grant with
  | none => .error "REAUTH_REQUIRED: reauthentication grant expired or invalid"
  | some payload =>
      if payload.sub ≠ some userId.text ∨ payload.scope ≠ some passkeyReauthScope then
        .error "Reauthentication grant is not valid for this account"
      else .ok ()

variable (sha256Hex : Text → Text)

def userIdForChallenge (allowCredentials : List Text) : Text :=
  (sha256Hex (join (unit ',') (sortTexts allowCredentials))).take 24

def claimAssertionChallenge (s : State) (challenge credentialId : Text) (credentialUserId : UserId) (rpId : Text) :
    Except String Unit × State :=
  let (allowedRaw, cache) := s.challengeKeyCache.get challenge s.now
  let s := { s with challengeKeyCache := cache.delete challenge }
  match allowedRaw.getD [] with
  | [] =>
      -- No allow-list, or one that is empty and thus falsy.
      let (held, challenges) := s.passkeyChallenges.has (challengeKey credentialUserId.text challenge) s.now
      let owner := if held then credentialUserId.text else discoverableChallengeOwner
      takePasskeyChallenge { s with passkeyChallenges := challenges } owner challenge .assertion rpId
  | u :: raw =>
      let allowed := split (unit ',') (u :: raw)
      if credentialId ∉ allowed then
        (.error "PASSKEY_CHALLENGE_MISMATCH: credential was not in the challenge allow-list", s)
      else takePasskeyChallenge s (userIdForChallenge sha256Hex allowed) challenge .assertion rpId

/-- A call goes on when the synchronous part before its next await has not thrown. -/
def advance (result : Except String Unit × State) (call : Nat) (next : Call) : State :=
  match result with
  | (.error error, s) => s.callAt call (.failed error)
  | (.ok (), s) => s.callAt call next

variable (cfg : Config)

def beginPasskeyRegistration (s : State) (userId : UserId) (rpId : Option Text) : State :=
  s.begin (.registrantLookup userId rpId)

/-- The challenge is `none` when the client data is no JSON, and empty when it has none. -/
def verifyPasskeyRegistration (s : State) (userId : UserId) (grant : Option ReauthPayload)
    (clientDataJson : Text) (challenge : Option Text) : State :=
  match verifyReauthToken grant userId with
  | .error error => s.begin (.failed error)
  | .ok () =>
      if clientDataJson = [] then
        s.begin (.failed "registrationResponse.response.clientDataJSON is required")
      else
        match challenge with
        | none => s.begin (.failed "Malformed clientDataJSON in registration response")
        | some expectedChallenge => s.begin (.attestationCheck userId expectedChallenge)

def beginPasskeyLogin (s : State) (email : Option Text) (rpId : Option Text) : State :=
  if email.getD [] = [] then s.begin (.requestOptions (cfg.rpId rpId) none)
  else s.begin (.userLookup (cfg.rpId rpId))

def verifyPasskeyLogin (s : State) (credentialId challenge : Text) : State :=
  if credentialId = [] then s.begin (.failed "Assertion response must include a credential id")
  else s.begin (.credentialLookup credentialId challenge)

def resume (s : State) (call : Nat) : Call → Answer → Option State
  | .registrantLookup userId rpId, .registrant emailVerified grant =>
      some (s.callAt call (
        match emailVerified with
        | none => .failed "User not found"
        | some verified =>
            match verifyReauthToken grant userId with
            | .error error => .failed error
            | .ok () =>
                if verified then .existingLookup userId rpId
                else .failed "Verify your email before registering a passkey"))
  | .existingLookup userId rpId, .existing count =>
      some (s.callAt call (
        if passkeyMaxPerUser ≤ count then .failed "Maximum of 25 passkeys per account reached"
        else .creationOptions userId (cfg.rpId rpId)))
  | .creationOptions userId rpId, .options challenge =>
      some ((storePasskeyChallenge s userId.text .registration challenge rpId none).callAt call
        (.optionsReturned challenge))
  | .attestationCheck userId challenge, .attestation verified =>
      if verified then
        some (advance (takePasskeyChallenge s userId.text challenge .registration (cfg.rpId none)) call
          (.credentialSave challenge))
      else some (s.callAt call (.failed "Passkey registration could not be verified"))
  | .credentialSave challenge, .done => some (s.callAt call (.registered challenge))
  | .userLookup rpId, .user id =>
      some (s.callAt call (
        match id with
        | none => .requestOptions rpId none
        | some _ => .credentialsLookup rpId))
  | .credentialsLookup rpId, .credentials ids => some (s.callAt call (.requestOptions rpId (some ids)))
  | .requestOptions rpId allowCredentials, .options challenge =>
      let challengeOwner :=
        match allowCredentials with
        | none => discoverableChallengeOwner
        | some ids => userIdForChallenge sha256Hex (ids.map CredentialId.text)
      some ((storePasskeyChallenge s challengeOwner .assertion challenge rpId allowCredentials).callAt call
        (.optionsReturned challenge))
  | .credentialLookup credentialId challenge, .credential row =>
      match row with
      | none => some (s.callAt call (.failed "PASSKEY_UNKNOWN"))
      | some credential =>
          if credential.credentialId.text ≠ credentialId then none
          else if credential.revokedAt.isSome then some (s.callAt call (.failed "PASSKEY_REVOKED"))
          else
            some (advance
              (claimAssertionChallenge sha256Hex s challenge credentialId credential.userId (cfg.rpId none)) call
              (.assertionCheck credential challenge))
  | .assertionCheck credential challenge, .assertion verified newCounter =>
      some (s.callAt call (
        if !verified then .failed "PASSKEY_ASSERTION_INVALID"
        else if newCounter ≠ 0 ∧ newCounter ≤ credential.counter then
          .failed "PASSKEY_REPLAY_OR_CLONE_DETECTED"
        else .counterSave { credential with counter := newCounter } challenge))
  | .counterSave credential challenge, .done => some (s.callAt call (.sessionIssue credential challenge))
  | .sessionIssue credential challenge, .done => some (s.callAt call (.signedIn credential challenge))
  | .attestationCheck _ _, .rejected error =>
      some (s.callAt call (.failed ("Passkey registration failed: " ++ error)))
  | .assertionCheck _ _, .rejected error =>
      some (s.callAt call (.failed ("PASSKEY_ASSERTION_INVALID: " ++ error)))
  | .optionsReturned _, _ | .registered _, _ | .signedIn _ _, _ | .failed _, _ => none
  | _, .rejected error => some (s.callAt call (.failed error))
  | _, _ => none

/-- The clock may show anything, and the awaits of the calls come back in any order. -/
inductive Act
  | clock (now : Nat)
  | beginPasskeyRegistration (userId : UserId) (rpId : Option Text)
  | verifyPasskeyRegistration (userId : UserId) (grant : Option ReauthPayload) (clientDataJson : Text)
      (challenge : Option Text)
  | beginPasskeyLogin (email : Option Text) (rpId : Option Text)
  | verifyPasskeyLogin (credentialId challenge : Text)
  | resume (call : Nat) (answer : Answer)

def step : Step State Act
  | s, .clock now => some { s with now := now }
  | s, .beginPasskeyRegistration userId rpId => some (beginPasskeyRegistration s userId rpId)
  | s, .verifyPasskeyRegistration userId grant json challenge =>
      some (verifyPasskeyRegistration s userId grant json challenge)
  | s, .beginPasskeyLogin email rpId => some (beginPasskeyLogin cfg s email rpId)
  | s, .verifyPasskeyLogin credentialId challenge => some (verifyPasskeyLogin s credentialId challenge)
  | s, .resume call answer => s.calls[call]?.bind (fun c => resume sha256Hex cfg s call c answer)

end Savitools.Auth.Passkeys

namespace Savitools.Auth.PasskeyEffects

open Strings.CodeUnits Transitions.Runs Common Stores.Keyed Passkeys

/-- What `createHash('sha256')…digest('hex')` returns: 64 lower-case hex digits. -/
structure HexDigest (sha256Hex : Text → Text) : Prop where
  length : ∀ t, (sha256Hex t).length = 64
  hex : ∀ t, ∀ u ∈ sha256Hex t, isLowerHex u = true

/-- The challenge that a call has consumed without failing since, and the credential
of a login. -/
def consumed : Call → Option (Text × Option CredentialId)
  | .credentialSave challenge | .registered challenge => some (challenge, none)
  | .assertionCheck credential challenge | .counterSave credential challenge
  | .sessionIssue credential challenge | .signedIn credential challenge =>
      some (challenge, some credential.credentialId)
  | _ => none

def holds (challenge : Text) (call : Call) : Bool := (consumed call).any (fun h => h.1 = challenge)

/-- The verification with this challenge was successful. -/
def authorised (challenge : Text) : Call → Bool
  | .registered c | .signedIn _ c => c = challenge
  | _ => false

def Admits (i : Issued) : Option CredentialId → Prop
  | none => i.type = .registration
  | some id => i.type = .assertion ∧ ∀ ids, i.allowed = some ids → id ∈ ids

/-- A call has consumed an issued challenge that admits it. -/
def Justified (issued : List Issued) (call : Call) : Prop :=
  ∀ h ∈ consumed call, ∃ i ∈ issued, i.challenge = h.1 ∧ Admits i h.2

variable {sha256Hex : Text → Text} {cfg : Config}

/-- The owners a challenge is issued for. -/
inductive Owned (sha256Hex : Text → Text) : Issued → Prop
  | registration (challenge rpId) (userId : UserId) :
      Owned sha256Hex ⟨⟨challenge, .registration, rpId⟩, userId.text, none⟩
  | discoverable (challenge rpId) :
      Owned sha256Hex ⟨⟨challenge, .assertion, rpId⟩, discoverableChallengeOwner, none⟩
  | bound (challenge rpId ids) :
      Owned sha256Hex ⟨⟨challenge, .assertion, rpId⟩,
        userIdForChallenge sha256Hex (ids.map CredentialId.text), some ids⟩

structure Inv (sha256Hex : Text → Text) (s : State) : Prop where
  owned : ∀ i ∈ s.issued, Owned sha256Hex i
  unique : ∀ i ∈ s.issued, ∀ j ∈ s.issued, i.challenge = j.challenge → i = j
  stored : ∀ e ∈ s.passkeyChallenges.entries.rows, ∃ i ∈ s.issued,
    e.key = challengeKey i.owner i.challenge ∧ e.value = i.toChallenge
  listed : ∀ e ∈ s.challengeKeyCache.entries.rows, ∃ i ∈ s.issued, ∃ ids,
    i.challenge = e.key ∧ i.allowed = some ids ∧
      e.value = join (unit ',') (sortTexts (ids.map CredentialId.text))
  justified : ∀ call ∈ s.calls, Justified s.issued call
  single : ∀ c, s.passkeyChallenges.entries.rows.countP (fun e => e.value.challenge = c) +
    s.calls.countP (holds c) ≤ 1

theorem colon_not_mem_of_hex {t : Text} (h : ∀ u ∈ t, isLowerHex u = true) : unit ':' ∉ t := by
  intro hm
  exact absurd (h _ hm) (by decide)

theorem colon_not_mem_userId (userId : UserId) : unit ':' ∉ userId.text := by
  intro hm
  exact absurd (userId.uuid _ hm) (by decide)

theorem colon_not_mem_hash (hsha : HexDigest sha256Hex) (ids : List Text) :
    unit ':' ∉ userIdForChallenge sha256Hex ids :=
  colon_not_mem_of_hex (fun u hu => hsha.hex _ u (List.mem_of_mem_take hu))

theorem length_hash (hsha : HexDigest sha256Hex) (ids : List Text) :
    (userIdForChallenge sha256Hex ids).length = 24 := by
  rw [userIdForChallenge, List.length_take, hsha.length]
  decide

theorem discoverableChallengeOwner_colon : unit ':' ∉ discoverableChallengeOwner := by decide

theorem Owned.colon_not_mem (hsha : HexDigest sha256Hex) {i : Issued} (h : Owned sha256Hex i) :
    unit ':' ∉ i.owner := by
  cases h with
  | registration challenge rpId userId => exact colon_not_mem_userId userId
  | discoverable challenge rpId => exact discoverableChallengeOwner_colon
  | bound challenge rpId ids => exact colon_not_mem_hash hsha _

/-- Under the owner of a user or of the discoverable challenges no assertion
challenge with an allow-list is found. -/
theorem Owned.allowed_eq_none (hsha : HexDigest sha256Hex) {i : Issued} (h : Owned sha256Hex i)
    (howner : (∃ userId : UserId, i.owner = userId.text) ∨ i.owner = discoverableChallengeOwner) :
    i.allowed = none := by
  cases h with
  | registration | discoverable => rfl
  | bound challenge rpId ids =>
      have hlen := length_hash hsha (ids.map CredentialId.text)
      rcases howner with ⟨userId, howner⟩ | howner
      · dsimp only at howner
        rw [howner, userId.length_eq] at hlen
        cases hlen
      · dsimp only at howner
        rw [howner] at hlen
        cases hlen

theorem Owned.type_of_allowed {i : Issued} (h : Owned sha256Hex i) {ids : List CredentialId}
    (hids : i.allowed = some ids) : i.type = .assertion := by
  cases h with
  | registration => cases hids
  | discoverable => rfl
  | bound => rfl

/-- A text that is in the allow-list as it is stored names a credential of the list. -/
theorem mem_of_mem_split {ids : List CredentialId} {raw : Text}
    (hraw : raw = join (unit ',') (sortTexts (ids.map CredentialId.text))) (hne : raw ≠ []) {t : Text}
    (ht : t ∈ split (unit ',') raw) : ∃ id ∈ ids, id.text = t := by
  have hcomma : ∀ t ∈ sortTexts (ids.map CredentialId.text), unit ',' ∉ t := by
    intro t ht hm
    obtain ⟨id, -, rfl⟩ := List.mem_map.mp (mem_sortTexts.mp ht)
    exact absurd (id.base64url _ hm) (by decide)
  rw [hraw, split_join hcomma (hraw ▸ hne), mem_sortTexts] at ht
  exact List.mem_map.mp ht

/-- A challenge that was never issued is neither stored nor held by a call. -/
theorem Inv.pending_eq_zero {s : State} (h : Inv sha256Hex s) {c : Text}
    (hc : c ∉ s.issued.map (fun i => i.challenge)) :
    s.passkeyChallenges.entries.rows.countP (fun e => e.value.challenge = c) = 0 ∧
      s.calls.countP (holds c) = 0 := by
  refine ⟨List.countP_eq_zero.mpr ?_, List.countP_eq_zero.mpr ?_⟩
  · intro e he hec
    obtain ⟨i, hi, -, hval⟩ := h.stored e he
    rw [hval] at hec
    exact hc (List.mem_map.mpr ⟨i, hi, of_decide_eq_true hec⟩)
  · intro call hcall hholds
    obtain ⟨h', hcons, hch⟩ := (Option.any_eq_true _ _).mp hholds
    obtain ⟨i, hi, hic, -⟩ := h.justified call hcall h' hcons
    exact hc (List.mem_map.mpr ⟨i, hi, hic.trans (of_decide_eq_true hch)⟩)

/-- A call that goes on keeps the challenge it has consumed or gives it up. -/
def Keeps (old next : Call) : Prop := consumed next = none ∨ consumed next = consumed old

/-- What a step does that neither issues nor consumes a challenge. -/
inductive QuietCalls (s : State) : List Call → Prop
  | same : QuietCalls s s.calls
  | begin (call) (h : consumed call = none) : QuietCalls s (s.calls ++ [call])
  | keep (call old next) (hcall : s.calls[call]? = some old) (h : Keeps old next) :
      QuietCalls s (s.calls.set call next)

inductive Effect (sha256Hex : Text → Text) (s : State) : State → Prop
  | quiet (now challenges cache calls)
      (hchallenges : challenges.entries.rows.Subperm s.passkeyChallenges.entries.rows)
      (hcache : cache.entries.rows ⊆ s.challengeKeyCache.entries.rows) (hcalls : QuietCalls s calls) :
      Effect sha256Hex s ⟨now, challenges, cache, calls, s.issued⟩
  | issue (call old issued) (hcall : s.calls[call]? = some old) (howned : Owned sha256Hex issued)
      (hfresh : issued.challenge ∉ s.issued.map (fun i => i.challenge)) :
      Effect sha256Hex s ((storePasskeyChallenge s issued.owner issued.type issued.challenge issued.rpId
        issued.allowed).callAt call (.optionsReturned issued.challenge))
  | consume (call old next challenges cache e) (hcall : s.calls[call]? = some old)
      (he : e ∈ s.passkeyChallenges.entries.rows)
      (hchallenges : challenges.entries.rows.Subperm (s.passkeyChallenges.delete e.key).entries.rows)
      (hcache : cache.entries.rows ⊆ s.challengeKeyCache.entries.rows)
      (hnext : ∀ i ∈ s.issued, e.key = challengeKey i.owner i.challenge → e.value = i.toChallenge →
        ∃ id, consumed next = some (i.challenge, id) ∧ Admits i id) :
      Effect sha256Hex s ⟨s.now, challenges, cache, s.calls.set call next, s.issued⟩

theorem Justified.mono {issued later : List Issued} {call : Call} (h : Justified issued call)
    (hsub : issued ⊆ later) : Justified later call := by
  intro c hc
  obtain ⟨i, hi, hadmits⟩ := h c hc
  exact ⟨i, hsub hi, hadmits⟩

theorem justified_of_none {issued : List Issued} {call : Call} (h : consumed call = none) :
    Justified issued call := by
  intro c hc
  rw [h] at hc
  cases hc

theorem Keeps.justified {issued : List Issued} {old next : Call} (h : Keeps old next)
    (hold : Justified issued old) : Justified issued next := by
  rcases h with hnone | hsame
  · exact justified_of_none hnone
  · exact fun c hc => hold c (hsame ▸ hc)

theorem holds_of_none {call : Call} (h : consumed call = none) (c : Text) : holds c call = false := by
  rw [holds, h]
  rfl

theorem Keeps.holds_le {old next : Call} (h : Keeps old next) (c : Text) :
    (if holds c next then 1 else 0) ≤ (if holds c old then 1 else 0) := by
  rcases h with hnone | hsame
  · rw [holds_of_none hnone]
    exact Nat.zero_le _
  · rw [holds, hsame, holds]

theorem justified_set {issued : List Issued} {calls : List Call} {n : Nat} {next : Call}
    (hcalls : ∀ call ∈ calls, Justified issued call) (hnext : Justified issued next) :
    ∀ call ∈ calls.set n next, Justified issued call := by
  intro call hcall
  rcases List.mem_or_eq_of_mem_set hcall with hcall | rfl
  · exact hcalls call hcall
  · exact hnext

theorem QuietCalls.justified {s : State} {calls : List Call} (h : QuietCalls s calls)
    (hs : ∀ call ∈ s.calls, Justified s.issued call) : ∀ call ∈ calls, Justified s.issued call := by
  cases h with
  | same => exact hs
  | begin next hnone =>
      intro call hcall
      rcases List.mem_append.mp hcall with hcall | hcall
      · exact hs call hcall
      · rw [List.mem_singleton.mp hcall]
        exact justified_of_none hnone
  | keep n old next hold hkeeps =>
      exact justified_set hs (hkeeps.justified (hs old (List.mem_of_getElem? hold)))

theorem QuietCalls.countP_le {s : State} {calls : List Call} (h : QuietCalls s calls) (c : Text) :
    calls.countP (holds c) ≤ s.calls.countP (holds c) := by
  cases h with
  | same => exact Nat.le_refl _
  | begin next hnone => simp [List.countP_append, holds_of_none hnone]
  | keep n old next hold hkeeps =>
      have hset := Stores.Table.countP_set_add (p := holds c) (b := next) hold
      have hle := hkeeps.holds_le c
      omega

theorem listed_store (s : State) (userId : Text) (type : ChallengeType) (challenge rpId : Text)
    (allowed : Option (List CredentialId)) {e : BoundedTtlMap.Entry Text Text Nat}
    (he : e ∈ (storePasskeyChallenge s userId type challenge rpId allowed).challengeKeyCache.entries.rows) :
    e ∈ s.challengeKeyCache.entries.rows ∨ e.key = challenge ∧ ∃ ids, allowed = some ids ∧
      e.value = join (unit ',') (sortTexts (ids.map CredentialId.text)) := by
  cases allowed with
  | none => exact .inl he
  | some ids =>
      rcases BoundedTtlMap.mem_of_mem_set he with rfl | ⟨he, -⟩
      · exact .inr ⟨rfl, ids, rfl, rfl⟩
      · exact .inl he

theorem Inv.issue {s : State} (h : Inv sha256Hex s) {n : Nat} {old : Call} {issued : Issued}
    (hcall : s.calls[n]? = some old) (howned : Owned sha256Hex issued)
    (hfresh : issued.challenge ∉ s.issued.map (fun i => i.challenge)) :
    Inv sha256Hex ((storePasskeyChallenge s issued.owner issued.type issued.challenge issued.rpId
      issued.allowed).callAt n (.optionsReturned issued.challenge)) where
  owned i hi := by
    rcases List.mem_append.mp hi with hi | hi
    · exact h.owned i hi
    · rw [List.mem_singleton.mp hi]
      exact howned
  unique i hi j hj hij := by
    rcases List.mem_append.mp hi with hi | hi <;> rcases List.mem_append.mp hj with hj | hj
    · exact h.unique i hi j hj hij
    · rw [List.mem_singleton.mp hj] at hij
      exact absurd (List.mem_map.mpr ⟨i, hi, hij⟩) hfresh
    · rw [List.mem_singleton.mp hi] at hij
      exact absurd (List.mem_map.mpr ⟨j, hj, hij.symm⟩) hfresh
    · rw [List.mem_singleton.mp hi, List.mem_singleton.mp hj]
  stored e he := by
    rcases BoundedTtlMap.mem_of_mem_set he with rfl | ⟨he, -⟩
    · exact ⟨issued, List.mem_append_right _ List.mem_cons_self, rfl, rfl⟩
    · obtain ⟨i, hi, hkey⟩ := h.stored e he
      exact ⟨i, List.mem_append_left _ hi, hkey⟩
  listed e he := by
    rcases listed_store s issued.owner issued.type issued.challenge issued.rpId issued.allowed he with he | ⟨hkey, ids, hallowed, hvalue⟩
    · obtain ⟨i, hi, hlist⟩ := h.listed e he
      exact ⟨i, List.mem_append_left _ hi, hlist⟩
    · exact ⟨issued, List.mem_append_right _ List.mem_cons_self, ids, hkey.symm, hallowed, hvalue⟩
  justified :=
    justified_set (fun call hc => (h.justified call hc).mono (List.subset_append_left _ _))
      (justified_of_none rfl)
  single c := by
    have hrows := (BoundedTtlMap.set_subperm s.passkeyChallenges (challengeKey issued.owner issued.challenge)
      issued.toChallenge s.now).countP_le (fun e => e.value.challenge = c)
    have hcalls := (QuietCalls.keep n old (.optionsReturned issued.challenge) hcall (.inl rfl)).countP_le c
    rw [List.countP_append, List.countP_singleton] at hrows
    by_cases hc : issued.challenge = c
    · obtain ⟨hzero, hnone⟩ := h.pending_eq_zero (hc ▸ hfresh)
      rw [hzero, if_pos (decide_eq_true hc)] at hrows
      rw [hnone] at hcalls
      exact Nat.add_le_add hrows hcalls
    · rw [if_neg (by simpa using hc)] at hrows
      exact (Nat.add_le_add hrows hcalls).trans (h.single c)

theorem Inv.effect {s t : State} (h : Inv sha256Hex s) (ht : Effect sha256Hex s t) : Inv sha256Hex t := by
  cases ht with
  | quiet now challenges cache calls hchallenges hcache hcalls =>
      exact {
        owned := h.owned
        unique := h.unique
        stored := fun e he => h.stored e (hchallenges.subset he)
        listed := fun e he => h.listed e (hcache he)
        justified := hcalls.justified h.justified
        single := fun c => (Nat.add_le_add (hchallenges.countP_le _) (hcalls.countP_le c)).trans (h.single c) }
  | issue n old issued hcall howned hfresh => exact h.issue hcall howned hfresh
  | consume n old next challenges cache e hcall he hchallenges hcache hnext =>
      obtain ⟨i, hi, hkey, hvalue⟩ := h.stored e he
      obtain ⟨id, hcons, hadmits⟩ := hnext i hi hkey hvalue
      exact {
        owned := h.owned
        unique := h.unique
        stored := fun q hq => h.stored q (BoundedTtlMap.mem_delete.mp (hchallenges.subset hq)).1
        listed := fun q hq => h.listed q (hcache hq)
        justified := by
          refine justified_set h.justified ?_
          intro c hc
          rw [hcons] at hc
          cases hc
          exact ⟨i, hi, rfl, hadmits⟩
        single := fun c => by
          have hrows := hchallenges.countP_le (fun e => e.value.challenge = c)
          have hdelete := KeyedRows.countP_delete he (fun e => e.value.challenge = c)
          have hset := Stores.Table.countP_set_add (p := holds c) (b := next) hcall
          have hholds : holds c next = decide (e.value.challenge = c) := by
            rw [holds, hcons, hvalue]
            rfl
          have hsingle := h.single c
          rw [hholds] at hset
          simp only [BoundedTtlMap.delete, BoundedTtlMap.keep] at hrows
          dsimp only
          omega }

end Savitools.Auth.PasskeyEffects
