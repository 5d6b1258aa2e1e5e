import Savitools.Auth.Passkeys

namespace Savitools.Auth.PasskeyChallenges

open Strings.CodeUnits Transitions.Runs Common Stores.Keyed Passkeys PasskeyEffects

variable {sha256Hex : Text → Text} {cfg : Config}

/-- All that `takePasskeyChallenge` can do: the key is gone, and without an error
it was there with the wanted type. -/
theorem takePasskeyChallenge_spec (s : State) (userId challenge : Text) (type : ChallengeType) (rpId : Text) :
    ∃ challenges, (takePasskeyChallenge s userId challenge type rpId).2 = { s with passkeyChallenges := challenges } ∧
      challenges.entries.rows.Subperm
        (s.passkeyChallenges.delete (challengeKey userId challenge)).entries.rows ∧
      ((takePasskeyChallenge s userId challenge type rpId).1 = .ok () →
        ∃ e ∈ s.passkeyChallenges.entries.rows, e.key = challengeKey userId challenge ∧ e.value.type = type) := by
  set key := challengeKey userId challenge with hkey
  refine ⟨(s.passkeyChallenges.get key s.now).2.delete key, ?_, ?_, ?_⟩
  · simp only [takePasskeyChallenge, ← hkey]
    split
    next => rfl
    next => split <;> rfl
  · refine List.Nodup.subperm (BoundedTtlMap.delete _ key).entries.nodup.of_map ?_
    intro e he
    obtain ⟨hget, hne⟩ := BoundedTtlMap.mem_delete.mp he
    exact BoundedTtlMap.mem_delete.mpr ⟨BoundedTtlMap.mem_of_mem_get hget, hne⟩
  · simp only [takePasskeyChallenge, ← hkey]
    split
    next => rintro ⟨⟩
    next entry hget =>
      obtain ⟨e, he, hek, -, hval⟩ := BoundedTtlMap.get_eq_some.mp hget
      split
      next => rintro ⟨⟩
      next htype =>
        rintro -
        rw [← hval] at htype
        exact ⟨e, he, hek, not_not.mp (not_or.mp htype).1⟩

/-- How an assertion may come by the owner of its challenge: from an allow-list that
names the credential, or as a user or the discoverable owner. -/
def Claims (sha256Hex : Text → Text) (s : State) (challenge credentialId owner : Text) : Prop :=
  (∃ q ∈ s.challengeKeyCache.entries.rows, q.key = challenge ∧ q.value ≠ [] ∧
      credentialId ∈ split (unit ',') q.value ∧
        owner = userIdForChallenge sha256Hex (split (unit ',') q.value)) ∨
    (∃ userId : UserId, owner = userId.text) ∨ owner = discoverableChallengeOwner

theorem claimAssertionChallenge_spec (sha256Hex : Text → Text) (s : State) (challenge credentialId : Text)
    (credentialUserId : UserId) (rpId : Text) :
    ∃ challenges cache,
      (claimAssertionChallenge sha256Hex s challenge credentialId credentialUserId rpId).2 =
        { s with passkeyChallenges := challenges, challengeKeyCache := cache } ∧
      cache.entries.rows ⊆ s.challengeKeyCache.entries.rows ∧
      challenges.entries.rows.Subperm s.passkeyChallenges.entries.rows ∧
      ((claimAssertionChallenge sha256Hex s challenge credentialId credentialUserId rpId).1 = .ok () →
        ∃ e ∈ s.passkeyChallenges.entries.rows,
          challenges.entries.rows.Subperm (s.passkeyChallenges.delete e.key).entries.rows ∧
            e.value.type = .assertion ∧ ∃ owner, e.key = challengeKey owner challenge ∧
              Claims sha256Hex s challenge credentialId owner) := by
  have hcache : ((s.challengeKeyCache.get challenge s.now).2.delete challenge).entries.rows ⊆
      s.challengeKeyCache.entries.rows :=
    fun e he => BoundedTtlMap.mem_of_mem_get (BoundedTtlMap.mem_delete.mp he).1
  simp only [claimAssertionChallenge]
  split
  next hraw =>
    set owner := if (s.passkeyChallenges.has (challengeKey credentialUserId.text challenge) s.now).1 then
      credentialUserId.text else discoverableChallengeOwner with howner
    have hhas := BoundedTtlMap.get_subperm s.passkeyChallenges (challengeKey credentialUserId.text challenge) s.now
    obtain ⟨challenges, heq, hsub, hok⟩ := takePasskeyChallenge_spec
      ⟨s.now, (s.passkeyChallenges.has (challengeKey credentialUserId.text challenge) s.now).2,
        (s.challengeKeyCache.get challenge s.now).2.delete challenge, s.calls, s.issued⟩ owner challenge .assertion rpId
    have hdelete := hsub.trans (BoundedTtlMap.subperm_delete hhas (challengeKey owner challenge))
    refine ⟨challenges, _, heq, hcache, hdelete.trans (BoundedTtlMap.delete_subperm _ _), ?_⟩
    intro htaken
    obtain ⟨e, he, hek, htype⟩ := hok htaken
    refine ⟨e, hhas.subset he, hek ▸ hdelete, htype, owner, hek, .inr ?_⟩
    rw [howner]
    split
    next => exact .inl ⟨credentialUserId, rfl⟩
    next => exact .inr rfl
  next u raw hraw =>
    split
    next => exact ⟨_, _, rfl, hcache, List.Subperm.refl _, fun h => by cases h⟩
    next hmem =>
      obtain ⟨challenges, heq, hsub, hok⟩ := takePasskeyChallenge_spec
        ⟨s.now, s.passkeyChallenges, (s.challengeKeyCache.get challenge s.now).2.delete challenge, s.calls, s.issued⟩
        (userIdForChallenge sha256Hex (split (unit ',') (u :: raw))) challenge .assertion rpId
      refine ⟨challenges, _, heq, hcache, hsub.trans (BoundedTtlMap.delete_subperm _ _), ?_⟩
      intro htaken
      obtain ⟨e, he, hek, htype⟩ := hok htaken
      refine ⟨e, he, hek ▸ hsub, htype, _, hek, .inl ?_⟩
      have hget : (s.challengeKeyCache.get challenge s.now).1 = some (u :: raw) := by
        cases h : (s.challengeKeyCache.get challenge s.now).1 with
        | none =>
            rw [h] at hraw
            cases hraw
        | some t =>
            rw [h] at hraw
            exact congrArg some hraw
      obtain ⟨q, hq, hqk, -, hqv⟩ := BoundedTtlMap.get_eq_some.mp hget
      refine ⟨q, hq, hqk, by simp [hqv], ?_, by rw [hqv]⟩
      rw [hqv]
      exact not_not.mp hmem

theorem Claims.colon_not_mem (hsha : HexDigest sha256Hex) {s : State} {challenge credentialId owner : Text}
    (h : Claims sha256Hex s challenge credentialId owner) : unit ':' ∉ owner := by
  rcases h with ⟨q, -, -, -, -, rfl⟩ | ⟨userId, rfl⟩ | rfl
  · exact colon_not_mem_hash hsha _
  · exact colon_not_mem_userId userId
  · exact discoverableChallengeOwner_colon

theorem Claims.admits {s : State} (h : Inv sha256Hex s) (hsha : HexDigest sha256Hex) {i : Issued}
    {id : CredentialId} (hclaims : Claims sha256Hex s i.challenge id.text i.owner) (hi : i ∈ s.issued)
    (htype : i.type = .assertion) : Admits i (some id) := by
  refine ⟨htype, fun ids hids => ?_⟩
  rcases hclaims with ⟨q, hq, hkey, hne, hmem, -⟩ | howner
  · obtain ⟨j, hj, ids', hjc, hallowed, hvalue⟩ := h.listed q hq
    obtain rfl := h.unique j hj i hi (hjc.trans hkey)
    obtain ⟨id', hid', hid⟩ := mem_of_mem_split hvalue hne hmem
    obtain rfl : ids' = ids := Option.some.inj (hallowed.symm.trans hids)
    obtain ⟨text, _⟩ := id
    obtain ⟨text', _⟩ := id'
    dsimp only at hid
    subst hid
    exact hid'
  · rw [(h.owned i hi).allowed_eq_none hsha howner] at hids
    cases hids

def generated : Act → Option Text
  | .resume _ (.options challenge) => some challenge
  | _ => none

/-- The challenges that the WebAuthn library generates, 32 random bytes each, are new. -/
def FreshChallenge (s : State) (a : Act) : Prop :=
  ∀ challenge ∈ generated a, challenge ∉ s.issued.map (fun i => i.challenge)

instance (s : State) (a : Act) : Decidable (FreshChallenge s a) :=
  inferInstanceAs (Decidable (∀ challenge ∈ generated a, challenge ∉ s.issued.map (fun i => i.challenge)))

theorem effect_callAt {s : State} {n : Nat} {old next : Call} (hcall : s.calls[n]? = some old)
    (h : Keeps old next) : Effect sha256Hex s (s.callAt n next) :=
  .quiet s.now s.passkeyChallenges s.challengeKeyCache _ (List.Subperm.refl _) (fun _ => id)
    (.keep n old next hcall h)

theorem effect_begin {s : State} {call : Call} (h : consumed call = none) : Effect sha256Hex s (s.begin call) :=
  .quiet s.now s.passkeyChallenges s.challengeKeyCache _ (List.Subperm.refl _) (fun _ => id) (.begin call h)

theorem fresh_options {s : State} {n : Nat} {challenge : Text}
    (hfresh : FreshChallenge s (.resume n (.options challenge))) : challenge ∉ s.issued.map (fun i => i.challenge) :=
  hfresh challenge rfl

theorem effect_issue {s : State} {n : Nat} {old : Call} {owner challenge rpId : Text} {type : ChallengeType}
    {allowed : Option (List CredentialId)} (hcall : s.calls[n]? = some old)
    (howned : Owned sha256Hex ⟨⟨challenge, type, rpId⟩, owner, allowed⟩)
    (hfresh : challenge ∉ s.issued.map (fun i => i.challenge)) :
    Effect sha256Hex s ((storePasskeyChallenge s owner type challenge rpId allowed).callAt n
      (.optionsReturned challenge)) :=
  .issue n old ⟨⟨challenge, type, rpId⟩, owner, allowed⟩ hcall howned hfresh

theorem effect_verifyAttestation {s : State} {n : Nat} {userId : UserId} {challenge : Text} (rpId : Text)
    (h : Inv sha256Hex s) (hsha : HexDigest sha256Hex)
    (hcall : s.calls[n]? = some (.attestationCheck userId challenge)) :
    Effect sha256Hex s (advance (takePasskeyChallenge s userId.text challenge .registration rpId) n
      (.credentialSave challenge)) := by
  obtain ⟨challenges, heq, hsub, hok⟩ := takePasskeyChallenge_spec s userId.text challenge .registration rpId
  unfold advance
  split
  next error t htake =>
    rw [htake] at heq
    subst heq
    exact .quiet s.now challenges s.challengeKeyCache _ (hsub.trans (BoundedTtlMap.delete_subperm _ _))
      (fun _ => id) (.keep n _ _ hcall (.inl rfl))
  next t htake =>
    rw [htake] at heq hok
    subst heq
    obtain ⟨e, he, hek, htype⟩ := hok rfl
    refine .consume n _ _ challenges s.challengeKeyCache e hcall he (hek ▸ hsub) (fun _ => id) ?_
    intro i hi hik hiv
    obtain ⟨-, rfl⟩ := append_cons_inj (colon_not_mem_userId userId) ((h.owned i hi).colon_not_mem hsha)
      (hek.symm.trans hik)
    rw [hiv] at htype
    exact ⟨none, rfl, htype⟩

theorem effect_claimAssertion {s : State} {n : Nat} {credential : PasskeyCredential} {challenge : Text}
    (rpId : Text) (h : Inv sha256Hex s) (hsha : HexDigest sha256Hex)
    (hcall : s.calls[n]? = some (.credentialLookup credential.credentialId.text challenge)) :
    Effect sha256Hex s
      (advance (claimAssertionChallenge sha256Hex s challenge credential.credentialId.text credential.userId rpId) n
        (.assertionCheck credential challenge)) := by
  obtain ⟨challenges, cache, heq, hcache, hsub, hok⟩ := claimAssertionChallenge_spec sha256Hex s challenge
    credential.credentialId.text credential.userId rpId
  unfold advance
  split
  next error t hclaim =>
    rw [hclaim] at heq
    subst heq
    exact .quiet s.now challenges cache _ hsub hcache (.keep n _ _ hcall (.inl rfl))
  next t hclaim =>
    rw [hclaim] at heq hok
    subst heq
    obtain ⟨e, he, hdelete, htype, owner, hek, howner⟩ := hok rfl
    refine .consume n _ _ challenges cache e hcall he hdelete hcache ?_
    intro i hi hik hiv
    obtain ⟨howner', hchallenge⟩ := append_cons_inj (howner.colon_not_mem hsha)
      ((h.owned i hi).colon_not_mem hsha) (hek.symm.trans hik)
    subst howner' hchallenge
    rw [hiv] at htype
    exact ⟨some credential.credentialId, rfl, howner.admits h hsha hi htype⟩

theorem effect_resume {s t : State} {n : Nat} {c : Call} {answer : Answer} (h : Inv sha256Hex s)
    (hsha : HexDigest sha256Hex) (hfresh : FreshChallenge s (.resume n answer)) (hcall : s.calls[n]? = some c)
    (ht : resume sha256Hex cfg s n c answer = some t) : Effect sha256Hex s t := by
  unfold resume at ht
  split at ht
  next userId rpId emailVerified grant =>
    cases ht
    refine effect_callAt hcall (.inl ?_)
    split
    next => rfl
    next =>
      split
      next => rfl
      next => split <;> rfl
  next userId rpId count =>
    cases ht
    refine effect_callAt hcall (.inl ?_)
    split <;> rfl
  next userId rpId challenge =>
    cases ht
    exact effect_issue hcall (.registration challenge rpId userId) (fresh_options hfresh)
  next userId challenge verified =>
    split at ht
    next => cases ht; exact effect_verifyAttestation _ h hsha hcall
    next => cases ht; exact effect_callAt hcall (.inl rfl)
  next challenge => cases ht; exact effect_callAt hcall (.inr rfl)
  next rpId id =>
    cases ht
    refine effect_callAt hcall (.inl ?_)
    split <;> rfl
  next rpId ids => cases ht; exact effect_callAt hcall (.inl rfl)
  next rpId allowCredentials challenge =>
    cases ht
    cases allowCredentials with
    | none => exact effect_issue hcall (.discoverable challenge rpId) (fresh_options hfresh)
    | some ids => exact effect_issue hcall (.bound challenge rpId ids) (fresh_options hfresh)
  next credentialId challenge row =>
    split at ht
    next => cases ht; exact effect_callAt hcall (.inl rfl)
    next credential =>
      split at ht
      next => cases ht
      next hid =>
        obtain rfl := not_not.mp hid
        split at ht
        next => cases ht; exact effect_callAt hcall (.inl rfl)
        next => cases ht; exact effect_claimAssertion _ h hsha hcall
  next credential challenge verified newCounter =>
    cases ht
    refine effect_callAt hcall ?_
    split
    next => exact .inl rfl
    next =>
      split
      next => exact .inl rfl
      next => exact .inr rfl
  next credential challenge => cases ht; exact effect_callAt hcall (.inr rfl)
  next credential challenge => cases ht; exact effect_callAt hcall (.inr rfl)
  next => cases ht; exact effect_callAt hcall (.inl rfl)
  next => cases ht; exact effect_callAt hcall (.inl rfl)
  next => cases ht
  next => cases ht
  next => cases ht
  next => cases ht
  next => cases ht; exact effect_callAt hcall (.inl rfl)
  next => cases ht

theorem step_effect {s t : State} {a : Act} (h : Inv sha256Hex s) (hsha : HexDigest sha256Hex)
    (hfresh : FreshChallenge s a) (ht : step sha256Hex cfg s a = some t) : Effect sha256Hex s t := by
  cases a with
  | clock now => cases ht; exact .quiet now _ _ _ (List.Subperm.refl _) (fun _ => id) .same
  | beginPasskeyRegistration userId rpId => cases ht; exact effect_begin rfl
  | verifyPasskeyRegistration userId grant json challenge =>
      simp only [step, Option.some.injEq] at ht
      subst ht
      unfold verifyPasskeyRegistration
      split
      next => exact effect_begin rfl
      next =>
        split
        next => exact effect_begin rfl
        next => split <;> exact effect_begin rfl
  | beginPasskeyLogin email rpId =>
      simp only [step, Option.some.injEq] at ht
      subst ht
      unfold beginPasskeyLogin
      split <;> exact effect_begin rfl
  | verifyPasskeyLogin credentialId challenge =>
      simp only [step, Option.some.injEq] at ht
      subst ht
      unfold verifyPasskeyLogin
      split <;> exact effect_begin rfl
  | resume n answer =>
      obtain ⟨c, hcall, hresume⟩ := Option.bind_eq_some_iff.mp ht
      exact effect_resume h hsha hfresh hcall hresume

theorem preserves_inv (hsha : HexDigest sha256Hex) :
    Preserves (step sha256Hex cfg) FreshChallenge (Inv sha256Hex) :=
  fun _ _ _ h hfresh ht => h.effect (step_effect h hsha hfresh ht)

theorem inv_init (now : Nat) : Inv sha256Hex (init now) where
  owned _ h := absurd h List.not_mem_nil
  unique _ h := absurd h List.not_mem_nil
  stored _ h := absurd h List.not_mem_nil
  listed _ h := absurd h List.not_mem_nil
  justified _ h := absurd h List.not_mem_nil
  single _ := Nat.zero_le 1

/-- A successful verification has consumed its challenge. -/
theorem consumed_of_authorised {c : Text} {call : Call} (h : authorised c call = true) :
    call = .registered c ∧ consumed call = some (c, none) ∨
      ∃ credential, call = .signedIn credential c ∧ consumed call = some (c, some credential.credentialId) := by
  cases call with
  | registered challenge =>
      obtain rfl : challenge = c := of_decide_eq_true h
      exact .inl ⟨rfl, rfl⟩
  | signedIn credential challenge =>
      obtain rfl : challenge = c := of_decide_eq_true h
      exact .inr ⟨credential, rfl, rfl⟩
  | _ => cases h

theorem holds_of_authorised {c : Text} {call : Call} (h : authorised c call = true) : holds c call = true := by
  rcases consumed_of_authorised h with ⟨-, hcons⟩ | ⟨credential, -, hcons⟩ <;> simp [holds, hcons]

/-- Every challenge authorises at most one verification, and one that is bound to an
allow-list only a login with a credential of the list. -/
theorem passkey_single_use (hsha : HexDigest sha256Hex) (cfg : Config) (start : Nat) (acts : List Act) (s : State)
    (hfresh : Guarded (step sha256Hex cfg) FreshChallenge (init start) acts)
    (hrun : run (step sha256Hex cfg) (init start) acts = some s) :
    (∀ challenge, s.calls.countP (authorised challenge) ≤ 1) ∧
      ∀ i ∈ s.issued, ∀ ids, i.allowed = some ids → ∀ call ∈ s.calls, authorised i.challenge call = true →
        ∃ credential, call = .signedIn credential i.challenge ∧ credential.credentialId ∈ ids := by
  have h := (preserves_inv hsha).run (inv_init start) hfresh hrun
  refine ⟨fun challenge => ?_, fun i hi ids hids call hcall hauth => ?_⟩
  · have hle : s.calls.countP (authorised challenge) ≤ s.calls.countP (holds challenge) :=
      List.countP_mono_left (fun _ _ => holds_of_authorised)
    have hsingle := h.single challenge
    omega
  · rcases consumed_of_authorised hauth with ⟨-, hcons⟩ | ⟨credential, hcall', hcons⟩
    · obtain ⟨j, hj, hji, htype⟩ := h.justified call hcall _ hcons
      obtain rfl := h.unique j hj i hi hji
      cases htype.symm.trans ((h.owned j hj).type_of_allowed hids)
    · obtain ⟨j, hj, hji, -, hadmits⟩ := h.justified call hcall _ hcons
      obtain rfl := h.unique j hj i hi hji
      exact ⟨credential, hcall', hadmits ids hids⟩

/-- The digest of the one allow-list below. -/
def sampleDigest : Text → Text := fun _ => text "dd46b64a5dd1bb2e81c30a8aef87e17e5e1ec41ec18e39ca0ee5e7ae9182dc03"

def sampleUser : UserId :=
  ⟨text "3f2b8c1e-7a4d-4f60-9b1c-5d6e7f809a1b", by decide, List.all_eq_true.mp (by decide)⟩

def sampleCredential : PasskeyCredential := ⟨⟨text "Y3JlZA", List.all_eq_true.mp (by decide)⟩, sampleUser, 0, none⟩

/-- Options for a known user; a login with its credential; the replay of the challenge. -/
def replayedLogin : List Act :=
  [.beginPasskeyLogin (some (text "a@b.c")) none, .resume 0 (.user (some sampleUser)),
    .resume 0 (.credentials [sampleCredential.credentialId]), .resume 0 (.options (text "Zm9v")),
    .verifyPasskeyLogin (text "Y3JlZA") (text "Zm9v"), .verifyPasskeyLogin (text "Y3JlZA") (text "Zm9v"),
    .resume 1 (.credential (some sampleCredential)), .resume 2 (.credential (some sampleCredential)),
    .resume 1 (.assertion true 1), .resume 1 .done, .resume 1 .done]

def sampleConfig : Config := ⟨none, text "localhost"⟩

theorem hexDigest_sample : HexDigest sampleDigest where
  length t := by
    unfold sampleDigest
    decide
  hex t := by
    unfold sampleDigest
    exact List.all_eq_true.mp (by decide)

theorem passkey_single_use_replay : ∃ s,
    run (step sampleDigest sampleConfig) (init 0) replayedLogin = some s ∧
      s.calls.countP (authorised (text "Zm9v")) = 1 ∧
      ((∀ challenge, s.calls.countP (authorised challenge) ≤ 1) ∧
        ∀ i ∈ s.issued, ∀ ids, i.allowed = some ids → ∀ call ∈ s.calls, authorised i.challenge call = true →
          ∃ credential, call = .signedIn credential i.challenge ∧ credential.credentialId ∈ ids) := by
  obtain ⟨s, hrun, hone⟩ := exists_of_run_any (step sampleDigest sampleConfig) (init 0) replayedLogin
    (fun s => s.calls.countP (authorised (text "Zm9v")) = 1) (by decide)
  exact ⟨s, hrun, of_decide_eq_true hone,
    passkey_single_use hexDigest_sample sampleConfig 0 replayedLogin s (by decide) hrun⟩

end Savitools.Auth.PasskeyChallenges
