import Savitools.Auth.Accounts

namespace Savitools.Auth.AccountAccess

open Strings.CodeUnits Stores.Keyed Transitions.Runs Accounts

variable {env : Environment} {s t : State} {h later : History}

/-- What was recorded stays recorded. -/
structure Extends (h later : History) : Prop where
  passwords : h.passwords ⊆ later.passwords
  verifications : h.verifications ⊆ later.verifications
  resets : h.resets ⊆ later.resets
  confirmed : h.confirmed ⊆ later.confirmed
  links : h.links ⊆ later.links
  sessions : h.sessions ⊆ later.sessions

/-- A token in a row was made for its user, with the time that is in the row. -/
def Held (issued : List Issued) (userId : Nat) (token : Option Text) (expiresAt : Option Int) : Prop :=
  ∀ tokenHash, token = some tokenHash →
    ∃ made ∈ issued, made.userId = userId ∧ made.tokenHash = tokenHash ∧ expiresAt = some made.expiresAt

/-- All that a row lets its user do was granted to that user. -/
structure Sound (h : History) (row : User) : Prop where
  password : ∀ passwordHash, row.passwordHash = some passwordHash → ∃ origin, (row.id, passwordHash, origin) ∈ h.passwords
  tenant : ∀ tenantId, row.fluxaTenantId = some tenantId → ∃ origin, (row.id, tenantId, origin) ∈ h.links
  verified : row.emailVerified = true → ∃ confirmation, (row.id, confirmation) ∈ h.confirmed
  verification : Held h.verifications row.id row.emailVerificationToken row.emailVerificationExpiresAt
  reset : Held h.resets row.id row.passwordResetToken row.passwordResetExpiresAt

/-- A token that was made for the user was presented in time. -/
def Presented (issued : List Issued) (userId : Nat) (tokenHash : Text) (inTime : Int → Prop) : Prop :=
  ∃ made ∈ issued, made.userId = userId ∧ made.tokenHash = tokenHash ∧ inTime made.expiresAt

/-- A session that was opened for more than another session. -/
def SignedIn (h : History) (userId : Nat) : Prop := ∃ basis, basis ≠ .signedIn ∧ (userId, basis) ∈ h.sessions

def Entitled (env : Environment) (h : History) (userId : Nat) : Basis → Prop
  | .verified tokenHash now => Presented h.verifications userId tokenHash fun expiresAt => now ≤ expiresAt
  | .password passwordHash password =>
      env.verify passwordHash password = true ∧ ∃ origin, (userId, passwordHash, origin) ∈ h.passwords
  | .tenant tenantId => ∃ origin, (userId, tenantId, origin) ∈ h.links
  | .signedIn => SignedIn h userId

def Confirmed (h : History) (userId : Nat) : Confirmation → Prop
  | .token tokenHash now => Presented h.verifications userId tokenHash fun expiresAt => now ≤ expiresAt
  | .signup => ∃ tenantId, (userId, tenantId, .signup) ∈ h.links

/-- Every session, password, link and confirmation was due to its user, and tokens go to the address of theirs. -/
structure Authorised (env : Environment) (h : History) : Prop where
  sessions : ∀ userId basis, (userId, basis) ∈ h.sessions → Entitled env h userId basis
  passwords : ∀ userId passwordHash tokenHash now, (userId, passwordHash, .reset tokenHash now) ∈ h.passwords →
    Presented h.resets userId tokenHash fun expiresAt => now < expiresAt
  links : ∀ userId tenantId, (userId, tenantId, .confirmed) ∈ h.links → SignedIn h userId
  confirmed : ∀ userId confirmation, (userId, confirmation) ∈ h.confirmed → Confirmed h userId confirmation
  mails : ∀ mail ∈ h.mails, ∃ made, (made ∈ h.verifications ∨ made ∈ h.resets) ∧ mail = (made.email, made.tokenHash)

def Pending (env : Environment) (h : History) : Phase → Prop
  | .insertRegistered user issued =>
      user.fluxaTenantId = none ∧ user.emailVerified = false ∧ user.passwordResetToken = none ∧
        user.emailVerificationToken = some issued.tokenHash ∧ user.emailVerificationExpiresAt = some issued.expiresAt
  | .mailVerification _ issued => issued ∈ h.verifications
  | .saveVerified user tokenHash now =>
      Sound h { user with emailVerified := false } ∧
        Presented h.verifications user.id tokenHash fun expiresAt => now ≤ expiresAt
  | .saveResetToken user issued =>
      Sound h { user with passwordResetToken := none } ∧ user.passwordResetToken = some issued.tokenHash ∧
        user.passwordResetExpiresAt = some issued.expiresAt ∧ issued.userId = user.id
  | .mailReset issued => issued ∈ h.resets
  | .savePassword user passwordHash tokenHash now =>
      Sound h { user with passwordHash := none } ∧ user.passwordHash = some passwordHash ∧
        Presented h.resets user.id tokenHash fun expiresAt => now < expiresAt
  | .checkPassword user _ => Sound h user
  | .findTenant currentUser _ _ => ∀ user, currentUser = some user → Sound h user ∧ SignedIn h user.id
  | .saveLinked user account confirmed basis =>
      Sound h user ∧ Entitled env h user.id basis ∧
        if confirmed then SignedIn h user.id else ∃ origin, (user.id, account.tenantId, origin) ∈ h.links
  | .issueSession userId basis => Entitled env h userId basis
  | .removeUser _ | .findEmail _ | .insertLinked _ | .settled => True

structure Invariant (env : Environment) (s : State) : Prop where
  rows : ∀ row ∈ s.users.rows, Sound s.history row
  calls : ∀ phase ∈ s.calls, Pending env s.history phase
  authorised : Authorised env s.history

section Mono

variable {userId : Nat}

theorem Extends.refl (h : History) : Extends h h :=
  ⟨List.Subset.refl _, List.Subset.refl _, List.Subset.refl _, List.Subset.refl _, List.Subset.refl _, List.Subset.refl _⟩

theorem Held.mono {issued more : List Issued} {token : Option Text} {expiresAt : Option Int} (hmore : issued ⊆ more)
    (hheld : Held issued userId token expiresAt) : Held more userId token expiresAt := fun tokenHash htoken =>
  (hheld tokenHash htoken).imp fun _ => And.imp_left fun hmade => hmore hmade

theorem Presented.mono {issued more : List Issued} {tokenHash : Text} {inTime : Int → Prop} (hmore : issued ⊆ more)
    (hmade : Presented issued userId tokenHash inTime) : Presented more userId tokenHash inTime :=
  hmade.imp fun _ => And.imp_left fun hmem => hmore hmem

theorem SignedIn.mono (hle : Extends h later) (hsigned : SignedIn h userId) : SignedIn later userId :=
  hsigned.imp fun _ => And.imp_right fun hmem => hle.sessions hmem

theorem Sound.mono (hle : Extends h later) {row : User} (hsound : Sound h row) : Sound later row where
  password passwordHash hhash := (hsound.password passwordHash hhash).imp fun _ hmem => hle.passwords hmem
  tenant tenantId htenant := (hsound.tenant tenantId htenant).imp fun _ hmem => hle.links hmem
  verified hverified := (hsound.verified hverified).imp fun _ hmem => hle.confirmed hmem
  verification := hsound.verification.mono hle.verifications
  reset := hsound.reset.mono hle.resets

theorem Entitled.mono (hle : Extends h later) {basis : Basis} (hentitled : Entitled env h userId basis) :
    Entitled env later userId basis := by
  match basis, hentitled with
  | .verified _ _, hmade => exact Presented.mono hle.verifications hmade
  | .password _ _, ⟨hvalid, origin, hmem⟩ => exact ⟨hvalid, origin, hle.passwords hmem⟩
  | .tenant _, ⟨origin, hmem⟩ => exact ⟨origin, hle.links hmem⟩
  | .signedIn, hsigned => exact SignedIn.mono hle hsigned

theorem Pending.mono (hle : Extends h later) {phase : Phase} (hpending : Pending env h phase) : Pending env later phase := by
  match phase, hpending with
  | .insertRegistered _ _, hnew => exact hnew
  | .mailVerification _ _, hmem => exact hle.verifications hmem
  | .saveVerified _ _ _, ⟨hsound, hmade⟩ => exact ⟨hsound.mono hle, hmade.mono hle.verifications⟩
  | .saveResetToken _ _, ⟨hsound, hrest⟩ => exact ⟨hsound.mono hle, hrest⟩
  | .mailReset _, hmem => exact hle.resets hmem
  | .savePassword _ _ _ _, ⟨hsound, hhash, hmade⟩ => exact ⟨hsound.mono hle, hhash, hmade.mono hle.resets⟩
  | .checkPassword _ _, hsound => exact Sound.mono hle hsound
  | .findTenant _ _ _, hcurrent =>
      exact fun user huser => ⟨(hcurrent user huser).1.mono hle, (hcurrent user huser).2.mono hle⟩
  | .saveLinked _ _ true _, ⟨hsound, hentitled, hsigned⟩ => exact ⟨hsound.mono hle, hentitled.mono hle, SignedIn.mono hle hsigned⟩
  | .saveLinked _ _ false _, ⟨hsound, hentitled, origin, hmem⟩ =>
      exact ⟨hsound.mono hle, hentitled.mono hle, origin, hle.links hmem⟩
  | .issueSession _ _, hentitled => exact Entitled.mono hle hentitled
  | .removeUser _, _ | .findEmail _, _ | .insertLinked _, _ | .settled, _ => trivial

theorem Confirmed.mono (hle : Extends h later) {confirmation : Confirmation} (hconfirmed : Confirmed h userId confirmation) :
    Confirmed later userId confirmation := by
  cases confirmation with
  | token tokenHash now => exact Presented.mono hle.verifications hconfirmed
  | signup => exact hconfirmed.imp fun _ hmem => hle.links hmem

/-- A history stays authorised if what is new in it is. -/
theorem Authorised.extend (hold : Authorised env h) (hle : Extends h later)
    (hsessions : ∀ entry ∈ later.sessions, entry ∈ h.sessions ∨ Entitled env later entry.1 entry.2)
    (hpasswords : ∀ userId passwordHash tokenHash now, (userId, passwordHash, .reset tokenHash now) ∈ later.passwords →
      (userId, passwordHash, .reset tokenHash now) ∈ h.passwords ∨
        Presented later.resets userId tokenHash fun expiresAt => now < expiresAt)
    (hlinks : ∀ userId tenantId, (userId, tenantId, .confirmed) ∈ later.links →
      (userId, tenantId, .confirmed) ∈ h.links ∨ SignedIn later userId)
    (hconfirmed : ∀ entry ∈ later.confirmed, entry ∈ h.confirmed ∨ Confirmed later entry.1 entry.2)
    (hmails : ∀ mail ∈ later.mails, mail ∈ h.mails ∨
      ∃ made, (made ∈ later.verifications ∨ made ∈ later.resets) ∧ mail = (made.email, made.tokenHash)) :
    Authorised env later where
  sessions userId basis hmem := (hsessions _ hmem).elim (fun h => (hold.sessions _ _ h).mono hle) id
  passwords userId passwordHash tokenHash now hmem :=
    (hpasswords _ _ _ _ hmem).elim (fun h => (hold.passwords _ _ _ _ h).mono hle.resets) id
  links userId tenantId hmem := (hlinks _ _ hmem).elim (fun h => (hold.links _ _ h).mono hle) id
  confirmed userId confirmation hmem := (hconfirmed _ hmem).elim (fun h => (hold.confirmed _ _ h).mono hle) id
  mails mail hmem := by
    rcases hmails mail hmem with hsent | hnew
    · obtain ⟨made, hmade, hmail⟩ := hold.mails mail hsent
      exact ⟨made, hmade.imp (fun h => hle.verifications h) fun h => hle.resets h, hmail⟩
    · exact hnew

end Mono

section Steps

variable {i : Nat}

/-- A call goes on, and the history too. -/
theorem Invariant.advance (hs : Invariant env s) (hle : Extends s.history later) (hauthorised : Authorised env later)
    {phase : Phase} (hphase : Pending env later phase) :
    Invariant env { s with history := later, calls := s.calls.set i phase } where
  rows row hrow := (hs.rows row hrow).mono hle
  calls other hother := by
    rcases List.mem_or_eq_of_mem_set hother with hold | rfl
    · exact (hs.calls other hold).mono hle
    · exact hphase
  authorised := hauthorised

theorem Invariant.callAt (hs : Invariant env s) {phase : Phase} (hphase : Pending env s.history phase) :
    Invariant env { s with calls := s.calls.set i phase } :=
  hs.advance (Extends.refl _) hs.authorised hphase

theorem Invariant.save (hs : Invariant env s) {user : User} (hle : Extends s.history later)
    (hauthorised : Authorised env later) (huser : Sound later user) {phase : Phase} (hphase : Pending env later phase) :
    Invariant env (Accounts.save s i user later phase) := by
  rw [Accounts.save]
  split
  · exact hs.callAt trivial
  · have hnext : Invariant env { s with history := later, calls := s.calls.set i phase } := hs.advance hle hauthorised hphase
    refine { hnext with rows := fun row hrow => ?_ }
    rcases KeyedRows.mem_put.mp hrow with rfl | ⟨hold, -⟩
    · exact huser
    · exact hnext.rows row hold

theorem Invariant.start (hs : Invariant env s) {phase : Phase} (hphase : Pending env s.history phase) :
    Invariant env (s.start phase) :=
  { hs with
    calls := by
      intro other hother
      rcases List.mem_append.mp hother with hold | hnew
      · exact hs.calls other hold
      · rwa [List.mem_singleton.mp hnew] }

theorem Invariant.find (hs : Invariant env s) {p : User → Bool} {user : User} (hfind : findUser s p = some user) :
    Sound s.history user ∧ p user = true :=
  ⟨hs.rows user (List.mem_of_find?_eq_some hfind), List.find?_some hfind⟩

end Steps

section Starts

variable (hs : Invariant env s)

include hs

theorem invariant_verifyEmail {token : Text} {now : Int} (hstep : startVerifyEmail env s token now = some t) : Invariant env t := by
  obtain ⟨user, hfind, hnext⟩ := Option.bind_eq_some_iff.mp hstep
  obtain ⟨expiresAt, hexpires, hnext⟩ := Option.bind_eq_some_iff.mp hnext
  obtain ⟨hsound, htoken⟩ := hs.find hfind
  split at hnext
  next => cases hnext
  next htime =>
    obtain rfl := Option.some.inj hnext
    obtain ⟨made, hmade, howner, hhash, htimes⟩ := hsound.verification _ (of_decide_eq_true htoken)
    refine hs.start ⟨⟨hsound.password, hsound.tenant, nofun, nofun, hsound.reset⟩, made, hmade, howner, hhash, ?_⟩
    rw [hexpires, Option.some.injEq] at htimes
    omega

theorem invariant_passwordReset {email token : Text} {now : Int} (hstep : startPasswordReset env s email token now = some t) :
    Invariant env t := by
  obtain ⟨user, hfind, hnext⟩ := Option.bind_eq_some_iff.mp hstep
  obtain ⟨passwordHash, -, hnext⟩ := Option.bind_eq_some_iff.mp hnext
  obtain ⟨hsound, -⟩ := hs.find hfind
  obtain rfl := Option.some.inj hnext
  exact hs.start ⟨⟨hsound.password, hsound.tenant, hsound.verified, hsound.verification, nofun⟩, rfl, rfl, rfl⟩

theorem invariant_resetPassword {token passwordHash : Text} {now : Int}
    (hstep : startResetPassword env s token passwordHash now = some t) : Invariant env t := by
  obtain ⟨user, hfind, hnext⟩ := Option.bind_eq_some_iff.mp hstep
  obtain ⟨expiresAt, hexpires, hnext⟩ := Option.bind_eq_some_iff.mp hnext
  obtain ⟨hsound, htoken⟩ := hs.find hfind
  split at hnext
  next => cases hnext
  next htime =>
    obtain rfl := Option.some.inj hnext
    obtain ⟨made, hmade, howner, hhash, htimes⟩ := hsound.reset _ (of_decide_eq_true htoken)
    refine hs.start ⟨⟨nofun, hsound.tenant, hsound.verified, hsound.verification, nofun⟩, rfl, made, hmade, howner, hhash, ?_⟩
    rw [hexpires, Option.some.injEq] at htimes
    omega

theorem invariant_login {email password : Text} (hstep : startLogin env s email password = some t) : Invariant env t := by
  obtain ⟨user, hfind, hnext⟩ := Option.bind_eq_some_iff.mp hstep
  obtain ⟨passwordHash, -, hnext⟩ := Option.bind_eq_some_iff.mp hnext
  obtain rfl := Option.some.inj hnext
  exact hs.start (hs.find hfind).1

theorem signedIn_of_session {userId : Nat} (hsession : (s.history.sessions.any fun session => session.1 = userId) = true) :
    SignedIn s.history userId := by
  obtain ⟨⟨owner, basis⟩, hmem, howner⟩ := List.any_eq_true.mp hsession
  obtain rfl := of_decide_eq_true howner
  by_cases hbasis : basis = .signedIn
  · rw [hbasis] at hmem
    exact hs.authorised.sessions _ _ hmem
  · exact ⟨basis, hbasis, hmem⟩

theorem invariant_fluxa {signedIn : Option Nat} {account : FluxaAccount} {confirmLink : Bool}
    (hstep : startFluxa s signedIn account confirmLink = some t) : Invariant env t := by
  rw [startFluxa.eq_def] at hstep
  split at hstep
  next => cases hstep
  next =>
    cases signedIn with
    | none =>
        obtain rfl := Option.some.inj hstep
        exact hs.start nofun
    | some userId =>
        dsimp only at hstep
        split at hstep
        next hsession =>
          obtain rfl := Option.some.inj hstep
          refine hs.start fun user huser => ?_
          obtain ⟨hsound, hid⟩ := hs.find huser
          exact ⟨hsound, of_decide_eq_true hid ▸ signedIn_of_session hs hsession⟩
        next => cases hstep

end Starts

section Resumes

variable {i : Nat} (hs : Invariant env s)

include hs

theorem invariant_insertRegistered {user : User} {issued : Issued}
    (hpending : Pending env s.history (.insertRegistered user issued))
    (hstep : resume env s i (.insertRegistered user issued) = some t) : Invariant env t := by
  obtain ⟨htenant, hverified, hreset, htoken, hexpires⟩ := hpending
  obtain rfl := Option.some.inj hstep
  have hnext : Invariant env { s with nextId := s.nextId + 1 } := ⟨hs.rows, hs.calls, hs.authorised⟩
  have hle : Extends s.history { s.history with
      passwords := s.history.passwords ++ (user.passwordHash.map (s.nextId, ·, PasswordOrigin.registration)).toList
      verifications := s.history.verifications ++ [{ issued with userId := s.nextId }] } :=
    { Extends.refl s.history with
      passwords := List.subset_append_left _ _
      verifications := List.subset_append_left _ _ }
  refine hnext.save hle (hs.authorised.extend hle ?_ ?_ ?_ ?_ ?_) ⟨?_, ?_, ?_, ?_, ?_⟩ ?_
  · exact fun entry hmem => .inl hmem
  · intro userId passwordHash tokenHash now hmem
    refine (List.mem_append.mp hmem).imp_right fun hnew => ?_
    obtain ⟨hash, -, hentry⟩ := Option.map_eq_some_iff.mp (Option.mem_toList.mp hnew)
    cases hentry
  · exact fun userId tenantId hmem => .inl hmem
  · exact fun entry hmem => .inl hmem
  · exact fun mail hmem => .inl hmem
  · intro passwordHash hhash
    refine ⟨.registration, List.mem_append_right _ ?_⟩
    rw [show user.passwordHash = some passwordHash from hhash]
    exact List.mem_singleton_self _
  · intro tenantId hsome
    cases htenant.symm.trans hsome
  · intro hsome
    cases hverified.symm.trans hsome
  · intro tokenHash hsome
    refine ⟨{ issued with userId := s.nextId }, List.mem_append_right _ (List.mem_singleton_self _), rfl, ?_, hexpires⟩
    exact Option.some.inj (htoken.symm.trans hsome)
  · intro tokenHash hsome
    cases hreset.symm.trans hsome
  · exact List.mem_append_right _ (List.mem_singleton_self _)

theorem invariant_send {issued : Issued} (hissued : issued ∈ s.history.verifications ∨ issued ∈ s.history.resets)
    {phase : Phase} (hphase : Pending env s.history phase) : Invariant env (send s i issued phase) := by
  have hle : Extends s.history { s.history with mails := s.history.mails ++ [(issued.email, issued.tokenHash)] } :=
    { Extends.refl s.history with }
  refine hs.advance hle (hs.authorised.extend hle ?_ ?_ ?_ ?_ ?_) (hphase.mono hle)
  · exact fun entry hmem => .inl hmem
  · exact fun userId passwordHash tokenHash now hmem => .inl hmem
  · exact fun userId tenantId hmem => .inl hmem
  · exact fun entry hmem => .inl hmem
  · intro mail hmem
    exact (List.mem_append.mp hmem).imp_right fun hnew => ⟨issued, hissued, List.mem_singleton.mp hnew⟩

theorem invariant_saveVerified {user : User} {tokenHash : Text} {now : Int}
    (hpending : Pending env s.history (.saveVerified user tokenHash now))
    (hstep : resume env s i (.saveVerified user tokenHash now) = some t) : Invariant env t := by
  obtain ⟨hsound, hmade⟩ := hpending
  obtain rfl := Option.some.inj hstep
  have hle : Extends s.history { s.history with confirmed := s.history.confirmed ++ [(user.id, .token tokenHash now)] } :=
    { Extends.refl s.history with confirmed := List.subset_append_left _ _ }
  refine hs.save hle (hs.authorised.extend hle ?_ ?_ ?_ ?_ ?_) ?_ hmade
  · exact fun entry hmem => .inl hmem
  · exact fun userId passwordHash tokenHash now hmem => .inl hmem
  · exact fun userId tenantId hmem => .inl hmem
  · intro entry hmem
    refine (List.mem_append.mp hmem).imp_right fun hnew => ?_
    rw [List.mem_singleton.mp hnew]
    exact hmade
  · exact fun mail hmem => .inl hmem
  · have hrow := hsound.mono hle
    exact ⟨hrow.password, hrow.tenant, fun _ => ⟨_, List.mem_append_right _ (List.mem_singleton_self _)⟩,
      hrow.verification, hrow.reset⟩

theorem invariant_saveResetToken {user : User} {issued : Issued}
    (hpending : Pending env s.history (.saveResetToken user issued))
    (hstep : resume env s i (.saveResetToken user issued) = some t) : Invariant env t := by
  obtain ⟨hsound, htoken, hexpires, howner⟩ := hpending
  obtain rfl := Option.some.inj hstep
  have hle : Extends s.history { s.history with resets := s.history.resets ++ [issued] } :=
    { Extends.refl s.history with resets := List.subset_append_left _ _ }
  have hnew : issued ∈ s.history.resets ++ [issued] := List.mem_append_right _ (List.mem_singleton_self _)
  refine hs.save hle (hs.authorised.extend hle ?_ ?_ ?_ ?_ ?_) ?_ hnew
  · exact fun entry hmem => .inl hmem
  · exact fun userId passwordHash tokenHash now hmem => .inl hmem
  · exact fun userId tenantId hmem => .inl hmem
  · exact fun entry hmem => .inl hmem
  · exact fun mail hmem => .inl hmem
  · have hrow := hsound.mono hle
    refine ⟨hrow.password, hrow.tenant, hrow.verified, hrow.verification, fun tokenHash hsome => ?_⟩
    exact ⟨issued, hnew, howner, Option.some.inj (htoken.symm.trans hsome), hexpires⟩

theorem invariant_savePassword {user : User} {passwordHash tokenHash : Text} {now : Int}
    (hpending : Pending env s.history (.savePassword user passwordHash tokenHash now))
    (hstep : resume env s i (.savePassword user passwordHash tokenHash now) = some t) : Invariant env t := by
  obtain ⟨hsound, hhash, hmade⟩ := hpending
  obtain rfl := Option.some.inj hstep
  have hle : Extends s.history
      { s.history with passwords := s.history.passwords ++ [(user.id, passwordHash, .reset tokenHash now)] } :=
    { Extends.refl s.history with passwords := List.subset_append_left _ _ }
  refine hs.save hle (hs.authorised.extend hle ?_ ?_ ?_ ?_ ?_) ?_ trivial
  · exact fun entry hmem => .inl hmem
  · intro userId hash token time hmem
    refine (List.mem_append.mp hmem).imp_right fun hnew => ?_
    cases List.mem_singleton.mp hnew
    exact hmade
  · exact fun userId tenantId hmem => .inl hmem
  · exact fun entry hmem => .inl hmem
  · exact fun mail hmem => .inl hmem
  · have hrow := hsound.mono hle
    refine ⟨fun hash hsome => ?_, hrow.tenant, hrow.verified, hrow.verification, hrow.reset⟩
    obtain rfl := Option.some.inj (hhash.symm.trans hsome)
    exact ⟨_, List.mem_append_right _ (List.mem_singleton_self _)⟩

theorem invariant_checkPassword {user : User} {password : Text}
    (hpending : Pending env s.history (.checkPassword user password))
    (hstep : resume env s i (.checkPassword user password) = some t) : Invariant env t := by
  rw [resume] at hstep
  split at hstep
  next =>
    obtain rfl := Option.some.inj hstep
    exact hs.callAt trivial
  next hash hfilter =>
    obtain rfl := Option.some.inj hstep
    obtain ⟨hhash, hvalid⟩ := Option.filter_eq_some_iff.mp hfilter
    exact hs.callAt ⟨hvalid, Sound.password hpending hash hhash⟩

/-- What `fluxaLink` does is decided by the tenant alone: an email never picks an account. -/
theorem pending_findTenant {currentUser : Option User} {account : FluxaAccount} {confirmLink : Bool}
    (hpending : Pending env s.history (.findTenant currentUser account confirmLink)) :
    Pending env s.history (findTenant s currentUser account confirmLink) := by
  rw [findTenant.eq_def]
  cases hexisting : findUser s fun row => row.fluxaTenantId = some account.tenantId with
  | none =>
      cases currentUser with
      | none => exact trivial
      | some user =>
          obtain ⟨hsound, hsigned⟩ := hpending user rfl
          cases confirmLink with
          | false => exact trivial
          | true => exact ⟨hsound, hsigned, hsigned⟩
  | some existing =>
      obtain ⟨hexists, htenant⟩ := hs.find hexisting
      have hlink := hexists.tenant _ (of_decide_eq_true htenant)
      cases currentUser with
      | none => exact ⟨hexists, hlink, hlink⟩
      | some user =>
          obtain ⟨hsound, hsigned⟩ := hpending user rfl
          dsimp only
          split
          next => exact trivial
          next hid => exact ⟨hsound, hsigned, not_not.mp hid ▸ hlink⟩

theorem invariant_insertLinked {account : FluxaAccount}
    (hstep : resume env s i (.insertLinked account) = some t) : Invariant env t := by
  obtain rfl := Option.some.inj hstep
  have hnext : Invariant env { s with nextId := s.nextId + 1 } := ⟨hs.rows, hs.calls, hs.authorised⟩
  have hle : Extends s.history { s.history with
      confirmed := s.history.confirmed ++ [(s.nextId, .signup)]
      links := s.history.links ++ [(s.nextId, account.tenantId, .signup)] } :=
    { Extends.refl s.history with
      confirmed := List.subset_append_left _ _
      links := List.subset_append_left _ _ }
  have hlink : (s.nextId, account.tenantId, LinkOrigin.signup) ∈
      s.history.links ++ [(s.nextId, account.tenantId, .signup)] := List.mem_append_right _ (List.mem_singleton_self _)
  refine hnext.save hle (hs.authorised.extend hle ?_ ?_ ?_ ?_ ?_) ⟨?_, ?_, fun _ => ?_, ?_, ?_⟩ ⟨_, hlink⟩
  · exact fun entry hmem => .inl hmem
  · exact fun userId passwordHash tokenHash now hmem => .inl hmem
  · intro userId tenantId hmem
    refine (List.mem_append.mp hmem).imp_right fun hnew => ?_
    cases List.mem_singleton.mp hnew
  · intro entry hmem
    refine (List.mem_append.mp hmem).imp_right fun hnew => ?_
    rw [List.mem_singleton.mp hnew]
    exact ⟨account.tenantId, hlink⟩
  · exact fun mail hmem => .inl hmem
  · rintro _ ⟨⟩
  · rintro _ ⟨⟩
    exact ⟨_, hlink⟩
  · exact ⟨_, List.mem_append_right _ (List.mem_singleton_self _)⟩
  · rintro _ ⟨⟩
  · rintro _ ⟨⟩

theorem invariant_saveLinked {user : User} {account : FluxaAccount} {confirmed : Bool} {basis : Basis}
    (hpending : Pending env s.history (.saveLinked user account confirmed basis))
    (hstep : resume env s i (.saveLinked user account confirmed basis) = some t) : Invariant env t := by
  obtain ⟨hsound, hentitled, hlink⟩ := hpending
  obtain rfl := Option.some.inj hstep
  have hle : Extends s.history { s.history with
      links := s.history.links ++ if confirmed then [(user.id, account.tenantId, .confirmed)] else [] } :=
    { Extends.refl s.history with links := List.subset_append_left _ _ }
  refine hs.save hle (hs.authorised.extend hle ?_ ?_ ?_ ?_ ?_) ?_ (hentitled.mono hle)
  · exact fun entry hmem => .inl hmem
  · exact fun userId passwordHash tokenHash now hmem => .inl hmem
  · intro userId tenantId hmem
    refine (List.mem_append.mp hmem).imp_right fun hnew => ?_
    cases confirmed with
    | false => cases hnew
    | true =>
        cases List.mem_singleton.mp hnew
        exact SignedIn.mono hle hlink
  · exact fun entry hmem => .inl hmem
  · exact fun mail hmem => .inl hmem
  · have hrow := hsound.mono hle
    refine ⟨hrow.password, ?_, hrow.verified, hrow.verification, hrow.reset⟩
    rintro _ ⟨⟩
    cases confirmed with
    | false => exact hlink.imp fun _ hmem => List.mem_append_left _ hmem
    | true => exact ⟨_, List.mem_append_right _ (List.mem_singleton_self _)⟩

theorem invariant_issueSession {userId : Nat} {basis : Basis} (hpending : Entitled env s.history userId basis)
    (hstep : resume env s i (.issueSession userId basis) = some t) : Invariant env t := by
  obtain rfl := Option.some.inj hstep
  have hle : Extends s.history { s.history with sessions := s.history.sessions ++ [(userId, basis)] } :=
    { Extends.refl s.history with sessions := List.subset_append_left _ _ }
  refine hs.advance hle (hs.authorised.extend hle ?_ ?_ ?_ ?_ ?_) trivial
  · intro entry hmem
    refine (List.mem_append.mp hmem).imp_right fun hnew => ?_
    rw [List.mem_singleton.mp hnew]
    exact hpending.mono hle
  · exact fun userId passwordHash tokenHash now hmem => .inl hmem
  · exact fun userId tenantId hmem => .inl hmem
  · exact fun entry hmem => .inl hmem
  · exact fun mail hmem => .inl hmem

theorem invariant_resume {phase : Phase} (hpending : Pending env s.history phase)
    (hstep : resume env s i phase = some t) : Invariant env t := by
  cases phase with
  | insertRegistered user issued => exact invariant_insertRegistered hs hpending hstep
  | mailVerification userId issued =>
      obtain rfl := Option.some.inj hstep
      exact invariant_send hs (.inl hpending) trivial
  | removeUser userId =>
      obtain rfl := Option.some.inj hstep
      have hnext : Invariant env { s with calls := s.calls.set i .settled } := hs.callAt trivial
      exact { hnext with rows := fun row hrow => hs.rows row (KeyedRows.mem_delete.mp hrow).1 }
  | saveVerified user tokenHash now => exact invariant_saveVerified hs hpending hstep
  | saveResetToken user issued => exact invariant_saveResetToken hs hpending hstep
  | mailReset issued =>
      obtain rfl := Option.some.inj hstep
      exact invariant_send hs (.inr hpending) trivial
  | savePassword user passwordHash tokenHash now => exact invariant_savePassword hs hpending hstep
  | checkPassword user password => exact invariant_checkPassword hs hpending hstep
  | findTenant currentUser account confirmLink =>
      obtain rfl := Option.some.inj hstep
      exact hs.callAt (pending_findTenant hs hpending)
  | findEmail account =>
      obtain rfl := Option.some.inj hstep
      refine hs.callAt ?_
      split
      · exact trivial
      · exact trivial
  | insertLinked account => exact invariant_insertLinked hs hstep
  | saveLinked user account confirmed basis => exact invariant_saveLinked hs hpending hstep
  | issueSession userId basis => exact invariant_issueSession hs hpending hstep
  | settled => cases hstep

theorem invariant_fail {phase : Phase} (hpending : Pending env s.history phase)
    (hstep : fail s i phase = some t) : Invariant env t := by
  cases phase with
  | mailVerification userId issued =>
      obtain rfl := Option.some.inj hstep
      exact invariant_send hs (.inl hpending) trivial
  | mailReset issued =>
      obtain rfl := Option.some.inj hstep
      exact invariant_send hs (.inr hpending) trivial
  | settled => cases hstep
  | _ =>
      obtain rfl := Option.some.inj hstep
      exact hs.callAt trivial

end Resumes

theorem invariant_step : Preserves (step env) always (Invariant env) := by
  intro s a t hs _ hstep
  cases a with
  | register email password passwordHash token now =>
      rw [step] at hstep
      split at hstep
      next =>
        simp only [startRegister] at hstep
        split at hstep
        next => cases hstep
        next =>
          obtain rfl := Option.some.inj hstep
          exact hs.start ⟨rfl, rfl, rfl, rfl, rfl⟩
      next => cases hstep
  | verifyEmail token now => exact invariant_verifyEmail hs hstep
  | requestPasswordReset email token now => exact invariant_passwordReset hs hstep
  | resetPassword token newPassword passwordHash now =>
      rw [step] at hstep
      split at hstep
      next => exact invariant_resetPassword hs hstep
      next => cases hstep
  | login email password => exact invariant_login hs hstep
  | fluxa signedIn account confirmLink => exact invariant_fluxa hs hstep
  | resume i ok =>
      obtain ⟨phase, hcall, hnext⟩ := Option.bind_eq_some_iff.mp hstep
      have hpending := hs.calls phase (List.mem_of_getElem? hcall)
      cases ok with
      | true => exact invariant_resume hs hpending hnext
      | false => exact invariant_fail hs hpending hnext

/-- Nobody gets into an account but by what its user was given for it, however the calls overlap. -/
structure Safe (env : Environment) (s : State) : Prop where
  rows : ∀ row ∈ s.users.rows, Sound s.history row
  authorised : Authorised env s.history

theorem accounts_safe (env : Environment) (acts : List Act) : Throughout (step env) (Safe env) {} acts :=
  invariant_step.throughout (fun _ hs => ⟨hs.rows, hs.authorised⟩)
    { rows := List.forall_mem_nil _
      calls := List.forall_mem_nil _
      authorised := ⟨nofun, nofun, nofun, nofun, List.forall_mem_nil _⟩ }
    (guarded_always (step env) _ acts)

end Savitools.Auth.AccountAccess
