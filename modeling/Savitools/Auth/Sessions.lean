import Savitools.Stores.Table
import Savitools.Transitions.Runs

namespace Savitools.Auth.Sessions

open Transitions.Runs Stores.Table

def refreshTokenTtlSeconds : Nat := 30 * 24 * 60 * 60

def refreshTokenReuseGraceMs : Nat := 10 * 1000

/-- A row of `refresh_tokens`; the device columns are never read back here. -/
structure RefreshToken (Hash : Type) where
  id : Nat
  tokenHash : Hash
  userId : Nat
  familyId : Nat
  expiresAt : Nat
  revokedAt : Option Nat
deriving DecidableEq

structure User (Hash : Type) where
  id : Nat
  passwordHash : Option String
  passwordResetToken : Option Hash
  passwordResetExpiresAt : Option Nat
deriving DecidableEq

def RefreshToken.active {Hash : Type} (token : RefreshToken Hash) : Bool := token.revokedAt.isNone

/-- The await points of `refresh`. Each state but the last three holds the answer
of the statement just served and is followed by the next statement. -/
inductive RefreshPhase (Hash : Type)
  | started
  | found (stored : Option (RefreshToken Hash))
  | claimed (stored : RefreshToken Hash) (affected : Nat)
  | reread (stored : RefreshToken Hash) (latest : Option (RefreshToken Hash))
  | unauthorized
  | session (refreshToken : Nat)
  | failed
deriving DecidableEq

structure Refresh (Hash : Type) where
  rawRefreshToken : Nat
  phase : RefreshPhase Hash
deriving DecidableEq

inductive ResetPhase (Hash : Type)
  | started
  | found (user : Option (User Hash))
  | saved (userId : Nat)
  | invalid
  | expired
  | completed
  | failed
deriving DecidableEq

structure Reset (Hash : Type) where
  token : Nat
  phase : ResetPhase Hash
deriving DecidableEq

/-- The tables and the calls in flight. Row ids, families and raw tokens are all
drawn from one supply of unused values, `fresh`. The lists `consumed` and
`opened` are history: no step reads them. -/
structure State (Hash : Type) where
  now : Nat := 0
  fresh : Nat := 0
  tokens : List (RefreshToken Hash) := []
  users : List (User Hash) := []
  refreshes : List (Refresh Hash) := []
  resets : List (Reset Hash) := []
  consumed : List Nat := []
  opened : List (Nat × Nat) := []

/-- The clock of the replica that runs the next step may show anything. Of
`revokeSession` the action is the delete; its lookup only narrows the ids. -/
inductive Act
  | clock (now : Nat)
  | openSession (userId : Nat)
  | refresh (rawRefreshToken : Nat)
  | resumeRefresh (call : Nat)
  | failRefresh (call : Nat)
  | logout (rawRefreshToken : Nat)
  | revokeSession (sessionId : Nat)
  | resetPassword (token : Nat)
  | resumeReset (call : Nat) (newHash : String)
  | failReset (call : Nat)
deriving DecidableEq

variable {Hash : Type} (hashToken : Nat → Hash)

def revoke (now : Nat) (token : RefreshToken Hash) : RefreshToken Hash :=
  { token with revokedAt := some now }

/-- The insert of `issueSession`. Without a family the session starts a new one. -/
def issueSession (s : State Hash) (userId : Nat) (familyId : Option Nat) : State Hash :=
  { s with
    fresh := s.fresh + 1
    tokens := s.tokens ++ [{
      id := s.fresh
      tokenHash := hashToken s.fresh
      userId := userId
      familyId := familyId.getD s.fresh
      expiresAt := s.now + refreshTokenTtlSeconds * 1000
      revokedAt := none }] }

/-- What `login` and the other ways to sign in do once the user is known. -/
def openSession (s : State Hash) (userId : Nat) : State Hash :=
  { issueSession hashToken s userId none with opened := s.opened ++ [(userId, s.fresh)] }

def State.refreshAt (s : State Hash) (call : Nat) (refresh : Refresh Hash) : State Hash :=
  { s with refreshes := s.refreshes.set call refresh }

def State.resetAt (s : State Hash) (call : Nat) (reset : Reset Hash) : State Hash :=
  { s with resets := s.resets.set call reset }

def unconsumed (stored token : RefreshToken Hash) : Bool :=
  token.id = stored.id && token.active

def consume (s : State Hash) (call raw : Nat) (stored : RefreshToken Hash) : State Hash :=
  let claim := affected (unconsumed stored) s.tokens
  { s with
    tokens := update (unconsumed stored) (revoke s.now) s.tokens
    consumed := if claim = 1 then raw :: s.consumed else s.consumed }.refreshAt call
      ⟨raw, .claimed stored claim⟩

def withinGrace (now : Nat) (latest : Option (RefreshToken Hash)) : Bool :=
  match latest.bind RefreshToken.revokedAt with
  | none => false
  | some consumedAt => consumedAt ≤ now && now - consumedAt ≤ refreshTokenReuseGraceMs

def revokeFamily (s : State Hash) (familyId : Nat) : State Hash :=
  { s with tokens := update (fun token => token.familyId = familyId) (revoke s.now) s.tokens }

/-- An await of a call in flight rejects. -/
def failRefresh (s : State Hash) (call raw : Nat) : RefreshPhase Hash → Option (State Hash)
  | .unauthorized | .session _ | .failed => none
  | _ => some (s.refreshAt call ⟨raw, .failed⟩)

def resetExpired (now : Nat) (user : User Hash) : Bool :=
  match user.passwordResetExpiresAt with
  | none => true
  | some expiresAt => expiresAt ≤ now

def saveReset (s : State Hash) (user : User Hash) (newHash : String) : State Hash :=
  { s with
    users := update (fun row => row.id = user.id) (fun row => { row with
      passwordResetToken := none
      passwordResetExpiresAt := none
      passwordHash := some newHash }) s.users }

def revokeUser (s : State Hash) (userId : Nat) : State Hash :=
  { s with tokens := update (fun token => token.userId = userId && token.active) (revoke s.now) s.tokens }

def failReset (s : State Hash) (call token : Nat) : ResetPhase Hash → Option (State Hash)
  | .invalid | .expired | .completed | .failed => none
  | _ => some (s.resetAt call ⟨token, .failed⟩)

def initial (users : List (User Hash)) : State Hash := { users := users }

variable [DecidableEq Hash]

def resumeRefresh (s : State Hash) (call raw : Nat) : RefreshPhase Hash → Option (State Hash)
  | .started =>
      let stored := s.tokens.find? (fun token => token.tokenHash = hashToken raw)
      some (s.refreshAt call ⟨raw, .found stored⟩)
  | .found none => some (s.refreshAt call ⟨raw, .unauthorized⟩)
  | .found (some stored) =>
      if stored.expiresAt ≤ s.now then some (s.refreshAt call ⟨raw, .unauthorized⟩)
      else some (consume s call raw stored)
  | .claimed stored claim =>
      if claim = 1 then
        some ((issueSession hashToken s stored.userId (some stored.familyId)).refreshAt call
          ⟨raw, .session s.fresh⟩)
      else
        let latest := s.tokens.find? (fun token => token.id = stored.id)
        some (s.refreshAt call ⟨raw, .reread stored latest⟩)
  | .reread stored latest =>
      if withinGrace s.now latest then some (s.refreshAt call ⟨raw, .unauthorized⟩)
      else some ((revokeFamily s stored.familyId).refreshAt call ⟨raw, .unauthorized⟩)
  | .unauthorized | .session _ | .failed => none

def resumeReset (s : State Hash) (call token : Nat) (newHash : String) :
    ResetPhase Hash → Option (State Hash)
  | .started =>
      let user := s.users.find? (fun user => user.passwordResetToken = some (hashToken token))
      some (s.resetAt call ⟨token, .found user⟩)
  | .found none => some (s.resetAt call ⟨token, .invalid⟩)
  | .found (some user) =>
      if resetExpired s.now user then some (s.resetAt call ⟨token, .expired⟩)
      else some ((saveReset s user newHash).resetAt call ⟨token, .saved user.id⟩)
  | .saved userId => some ((revokeUser s userId).resetAt call ⟨token, .completed⟩)
  | .invalid | .expired | .completed | .failed => none

def step : Step (State Hash) Act
  | s, .clock now => some { s with now := now }
  | s, .openSession userId =>
      if s.users.any (fun user => user.id = userId) then some (openSession hashToken s userId) else none
  | s, .refresh raw => some { s with refreshes := s.refreshes ++ [⟨raw, .started⟩] }
  | s, .resumeRefresh call =>
      s.refreshes[call]?.bind (fun r => resumeRefresh hashToken s call r.rawRefreshToken r.phase)
  | s, .failRefresh call =>
      s.refreshes[call]?.bind (fun r => failRefresh s call r.rawRefreshToken r.phase)
  | s, .logout raw =>
      some { s with tokens := delete (fun token => token.tokenHash = hashToken raw) s.tokens }
  | s, .revokeSession sessionId =>
      some { s with tokens := delete (fun token => token.id = sessionId) s.tokens }
  | s, .resetPassword token => some { s with resets := s.resets ++ [⟨token, .started⟩] }
  | s, .resumeReset call newHash =>
      s.resets[call]?.bind (fun r => resumeReset hashToken s call r.token newHash r.phase)
  | s, .failReset call => s.resets[call]?.bind (fun r => failReset s call r.token r.phase)

end Savitools.Auth.Sessions

namespace Savitools.Auth.SessionEffects

open Transitions.Runs Stores.Table Sessions

variable {Hash : Type} (hashToken : Nat → Hash)

def SameToken (r q : RefreshToken Hash) : Prop :=
  r.id = q.id ∧ r.tokenHash = q.tokenHash ∧ r.userId = q.userId ∧ r.familyId = q.familyId

def activeIn (familyId : Nat) (token : RefreshToken Hash) : Bool :=
  token.active && token.familyId = familyId

/-- The call has consumed a token of the family and not yet saved its successor. -/
def wonIn (familyId : Nat) (refresh : Refresh Hash) : Bool :=
  match refresh.phase with
  | .claimed stored claim => claim = 1 && stored.familyId = familyId
  | _ => false

def stored? : RefreshPhase Hash → Option (RefreshToken Hash)
  | .found stored => stored
  | .claimed stored _ => some stored
  | .reread stored _ => some stored
  | _ => none

structure Retires (rows rows' : List (RefreshToken Hash)) : Prop where
  origin : ∀ r' ∈ rows', ∃ r ∈ rows, SameToken r' r ∧ (r'.active = true → r.active = true)
  count : ∀ f, rows'.countP (activeIn f) ≤ rows.countP (activeIn f)

/-- The calls in flight change without a new winner, and what they remember of
the table is what they remembered before or a row they have just read. -/
inductive Calls (s : State Hash) : List (Refresh Hash) → Prop
  | same : Calls s s.refreshes
  | start (raw) : Calls s (s.refreshes ++ [⟨raw, .started⟩])
  | settle (call raw phase phase') (hcall : s.refreshes[call]? = some ⟨raw, phase⟩)
      (hlost : ∀ f, wonIn f (⟨raw, phase'⟩ : Refresh Hash) = false)
      (hstored : ∀ stored, stored? phase' = some stored →
        stored? phase = some stored ∨ (stored ∈ s.tokens ∧ stored.tokenHash = hashToken raw)) :
      Calls s (s.refreshes.set call ⟨raw, phase'⟩)

/-- Everything a step can do to the sessions: retire tokens, win the consuming
update of one token, save a successor, or start a new family. -/
inductive Effect (s : State Hash) : State Hash → Prop
  | retire (t) (hfresh : t.fresh = s.fresh) (hopened : t.opened = s.opened)
      (hconsumed : t.consumed = s.consumed) (htokens : Retires s.tokens t.tokens)
      (hcalls : Calls hashToken s t.refreshes) : Effect s t
  | win (call raw stored) (hcall : s.refreshes[call]? = some ⟨raw, .found (some stored)⟩)
      (hone : affected (unconsumed stored) s.tokens = 1) : Effect s (consume s call raw stored)
  | succeed (call raw stored) (hcall : s.refreshes[call]? = some ⟨raw, .claimed stored 1⟩) :
      Effect s ((issueSession hashToken s stored.userId (some stored.familyId)).refreshAt call
        ⟨raw, .session s.fresh⟩)
  | fresh (userId) : Effect s (openSession hashToken s userId)

theorem SameToken.refl (r : RefreshToken Hash) : SameToken r r := ⟨rfl, rfl, rfl, rfl⟩

theorem Retires.refl (rows : List (RefreshToken Hash)) : Retires rows rows where
  origin r hr := ⟨r, hr, .refl r, id⟩
  count _ := Nat.le_refl _

theorem not_active_revoke (now : Nat) (r : RefreshToken Hash) : (revoke now r).active = false := rfl

theorem retires_update (p : RefreshToken Hash → Bool) (now : Nat) (rows : List (RefreshToken Hash)) :
    Retires rows (update p (revoke now) rows) where
  origin r' hr' := by
    obtain ⟨r, hr, rfl⟩ := mem_update.mp hr'
    refine ⟨r, hr, ?_⟩
    split
    next => exact ⟨⟨rfl, rfl, rfl, rfl⟩, fun h => by cases h⟩
    next => exact ⟨.refl r, id⟩
  count f := countP_update_le (fun r _ _ => by simp [activeIn, not_active_revoke])

theorem retires_delete (p : RefreshToken Hash → Bool) (rows : List (RefreshToken Hash)) :
    Retires rows (delete p rows) where
  origin r hr := ⟨r, (mem_delete.mp hr).1, .refl r, id⟩
  count f := countP_delete_le p (activeIn f) rows

structure Issued (s : State Hash) (r : RefreshToken Hash) : Prop where
  id : r.id = s.fresh
  hash : r.tokenHash = hashToken s.fresh
  active : r.active = true

variable {hashToken}

theorem Calls.blank {s : State Hash} {call raw : Nat} {phase phase' : RefreshPhase Hash}
    (hcall : s.refreshes[call]? = some ⟨raw, phase⟩)
    (hlost : ∀ f, wonIn f (⟨raw, phase'⟩ : Refresh Hash) = false) (hnone : stored? phase' = none) :
    Calls hashToken s (s.refreshes.set call ⟨raw, phase'⟩) :=
  .settle call raw phase phase' hcall hlost (fun stored h => by rw [hnone] at h; cases h)

theorem failRefresh_effect {s t : State Hash} {call raw : Nat} {phase : RefreshPhase Hash}
    (hcall : s.refreshes[call]? = some ⟨raw, phase⟩) (h : failRefresh s call raw phase = some t) :
    Effect hashToken s t := by
  cases phase with
  | started | found | claimed | reread =>
      cases h
      exact .retire _ rfl rfl rfl (.refl _) (.blank hcall (fun _ => rfl) rfl)
  | unauthorized | session | failed => cases h

theorem failReset_effect {s t : State Hash} {call token : Nat} {phase : ResetPhase Hash}
    (h : failReset s call token phase = some t) : Effect hashToken s t := by
  cases phase with
  | started | found | saved => cases h; exact .retire _ rfl rfl rfl (.refl _) .same
  | invalid | expired | completed | failed => cases h

theorem SameToken.trans {r q p : RefreshToken Hash} (h : SameToken r q) (h' : SameToken q p) :
    SameToken r p :=
  ⟨h.1.trans h'.1, h.2.1.trans h'.2.1, h.2.2.1.trans h'.2.2.1, h.2.2.2.trans h'.2.2.2⟩

theorem SameToken.symm {r q : RefreshToken Hash} (h : SameToken r q) : SameToken q r :=
  ⟨h.1.symm, h.2.1.symm, h.2.2.1.symm, h.2.2.2.symm⟩

theorem Effect.row {s t : State Hash} (h : Effect hashToken s t) {r' : RefreshToken Hash}
    (hr' : r' ∈ t.tokens) :
    (∃ r ∈ s.tokens, SameToken r' r ∧ (r'.active = true → r.active = true)) ∨
      (Issued hashToken s r' ∧ t.fresh = s.fresh + 1 ∧
        ((∃ refresh ∈ s.refreshes, ∃ stored, refresh.phase = .claimed stored 1 ∧
            r'.userId = stored.userId ∧ r'.familyId = stored.familyId) ∨
          (r'.familyId = s.fresh ∧ t.opened = s.opened ++ [(r'.userId, r'.familyId)]))) := by
  cases h with
  | retire t hfresh hopened hconsumed htokens hcalls => exact .inl (htokens.origin r' hr')
  | win call raw stored => exact .inl ((retires_update _ _ _).origin r' hr')
  | succeed call raw stored hcall =>
      rcases List.mem_append.mp hr' with hr | hr
      · exact .inl ⟨r', hr, .refl r', id⟩
      · obtain rfl := List.mem_singleton.mp hr
        exact .inr ⟨⟨rfl, rfl, rfl⟩, rfl,
          .inl ⟨_, List.mem_of_getElem? hcall, stored, rfl, rfl, rfl⟩⟩
  | fresh userId =>
      rcases List.mem_append.mp hr' with hr | hr
      · exact .inl ⟨r', hr, .refl r', id⟩
      · obtain rfl := List.mem_singleton.mp hr
        exact .inr ⟨⟨rfl, rfl, rfl⟩, rfl, .inr ⟨rfl, rfl⟩⟩

theorem Effect.stored {s t : State Hash} (h : Effect hashToken s t) {refresh' : Refresh Hash}
    (hc : refresh' ∈ t.refreshes) {stored : RefreshToken Hash}
    (hs : stored? refresh'.phase = some stored) :
    (∃ refresh ∈ s.refreshes, refresh.rawRefreshToken = refresh'.rawRefreshToken ∧
        stored? refresh.phase = some stored) ∨
      (stored ∈ s.tokens ∧ stored.tokenHash = hashToken refresh'.rawRefreshToken) := by
  cases h with
  | retire t hfresh hopened hconsumed htokens hcalls =>
      generalize t.refreshes = refreshes at hcalls hc
      cases hcalls with
      | same => exact .inl ⟨refresh', hc, rfl, hs⟩
      | start raw =>
          rcases List.mem_append.mp hc with hc | hc
          · exact .inl ⟨refresh', hc, rfl, hs⟩
          · obtain rfl := List.mem_singleton.mp hc
            cases hs
      | settle call raw phase phase' hcall hlost hstored =>
          rcases List.mem_or_eq_of_mem_set hc with hc | rfl
          · exact .inl ⟨refresh', hc, rfl, hs⟩
          · rcases hstored stored hs with hold | hread
            · exact .inl ⟨_, List.mem_of_getElem? hcall, rfl, hold⟩
            · exact .inr hread
  | win call raw st hcall hone =>
      rcases List.mem_or_eq_of_mem_set hc with hc | rfl
      · exact .inl ⟨refresh', hc, rfl, hs⟩
      · exact .inl ⟨_, List.mem_of_getElem? hcall, rfl, hs⟩
  | succeed call raw st hcall =>
      rcases List.mem_or_eq_of_mem_set hc with hc | rfl
      · exact .inl ⟨refresh', hc, rfl, hs⟩
      · cases hs
  | fresh userId => exact .inl ⟨refresh', hc, rfl, hs⟩

theorem Effect.fresh_le {s t : State Hash} (h : Effect hashToken s t) : s.fresh ≤ t.fresh := by
  cases h with
  | retire t hfresh => exact Nat.le_of_eq hfresh.symm
  | win => exact Nat.le_refl _
  | succeed | fresh => exact Nat.le_succ _

theorem Effect.opened {s t : State Hash} (h : Effect hashToken s t) :
    t.opened = s.opened ∨ (t.fresh = s.fresh + 1 ∧ ∃ u, t.opened = s.opened ++ [(u, s.fresh)]) := by
  cases h with
  | retire t hfresh hopened => exact .inl hopened
  | win | succeed => exact .inl rfl
  | fresh userId => exact .inr ⟨rfl, userId, rfl⟩

variable [DecidableEq Hash]

theorem resumeRefresh_effect {s t : State Hash} {call raw : Nat} {phase : RefreshPhase Hash}
    (hcall : s.refreshes[call]? = some ⟨raw, phase⟩)
    (h : resumeRefresh hashToken s call raw phase = some t) : Effect hashToken s t := by
  cases phase with
  | started =>
      cases h
      refine .retire _ rfl rfl rfl (.refl _) (.settle call raw _ _ hcall (fun _ => rfl) ?_)
      intro stored hs
      exact .inr ⟨List.mem_of_find?_eq_some hs, by simpa using List.find?_some hs⟩
  | found stored =>
      cases stored with
      | none => cases h; exact .retire _ rfl rfl rfl (.refl _) (.blank hcall (fun _ => rfl) rfl)
      | some stored =>
          simp only [resumeRefresh] at h
          split at h
          next => cases h; exact .retire _ rfl rfl rfl (.refl _) (.blank hcall (fun _ => rfl) rfl)
          next =>
            cases h
            by_cases hone : affected (unconsumed stored) s.tokens = 1
            · exact .win call raw stored hcall hone
            · refine .retire _ rfl rfl (by simp [consume, State.refreshAt, hone]) (retires_update _ _ _) ?_
              refine .settle call raw _ _ hcall ?_ (fun _ hs => .inl hs)
              exact fun f => by simp [wonIn, hone]
  | claimed stored claim =>
      simp only [resumeRefresh] at h
      split at h
      next hone => cases h; subst hone; exact .succeed call raw stored hcall
      next =>
        cases h
        exact .retire _ rfl rfl rfl (.refl _)
          (.settle call raw _ _ hcall (fun _ => rfl) (fun _ hs => .inl hs))
  | reread stored latest =>
      simp only [resumeRefresh] at h
      split at h
      next => cases h; exact .retire _ rfl rfl rfl (.refl _) (.blank hcall (fun _ => rfl) rfl)
      next =>
        cases h
        exact .retire _ rfl rfl rfl (retires_update _ _ _) (.blank hcall (fun _ => rfl) rfl)
  | unauthorized | session | failed => cases h

theorem resumeReset_effect {s t : State Hash} {call token : Nat} {newHash : String}
    {phase : ResetPhase Hash} (h : resumeReset hashToken s call token newHash phase = some t) :
    Effect hashToken s t := by
  cases phase with
  | started => cases h; exact .retire _ rfl rfl rfl (.refl _) .same
  | found user =>
      cases user with
      | none => cases h; exact .retire _ rfl rfl rfl (.refl _) .same
      | some user =>
          simp only [resumeReset] at h
          split at h <;> cases h <;> exact .retire _ rfl rfl rfl (.refl _) .same
  | saved userId => cases h; exact .retire _ rfl rfl rfl (retires_update _ _ _) .same
  | invalid | expired | completed | failed => cases h

/-- The inversion of a step, from which every invariant below is proved. -/
theorem step_effect {s t : State Hash} {a : Act} (h : step hashToken s a = some t) :
    Effect hashToken s t := by
  cases a with
  | clock now => cases h; exact .retire _ rfl rfl rfl (.refl _) .same
  | openSession userId =>
      simp only [step, Option.ite_none_right_eq_some, Option.some.injEq] at h
      obtain ⟨-, rfl⟩ := h
      exact .fresh userId
  | refresh raw => cases h; exact .retire _ rfl rfl rfl (.refl _) (.start raw)
  | resumeRefresh call =>
      obtain ⟨r, hr, ht⟩ := Option.bind_eq_some_iff.mp h
      exact resumeRefresh_effect hr ht
  | failRefresh call =>
      obtain ⟨r, hr, ht⟩ := Option.bind_eq_some_iff.mp h
      exact failRefresh_effect hr ht
  | logout raw => cases h; exact .retire _ rfl rfl rfl (retires_delete _ _) .same
  | revokeSession sessionId => cases h; exact .retire _ rfl rfl rfl (retires_delete _ _) .same
  | resetPassword token => cases h; exact .retire _ rfl rfl rfl (.refl _) .same
  | resumeReset call newHash =>
      obtain ⟨r, -, ht⟩ := Option.bind_eq_some_iff.mp h
      exact resumeReset_effect ht
  | failReset call =>
      obtain ⟨r, -, ht⟩ := Option.bind_eq_some_iff.mp h
      exact failReset_effect ht

end Savitools.Auth.SessionEffects
