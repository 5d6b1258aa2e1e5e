import Savitools.Auth.ProviderKeys
import Savitools.Stores.Ledgers

namespace Savitools.Auth.ResolvedKeys

open Strings.CodeUnits Strings.Utf8 Stores.Keyed Stores.Ledgers Transitions.Runs Common.Encryption ProviderKeys

variable {env : Environment} {s t : State} {past later : List Event}

/-- Who may use a nonce, and since when: it is dropped when it is redeemed. -/
def offered : List Event → Text → Option (Text × Int)
  | [], _ => none
  | .began nonce userId now :: past, state => if nonce = state then some (userId, now) else offered past state
  | .redeemed nonce _ _ :: past, state => if nonce = state then none else offered past state
  | _ :: past, state => offered past state

/-- A key that was stored and not deleted since. -/
def VaultStands (past : List Event) (id : Nat) (userId : Text) (provider : VaultKeyProvider) (key : Text) (createdAt : Int) : Prop :=
  .created id userId provider key createdAt ∈ past ∧ ∀ owner, .deleted id owner ∉ past

/-- A token that was stored and not removed since. -/
def AccountStands (past : List Event) (id : Nat) (userId token : Text) : Prop :=
  .connected id userId token ∈ past ∧ ∀ owner, .removed id owner ∉ past

/-- Fluxa gave the token for the code, or the code stands for it, which it does not in production. -/
def Granted (config : OauthConfig) (code : Text) (response : TokenResponse) (token : Text) : Prop :=
  response.ok = true ∧ response.accessToken.or response.apiKey = some token ∨ config.production = false ∧ token = code

/-- What entitles to an event: only its user deletes a key, only whoever began a flow gets the token of it, and a key is
answered only to its user, the newest first, as long as it is stored. -/
def Due (env : Environment) (past : List Event) : Event → Prop
  | .created _ _ _ _ _ | .began _ _ _ => True
  | .deleted id userId => ∃ provider key createdAt, .created id userId provider key createdAt ∈ past
  | .accepted state userId _ now => ∃ begun, offered past state = some (userId, begun) ∧ now < begun + nonceTtlMs
  | .redeemed state userId code => ∃ now, .accepted state userId code now ∈ past
  | .exchanged userId code token response => (∃ state, .redeemed state userId code ∈ past) ∧ Granted env.oauth code response token
  | .connected _ userId token => ∃ code response, .exchanged userId code token response ∈ past
  | .removed id userId => ∃ token, .connected id userId token ∈ past
  | .noVaultKey userId provider => ∀ id key createdAt, ¬VaultStands past id userId provider key createdAt
  | .resolved userId provider (.vault id) key => ∃ saved createdAt, VaultStands past id userId provider saved createdAt ∧
      key = wellFormed saved ∧ ∀ other key createdAt', VaultStands past other userId provider key createdAt' → createdAt' ≤ createdAt
  | .resolved userId provider (.account id) key => provider = .fluxa ∧ .noVaultKey userId .fluxa ∈ past ∧
      ∃ token, AccountStands past id userId token ∧ key = wellFormed token
  | .unresolved userId provider => .noVaultKey userId provider ∈ past ∧
      (provider = .fluxa → ∀ id token, ¬AccountStands past id userId token)
  | .undecipherable => False

def openedVaultKey (env : Environment) (row : VaultKey) : Option Text :=
  decryptForUser env.crypto env.encryptionSecret row.userId ⟨row.encryptedKey, row.iv, row.authTag⟩ .vaultKey

def openedAccount (env : Environment) (row : ConnectedAccount) : Option Text :=
  decryptForUser env.crypto env.encryptionSecret row.userId ⟨row.encryptedKey, row.iv, row.authTag⟩ .connectedAccount

def vaultEntries (env : Environment) : Entries VaultKey Event where
  key := VaultKey.id
  creates
    | .created id _ _ _ _ => some id
    | _ => none
  deletes
    | .deleted id _ => some id
    | _ => none
  Fits row
    | .created _ userId provider key createdAt =>
        row.userId = userId ∧ row.provider = provider ∧ row.createdAt = createdAt ∧ openedVaultKey env row = some (wellFormed key)
    | _ => False

def accountEntries (env : Environment) : Entries ConnectedAccount Event where
  key := ConnectedAccount.id
  creates
    | .connected id _ _ => some id
    | _ => none
  deletes
    | .removed id _ => some id
    | _ => none
  Fits row
    | .connected _ userId token => row.userId = userId ∧ openedAccount env row = some (wellFormed token)
    | _ => False

/-- What a call goes on with was recorded. -/
def Pending (past : List Event) : Call → Prop
  | .removeVaultKey id userId => ∃ provider key createdAt, .created id userId provider key createdAt ∈ past
  | .redeem state userId code => ∃ now, .accepted state userId code now ∈ past
  | .exchange userId code => ∃ state, .redeemed state userId code ∈ past
  | .clear userId token | .insert userId token => ∃ code response, .exchanged userId code token response ∈ past
  | .readAccounts userId => .noVaultKey userId .fluxa ∈ past
  | .settled => True

structure Invariant (env : Environment) (s : State) : Prop where
  justified : Justified (Due env) s.trace
  vaultKeys : Ledger (vaultEntries env) s.vaultKeys.rows s.trace s.nextVaultId
  accounts : Ledger (accountEntries env) s.accounts.rows s.trace s.nextAccountId
  nonces : ∀ nonce ∈ s.nonces.rows, ∃ begun, offered s.trace nonce.state = some (nonce.userId, begun) ∧
    nonce.expiresAt = begun + nonceTtlMs
  calls : ∀ call ∈ s.calls, Pending s.trace call

theorem Pending.mono {call : Call} (h : Pending past call) (hsub : past ⊆ later) : Pending later call := by
  cases call with
  | removeVaultKey id userId => exact h.imp fun _ => Exists.imp fun _ => Exists.imp fun _ hmem => hsub hmem
  | redeem state userId code => exact h.imp fun _ hmem => hsub hmem
  | exchange userId code => exact h.imp fun _ hmem => hsub hmem
  | clear userId token | insert userId token => exact h.imp fun _ => Exists.imp fun _ hmem => hsub hmem
  | readAccounts userId => exact hsub h
  | settled => trivial

/-- Events that change neither a table nor a nonce. -/
def Quiet : Event → Prop
  | .accepted _ _ _ _ | .exchanged _ _ _ _ | .noVaultKey _ _ | .resolved _ _ _ _ | .unresolved _ _ => True
  | _ => False

theorem granted_of_exchange {config : OauthConfig} {code token : Text} {response : TokenResponse}
    (h : exchangeFluxaCode config code response = .ok token) : Granted config code response token := by
  rw [exchangeFluxaCode] at h
  split at h
  next =>
    split at h
    next => cases h
    next hproduction =>
      obtain rfl := Except.ok.inj h
      exact .inr ⟨by simpa using hproduction, rfl⟩
  next =>
    split at h
    next => cases h
    next hok =>
      split at h
      next hkey =>
        obtain rfl := Except.ok.inj h
        exact .inl ⟨by simpa using hok, hkey⟩
      next => cases h

section Steps

variable (h : Invariant env s)

include h

theorem Invariant.record {event : Event} (hquiet : Quiet event) (hdue : Due env s.trace event) :
    Invariant env (s.record event) where
  justified := ⟨hdue, h.justified⟩
  vaultKeys := by
    cases event with
    | accepted _ _ _ _ | exchanged _ _ _ _ | noVaultKey _ _ | resolved _ _ _ _ | unresolved _ _ => exact h.vaultKeys.note rfl rfl
    | _ => cases hquiet
  accounts := by
    cases event with
    | accepted _ _ _ _ | exchanged _ _ _ _ | noVaultKey _ _ | resolved _ _ _ _ | unresolved _ _ => exact h.accounts.note rfl rfl
    | _ => cases hquiet
  nonces := by
    cases event with
    | accepted _ _ _ _ | exchanged _ _ _ _ | noVaultKey _ _ | resolved _ _ _ _ | unresolved _ _ => exact h.nonces
    | _ => cases hquiet
  calls := fun call hcall => (h.calls call hcall).mono (List.subset_cons_self _ _)

theorem Invariant.start {call : Call} (hcall : Pending s.trace call) : Invariant env (s.start call) :=
  { h with calls := List.forall_mem_append.mpr ⟨h.calls, List.forall_mem_singleton.mpr hcall⟩ }

theorem Invariant.setCall {i : Nat} {call : Call} (hcall : Pending s.trace call) : Invariant env (s.setCall i call) :=
  { h with calls := fun other hother => (List.mem_or_eq_of_mem_set hother).elim (h.calls other) fun heq => heq ▸ hcall }

/-- A stored key is one that stands, and the other way round. -/
theorem Invariant.vaultStands {id : Nat} {userId key : Text} {provider : VaultKeyProvider} {createdAt : Int}
    (hstands : VaultStands s.trace id userId provider key createdAt) :
    ∃ row ∈ s.vaultKeys.rows, row.id = id ∧ row.userId = userId ∧ row.provider = provider ∧ row.createdAt = createdAt := by
  obtain ⟨hcreated, hkept⟩ := hstands
  rcases h.vaultKeys.complete _ hcreated id rfl with ⟨deletion, hdeletion, hgone⟩ | ⟨row, hrow, hid, hfits⟩
  · cases deletion with
    | deleted other owner =>
        obtain rfl := Option.some.inj hgone
        exact absurd hdeletion (hkept owner)
    | _ => cases hgone
  · exact ⟨row, hrow, hid, hfits.1, hfits.2.1, hfits.2.2.1⟩

theorem Invariant.of_vaultKey {row : VaultKey} (hrow : row ∈ s.vaultKeys.rows) :
    ∃ key, VaultStands s.trace row.id row.userId row.provider key row.createdAt ∧ openedVaultKey env row = some (wellFormed key) := by
  obtain ⟨event, hevent, hcreates, hfits⟩ := h.vaultKeys.made row hrow
  cases event with
  | created id userId provider key createdAt =>
      obtain rfl := Option.some.inj hcreates
      obtain ⟨rfl, rfl, rfl, hopened⟩ := hfits
      exact ⟨key, ⟨hevent, fun owner hdeleted => h.vaultKeys.standing row hrow _ hdeleted rfl⟩, hopened⟩
  | _ => cases hcreates

theorem Invariant.accountStands {id : Nat} {userId token : Text} (hstands : AccountStands s.trace id userId token) :
    ∃ row ∈ s.accounts.rows, row.id = id ∧ row.userId = userId := by
  obtain ⟨hconnected, hkept⟩ := hstands
  rcases h.accounts.complete _ hconnected id rfl with ⟨removal, hremoval, hgone⟩ | ⟨row, hrow, hid, hfits⟩
  · cases removal with
    | removed other owner =>
        obtain rfl := Option.some.inj hgone
        exact absurd hremoval (hkept owner)
    | _ => cases hgone
  · exact ⟨row, hrow, hid, hfits.1⟩

theorem Invariant.of_account {row : ConnectedAccount} (hrow : row ∈ s.accounts.rows) :
    ∃ token, AccountStands s.trace row.id row.userId token ∧ openedAccount env row = some (wellFormed token) := by
  obtain ⟨event, hevent, hcreates, hfits⟩ := h.accounts.made row hrow
  cases event with
  | connected id userId token =>
      obtain rfl := Option.some.inj hcreates
      obtain ⟨rfl, hopened⟩ := hfits
      exact ⟨token, ⟨hevent, fun owner hremoved => h.accounts.standing row hrow _ hremoved rfl⟩, hopened⟩
  | _ => cases hcreates

theorem invariant_createVaultKey (hcrypto : env.crypto.Opens) (userId name : Text) (provider : VaultKeyProvider) (key : Text)
    (iv : Bytes) (createdAt : Int) : Invariant env (stepCreateVaultKey env s userId name provider key iv createdAt) where
  justified := ⟨trivial, h.justified⟩
  vaultKeys := by
    have hnone : s.vaultKeys.get? s.nextVaultId = none := by
      rw [Option.eq_none_iff_forall_ne_some]
      intro row hrow
      obtain ⟨hmem, hid⟩ := KeyedRows.get?_eq_some.mp hrow
      exact absurd (h.vaultKeys.key_lt hmem) (hid ▸ Nat.lt_irrefl _)
    have hrows : (stepCreateVaultKey env s userId name provider key iv createdAt).vaultKeys.rows = s.vaultKeys.rows ++ [_] :=
      KeyedRows.put_of_get?_eq_none hnone
    rw [hrows]
    exact h.vaultKeys.insert rfl rfl rfl
      ⟨rfl, rfl, rfl, decryptForUser_encryptForUser hcrypto env.encryptionSecret userId key .vaultKey iv⟩
  accounts := h.accounts.note rfl rfl
  nonces := h.nonces
  calls := fun call hcall => (h.calls call hcall).mono (List.subset_cons_self _ _)

/-- A vault key or an account of the user, as it is decrypted for that user. -/
theorem invariant_respond {userId key : Text} {provider : VaultKeyProvider} {origin : Origin}
    (hdue : Due env s.trace (.resolved userId provider origin key)) :
    Invariant env (respond s userId provider origin (some key)) :=
  h.record trivial hdue

theorem invariant_resolveKey {userId : Text} {provider : VaultKeyProvider} {found : Nat}
    (hstep : stepResolveKey env s userId provider found = some t) : Invariant env t := by
  have hfilter (row : VaultKey) : row ∈ s.vaultKeys.rows.filter (fun row => row.userId = userId && row.provider = provider) ↔
      row ∈ s.vaultKeys.rows ∧ row.userId = userId ∧ row.provider = provider := by
    simp only [List.mem_filter, Bool.and_eq_true, decide_eq_true_eq]
  rw [stepResolveKey] at hstep
  split at hstep
  next hnone =>
    have hdue : Due env s.trace (.noVaultKey userId provider) := by
      intro id key createdAt hstands
      obtain ⟨row, hrow, -, howner, hprovider, -⟩ := h.vaultStands hstands
      have hmem := (hfilter row).mpr ⟨hrow, howner, hprovider⟩
      rw [hnone] at hmem
      cases hmem
    have hnext : Invariant env (s.record (.noVaultKey userId provider)) := h.record trivial hdue
    obtain rfl := Option.some.inj hstep
    split
    next hfluxa => exact hnext.start (hfluxa ▸ List.mem_cons_self)
    next hother => exact hnext.record trivial ⟨List.mem_cons_self, fun hfluxa => absurd hfluxa hother⟩
  next first rows hsome =>
    rw [← hsome] at hstep
    obtain ⟨row, hfound, hnext⟩ := Option.bind_eq_some_iff.mp hstep
    obtain ⟨hrow, rfl, rfl⟩ := (hfilter row).mp (List.mem_of_find?_eq_some hfound)
    obtain ⟨key, hstands, hopened⟩ := h.of_vaultKey hrow
    split at hnext
    next hnewest =>
      obtain rfl := Option.some.inj hnext
      rw [openedVaultKey] at hopened
      rw [hopened]
      refine invariant_respond h ⟨key, row.createdAt, hstands, rfl, fun other _ _ hother => ?_⟩
      obtain ⟨stored, hstored, -, howner, hprovider, hcreated⟩ := h.vaultStands hother
      exact hcreated ▸ decide_eq_true_eq.mp (List.all_eq_true.mp hnewest stored ((hfilter stored).mpr ⟨hstored, howner, hprovider⟩))
    next => cases hnext

theorem invariant_readAccounts {userId : Text} {found : Nat} (hpending : Pending s.trace (.readAccounts userId))
    (hstep : stepReadAccounts env s userId found = some t) : Invariant env t := by
  have hfilter (row : ConnectedAccount) :
      row ∈ s.accounts.rows.filter (fun row => row.userId = userId && row.provider = .fluxa) ↔
        row ∈ s.accounts.rows ∧ row.userId = userId := by
    simp only [List.mem_filter, Bool.and_eq_true, decide_eq_true_eq, and_true]
  rw [stepReadAccounts] at hstep
  split at hstep
  next hnone =>
    obtain rfl := Option.some.inj hstep
    refine h.record trivial ⟨hpending, fun _ id token hstands => ?_⟩
    obtain ⟨row, hrow, -, howner⟩ := h.accountStands hstands
    have hmem := (hfilter row).mpr ⟨hrow, howner⟩
    rw [hnone] at hmem
    cases hmem
  next first rows hsome =>
    rw [← hsome] at hstep
    obtain ⟨row, hfound, hnext⟩ := Option.bind_eq_some_iff.mp hstep
    obtain ⟨hrow, rfl⟩ := (hfilter row).mp (List.mem_of_find?_eq_some hfound)
    obtain ⟨token, hstands, hopened⟩ := h.of_account hrow
    obtain rfl := Option.some.inj hnext
    rw [openedAccount] at hopened
    rw [hopened]
    exact invariant_respond h ⟨rfl, hpending, token, hstands, rfl⟩

theorem invariant_deleteAccounts (userId : Text) : Invariant env (deleteAccounts s userId) := by
  have hgone : ∀ id ∈ (s.accounts.rows.filter fun row => row.userId = userId).map (·.id), ∃ token, .connected id userId token ∈ s.trace := by
    intro id hid
    obtain ⟨row, hrow, rfl⟩ := List.mem_map.mp hid
    obtain ⟨hmem, howner⟩ := List.mem_filter.mp hrow
    obtain ⟨token, hstands, -⟩ := h.of_account hmem
    exact ⟨token, (decide_eq_true_eq.mp howner) ▸ hstands.1⟩
  have hoffered (ids : List Nat) (state : Text) :
      offered (ids.map (Event.removed · userId) ++ s.trace) state = offered s.trace state := by
    induction ids with
    | nil => rfl
    | cons id ids ih => exact ih
  have hvault (ids : List Nat) :
      Ledger (vaultEntries env) s.vaultKeys.rows (ids.map (Event.removed · userId) ++ s.trace) s.nextVaultId := by
    induction ids with
    | nil => exact h.vaultKeys
    | cons id ids ih => exact ih.note rfl rfl
  exact
    { justified := h.justified.append (List.forall_mem_map.mpr fun id hid between => by
        obtain ⟨token, hconnected⟩ := hgone id hid
        exact ⟨token, List.mem_append_right _ hconnected⟩)
      vaultKeys := hvault _
      accounts := by
        refine h.accounts.delete ?_ (fun _ => rfl) (fun _ => rfl) fun row => ?_
        · intro id hid
          obtain ⟨row, hrow, rfl⟩ := List.mem_map.mp hid
          exact h.accounts.key_lt (List.mem_of_mem_filter hrow)
        · refine List.mem_filter.trans (and_congr_right fun hrow => ⟨fun hother hid => ?_, fun hid => ?_⟩)
          · obtain ⟨other, hmem, hkey⟩ := List.mem_map.mp hid
            obtain ⟨hold, howner⟩ := List.mem_filter.mp hmem
            obtain rfl := KeyedRows.eq_of_key hold hrow hkey
            exact decide_eq_true_eq.mp hother (decide_eq_true_eq.mp howner)
          · refine decide_eq_true_eq.mpr fun howner => hid ?_
            exact List.mem_map_of_mem (List.mem_filter.mpr ⟨hrow, decide_eq_true_eq.mpr howner⟩)
      nonces := fun nonce hnonce => by
        obtain ⟨begun, hbegun, hexpires⟩ := h.nonces nonce hnonce
        exact ⟨begun, (hoffered _ _).trans hbegun, hexpires⟩
      calls := fun call hcall => (h.calls call hcall).mono (List.subset_append_right _ _) }

theorem invariant_begin (userId nonce : Text) (now : Int) :
    Invariant env ({ s with nonces := s.nonces.put ⟨nonce, userId, now + nonceTtlMs⟩ }.record (.began nonce userId now)) where
  justified := ⟨trivial, h.justified⟩
  vaultKeys := h.vaultKeys.note rfl rfl
  accounts := h.accounts.note rfl rfl
  nonces := by
    intro other hother
    simp only [State.record, offered]
    rcases KeyedRows.mem_put.mp hother with rfl | ⟨hold, hne⟩
    · exact ⟨now, if_pos rfl, rfl⟩
    · rw [if_neg (Ne.symm hne)]
      exact h.nonces other hold
  calls := fun call hcall => (h.calls call hcall).mono (List.subset_cons_self _ _)

theorem invariant_redeem {state userId code : Text} (hpending : Pending s.trace (.redeem state userId code)) :
    Invariant env ({ s with nonces := s.nonces.delete state }.record (.redeemed state userId code)) where
  justified := ⟨hpending, h.justified⟩
  vaultKeys := h.vaultKeys.note rfl rfl
  accounts := h.accounts.note rfl rfl
  nonces := by
    intro nonce hnonce
    obtain ⟨hold, hne⟩ := KeyedRows.mem_delete.mp hnonce
    simp only [State.record, offered]
    rw [if_neg (Ne.symm hne)]
    exact h.nonces nonce hold
  calls := fun call hcall => (h.calls call hcall).mono (List.subset_cons_self _ _)

theorem invariant_completeFluxaConnect {code state : Text} {now : Int}
    (hstep : stepCompleteFluxaConnect s code state now = some t) : Invariant env t := by
  obtain ⟨nonce, hnonce, hnext⟩ := Option.bind_eq_some_iff.mp hstep
  obtain ⟨hmem, rfl⟩ := KeyedRows.get?_eq_some.mp hnonce
  split at hnext
  next => cases hnext
  next hvalid =>
    obtain rfl := Option.some.inj hnext
    obtain ⟨begun, hoffered, hexpires⟩ := h.nonces nonce hmem
    obtain ⟨hlive, -⟩ := not_or.mp hvalid
    have hdue : Due env s.trace (.accepted nonce.state nonce.userId code now) := ⟨begun, hoffered, hexpires ▸ not_le.mp hlive⟩
    have haccepted : Invariant env (s.record (.accepted nonce.state nonce.userId code now)) := h.record trivial hdue
    exact haccepted.start ⟨now, List.mem_cons_self⟩

theorem invariant_exchange {i : Nat} {userId code : Text} {response : TokenResponse}
    (hpending : Pending s.trace (.exchange userId code))
    (hstep : stepResume env s i (.exchange userId code) (.response response) = some t) : Invariant env t := by
  rw [stepResume] at hstep
  split at hstep
  next =>
    obtain rfl := Option.some.inj hstep
    exact h.setCall trivial
  next token htoken =>
    obtain rfl := Option.some.inj hstep
    have hdue : Due env s.trace (.exchanged userId code token response) := ⟨hpending, granted_of_exchange htoken⟩
    have hexchanged : Invariant env (s.record (.exchanged userId code token response)) := h.record trivial hdue
    exact hexchanged.setCall ⟨code, response, List.mem_cons_self⟩

theorem invariant_insert (hcrypto : env.crypto.Opens) {userId token : Text} (iv : Bytes)
    (hpending : Pending s.trace (.insert userId token)) :
    Invariant env { s with
      accounts := s.accounts.put (accountOf env s.nextAccountId userId token iv)
      nextAccountId := s.nextAccountId + 1
      trace := .connected s.nextAccountId userId token :: s.trace } where
  justified := ⟨hpending, h.justified⟩
  vaultKeys := h.vaultKeys.note rfl rfl
  accounts := by
    have hnone : s.accounts.get? s.nextAccountId = none := by
      rw [Option.eq_none_iff_forall_ne_some]
      intro row hrow
      obtain ⟨hmem, hid⟩ := KeyedRows.get?_eq_some.mp hrow
      exact absurd (h.accounts.key_lt hmem) (hid ▸ Nat.lt_irrefl _)
    have hrows : (s.accounts.put (accountOf env s.nextAccountId userId token iv)).rows = s.accounts.rows ++ [_] :=
      KeyedRows.put_of_get?_eq_none hnone
    rw [hrows]
    exact h.accounts.insert rfl rfl rfl
      ⟨rfl, decryptForUser_encryptForUser hcrypto env.encryptionSecret userId token .connectedAccount iv⟩
  nonces := h.nonces
  calls := fun call hcall => (h.calls call hcall).mono (List.subset_cons_self _ _)

theorem invariant_removeVaultKey {id : Nat} {userId : Text} (hpending : Pending s.trace (.removeVaultKey id userId)) :
    Invariant env ({ s with vaultKeys := s.vaultKeys.delete id }.record (.deleted id userId)) where
  justified := ⟨hpending, h.justified⟩
  vaultKeys := by
    obtain ⟨provider, key, createdAt, hcreated⟩ := hpending
    change Ledger _ _ ([id].map (Event.deleted · userId) ++ s.trace) _
    refine h.vaultKeys.delete (List.forall_mem_singleton.mpr (h.vaultKeys.fresh _ hcreated id (.inl rfl)))
      (fun _ => rfl) (fun _ => rfl) fun row => ?_
    rw [List.mem_singleton]
    exact KeyedRows.mem_delete
  accounts := h.accounts.note rfl rfl
  nonces := h.nonces
  calls := fun call hcall => (h.calls call hcall).mono (List.subset_cons_self _ _)

theorem invariant_resume (hcrypto : env.crypto.Opens) {i : Nat} {call : Call} {answer : Answer} (hpending : Pending s.trace call)
    (hstep : stepResume env s i call answer = some t) : Invariant env t := by
  match call, answer, hpending, hstep with
  | .removeVaultKey id userId, .done, hpending, hstep =>
      obtain rfl := Option.some.inj hstep
      exact (invariant_removeVaultKey h hpending).setCall trivial
  | .redeem state userId code, .done, hpending, hstep =>
      obtain rfl := Option.some.inj hstep
      exact (invariant_redeem h hpending).setCall ⟨state, List.mem_cons_self⟩
  | .exchange userId code, .response response, hpending, hstep => exact invariant_exchange h hpending hstep
  | .clear userId token, .done, hpending, hstep =>
      obtain rfl := Option.some.inj hstep
      exact (invariant_deleteAccounts h userId).setCall (hpending.mono (List.subset_append_right _ _))
  | .insert userId token, .vector iv, hpending, hstep =>
      obtain rfl := Option.some.inj hstep
      exact (invariant_insert h hcrypto iv hpending).setCall trivial
  | .readAccounts userId, .found id, hpending, hstep =>
      obtain ⟨next, hnext, rfl⟩ := Option.map_eq_some_iff.mp hstep
      exact (invariant_readAccounts h hpending hnext).setCall trivial

theorem invariant_deleteVaultKey {id : Nat} {userId : Text} (hstep : step env s (.deleteVaultKey id userId) = some t) :
    Invariant env t := by
  obtain ⟨row, hfound, hnext⟩ := Option.bind_eq_some_iff.mp hstep
  obtain ⟨hget, howner⟩ := Option.filter_eq_some_iff.mp hfound
  obtain ⟨hrow, rfl⟩ := KeyedRows.get?_eq_some.mp hget
  obtain ⟨key, hstands, -⟩ := h.of_vaultKey hrow
  obtain rfl := Option.some.inj hnext
  exact h.start ⟨row.provider, key, row.createdAt, decide_eq_true_eq.mp howner ▸ hstands.1⟩

end Steps

theorem invariant_step (hcrypto : env.crypto.Opens) : Preserves (step env) always (Invariant env) := by
  intro s a t h _ hstep
  cases a with
  | createVaultKey userId name provider key iv createdAt =>
      obtain rfl := Option.some.inj hstep
      exact invariant_createVaultKey h hcrypto userId name provider key iv createdAt
  | deleteVaultKey id userId => exact invariant_deleteVaultKey h hstep
  | resolveKey userId provider found => exact invariant_resolveKey h hstep
  | beginFluxaConnect userId nonce now =>
      obtain rfl := Option.some.inj hstep
      exact invariant_begin h userId nonce now
  | completeFluxaConnect code state now => exact invariant_completeFluxaConnect h hstep
  | disconnectProvider userId provider =>
      rw [step] at hstep
      split at hstep
      next =>
        obtain rfl := Option.some.inj hstep
        exact invariant_deleteAccounts h userId
      next => cases hstep
  | evict state =>
      obtain rfl := Option.some.inj hstep
      exact { h with nonces := fun nonce hnonce => h.nonces nonce (KeyedRows.mem_delete.mp hnonce).1 }
  | resume i answer =>
      obtain ⟨call, hcall, hnext⟩ := Option.bind_eq_some_iff.mp hstep
      exact invariant_resume h hcrypto (h.calls call (List.mem_of_getElem? hcall)) hnext
  | abort i =>
      obtain ⟨call, hcall, hnext⟩ := Option.bind_eq_some_iff.mp hstep
      split at hnext
      next => cases hnext
      next =>
        obtain rfl := Option.some.inj hnext
        exact h.setCall trivial

/-- Where a token comes from: its user began a flow, which was completed in time with a code that the token is for. -/
def FlowOf (env : Environment) (trace : List Event) (userId token : Text) : Prop :=
  ∃ state code begun now response, .began state userId begun ∈ trace ∧ .accepted state userId code now ∈ trace ∧
    now < begun + nonceTtlMs ∧ Granted env.oauth code response token

theorem mem_of_offered {state userId : Text} {begun : Int} (h : offered past state = some (userId, begun)) :
    .began state userId begun ∈ past := by
  induction past with
  | nil => cases h
  | cons event past ih =>
      cases event with
      | began nonce owner now =>
          rw [offered] at h
          split at h
          next heq =>
            obtain ⟨⟩ := h
            exact heq ▸ List.mem_cons_self
          next => exact List.mem_cons_of_mem _ (ih h)
      | redeemed nonce owner code =>
          rw [offered] at h
          split at h
          next => cases h
          next => exact List.mem_cons_of_mem _ (ih h)
      | _ => exact List.mem_cons_of_mem _ (ih h)

theorem flow_of_connected {trace : List Event} (h : Justified (Due env) trace) {id : Nat} {userId token : Text}
    (hconnected : .connected id userId token ∈ trace) : FlowOf env trace userId token := by
  obtain ⟨stored, hstored, code, response, hexchanged⟩ := h.due_of_mem hconnected
  obtain ⟨given, hgiven, ⟨state, hredeemed⟩, hgranted⟩ := h.due_of_mem (hstored hexchanged)
  obtain ⟨dropped, hdropped, now, haccepted⟩ := h.due_of_mem (hgiven hredeemed)
  obtain ⟨found, hfound, begun, hoffered, htime⟩ := h.due_of_mem (hdropped haccepted)
  exact ⟨state, code, begun, now, response, hfound (mem_of_offered hoffered), hdropped haccepted, htime, hgranted⟩

/-- Everything that happened to a key was due to its user, and whatever is stored can be read. -/
structure Safe (env : Environment) (s : State) : Prop where
  due : Justified (Due env) s.trace
  vaultKeys : ∀ row ∈ s.vaultKeys.rows, ∃ key, VaultStands s.trace row.id row.userId row.provider key row.createdAt ∧
    openedVaultKey env row = some (wellFormed key)
  accounts : ∀ row ∈ s.accounts.rows, ∃ token, AccountStands s.trace row.id row.userId token ∧
    FlowOf env s.trace row.userId token ∧ openedAccount env row = some (wellFormed token)

theorem Invariant.safe (h : Invariant env s) : Safe env s where
  due := h.justified
  vaultKeys _ hrow := h.of_vaultKey hrow
  accounts row hrow := by
    obtain ⟨token, hstands, hopened⟩ := h.of_account hrow
    exact ⟨token, hstands, flow_of_connected h.justified hstands.1, hopened⟩

theorem keys_safe (hcrypto : env.crypto.Opens) (acts : List Act) : Throughout (step env) (Safe env) {} acts :=
  (invariant_step hcrypto).throughout (fun _ h => h.safe)
    { justified := trivial
      vaultKeys := .nil
      accounts := .nil
      nonces := List.forall_mem_nil _
      calls := List.forall_mem_nil _ }
    (guarded_always (step env) _ acts)

def sampleEnv : Environment := ⟨sampleCrypto, text "e", ⟨some (text "t"), some (text "i"), some (text "s"), true⟩⟩

/-- A flow, completed in time, and a key of another user, who asks for it. -/
def sampleActs : List Act :=
  [.beginFluxaConnect (text "u") (text "n") 0, .createVaultKey (text "v") (text "main") .fluxa (text "key") [1] 5,
    .completeFluxaConnect (text "c") (text "n") 599999, .resume 0 .done, .resume 0 (.response ⟨true, none, some (text "token")⟩),
    .resume 0 .done, .resume 0 (.vector [2]), .resolveKey (text "v") .fluxa 0, .resolveKey (text "u") .fluxa 0,
    .resume 1 (.found 0)]

theorem keys_safe_sample : Throughout (step sampleEnv) (Safe sampleEnv) {} sampleActs :=
  keys_safe sampleCrypto_opens sampleActs

example : (run (step sampleEnv) {} sampleActs).map (fun s => s.accounts.rows.map (openedAccount sampleEnv)) =
    some [some (text "token")] := by decide

end Savitools.Auth.ResolvedKeys
