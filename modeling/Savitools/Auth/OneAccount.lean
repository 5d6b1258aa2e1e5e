import Savitools.Auth.ResolvedKeys

namespace Savitools.Auth.OneAccount

open Strings.CodeUnits Stores.Keyed Stores.Table Transitions.Runs Common.Encryption ProviderKeys

variable {env : Environment} {s t : State}

/-- For whom a call completes a flow. -/
def connecting : Call → Option Text
  | .redeem _ userId _ | .exchange userId _ | .clear userId _ | .insert userId _ => some userId
  | _ => none

/-- A flow is completed only while its user has no other one under way. -/
def Serial (s : State) : Act → Prop
  | .completeFluxaConnect _ state _ =>
      ∀ nonce ∈ s.nonces.rows, nonce.state = state → ∀ call ∈ s.calls, connecting call ≠ some nonce.userId
  | _ => True

instance (s : State) (act : Act) : Decidable (Serial s act) := by
  cases act <;> unfold Serial <;> infer_instance

def begins (state : Text) : Event → Bool
  | .began other _ _ => other = state
  | _ => false

def redeems (state : Text) : Event → Bool
  | .redeemed other _ _ => other = state
  | _ => false

def redeeming (state : Text) : Call → Bool
  | .redeem other _ _ => other = state
  | _ => false

def redeemingFor (state userId : Text) : Call → Bool
  | .redeem other owner _ => other = state && owner = userId
  | _ => false

/-- One, if a nonce may still be accepted. -/
def owed (s : State) (state : Text) : Nat :=
  match s.nonces.get? state with
  | none => 0
  | some nonce => if s.calls.countP (redeemingFor state nonce.userId) = 0 then 1 else 0

/-- What was redeemed of a nonce, is being redeemed and may be accepted is no more than was begun. -/
structure Invariant (s : State) : Prop where
  single : ∀ userId, s.calls.countP (connecting · = some userId) ≤ 1
  cleared : ∀ userId token, .insert userId token ∈ s.calls → ∀ row ∈ s.accounts.rows, row.userId ≠ userId
  owners : (s.accounts.rows.map (·.userId)).Nodup
  fresh : ∀ row ∈ s.accounts.rows, row.id < s.nextAccountId
  balance : ∀ state, s.trace.countP (redeems state) + s.calls.countP (redeeming state) + owed s state ≤ s.trace.countP (begins state)

/-- Accounts and nonces are left alone by an event of another kind. -/
theorem Invariant.record (h : Invariant s) {event : Event} (hbegins : ∀ state, begins state event = false)
    (hredeems : ∀ state, redeems state event = false) : Invariant (s.record event) :=
  { h with
    balance := fun state => by
      have hbalance := h.balance state
      simp only [State.record, List.countP_cons, hbegins, hredeems, Bool.false_eq_true, if_false, Nat.add_zero]
      exact hbalance }

theorem redeeming_eq_false {call : Call} (h : connecting call = none) (state : Text) : redeeming state call = false := by
  cases call with
  | redeem _ _ _ => cases h
  | _ => rfl

theorem redeemingFor_le {call : Call} {state userId : Text} (h : redeeming state call = false) :
    redeemingFor state userId call = false := by
  cases call with
  | redeem other owner code => rw [redeemingFor, show decide (other = state) = false from h, Bool.false_and]
  | _ => rfl

theorem Invariant.start (h : Invariant s) {call : Call} (hcall : connecting call = none) : Invariant (s.start call) where
  single userId := by
    rw [State.start, List.countP_append, List.countP_singleton, hcall]
    simpa using h.single userId
  cleared userId token hmem := by
    rcases List.mem_append.mp hmem with hold | hnew
    · exact h.cleared userId token hold
    · obtain rfl := List.mem_singleton.mp hnew
      cases hcall
  owners := h.owners
  fresh := h.fresh
  balance state := by
    have hbalance := h.balance state
    have hredeeming := redeeming_eq_false hcall state
    have howed : owed (s.start call) state = owed s state := by
      simp only [owed, State.start, List.countP_append, List.countP_singleton, redeemingFor_le hredeeming, Bool.false_eq_true,
        if_false, Nat.add_zero]
    rw [howed, State.start, List.countP_append, List.countP_singleton, hredeeming]
    simpa using hbalance

/-- A call goes on, for the same user or for none. -/
theorem Invariant.setCall (h : Invariant s) {i : Nat} {old call : Call} (hold : s.calls[i]? = some old)
    (hcall : connecting call = none ∨ connecting call = connecting old) (hredeeming : ∀ state, redeeming state call = false)
    (hinsert : ∀ userId token, call = .insert userId token → ∀ row ∈ s.accounts.rows, row.userId ≠ userId) :
    Invariant (s.setCall i call) where
  single userId := by
    have hcount := @countP_set_add _ (connecting · = some userId) _ _ _ call hold
    have hsingle := h.single userId
    change (s.calls.set i call).countP _ ≤ 1
    rcases hcall with hnone | hsame
    · rw [hnone] at hcount
      simp only [reduceCtorEq, decide_false, Bool.false_eq_true, if_false] at hcount
      omega
    · rw [hsame] at hcount
      omega
  cleared userId token hmem := by
    rcases List.mem_or_eq_of_mem_set hmem with hother | hnew
    · exact h.cleared userId token hother
    · exact hinsert userId token hnew.symm
  owners := h.owners
  fresh := h.fresh
  balance state := by
    have hbalance := h.balance state
    have hcount := @countP_set_add _ (redeeming state) _ _ _ call hold
    rw [hredeeming state] at hcount
    have howed : (s.calls.set i call).countP (redeeming state) + owed (s.setCall i call) state ≤
        s.calls.countP (redeeming state) + owed s state := by
      rw [owed, owed, State.setCall]
      cases s.nonces.get? state with
      | none => simp at hcount ⊢; omega
      | some nonce =>
          have hfor := @countP_set_add _ (redeemingFor state nonce.userId) _ _ _ call hold
          rw [redeemingFor_le (hredeeming state)] at hfor
          cases hwas : redeeming state old with
          | false =>
              rw [hwas] at hcount
              rw [redeemingFor_le hwas] at hfor
              simp only [Bool.false_eq_true, if_false, Nat.add_zero] at hcount hfor
              simp only [hcount, hfor, le_refl]
          | true =>
              rw [hwas] at hcount
              simp only [if_true, Bool.false_eq_true, if_false] at hcount
              dsimp only
              split <;> split <;> omega
    rw [State.setCall] at howed ⊢
    dsimp only at howed ⊢
    omega

theorem Invariant.deleteAccounts (h : Invariant s) (userId : Text) : Invariant (deleteAccounts s userId) := by
  have hcount (p : Event → Bool) (hp : ∀ id, p (.removed id userId) = false) (ids : List Nat) :
      (ids.map (Event.removed · userId) ++ s.trace).countP p = s.trace.countP p := by
    have hnone : (ids.map (Event.removed · userId)).countP p = 0 := by
      refine List.countP_eq_zero.mpr (List.forall_mem_map.mpr fun id _ => ?_)
      rw [hp]
      exact Bool.false_ne_true
    rw [List.countP_append, hnone, Nat.zero_add]
  exact
    { single := h.single
      cleared := fun other token hmem row hrow => h.cleared other token hmem row (List.mem_of_mem_filter hrow)
      owners := h.owners.sublist (List.filter_sublist.map _)
      fresh := fun row hrow => h.fresh row (List.mem_of_mem_filter hrow)
      balance := fun state => by
        have hbalance := h.balance state
        simp only [ProviderKeys.deleteAccounts]
        rw [hcount _ (fun _ => rfl), hcount _ (fun _ => rfl)]
        exact hbalance }

theorem Invariant.evict (h : Invariant s) (state : Text) : Invariant { s with nonces := s.nonces.delete state } :=
  { h with
    balance := fun other => by
      have hbalance := h.balance other
      have hle : owed { s with nonces := s.nonces.delete state } other ≤ owed s other := by
        rw [owed, owed]
        dsimp only
        by_cases heq : other = state
        · rw [heq, KeyedRows.get?_delete_self]
          exact Nat.zero_le _
        · rw [KeyedRows.get?_delete_of_ne _ heq]
      dsimp only
      omega }

theorem invariant_begin (h : Invariant s) (userId nonce : Text) (now : Int) :
    Invariant ({ s with nonces := s.nonces.put ⟨nonce, userId, now + nonceTtlMs⟩ }.record (.began nonce userId now)) :=
  { h with
    balance := fun state => by
      have hbalance := h.balance state
      simp only [State.record, List.countP_cons, begins, redeems, Bool.false_eq_true, if_false, Nat.add_zero, decide_eq_true_eq]
      by_cases heq : nonce = state
      · have howed (s : State) : owed s state ≤ 1 := by
          rw [owed]
          split
          · exact Nat.zero_le _
          · split <;> omega
        have hone := howed { s with nonces := s.nonces.put ⟨nonce, userId, now + nonceTtlMs⟩ }
        simp only [if_pos heq]
        have hsame : owed { s with nonces := s.nonces.put ⟨nonce, userId, now + nonceTtlMs⟩
                                   trace := .began nonce userId now :: s.trace } state =
            owed { s with nonces := s.nonces.put ⟨nonce, userId, now + nonceTtlMs⟩ } state := rfl
        omega
      · have hsame : owed { s with nonces := s.nonces.put ⟨nonce, userId, now + nonceTtlMs⟩
                                   trace := .began nonce userId now :: s.trace } state = owed s state := by
          simp only [owed]
          rw [KeyedRows.get?_put_of_ne _ (Ne.symm heq)]
        rw [hsame, if_neg heq, Nat.add_zero]
        exact hbalance }

/-- A nonce is accepted while no call of its user redeems it. -/
theorem Invariant.startRedeem (h : Invariant s) {nonce : Nonce} (hnonce : s.nonces.get? nonce.state = some nonce)
    (hidle : ∀ call ∈ s.calls, connecting call ≠ some nonce.userId) (code : Text) :
    Invariant (s.start (.redeem nonce.state nonce.userId code)) where
  single userId := by
    have hsingle := h.single userId
    rw [State.start, List.countP_append, List.countP_singleton]
    by_cases heq : nonce.userId = userId
    · have hnone : s.calls.countP (connecting · = some userId) = 0 :=
        List.countP_eq_zero.mpr fun call hcall => by simpa [heq] using hidle call hcall
      rw [hnone]
      split <;> omega
    · rw [if_neg (by simpa [connecting] using heq), Nat.add_zero]
      exact hsingle
  cleared userId token hinsert := by
    rcases List.mem_append.mp hinsert with hold | hnew
    · exact h.cleared userId token hold
    · cases List.mem_singleton.mp hnew
  owners := h.owners
  fresh := h.fresh
  balance state := by
    have hbalance := h.balance state
    rw [State.start, List.countP_append, List.countP_singleton]
    by_cases heq : nonce.state = state
    · subst heq
      have hfor : s.calls.countP (redeemingFor nonce.state nonce.userId) = 0 := by
        refine List.countP_eq_zero.mpr fun call hcall hfor => hidle call hcall ?_
        cases call with
        | redeem other owner _ =>
            rw [redeemingFor, Bool.and_eq_true, decide_eq_true_eq, decide_eq_true_eq] at hfor
            rw [connecting, hfor.2]
        | _ => cases hfor
      have hbefore : owed s nonce.state = 1 := by simp only [owed, hnonce, hfor, if_true]
      have hafter : owed (s.start (.redeem nonce.state nonce.userId code)) nonce.state = 0 := by
        simp [owed, State.start, hnonce, redeemingFor]
      rw [State.start] at hafter
      rw [if_pos (by simp [redeeming])]
      dsimp only at hafter ⊢
      omega
    · have hredeeming : redeeming state (.redeem nonce.state nonce.userId code) = false := by simpa [redeeming] using heq
      have hsame : owed (s.start (.redeem nonce.state nonce.userId code)) state = owed s state := by
        simp only [owed, State.start, List.countP_append, List.countP_singleton, redeemingFor_le hredeeming, Bool.false_eq_true,
          if_false, Nat.add_zero]
      rw [State.start] at hsame
      rw [hredeeming, hsame, if_neg Bool.false_ne_true, Nat.add_zero]
      exact hbalance

theorem invariant_completeFluxaConnect (h : Invariant s) {code state : Text} {now : Int}
    (hserial : Serial s (.completeFluxaConnect code state now))
    (hstep : stepCompleteFluxaConnect s code state now = some t) : Invariant t := by
  obtain ⟨nonce, hnonce, hnext⟩ := Option.bind_eq_some_iff.mp hstep
  obtain ⟨hmem, rfl⟩ := KeyedRows.get?_eq_some.mp hnonce
  split at hnext
  next => cases hnext
  next =>
    obtain rfl := Option.some.inj hnext
    have haccepted : Invariant (s.record (.accepted nonce.state nonce.userId code now)) := h.record (fun _ => rfl) fun _ => rfl
    exact haccepted.startRedeem hnonce (hserial nonce hmem rfl) code

/-- The nonce is dropped before the code goes to Fluxa. -/
theorem invariant_redeem (h : Invariant s) {i : Nat} {state userId code : Text}
    (hcall : s.calls[i]? = some (.redeem state userId code)) :
    Invariant (({ s with nonces := s.nonces.delete state }.record (.redeemed state userId code)).setCall i (.exchange userId code)) := by
  have hnext : Invariant (s.setCall i (.exchange userId code)) := h.setCall hcall (.inr rfl) (fun _ => rfl) (by rintro _ _ ⟨⟩)
  refine { hnext with balance := fun other => ?_ }
  have hbalance := h.balance other
  have hcount := @countP_set_add _ (redeeming other) _ _ _ (.exchange userId code) hcall
  simp only [State.setCall, State.record, List.countP_cons, redeems, begins, decide_eq_true_eq, Bool.false_eq_true, if_false,
    Nat.add_zero]
  by_cases heq : state = other
  · subst heq
    have hnone : owed { s with nonces := s.nonces.delete state
                               calls := s.calls.set i (.exchange userId code)
                               trace := .redeemed state userId code :: s.trace } state = 0 := by
      simp only [owed, KeyedRows.get?_delete_self]
    rw [hnone]
    simp only [redeeming, decide_true, if_true, Bool.false_eq_true, if_false, Nat.add_zero] at hcount ⊢
    omega
  · have hfor (owner : Text) := @countP_set_add _ (redeemingFor other owner) _ _ _ (.exchange userId code) hcall
    simp only [redeeming, redeemingFor, heq, decide_false, Bool.false_and, Bool.false_eq_true, if_false,
      Nat.add_zero] at hcount hfor
    have hsame : owed { s with nonces := s.nonces.delete state
                               calls := s.calls.set i (.exchange userId code)
                               trace := .redeemed state userId code :: s.trace } other = owed s other := by
      simp only [owed, hfor]
      rw [KeyedRows.get?_delete_of_ne _ (Ne.symm heq)]
    rw [hsame, if_neg heq, Nat.add_zero, hcount]
    exact hbalance

theorem invariant_insert (h : Invariant s) {i : Nat} {userId token : Text} (iv : Bytes)
    (hcall : s.calls[i]? = some (.insert userId token)) :
    Invariant ({ s with
      accounts := s.accounts.put (accountOf env s.nextAccountId userId token iv)
      nextAccountId := s.nextAccountId + 1
      trace := .connected s.nextAccountId userId token :: s.trace }.setCall i .settled) := by
  have hnext : Invariant (s.setCall i .settled) := h.setCall hcall (.inl rfl) (fun _ => rfl) (by rintro _ _ ⟨⟩)
  have hfresh : s.accounts.get? s.nextAccountId = none := by
    rw [Option.eq_none_iff_forall_ne_some]
    intro row hrow
    obtain ⟨hmem, hid⟩ := KeyedRows.get?_eq_some.mp hrow
    exact absurd (h.fresh row hmem) (hid ▸ Nat.lt_irrefl _)
  have hrows : (s.accounts.put (accountOf env s.nextAccountId userId token iv)).rows =
      s.accounts.rows ++ [accountOf env s.nextAccountId userId token iv] := KeyedRows.put_of_get?_eq_none hfresh
  have hnone := h.cleared userId token (List.mem_of_getElem? hcall)
  refine { hnext with
    cleared := fun other token' hmem row hrow => ?_, owners := ?_, fresh := fun row hrow => ?_, balance := fun state => ?_ }
  · rw [State.setCall] at hrow
    dsimp only at hrow
    rw [hrows] at hrow
    rcases List.mem_append.mp hrow with hold | hnew
    · exact hnext.cleared other token' hmem row hold
    · -- The call of the row was the only one of its user.
      rw [List.mem_singleton.mp hnew]
      rintro rfl
      have hcount := @countP_set_add _ (connecting · = some userId) _ _ _ .settled hcall
      have hsingle := h.single userId
      have hpos : 0 < (s.calls.set i .settled).countP (connecting · = some userId) :=
        List.countP_pos_iff.mpr ⟨_, hmem, by simp [connecting, accountOf]⟩
      simp only [connecting, decide_true, if_true, reduceCtorEq, decide_false, Bool.false_eq_true, if_false] at hcount hsingle hpos
      omega
  · change ((s.accounts.put (accountOf env s.nextAccountId userId token iv)).rows.map (·.userId)).Nodup
    rw [hrows, List.map_append, List.nodup_append]
    refine ⟨h.owners, List.nodup_singleton _, ?_⟩
    rintro owner howner _ hnew rfl
    obtain ⟨row, hrow, hrowOwner⟩ := List.mem_map.mp howner
    exact hnone row hrow (hrowOwner.trans (List.mem_singleton.mp hnew))
  · change row ∈ (s.accounts.put (accountOf env s.nextAccountId userId token iv)).rows at hrow
    rw [hrows] at hrow
    rcases List.mem_append.mp hrow with hold | hnew
    · exact Nat.lt_succ_of_lt (h.fresh row hold)
    · rw [List.mem_singleton.mp hnew]
      exact Nat.lt_succ_self _
  · have hbalance := hnext.balance state
    simp only [State.setCall, List.countP_cons, redeems, begins, Bool.false_eq_true, if_false, Nat.add_zero]
    exact hbalance

theorem Invariant.respond (h : Invariant s) (userId : Text) (provider : VaultKeyProvider) (origin : Origin) (key : Option Text) :
    Invariant (respond s userId provider origin key) := by
  cases key with
  | none => exact h.record (fun _ => rfl) fun _ => rfl
  | some key => exact h.record (fun _ => rfl) fun _ => rfl

theorem invariant_resolveKey (h : Invariant s) {userId : Text} {provider : VaultKeyProvider} {found : Nat}
    (hstep : stepResolveKey env s userId provider found = some t) : Invariant t := by
  rw [stepResolveKey] at hstep
  split at hstep
  next =>
    have hnext : Invariant (s.record (.noVaultKey userId provider)) := h.record (fun _ => rfl) fun _ => rfl
    obtain rfl := Option.some.inj hstep
    split
    next => exact hnext.start rfl
    next => exact hnext.record (fun _ => rfl) fun _ => rfl
  next =>
    obtain ⟨row, -, hnext⟩ := Option.bind_eq_some_iff.mp hstep
    split at hnext
    next =>
      obtain rfl := Option.some.inj hnext
      exact h.respond _ _ _ _
    next => cases hnext

theorem invariant_readAccounts (h : Invariant s) {userId : Text} {found : Nat}
    (hstep : stepReadAccounts env s userId found = some t) : Invariant t := by
  rw [stepReadAccounts] at hstep
  split at hstep
  next =>
    obtain rfl := Option.some.inj hstep
    exact h.record (fun _ => rfl) fun _ => rfl
  next =>
    obtain ⟨row, -, hnext⟩ := Option.bind_eq_some_iff.mp hstep
    obtain rfl := Option.some.inj hnext
    exact h.respond _ _ _ _

theorem stepReadAccounts_calls {userId : Text} {found : Nat} (hstep : stepReadAccounts env s userId found = some t) :
    t.calls = s.calls := by
  rw [stepReadAccounts] at hstep
  split at hstep
  next =>
    obtain rfl := Option.some.inj hstep
    rfl
  next =>
    obtain ⟨row, -, hnext⟩ := Option.bind_eq_some_iff.mp hstep
    obtain rfl := Option.some.inj hnext
    rw [respond.eq_def]
    split <;> rfl

theorem invariant_resume (h : Invariant s) {i : Nat} {call : Call} {answer : Answer} (hcall : s.calls[i]? = some call)
    (hstep : stepResume env s i call answer = some t) : Invariant t := by
  match call, answer, hcall, hstep with
  | .removeVaultKey id userId, .done, hcall, hstep =>
      obtain rfl := Option.some.inj hstep
      have hnext : Invariant (s.record (.deleted id userId)) := h.record (fun _ => rfl) fun _ => rfl
      have hset : Invariant ((s.record (.deleted id userId)).setCall i .settled) :=
        hnext.setCall hcall (.inl rfl) (fun _ => rfl) (by rintro _ _ ⟨⟩)
      exact ⟨hset.single, hset.cleared, hset.owners, hset.fresh, hset.balance⟩
  | .redeem state userId code, .done, hcall, hstep =>
      obtain rfl := Option.some.inj hstep
      exact invariant_redeem h hcall
  | .exchange userId code, .response response, hcall, hstep =>
      rw [stepResume] at hstep
      split at hstep
      next =>
        obtain rfl := Option.some.inj hstep
        exact h.setCall hcall (.inl rfl) (fun _ => rfl) (by rintro _ _ ⟨⟩)
      next token _ =>
        obtain rfl := Option.some.inj hstep
        have hnext : Invariant (s.record (.exchanged userId code token response)) := h.record (fun _ => rfl) fun _ => rfl
        exact hnext.setCall hcall (.inr rfl) (fun _ => rfl) (by rintro _ _ ⟨⟩)
  | .clear userId token, .done, hcall, hstep =>
      obtain rfl := Option.some.inj hstep
      refine (h.deleteAccounts userId).setCall hcall (.inr rfl) (fun _ => rfl) ?_
      rintro _ _ ⟨⟩ row hrow
      exact decide_eq_true_eq.mp (List.mem_filter.mp hrow).2
  | .insert userId token, .vector iv, hcall, hstep =>
      obtain rfl := Option.some.inj hstep
      exact invariant_insert h iv hcall
  | .readAccounts userId, .found id, hcall, hstep =>
      obtain ⟨next, hnext, rfl⟩ := Option.map_eq_some_iff.mp hstep
      have hcalls := stepReadAccounts_calls hnext
      exact (invariant_readAccounts h hnext).setCall (hcalls ▸ hcall) (.inl rfl) (fun _ => rfl) (by rintro _ _ ⟨⟩)

theorem invariant_step (env : Environment) : Preserves (step env) Serial Invariant := by
  intro s a t h hserial hstep
  cases a with
  | createVaultKey userId name provider key iv createdAt =>
      obtain rfl := Option.some.inj hstep
      have hnext : Invariant (s.record (.created s.nextVaultId userId provider key createdAt)) := h.record (fun _ => rfl) fun _ => rfl
      exact ⟨hnext.single, hnext.cleared, hnext.owners, hnext.fresh, hnext.balance⟩
  | deleteVaultKey id userId =>
      obtain ⟨row, -, hnext⟩ := Option.bind_eq_some_iff.mp hstep
      obtain rfl := Option.some.inj hnext
      exact h.start rfl
  | resolveKey userId provider found => exact invariant_resolveKey h hstep
  | beginFluxaConnect userId nonce now =>
      obtain rfl := Option.some.inj hstep
      exact invariant_begin h userId nonce now
  | completeFluxaConnect code state now => exact invariant_completeFluxaConnect h hserial hstep
  | disconnectProvider userId provider =>
      rw [step] at hstep
      split at hstep
      next =>
        obtain rfl := Option.some.inj hstep
        exact h.deleteAccounts userId
      next => cases hstep
  | evict state =>
      obtain rfl := Option.some.inj hstep
      exact h.evict state
  | resume i answer =>
      obtain ⟨call, hcall, hnext⟩ := Option.bind_eq_some_iff.mp hstep
      exact invariant_resume h hcall hnext
  | abort i =>
      obtain ⟨call, hcall, hnext⟩ := Option.bind_eq_some_iff.mp hstep
      split at hnext
      next => cases hnext
      next =>
        obtain rfl := Option.some.inj hnext
        exact h.setCall hcall (.inl rfl) (fun _ => rfl) (by rintro _ _ ⟨⟩)

/-- As long as no user completes two flows at once, every flow is completed at most once, and a user has at most one
account. -/
theorem one_account (env : Environment) {acts : List Act} (hacts : Guarded (step env) Serial {} acts) :
    Throughout (step env) (fun s => (s.accounts.rows.map (·.userId)).Nodup ∧
      ∀ state, s.trace.countP (redeems state) ≤ s.trace.countP (begins state)) {} acts :=
  (invariant_step env).throughout
    (fun _ h => ⟨h.owners, fun state => (Nat.le_add_right _ _).trans ((Nat.le_add_right _ _).trans (h.balance state))⟩)
    { single := fun _ => Nat.zero_le _
      cleared := fun _ _ hmem => absurd hmem List.not_mem_nil
      owners := List.nodup_nil
      fresh := List.forall_mem_nil _
      balance := fun _ => Nat.le_refl _ }
    hacts

/-- A flow of one user while another completes two, one after the other. -/
def inTurn : List Act :=
  [.beginFluxaConnect (text "u") (text "n") 0, .beginFluxaConnect (text "v") (text "m") 0,
    .completeFluxaConnect (text "c") (text "n") 1, .completeFluxaConnect (text "d") (text "m") 1, .resume 0 .done,
    .resume 0 (.response ⟨true, some (text "token"), none⟩), .resume 0 .done, .resume 0 (.vector [1]),
    .beginFluxaConnect (text "u") (text "o") 2, .completeFluxaConnect (text "e") (text "o") 3, .resume 2 .done]

theorem one_account_inTurn : Throughout (step ResolvedKeys.sampleEnv) (fun s => (s.accounts.rows.map (·.userId)).Nodup ∧
    ∀ state, s.trace.countP (redeems state) ≤ s.trace.countP (begins state)) {} inTurn :=
  one_account ResolvedKeys.sampleEnv (by decide)

/-- A nonce that is read twice before it is dropped. -/
def overlapping : List Act :=
  [.beginFluxaConnect (text "u") (text "n") 0, .completeFluxaConnect (text "c") (text "n") 1,
    .completeFluxaConnect (text "d") (text "n") 1, .resume 0 .done, .resume 1 .done,
    .resume 0 (.response ⟨true, some (text "a"), none⟩), .resume 1 (.response ⟨true, some (text "b"), none⟩),
    .resume 0 .done, .resume 1 .done, .resume 0 (.vector [1]), .resume 1 (.vector [2])]

/-- Two flows that overlap leave two accounts. -/
example : (run (step ResolvedKeys.sampleEnv) {} overlapping).map (fun s => s.accounts.rows.map (·.userId)) =
    some [text "u", text "u"] := by decide

end Savitools.Auth.OneAccount
