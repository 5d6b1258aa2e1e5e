import Savitools.Common.Encryption
import Savitools.Stores.Keyed
import Savitools.Transitions.Runs

namespace Savitools.Auth.ProviderKeys

open Strings.CodeUnits Stores.Keyed Transitions.Runs Common.Encryption

inductive VaultKeyProvider
  | fluxa
  | crowdpay
  | custom
deriving DecidableEq

inductive ConnectedProvider
  | fluxa
deriving DecidableEq

def ConnectedProvider.label : ConnectedProvider → Text
  | .fluxa => text "fluxa"

structure VaultKey where
  id : Nat
  userId : Text
  name : Text
  provider : VaultKeyProvider
  encryptedKey : Text
  iv : Text
  authTag : Text
  createdAt : Int
deriving DecidableEq

structure ConnectedAccount where
  id : Nat
  userId : Text
  provider : ConnectedProvider
  encryptedKey : Text
  iv : Text
  authTag : Text
deriving DecidableEq

/-- What Redis holds under the nonce of a flow: its user, until it expires. -/
structure Nonce where
  state : Text
  userId : Text
  expiresAt : Int
deriving DecidableEq

/-- The `EX` of a nonce, in milliseconds. -/
def nonceTtlMs : Int := 600 * 1000

/-- The variables of the configuration that the exchange of a code depends on. -/
structure OauthConfig where
  tokenUrl : Option Text
  clientId : Option Text
  clientSecret : Option Text
  production : Bool

/-- What Fluxa answers: `response.ok`, and the two fields in which a key is looked for. -/
structure TokenResponse where
  ok : Bool
  accessToken : Option Text
  apiKey : Option Text

structure Environment where
  crypto : Crypto
  encryptionSecret : Text
  oauth : OauthConfig

/-- What the service throws, with its message. -/
inductive Exception
  | badRequest (message : Text)
  | serviceUnavailable (message : Text)
deriving DecidableEq

/-- `!value` of a text that may be missing. -/
def isMissing (value : Option Text) : Bool := value.getD [] = []

/-- With no exchange configured, the code stands for the key, but not in production. -/
def exchangeFluxaCode (config : OauthConfig) (code : Text) (response : TokenResponse) : Except Exception Text :=
  if isMissing config.tokenUrl || isMissing config.clientId || isMissing config.clientSecret then
    if config.production then
      .error (.serviceUnavailable (text "Fluxa OAuth token exchange is not configured"))
    else .ok code
  else if !response.ok then .error (.badRequest (text "Failed to exchange Fluxa OAuth code"))
  else
    match response.accessToken.or response.apiKey with
    | some (u :: key) => .ok (u :: key)
    | _ => .error (.badRequest (text "Fluxa token response did not contain an access token"))

/-- Where an answer of `resolveKey` comes from. -/
inductive Origin
  | vault (id : Nat)
  | account (id : Nat)
deriving DecidableEq

/-- What happened, as far as keys are concerned. -/
inductive Event
  | created (id : Nat) (userId : Text) (provider : VaultKeyProvider) (key : Text) (createdAt : Int)
  | deleted (id : Nat) (userId : Text)
  | began (state userId : Text) (now : Int)
  | accepted (state userId code : Text) (now : Int)
  | redeemed (state userId code : Text)
  | exchanged (userId code token : Text) (response : TokenResponse)
  | connected (id : Nat) (userId token : Text)
  | removed (id : Nat) (userId : Text)
  | noVaultKey (userId : Text) (provider : VaultKeyProvider)
  | resolved (userId : Text) (provider : VaultKeyProvider) (origin : Origin) (key : Text)
  | unresolved (userId : Text) (provider : VaultKeyProvider)
  | undecipherable

/-- What a call is to do next. -/
inductive Call
  | removeVaultKey (id : Nat) (userId : Text)
  | redeem (state userId code : Text)
  | exchange (userId code : Text)
  | clear (userId token : Text)
  | insert (userId token : Text)
  | readAccounts (userId : Text)
  | settled
deriving DecidableEq

/-- What an await gives. -/
inductive Answer
  | done
  | response (response : TokenResponse)
  | vector (iv : Bytes)
  | found (id : Nat)

/-- The latest event comes first. -/
structure State where
  vaultKeys : KeyedRows VaultKey.id := ⟨[], List.nodup_nil⟩
  accounts : KeyedRows ConnectedAccount.id := ⟨[], List.nodup_nil⟩
  nonces : KeyedRows Nonce.state := ⟨[], List.nodup_nil⟩
  calls : List Call := []
  nextVaultId : Nat := 0
  nextAccountId : Nat := 0
  trace : List Event := []

/-- A request, or the next step of a call, which may throw instead. Redis may drop a nonce. -/
inductive Act
  | createVaultKey (userId name : Text) (provider : VaultKeyProvider) (key : Text) (iv : Bytes) (createdAt : Int)
  | deleteVaultKey (id : Nat) (userId : Text)
  | resolveKey (userId : Text) (provider : VaultKeyProvider) (found : Nat)
  | beginFluxaConnect (userId nonce : Text) (now : Int)
  | completeFluxaConnect (code state : Text) (now : Int)
  | disconnectProvider (userId provider : Text)
  | evict (state : Text)
  | resume (call : Nat) (answer : Answer)
  | abort (call : Nat)

variable (env : Environment)

def State.record (s : State) (event : Event) : State := { s with trace := event :: s.trace }

def State.start (s : State) (call : Call) : State := { s with calls := s.calls ++ [call] }

def State.setCall (s : State) (i : Nat) (call : Call) : State := { s with calls := s.calls.set i call }

def vaultKeyOf (id : Nat) (userId name : Text) (provider : VaultKeyProvider) (key : Text) (iv : Bytes) (createdAt : Int) :
    VaultKey :=
  let payload := encryptForUser env.crypto env.encryptionSecret userId key .vaultKey iv
  { id := id
    userId := userId
    name := name
    provider := provider
    encryptedKey := payload.encrypted
    iv := payload.iv
    authTag := payload.authTag
    createdAt := createdAt }

def accountOf (id : Nat) (userId token : Text) (iv : Bytes) : ConnectedAccount :=
  let payload := encryptForUser env.crypto env.encryptionSecret userId token .connectedAccount iv
  { id := id
    userId := userId
    provider := .fluxa
    encryptedKey := payload.encrypted
    iv := payload.iv
    authTag := payload.authTag }

/-- `decryptForUser` of a row, whose text is answered. -/
def respond (s : State) (userId : Text) (provider : VaultKeyProvider) (origin : Origin) : Option Text → State
  | none => s.record .undecipherable
  | some key => s.record (.resolved userId provider origin key)

/-- `delete` of the repository, for the accounts of a user. -/
def deleteAccounts (s : State) (userId : Text) : State :=
  let gone := s.accounts.rows.filter fun row => row.userId = userId
  { s with
    accounts := ⟨s.accounts.rows.filter fun row => row.userId ≠ userId, s.accounts.nodup_of_sublist List.filter_sublist⟩
    trace := (gone.map (·.id)).map (Event.removed · userId) ++ s.trace }

def stepCreateVaultKey (s : State) (userId name : Text) (provider : VaultKeyProvider) (key : Text) (iv : Bytes)
    (createdAt : Int) : State :=
  { s with
    vaultKeys := s.vaultKeys.put (vaultKeyOf env s.nextVaultId userId name provider key iv createdAt)
    nextVaultId := s.nextVaultId + 1
    trace := .created s.nextVaultId userId provider key createdAt :: s.trace }

/-- The first query of `resolveKey`, which answers with any of the newest keys. -/
def stepResolveKey (s : State) (userId : Text) (provider : VaultKeyProvider) (found : Nat) : Option State :=
  match s.vaultKeys.rows.filter fun row => row.userId = userId && row.provider = provider with
  | [] =>
      let s := s.record (.noVaultKey userId provider)
      some (if provider = .fluxa then s.start (.readAccounts userId) else s.record (.unresolved userId provider))
  | row :: rows => do
      let vaultKey ← (row :: rows).find? (·.id = found)
      if (row :: rows).all (·.createdAt ≤ vaultKey.createdAt) then
        some (respond s userId provider (.vault vaultKey.id)
          (decryptForUser env.crypto env.encryptionSecret userId ⟨vaultKey.encryptedKey, vaultKey.iv, vaultKey.authTag⟩ .vaultKey))
      else none

/-- The second query, for any connected account. -/
def stepReadAccounts (s : State) (userId : Text) (found : Nat) : Option State :=
  match s.accounts.rows.filter fun row => row.userId = userId && row.provider = .fluxa with
  | [] => some (s.record (.unresolved userId .fluxa))
  | row :: rows => do
      let connected ← (row :: rows).find? (·.id = found)
      some (respond s userId .fluxa (.account connected.id)
        (decryptForUser env.crypto env.encryptionSecret userId ⟨connected.encryptedKey, connected.iv, connected.authTag⟩
          .connectedAccount))

/-- `get` of a nonce, which is refused once it has expired. -/
def stepCompleteFluxaConnect (s : State) (code state : Text) (now : Int) : Option State := do
  let nonce ← s.nonces.get? state
  if nonce.expiresAt ≤ now ∨ nonce.userId = [] then none
  else some ((s.record (.accepted state nonce.userId code now)).start (.redeem state nonce.userId code))

def stepResume (s : State) (i : Nat) : Call → Answer → Option State
  | .removeVaultKey id userId, .done =>
      some (({ s with vaultKeys := s.vaultKeys.delete id }.record (.deleted id userId)).setCall i .settled)
  | .redeem state userId code, .done =>
      some (({ s with nonces := s.nonces.delete state }.record (.redeemed state userId code)).setCall i (.exchange userId code))
  | .exchange userId code, .response response =>
      match exchangeFluxaCode env.oauth code response with
      | .error _ => some (s.setCall i .settled)
      | .ok token => some ((s.record (.exchanged userId code token response)).setCall i (.clear userId token))
  | .clear userId token, .done => some ((deleteAccounts s userId).setCall i (.insert userId token))
  | .insert userId token, .vector iv =>
      some ({ s with
        accounts := s.accounts.put (accountOf env s.nextAccountId userId token iv)
        nextAccountId := s.nextAccountId + 1
        trace := .connected s.nextAccountId userId token :: s.trace }.setCall i .settled)
  | .readAccounts userId, .found id => (stepReadAccounts env s userId id).map (·.setCall i .settled)
  | _, _ => none

def step (s : State) : Act → Option State
  | .createVaultKey userId name provider key iv createdAt => some (stepCreateVaultKey env s userId name provider key iv createdAt)
  | .deleteVaultKey id userId => do
      let key ← (s.vaultKeys.get? id).filter fun key => key.userId = userId
      some (s.start (.removeVaultKey key.id userId))
  | .resolveKey userId provider found => stepResolveKey env s userId provider found
  | .beginFluxaConnect userId nonce now =>
      some ({ s with nonces := s.nonces.put ⟨nonce, userId, now + nonceTtlMs⟩ }.record (.began nonce userId now))
  | .completeFluxaConnect code state now => stepCompleteFluxaConnect s code state now
  | .disconnectProvider userId provider =>
      if provider = ConnectedProvider.fluxa.label ∧ (s.accounts.rows.any fun row => row.userId = userId) then
        some (deleteAccounts s userId)
      else none
  | .evict state => some { s with nonces := s.nonces.delete state }
  | .resume i answer => do
      let call ← s.calls[i]?
      stepResume env s i call answer
  | .abort i => do
      let call ← s.calls[i]?
      if call = .settled then none else some (s.setCall i .settled)

end Savitools.Auth.ProviderKeys
