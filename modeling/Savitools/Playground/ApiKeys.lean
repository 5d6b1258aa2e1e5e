import Savitools.Common.Encryption
import Savitools.Stores.Keyed
import Savitools.Transitions.Runs

namespace Savitools.Playground.ApiKeys

open Strings.CodeUnits Strings.Utf8 Stores.Keyed Transitions.Runs Common.Encryption

inductive ApiKeyProvider
  | fluxa
  | crowdpay
  | custom
deriving DecidableEq

structure ApiKey where
  id : Nat
  userId : Text
  provider : ApiKeyProvider
  label : Text
  encryptedKey : Text
  iv : Text
  authTag : Text
  keyVersion : Nat
  providerOrigin : Option Text
  maskedKey : Option Text
  keyPreview : Option Text
deriving DecidableEq

/-- `crypto` and the two secrets of the configuration. -/
structure Environment where
  crypto : Crypto
  encryptionSecret : Text
  jwtSecret : Text

/-- `first8...last4` of the plaintext. -/
def maskApiKey (plaintext : Text) : Text := plaintext.take 8 ++ text "..." ++ plaintext.drop (plaintext.length - 4)

/-- The method of the service: a text of at most twelve units is left as it is. -/
def serviceMaskApiKey (plaintext : Text) : Text := if plaintext.length ≤ 12 then plaintext else maskApiKey plaintext

/-- The columns that the key is in. -/
def payload (key : ApiKey) : EncryptedPayload := ⟨key.encryptedKey, key.iv, key.authTag⟩

def ApiKey.setPayload (key : ApiKey) (payload : EncryptedPayload) : ApiKey :=
  { key with encryptedKey := payload.encrypted, iv := payload.iv, authTag := payload.authTag, keyVersion := 2 }

def ApiKey.setMask (key : ApiKey) (masked : Text) : ApiKey := { key with maskedKey := some masked }

/-- What was saved under the id of a key, and by whom. -/
structure Saved where
  id : Nat
  userId : Text
  plaintext : Text

/-- What a call has still to write, with the row as it was loaded. -/
inductive Task
  | insert (key : ApiKey) (plaintext : Text)
  | save (loaded key : ApiKey) (plaintext : Option Text)
  | remove (id : Nat)
  | upgrade (key : ApiKey) (plaintext : Text) (upgraded : EncryptedPayload) (lists : Bool)
  | mask (key : ApiKey) (masked : Text)

/-- `used` are the plaintexts that went into a request, `shown` the masks that were listed, and `thrown` the keys that
were not decrypted. `given` is history. -/
structure State where
  rows : KeyedRows ApiKey.id
  tasks : List Task := []
  nextId : Nat
  given : List Saved
  used : List (Nat × Text) := []
  shown : List (Nat × Text) := []
  thrown : List Nat := []

/-- A call starts with what it reads, which for a list is each of the keys, and ends with what it writes. -/
inductive Act
  | saveKey (userId : Text) (provider : ApiKeyProvider) (label apiKey : Text) (iv : Bytes)
  | importProvider (userId name origin apiKey : Text) (iv : Bytes)
  | updateKey (id : Nat) (userId : Text) (label apiKey : Option Text) (iv : Bytes)
  | renameProvider (id : Nat) (userId name : Text)
  | deleteKey (id : Nat) (userId : Text)
  | proxyRequest (id : Nat) (userId : Text) (iv : Bytes)
  | listKeys (id : Nat) (userId : Text) (iv : Bytes)
  | commit (task : Nat) (ok : Bool)

variable (env : Environment)

def encrypt (userId plaintext : Text) (iv : Bytes) : EncryptedPayload :=
  encryptForUser env.crypto env.encryptionSecret userId plaintext .playgroundApiKey iv

/-- `legacyDecrypt`, with `legacyDeriveKey`. -/
def legacyDecrypt (payload : EncryptedPayload) : Option Text :=
  decipher env.crypto (env.crypto.pbkdf2Sync env.jwtSecret (text "savitools-playground-spec-cache")) payload

/-- The first half of `decryptAndUpgrade`, and what is to be written if the row is an old one. -/
def decryptAndUpgrade (userId : Text) (key : ApiKey) (iv : Bytes) : Option (Text × Option EncryptedPayload) :=
  if key.keyVersion = 2 then
    (decryptForUser env.crypto env.encryptionSecret userId (payload key) .playgroundApiKey).map (·, none)
  else
    (legacyDecrypt env (payload key)).map fun plaintext => (plaintext, some (encrypt env userId plaintext iv))

def State.await (s : State) (task : Task) : State := { s with tasks := s.tasks ++ [task] }

def stepProxyRequest (s : State) (userId : Text) (key : ApiKey) (iv : Bytes) : State :=
  match decryptAndUpgrade env userId key iv with
  | none => { s with thrown := s.thrown ++ [key.id] }
  | some (plaintext, none) => { s with used := s.used ++ [(key.id, plaintext)] }
  | some (plaintext, some upgraded) => s.await (.upgrade key plaintext upgraded false)

/-- `maskFor` -/
def stepMaskFor (s : State) (userId : Text) (key : ApiKey) (iv : Bytes) : State :=
  match key.maskedKey with
  | some (u :: masked) => { s with shown := s.shown ++ [(key.id, u :: masked)] }
  | _ =>
      match decryptAndUpgrade env userId key iv with
      | none => { s with thrown := s.thrown ++ [key.id] }
      | some (plaintext, none) => s.await (.mask key (maskApiKey plaintext))
      | some (plaintext, some upgraded) => s.await (.upgrade key plaintext upgraded true)

/-- The row of a user by its id; that of another user is refused. -/
def findOwn (s : State) (id : Nat) (userId : Text) : Option ApiKey :=
  (s.rows.get? id).filter fun key => key.userId = userId

/-- The unique index over the user, the provider and the label. -/
def clashes (s : State) (key : ApiKey) : Bool :=
  s.rows.rows.any fun row => row.id ≠ key.id && row.userId = key.userId && row.provider = key.provider && row.label = key.label

/-- `save` of the repository: an update of the row with all columns of the entity, or else an insertion. -/
def save (s : State) (key : ApiKey) (plaintext : Option Text) : State :=
  if clashes s key then s
  else { s with
    rows := s.rows.put key
    given := s.given ++ (plaintext.map (Saved.mk key.id key.userId)).toList }

def stepCommit (s : State) : Task → State
  | .insert key plaintext => save { s with nextId := s.nextId + 1 } { key with id := s.nextId } (some plaintext)
  | .save _ key plaintext => save s key plaintext
  | .remove id => { s with rows := s.rows.delete id }
  | .upgrade key plaintext upgraded lists =>
      { s with
        rows := s.rows.updateKeys [key.id] (fun row => (row.setPayload upgraded).setMask (maskApiKey plaintext)) fun _ => rfl
        used := if lists then s.used else s.used ++ [(key.id, plaintext)]
        shown := if lists then s.shown ++ [(key.id, maskApiKey plaintext)] else s.shown }
  | .mask key masked =>
      { s with
        rows := s.rows.updateKeys [key.id] (·.setMask masked) fun _ => rfl
        shown := s.shown ++ [(key.id, masked)] }

/-- The entity that `updateKey` saves. -/
def updated (key : ApiKey) (userId : Text) (label apiKey : Option Text) (iv : Bytes) : ApiKey :=
  let key := { key with label := label.getD key.label }
  match apiKey with
  | none => key
  | some apiKey =>
      { key.setPayload (encrypt env userId apiKey iv) with
        maskedKey := some (serviceMaskApiKey apiKey)
        keyPreview := some (serviceMaskApiKey apiKey) }

/-- The entity that `saveKey` and `importProvider` create. -/
def created (userId : Text) (provider : ApiKeyProvider) (label apiKey : Text) (origin : Option Text) (masked : Text)
    (iv : Bytes) : ApiKey :=
  let payload := encrypt env userId apiKey iv
  { id := 0
    userId := userId
    provider := provider
    label := label
    encryptedKey := payload.encrypted
    iv := payload.iv
    authTag := payload.authTag
    keyVersion := 2
    providerOrigin := origin
    maskedKey := some masked
    keyPreview := some (serviceMaskApiKey apiKey) }

def step (s : State) : Act → Option State
  | .saveKey userId provider label apiKey iv =>
      let key := created env userId provider label apiKey none (serviceMaskApiKey apiKey) iv
      if s.rows.rows.any fun row => row.userId = userId && row.provider = provider && row.label = label then none
      else some (s.await (.insert key apiKey))
  | .importProvider userId name origin apiKey iv =>
      some (s.await (.insert (created env userId .custom name apiKey (some origin) (maskApiKey apiKey) iv) apiKey))
  | .updateKey id userId label apiKey iv => do
      let key ← findOwn s id userId
      some (s.await (.save key (updated env key userId label apiKey iv) apiKey))
  | .renameProvider id userId name => do
      let key ← findOwn s id userId
      some (s.await (.save key { key with label := name } none))
  | .deleteKey id userId => do
      let key ← findOwn s id userId
      some (s.await (.remove key.id))
  | .proxyRequest id userId iv => do
      let key ← findOwn s id userId
      some (stepProxyRequest env s userId key iv)
  | .listKeys id userId iv => do
      let key ← findOwn s id userId
      some (stepMaskFor env s userId key iv)
  | .commit i ok => do
      let task ← s.tasks[i]?
      let s := { s with tasks := s.tasks.eraseIdx i }
      some (if ok then stepCommit s task else s)

end Savitools.Playground.ApiKeys
