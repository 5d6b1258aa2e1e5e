import Savitools.Strings.HexBytes
import Savitools.Strings.Utf8

namespace Savitools.Common.Encryption

open Strings.CodeUnits Strings.Utf8 Strings.HexBytes

abbrev Bytes := List (BitVec 8)

/-- What the service calls of `crypto`. The decipher is `none` where `final` throws. -/
structure Crypto where
  hkdfSync : Text → Text → Text → Bytes
  pbkdf2Sync : Text → Text → Bytes
  createCipheriv : Bytes → Bytes → Bytes → Bytes × Bytes
  createDecipheriv : Bytes → Bytes → Bytes → Bytes → Option Bytes

/-- What was enciphered is deciphered by its key, its vector and its tag. -/
def Crypto.Opens (crypto : Crypto) : Prop :=
  ∀ key iv plain, crypto.createDecipheriv key iv (crypto.createCipheriv key iv plain).2 (crypto.createCipheriv key iv plain).1 = some plain

structure EncryptedPayload where
  encrypted : Text
  iv : Text
  authTag : Text
deriving DecidableEq

inductive EncryptionPurpose
  | vaultKey
  | connectedAccount
  | playgroundApiKey
  | monitorWebhookSecret

def EncryptionPurpose.label : EncryptionPurpose → Text
  | .vaultKey => text "savitools-vault-key-v1"
  | .connectedAccount => text "savitools-connected-account-v1"
  | .playgroundApiKey => text "savitools-playground-api-key-v1"
  | .monitorWebhookSecret => text "savitools-monitor-webhook-secret-v1"

/-- `createDecipheriv`, `setAuthTag`, `update` and `final`, from hex to text. -/
def decipher (crypto : Crypto) (key : Bytes) (payload : EncryptedPayload) : Option Text :=
  (crypto.createDecipheriv key (hexBytes payload.iv) (hexBytes payload.authTag) (hexBytes payload.encrypted)).map textDecode

variable (crypto : Crypto) (masterSecret : Text)

def deriveUserKey (userId : Text) (purpose : EncryptionPurpose) : Bytes :=
  crypto.hkdfSync masterSecret userId purpose.label

/-- `encryptForUser`, with the vector that `randomBytes` gives. -/
def encryptForUser (userId plaintext : Text) (purpose : EncryptionPurpose) (iv : Bytes) : EncryptedPayload :=
  let key := deriveUserKey crypto masterSecret userId purpose
  let enciphered := crypto.createCipheriv key iv (textEncode plaintext)
  { encrypted := bytesHex enciphered.1, iv := bytesHex iv, authTag := bytesHex enciphered.2 }

def decryptForUser (userId : Text) (payload : EncryptedPayload) (purpose : EncryptionPurpose) : Option Text :=
  decipher crypto (deriveUserKey crypto masterSecret userId purpose) payload

theorem decryptForUser_encryptForUser {crypto : Crypto} (h : crypto.Opens) (masterSecret userId plaintext : Text)
    (purpose : EncryptionPurpose) (iv : Bytes) :
    decryptForUser crypto masterSecret userId (encryptForUser crypto masterSecret userId plaintext purpose iv) purpose =
      some (wellFormed plaintext) := by
  have hopens := h (deriveUserKey crypto masterSecret userId purpose) iv (textEncode plaintext)
  simp only [decryptForUser, encryptForUser, decipher, hexBytes_bytesHex]
  rw [hopens, Option.map_some, textDecode_textEncode]

/-- A cipher that leaves the text as it is, and has the key and the vector for a tag. -/
def sampleCrypto : Crypto where
  hkdfSync masterSecret salt info := textEncode (masterSecret ++ salt ++ info)
  pbkdf2Sync secret salt := textEncode (secret ++ salt)
  createCipheriv key iv plain := (plain, key ++ iv)
  createDecipheriv key iv authTag encrypted := if authTag = key ++ iv then some encrypted else none

theorem sampleCrypto_opens : sampleCrypto.Opens := fun _ _ _ => if_pos rfl

end Savitools.Common.Encryption
