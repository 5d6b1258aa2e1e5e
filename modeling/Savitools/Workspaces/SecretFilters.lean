import Savitools.Common.Redaction
import Savitools.Json.Values

namespace Savitools.Workspaces.SecretFilters

open Strings.CodeUnits Strings.Replace Json.Values Common.Redaction

def SENSITIVE_KEY_SUBSTRINGS : List Text :=
  [text "secret", text "private", text "seed", text "password", text "token", text "jwt", text "authorization",
    text "credential", text "cookie", text "apikey", text "api_key", text "signingkey", text "signing_key",
    text "privatekey", text "private_key", text "secretkey", text "secret_key"]

def SIGNATURE_KEY_SUBSTRINGS : List Text :=
  [text "signedtransaction", text "signed_transaction", text "signedxdr", text "signed_xdr", text "signedenvelope",
    text "signed_envelope", text "signatures", text "signature"]

variable (beyondAscii : Text → Text)

def isSensitiveKey (key : Text) : Bool :=
  let lower := toLowerCase beyondAscii key
  SENSITIVE_KEY_SUBSTRINGS.any fun sub => sub <:+: lower

def isSignatureKey (key : Text) : Bool :=
  let lower := toLowerCase beyondAscii key
  if text "unsigned" <:+: lower then false else SIGNATURE_KEY_SUBSTRINGS.any fun sub => sub <:+: lower

/-- `STELLAR_SECRET_SEED_REGEX`, which takes the whole text. -/
def isSeedText (t : Text) : Bool := t.length = 56 && (seedMatch t).isSome

/-- `JWT_REGEX`, which takes the whole text. -/
def isJwtText (t : Text) : Bool := jwtMatch t = some t.length

/-- `BEARER_REGEX`, which matches at the start of a text. -/
def startsBearer (t : Text) : Bool :=
  let rest := t.drop 6
  (t.take 6).map toLowerAscii = text "bearer" && rest.head?.any isSpace && (rest.dropWhile isSpace).head?.any isBearerUnit

def isSecretString (value : Text) : Bool :=
  let trimmed := trim value
  isSeedText trimmed || isJwtText trimmed || startsBearer trimmed

/-- `/S[A-Z2-7]{55}/.test(value)` -/
def hasSeed (value : Text) : Bool := value.tails.any fun rest => (seedMatch rest).isSome

def redactSeeds (value : Text) : Text := if hasSeed value then replaceAll seedMatch redacted value else value

variable {N : Type}

def isEmptyObject : Value N → Bool
  | .obj fields => fields.isEmpty
  | _ => false

/-- Members that are left out: those with a sensitive name, and `__proto__`, to which the
assignment makes no member. -/
def isLeftOut (key : Text) : Bool :=
  isSensitiveKey beyondAscii key || isSignatureKey beyondAscii key || key == text "__proto__"

-- The strings that are dropped as a whole, and whether empty objects are dropped from arrays.
variable (dropped : Text → Bool) (dropsEmpty : Bool)

mutual

/-- What the two sanitizers do with a value, which is nothing when the value is dropped. -/
def cleanValue : Value N → Option (Value N)
  | .str t => if dropped t then none else some (.str (redactSeeds t))
  | .arr items => some (.arr (cleanItems items))
  | .obj fields => some (.obj (cleanFields fields))
  | .null => some .null
  | .bool b => some (.bool b)
  | .num n => some (.num n)

def cleanItems : List (Value N) → List (Value N)
  | [] => []
  | item :: items =>
      match cleanValue item with
      | none => cleanItems items
      | some v => if dropsEmpty && isEmptyObject v then cleanItems items else v :: cleanItems items

def cleanFields : List (Text × Value N) → List (Text × Value N)
  | [] => []
  | (k, v) :: fields =>
      if isLeftOut beyondAscii k then cleanFields fields
      else
        match cleanValue v with
        | none => cleanFields fields
        | some w => (k, w) :: cleanFields fields

end

end Savitools.Workspaces.SecretFilters

namespace Savitools.Workspaces.Sanitizer

open Strings.CodeUnits Json.Values SecretFilters

-- The number of signatures of the transaction envelope that a text encodes, if it does.
variable (fromXDR : Text → Option Nat)

def isSignedTransactionEnvelope (value : Text) : Bool :=
  if value.length < 20 then false else (fromXDR value).any fun signatures => 0 < signatures

variable (beyondAscii : Text → Text)

/-- The strings that the sanitizer drops. -/
def isDropped (value : Text) : Bool := isSecretString value || isSignedTransactionEnvelope fromXDR value

variable {N : Type}

def deepClean (data : Value N) : Option (Value N) := cleanValue beyondAscii (isDropped fromXDR) true data

mutual

/-- What `deepClean` adds to `redactedCount`. -/
def redactions : Value N → Nat
  | .str t => if isDropped fromXDR t || hasSeed t then 1 else 0
  | .arr items => redactionsOfItems items
  | .obj fields => redactionsOfFields fields
  | .null | .bool _ | .num _ => 0

def redactionsOfItems : List (Value N) → Nat
  | [] => 0
  | item :: items => redactions item + redactionsOfItems items

def redactionsOfFields : List (Text × Value N) → Nat
  | [] => 0
  | (k, v) :: fields =>
      (if isSensitiveKey beyondAscii k || isSignatureKey beyondAscii k then 1 else redactions v) + redactionsOfFields fields

end

structure SanitizeWorkspaceResult (N : Type) where
  sanitized : Value N
  redactedCount : Nat

/-- The data of a workspace is an object, given here by its members. -/
def sanitizeWorkspaceData (data : List (Text × Value N)) : SanitizeWorkspaceResult N :=
  ⟨(deepClean fromXDR beyondAscii (.obj data)).getD (.obj []), redactions fromXDR beyondAscii (.obj data)⟩

end Savitools.Workspaces.Sanitizer
