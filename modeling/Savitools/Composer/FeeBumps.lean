import Savitools.Common.Exceptions
import Savitools.Json.Roundings

namespace Savitools.Composer.FeeBumps

open Strings.CodeUnits Strings.Decimals Json.Doubles Json.Roundings Json.Wholes Common.Exceptions

inductive Network
  | testnet
  | mainnet
deriving DecidableEq

/-- The request as its validation lets it through. -/
structure FeeBumpDto where
  innerXdr : Text
  feeSource : Text
  baseFee : Text
  network : Option Network
  baseFee_digits : isDigits baseFee = true

/-- What an envelope is switched on; the number is that of the transaction's extension. -/
inductive EnvelopeType
  | envelopeTypeTxFeeBump
  | envelopeTypeTx (ext : Nat)
  | envelopeTypeTxV0
  | other
deriving DecidableEq

/-- What is read of an inner transaction. -/
structure Transaction (Op : Type) where
  operations : List Op
  fee : Nat
  maxTime : Option Nat
  signatures : List (Option (List (BitVec 8)))
  source : Text
  hash : Text

/-- What is used of the Stellar SDK. Where it throws, the message is given or nothing; `envelopeFee` is the fee field
of a fee-bump envelope in XDR. -/
structure Sdk (Op Key FeeBump : Type) where
  PUBLIC : Text
  TESTNET : Text
  fromXDR : Text → Option EnvelopeType
  isValidEd25519PublicKey : Text → Bool
  transaction : Text → Text → Option (Transaction Op)
  fromPublicKey : Text → Except Text Key
  verify : Key → Text → List (BitVec 8) → Except Text Bool
  buildFeeBumpTransaction : Text → Text → Transaction Op → Text → Except Text FeeBump
  toXDR : FeeBump → Text
  hash : FeeBump → Text
  envelopeFee : Text → Option Nat

structure FeeBumpResult where
  xdr : Text
  hash : Text
  innerHash : Text
  type : Text
  feeSource : Text
  baseFee : Text
  fee : Text
  operationCount : Nat
  network : Network
deriving DecidableEq

variable {Op Key FeeBump : Type} (sdk : Sdk Op Key FeeBump)

def networkPassphrase (network : Network) : Text := if network = .mainnet then sdk.PUBLIC else sdk.TESTNET

def badRequest (message : String) : Except Exception Unit := .error (.badRequest (text message))

/-- An error of the SDK, which is wrapped at the end. -/
def thrown {α : Type} : Except Text α → Except Exception α
  | .ok a => .ok a
  | .error message => .error (.error message)

def checkEnvelope : EnvelopeType → Except Exception Unit
  | .envelopeTypeTxFeeBump => badRequest "Inner envelope is already a fee-bump transaction"
  | .other => badRequest "Inner envelope must be a classic transaction"
  | .envelopeTypeTx ext => if ext ≠ 0 then badRequest "Soroban transactions cannot be fee-bumped" else .ok ()
  | .envelopeTypeTxV0 => .ok ()

def checkFee (inner : Transaction Op) (baseFee : Nat) : Except Exception Unit :=
  let operationCount := inner.operations.length
  if baseFee = 0 then badRequest "baseFee must be a positive integer"
  else if baseFee * operationCount < inner.fee then
    .error (.badRequest (text "baseFee is too low: " ++ ofNat baseFee ++ text " stroops x " ++ ofNat operationCount ++
      text " operations must cover the inner fee of " ++ ofNat inner.fee ++ text " stroops"))
  else .ok ()

/-- The time is given in milliseconds. -/
def checkTime (inner : Transaction Op) (now : Nat) : Except Exception Unit :=
  let maxTime := ofBigInt (inner.maxTime.getD 0)
  if gt (some maxTime) (ofInt 0) && !gt (some (timesNat 1000 maxTime)) (ofInt now) then
    badRequest "Inner transaction time bounds have expired"
  else .ok ()

def checkSignature (inner : Transaction Op) (publicKey : Key) (raw : Option (List (BitVec 8))) : Except Exception Unit := do
  let valid ← raw.elim (.ok false) fun bytes => thrown (sdk.verify publicKey inner.hash bytes)
  if !valid then
    badRequest "Network mismatch: inner transaction signatures are not valid for the requested network"
  else .ok ()

def checkSignatures (inner : Transaction Op) : Except Exception Unit :=
  if inner.signatures.length > 0 then do
    let publicKey ← thrown (sdk.fromPublicKey inner.source)
    inner.signatures.forM (checkSignature sdk inner publicKey)
  else .ok ()

def invalidInner : Exception := .badRequest (text "Invalid inner transaction XDR")

/-- The inner transaction, after all that is checked of it. -/
def checkedInner (dto : FeeBumpDto) (passphrase : Text) (now : Nat) : Except Exception (Transaction Op) := do
  let envelope ← (sdk.fromXDR dto.innerXdr).elim (.error invalidInner) .ok
  checkEnvelope envelope
  if !sdk.isValidEd25519PublicKey dto.feeSource then
    throw (.badRequest (text "Invalid fee source account: " ++ dto.feeSource))
  let inner ← (sdk.transaction dto.innerXdr passphrase).elim (.error invalidInner) .ok
  checkFee inner (digitsValue dto.baseFee)
  checkTime inner now
  checkSignatures sdk inner
  return inner

def buildChecked (dto : FeeBumpDto) (now : Nat) : Except Exception FeeBumpResult := do
  let network := dto.network.getD .testnet
  let passphrase := networkPassphrase sdk network
  let inner ← checkedInner sdk dto passphrase now
  let feeBump ← thrown (sdk.buildFeeBumpTransaction dto.feeSource dto.baseFee inner passphrase)
  return {
    xdr := sdk.toXDR feeBump
    hash := sdk.hash feeBump
    innerHash := inner.hash
    type := text "fee_bump"
    feeSource := dto.feeSource
    baseFee := dto.baseFee
    fee := ofNat (digitsValue dto.baseFee * inner.operations.length)
    operationCount := inner.operations.length
    network := network }

/-- What is no bad request yet is made one. -/
def asBadRequest : Exception → Exception
  | .badRequest message => .badRequest message
  | err => .badRequest (text "Failed to build fee-bump: " ++ err.message)

def buildFeeBump (dto : FeeBumpDto) (now : Nat) : Except Exception FeeBumpResult :=
  (buildChecked sdk dto now).mapError asBadRequest

/-- The SDK charges the base fee for each inner operation and once more. -/
def Charges : Prop :=
  ∀ feeSource baseFee inner passphrase feeBump, isDigits baseFee = true →
    sdk.buildFeeBumpTransaction feeSource baseFee inner passphrase = .ok feeBump →
    sdk.envelopeFee (sdk.toXDR feeBump) = some (digitsValue baseFee * (inner.operations.length + 1))

def ReportsEnvelopeFee (result : FeeBumpResult) : Prop :=
  ∃ fee, sdk.envelopeFee result.xdr = some fee ∧ result.fee = ofNat fee

variable {sdk}

theorem thrown_eq_ok {α : Type} {x : Except Text α} {a : α} (h : thrown x = .ok a) : x = .ok a := by
  cases x with
  | error message => cases h
  | ok b => exact congrArg Except.ok (Except.ok.inj h)

theorem checkFee_ok {inner : Transaction Op} {baseFee : Nat} (h : checkFee inner baseFee = .ok ()) : 0 < baseFee := by
  simp only [checkFee] at h
  split at h
  next => cases h
  next hpos => exact Nat.pos_of_ne_zero hpos

/-- Of an inner transaction that passes, the base fee is positive. -/
theorem checkedInner_ok {dto : FeeBumpDto} {passphrase : Text} {now : Nat} {inner : Transaction Op}
    (h : checkedInner sdk dto passphrase now = .ok inner) : 0 < digitsValue dto.baseFee := by
  obtain ⟨envelope, -, h⟩ := bind_eq_ok.mp h
  obtain ⟨-, -, h⟩ := bind_eq_ok.mp h
  split at h
  next => cases h
  next =>
    obtain ⟨read, -, h⟩ := bind_eq_ok.mp h
    obtain ⟨⟨⟩, hfee, -⟩ := bind_eq_ok.mp h
    exact checkFee_ok hfee

theorem buildFeeBump_ok {dto : FeeBumpDto} {now : Nat} {result : FeeBumpResult}
    (h : buildFeeBump sdk dto now = .ok result) :
    ∃ inner feeBump, 0 < digitsValue dto.baseFee ∧
      sdk.buildFeeBumpTransaction dto.feeSource dto.baseFee inner (networkPassphrase sdk (dto.network.getD .testnet)) = .ok feeBump ∧
      result.xdr = sdk.toXDR feeBump ∧ result.fee = ofNat (digitsValue dto.baseFee * inner.operations.length) := by
  have hchecked : buildChecked sdk dto now = .ok result := by
    rw [buildFeeBump] at h
    cases hbuilt : buildChecked sdk dto now with
    | error err =>
        rw [hbuilt] at h
        cases h
    | ok built =>
        rw [hbuilt] at h
        exact h
  obtain ⟨inner, hinner, hrest⟩ := bind_eq_ok.mp hchecked
  obtain ⟨feeBump, hbump, hresult⟩ := bind_eq_ok.mp hrest
  cases hresult
  exact ⟨inner, feeBump, checkedInner_ok hinner, thrown_eq_ok hbump, rfl, rfl⟩

/-- The envelope costs one base fee more than is reported. -/
theorem envelopeFee_eq (hcharges : Charges sdk) {dto : FeeBumpDto} {now : Nat} {result : FeeBumpResult}
    (h : buildFeeBump sdk dto now = .ok result) :
    ∃ reported, result.fee = ofNat reported ∧ sdk.envelopeFee result.xdr = some (reported + digitsValue dto.baseFee) ∧
      0 < digitsValue dto.baseFee := by
  obtain ⟨inner, feeBump, hpos, hbump, hxdr, hfee⟩ := buildFeeBump_ok h
  refine ⟨_, hfee, ?_, hpos⟩
  rw [hxdr, hcharges _ _ _ _ _ dto.baseFee_digits hbump, Nat.mul_succ]

theorem not_reportsEnvelopeFee (hcharges : Charges sdk) {dto : FeeBumpDto} {now : Nat} {result : FeeBumpResult}
    (h : buildFeeBump sdk dto now = .ok result) : ¬ReportsEnvelopeFee sdk result := by
  rintro ⟨fee, hfee, hreport⟩
  obtain ⟨reported, hreported, hcharged, hpos⟩ := envelopeFee_eq hcharges h
  have hsame : reported = fee := ofNat_inj (hreported.symm.trans hreport)
  have htotal : reported + digitsValue dto.baseFee = fee := Option.some.inj (hcharged.symm.trans hfee)
  omega

def plainInner : Transaction Unit where
  operations := [()]
  fee := 200
  maxTime := none
  signatures := []
  source := []
  hash := []

/-- One payment for 200 stroops, and envelopes that are written as their fee. -/
def plainSdk : Sdk Unit Unit Nat where
  PUBLIC := text "public"
  TESTNET := text "testnet"
  fromXDR _ := some .envelopeTypeTxV0
  isValidEd25519PublicKey _ := true
  transaction _ _ := some plainInner
  fromPublicKey _ := .ok ()
  verify _ _ _ := .ok true
  buildFeeBumpTransaction _ baseFee inner _ := .ok (digitsValue baseFee * (inner.operations.length + 1))
  toXDR := ofNat
  hash := ofNat
  envelopeFee xdr := some (digitsValue xdr)

theorem charges_plainSdk : Charges plainSdk := by
  intro feeSource baseFee inner passphrase feeBump _ hbump
  cases hbump
  exact congrArg some (digitsValue_ofNat _)

def plainDto : FeeBumpDto where
  innerXdr := text "AAAA"
  feeSource := text "G"
  baseFee := text "5000"
  network := none
  baseFee_digits := by decide

def plainResult : FeeBumpResult where
  xdr := text "10000"
  hash := text "10000"
  innerHash := []
  type := text "fee_bump"
  feeSource := text "G"
  baseFee := text "5000"
  fee := text "5000"
  operationCount := 1
  network := .testnet

theorem checkTime_plain : checkTime plainInner 0 = .ok () := by
  have hnone : ofBigInt (0 : Nat) = .ofInt 0 := exact_of_le (by decide) (by decide)
  simp only [checkTime, plainInner, Option.getD_none, hnone]
  rfl

attribute [local irreducible] checkTime

theorem buildFeeBump_plain : buildFeeBump plainSdk plainDto 0 = .ok plainResult := by
  have hinner (passphrase : Text) : checkedInner plainSdk plainDto passphrase 0 = .ok plainInner := by
    calc checkedInner plainSdk plainDto passphrase 0 = checkTime plainInner 0 >>= fun _ => .ok plainInner := rfl
      _ = .ok plainInner := by rw [checkTime_plain]; rfl
  have hchecked : buildChecked plainSdk plainDto 0 = .ok plainResult := by
    simp only [buildChecked, hinner]
    rfl
  rw [buildFeeBump, hchecked]
  rfl

theorem not_reportsEnvelopeFee_plain : ¬ReportsEnvelopeFee plainSdk plainResult :=
  not_reportsEnvelopeFee charges_plainSdk buildFeeBump_plain

/-- A base fee of 5000 for one operation is reported as 5000 stroops, and the envelope costs 10000. -/
theorem reported_too_low :
    ¬∀ result, buildFeeBump plainSdk plainDto 0 = .ok result → ReportsEnvelopeFee plainSdk result := by
  intro h
  obtain ⟨fee, hfee, hreport⟩ := h plainResult buildFeeBump_plain
  have hcharged : some 10000 = some fee := hfee
  have hreported : ofNat 5000 = ofNat fee := hreport
  have hsame := ofNat_inj hreported
  have htotal := Option.some.inj hcharged
  omega

end Savitools.Composer.FeeBumps
