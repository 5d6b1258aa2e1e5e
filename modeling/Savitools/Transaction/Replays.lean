import Savitools.Common.Exceptions
import Savitools.Json.Conversions

namespace Savitools.Transaction.Replay

open Strings.CodeUnits Json.Numbers Json.Values Json.Conversions Common.Exceptions

inductive Network
  | mainnet
  | testnet
deriving DecidableEq

def Network.name : Network → Text
  | .mainnet => text "mainnet"
  | .testnet => text "testnet"

structure TimeBounds where
  minTime : Text
  maxTime : Text
deriving DecidableEq

inductive Memo
  | none
  | text (t : Text)
deriving DecidableEq

/-- What an envelope says, over its operations and what no modification names. -/
structure Envelope (Op Rest : Type) where
  source : Text
  memo : Memo
  timeBounds : Option TimeBounds
  operations : List Op
  rest : Rest

/-- An object of the SDK: the envelope that it serialises, and the fields that it shows. -/
structure TransactionObject (Op Rest : Type) where
  envelope : Envelope Op Rest
  fields : Envelope Op Rest

structure HistoricalTransaction where
  envelopeXdr : Text
  feeCharged : Value Number
  details : Value Number

/-- A bound may be anything, or missing. -/
structure TimeBoundsDto where
  minTime : Option (Value Number)
  maxTime : Option (Value Number)

/-- A memo may be null, which is not the same as no memo. -/
structure TransactionModificationsDto where
  sourceAccount : Option Text := none
  memo : Option (Option Text) := none
  timeBounds : Option TimeBoundsDto := none
  operations : Option (List (Value Number)) := none

structure ReplayTransactionDto where
  transactionHash : Text
  network : Option Network
  modifications : Option TransactionModificationsDto

inductive SimulationResult
  | succeeded (result feeCharged instructions bytes : Value Number)
  | failed (error : Value Number)

structure TransactionReplay where
  userId : Text
  network : Network
  originalHash : Text
  originalXdr : Text
  originalDetails : Value Number
  modifiedXdr : Text
  modifications : TransactionModificationsDto
  simulationResult : SimulationResult
  submitted : Bool
  submittedHash : Option Text
  submissionResult : Option (Value Number)

structure ReplayResult where
  id : Text
  network : Network
  originalHash : Text
  originalXdr : Text
  originalDetails : Value Number
  modifiedXdr : Text
  modifications : TransactionModificationsDto
  simulationResult : SimulationResult
  submitted : Bool
  submittedHash : Option Text
  createdAt : Text

/-- What is used of the SDK, of Horizon and of the database. Where they throw, the message is given. -/
structure Platform (Asset Op Rest : Type) where
  historical : Network → Text → Except Text HistoricalTransaction
  transaction : Text → Network → Except Text (TransactionObject Op Rest)
  setSource : Text → TransactionObject Op Rest → Except Text (TransactionObject Op Rest)
  setMemo : Memo → TransactionObject Op Rest → Except Text (TransactionObject Op Rest)
  setTimeBounds : TimeBounds → TransactionObject Op Rest → Except Text (TransactionObject Op Rest)
  setOperations : List Op → TransactionObject Op Rest → Except Text (TransactionObject Op Rest)
  textMemo : Text → Except Text Memo
  nativeAsset : Asset
  asset : Option (Value Number) → Option (Value Number) → Except Text Asset
  payment : Option (Value Number) → Asset → Option (Value Number) → Except Text Op
  createAccount : Option (Value Number) → Option (Value Number) → Except Text Op
  toXDR : Envelope Op Rest → Text
  /-- The simulation of Horizon, where there is one; what it throws is given as what is reported of it. -/
  simulateTransaction : Option (TransactionObject Op Rest → Except (Value Number) (Value Number))
  save : TransactionReplay → Except Text (Text × Text)

variable {Asset Op Rest : Type} (platform : Platform Asset Op Rest)

/-- What throws is answered with null. -/
def buildOperationFromDto (op : Value Number) : Option Op :=
  match member (text "type") op with
  | some (.str type) =>
      if type = text "payment" then
        match member (text "asset") op with
        | none | some .null => none
        | some asset =>
            let built :=
              if textMember (text "code") asset = some (text "native") then .ok platform.nativeAsset
              else platform.asset (member (text "code") asset) (member (text "issuer") asset)
            (built.bind fun asset =>
              platform.payment (member (text "destination") op) asset (member (text "amount") op)).toOption
      else if type = text "create_account" then
        (platform.createAccount (member (text "destination") op) (member (text "startingBalance") op)).toOption
      else none
  | _ => none

/-- Pushes onto the list that the object shows; its envelope stays. -/
def pushOperation (object : TransactionObject Op Rest) (op : Value Number) : TransactionObject Op Rest :=
  if (member (text "type") op).isSome then
    match buildOperationFromDto platform op with
    | some built => { object with fields := { object.fields with operations := object.fields.operations ++ [built] } }
    | none => object
  else object

/-- `String(x)` of a bound, which may be missing. -/
def boundText (bound : Option (Value Number)) : Text := (bound.map stringOf).getD (text "undefined")

def modifySource (mods : TransactionModificationsDto) (object : TransactionObject Op Rest) :
    Except Text (TransactionObject Op Rest) :=
  match mods.sourceAccount.filter (· ≠ []) with
  | none => .ok object
  | some source => platform.setSource source object

def modifyMemo (mods : TransactionModificationsDto) (object : TransactionObject Op Rest) :
    Except Text (TransactionObject Op Rest) :=
  match mods.memo with
  | none => .ok object
  | some memo =>
      match memo.filter (· ≠ []) with
      | none => platform.setMemo .none object
      | some memo => (platform.textMemo memo).bind fun memo => platform.setMemo memo object

def modifyTimeBounds (mods : TransactionModificationsDto) (object : TransactionObject Op Rest) :
    Except Text (TransactionObject Op Rest) :=
  match mods.timeBounds with
  | none => .ok object
  | some bounds => platform.setTimeBounds ⟨boundText bounds.minTime, boundText bounds.maxTime⟩ object

def modifyOperations (mods : TransactionModificationsDto) (object : TransactionObject Op Rest) :
    Except Text (TransactionObject Op Rest) :=
  match mods.operations.filter (· ≠ []) with
  | none => .ok object
  | some ops => (platform.setOperations [] object).map fun object => ops.foldl (pushOperation platform) object

/-- The modifications in the order of the code. -/
def modify (mods : TransactionModificationsDto) (object : TransactionObject Op Rest) :
    Except Text (TransactionObject Op Rest) :=
  (modifySource platform mods object).bind fun object =>
    (modifyMemo platform mods object).bind fun object =>
      (modifyTimeBounds platform mods object).bind (modifyOperations platform mods)

/-- Without a simulation of Horizon the transaction counts as simulated, with no results. -/
def simulate (historicalTx : HistoricalTransaction) (object : TransactionObject Op Rest) : SimulationResult :=
  let simulated :=
    match platform.simulateTransaction with
    | some simulateTransaction => simulateTransaction object
    | none => .ok (.obj [(text "success", .bool true), (text "results", .arr [])])
  let orZero : Option (Value Number) → Value Number
    | none | some .null => .num (.finite 0)
    | some v => v
  match simulated with
  | .error error => .failed error
  | .ok .null => .failed (.str (text "Cannot read properties of null (reading 'instructions')"))
  | .ok simRes =>
      .succeeded simRes historicalTx.feeCharged (orZero (member (text "instructions") simRes))
        (orZero (member (text "bytes") simRes))

def fetchHistoricalTransaction (hash : Text) (network : Network) : Except Exception HistoricalTransaction :=
  (platform.historical network hash).mapError fun _ =>
    .notFound (text "Transaction with hash " ++ hash ++ text " not found on Horizon (" ++ network.name ++ text ")")

def replayTransaction (userId : Text) (dto : ReplayTransactionDto) : Except Exception ReplayResult :=
  let network := dto.network.getD .testnet
  (fetchHistoricalTransaction platform dto.transactionHash network).bind fun historicalTx =>
    ((platform.transaction historicalTx.envelopeXdr network).mapError fun _ =>
        .badRequest (text "Failed to parse original transaction XDR")).bind fun object =>
      let mods := dto.modifications.getD {}
      ((modify platform mods object).mapError .error).bind fun object =>
        let modifiedXdr := platform.toXDR object.envelope
        let simulationResult := simulate platform historicalTx object
        ((platform.save ⟨userId, network, dto.transactionHash, historicalTx.envelopeXdr, historicalTx.details, modifiedXdr,
            mods, simulationResult, false, none, none⟩).mapError .error).map fun (id, createdAt) =>
          ⟨id, network, dto.transactionHash, historicalTx.envelopeXdr, historicalTx.details, modifiedXdr, mods,
            simulationResult, false, none, createdAt⟩

end Savitools.Transaction.Replay

namespace Savitools.Transaction.Replays

open Strings.CodeUnits Json.Numbers Json.Values Common.Exceptions Replay

variable {Asset Op Rest : Type}

/-- What the SDK does: its transactions refuse assignment, and serialise what they were read from. -/
structure Documented (platform : Platform Asset Op Rest) : Prop where
  source : ∀ source object, ∃ message, platform.setSource source object = .error message
  memo : ∀ memo object, ∃ message, platform.setMemo memo object = .error message
  timeBounds : ∀ bounds object, ∃ message, platform.setTimeBounds bounds object = .error message
  operations : ∀ operations object, ∃ message, platform.setOperations operations object = .error message
  serialises : ∀ xdr network object, platform.transaction xdr network = .ok object →
    ∃ again, platform.transaction (platform.toXDR object.envelope) network = .ok again ∧ again.envelope = object.envelope

def requestedMemo (memo : Option Text) : Memo := ((memo.filter (· ≠ [])).map Memo.text).getD .none

/-- What is asked for has taken the place of what was there, and nothing else has changed. -/
structure Replaced (platform : Platform Asset Op Rest) (mods : TransactionModificationsDto) (original modified : Envelope Op Rest) :
    Prop where
  source : modified.source = mods.sourceAccount.getD original.source
  memo : modified.memo = (mods.memo.map requestedMemo).getD original.memo
  timeBounds : modified.timeBounds =
    (mods.timeBounds.map fun bounds => ⟨boundText bounds.minTime, boundText bounds.maxTime⟩).or original.timeBounds
  operations : some modified.operations =
    (mods.operations.map (·.mapM (buildOperationFromDto platform))).getD (some original.operations)
  rest : modified.rest = original.rest

/-- The modifications that count: a source account that is not empty, and a list with operations. -/
def effective (mods : TransactionModificationsDto) : TransactionModificationsDto :=
  { mods with
    sourceAccount := mods.sourceAccount.filter (· ≠ [])
    operations := mods.operations.filter (· ≠ []) }

/-- What is returned says, for the envelopes of the two texts, that these modifications were made. -/
def Returns (platform : Platform Asset Op Rest) (dto : ReplayTransactionDto) (mods : TransactionModificationsDto)
    (result : ReplayResult) : Prop :=
  ∃ historicalTx original modified, platform.historical (dto.network.getD .testnet) dto.transactionHash = .ok historicalTx ∧
    platform.transaction historicalTx.envelopeXdr (dto.network.getD .testnet) = .ok original ∧
    platform.transaction result.modifiedXdr (dto.network.getD .testnet) = .ok modified ∧
    Replaced platform mods original.envelope modified.envelope

variable {platform : Platform Asset Op Rest}

section Assignments

variable (hplatform : Documented platform) {mods : TransactionModificationsDto} {object modified : TransactionObject Op Rest}

include hplatform

theorem modifySource_ok (h : modifySource platform mods object = .ok modified) :
    modified = object ∧ mods.sourceAccount.filter (· ≠ []) = none := by
  rw [modifySource] at h
  split at h
  next hnone =>
    cases h
    exact ⟨rfl, hnone⟩
  next source _ =>
    obtain ⟨message, hmessage⟩ := hplatform.source source object
    cases hmessage.symm.trans h

theorem modifyMemo_ok (h : modifyMemo platform mods object = .ok modified) : modified = object ∧ mods.memo = none := by
  rw [modifyMemo] at h
  split at h
  next hnone =>
    cases h
    exact ⟨rfl, hnone⟩
  next memo _ =>
    split at h
    next =>
      obtain ⟨message, hmessage⟩ := hplatform.memo .none object
      cases hmessage.symm.trans h
    next =>
      obtain ⟨made, -, hset⟩ := bind_eq_ok.mp h
      obtain ⟨message, hmessage⟩ := hplatform.memo made object
      cases hmessage.symm.trans hset

theorem modifyTimeBounds_ok (h : modifyTimeBounds platform mods object = .ok modified) :
    modified = object ∧ mods.timeBounds = none := by
  rw [modifyTimeBounds] at h
  split at h
  next hnone =>
    cases h
    exact ⟨rfl, hnone⟩
  next bounds _ =>
    obtain ⟨message, hmessage⟩ := hplatform.timeBounds ⟨boundText bounds.minTime, boundText bounds.maxTime⟩ object
    cases hmessage.symm.trans h

theorem modifyOperations_ok (h : modifyOperations platform mods object = .ok modified) :
    modified = object ∧ mods.operations.filter (· ≠ []) = none := by
  rw [modifyOperations] at h
  split at h
  next hnone =>
    cases h
    exact ⟨rfl, hnone⟩
  next ops _ =>
    obtain ⟨cleared, hcleared, -⟩ := map_eq_ok_iff.mp h
    obtain ⟨message, hmessage⟩ := hplatform.operations [] object
    cases hmessage.symm.trans hcleared

/-- Every modification is an assignment, so only a request without any gets through. -/
theorem modify_ok (h : modify platform mods object = .ok modified) : modified = object ∧ effective mods = {} := by
  obtain ⟨sourced, hsourced, h⟩ := bind_eq_ok.mp h
  obtain ⟨memoed, hmemoed, h⟩ := bind_eq_ok.mp h
  obtain ⟨bounded, hbounded, hmodified⟩ := bind_eq_ok.mp h
  obtain ⟨rfl, hsource⟩ := modifySource_ok hplatform hsourced
  obtain ⟨rfl, hmemo⟩ := modifyMemo_ok hplatform hmemoed
  obtain ⟨rfl, htimeBounds⟩ := modifyTimeBounds_ok hplatform hbounded
  obtain ⟨rfl, hoperations⟩ := modifyOperations_ok hplatform hmodified
  exact ⟨rfl, by rw [effective, hsource, hmemo, htimeBounds, hoperations]⟩

end Assignments

theorem replaced_nothing (platform : Platform Asset Op Rest) (envelope : Envelope Op Rest) :
    Replaced platform {} envelope envelope where
  source := rfl
  memo := rfl
  timeBounds := rfl
  operations := rfl
  rest := rfl

/-- A request is rejected, or its modifications are made, those that are asked for but empty apart. -/
theorem replayTransaction_modifies (hplatform : Documented platform) (userId : Text) (dto : ReplayTransactionDto) :
    (∃ thrown, replayTransaction platform userId dto = .error thrown) ∨
      ∃ result, replayTransaction platform userId dto = .ok result ∧
        Returns platform dto (effective (dto.modifications.getD {})) result := by
  cases hreplay : replayTransaction platform userId dto with
  | error thrown => exact .inl ⟨thrown, rfl⟩
  | ok result =>
      refine .inr ⟨result, rfl, ?_⟩
      obtain ⟨historicalTx, hhistorical, hreplay⟩ := bind_eq_ok.mp hreplay
      obtain ⟨original, horiginal, hreplay⟩ := bind_eq_ok.mp hreplay
      obtain ⟨object, hobject, hreplay⟩ := bind_eq_ok.mp hreplay
      obtain ⟨saved, -, rfl⟩ := map_eq_ok_iff.mp hreplay
      obtain ⟨rfl, hidle⟩ := modify_ok hplatform (mapError_eq_ok hobject)
      have hread := mapError_eq_ok horiginal
      obtain ⟨again, hagain, hsame⟩ := hplatform.serialises _ _ _ hread
      refine ⟨historicalTx, object, again, mapError_eq_ok hhistorical, hread, hagain, ?_⟩
      rw [hidle, hsame]
      exact replaced_nothing platform object.envelope

def sampleEnvelope : Envelope Text Unit where
  source := text "GAAZI4TCR3TY5OJHCTJC2A4QSY6CJWJH5IAJTGKIN2ER7LBNVKOCCWN7"
  memo := .none
  timeBounds := none
  operations := [text "payment"]
  rest := ()

/-- One envelope, in an SDK that keeps its transactions from being changed. -/
def samplePlatform : Platform Unit Text Unit where
  historical _ _ := .ok ⟨text "AAAA", .str (text "100"), .null⟩
  transaction _ _ := .ok ⟨sampleEnvelope, sampleEnvelope⟩
  setSource _ _ := .error (text "Transaction is immutable")
  setMemo _ _ := .error (text "Transaction is immutable")
  setTimeBounds _ _ := .error (text "Transaction is immutable")
  setOperations _ _ := .error (text "Transaction is immutable")
  textMemo t := .ok (.text t)
  nativeAsset := ()
  asset _ _ := .ok ()
  payment _ _ _ := .ok (text "payment")
  createAccount _ _ := .ok (text "create_account")
  toXDR _ := text "AAAA"
  simulateTransaction := none
  save _ := .ok (text "1", text "2026-01-01T00:00:00.000Z")

theorem sample_documented : Documented samplePlatform where
  source _ _ := ⟨_, rfl⟩
  memo _ _ := ⟨_, rfl⟩
  timeBounds _ _ := ⟨_, rfl⟩
  operations _ _ := ⟨_, rfl⟩
  serialises xdr network object h := by
    cases h
    exact ⟨_, rfl, rfl⟩

def requestWith (mods : TransactionModificationsDto) : ReplayTransactionDto := ⟨text "ab", none, some mods⟩

theorem replayTransaction_modifies_memo :
    (∃ thrown, replayTransaction samplePlatform (text "user") (requestWith { memo := some (some (text "hi")) }) = .error thrown) ∨
      ∃ result, replayTransaction samplePlatform (text "user") (requestWith { memo := some (some (text "hi")) }) = .ok result ∧
        Returns samplePlatform (requestWith { memo := some (some (text "hi")) })
          (effective { memo := some (some (text "hi")) }) result :=
  replayTransaction_modifies sample_documented (text "user") (requestWith { memo := some (some (text "hi")) })

/-- An empty list of operations leaves those that there are. -/
theorem not_replayTransaction_modifies : ¬∀ dto : ReplayTransactionDto,
    (∃ thrown, replayTransaction samplePlatform (text "user") dto = .error thrown) ∨
      ∃ result, replayTransaction samplePlatform (text "user") dto = .ok result ∧
        Returns samplePlatform dto (dto.modifications.getD {}) result := by
  intro h
  rcases h (requestWith { operations := some [] }) with ⟨thrown, hthrown⟩ | ⟨result, -, hreturns⟩
  · cases hthrown
  · obtain ⟨historicalTx, original, modified, -, -, hmodified, hreplaced⟩ := hreturns
    cases hmodified
    exact absurd (Option.some.inj hreplaced.operations) (List.cons_ne_nil _ _)

end Savitools.Transaction.Replays
