import Savitools.Strings.CodeUnits

namespace Savitools.Inspector.ResultCodes

open Strings.CodeUnits

def TX_RESULT_CODES : List (Text × Text) :=
  [(text "tx_success", text "All operations succeeded."),
    (text "tx_failed", text "One or more operations failed."),
    (text "tx_too_early", text "The ledger closeTime is before the transaction minTime."),
    (text "tx_too_late", text "The ledger closeTime is after the transaction maxTime."),
    (text "tx_missing_operation", text "No operations were specified."),
    (text "tx_bad_seq", text "Sequence number does not match source account."),
    (text "tx_bad_auth", text "Insufficient signatures or wrong network."),
    (text "tx_insufficient_balance", text "Insufficient XLM to cover fees and base reserves."),
    (text "tx_no_source_account", text "Source account not found."),
    (text "tx_insufficient_fee", text "Fee is lower than the network minimum."),
    (text "tx_bad_auth_extra", text "Unused signatures attached."),
    (text "tx_internal_error", text "Internal Horizon error — try again."),
    (text "tx_not_supported", text "Transaction type not supported."),
    (text "tx_fee_bump_inner_failed", text "The inner fee-bump transaction failed."),
    (text "tx_bad_sponsorship", text "Sponsorship structure is invalid.")]

def OP_RESULT_CODES : List (Text × Text) :=
  [(text "op_success", text "Operation succeeded."),
    (text "op_bad_auth", text "Insufficient authorisation for this operation."),
    (text "op_no_account", text "The source or destination account does not exist."),
    (text "op_not_supported", text "Operation type not supported by this network."),
    (text "op_too_many_subentries", text "Account has reached the maximum number of subentries."),
    (text "op_exceeded_work_limit", text "Operation exceeded the work limit."),
    (text "op_too_many_sponsoring", text "Account is already sponsoring the maximum number of entries."),
    -- create_account
    (text "op_malformed", text "Invalid input — check asset codes, addresses, or amounts."),
    (text "op_underfunded",
      text "The source account does not have enough XLM after accounting for the base reserve."),
    (text "op_low_reserve", text "Starting balance is below the minimum reserve required."),
    (text "op_already_exist", text "The destination account already exists."),
    -- payment
    (text "op_no_trust", text "Destination account has no trustline for this asset."),
    (text "op_not_authorized", text "The asset issuer has not authorised the destination to hold this asset."),
    (text "op_no_issuer", text "The asset issuer account does not exist."),
    (text "op_line_full", text "Destination trustline is at maximum capacity."),
    -- change_trust
    (text "op_invalid_limit", text "Limit is below current balance or negative."),
    (text "op_self_not_allowed", text "Source and destination accounts are the same."),
    (text "op_trust_revoked", text "Trustline was revoked by the issuer."),
    -- allow_trust / set_trust_line_flags
    (text "op_no_trustline", text "Trustor does not have a trustline for this asset."),
    (text "op_trustor_not_required", text "Asset does not require authorisation."),
    (text "op_cant_revoke", text "Issuer cannot revoke this trustline."),
    -- offer / DEX
    (text "op_sell_no_trust", text "No trustline for the asset being sold."),
    (text "op_buy_no_trust", text "No trustline for the asset being bought."),
    (text "op_sell_not_authorized", text "Not authorised to sell this asset."),
    (text "op_buy_not_authorized", text "Not authorised to buy this asset."),
    (text "op_sell_no_issuer", text "Issuer of the selling asset not found."),
    (text "op_buy_no_issuer", text "Issuer of the buying asset not found."),
    (text "op_offer_not_found", text "Offer ID not found."),
    (text "op_offer_low_reserve", text "Insufficient XLM reserve to create this offer."),
    (text "op_cross_self", text "This offer would immediately cross one of your own offers."),
    -- path payment
    (text "op_too_few_offers", text "No path found with enough liquidity."),
    (text "op_over_sendmax", text "Cost would exceed the specified sendMax."),
    (text "op_under_destmin", text "Received amount is below the specified destMin."),
    -- account merge
    (text "op_immutable_set", text "The account has AUTH_IMMUTABLE set."),
    (text "op_has_sub_entries", text "Account still has sub-entries (trustlines, offers, signers)."),
    (text "op_seq_num_too_far", text "Sequence number would be too far in the future."),
    (text "op_dest_full", text "Destination account cannot receive more XLM."),
    -- manage_data
    (text "op_data_name_not_found", text "Data entry not found — nothing to delete."),
    (text "op_data_invalid_name", text "Data key is invalid."),
    -- inflation
    (text "op_not_time", text "Inflation can only run once a week."),
    -- bump_sequence
    (text "op_bad_seq", text "Bump sequence number is below current sequence."),
    -- claim_claimable_balance
    (text "op_does_not_exist", text "Claimable balance not found."),
    (text "op_cannot_claim", text "Account is not a claimant or predicate is not satisfied."),
    (text "op_balance_frozen", text "Claimable balance is frozen."),
    -- liquidity pool
    (text "op_pool_full", text "Liquidity pool is at maximum capacity."),
    (text "op_too_few_shares", text "Shares received are below minimum."),
    (text "op_too_small", text "Withdrawal amount is too small.")]

def explainTxCode (code : Text) : Text :=
  (TX_RESULT_CODES.lookup code).getD (text "Unknown transaction result code: " ++ code)

def explainOpCode (code : Text) : Text :=
  (OP_RESULT_CODES.lookup code).getD (text "Unknown operation result code: " ++ code)

/-- The table has an explanation for the code. -/
def knowsTxCode (code : Text) : Bool := (TX_RESULT_CODES.lookup code).isSome

def knowsOpCode (code : Text) : Bool := (OP_RESULT_CODES.lookup code).isSome

end Savitools.Inspector.ResultCodes

namespace Savitools.Inspector.TransactionResults

open Strings.CodeUnits ResultCodes

inductive OperationType
  | createAccount
  | payment
  | pathPaymentStrictReceive
  | manageSellOffer
  | createPassiveSellOffer
  | setOptions
  | changeTrust
  | allowTrust
  | accountMerge
  | inflation
  | manageData
  | bumpSequence
  | manageBuyOffer
  | pathPaymentStrictSend
  | createClaimableBalance
  | claimClaimableBalance
  | beginSponsoringFutureReserves
  | endSponsoringFutureReserves
  | revokeSponsorship
  | clawback
  | clawbackClaimableBalance
  | setTrustLineFlags
  | liquidityPoolDeposit
  | liquidityPoolWithdraw
  | invokeHostFunction
  | extendFootprintTtl
  | restoreFootprint
deriving DecidableEq

/-- The name of the arm of the union over operation types. -/
def OperationType.name : OperationType → Text
  | .createAccount => text "createAccount"
  | .payment => text "payment"
  | .pathPaymentStrictReceive => text "pathPaymentStrictReceive"
  | .manageSellOffer => text "manageSellOffer"
  | .createPassiveSellOffer => text "createPassiveSellOffer"
  | .setOptions => text "setOptions"
  | .changeTrust => text "changeTrust"
  | .allowTrust => text "allowTrust"
  | .accountMerge => text "accountMerge"
  | .inflation => text "inflation"
  | .manageData => text "manageData"
  | .bumpSequence => text "bumpSequence"
  | .manageBuyOffer => text "manageBuyOffer"
  | .pathPaymentStrictSend => text "pathPaymentStrictSend"
  | .createClaimableBalance => text "createClaimableBalance"
  | .claimClaimableBalance => text "claimClaimableBalance"
  | .beginSponsoringFutureReserves => text "beginSponsoringFutureReserves"
  | .endSponsoringFutureReserves => text "endSponsoringFutureReserves"
  | .revokeSponsorship => text "revokeSponsorship"
  | .clawback => text "clawback"
  | .clawbackClaimableBalance => text "clawbackClaimableBalance"
  | .setTrustLineFlags => text "setTrustLineFlags"
  | .liquidityPoolDeposit => text "liquidityPoolDeposit"
  | .liquidityPoolWithdraw => text "liquidityPoolWithdraw"
  | .invokeHostFunction => text "invokeHostFunction"
  | .extendFootprintTtl => text "extendFootprintTtl"
  | .restoreFootprint => text "restoreFootprint"

def pathPaymentFailures : List String :=
  ["Malformed", "Underfunded", "SrcNoTrust", "SrcNotAuthorized", "NoDestination", "NoTrust", "NotAuthorized", "LineFull",
    "NoIssuer", "TooFewOffers", "OfferCrossSelf"]

def manageOfferFailures : List String :=
  ["Malformed", "SellNoTrust", "BuyNoTrust", "SellNotAuthorized", "BuyNotAuthorized", "LineFull", "Underfunded",
    "CrossSelf", "SellNoIssuer", "BuyNoIssuer", "NotFound", "LowReserve"]

/-- The arms of the failures of an operation, without the name of the operation in front. -/
def OperationType.failures : OperationType → List String
  | .createAccount => ["Malformed", "Underfunded", "LowReserve", "AlreadyExist"]
  | .payment =>
      ["Malformed", "Underfunded", "SrcNoTrust", "SrcNotAuthorized", "NoDestination", "NoTrust", "NotAuthorized",
        "LineFull", "NoIssuer"]
  | .pathPaymentStrictReceive => pathPaymentFailures ++ ["OverSendmax"]
  | .pathPaymentStrictSend => pathPaymentFailures ++ ["UnderDestmin"]
  | .manageSellOffer | .createPassiveSellOffer | .manageBuyOffer => manageOfferFailures
  | .setOptions =>
      ["LowReserve", "TooManySigners", "BadFlags", "InvalidInflation", "CantChange", "UnknownFlag", "ThresholdOutOfRange",
        "BadSigner", "InvalidHomeDomain", "AuthRevocableRequired"]
  | .changeTrust =>
      ["Malformed", "NoIssuer", "InvalidLimit", "LowReserve", "SelfNotAllowed", "TrustLineMissing", "CannotDelete",
        "NotAuthMaintainLiabilities"]
  | .allowTrust => ["Malformed", "NoTrustLine", "TrustNotRequired", "CantRevoke", "SelfNotAllowed", "LowReserve"]
  | .accountMerge => ["Malformed", "NoAccount", "ImmutableSet", "HasSubEntries", "SeqnumTooFar", "DestFull", "IsSponsor"]
  | .inflation => ["NotTime"]
  | .manageData => ["NotSupportedYet", "NameNotFound", "LowReserve", "InvalidName"]
  | .bumpSequence => ["BadSeq"]
  | .createClaimableBalance => ["Malformed", "LowReserve", "NoTrust", "NotAuthorized", "Underfunded"]
  | .claimClaimableBalance => ["DoesNotExist", "CannotClaim", "LineFull", "NoTrust", "NotAuthorized"]
  | .beginSponsoringFutureReserves => ["Malformed", "AlreadySponsored", "Recursive"]
  | .endSponsoringFutureReserves => ["NotSponsored"]
  | .revokeSponsorship => ["DoesNotExist", "NotSponsor", "LowReserve", "OnlyTransferable", "Malformed"]
  | .clawback => ["Malformed", "NotClawbackEnabled", "NoTrust", "Underfunded"]
  | .clawbackClaimableBalance => ["DoesNotExist", "NotIssuer", "NotClawbackEnabled"]
  | .setTrustLineFlags => ["Malformed", "NoTrustLine", "CantRevoke", "InvalidState", "LowReserve"]
  | .liquidityPoolDeposit => ["Malformed", "NoTrust", "NotAuthorized", "Underfunded", "LineFull", "BadPrice", "PoolFull"]
  | .liquidityPoolWithdraw => ["Malformed", "NoTrust", "Underfunded", "LineFull", "UnderMinimum"]
  | .invokeHostFunction =>
      ["Malformed", "Trapped", "ResourceLimitExceeded", "EntryArchived", "InsufficientRefundableFee"]
  | .extendFootprintTtl | .restoreFootprint => ["Malformed", "ResourceLimitExceeded", "InsufficientRefundableFee"]

/-- Why an operation was not applied at all. -/
inductive OperationRejection
  | opBadAuth
  | opNoAccount
  | opNotSupported
  | opTooManySubentries
  | opExceededWorkLimit
  | opTooManySponsoring
deriving DecidableEq

def OperationRejection.name : OperationRejection → Text
  | .opBadAuth => text "opBadAuth"
  | .opNoAccount => text "opNoAccount"
  | .opNotSupported => text "opNotSupported"
  | .opTooManySubentries => text "opTooManySubentries"
  | .opExceededWorkLimit => text "opExceededWorkLimit"
  | .opTooManySponsoring => text "opTooManySponsoring"

/-- The result of an operation: of its own type, with the arm of a failure if it is none, or a rejection. -/
inductive OperationResult
  | opInner (type : OperationType) (failure : Option String) (listed : ∀ arm ∈ failure, arm ∈ type.failures)
  | rejected (code : OperationRejection)

/-- The codes of transactions that have no results of operations. -/
inductive TransactionRejection
  | txTooEarly
  | txTooLate
  | txMissingOperation
  | txBadSeq
  | txBadAuth
  | txInsufficientBalance
  | txNoAccount
  | txInsufficientFee
  | txBadAuthExtra
  | txInternalError
  | txNotSupported
  | txBadSponsorship
  | txBadMinSeqAgeOrGap
  | txMalformed
  | txSorobanInvalid
deriving DecidableEq

def TransactionRejection.name : TransactionRejection → Text
  | .txTooEarly => text "txTooEarly"
  | .txTooLate => text "txTooLate"
  | .txMissingOperation => text "txMissingOperation"
  | .txBadSeq => text "txBadSeq"
  | .txBadAuth => text "txBadAuth"
  | .txInsufficientBalance => text "txInsufficientBalance"
  | .txNoAccount => text "txNoAccount"
  | .txInsufficientFee => text "txInsufficientFee"
  | .txBadAuthExtra => text "txBadAuthExtra"
  | .txInternalError => text "txInternalError"
  | .txNotSupported => text "txNotSupported"
  | .txBadSponsorship => text "txBadSponsorship"
  | .txBadMinSeqAgeOrGap => text "txBadMinSeqAgeOrGap"
  | .txMalformed => text "txMalformed"
  | .txSorobanInvalid => text "txSorobanInvalid"

/-- The result of the transaction within a fee bump. -/
inductive InnerTransactionResult
  | results (success : Bool) (results : List OperationResult)
  | rejected (code : TransactionRejection)

inductive TransactionResult
  | results (success : Bool) (results : List OperationResult)
  | innerResultPair (success : Bool) (inner : InnerTransactionResult)
  | rejected (code : TransactionRejection)

/-- The name of the discriminant of the union. -/
def TransactionResult.switch : TransactionResult → Text
  | .results success _ => if success then text "txSuccess" else text "txFailed"
  | .innerResultPair success _ => if success then text "txFeeBumpInnerSuccess" else text "txFeeBumpInnerFailed"
  | .rejected code => code.name

/-- `results()`, which throws on another arm but gives nothing on one without a value. -/
def TransactionResult.resultsArm : TransactionResult → Option (List OperationResult)
  | .results _ operations => some operations
  | .innerResultPair _ _ => none
  | .rejected _ => some []

/-- The name of the discriminant of the inner union, or of the outer one where that has no value. -/
def resultCodeOf : OperationResult → Text
  | .opInner type _ _ => type.name
  | .rejected code => code.name

/-- Of the result that `fromXDR` gives; when it throws there are no codes. -/
def extractOpResultCodes (parsed : Option TransactionResult) : List Text :=
  match parsed.bind TransactionResult.resultsArm with
  | some results => results.map resultCodeOf
  | none => []

def extractTxResultCode (parsed : Option TransactionResult) : Option Text := parsed.map TransactionResult.switch

/-- What is told of an operation besides its fields and its effects. -/
structure DecodedOperationResult where
  index : Nat
  resultCode : Option Text
  resultExplanation : Option Text
  success : Bool
deriving DecidableEq

def operationResult (parsed : Option TransactionResult) (i : Nat) : DecodedOperationResult :=
  let resultCode := (extractOpResultCodes parsed)[i]?
  { index := i
    resultCode := resultCode
    resultExplanation := (resultCode.filter (· ≠ [])).map explainOpCode
    success := resultCode.all fun code => code = [] || code = text "op_success" }

def txResultCode (parsed : Option TransactionResult) : Text := (extractTxResultCode parsed).getD (text "tx_success")

def resultExplanation (parsed : Option TransactionResult) : Text := explainTxCode (txResultCode parsed)

end Savitools.Inspector.TransactionResults

namespace Savitools.Inspector.TrueOutcomes

open Strings.CodeUnits ResultCodes TransactionResults

/-- The results of the operations, those of a fee bump in the inner result. -/
def operationResults : TransactionResult → List OperationResult
  | .results _ operations | .innerResultPair _ (.results _ operations) => operations
  | .innerResultPair _ (.rejected _) | .rejected _ => []

def OperationResult.Succeeds : OperationResult → Prop
  | .opInner _ failure _ => failure = none
  | .rejected _ => False

def TransactionResult.Succeeds : TransactionResult → Prop
  | .results success _ | .innerResultPair success _ => success = true
  | .rejected _ => False

/-- What is told of a transaction and of its operations is what became of them. -/
structure Truthful (result : TransactionResult) : Prop where
  success : ∀ i r, (operationResults result)[i]? = some r →
    ((operationResult (some result) i).success = true ↔ OperationResult.Succeeds r)
  /-- The code is given to no other result of an operation. -/
  determines : ∀ i r, (operationResults result)[i]? = some r → ∀ other j q, (operationResults other)[j]? = some q →
    (operationResult (some other) j).resultCode = (operationResult (some result) i).resultCode → q = r
  known : ∀ i r, (operationResults result)[i]? = some r → OperationResult.Succeeds r →
    (operationResult (some result) i).resultCode.any knowsOpCode = true
  knownTx : TransactionResult.Succeeds result → knowsTxCode (txResultCode (some result)) = true

/-- The transaction failed, and none of its operations was applied. -/
def FailsUnapplied : TransactionResult → Prop
  | .results success operations => success = false ∧ ∀ r ∈ operations, ∃ code, r = .rejected code
  | .innerResultPair success inner => success = false ∧ operationResults (.innerResultPair success inner) = []
  | .rejected _ => True

def rejectionOf (code : Text) : Option OperationRejection :=
  [OperationRejection.opBadAuth, .opNoAccount, .opNotSupported, .opTooManySubentries, .opExceededWorkLimit,
    .opTooManySponsoring].find? (·.name = code)

theorem rejectionOf_name (code : OperationRejection) : rejectionOf code.name = some code := by
  cases code <;> decide

/-- No type of operations has the name of a rejection. -/
theorem rejectionOf_type (type : OperationType) : rejectionOf type.name = none := by
  cases type <;> decide

theorem eq_of_resultCodeOf {code : OperationRejection} {r : OperationResult} (h : resultCodeOf r = code.name) :
    r = .rejected code := by
  have hrejection : rejectionOf (resultCodeOf r) = some code := h ▸ rejectionOf_name code
  cases r with
  | opInner type failure listed =>
      rw [resultCodeOf, rejectionOf_type] at hrejection
      cases hrejection
  | rejected other =>
      rw [resultCodeOf, rejectionOf_name] at hrejection
      rw [Option.some.inj hrejection]

theorem exists_failure (type : OperationType) : ∃ arm, arm ∈ type.failures := by
  refine List.exists_mem_of_ne_nil _ ?_
  cases type <;> decide

/-- Of each operation that was applied there is another outcome. -/
theorem exists_other (type : OperationType) (failure : Option String) (listed : ∀ arm ∈ failure, arm ∈ type.failures) :
    ∃ failure' listed', OperationResult.opInner type failure' listed' ≠ .opInner type failure listed := by
  cases failure with
  | some arm => exact ⟨none, nofun, fun h => by cases h⟩
  | none =>
      obtain ⟨arm, harm⟩ := exists_failure type
      exact ⟨some arm, fun other hother => Option.some.inj hother ▸ harm, fun h => by cases h⟩

theorem resultCode_of_results {success : Bool} {operations : List OperationResult} {i : Nat} :
    (operationResult (some (.results success operations)) i).resultCode = operations[i]?.map resultCodeOf :=
  List.getElem?_map

theorem resultCode_of_pair {success : Bool} {inner : InnerTransactionResult} {i : Nat} :
    (operationResult (some (.innerResultPair success inner)) i).resultCode = none := rfl

theorem success_eq (parsed : Option TransactionResult) (i : Nat) : (operationResult parsed i).success =
    (operationResult parsed i).resultCode.all fun code => code = [] || code = text "op_success" := rfl

/-- No code that the library gives to a success is in the table. -/
theorem not_knownTx {result : TransactionResult} (hsuccess : TransactionResult.Succeeds result) :
    knowsTxCode (txResultCode (some result)) = false := by
  cases result with
  | results success operations =>
      cases hsuccess
      exact (by decide : knowsTxCode (text "txSuccess") = false)
  | innerResultPair success inner =>
      cases hsuccess
      exact (by decide : knowsTxCode (text "txFeeBumpInnerSuccess") = false)
  | rejected code => exact hsuccess.elim

/-- A rejected operation is told as such, and with a code of its own. -/
theorem truthful_of_rejected {operations : List OperationResult} (hall : ∀ r ∈ operations, ∃ code, r = .rejected code) :
    Truthful (.results false operations) := by
  have hcode {i : Nat} {r : OperationResult} (hr : operations[i]? = some r) :
      (operationResult (some (.results false operations)) i).resultCode = some (resultCodeOf r) := by
    rw [resultCode_of_results, hr]
    rfl
  refine ⟨fun i r hr => ?_, fun i r hr other j q hq hcodes => ?_, fun i r hr hsuccess => ?_, nofun⟩
  · obtain ⟨code, rfl⟩ := hall r (List.mem_of_getElem? hr)
    rw [success_eq, hcode hr, Option.all_some]
    refine iff_of_false ?_ id
    cases code <;> decide
  · obtain ⟨code, rfl⟩ := hall r (List.mem_of_getElem? hr)
    rw [hcode hr] at hcodes
    cases other with
    | results success others =>
        rw [resultCode_of_results, show others[j]? = some q from hq, Option.map_some, Option.some.injEq] at hcodes
        exact eq_of_resultCodeOf hcodes
    | innerResultPair success inner =>
        rw [resultCode_of_pair] at hcodes
        cases hcodes
    | rejected other => cases hq
  · obtain ⟨code, rfl⟩ := hall r (List.mem_of_getElem? hr)
    exact hsuccess.elim

/-- The code of an operation that was applied is the name of its type, whatever the outcome. -/
theorem rejected_of_truthful {success : Bool} {operations : List OperationResult}
    (htruthful : Truthful (.results success operations)) : ∀ r ∈ operations, ∃ code, r = .rejected code := by
  intro r hr
  obtain ⟨i, hi⟩ := List.getElem?_of_mem hr
  cases r with
  | rejected code => exact ⟨code, rfl⟩
  | opInner type failure listed =>
      obtain ⟨failure', listed', hne⟩ := exists_other type failure listed
      refine absurd (htruthful.determines i _ hi (.results false [.opInner type failure' listed']) 0 _ rfl ?_) hne
      rw [resultCode_of_results, resultCode_of_results, hi]
      rfl

/-- An inspection tells the true outcome exactly of a failed transaction no operation of which was
applied. -/
theorem inspected_truthful_iff (result : TransactionResult) : Truthful result ↔ FailsUnapplied result := by
  constructor
  · intro htruthful
    have hfails : ¬TransactionResult.Succeeds result := fun hsuccess => by
      have hknown := htruthful.knownTx hsuccess
      rw [not_knownTx hsuccess] at hknown
      cases hknown
    cases result with
    | results success operations => exact ⟨Bool.eq_false_iff.mpr hfails, rejected_of_truthful htruthful⟩
    | innerResultPair success inner =>
        refine ⟨Bool.eq_false_iff.mpr hfails, ?_⟩
        cases hoperations : operationResults (.innerResultPair success inner) with
        | nil => rfl
        | cons r rest =>
            -- such an operation is told to have succeeded, but has no code
            have hr : (operationResults (.innerResultPair success inner))[0]? = some r := by
              rw [hoperations]
              rfl
            have hsuccess : OperationResult.Succeeds r := (htruthful.success 0 r hr).mp rfl
            have hknown := htruthful.known 0 r hr hsuccess
            rw [resultCode_of_pair] at hknown
            cases hknown
    | rejected code => trivial
  · intro hfails
    cases result with
    | results success operations =>
        obtain ⟨rfl, hall⟩ := hfails
        exact truthful_of_rejected hall
    | innerResultPair success inner =>
        obtain ⟨rfl, hnone⟩ := hfails
        have hempty {i : Nat} {r : OperationResult} :
            ¬(operationResults (.innerResultPair false inner))[i]? = some r := by
          rw [hnone]
          exact nofun
        exact ⟨fun i r hr => absurd hr hempty, fun i r hr => absurd hr hempty, fun i r hr => absurd hr hempty, nofun⟩
    | rejected code => exact ⟨nofun, nofun, nofun, nofun⟩

/-- A payment that succeeded is told to have failed with the code `payment`. -/
theorem not_inspected_truthful : ¬∀ result, Truthful result := by
  intro h
  have hsuccess := (h (.results true [.opInner .payment none nofun])).success 0 _ rfl
  exact absurd (hsuccess.mpr rfl) (by decide)

end Savitools.Inspector.TrueOutcomes
