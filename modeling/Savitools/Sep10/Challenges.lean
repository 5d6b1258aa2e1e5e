import Savitools.Common.Exceptions
import Savitools.Strings.Base64
import Savitools.Strings.HexBytes
import Savitools.Strings.Decimals
import Savitools.Strings.Utf8

namespace Savitools.Sep10.Challenges

open Strings.CodeUnits Strings.HexBytes Strings.Base64 Common.Exceptions

abbrev Bytes := List (BitVec 8)

inductive Network
  | testnet
  | mainnet

def PUBLIC : Text := text "Public Global Stellar Network ; September 2015"

def TESTNET : Text := text "Test SDF Network ; September 2015"

def passphraseOf : Network → Text
  | .mainnet => PUBLIC
  | .testnet => TESTNET

/-- An operation, with what is read of it. -/
inductive Operation
  | manageData (source : Option Text) (name : Text) (value : Option Bytes)
  | setOptions (source : Option Text) (homeDomain : Option Text)
  | other (kind : Text) (source : Option Text)

structure DecoratedSignature where
  hint : Bytes
  signature : Bytes

structure TimeBounds where
  minTime : Text
  maxTime : Text

/-- A memo is its type and its value. -/
structure Transaction where
  source : Text
  sequence : Text
  fee : Text
  memo : Text × Option Text
  timeBounds : Option TimeBounds
  operations : List Operation
  signatures : List DecoratedSignature
  hash : Bytes

/-- What is used of the SDK; errors are given by their messages. -/
structure StellarSdk (Key : Type) where
  /-- `new Transaction(xdr, passphrase)` -/
  transaction : Text → Text → Except Text Transaction
  isValidEd25519PublicKey : Text → Bool
  fromPublicKey : Text → Except Text Key
  /-- `verify`, of a hash and a signature -/
  verify : Key → Bytes → Bytes → Except Text Bool

structure ChallengeOperation where
  type : Text
  sourceAccount : Option Text
  homeDomain : Option Text
  dataName : Option Text
  dataValue : Option Text

structure ChallengeSignature where
  publicKey : Text
  signature : Text

structure ChallengeDetails where
  xdr : Text
  hash : Text
  networkPassphrase : Text
  sourceAccount : Text
  sequenceNumber : Text
  fee : Text
  memo : Option (Text × Option Text)
  timeBounds : Option TimeBounds
  operations : List ChallengeOperation
  signatures : List ChallengeSignature

structure ValidationCheck where
  name : Text
  passed : Bool
  message : Text
  details : List (Text × Option Text)

structure ValidateChallengeDto where
  challengeXdr : Text
  serverAccountId : Text
  network : Option Network
  homeDomain : Option Text
  webAuthDomain : Option Text

/-- Operations of other kinds are not kept. -/
def parseOperation : Operation → Option ChallengeOperation
  | .manageData source name value =>
      some ⟨text "manageData", source, none, some name, value.map toBase64⟩
  | .setOptions source homeDomain => some ⟨text "setOptions", source, homeDomain, none, none⟩
  | .other _ _ => none

def parseSignature (sig : DecoratedSignature) : ChallengeSignature := ⟨bytesHex sig.hint, toBase64 sig.signature⟩

def challengeDetails (challengeXdr networkPassphrase : Text) (transaction : Transaction) : ChallengeDetails :=
  { xdr := challengeXdr
    hash := bytesHex transaction.hash
    networkPassphrase := networkPassphrase
    sourceAccount := transaction.source
    sequenceNumber := transaction.sequence
    fee := transaction.fee
    memo := if transaction.memo.1 = text "none" then none else some transaction.memo
    timeBounds := transaction.timeBounds
    operations := transaction.operations.filterMap parseOperation
    signatures := transaction.signatures.map parseSignature }

variable {Key : Type} (sdk : StellarSdk Key)

def parseChallenge (challengeXdr : Text) (network : Network) : Except Text ChallengeDetails :=
  (sdk.transaction challengeXdr (passphraseOf network)).map (challengeDetails challengeXdr (passphraseOf network))

variable (challenge : ChallengeDetails) (dto : ValidateChallengeDto)

/-- The text of the first signature. -/
def firstSignature : Option Text := challenge.signatures.head?.map ChallengeSignature.signature

def signedForNetwork (passphrase : Text) : Except Text Bool :=
  match (firstSignature challenge).filter (· ≠ []) with
  | none => .ok false
  | some sig =>
      if sdk.isValidEd25519PublicKey dto.serverAccountId = false then .ok false
      else
        (sdk.transaction dto.challengeXdr passphrase).bind fun transaction =>
          (sdk.fromPublicKey dto.serverAccountId).bind fun key => sdk.verify key transaction.hash (fromBase64 sig)

def wrongNetwork (expected other : Text) : Except Text Bool :=
  (signedForNetwork sdk challenge dto expected).bind fun signed =>
    if signed then .ok false else signedForNetwork sdk challenge dto other

def networkCheck (expected other : Text) (wrong : Bool) : ValidationCheck :=
  ⟨text "Network Passphrase", !wrong,
    if wrong then
      text "Wrong network passphrase: challenge was signed for " ++ other ++ text ", expected " ++ expected
    else text "Correct network passphrase", []⟩

/-- A check of which only two messages come. -/
def check (name : Text) (passed : Bool) (right wrong : Text) (details : List (Text × Option Text)) : ValidationCheck :=
  ⟨name, passed, if passed then right else wrong, details⟩

def signatureCheck (valid : Bool) : ValidationCheck :=
  check (text "Server Signature Validation") valid (text "Server signature is valid") (text "Invalid server signature") []

def sourceCheck : ValidationCheck :=
  check (text "Source Account") (challenge.sourceAccount == dto.serverAccountId)
    (text "Source account matches server account") (text "Source account does not match server account") []

/-- The first operation of a type that has been kept. -/
def findOperation (type : Text) : Option ChallengeOperation :=
  challenge.operations.find? (fun op => op.type = type)

/-- An empty domain counts as none. -/
def homeDomainChecks : List ValidationCheck :=
  match dto.homeDomain.filter (· ≠ []) with
  | none => []
  | some homeDomain =>
      let found := (findOperation challenge (text "manageData")).bind (·.dataName)
      [check (text "Home Domain Validation") (found == some (homeDomain ++ text " auth")) (text "Home domain matches")
        (text "Home domain does not match") [(text "expected", some homeDomain), (text "found", found)]]

def webAuthDomainChecks : List ValidationCheck :=
  match dto.webAuthDomain.filter (· ≠ []) with
  | none => []
  | some webAuthDomain =>
      let found := (findOperation challenge (text "setOptions")).bind (·.homeDomain)
      [check (text "Web Auth Domain Validation") (found == some webAuthDomain) (text "Web auth domain matches")
        (text "Web auth domain does not match") [(text "expected", some webAuthDomain), (text "found", found)]]

def parsingFailed (message : Text) : ValidationCheck :=
  ⟨text "Transaction Parsing", false, text "Failed to parse transaction: " ++ message, []⟩

/-- Whether the first signature, or none, is the server's. -/
def serverSignatureValid (transaction : Transaction) : Except Text Bool :=
  (sdk.fromPublicKey dto.serverAccountId).bind fun key =>
    sdk.verify key transaction.hash (((firstSignature challenge).map fromBase64).getD [])

/-- An error ends the checks with a failed one. -/
def performSep10Validation : List ValidationCheck :=
  let network := dto.network.getD .testnet
  let expected := passphraseOf network
  let other := if expected = PUBLIC then TESTNET else PUBLIC
  match sdk.transaction dto.challengeXdr expected with
  | .error message => [parsingFailed message]
  | .ok transaction =>
      match wrongNetwork sdk challenge dto expected other with
      | .error message => [parsingFailed message]
      | .ok wrong =>
          networkCheck expected other wrong ::
            match serverSignatureValid sdk challenge dto transaction with
            | .error message => [parsingFailed message]
            | .ok valid =>
                signatureCheck valid :: sourceCheck challenge dto ::
                  (homeDomainChecks challenge dto ++ webAuthDomainChecks challenge dto)

def validateChallenge : Except Exception (ChallengeDetails × List ValidationCheck) :=
  match parseChallenge sdk dto.challengeXdr (dto.network.getD .testnet) with
  | .error message => .error (.badRequest (text "Challenge validation failed: " ++ message))
  | .ok challenge => .ok (challenge, performSep10Validation sdk challenge dto)

end Savitools.Sep10.Challenges

namespace Savitools.Sep10.ChallengeSoundness

open Strings.CodeUnits Strings.Decimals Strings.Utf8 Strings.Base64 Common.Exceptions Challenges

def isManageData : Operation → Bool
  | .manageData _ _ _ => true
  | _ => false

def manageDataName : Operation → Option Text
  | .manageData _ name _ => some name
  | _ => none

def setOptionsDomain : Operation → Option (Option Text)
  | .setOptions _ homeDomain => some homeDomain
  | _ => none

/-- A domain that is given and not empty. -/
def given (domain : Option Text) : Option Text := domain.filter (· ≠ [])

def ValidateChallengeDto.passphrase (dto : ValidateChallengeDto) : Text := passphraseOf (dto.network.getD .testnet)

def TimeBounds.Contain (bounds : TimeBounds) (now : Nat) : Prop :=
  digitsValue bounds.minTime ≤ now ∧ now ≤ digitsValue bounds.maxTime

variable {Key : Type} (sdk : StellarSdk Key) (dto : ValidateChallengeDto) (now : Nat) (tx : Transaction)

def ServerSigned (sig : DecoratedSignature) : Prop :=
  ∃ key, sdk.fromPublicKey dto.serverAccountId = .ok key ∧ sdk.verify key tx.hash sig.signature = .ok true

/-- What a challenge must be. -/
structure Sound : Prop where
  sequence : tx.sequence = text "0"
  source : tx.source = dto.serverAccountId
  current : ∃ bounds, tx.timeBounds = some bounds ∧ TimeBounds.Contain bounds now
  first : ∃ source name value rest, tx.operations = .manageData (some source) name value :: rest ∧
    ∀ domain, given dto.homeDomain = some domain → name = domain ++ text " auth"
  others : ∀ op ∈ tx.operations.tail, isManageData op = true
  webAuth : ∀ domain, given dto.webAuthDomain = some domain →
    ∃ source, .manageData source (text "web_auth_domain") (some (textEncode domain)) ∈ tx.operations
  signed : ∃ sig ∈ tx.signatures, ServerSigned sdk dto tx sig

/-- If all checks pass, the challenge is what it must be. -/
def ValidationSound : Prop :=
  ∀ challenge checks, validateChallenge sdk dto = .ok (challenge, checks) → (∀ check ∈ checks, check.passed = true) →
    ∃ tx, sdk.transaction dto.challengeXdr (ValidateChallengeDto.passphrase dto) = .ok tx ∧ Sound sdk dto now tx

/-- What the checks look at: the first signature, the source, the name in the first operation that
manages data, and the domain in the first one that sets options. -/
structure Checked : Prop where
  signed : ∃ sig, tx.signatures.head? = some sig ∧ ServerSigned sdk dto tx sig
  source : tx.source = dto.serverAccountId
  home : ∀ domain, given dto.homeDomain = some domain →
    tx.operations.findSome? manageDataName = some (domain ++ text " auth")
  webAuth : ∀ domain, given dto.webAuthDomain = some domain →
    tx.operations.findSome? setOptionsDomain = some (some domain)

/-- What no check looks at. -/
structure Unchecked : Prop where
  sequence : tx.sequence = text "0"
  current : ∃ bounds, tx.timeBounds = some bounds ∧ TimeBounds.Contain bounds now
  first : ∃ source name value rest, tx.operations = .manageData (some source) name value :: rest
  operations : ∀ op ∈ tx.operations, isManageData op = true

section

variable {sdk dto now tx}

theorem find_manageData (ops : List Operation) :
    ((ops.filterMap parseOperation).find? (fun op => op.type = text "manageData")).bind (·.dataName) =
      ops.findSome? manageDataName := by
  induction ops with
  | nil => rfl
  | cons op ops ih =>
      cases op with
      | manageData source name value => rfl
      | setOptions source homeDomain => exact ih
      | other kind source => exact ih

theorem find_setOptions (ops : List Operation) :
    ((ops.filterMap parseOperation).find? (fun op => op.type = text "setOptions")).bind (·.homeDomain) =
      (ops.findSome? setOptionsDomain).join := by
  induction ops with
  | nil => rfl
  | cons op ops ih =>
      cases op with
      | manageData source name value => exact ih
      | setOptions source homeDomain => rfl
      | other kind source => exact ih

theorem firstSignature_details (challengeXdr passphrase : Text) :
    firstSignature (challengeDetails challengeXdr passphrase tx) = tx.signatures.head?.map (fun sig => toBase64 sig.signature) := by
  cases hsigs : tx.signatures with
  | nil => simp [firstSignature, challengeDetails, hsigs]
  | cons sig sigs => simp [firstSignature, challengeDetails, hsigs, parseSignature]

/-- The signature that is checked is the first one, as it stands in the envelope. -/
theorem serverSignatureValid_iff (hverify : ∀ key hash, sdk.verify key hash [] ≠ .ok true) (challengeXdr passphrase : Text) :
    serverSignatureValid sdk (challengeDetails challengeXdr passphrase tx) dto tx = .ok true ↔
      ∃ sig, tx.signatures.head? = some sig ∧ ServerSigned sdk dto tx sig := by
  rw [serverSignatureValid, firstSignature_details]
  cases hkey : sdk.fromPublicKey dto.serverAccountId with
  | error message => simp [ServerSigned, hkey, Except.bind]
  | ok key =>
      cases tx.signatures.head? with
      | none => simpa [Except.bind] using hverify key tx.hash
      | some sig => simp [ServerSigned, hkey, Except.bind, fromBase64_toBase64]

/-- A signature of the server over the hash for the network rules the other network out. -/
theorem wrongNetwork_of_signed {passphrase : Text} (other : Text)
    (htx : sdk.transaction dto.challengeXdr passphrase = .ok tx)
    (hsigned : ∃ sig, tx.signatures.head? = some sig ∧ ServerSigned sdk dto tx sig) :
    wrongNetwork sdk (challengeDetails dto.challengeXdr passphrase tx) dto passphrase other = .ok false := by
  obtain ⟨sig, hsig, key, hkey, hvalid⟩ := hsigned
  have hfirst := @firstSignature_details tx dto.challengeXdr passphrase
  rw [hsig, Option.map_some] at hfirst
  simp only [wrongNetwork, signedForNetwork, hfirst]
  by_cases hempty : toBase64 sig.signature = []
  · simp [hempty, Option.filter, Except.bind]
  · by_cases hpublic : sdk.isValidEd25519PublicKey dto.serverAccountId = false
    · simp [hempty, hpublic, Option.filter, Except.bind]
    · simp [hempty, hpublic, Option.filter, Except.bind, htx, hkey, fromBase64_toBase64, hvalid]

theorem homeDomainChecks_pass (challengeXdr passphrase : Text) :
    (∀ check ∈ homeDomainChecks (challengeDetails challengeXdr passphrase tx) dto, check.passed = true) ↔
      ∀ domain, given dto.homeDomain = some domain →
        tx.operations.findSome? manageDataName = some (domain ++ text " auth") := by
  have hfound : (findOperation (challengeDetails challengeXdr passphrase tx) (text "manageData")).bind (·.dataName) =
      tx.operations.findSome? manageDataName := find_manageData tx.operations
  simp only [homeDomainChecks, hfound]
  rw [← given]
  cases given dto.homeDomain with
  | none => exact iff_of_true (List.forall_mem_nil _) (by simp)
  | some domain =>
      rw [List.forall_mem_singleton, check, beq_iff_eq]
      exact ⟨fun h _ hdomain => Option.some.inj hdomain ▸ h, fun h => h domain rfl⟩

theorem webAuthDomainChecks_pass (challengeXdr passphrase : Text) :
    (∀ check ∈ webAuthDomainChecks (challengeDetails challengeXdr passphrase tx) dto, check.passed = true) ↔
      ∀ domain, given dto.webAuthDomain = some domain →
        tx.operations.findSome? setOptionsDomain = some (some domain) := by
  have hfound : (findOperation (challengeDetails challengeXdr passphrase tx) (text "setOptions")).bind (·.homeDomain) =
      (tx.operations.findSome? setOptionsDomain).join := find_setOptions tx.operations
  simp only [webAuthDomainChecks, hfound]
  rw [← given]
  cases given dto.webAuthDomain with
  | none => exact iff_of_true (List.forall_mem_nil _) (by simp)
  | some domain =>
      rw [List.forall_mem_singleton, check, beq_iff_eq, Option.join_eq_some_iff]
      exact ⟨fun h _ hdomain => Option.some.inj hdomain ▸ h, fun h => h domain rfl⟩

theorem checks_pass_iff (hverify : ∀ key hash, sdk.verify key hash [] ≠ .ok true)
    (htx : sdk.transaction dto.challengeXdr (ValidateChallengeDto.passphrase dto) = .ok tx) :
    (∀ check ∈ performSep10Validation sdk
        (challengeDetails dto.challengeXdr (ValidateChallengeDto.passphrase dto) tx) dto, check.passed = true) ↔
      Checked sdk dto tx := by
  have hsignature := @serverSignatureValid_iff _ sdk dto tx hverify dto.challengeXdr (ValidateChallengeDto.passphrase dto)
  have hfailed (message : Text) : ¬∀ check ∈ [parsingFailed message], check.passed = true := by simp [parsingFailed]
  constructor
  · intro hpass
    simp only [performSep10Validation] at hpass
    rw [← ValidateChallengeDto.passphrase, htx] at hpass
    simp only at hpass
    split at hpass
    next message _ => exact absurd hpass (hfailed message)
    next wrong _ =>
      obtain ⟨-, hpass⟩ := List.forall_mem_cons.mp hpass
      split at hpass
      next message _ => exact absurd hpass (hfailed message)
      next valid hvalid =>
        obtain ⟨hsigned, hpass⟩ := List.forall_mem_cons.mp hpass
        obtain ⟨hsource, hpass⟩ := List.forall_mem_cons.mp hpass
        obtain ⟨hhome, hweb⟩ := List.forall_mem_append.mp hpass
        have hvalid' : valid = true := hsigned
        rw [hvalid'] at hvalid
        exact ⟨hsignature.mp hvalid, eq_of_beq hsource, (homeDomainChecks_pass _ _).mp hhome,
          (webAuthDomainChecks_pass _ _).mp hweb⟩
  · rintro ⟨hsigned, hsource, hhome, hweb⟩
    simp only [performSep10Validation]
    rw [← ValidateChallengeDto.passphrase, htx]
    simp only [wrongNetwork_of_signed _ htx hsigned, hsignature.mpr hsigned]
    refine List.forall_mem_cons.mpr ⟨rfl, List.forall_mem_cons.mpr ⟨rfl, List.forall_mem_cons.mpr ⟨?_, ?_⟩⟩⟩
    · exact beq_iff_eq.mpr hsource
    · exact List.forall_mem_append.mpr ⟨(homeDomainChecks_pass _ _).mpr hhome, (webAuthDomainChecks_pass _ _).mpr hweb⟩

/-- Where a web auth domain is asked for, an operation that sets options must carry it, so that the
challenge cannot be sound; elsewhere it is sound when what is not checked is in order. -/
theorem sound_iff (h : Checked sdk dto tx) :
    Sound sdk dto now tx ↔ given dto.webAuthDomain = none ∧ Unchecked now tx := by
  constructor
  · rintro ⟨hsequence, -, hcurrent, ⟨source, name, value, rest, hops, -⟩, hothers, -, -⟩
    have hall : ∀ op ∈ tx.operations, isManageData op = true := by
      rw [hops] at hothers ⊢
      exact List.forall_mem_cons.mpr ⟨rfl, hothers⟩
    refine ⟨?_, hsequence, hcurrent, ⟨source, name, value, rest, hops⟩, hall⟩
    rw [Option.eq_none_iff_forall_ne_some]
    intro domain hdomain
    obtain ⟨op, hop, hset⟩ := List.exists_of_findSome?_eq_some (h.webAuth domain hdomain)
    have hmanage := hall op hop
    cases op with
    | manageData source name value => cases hset
    | setOptions source homeDomain => cases hmanage
    | other kind source => cases hmanage
  · rintro ⟨hnone, hsequence, hcurrent, ⟨source, name, value, rest, hops⟩, hall⟩
    obtain ⟨sig, hsig, hsigned⟩ := h.signed
    refine ⟨hsequence, h.source, hcurrent, ⟨source, name, value, rest, hops, fun domain hdomain => ?_⟩,
      fun op hop => hall op (List.mem_of_mem_tail hop), ?_, sig, List.mem_of_head? hsig, hsigned⟩
    · have hhome := h.home domain hdomain
      rw [hops] at hhome
      exact Option.some.inj hhome
    · rw [hnone]
      exact fun _ => nofun

end

/-- Validation is sound exactly for the inputs that a check turns down, or for which nothing is
wrong with what no check looks at. -/
theorem validation_sound_iff (hverify : ∀ key hash, sdk.verify key hash [] ≠ .ok true) :
    ValidationSound sdk dto now ↔
      ∀ tx, sdk.transaction dto.challengeXdr (ValidateChallengeDto.passphrase dto) = .ok tx → Checked sdk dto tx →
        given dto.webAuthDomain = none ∧ Unchecked now tx := by
  rw [ValidationSound]
  have hvalidate {tx : Transaction} (htx : sdk.transaction dto.challengeXdr (ValidateChallengeDto.passphrase dto) = .ok tx) :
      validateChallenge sdk dto =
        .ok (challengeDetails dto.challengeXdr (ValidateChallengeDto.passphrase dto) tx,
          performSep10Validation sdk (challengeDetails dto.challengeXdr (ValidateChallengeDto.passphrase dto) tx) dto) := by
    rw [validateChallenge, parseChallenge, ← ValidateChallengeDto.passphrase, htx]
    rfl
  constructor
  · intro hsound tx htx hchecked
    obtain ⟨tx', htx', h⟩ := hsound _ _ (hvalidate htx) ((checks_pass_iff hverify htx).mpr hchecked)
    obtain rfl := Except.ok.inj (htx.symm.trans htx')
    exact (sound_iff hchecked).mp h
  · intro hall challenge checks hresult hpass
    cases htx : sdk.transaction dto.challengeXdr (ValidateChallengeDto.passphrase dto) with
    | error message =>
        rw [validateChallenge, parseChallenge, ← ValidateChallengeDto.passphrase, htx] at hresult
        cases hresult
    | ok tx =>
        rw [hvalidate htx] at hresult
        obtain ⟨rfl, rfl⟩ := Prod.mk.inj (Except.ok.inj hresult)
        have hchecked := (checks_pass_iff hverify htx).mp hpass
        exact ⟨tx, rfl, (sound_iff hchecked).mpr (hall tx htx hchecked)⟩

def serverKey : Text := unit 'G' :: List.replicate 55 (unit 'A')

/-- A challenge of the server with this sequence number, signed by it. -/
def signedChallenge (sequence : Text) : Transaction where
  source := serverKey
  sequence := sequence
  fee := text "100"
  memo := (text "none", none)
  timeBounds := some ⟨text "1000", text "1300"⟩
  operations := [.manageData (some serverKey) (text "a.io auth") none]
  signatures := [⟨[1, 2, 3, 4], List.replicate 64 7⟩]
  hash := List.replicate 32 9

/-- The SDK as it acts on one envelope and the signatures of one key. -/
def envelopeSdk (tx : Transaction) : StellarSdk Unit where
  transaction xdr _ := if xdr = text "AAAAAg==" then .ok tx else .error (text "Invalid XDR")
  isValidEd25519PublicKey key := key = serverKey
  fromPublicKey key := if key = serverKey then .ok () else .error (text "invalid encoded string")
  verify _ hash signature :=
    if signature.length = 64 then .ok (hash = List.replicate 32 9 && signature = List.replicate 64 7)
    else .error (text "bad signature size")

def challengeDto : ValidateChallengeDto := ⟨text "AAAAAg==", serverKey, none, some (text "a.io"), none⟩

theorem verify_envelopeSdk (tx : Transaction) (key : Unit) (hash : Bytes) :
    (envelopeSdk tx).verify key hash [] ≠ .ok true := nofun

theorem checked_signedChallenge (sequence : Text) :
    Checked (envelopeSdk (signedChallenge sequence)) challengeDto (signedChallenge sequence) where
  signed := ⟨_, rfl, (), rfl, rfl⟩
  source := rfl
  home domain hdomain := by
    cases hdomain
    rfl
  webAuth _ hdomain := nomatch hdomain

theorem signedChallenge_sound : ValidationSound (envelopeSdk (signedChallenge (text "0"))) challengeDto 1200 := by
  refine (validation_sound_iff _ _ 1200 (verify_envelopeSdk _)).mpr fun tx htx _ => ⟨rfl, ?_⟩
  obtain rfl : signedChallenge (text "0") = tx := Except.ok.inj htx
  exact ⟨rfl, ⟨_, rfl, by decide, by decide⟩, ⟨_, _, _, _, rfl⟩, List.forall_mem_singleton.mpr rfl⟩

/-- A transaction with a sequence number of its own, which could be sent, passes all checks. -/
theorem not_validation_sound : ¬∀ (Key : Type) (sdk : StellarSdk Key) (dto : ValidateChallengeDto) (now : Nat),
    (∀ key hash, sdk.verify key hash [] ≠ .ok true) → ValidationSound sdk dto now := by
  intro h
  have hsound := h Unit (envelopeSdk (signedChallenge (text "5"))) challengeDto 1200 (verify_envelopeSdk _)
  obtain ⟨tx, htx, htxsound⟩ := hsound _ _ rfl
    ((checks_pass_iff (verify_envelopeSdk _) rfl).mpr (checked_signedChallenge (text "5")))
  obtain rfl : signedChallenge (text "5") = tx := Except.ok.inj htx
  exact absurd htxsound.sequence (by decide)

end Savitools.Sep10.ChallengeSoundness
