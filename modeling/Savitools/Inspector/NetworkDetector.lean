import Savitools.Common.Exceptions

namespace Savitools.Inspector.NetworkDetector

open Strings.CodeUnits Common.Exceptions

inductive Network
  | mainnet
  | testnet
deriving DecidableEq

inductive DetectedNetwork
  | mainnet
  | testnet
  | unknown
  | ambiguous
deriving DecidableEq

inductive Confidence
  | cryptographic
  | none
  | conflict
deriving DecidableEq

structure NetworkDetection where
  network : DetectedNetwork
  signed : Bool
  confidence : Confidence

inductive MuxedAccount (Key : Type)
  | plain (key : Key)
  | muxed (key : Key) (id : BitVec 64)

/-- An envelope, over what else its transaction says. -/
inductive Envelope (Key Signature Body : Type)
  | v0 (source : Key) (body : Body) (signatures : List Signature)
  | v1 (source : MuxedAccount Key) (body : Body) (signatures : List Signature)
  | feeBump (feeSource : MuxedAccount Key) (body : Body) (signatures : List Signature)

/-- What is read of an object that the SDK makes of an envelope. -/
structure Transaction (Signature Hash : Type) where
  source : Option Text
  signatures : Option (List Signature)
  hash : Hash

/-- What is used of the SDK. Where it throws, the message is given. -/
structure Sdk (Key Signature Hash Body : Type) where
  passphrase : Network → Text
  fromXDR : Text → Text → Except Text (Transaction Signature Hash)
  fromPublicKey : Option Text → Except Text Key
  verify : Key → Hash → Signature → Except Text Bool
  hash : Text → Envelope Key Signature Body → Hash
  address : MuxedAccount Key → Text

variable {Key Signature Hash Body : Type} (sdk : Sdk Key Signature Hash Body)

/-- Whether a signature of the transaction is by its source; the first that is not well formed throws. -/
def isSigned (transaction : Transaction Signature Hash) : Except Text Bool :=
  (sdk.fromPublicKey transaction.source).bind fun keypair =>
    (transaction.signatures.getD []).anyM (sdk.verify keypair transaction.hash)

/-- What is tried for a network adds to the networks that match and to whether there are signatures. -/
def tryNetwork (rawXdr : Text) (found : List Network × Bool) (network : Network) : List Network × Bool :=
  match sdk.fromXDR rawXdr (sdk.passphrase network) with
  | .error _ => found
  | .ok transaction =>
      if transaction.signatures.getD [] = [] then found
      else
        match isSigned sdk transaction with
        | .ok true => (found.1 ++ [network], true)
        | _ => (found.1, true)

def detectTransactionNetwork (rawXdr : Text) : NetworkDetection :=
  match [Network.mainnet, Network.testnet].foldl (tryNetwork sdk rawXdr) ([], false) with
  | ([.mainnet], _) => ⟨.mainnet, true, .cryptographic⟩
  | ([.testnet], _) => ⟨.testnet, true, .cryptographic⟩
  | ([], signed) => ⟨.unknown, signed, .none⟩
  | (_, _) => ⟨.ambiguous, true, .conflict⟩

end Savitools.Inspector.NetworkDetector

namespace Savitools.Inspector.DetectedNetworks

open Strings.CodeUnits Common.Exceptions NetworkDetector

variable {Key Signature Hash Body : Type}

def key : MuxedAccount Key → Key
  | .plain key | .muxed key _ => key

/-- The key of the account that pays for an envelope. -/
def payingKey : Envelope Key Signature Body → Key
  | .v0 source _ _ => source
  | .v1 source _ _ => key source
  | .feeBump feeSource _ _ => key feeSource

def signatures : Envelope Key Signature Body → List Signature
  | .v0 _ _ signatures | .v1 _ _ signatures | .feeBump _ _ signatures => signatures

/-- The objects of the SDK have a source, but for those of fee bumps, which have a fee source. -/
def sourceText (address : MuxedAccount Key → Text) : Envelope Key Signature Body → Option Text
  | .v0 source _ _ => some (address (.plain source))
  | .v1 source _ _ => some (address source)
  | .feeBump .. => none

/-- The envelope is paid for by the source of its own transaction, by its plain key. -/
def HasPlainSource : Envelope Key Signature Body → Prop
  | .v0 .. | .v1 (.plain _) .. => True
  | .v1 (.muxed ..) .. | .feeBump .. => False

/-- What the SDK does: only texts of plain keys are read as keys. -/
structure Documented (sdk : Sdk Key Signature Hash Body) : Prop where
  missing : ∃ message, sdk.fromPublicKey none = .error message
  plain : ∀ key, sdk.fromPublicKey (some (sdk.address (.plain key))) = .ok key
  muxed : ∀ key id, ∃ message, sdk.fromPublicKey (some (sdk.address (.muxed key id))) = .error message

/-- The text is that of an envelope. -/
def IsText (sdk : Sdk Key Signature Hash Body) (envelope : Envelope Key Signature Body) (rawXdr : Text) : Prop :=
  ∀ passphrase, sdk.fromXDR rawXdr passphrase =
    .ok ⟨sourceText sdk.address envelope, some (signatures envelope), sdk.hash passphrase envelope⟩

/-- A signature is by the paying account, for the hash of a network. -/
def Verifies (sdk : Sdk Key Signature Hash Body) (envelope : Envelope Key Signature Body) (network : Network)
    (signature : Signature) : Prop :=
  sdk.verify (payingKey envelope) (sdk.hash (sdk.passphrase network) envelope) signature = .ok true

/-- The network that is told is the one that there are signatures for. -/
structure Tells (network : DetectedNetwork) (forMainnet forTestnet : Prop) : Prop where
  mainnet : network = .mainnet ↔ forMainnet ∧ ¬forTestnet
  testnet : network = .testnet ↔ forTestnet ∧ ¬forMainnet
  ambiguous : network = .ambiguous ↔ forMainnet ∧ forTestnet
  unknown : network = .unknown ↔ ¬forMainnet ∧ ¬forTestnet

/-- No signature throws before the first that verifies. -/
def FoundFirst (sdk : Sdk Key Signature Hash Body) (envelope : Envelope Key Signature Body) (network : Network) : Prop :=
  ∃ before signature after, signatures envelope = before ++ signature :: after ∧ Verifies sdk envelope network signature ∧
    ∀ other ∈ before, sdk.verify (payingKey envelope) (sdk.hash (sdk.passphrase network) envelope) other = .ok false

variable {sdk : Sdk Key Signature Hash Body} {envelope : Envelope Key Signature Body} {rawXdr : Text}

/-- The object of the SDK that an envelope is read as. -/
def objectOf (sdk : Sdk Key Signature Hash Body) (envelope : Envelope Key Signature Body) (network : Network) :
    Transaction Signature Hash :=
  ⟨sourceText sdk.address envelope, some (signatures envelope), sdk.hash (sdk.passphrase network) envelope⟩

theorem isSigned_iff (hsdk : Documented sdk) (network : Network) :
    isSigned sdk (objectOf sdk envelope network) = .ok true ↔ HasPlainSource envelope ∧ FoundFirst sdk envelope network := by
  have hplain : ∀ plain, sdk.fromPublicKey (sourceText sdk.address envelope) = .ok plain → plain = payingKey envelope →
      (isSigned sdk (objectOf sdk envelope network) = .ok true ↔ FoundFirst sdk envelope network) := by
    intro plain hkey hpaying
    simp only [isSigned, objectOf, hkey, Except.bind, Option.getD_some, anyM_eq_ok_true, hpaying]
    constructor
    · rintro ⟨before, signature, after, hsplit, hbefore, hsignature⟩
      exact ⟨before, signature, after, hsplit, hsignature, hbefore⟩
    · rintro ⟨before, signature, after, hsplit, hsignature, hbefore⟩
      exact ⟨before, signature, after, hsplit, hbefore, hsignature⟩
  have hnone : ∀ message, sdk.fromPublicKey (sourceText sdk.address envelope) = .error message →
      isSigned sdk (objectOf sdk envelope network) ≠ .ok true := by
    intro message hkey hsigned
    rw [isSigned, objectOf, hkey] at hsigned
    cases hsigned
  cases envelope with
  | v0 source body signatures => rw [hplain source (hsdk.plain source) rfl, HasPlainSource, true_and]
  | v1 source body signatures =>
      cases source with
      | plain source => rw [hplain source (hsdk.plain source) rfl, HasPlainSource, true_and]
      | muxed source id =>
          obtain ⟨message, hmessage⟩ := hsdk.muxed source id
          exact iff_of_false (hnone message hmessage) fun h => h.1
  | feeBump feeSource body signatures =>
      obtain ⟨message, hmessage⟩ := hsdk.missing
      exact iff_of_false (hnone message hmessage) fun h => h.1

theorem tryNetwork_eq (htext : IsText sdk envelope rawXdr) (found : List Network × Bool) (network : Network) :
    (tryNetwork sdk rawXdr found network).1 =
      if isSigned sdk (objectOf sdk envelope network) = .ok true then found.1 ++ [network] else found.1 := by
  have hread : sdk.fromXDR rawXdr (sdk.passphrase network) = .ok (objectOf sdk envelope network) := htext _
  rw [tryNetwork, hread]
  simp only
  split
  next hempty =>
    refine (if_neg fun hsigned => ?_).symm
    obtain ⟨keypair, -, hany⟩ := bind_eq_ok.mp hsigned
    rw [hempty] at hany
    cases hany
  next =>
    split
    next hsigned => rw [if_pos hsigned]
    next hother => rw [if_neg fun hsigned => hother hsigned]

/-- What is told depends on which of the two networks match. -/
theorem tells_iff (htext : IsText sdk envelope rawXdr) (forMainnet forTestnet : Prop) :
    Tells (detectTransactionNetwork sdk rawXdr).network forMainnet forTestnet ↔
      (isSigned sdk (objectOf sdk envelope .mainnet) = .ok true ↔ forMainnet) ∧
        (isSigned sdk (objectOf sdk envelope .testnet) = .ok true ↔ forTestnet) := by
  have hfold : ([Network.mainnet, Network.testnet].foldl (tryNetwork sdk rawXdr) ([], false)).1 =
      (if isSigned sdk (objectOf sdk envelope .mainnet) = .ok true then [Network.mainnet] else []) ++
        (if isSigned sdk (objectOf sdk envelope .testnet) = .ok true then [Network.testnet] else []) := by
    simp only [List.foldl_cons, List.foldl_nil, tryNetwork_eq htext, List.nil_append]
    split <;> split <;> rfl
  rw [detectTransactionNetwork]
  generalize [Network.mainnet, Network.testnet].foldl (tryNetwork sdk rawXdr) ([], false) = found at hfold
  obtain ⟨networks, signed⟩ := found
  simp only at hfold
  by_cases hmainnet : isSigned sdk (objectOf sdk envelope .mainnet) = .ok true <;>
    by_cases htestnet : isSigned sdk (objectOf sdk envelope .testnet) = .ok true
  all_goals
    simp only [hmainnet, htestnet, if_true, if_false, List.append_nil, List.nil_append, List.singleton_append] at hfold
    subst hfold
    constructor
    · rintro ⟨hm, ht, ha, hu⟩
      simp only [reduceCtorEq, true_iff, false_iff] at hm ht ha hu
      tauto
    · rintro ⟨hm, ht⟩
      constructor <;> simp only [reduceCtorEq, true_iff, false_iff] <;> tauto

/-- The network is told rightly exactly when, for each network with a signature that verifies, the envelope has a plain
source and no signature in front of the first that verifies throws. -/
theorem detectTransactionNetwork_iff (hsdk : Documented sdk) (htext : IsText sdk envelope rawXdr) :
    Tells (detectTransactionNetwork sdk rawXdr).network
        (∃ signature ∈ signatures envelope, Verifies sdk envelope .mainnet signature)
        (∃ signature ∈ signatures envelope, Verifies sdk envelope .testnet signature) ↔
      ∀ network, (∃ signature ∈ signatures envelope, Verifies sdk envelope network signature) →
        HasPlainSource envelope ∧ FoundFirst sdk envelope network := by
  have hfound : ∀ network, FoundFirst sdk envelope network →
      ∃ signature ∈ signatures envelope, Verifies sdk envelope network signature := by
    rintro network ⟨before, signature, after, hsplit, hverifies, -⟩
    exact ⟨signature, hsplit ▸ List.mem_append_right _ List.mem_cons_self, hverifies⟩
  rw [tells_iff htext, isSigned_iff hsdk, isSigned_iff hsdk]
  constructor
  · rintro ⟨hmainnet, htestnet⟩ network
    cases network with
    | mainnet => exact hmainnet.mpr
    | testnet => exact htestnet.mpr
  · intro h
    exact ⟨⟨fun hsigned => hfound _ hsigned.2, h .mainnet⟩, ⟨fun hsigned => hfound _ hsigned.2, h .testnet⟩⟩

def networkPassphrase : Network → Text
  | .mainnet => text "Public Global Stellar Network ; September 2015"
  | .testnet => text "Test SDF Network ; September 2015"

def sampleAddress : MuxedAccount Text → Text
  | .plain key => unit 'G' :: key
  | .muxed key _ => unit 'M' :: key

/-- An SDK that reads each text as this envelope. A signature is its key and what is signed. -/
def sampleSdk (envelope : Envelope Text Text Unit) : Sdk Text Text Text Unit where
  passphrase := networkPassphrase
  fromXDR _ passphrase := .ok ⟨sourceText sampleAddress envelope, some (signatures envelope), passphrase⟩
  fromPublicKey
    | some (u :: key) => if u = unit 'G' then .ok key else .error (text "invalid version byte. expected 48, got 96")
    | _ => .error (text "invalid encoded string")
  verify key hash signature := if signature = [] then .error (text "bad signature size") else .ok (signature == key ++ hash)
  hash passphrase _ := passphrase
  address := sampleAddress

theorem sample_documented (envelope : Envelope Text Text Unit) : Documented (sampleSdk envelope) where
  missing := ⟨_, rfl⟩
  plain _ := rfl
  muxed _ _ := ⟨_, rfl⟩

def signedPayment : Envelope Text Text Unit :=
  .v1 (.plain (text "AB")) () [text "by another key", text "AB" ++ networkPassphrase .testnet]

theorem detectTransactionNetwork_payment : Tells (detectTransactionNetwork (sampleSdk signedPayment) (text "AAAA")).network
    (∃ signature ∈ signatures signedPayment, Verifies (sampleSdk signedPayment) signedPayment .mainnet signature)
    (∃ signature ∈ signatures signedPayment, Verifies (sampleSdk signedPayment) signedPayment .testnet signature) := by
  refine (detectTransactionNetwork_iff (sample_documented signedPayment) fun _ => rfl).mpr fun network hsigned => ?_
  refine ⟨trivial, [text "by another key"], text "AB" ++ networkPassphrase .testnet, [], rfl, ?_⟩
  cases network with
  | mainnet =>
      obtain ⟨signature, hmem, hverifies⟩ := hsigned
      have hnone : (signatures signedPayment).all (· != text "AB" ++ networkPassphrase .mainnet) = true := by decide
      have hne : (signature != text "AB" ++ networkPassphrase .mainnet) = true := List.all_eq_true.mp hnone signature hmem
      refine absurd ?_ (bne_iff_ne.mp hne)
      have hverify : (if signature = [] then .error (text "bad signature size")
          else .ok (signature == text "AB" ++ networkPassphrase .mainnet) : Except Text Bool) = .ok true := hverifies
      split at hverify
      next => cases hverify
      next => exact eq_of_beq (Except.ok.inj hverify)
  | testnet => exact ⟨rfl, List.forall_mem_singleton.mpr rfl⟩

/-- A fee bump that its fee source signed is not told to be for any network. -/
theorem not_detectTransactionNetwork : ¬∀ envelope : Envelope Text Text Unit,
    Tells (detectTransactionNetwork (sampleSdk envelope) (text "AAAA")).network
      (∃ signature ∈ signatures envelope, Verifies (sampleSdk envelope) envelope .mainnet signature)
      (∃ signature ∈ signatures envelope, Verifies (sampleSdk envelope) envelope .testnet signature) := by
  intro h
  have htells := (h (.feeBump (.plain (text "AB")) () [text "AB" ++ networkPassphrase .testnet])).unknown.mp (by decide)
  exact htells.2 ⟨_, List.mem_cons_self, rfl⟩

end Savitools.Inspector.DetectedNetworks
