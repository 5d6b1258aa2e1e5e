import Savitools.Json.Values
import Savitools.Strings.Decimals
import Mathlib.Logic.Nontrivial.Defs
import Savitools.Json.RoundTrip

namespace Savitools.Inspector.AuthEntries

open Strings.CodeUnits Strings.Decimals Json.Values

/-- The credentials of an authorization entry, over the types of addresses and of signatures. -/
inductive SorobanCredentials (A S : Type)
  | sorobanCredentialsSourceAccount
  | sorobanCredentialsAddress (address : A) (nonce : Int) (signatureExpirationLedger : Nat) (signature : S)

def SorobanCredentials.switch {A S : Type} : SorobanCredentials A S → Text
  | .sorobanCredentialsSourceAccount => text "sorobanCredentialsSourceAccount"
  | .sorobanCredentialsAddress .. => text "sorobanCredentialsAddress"

/-- An entry, over any type for the trees of invocations. -/
structure SorobanAuthorizationEntry (A S I : Type) where
  credentials : SorobanCredentials A S
  rootInvocation : I

structure SanitizedEntry where
  credentialsType : Option Text
  xdr : Text
  error : Option Text
deriving DecidableEq

/-- The root invocation is told as an empty object, or not at all. -/
structure DecodedAuthorizationEntry where
  credentials : Option Text
  hasRootInvocation : Bool
  diagnostics : List Text
  sanitized : SanitizedEntry

structure AuthorizationEntryInspection where
  entries : List DecodedAuthorizationEntry
  diagnostics : List Text
  currentLedger : Option Nat

structure SanitizedAuthorizationEntry where
  entries : List SanitizedEntry
  diagnostics : List Text
deriving DecidableEq

variable {A S I N : Type} (fromXDR : Text → Except Text (SorobanAuthorizationEntry A S I))

def decodeAuthorizationEntry (xdrBase64 : Text) : DecodedAuthorizationEntry :=
  match fromXDR xdrBase64 with
  | .ok entry =>
      { credentials := some entry.credentials.switch
        hasRootInvocation := true
        diagnostics := []
        sanitized := ⟨some entry.credentials.switch, xdrBase64, none⟩ }
  | .error message =>
      { credentials := none
        hasRootInvocation := false
        diagnostics := [text "Failed to parse authorization entry: " ++ message]
        sanitized := ⟨none, xdrBase64, some message⟩ }

def stringItems (items : List (Value N)) : List Text :=
  items.filterMap fun item => match item with
    | .str t => some t
    | _ => none

/-- A member that is a string with something in it, or the strings of a member that is an array. -/
def candidates (fields : List (Text × Value N)) (name : Text) : List Text :=
  match fields.lookup name with
  | some (.str t) => if t = [] then [] else [t]
  | _ => []

def arrayCandidates (fields : List (Text × Value N)) (name : Text) : List Text :=
  match fields.lookup name with
  | some (.arr items) => (stringItems items).filter (· ≠ [])
  | _ => []

def collectAuthorizationEntryXdr : Value N → List Text × List Text
  | .str t => ([t], [])
  | .arr items => (stringItems items, [])
  | .obj fields =>
      let found := candidates fields (text "authXdr") ++ candidates fields (text "auth") ++ candidates fields (text "xdr") ++
        arrayCandidates fields (text "auth") ++ arrayCandidates fields (text "entries")
      (found, if found = [] then [text "No authorization entry XDR found in provided object."] else [])
  | _ => ([], [text "Unsupported input type for authorization entry inspection."])

def inspectAuthorizationEntries (input : Value N) (currentLedger : Option Nat) : AuthorizationEntryInspection :=
  let (rawEntries, diagnostics) := collectAuthorizationEntryXdr input
  let entries := rawEntries.map (decodeAuthorizationEntry fromXDR)
  { entries := entries
    diagnostics := diagnostics ++ entries.zipIdx.flatMap fun (entry, i) =>
      entry.diagnostics.map fun d => text "entry[" ++ ofNat i ++ text "]: " ++ d
    currentLedger := currentLedger }

def sanitizeAuthorizationEntries (inspection : AuthorizationEntryInspection) : SanitizedAuthorizationEntry :=
  ⟨inspection.entries.map (·.sanitized), inspection.diagnostics⟩

def exportAuthEntries (xdr : Value N) (ledger : Option Nat) : SanitizedAuthorizationEntry :=
  sanitizeAuthorizationEntries (inspectAuthorizationEntries fromXDR xdr ledger)

end Savitools.Inspector.AuthEntries

namespace Savitools.Inspector.AuthSignatures

open Strings.CodeUnits Strings.Decimals Json.Numbers Json.Values Json.Reading Json.Writing Json.RoundTrip
  AuthEntries

variable {A S I : Type}

/-- The entry without what its credentials are signed with. -/
def unsigned (entry : SorobanAuthorizationEntry A S I) : SorobanAuthorizationEntry A Unit I :=
  { credentials :=
      match entry.credentials with
      | .sorobanCredentialsSourceAccount => .sorobanCredentialsSourceAccount
      | .sorobanCredentialsAddress address nonce ledger _ => .sorobanCredentialsAddress address nonce ledger ()
    rootInvocation := entry.rootInvocation }

def HasSignature (entry : SorobanAuthorizationEntry A S I) : Prop :=
  entry.credentials ≠ .sorobanCredentialsSourceAccount

/-- What a caller hands over: the entries as texts. -/
def handed (toXDR : SorobanAuthorizationEntry A S I → Text) (entries : List (SorobanAuthorizationEntry A S I)) :
    Value Number :=
  .arr (entries.map fun entry => .str (toXDR entry))

/-- The export of the entries is that of all lists that differ from them in signatures only. -/
def Independent (fromXDR : Text → Except Text (SorobanAuthorizationEntry A S I))
    (toXDR : SorobanAuthorizationEntry A S I → Text) (ledger : Option Nat)
    (entries : List (SorobanAuthorizationEntry A S I)) : Prop :=
  ∀ others, others.map unsigned = entries.map unsigned →
    exportAuthEntries fromXDR (handed toXDR others) ledger = exportAuthEntries fromXDR (handed toXDR entries) ledger

variable {fromXDR : Text → Except Text (SorobanAuthorizationEntry A S I)} {toXDR : SorobanAuthorizationEntry A S I → Text}

theorem stringItems_texts (ts : List Text) : stringItems (ts.map fun t => (.str t : Value Number)) = ts := by
  rw [stringItems, List.filterMap_map]
  exact List.filterMap_some

theorem xdr_decodeAuthorizationEntry (xdrBase64 : Text) :
    (decodeAuthorizationEntry fromXDR xdrBase64).sanitized.xdr = xdrBase64 := by
  rw [decodeAuthorizationEntry]
  split <;> rfl

/-- The texts of the entries are in the export as they were handed over. -/
theorem xdr_exportAuthEntries (ledger : Option Nat) (entries : List (SorobanAuthorizationEntry A S I)) :
    (exportAuthEntries fromXDR (handed toXDR entries) ledger).entries.map (·.xdr) = entries.map toXDR := by
  have hitems : stringItems (entries.map fun entry => (.str (toXDR entry) : Value Number)) = entries.map toXDR := by
    have htexts := stringItems_texts (entries.map toXDR)
    rwa [List.map_map] at htexts
  simp only [exportAuthEntries, sanitizeAuthorizationEntries, inspectAuthorizationEntries, handed,
    collectAuthorizationEntryXdr, hitems, List.map_map]
  exact List.map_congr_left fun entry _ => xdr_decodeAuthorizationEntry (toXDR entry)

theorem eq_of_unsigned {entry other : SorobanAuthorizationEntry A S I} (hentry : ¬HasSignature entry)
    (h : unsigned other = unsigned entry) : other = entry := by
  obtain ⟨credentials, invocation⟩ := entry
  obtain ⟨others, otherInvocation⟩ := other
  cases not_not.mp hentry
  cases others with
  | sorobanCredentialsSourceAccount =>
      cases h
      rfl
  | sorobanCredentialsAddress address nonce ledger signature => cases h

/-- Another signature for an entry that has one. -/
theorem exists_resigned [Nontrivial S] {entry : SorobanAuthorizationEntry A S I} (hentry : HasSignature entry) :
    ∃ other, unsigned other = unsigned entry ∧ other ≠ entry := by
  obtain ⟨credentials, invocation⟩ := entry
  cases credentials with
  | sorobanCredentialsSourceAccount => exact absurd rfl hentry
  | sorobanCredentialsAddress address nonce ledger signature =>
      obtain ⟨other, hne⟩ := exists_ne signature
      refine ⟨⟨.sorobanCredentialsAddress address nonce ledger other, invocation⟩, rfl, fun h => hne ?_⟩
      cases h
      rfl

/-- The export does not depend on the signatures of the entries exactly when they have none. -/
theorem export_independent_iff [Nontrivial S] (fromXDR : Text → Except Text (SorobanAuthorizationEntry A S I))
    (toXDR : SorobanAuthorizationEntry A S I → Text) (hinjective : Function.Injective toXDR) (ledger : Option Nat)
    (entries : List (SorobanAuthorizationEntry A S I)) :
    Independent fromXDR toXDR ledger entries ↔ ∀ entry ∈ entries, ¬HasSignature entry := by
  constructor
  · intro h entry hentry hsigned
    obtain ⟨before, after, rfl⟩ := List.append_of_mem hentry
    obtain ⟨other, hunsigned, hne⟩ := exists_resigned hsigned
    have hothers : (before ++ other :: after).map unsigned = (before ++ entry :: after).map unsigned := by
      simp only [List.map_append, List.map_cons, hunsigned]
    have hxdr := congrArg (fun exported => exported.entries.map (·.xdr)) (h _ hothers)
    simp only [xdr_exportAuthEntries, List.map_append, List.map_cons, List.append_cancel_left_eq, List.cons.injEq,
      and_true] at hxdr
    exact hne (hinjective hxdr)
  · intro h others hothers
    have heq : others = entries := by
      induction entries generalizing others with
      | nil => exact List.map_eq_nil_iff.mp hothers
      | cons entry entries ih =>
          obtain ⟨other, rest, rfl, hfirst, hrest⟩ := List.map_eq_cons_iff.mp hothers
          rw [eq_of_unsigned (h entry List.mem_cons_self) hfirst,
            ih (fun e he => h e (List.mem_cons_of_mem _ he)) rest hrest]
    rw [heq]

abbrev SampleEntry := SorobanAuthorizationEntry Text Text Text

def sampleFields (entry : SampleEntry) : List (Value Number) :=
  match entry.credentials with
  | .sorobanCredentialsSourceAccount => [.str entry.rootInvocation]
  | .sorobanCredentialsAddress address nonce ledger signature =>
      [.str address, .bool (nonce < 0), .str (ofNat nonce.natAbs), .str (ofNat ledger), .str signature,
        .str entry.rootInvocation]

def sampleXDR (entry : SampleEntry) : Text := stringify (.arr (sampleFields entry))

theorem sampleFields_injective : Function.Injective sampleFields := by
  have hofNat {a b : Nat} (h : ofNat a = ofNat b) : a = b := by
    rw [← digitsValue_ofNat a, h, digitsValue_ofNat]
  rintro ⟨credentials, invocation⟩ ⟨others, otherInvocation⟩ h
  cases credentials with
  | sorobanCredentialsSourceAccount =>
      cases others with
      | sorobanCredentialsSourceAccount =>
          cases h
          rfl
      | sorobanCredentialsAddress address nonce ledger signature => cases h
  | sorobanCredentialsAddress address nonce ledger signature =>
      cases others with
      | sorobanCredentialsSourceAccount => cases h
      | sorobanCredentialsAddress address' nonce' ledger' signature' =>
          simp only [sampleFields, List.cons.injEq, Value.str.injEq, Value.bool.injEq, and_true] at h
          obtain ⟨rfl, hsign, hnonce, hledger, rfl, rfl⟩ := h
          have hsign : nonce < 0 ↔ nonce' < 0 := decide_eq_decide.mp hsign
          have hnonce := hofNat hnonce
          have heq : nonce = nonce' := by omega
          rw [hofNat hledger, heq]

theorem sampleXDR_injective : Function.Injective sampleXDR := by
  intro entry other h
  have hfaithful (e : SampleEntry) : Faithful (.arr (sampleFields e)) := by
    obtain ⟨credentials, invocation⟩ := e
    cases credentials <;> simp [sampleFields, Faithful, FaithfulItems]
  have hparsed : some (Value.arr (sampleFields entry)) = some (.arr (sampleFields other)) := by
    rw [← parse_stringify (hfaithful entry), ← parse_stringify (hfaithful other)]
    exact congrArg _ h
  exact sampleFields_injective (Value.arr.inj (Option.some.inj hparsed))

def sampleFromXDR (t : Text) : Except Text SampleEntry :=
  match parse t with
  | some (.arr [.str invocation]) => .ok ⟨.sorobanCredentialsSourceAccount, invocation⟩
  | some (.arr [.str address, .bool negative, .str nonce, .str ledger, .str signature, .str invocation]) =>
      .ok ⟨.sorobanCredentialsAddress address (if negative then -digitsValue nonce else digitsValue nonce)
        (digitsValue ledger) signature, invocation⟩
  | _ => .error (text "XDR Read Error")

theorem export_independent_sourceAccount : Independent sampleFromXDR sampleXDR none
    [⟨.sorobanCredentialsSourceAccount, text "transfer"⟩] := by
  have hsignatures : Nontrivial Text := ⟨⟨[], [unit 'A'], by decide⟩⟩
  refine (export_independent_iff sampleFromXDR sampleXDR sampleXDR_injective none _).mpr ?_
  rintro entry hentry hsigned
  rw [List.mem_singleton.mp hentry] at hsigned
  exact hsigned rfl

/-- Two entries with another signature each have another text, which the export holds. -/
theorem not_export_independent : ¬∀ (ledger : Option Nat) (entries : List SampleEntry),
    Independent sampleFromXDR sampleXDR ledger entries := by
  intro h
  let signed (signature : Text) : SampleEntry :=
    ⟨.sorobanCredentialsAddress (text "GA") 1 100 signature, text "transfer"⟩
  have hsame := h none [signed []] [signed [unit 'A']] rfl
  have hxdr : [sampleXDR (signed [unit 'A'])] = [sampleXDR (signed [])] := by
    have heq := congrArg (fun exported => exported.entries.map (·.xdr)) hsame
    simpa only [xdr_exportAuthEntries, List.map_cons, List.map_nil] using heq
  have heq := sampleXDR_injective (List.cons.inj hxdr).1
  cases heq

end Savitools.Inspector.AuthSignatures
