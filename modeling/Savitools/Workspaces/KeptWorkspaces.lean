import Savitools.Json.Equality
import Savitools.Json.Indenting
import Savitools.Strings.Base64
import Savitools.Strings.Trimming
import Savitools.Strings.Utf8
import Savitools.Workspaces.ExportedSecrets
import Savitools.Workspaces.SecretFilters

namespace Savitools.Workspaces.KeptValues

open Strings.CodeUnits Json.Values Json.Equality Json.Obeying SecretFilters

theorem forall₂_filterMap {α : Type} {R : α → α → Prop} {f : α → Option α} {l : List α}
    (h : List.Forall₂ R l (l.filterMap f)) : ∀ a ∈ l, ∃ b, f a = some b ∧ R a b := by
  induction l with
  | nil => exact List.forall_mem_nil _
  | cons a l ih =>
      cases hf : f a with
      | none =>
          rw [List.filterMap_cons_none hf] at h
          have hle := List.length_filterMap_le f l
          have hlength := h.length_eq
          rw [List.length_cons] at hlength
          omega
      | some b =>
          rw [List.filterMap_cons_some hf] at h
          obtain ⟨hab, hrest⟩ := List.forall₂_cons.mp h
          exact List.forall_mem_cons.mpr ⟨⟨b, hf, hab⟩, ih hrest⟩

variable {N : Type} {beyondAscii : Text → Text} {dropped : Text → Bool} {dropsEmpty : Bool}

theorem isLeftOut_eq_false_iff {key : Text} : isLeftOut beyondAscii key = false ↔
    (isSensitiveKey beyondAscii key = false ∧ isSignatureKey beyondAscii key = false) ∧ key ≠ text "__proto__" := by
  rw [isLeftOut, Bool.or_eq_false_iff, Bool.or_eq_false_iff, beq_eq_false_iff_ne]

section

variable (beyondAscii dropped dropsEmpty)

/-- What becomes of an item of an array, and of a member. -/
def keptItem (v : Value N) : Option (Value N) :=
  (cleanValue beyondAscii dropped dropsEmpty v).filter fun w => !(dropsEmpty && isEmptyObject w)

def keptField (f : Text × Value N) : Option (Text × Value N) :=
  if isLeftOut beyondAscii f.1 then none else (cleanValue beyondAscii dropped dropsEmpty f.2).map (f.1, ·)

theorem cleanItems_eq (items : List (Value N)) :
    cleanItems beyondAscii dropped dropsEmpty items = items.filterMap (keptItem beyondAscii dropped dropsEmpty) := by
  induction items with
  | nil => rfl
  | cons v items ih =>
      rw [cleanItems, ih, List.filterMap_cons, keptItem]
      cases cleanValue beyondAscii dropped dropsEmpty v with
      | none => rfl
      | some w =>
          simp only [Option.filter_some]
          cases dropsEmpty && isEmptyObject w <;> rfl

theorem cleanFields_eq (fields : List (Text × Value N)) :
    cleanFields beyondAscii dropped dropsEmpty fields = fields.filterMap (keptField beyondAscii dropped dropsEmpty) := by
  induction fields with
  | nil => rfl
  | cons f fields ih =>
      obtain ⟨key, v⟩ := f
      rw [cleanFields, ih, List.filterMap_cons, keptField]
      split
      next => rfl
      next => cases cleanValue beyondAscii dropped dropsEmpty v <;> rfl

/-- The rules under which nothing is dropped. -/
def keeps : Rules N where
  key t := isLeftOut beyondAscii t = false
  string t := dropped t = false
  item v := dropsEmpty = true → isEmptyObject v = false

end

/-- No string has a seed in it. -/
def seedless : Rules N := ⟨fun _ => True, fun t => hasSeed t = false, fun _ => True⟩

/-- Under the rules a value is cleaned to itself. -/
theorem cleanValue_of_obeys {v : Value N} (hseed : Obeys seedless v) (hv : Obeys (keeps beyondAscii dropped dropsEmpty) v) :
    cleanValue beyondAscii dropped dropsEmpty v = some v := by
  induction v using value_induction with
  | null => rfl
  | bool b => rfl
  | num n => rfl
  | str t =>
      replace hv : dropped t = false := hv
      replace hseed : hasSeed t = false := hseed
      rw [cleanValue, hv, redactSeeds, hseed]
      rfl
  | arr items ih =>
      rw [Obeys, obeysItems_iff] at hseed hv
      rw [cleanValue, cleanItems_eq]
      refine congrArg (fun kept => some (Value.arr kept)) ((List.filterMap_congr fun v hmem => ?_).trans List.filterMap_some)
      have hempty : (!(dropsEmpty && isEmptyObject v)) = true := by
        have hitem : dropsEmpty = true → isEmptyObject v = false := (hv v hmem).1
        cases dropsEmpty with
        | true => rw [hitem rfl]; rfl
        | false => rfl
      rw [keptItem, ih v hmem (hseed v hmem).2 (hv v hmem).2, Option.filter_some, if_pos hempty]
  | obj fields ih =>
      rw [Obeys, obeysFields_iff] at hseed hv
      rw [cleanValue, cleanFields_eq]
      refine congrArg (fun kept => some (Value.obj kept)) ((List.filterMap_congr fun f hmem => ?_).trans List.filterMap_some)
      have hkey : isLeftOut beyondAscii f.1 = false := (hv f hmem).1
      rw [keptField, hkey, ih f hmem (hseed f hmem).2 (hv f hmem).2]
      rfl

/-- A member that is there after the cleaning is what its value was cleaned to. -/
theorem kept_of_lookup {fields : List (Text × Value N)} (hnodup : (fields.map Prod.fst).Nodup) {f : Text × Value N}
    (hmem : f ∈ fields) {w : Value N} (hlookup : (cleanFields beyondAscii dropped dropsEmpty fields).lookup f.1 = some w) :
    isLeftOut beyondAscii f.1 = false ∧ cleanValue beyondAscii dropped dropsEmpty f.2 = some w := by
  rw [cleanFields_eq] at hlookup
  obtain ⟨g, hg, hkept⟩ := List.mem_filterMap.mp (Stores.Entries.mem_of_lookup hlookup)
  obtain ⟨hkey, hkept⟩ := Option.ite_none_left_eq_some.mp hkept
  obtain ⟨w', hw, heq⟩ := Option.map_eq_some_iff.mp hkept
  obtain ⟨hname, rfl⟩ := Prod.mk.inj heq
  obtain rfl := List.inj_on_of_nodup_map hnodup hg hmem hname
  exact ⟨Bool.eq_false_of_not_eq_true hkey, hw⟩

/-- What is the same after it was cleaned obeys the rules. -/
theorem obeys_of_same {v : Value N} (hdistinct : Distinct v) (hseed : Obeys seedless v) : ∀ {w : Value N},
    cleanValue beyondAscii dropped dropsEmpty v = some w → Same v w → Obeys (keeps beyondAscii dropped dropsEmpty) v := by
  induction v using value_induction with
  | null => exact fun _ _ => trivial
  | bool b => exact fun _ _ => trivial
  | num n => exact fun _ _ => trivial
  | str t =>
      intro w hclean _
      rw [cleanValue] at hclean
      split at hclean
      next => cases hclean
      next hkept => exact Bool.eq_false_of_not_eq_true hkept
  | arr items ih =>
      intro w hclean hsame
      obtain rfl := Option.some.inj hclean
      rw [Same, sameItems_iff, cleanItems_eq] at hsame
      rw [Distinct, distinctItems_iff] at hdistinct
      rw [Obeys, obeysItems_iff] at hseed ⊢
      intro v hmem
      obtain ⟨w, hkept, hvw⟩ := forall₂_filterMap hsame v hmem
      obtain ⟨hw, hnonempty⟩ := Option.filter_eq_some_iff.mp hkept
      have hv := ih v hmem (hdistinct v hmem) (hseed v hmem).2 hw hvw
      refine ⟨fun hdrops => ?_, hv⟩
      obtain rfl := Option.some.inj ((cleanValue_of_obeys (hseed v hmem).2 hv).symm.trans hw)
      rw [hdrops, Bool.true_and, Bool.not_eq_true'] at hnonempty
      exact hnonempty
  | obj fields ih =>
      intro w hclean hsame
      obtain rfl := Option.some.inj hclean
      rw [Same, sameFields_iff] at hsame
      obtain ⟨hnodup, hdistinct⟩ := hdistinct
      rw [distinctFields_iff] at hdistinct
      rw [Obeys, obeysFields_iff] at hseed ⊢
      intro f hmem
      obtain ⟨w, hlookup, hfw⟩ := hsame.2 f hmem
      obtain ⟨hkey, hw⟩ := kept_of_lookup hnodup hmem hlookup
      exact ⟨hkey, ih f hmem (hdistinct f hmem) (hseed f hmem).2 hw hfw⟩

/-- A value without seeds is cleaned to the same value exactly under the rules. -/
theorem cleanValue_same_iff {v : Value N} (hdistinct : Distinct v) (hseed : Obeys seedless v) :
    (∃ w, cleanValue beyondAscii dropped dropsEmpty v = some w ∧ Same v w) ↔ Obeys (keeps beyondAscii dropped dropsEmpty) v :=
  ⟨fun ⟨_, hclean, hsame⟩ => obeys_of_same hdistinct hseed hclean hsame,
    fun hv => ⟨v, cleanValue_of_obeys hseed hv, same_refl hdistinct⟩⟩

end Savitools.Workspaces.KeptValues

namespace Savitools.Workspaces.KeptWorkspaces

open Strings.CodeUnits Strings.Trimming Strings.Replace Strings.Base64 Strings.Utf8 Stores.Entries
open Json.Numbers Json.Values Json.Conversions Json.Doubles Json.Reading Json.Writing Json.Equality Json.Obeying
open Json.IndentedRoundTrip Common.Redaction Common.RedactedValues
open SecretFilters Sanitizer ExportedSecrets KeptValues Web.WorkspaceFormat

/-- Three parts in base64url, of which the first is a header in JSON. -/
def IsToken (t : Text) : Prop :=
  ∃ header payload signature json fields, IsSegment header ∧ IsSegment payload ∧ IsSegment signature ∧
    t = header ++ unit '.' :: (payload ++ unit '.' :: signature) ∧
    fromBase64 header = textEncode json ∧ parse json = some (.obj fields)

def tokens : SecretKinds where
  IsToken := IsToken
  IsBearer := HasBearerShape
  token_shape := by
    rintro t ⟨header, payload, signature, -, -, hheader, hpayload, hsignature, heq, -⟩
    exact ⟨header, payload, signature, hheader, hpayload, hsignature, heq⟩
  bearer_shape _ h := h

section

variable (fromXDR : Text → Option Nat) (beyondAscii : Text → Text) {N : Type}

/-- No secret in a string, and no name of a credential or a signature. -/
def secretless : Rules N where
  key t := isSensitiveKey beyondAscii t = false ∧ isSignatureKey beyondAscii t = false
  string := Harmless tokens fromXDR
  item _ := True

end

section

variable {N : Type}

/-- No string of three dotted parts, and no member that an assignment does not make. -/
def undotted : Rules N where
  key t := t ≠ text "__proto__"
  string t := isJwtText (trim t) = false
  item _ := True

/-- No empty object in an array, and no member that an assignment does not make. -/
def unemptied : Rules N where
  key t := t ≠ text "__proto__"
  string _ := True
  item v := isEmptyObject v = false

end

theorem hasSeed_of_free {t : Text} (ht : Free IsSeed t) : hasSeed t = false := by
  refine List.any_eq_false.mpr fun rest hrest hmatch => ?_
  refine Option.isSome_iff_ne_none.mp hmatch ((recognises_seed rest).mpr fun w hw => ht w ?_)
  exact hw.isInfix.trans ((List.mem_tails rest t).mp hrest).isInfix

theorem not_isSeedText {t : Text} (ht : Free IsSeed t) : isSeedText t = false := by
  have hmatch : seedMatch t = none := (recognises_seed t).mpr fun w hw => ht w hw.isInfix
  rw [isSeedText, hmatch, Option.isSome_none, Bool.and_false]

/-- A text that starts like a bearer token has one in it. -/
theorem not_startsBearer {t : Text} (ht : Free HasBearerShape t) : startsBearer t = false := by
  refine Bool.eq_false_iff.mpr fun hstarts => ?_
  simp only [startsBearer, Bool.and_eq_true, decide_eq_true_eq] at hstarts
  obtain ⟨⟨hscheme, hblank⟩, hcredential⟩ := hstarts
  have hblanks := @List.takeWhile_append_dropWhile _ isSpace (t.drop 6)
  have hcredentials := @List.takeWhile_append_dropWhile _ isBearerUnit ((t.drop 6).dropWhile isSpace)
  refine ht (t.take 6 ++ (t.drop 6).takeWhile isSpace ++ ((t.drop 6).dropWhile isSpace).takeWhile isBearerUnit) ?_
    ⟨_, _, _, hscheme, ?_, List.all_eq_true.mp List.all_takeWhile, ?_, List.all_eq_true.mp List.all_takeWhile, rfl⟩
  · refine List.IsPrefix.isInfix ⟨((t.drop 6).dropWhile isSpace).dropWhile isBearerUnit, ?_⟩
    rw [List.append_assoc, hcredentials, List.append_assoc, hblanks, List.take_append_drop]
  · cases hrest : t.drop 6 with
    | nil => simp [hrest] at hblank
    | cons u rest =>
        rw [hrest, List.head?_cons, Option.any_some] at hblank
        rw [List.takeWhile_cons_of_pos hblank]
        exact List.cons_ne_nil _ _
  · cases hrest : (t.drop 6).dropWhile isSpace with
    | nil => simp [hrest] at hcredential
    | cons u rest =>
        rw [hrest, List.head?_cons, Option.any_some] at hcredential
        rw [List.takeWhile_cons_of_pos hcredential]
        exact List.cons_ne_nil _ _

/-- Of harmless strings, only those of three dotted parts are taken for secrets. -/
theorem isSecretString_of_harmless {fromXDR : Text → Option Nat} {t : Text} (ht : Harmless tokens fromXDR t) :
    isSecretString t = isJwtText (trim t) := by
  have hseed := not_isSeedText (ht.1.of_isInfix (trim_isInfix t))
  have hbearer := not_startsBearer (ht.2.2.1.of_isInfix (trim_isInfix t))
  simp only [isSecretString, hseed, hbearer, Bool.false_or, Bool.or_false]

theorem distinct_of_faithful {v : Value Number} (hv : Faithful v) : Distinct v := by
  induction v using value_induction with
  | null => trivial
  | bool b => trivial
  | num n => trivial
  | str t => trivial
  | arr items ih =>
      rw [Faithful, faithfulItems_iff] at hv
      rw [Distinct, distinctItems_iff]
      exact fun v hmem => ih v hmem (hv v hmem)
  | obj fields ih =>
      obtain ⟨hnodup, hfields⟩ := hv
      rw [faithfulFields_iff] at hfields
      exact ⟨hnodup, distinctFields_iff.mpr fun f hmem => ih f hmem (hfields f hmem)⟩

section

variable {beyondAscii : Text → Text} {dropped : Text → Bool} {dropsEmpty : Bool}

theorem keys_cleanFields {N : Type} (fields : List (Text × Value N)) :
    ((cleanFields beyondAscii dropped dropsEmpty fields).map Prod.fst).Sublist (fields.map Prod.fst) := by
  induction fields with
  | nil => exact List.Sublist.slnil
  | cons f fields ih =>
      obtain ⟨key, v⟩ := f
      rw [cleanFields]
      split
      next => exact ih.cons _
      next =>
        split
        next => exact ih.cons _
        next => exact ih.cons_cons _

/-- What is left of a value is as fit for being written as the value. -/
theorem faithful_cleanValue {v : Value Number} (hv : Faithful v) : ∀ {w : Value Number},
    cleanValue beyondAscii dropped dropsEmpty v = some w → Faithful w := by
  induction v using value_induction with
  | null =>
      intro w hw
      obtain rfl := Option.some.inj hw
      exact hv
  | bool b =>
      intro w hw
      obtain rfl := Option.some.inj hw
      exact hv
  | num n =>
      intro w hw
      obtain rfl := Option.some.inj hw
      exact hv
  | str t =>
      intro w hw
      obtain ⟨-, hw⟩ := Option.ite_none_left_eq_some.mp hw
      obtain rfl := Option.some.inj hw
      trivial
  | arr items ih =>
      intro w hw
      obtain rfl := Option.some.inj hw
      rw [Faithful, faithfulItems_iff] at hv ⊢
      rw [cleanItems_eq]
      intro w hw
      obtain ⟨v, hmem, hkept⟩ := List.mem_filterMap.mp hw
      exact ih v hmem (hv v hmem) (Option.filter_eq_some_iff.mp hkept).1
  | obj fields ih =>
      intro w hw
      obtain rfl := Option.some.inj hw
      obtain ⟨hnodup, hfields⟩ := hv
      rw [faithfulFields_iff] at hfields
      refine ⟨(keys_cleanFields fields).nodup hnodup, faithfulFields_iff.mpr ?_⟩
      rw [cleanFields_eq]
      intro g hg
      obtain ⟨f, hmem, hkept⟩ := List.mem_filterMap.mp hg
      obtain ⟨-, hkept⟩ := Option.ite_none_left_eq_some.mp hkept
      obtain ⟨w, hw, rfl⟩ := Option.map_eq_some_iff.mp hkept
      exact ih f hmem (hfields f hmem) hw

end

/-- A workspace as it can be written as JSON. -/
structure Writable (file : WorkspaceFileInput) : Prop where
  composerState : Faithful (.obj file.composerState)
  operations : Faithful (.arr file.operations)

variable {beyondAscii : Text → Text}

section

variable (beyondAscii) (file : WorkspaceFileInput)

/-- What is left of the composer state, and of the operations. -/
def keptState : List (Text × Value Number) := cleanFields beyondAscii isSecretString false file.composerState

def keptOperations : List (Value Number) := cleanItems beyondAscii isSecretString false file.operations

def exportedMembers : List (Text × Option (Value Number)) :=
  [(text "formatVersion", some (.num (.ofInt WORKSPACE_FORMAT_VERSION))),
    (text "composerState", some (.obj (keptState beyondAscii file))),
    (text "operations", some (.arr (keptOperations beyondAscii file))), (text "id", file.id.map .str),
    (text "ownerId", file.ownerId.map .str), (text "name", file.name.map .str),
    (text "createdAt", file.createdAt.map .str), (text "updatedAt", file.updatedAt.map .str)]

theorem exportedFile_eq : exportedFile beyondAscii file = .obj (definedMembers (exportedMembers beyondAscii file)) := by
  obtain ⟨id, ownerId, name, composerState, operations, createdAt, updatedAt⟩ := file
  cases id <;> cases ownerId <;> cases name <;> cases createdAt <;> cases updatedAt <;> rfl

end

theorem faithful_exportedFile {file : WorkspaceFileInput} (hfile : Writable file) : Faithful (exportedFile beyondAscii file) := by
  have hnames : memberNames.Nodup := by decide
  have hversion : Faithful (.num (.ofInt WORKSPACE_FORMAT_VERSION)) := @readable_ofInt 2 (by decide)
  have hstate : Faithful (.obj (keptState beyondAscii file)) := faithful_cleanValue hfile.composerState rfl
  have hoperations : Faithful (.arr (keptOperations beyondAscii file)) := faithful_cleanValue hfile.operations rfl
  rw [exportedFile_eq]
  refine faithful_definedMembers hnames ?_
  simp only [exportedMembers, List.forall_mem_cons]
  exact ⟨fun v hv => Option.some.inj hv ▸ hversion, fun v hv => Option.some.inj hv ▸ hstate,
    fun v hv => Option.some.inj hv ▸ hoperations, faithful_of_map fun _ => trivial, faithful_of_map fun _ => trivial,
    faithful_of_map fun _ => trivial, faithful_of_map fun _ => trivial, faithful_of_map fun _ => trivial,
    List.forall_mem_nil _⟩

theorem migrate_exportedFile (file : WorkspaceFileInput) : ∃ read, migrateWorkspaceFile (exportedFile beyondAscii file) = .ok read ∧
    read.operations = keptOperations beyondAscii file ∧
    read.composerState = put (text "operations") (.arr (keptOperations beyondAscii file)) (keptState beyondAscii file) :=
  ⟨_, rfl, rfl, rfl⟩

/-- The file that is read back from an export. -/
theorem parse_serialize {file : WorkspaceFileInput} (hfile : Writable file) (space : Nat) :
    ∃ read, parseWorkspaceFile (serializeWorkspaceFile beyondAscii file space) = .ok read ∧
      read.operations = keptOperations beyondAscii file ∧
      read.composerState = put (text "operations") (.arr (keptOperations beyondAscii file)) (keptState beyondAscii file) := by
  rw [parseWorkspaceFile, serializeWorkspaceFile, parse_stringifyWith space (faithful_exportedFile hfile)]
  exact migrate_exportedFile file

section

variable {fromXDR : Text → Option Nat}

theorem seedless_of_secretless {v : Value Number} (hv : Obeys (secretless fromXDR beyondAscii) v) : Obeys seedless v :=
  hv.imp (fun _ _ => trivial) (fun t (ht : Harmless tokens fromXDR t) => hasSeed_of_free ht.1) fun _ _ => trivial

/-- Without secrets, what the export keeps is what has no dotted parts. -/
theorem keeps_iff_undotted {v : Value Number} (hv : Obeys (secretless fromXDR beyondAscii) v) :
    Obeys (keeps beyondAscii isSecretString false) v ↔ Obeys undotted v := by
  constructor
  · intro hkept
    refine (hkept.both hv).imp (fun t ht => ?_) (fun t ht => ?_) fun _ _ => trivial
    · exact (isLeftOut_eq_false_iff.mp ht.1).2
    · exact (isSecretString_of_harmless ht.2).symm.trans ht.1
  · intro hkept
    refine (hkept.both hv).imp (fun t ht => ?_) (fun t ht => ?_) fun _ _ hdrops => absurd hdrops Bool.false_ne_true
    · exact isLeftOut_eq_false_iff.mpr ⟨ht.2, ht.1⟩
    · exact (isSecretString_of_harmless ht.2).trans ht.1

theorem exported_same_iff {v : Value Number} (hdistinct : Distinct v) (hv : Obeys (secretless fromXDR beyondAscii) v) :
    (∃ w, cleanValue beyondAscii isSecretString false v = some w ∧ Same v w) ↔ Obeys undotted v :=
  (cleanValue_same_iff hdistinct (seedless_of_secretless hv)).trans (keeps_iff_undotted hv)

theorem exported_eq {v : Value Number} (hv : Obeys (secretless fromXDR beyondAscii) v) (hkept : Obeys undotted v) :
    cleanValue beyondAscii isSecretString false v = some v :=
  cleanValue_of_obeys (seedless_of_secretless hv) ((keeps_iff_undotted hv).mpr hkept)

/-- No secrets in the composer state or the operations. -/
structure Secretless (fromXDR : Text → Option Nat) (beyondAscii : Text → Text) (file : WorkspaceFileInput) : Prop where
  composerState : Obeys (secretless fromXDR beyondAscii) (.obj file.composerState)
  operations : Obeys (secretless fromXDR beyondAscii) (.arr file.operations)

/-- The export of a workspace, read again, has its operations and its composer state. -/
def Returns (beyondAscii : Text → Text) (file : WorkspaceFileInput) (space : Nat) : Prop :=
  ∃ read, parseWorkspaceFile (serializeWorkspaceFile beyondAscii file space) = .ok read ∧
    Same (.arr file.operations) (.arr read.operations) ∧
    Same (.obj (put (text "operations") (.arr file.operations) file.composerState)) (.obj read.composerState)

/-- What is asked of the operations, and of the members of the composer state but for its own operations. -/
structure Undotted (file : WorkspaceFileInput) : Prop where
  operations : Obeys undotted (.arr file.operations)
  composerState : ∀ f ∈ file.composerState, f.1 ≠ text "operations" → f.1 ≠ text "__proto__" ∧ Obeys undotted f.2

theorem distinct_put {fields : List (Text × Value Number)} {key : Text} {v : Value Number} (hfields : Distinct (.obj fields))
    (hv : Distinct v) : Distinct (.obj (put key v fields)) := by
  have hnodup := @nodup_put _ _ _ _ key v _ hfields.1
  refine ⟨hnodup, distinctFields_iff.mpr fun f hf => ?_⟩
  have hlookup := lookup_of_mem hnodup hf
  rw [lookup_put] at hlookup
  split at hlookup
  next => exact Option.some.inj hlookup ▸ hv
  next => exact distinct_of_lookup hfields.2 hlookup

/-- Members that are kept as they are can be looked up as before. -/
theorem lookup_keptState {file : WorkspaceFileInput} (hnodup : (file.composerState.map Prod.fst).Nodup)
    (hsecretless : Secretless fromXDR beyondAscii file) (hkept : Undotted file) {name : Text} (hname : name ≠ text "operations") :
    (keptState beyondAscii file).lookup name = file.composerState.lookup name := by
  have hkeys : ((keptState beyondAscii file).map Prod.fst).Sublist (file.composerState.map Prod.fst) :=
    keys_cleanFields file.composerState
  cases hlookup : file.composerState.lookup name with
  | none =>
      rw [← Option.not_isSome_iff_eq_none, lookup_isSome_iff] at hlookup ⊢
      exact fun hmem => hlookup (hkeys.subset hmem)
  | some v =>
      have hmem := mem_of_lookup hlookup
      obtain ⟨hproto, hv⟩ := hkept.composerState _ hmem hname
      have hfields := obeysFields_iff.mp hsecretless.composerState _ hmem
      have hkey : isLeftOut beyondAscii name = false := isLeftOut_eq_false_iff.mpr ⟨hfields.1, hproto⟩
      have hkeptMem : (name, v) ∈ keptState beyondAscii file := by
        rw [keptState, cleanFields_eq]
        refine List.mem_filterMap.mpr ⟨(name, v), hmem, ?_⟩
        rw [keptField, hkey, exported_eq hfields.2 hv]
        rfl
      exact lookup_of_mem (hkeys.nodup hnodup) hkeptMem

theorem returns_iff {file : WorkspaceFileInput} (hfile : Writable file) (hsecretless : Secretless fromXDR beyondAscii file)
    (space : Nat) : Returns beyondAscii file space ↔ Undotted file := by
  have hstate := distinct_of_faithful hfile.composerState
  have hoperations := distinct_of_faithful hfile.operations
  obtain ⟨read, hread, hreadOperations, hreadState⟩ := @parse_serialize beyondAscii file hfile space
  constructor
  · rintro ⟨other, hother, hsameOperations, hsameState⟩
    obtain rfl := Except.ok.inj (hread.symm.trans hother)
    rw [hreadOperations] at hsameOperations
    rw [hreadState] at hsameState
    refine ⟨(exported_same_iff hoperations hsecretless.operations).mp ⟨_, rfl, hsameOperations⟩, fun f hf hname => ?_⟩
    have hfields := obeysFields_iff.mp hsecretless.composerState f hf
    have hagree := agree_child hsameState (.key f.1)
    rw [child, child, lookup_put, lookup_put, beq_eq_false_iff_ne.mpr hname, lookup_of_mem hstate.1 hf] at hagree
    rcases hagree with ⟨hnone, -⟩ | ⟨v, w, hv, hw, hsame⟩
    · cases hnone
    · obtain rfl := Option.some.inj hv
      obtain ⟨hkey, hclean⟩ := kept_of_lookup hstate.1 hf hw
      exact ⟨(isLeftOut_eq_false_iff.mp hkey).2,
        (exported_same_iff (distinct_of_lookup hstate.2 (lookup_of_mem hstate.1 hf)) hfields.2).mp ⟨w, hclean, hsame⟩⟩
  · intro hkept
    have heq : keptOperations beyondAscii file = file.operations :=
      Value.arr.inj (Option.some.inj (exported_eq hsecretless.operations hkept.operations))
    refine ⟨read, hread, ?_, ?_⟩
    · rw [hreadOperations, heq]
      exact same_refl hoperations
    · rw [hreadState, heq]
      refine same_of_children (distinct_put hstate hoperations) trivial fun s => ?_
      cases s with
      | index _ => exact .inl ⟨rfl, rfl⟩
      | key name =>
          rw [child, child, lookup_put, lookup_put]
          by_cases hname : name = text "operations"
          · rw [hname, beq_self_eq_true]
            exact .inr ⟨_, _, rfl, rfl, same_refl hoperations⟩
          · rw [beq_eq_false_iff_ne.mpr hname, lookup_keptState hstate.1 hsecretless hkept hname]
            cases hlookup : file.composerState.lookup name with
            | none => exact .inl ⟨rfl, rfl⟩
            | some v => exact .inr ⟨v, v, rfl, rfl, same_refl (distinct_of_lookup hstate.2 hlookup)⟩

/-- What the sanitizer does not count. -/
def unredacted (fromXDR : Text → Option Nat) (beyondAscii : Text → Text) : Rules Number where
  key t := isSensitiveKey beyondAscii t = false ∧ isSignatureKey beyondAscii t = false
  string t := isDropped fromXDR t = false ∧ hasSeed t = false
  item _ := True

theorem redactionsOfItems_eq_zero {items : List (Value Number)} (h : redactionsOfItems fromXDR beyondAscii items = 0) :
    ∀ v ∈ items, redactions fromXDR beyondAscii v = 0 := by
  induction items with
  | nil => exact List.forall_mem_nil _
  | cons v items ih =>
      obtain ⟨hv, hitems⟩ := Nat.add_eq_zero_iff.mp h
      exact List.forall_mem_cons.mpr ⟨hv, ih hitems⟩

theorem redactionsOfFields_eq_zero {fields : List (Text × Value Number)}
    (h : redactionsOfFields fromXDR beyondAscii fields = 0) :
    ∀ f ∈ fields, (unredacted fromXDR beyondAscii).key f.1 ∧ redactions fromXDR beyondAscii f.2 = 0 := by
  induction fields with
  | nil => exact List.forall_mem_nil _
  | cons f fields ih =>
      obtain ⟨key, v⟩ := f
      obtain ⟨hv, hfields⟩ := Nat.add_eq_zero_iff.mp h
      refine List.forall_mem_cons.mpr ⟨?_, ih hfields⟩
      split at hv
      next => cases hv
      next hkey =>
        rw [Bool.or_eq_true, not_or, Bool.not_eq_true, Bool.not_eq_true] at hkey
        exact ⟨hkey, hv⟩

theorem unredacted_of_redactions {v : Value Number} (h : redactions fromXDR beyondAscii v = 0) :
    Obeys (unredacted fromXDR beyondAscii) v := by
  induction v using value_induction with
  | null => trivial
  | bool b => trivial
  | num n => trivial
  | str t =>
      rw [redactions] at h
      split at h
      next => cases h
      next hkept =>
        rw [Bool.or_eq_true, not_or, Bool.not_eq_true, Bool.not_eq_true] at hkept
        exact hkept
  | arr items ih =>
      rw [Obeys, obeysItems_iff]
      exact fun v hmem => ⟨trivial, ih v hmem (redactionsOfItems_eq_zero h v hmem)⟩
  | obj fields ih =>
      rw [Obeys, obeysFields_iff]
      intro f hmem
      obtain ⟨hkey, hf⟩ := redactionsOfFields_eq_zero h f hmem
      exact ⟨hkey, ih f hmem hf⟩

theorem keeps_iff_unemptied {v : Value Number} (hv : Obeys (unredacted fromXDR beyondAscii) v) :
    Obeys (keeps beyondAscii (isDropped fromXDR) true) v ↔ Obeys unemptied v := by
  constructor
  · intro hkept
    exact hkept.imp (fun t ht => (isLeftOut_eq_false_iff.mp ht).2) (fun _ _ => trivial)
      fun v (hv : true = true → isEmptyObject v = false) => hv rfl
  · intro hkept
    refine (hkept.both hv).imp (fun t ht => isLeftOut_eq_false_iff.mpr (And.symm ht))
      (fun t (ht : True ∧ isDropped fromXDR t = false ∧ hasSeed t = false) => ht.2.1)
      fun v (hv : isEmptyObject v = false ∧ True) _ => hv.1

theorem sanitized_same_iff {data : List (Text × Value Number)} (hdistinct : Distinct (.obj data))
    (hcount : (sanitizeWorkspaceData fromXDR beyondAscii data).redactedCount = 0) :
    Same (.obj data) (sanitizeWorkspaceData fromXDR beyondAscii data).sanitized ↔ Obeys unemptied (.obj data) := by
  have hunredacted : Obeys (unredacted fromXDR beyondAscii) (.obj data) := unredacted_of_redactions hcount
  have hseed : Obeys seedless (.obj data) :=
    hunredacted.imp (fun _ _ => trivial) (fun t (ht : isDropped fromXDR t = false ∧ hasSeed t = false) => ht.2)
      fun _ _ => trivial
  rw [← keeps_iff_unemptied hunredacted, ← cleanValue_same_iff hdistinct hseed]
  constructor
  · exact fun hsame => ⟨_, rfl, hsame⟩
  · rintro ⟨w, hw, hsame⟩
    obtain rfl := Option.some.inj hw
    exact hsame

end

/-- An export without secrets returns its workspace exactly when it has no string of three dotted parts, and data without
redactions are as they were exactly when no empty object stands in an array; in both no member may be named `__proto__`. -/
theorem sanitizing_iff (fromXDR : Text → Option Nat) (beyondAscii : Text → Text) :
    (∀ (file : WorkspaceFileInput) (space : Nat), Writable file → Secretless fromXDR beyondAscii file →
      (Returns beyondAscii file space ↔ Undotted file)) ∧
    ∀ data : List (Text × Value Number), Distinct (.obj data) →
      (sanitizeWorkspaceData fromXDR beyondAscii data).redactedCount = 0 →
        (Same (.obj data) (sanitizeWorkspaceData fromXDR beyondAscii data).sanitized ↔ Obeys unemptied (.obj data)) :=
  ⟨fun _ space hfile hsecretless => returns_iff hfile hsecretless space, fun _ => sanitized_same_iff⟩

/-- The first part of a token has two units at least. -/
theorem length_of_isToken {t : Text} (ht : IsToken t) : 6 ≤ t.length := by
  obtain ⟨header, payload, signature, json, fields, hheader, hpayload, hsignature, rfl, hbytes, hparse⟩ := ht
  have hne : header.length ≠ 1 := by
    intro hlength
    have hsextets : (sextets header).length ≤ 1 :=
      (List.length_filterMap_le _ _).trans ((List.takeWhile_sublist _).length_le.trans hlength.le)
    have hnone : fromBase64 header = [] := by
      rw [fromBase64]
      rcases hs : sextets header with _ | ⟨_, _ | _⟩
      · rfl
      · rfl
      · rw [hs] at hsextets
        simp at hsextets
    have hbytesNe (c : Nat) : utf8Bytes c ≠ [] := by
      rw [utf8Bytes]
      split_ifs <;> exact List.cons_ne_nil _ _
    rw [hnone] at hbytes
    rcases json with _ | ⟨u, _ | ⟨v, rest⟩⟩
    · cases hparse
    · exact hbytesNe _ hbytes.symm
    · rw [textEncode] at hbytes
      split at hbytes
      · exact hbytesNe _ (List.append_eq_nil_iff.mp hbytes.symm).1
      · exact hbytesNe _ (List.append_eq_nil_iff.mp hbytes.symm).1
  have hfirst := List.length_pos_iff.mpr hheader.1
  have hsecond := List.length_pos_iff.mpr hpayload.1
  have hthird := List.length_pos_iff.mpr hsignature.1
  simp only [List.length_append, List.length_cons]
  omega

/-- A workspace with a version number in its memo. -/
def versionedFile : WorkspaceFileInput := ⟨none, none, none, [(text "memo", .str (text "1.2.3"))], [], none, none⟩

theorem writable_versionedFile : Writable versionedFile :=
  ⟨⟨List.nodup_singleton _, trivial, trivial⟩, trivial⟩

theorem secretless_versionedFile : Secretless (fun _ => none) id versionedFile := by
  have hseed : Free IsSeed (text "1.2.3") := free_of_length length_of_isSeed (by decide)
  have hblank : (text "1.2.3").any isSpace = false := by decide
  have htoken : Free IsToken (text "1.2.3") := fun w hw hp => absurd ((length_of_isToken hp).trans hw.length_le) (by decide)
  have hbearer : Free HasBearerShape (text "1.2.3") := by
    rintro w hw ⟨scheme, blanks, credential, -, hne, hblanks, -, -, rfl⟩
    obtain ⟨u, hu⟩ := List.exists_mem_of_ne_nil blanks hne
    have hmem : u ∈ text "1.2.3" := hw.subset (List.mem_append_left _ (List.mem_append_right _ hu))
    exact List.any_eq_false.mp hblank u hmem (hblanks u hu)
  have hsigned : Free (fun part => isSignedTransactionEnvelope (fun _ => none) part = true) (text "1.2.3") := by
    intro w _ hp
    rw [isSignedTransactionEnvelope, Option.any_none, ite_self] at hp
    cases hp
  exact ⟨⟨⟨⟨rfl, rfl⟩, hseed, htoken, hbearer, hsigned⟩, trivial⟩, trivial⟩

/-- A workspace with an empty operation. -/
def emptyOperation : List (Text × Value Number) := [(text "operations", .arr [.obj []])]

/-- The memo is not exported, and the operation is left out though nothing is counted. -/
theorem not_sanitizing :
    (¬∀ (file : WorkspaceFileInput) (space : Nat), Writable file → Secretless (fun _ => none) id file → Returns id file space) ∧
    ¬∀ data : List (Text × Value Number), Distinct (.obj data) → (sanitizeWorkspaceData (fun _ => none) id data).redactedCount = 0 →
      Same (.obj data) (sanitizeWorkspaceData (fun _ => none) id data).sanitized := by
  constructor
  · intro hall
    have hreturns := hall versionedFile 2 writable_versionedFile secretless_versionedFile
    have hkept := ((returns_iff writable_versionedFile secretless_versionedFile 2).mp hreturns).composerState _
      (List.mem_singleton_self _) (by decide)
    have hdotted : isJwtText (trim (text "1.2.3")) = false := hkept.2
    exact absurd hdotted (by decide)
  · intro hall
    have hsame := hall emptyOperation ⟨List.nodup_singleton _, ⟨⟨List.nodup_nil, trivial⟩, trivial⟩, trivial⟩ rfl
    obtain ⟨w, hw, hitems⟩ := hsame.2.1
    obtain rfl := Option.some.inj hw
    exact hitems

theorem sanitizing_iff_versionedFile : (Returns id versionedFile 2 ↔ Undotted versionedFile) ∧
    (Same (.obj emptyOperation) (sanitizeWorkspaceData (fun _ => none) id emptyOperation).sanitized ↔
      Obeys unemptied (.obj emptyOperation)) :=
  ⟨(sanitizing_iff (fun _ => none) id).1 versionedFile 2 writable_versionedFile secretless_versionedFile,
    (sanitizing_iff (fun _ => none) id).2 emptyOperation
      ⟨List.nodup_singleton _, ⟨⟨List.nodup_nil, trivial⟩, trivial⟩, trivial⟩ rfl⟩

end Savitools.Workspaces.KeptWorkspaces
