import Savitools.Common.Exceptions
import Savitools.Json.Conversions
import Savitools.Json.Equality

namespace Savitools.Web.AbiDiff

open Strings.CodeUnits Json.Numbers Json.Values Json.Conversions Stores.Entries

inductive AbiChangeClassification
  | breaking
  | additive
deriving DecidableEq

inductive Kind
  | method
  | event
deriving DecidableEq

def Kind.name : Kind → Text
  | .method => text "method"
  | .event => text "event"

structure AbiChange where
  classification : AbiChangeClassification
  kind : Kind
  name : Text
  detail : Text
deriving DecidableEq

/-- What `??` takes for a value. -/
def given : Option (Value Number) → Option (Value Number)
  | some .null => none
  | v => v

/-- The first of these members that is given. -/
def firstGiven (names : List Text) (entry : Value Number) : Option (Value Number) :=
  names.findSome? fun name => given (member name entry)

def givenArguments : Value Number → Option (Value Number) :=
  firstGiven [text "arguments", text "args", text "params"]

def argumentType : Value Number → Text
  | .obj fields =>
      match firstGiven [text "type", text "argType", text "kind"] (.obj fields) with
      | some (.str type) => trim type
      | _ => text "unknown"
  | _ => text "unknown"

def getArgs (entry : Value Number) : List Text :=
  match givenArguments entry with
  | some (.arr args) => args.map argumentType
  | _ => []

/-- The name of an entry, if it is a string. -/
def entryName (entry : Value Number) : Option Text :=
  match firstGiven [text "name", text "type"] entry with
  | some (.str name) => some name
  | _ => none

def givenReturnType (entry : Value Number) : Value Number :=
  (firstGiven [text "returnType", text "return", text "returns"] entry).getD (.str (text "Void"))

def isIndexed (topic : Value Number) : Bool :=
  match member (text "indexed") topic with
  | some (.bool b) => b
  | _ => false

def topicText : Value Number → Option Text
  | .obj fields =>
      (primitiveText ((given (member (text "name") (.obj fields))).getD (.str (text "unknown")))).map fun name =>
        name ++ text ":" ++ (if isIndexed (.obj fields) then text "true" else text "false")
  | _ => some (text "unknown")

def topicsText (entry : Value Number) : Option Text :=
  match member (text "topics") entry with
  | some (.arr topics) => (topics.mapM topicText).map (join (unit ','))
  | _ => some []

/-- What is thrown where a text is asked of an object that has none. -/
def noText : Text := text "Cannot convert object to primitive value"

/-- The name and the signature of an entry. -/
def readEntry (kind : Kind) (entry : Value Number) : Except Text (Text × Text) :=
  match entry, entryName entry with
  | .obj _, some name =>
      let returnType := if kind = .method then primitiveText (givenReturnType entry) else some []
      let topics := if kind = .event then topicsText entry else some []
      match returnType, topics with
      | some returnType, some topics =>
          .ok (name, join (unit ',') (getArgs entry) ++ text "->" ++ returnType ++ text "|" ++ topics)
      | _, _ => .error noText
  | _, _ => .error (text "Every ABI " ++ kind.name ++ text " must have a name.")

def rawEntries (kind : Kind) (schema : Value Number) : Except Text (List (Value Number)) :=
  match schema with
  | .obj _ =>
      let names := match kind with
        | .method => [text "methods", text "functions"]
        | .event => [text "events"]
      match (firstGiven names schema).getD (.arr []) with
      | .arr entries => .ok entries
      | _ => .error (text "ABI " ++ kind.name ++ text "s must be an array.")
  | _ => .error (text "Each ABI must be a JSON object.")

/-- The map of the signatures by their names, in the order of the names. -/
def getEntries (schema : Value Number) (kind : Kind) : Except Text (List (Text × Text)) :=
  (rawEntries kind schema).bind fun raw =>
    (raw.mapM (readEntry kind)).map fun entries => entries.foldl (fun map entry => put entry.1 entry.2 map) []

def removedOrChanged (kind : Kind) (next : List (Text × Text)) (entry : Text × Text) : Option AbiChange :=
  match next.lookup entry.1 with
  | none => some ⟨.breaking, kind, entry.1, text "Removed " ++ kind.name ++ text " " ++ entry.1 ++ text "."⟩
  | some replacement =>
      if replacement ≠ entry.2 then
        some ⟨.breaking, kind, entry.1, text "Changed " ++ kind.name ++ text " signature for " ++ entry.1 ++ text "."⟩
      else none

def added (kind : Kind) (previous : List (Text × Text)) (entry : Text × Text) : Option AbiChange :=
  if (previous.lookup entry.1).isNone then
    some ⟨.additive, kind, entry.1, text "Added " ++ kind.name ++ text " " ++ entry.1 ++ text "."⟩
  else none

def compareKind (before after : Value Number) (kind : Kind) : Except Text (List AbiChange) :=
  (getEntries before kind).bind fun previous =>
    (getEntries after kind).map fun next =>
      previous.filterMap (removedOrChanged kind next) ++ next.filterMap (added kind previous)

def compareAbis (before after : Value Number) : Except Text (List AbiChange) :=
  (compareKind before after .method).bind fun methods =>
    (compareKind before after .event).map fun events => methods ++ events

end Savitools.Web.AbiDiff

namespace Savitools.Web.AbiChanges

open Strings.CodeUnits Json.Numbers Json.Values Json.Conversions Json.Equality Stores.Entries Common.Exceptions AbiDiff

/-- What is declared where a type or a name can stand: nothing but a value, or what the fields of an object give. -/
inductive Declared
  | bare (v : Value Number)
  | field (v : Option (Value Number))

def Declared.Same : Declared → Declared → Prop
  | .bare v, .bare w => Json.Equality.Same v w
  | .field (some v), .field (some w) => Json.Equality.Same v w
  | .field none, .field none => True
  | _, _ => False

/-- A method or an event as a document declares it. -/
structure Declaration where
  name : Text
  arguments : List Declared
  returnType : Value Number
  topics : List (Declared × Bool)

structure Declaration.Same (a b : Declaration) : Prop where
  name : a.name = b.name
  arguments : List.Forall₂ Declared.Same a.arguments b.arguments
  returnType : Json.Equality.Same a.returnType b.returnType
  topics : List.Forall₂ (fun s t => s.1.Same t.1 ∧ s.2 = t.2) a.topics b.topics

/-- Blanks around the text of a type are no part of it. -/
def trimmed : Value Number → Value Number
  | .str t => .str (trim t)
  | v => v

def declaredType : Value Number → Declared
  | .obj fields => .field ((firstGiven [text "type", text "argType", text "kind"] (.obj fields)).map trimmed)
  | v => .bare v

def declaredTopic : Value Number → Declared × Bool
  | .obj fields => (.field (given (member (text "name") (.obj fields))), isIndexed (.obj fields))
  | v => (.bare v, false)

def declaration (kind : Kind) (entry : Value Number) : Option Declaration :=
  (entryName entry).map fun name =>
    { name := name
      arguments := match givenArguments entry with
        | some (.arr args) => args.map declaredType
        | _ => []
      returnType := if kind = .method then givenReturnType entry else .str []
      topics := match kind, member (text "topics") entry with
        | .event, some (.arr topics) => topics.map declaredTopic
        | _, _ => [] }

/-- The entries of a document, when it has some. -/
def entriesOf (kind : Kind) (schema : Value Number) : List (Value Number) := ((rawEntries kind schema).toOption).getD []

def declarations (kind : Kind) (schema : Value Number) : List Declaration :=
  (entriesOf kind schema).filterMap (declaration kind)

/-- What the first document declares has a counterpart in the second. -/
def Kept (kind : Kind) (before after : Value Number) (d : Declaration) : Prop :=
  d ∈ declarations kind before → ∃ e ∈ declarations kind after, d.Same e

def SameInterface (before after : Value Number) : Prop :=
  ∀ kind d, Kept kind before after d ∧ Kept kind after before d

/-- A comparison is exact: nothing is told when the documents declare the same, and every declaration without a
counterpart is. -/
structure Exact (before after : Value Number) (changes : List AbiChange) : Prop where
  nothing : changes = [] ↔ SameInterface before after
  told : ∀ kind d, ¬(Kept kind before after d ∧ Kept kind after before d) →
    ∃ change ∈ changes, change.kind = kind ∧ change.name = d.name

/-- The signature of the last entry with a name. -/
def lastSignature (kind : Kind) (schema : Value Number) (name : Text) : Option Text :=
  lastOf name ((entriesOf kind schema).filterMap fun entry => (readEntry kind entry).toOption)

/-- The signatures of the last entries tell the declarations of two documents apart. -/
structure Distinguishes (before after : Value Number) : Prop where
  different : ∀ kind d, ¬(Kept kind before after d ∧ Kept kind after before d) →
    lastSignature kind before d.name ≠ lastSignature kind after d.name
  alike : SameInterface before after → ∀ kind name, lastSignature kind before name = lastSignature kind after name

theorem getEntries_ok {schema : Value Number} {kind : Kind} {entries : List (Text × Text)}
    (h : getEntries schema kind = .ok entries) :
    (entries.map (·.1)).Nodup ∧ ∀ name, entries.lookup name = lastSignature kind schema name := by
  obtain ⟨raw, hraw, h⟩ := bind_eq_ok.mp h
  obtain ⟨read, hread, rfl⟩ := map_eq_ok_iff.mp h
  have hentries : entriesOf kind schema = raw := by
    rw [entriesOf, hraw]
    rfl
  refine ⟨nodup_foldl_put read List.nodup_nil, fun name => ?_⟩
  rw [lookup_foldl_put, lastSignature, hentries, mapM_toOption hread]
  exact Option.or_none

/-- There is a change for a name exactly when its last signatures differ. -/
theorem compareKind_told {before after : Value Number} {kind : Kind} {changes : List AbiChange}
    (h : compareKind before after kind = .ok changes) (name : Text) :
    (∃ change ∈ changes, change.name = name) ↔ lastSignature kind before name ≠ lastSignature kind after name := by
  obtain ⟨previous, hprevious, h⟩ := bind_eq_ok.mp h
  obtain ⟨next, hnext, rfl⟩ := map_eq_ok_iff.mp h
  obtain ⟨hnodupPrevious, hlookupPrevious⟩ := getEntries_ok hprevious
  obtain ⟨hnodupNext, hlookupNext⟩ := getEntries_ok hnext
  rw [← hlookupPrevious, ← hlookupNext]
  constructor
  · rintro ⟨change, hchange, rfl⟩
    rcases List.mem_append.mp hchange with hchange | hchange
    · obtain ⟨entry, hentry, hmade⟩ := List.mem_filterMap.mp hchange
      have hlookup := lookup_of_mem hnodupPrevious hentry
      rw [removedOrChanged] at hmade
      split at hmade
      next hnone =>
        cases hmade
        rw [hlookup, hnone]
        exact Option.some_ne_none _
      next replacement hsome =>
        split at hmade
        next hdiffer =>
          cases hmade
          rw [hlookup, hsome]
          exact fun heq => hdiffer (Option.some.inj heq).symm
        next => cases hmade
    · obtain ⟨entry, hentry, hmade⟩ := List.mem_filterMap.mp hchange
      have hlookup := lookup_of_mem hnodupNext hentry
      rw [added] at hmade
      split at hmade
      next hnone =>
        cases hmade
        rw [hlookup, Option.isNone_iff_eq_none.mp hnone]
        exact (Option.some_ne_none _).symm
      next => cases hmade
  · intro hdiffer
    cases hfirst : previous.lookup name with
    | some signature =>
        have hmade : ∃ change, removedOrChanged kind next (name, signature) = some change ∧ change.name = name := by
          rw [removedOrChanged]
          split
          next => exact ⟨_, rfl, rfl⟩
          next replacement hsome =>
            have hne : replacement ≠ signature := fun heq => hdiffer (by rw [hfirst, hsome, heq])
            rw [if_pos hne]
            exact ⟨_, rfl, rfl⟩
        obtain ⟨change, hchange, hname⟩ := hmade
        exact ⟨change, List.mem_append_left _ (List.mem_filterMap.mpr ⟨_, mem_of_lookup hfirst, hchange⟩), hname⟩
    | none =>
        obtain ⟨signature, hsecond⟩ : ∃ signature, next.lookup name = some signature :=
          Option.ne_none_iff_exists'.mp fun hnone => hdiffer (hfirst.trans hnone.symm)
        have hmade : ∃ change, added kind previous (name, signature) = some change ∧ change.name = name := by
          rw [added, hfirst]
          exact ⟨_, rfl, rfl⟩
        obtain ⟨change, hchange, hname⟩ := hmade
        exact ⟨change, List.mem_append_right _ (List.mem_filterMap.mpr ⟨_, mem_of_lookup hsecond, hchange⟩), hname⟩

theorem compareKind_kind {before after : Value Number} {kind : Kind} {changes : List AbiChange}
    (h : compareKind before after kind = .ok changes) : ∀ change ∈ changes, change.kind = kind := by
  obtain ⟨previous, -, h⟩ := bind_eq_ok.mp h
  obtain ⟨next, -, rfl⟩ := map_eq_ok_iff.mp h
  intro change hchange
  rcases List.mem_append.mp hchange with hchange | hchange
  · obtain ⟨entry, -, hmade⟩ := List.mem_filterMap.mp hchange
    rw [removedOrChanged] at hmade
    split at hmade
    next =>
      cases hmade
      rfl
    next =>
      split at hmade
      next =>
        cases hmade
        rfl
      next => cases hmade
  · obtain ⟨entry, -, hmade⟩ := List.mem_filterMap.mp hchange
    rw [added] at hmade
    split at hmade
    next =>
      cases hmade
      rfl
    next => cases hmade

theorem compareAbis_told {before after : Value Number} {changes : List AbiChange}
    (h : compareAbis before after = .ok changes) (kind : Kind) (name : Text) :
    (∃ change ∈ changes, change.kind = kind ∧ change.name = name) ↔
      lastSignature kind before name ≠ lastSignature kind after name := by
  obtain ⟨methods, hmethods, h⟩ := bind_eq_ok.mp h
  obtain ⟨events, hevents, rfl⟩ := map_eq_ok_iff.mp h
  have hmethod := compareKind_kind hmethods
  have hevent := compareKind_kind hevents
  cases kind with
  | method =>
      rw [← compareKind_told hmethods]
      constructor
      · rintro ⟨change, hchange, hkind, hname⟩
        rcases List.mem_append.mp hchange with hchange | hchange
        · exact ⟨change, hchange, hname⟩
        · rw [hevent change hchange] at hkind
          cases hkind
      · rintro ⟨change, hchange, hname⟩
        exact ⟨change, List.mem_append_left _ hchange, hmethod change hchange, hname⟩
  | event =>
      rw [← compareKind_told hevents]
      constructor
      · rintro ⟨change, hchange, hkind, hname⟩
        rcases List.mem_append.mp hchange with hchange | hchange
        · rw [hmethod change hchange] at hkind
          cases hkind
        · exact ⟨change, hchange, hname⟩
      · rintro ⟨change, hchange, hname⟩
        exact ⟨change, List.mem_append_right _ hchange, hevent change hchange, hname⟩

/-- The comparison is exact exactly when the signatures of the last entries tell the declarations apart. -/
theorem compareAbis_exact_iff {before after : Value Number} {changes : List AbiChange}
    (h : compareAbis before after = .ok changes) : Exact before after changes ↔ Distinguishes before after := by
  have htold := compareAbis_told h
  have hnothing : changes = [] ↔ ∀ kind name, lastSignature kind before name = lastSignature kind after name := by
    rw [List.eq_nil_iff_forall_not_mem]
    constructor
    · intro hnone kind name
      by_contra hdiffer
      obtain ⟨change, hchange, -⟩ := (htold kind name).mpr hdiffer
      exact hnone change hchange
    · intro hsame change hchange
      exact (htold change.kind change.name).mp ⟨change, hchange, rfl, rfl⟩ (hsame change.kind change.name)
  constructor
  · intro hexact
    exact ⟨fun kind d hd => (htold kind d.name).mp (hexact.told kind d hd),
      fun hsame => hnothing.mp (hexact.nothing.mpr hsame)⟩
  · intro hdistinguishes
    refine ⟨⟨fun hnone kind d => ?_, fun hsame => hnothing.mpr (hdistinguishes.alike hsame)⟩,
      fun kind d hd => (htold kind d.name).mpr (hdistinguishes.different kind d hd)⟩
    by_contra hd
    exact hdistinguishes.different kind d hd (hnothing.mp hnone kind d.name)

section Plain

/-- The types of the arguments and the return type are texts, those of the arguments without the marks of a signature,
and the names of topics are texts without commas. -/
structure Plain (d : Declaration) : Prop where
  arguments : ∀ a ∈ d.arguments, ∃ t : Text, a = .field (some (.str t)) ∧ t ≠ [] ∧ unit ',' ∉ t ∧ unit '>' ∉ t
  returnType : ∃ t, d.returnType = .str t
  topics : ∀ topic ∈ d.topics, ∃ name : Text, topic.1 = .field (some (.str name)) ∧ unit ',' ∉ name

def declaredText : Declared → Text
  | .field (some (.str t)) => t
  | _ => []

def topicFlat (topic : Declared × Bool) : Text :=
  declaredText topic.1 ++ text ":" ++ (if topic.2 then text "true" else text "false")

def returnText (d : Declaration) : Text := declaredText (.field (some d.returnType))

def flatten (d : Declaration) : Text :=
  join (unit ',') (d.arguments.map declaredText) ++ text "->" ++ returnText d ++ text "|" ++
    join (unit ',') (d.topics.map topicFlat)

/-- Every declaration of a document is plain, and no name comes twice. -/
structure PlainDocument (schema : Value Number) : Prop where
  plain : ∀ kind, ∀ d ∈ declarations kind schema, Plain d
  names : ∀ kind, ((declarations kind schema).map (·.name)).Nodup

theorem argumentType_of_declaredType {arg : Value Number} {t : Text} (h : declaredType arg = .field (some (.str t))) :
    argumentType arg = t := by
  cases arg with
  | obj fields =>
      rw [declaredType] at h
      rw [argumentType]
      cases hgiven : firstGiven [text "type", text "argType", text "kind"] (.obj fields) with
      | none =>
          rw [hgiven] at h
          cases h
      | some v =>
          rw [hgiven] at h
          cases v with
          | str s =>
              cases h
              rfl
          | null | bool b | num n | arr items | obj others => cases h
  | null | bool b | num n | str s | arr items => cases h

theorem topicText_of_declaredTopic {topic : Value Number} {name : Text}
    (h : (declaredTopic topic).1 = .field (some (.str name))) : topicText topic = some (topicFlat (declaredTopic topic)) := by
  cases topic with
  | obj fields =>
      have hname : given (member (text "name") (.obj fields)) = some (.str name) := by
        rw [declaredTopic] at h
        exact Declared.field.inj h
      rw [topicText, declaredTopic, hname]
      rfl
  | null | bool b | num n | str s | arr items => cases h

theorem getArgs_of_plain {kind : Kind} {entry : Value Number} {d : Declaration} (hd : declaration kind entry = some d)
    (hplain : Plain d) : getArgs entry = d.arguments.map declaredText := by
  obtain ⟨name, -, rfl⟩ := Option.map_eq_some_iff.mp hd
  have harguments := hplain.arguments
  simp only at harguments
  rw [getArgs]
  split
  next args hgiven =>
    simp only [hgiven] at harguments
    simp only [List.map_map]
    refine List.map_congr_left fun arg harg => ?_
    obtain ⟨t, ht, -⟩ := harguments _ (List.mem_map_of_mem harg)
    rw [argumentType_of_declaredType ht, Function.comp_apply, ht]
    rfl
  next => rfl

theorem returnText_of_plain {kind : Kind} {entry : Value Number} {d : Declaration} (hd : declaration kind entry = some d)
    (hplain : Plain d) : (if kind = .method then primitiveText (givenReturnType entry) else some []) = some (returnText d) := by
  obtain ⟨name, -, rfl⟩ := Option.map_eq_some_iff.mp hd
  have hreturn := hplain.returnType
  cases kind with
  | method =>
      obtain ⟨t, ht⟩ : ∃ t, givenReturnType entry = .str t := hreturn
      simp only [if_true, returnText, ht]
      rfl
  | event => rfl

theorem topicsText_of_plain {kind : Kind} {entry : Value Number} {d : Declaration} (hd : declaration kind entry = some d)
    (hplain : Plain d) :
    (if kind = .event then topicsText entry else some []) = some (join (unit ',') (d.topics.map topicFlat)) := by
  obtain ⟨name, -, rfl⟩ := Option.map_eq_some_iff.mp hd
  have htopics := hplain.topics
  cases kind with
  | method => rfl
  | event =>
      rw [if_pos rfl, topicsText]
      simp only at htopics
      cases hmember : member (text "topics") entry with
      | none => rfl
      | some v =>
          rw [hmember] at htopics
          cases v with
          | arr topics =>
              have hall : topics.mapM topicText = some ((topics.map declaredTopic).map topicFlat) := by
                rw [List.map_map]
                refine mapM_eq_some fun topic htopic => ?_
                obtain ⟨name, hname, -⟩ := htopics _ (List.mem_map_of_mem htopic)
                exact topicText_of_declaredTopic hname
              simp only [hall]
              rfl
          | null | bool b | num n | str t | obj fields => rfl

theorem readEntry_of_plain {kind : Kind} {entry : Value Number} {d : Declaration} (hd : declaration kind entry = some d)
    (hplain : Plain d) : readEntry kind entry = .ok (d.name, flatten d) := by
  have hargs := getArgs_of_plain hd hplain
  have hreturn := returnText_of_plain hd hplain
  have htopics := topicsText_of_plain hd hplain
  obtain ⟨name, hname, hmade⟩ := Option.map_eq_some_iff.mp hd
  have hsame : d.name = name := by rw [← hmade]
  cases entry with
  | obj fields =>
      rw [readEntry.eq_def, hname]
      simp only [hreturn, htopics, hargs, hsame, flatten]
  | null | bool b | num n | str t | arr items => cases hname

theorem join_inj {xs ys : List Text} (hxs : ∀ t ∈ xs, t ≠ [] ∧ unit ',' ∉ t) (hys : ∀ t ∈ ys, t ≠ [] ∧ unit ',' ∉ t)
    (h : join (unit ',') xs = join (unit ',') ys) : xs = ys := by
  have hnil : ∀ ts : List Text, (∀ t ∈ ts, t ≠ [] ∧ unit ',' ∉ t) → join (unit ',') ts = [] → ts = [] := by
    intro ts hts hjoin
    cases ts with
    | nil => rfl
    | cons t ts =>
        have hne := (hts t List.mem_cons_self).1
        cases ts with
        | nil =>
            rw [join, List.intercalate_singleton] at hjoin
            exact absurd hjoin hne
        | cons u ts =>
            rw [join, List.intercalate_cons_cons] at hjoin
            exact absurd (List.append_eq_nil_iff.mp (List.append_eq_nil_iff.mp hjoin).1).1 hne
  by_cases hempty : join (unit ',') xs = []
  · rw [hnil xs hxs hempty, hnil ys hys (h ▸ hempty)]
  · rw [← split_join (fun t ht => (hxs t ht).2) hempty, h, split_join (fun t ht => (hys t ht).2) (h ▸ hempty)]

theorem topicFlat_inj {s t : Declared × Bool} {name other : Text} (hs : s.1 = .field (some (.str name)))
    (ht : t.1 = .field (some (.str other))) (h : topicFlat s = topicFlat t) : s = t := by
  obtain ⟨sname, sindexed⟩ := s
  obtain ⟨tname, tindexed⟩ := t
  simp only at hs ht
  subst hs ht
  have hparts : name ++ (text ":" ++ (if sindexed then text "true" else text "false")) =
      other ++ (text ":" ++ (if tindexed then text "true" else text "false")) := by
    rw [← List.append_assoc, ← List.append_assoc]
    exact h
  have hlast : ∀ a b : Text, a ++ (text ":" ++ text "true") ≠ b ++ (text ":" ++ text "false") := by
    intro a b heq
    have hends := congrArg (fun t : Text => t.reverse.take 5) heq
    have hleft : (a ++ (text ":" ++ text "true")).reverse.take 5 = (text ":true").reverse := by
      rw [List.reverse_append]
      exact List.take_left' rfl
    have hright : (b ++ (text ":" ++ text "false")).reverse.take 5 = (text "false").reverse := by
      rw [List.reverse_append, List.reverse_append, List.append_assoc]
      exact List.take_left' rfl
    simp only [hleft, hright] at hends
    exact absurd hends (by decide)
  cases sindexed <;> cases tindexed
  · rw [List.append_cancel_right hparts]
  · exact absurd hparts.symm (hlast _ _)
  · exact absurd hparts (hlast _ _)
  · rw [List.append_cancel_right hparts]

theorem map_inj_on {α β : Type} {f : α → β} {xs ys : List α} (hf : ∀ x ∈ xs, ∀ y ∈ ys, f x = f y → x = y)
    (h : xs.map f = ys.map f) : xs = ys := by
  induction xs generalizing ys with
  | nil => exact (List.map_eq_nil_iff.mp h.symm).symm
  | cons x xs ih =>
      cases ys with
      | nil => cases h
      | cons y ys =>
          obtain ⟨hfirst, hrest⟩ := List.cons.inj h
          rw [hf x List.mem_cons_self y List.mem_cons_self hfirst,
            ih (fun x' hx' y' hy' => hf x' (List.mem_cons_of_mem _ hx') y' (List.mem_cons_of_mem _ hy')) hrest]

variable {kind : Kind} {entry other : Value Number} {d e : Declaration}

theorem arguments_inj (hd : Plain d) (he : Plain e) (h : d.arguments.map declaredText = e.arguments.map declaredText) :
    d.arguments = e.arguments := by
  refine map_inj_on (fun a ha b hb hab => ?_) h
  obtain ⟨s, rfl, -⟩ := hd.arguments a ha
  obtain ⟨t, rfl, -⟩ := he.arguments b hb
  exact congrArg (fun t => Declared.field (some (.str t))) hab

/-- The signature of a plain declaration tells what it declares. -/
theorem flatten_inj (hentry : declaration kind entry = some d) (hother : declaration kind other = some e) (hd : Plain d)
    (he : Plain e) (h : flatten d = flatten e) :
    d.arguments = e.arguments ∧ d.returnType = e.returnType ∧ d.topics = e.topics := by
  have hsplit : ∀ c : Declaration, flatten c = (join (unit ',') (c.arguments.map declaredText) ++ [unit '-']) ++
      unit '>' :: (returnText c ++ text "|" ++ join (unit ',') (c.topics.map topicFlat)) := by
    intro c
    have harrow : text "->" = [unit '-', unit '>'] := by decide
    rw [flatten, harrow]
    simp only [List.append_assoc, List.cons_append, List.nil_append]
  have htexts : ∀ c, Plain c → ∀ t ∈ c.arguments.map declaredText, t ≠ [] ∧ unit ',' ∉ t ∧ unit '>' ∉ t := by
    intro c hc t ht
    obtain ⟨a, ha, rfl⟩ := List.mem_map.mp ht
    obtain ⟨s, rfl, hs⟩ := hc.arguments a ha
    exact hs
  have hfree : ∀ c, Plain c → unit '>' ∉ join (unit ',') (c.arguments.map declaredText) ++ [unit '-'] := by
    intro c hc hmem
    rcases List.mem_append.mp hmem with hmem | hmem
    · rcases mem_join hmem with hcomma | ⟨t, ht, hin⟩
      · exact absurd hcomma (by decide)
      · exact (htexts c hc t ht).2.2 hin
    · exact absurd (List.mem_singleton.mp hmem) (by decide)
  rw [hsplit, hsplit] at h
  obtain ⟨hargs, hrest⟩ := append_cons_inj (hfree d hd) (hfree e he) h
  have harguments := arguments_inj hd he (join_inj (fun t ht => ⟨(htexts d hd t ht).1, (htexts d hd t ht).2.1⟩)
    (fun t ht => ⟨(htexts e he t ht).1, (htexts e he t ht).2.1⟩) (List.append_cancel_right hargs))
  obtain ⟨r, hr⟩ := hd.returnType
  obtain ⟨q, hq⟩ := he.returnType
  obtain ⟨name, -, hmade⟩ := Option.map_eq_some_iff.mp hentry
  obtain ⟨name', -, hmade'⟩ := Option.map_eq_some_iff.mp hother
  refine ⟨harguments, ?_⟩
  cases kind with
  | method =>
      have hnone : d.topics = [] := by rw [← hmade]
      have hnone' : e.topics = [] := by rw [← hmade']
      rw [hnone, hnone', returnText, returnText, hr, hq] at hrest
      have hreturn : r = q := List.append_cancel_right (List.append_cancel_right hrest)
      exact ⟨by rw [hr, hq, hreturn], by rw [hnone, hnone']⟩
  | event =>
      have hvoid : d.returnType = .str [] := by rw [← hmade]; rfl
      have hvoid' : e.returnType = .str [] := by rw [← hmade']; rfl
      have hflat : ∀ c, Plain c → ∀ t ∈ c.topics.map topicFlat, t ≠ [] ∧ unit ',' ∉ t := by
        intro c hc t ht
        obtain ⟨topic, htopic, rfl⟩ := List.mem_map.mp ht
        obtain ⟨n, hn, hcomma⟩ := hc.topics topic htopic
        rw [topicFlat, hn]
        refine ⟨List.append_ne_nil_of_left_ne_nil (List.append_ne_nil_of_right_ne_nil _ (by decide)) _, fun hmem => ?_⟩
        rcases List.mem_append.mp hmem with hmem | hmem
        · rcases List.mem_append.mp hmem with hmem | hmem
          · exact hcomma hmem
          · exact absurd hmem (by decide)
        · split at hmem
          · exact absurd hmem (by decide)
          · exact absurd hmem (by decide)
      rw [returnText, returnText, hvoid, hvoid'] at hrest
      have htopics := join_inj (hflat d hd) (hflat e he) (List.append_cancel_left hrest)
      refine ⟨by rw [hvoid, hvoid'], map_inj_on (fun s hs t ht hst => ?_) htopics⟩
      obtain ⟨n, hn, -⟩ := hd.topics s hs
      obtain ⟨m, hm, -⟩ := he.topics t ht
      exact topicFlat_inj hn hm hst

theorem declared_same_iff {a b : Declared} {s t : Text} (ha : a = .field (some (.str s))) (hb : b = .field (some (.str t))) :
    a.Same b ↔ a = b := by
  subst ha hb
  simp only [Declared.Same, Json.Equality.Same, Declared.field.injEq, Option.some.injEq, Value.str.injEq]

theorem forall₂_eq {α : Type} {r : α → α → Prop} {xs ys : List α} (hr : ∀ x ∈ xs, ∀ y ∈ ys, (r x y ↔ x = y)) :
    List.Forall₂ r xs ys ↔ xs = ys := by
  induction xs generalizing ys with
  | nil => cases ys <;> simp
  | cons x xs ih =>
      cases ys with
      | nil => simp
      | cons y ys =>
          rw [List.forall₂_cons, hr x List.mem_cons_self y List.mem_cons_self,
            ih fun x' hx' y' hy' => hr x' (List.mem_cons_of_mem _ hx') y' (List.mem_cons_of_mem _ hy'), List.cons.injEq]

/-- Plain declarations are the same when their parts are equal. -/
theorem same_iff (hd : Plain d) (he : Plain e) : d.Same e ↔ d = e := by
  have harguments : List.Forall₂ Declared.Same d.arguments e.arguments ↔ d.arguments = e.arguments := by
    refine forall₂_eq fun a ha b hb => ?_
    obtain ⟨s, hs, -⟩ := hd.arguments a ha
    obtain ⟨t, ht, -⟩ := he.arguments b hb
    exact declared_same_iff hs ht
  have htopics : List.Forall₂ (fun s t => s.1.Same t.1 ∧ s.2 = t.2) d.topics e.topics ↔ d.topics = e.topics := by
    refine forall₂_eq fun s hs t ht => ?_
    obtain ⟨n, hn, -⟩ := hd.topics s hs
    obtain ⟨m, hm, -⟩ := he.topics t ht
    rw [declared_same_iff hn hm, Prod.ext_iff]
  have hreturn : Json.Equality.Same d.returnType e.returnType ↔ d.returnType = e.returnType := by
    obtain ⟨r, hr⟩ := hd.returnType
    obtain ⟨q, hq⟩ := he.returnType
    rw [hr, hq, Json.Equality.Same, Value.str.injEq]
  constructor
  · intro h
    obtain ⟨name, arguments, returnType, topics⟩ := d
    obtain ⟨name', arguments', returnType', topics'⟩ := e
    rw [Declaration.mk.injEq]
    exact ⟨h.name, harguments.mp h.arguments, hreturn.mp h.returnType, htopics.mp h.topics⟩
  · rintro rfl
    exact ⟨rfl, harguments.mpr rfl, hreturn.mpr rfl, htopics.mpr rfl⟩

theorem lastSignature_of_plain {schema : Value Number} (h : PlainDocument schema) (name : Text) :
    lastSignature kind schema name = ((declarations kind schema).map fun d => (d.name, flatten d)).lookup name := by
  have hsignatures : (entriesOf kind schema).filterMap (fun entry => (readEntry kind entry).toOption) =
      (declarations kind schema).map fun d => (d.name, flatten d) := by
    rw [declarations, ← List.filterMap_eq_map, List.filterMap_filterMap]
    refine List.filterMap_congr fun entry hentry => ?_
    cases hd : declaration kind entry with
    | some d =>
        have hmem : d ∈ declarations kind schema := List.mem_filterMap.mpr ⟨entry, hentry, hd⟩
        rw [readEntry_of_plain hd (h.plain kind d hmem)]
        rfl
    | none =>
        have hname : entryName entry = none := Option.map_eq_none_iff.mp hd
        rw [readEntry.eq_def, hname]
        cases entry <;> rfl
  have hnodup : (((declarations kind schema).map fun d => (d.name, flatten d)).map (·.1)).Nodup := by
    rw [List.map_map]
    exact h.names kind
  rw [lastSignature, hsignatures, lastOf_of_nodup hnodup]

theorem signature_of_mem {schema : Value Number} (h : PlainDocument schema) (hd : d ∈ declarations kind schema) :
    lastSignature kind schema d.name = some (flatten d) := by
  have hnodup : (((declarations kind schema).map fun d => (d.name, flatten d)).map (·.1)).Nodup := by
    rw [List.map_map]
    exact h.names kind
  rw [lastSignature_of_plain h]
  exact lookup_of_mem hnodup (List.mem_map.mpr ⟨d, hd, rfl⟩)

theorem mem_of_signature {schema : Value Number} (h : PlainDocument schema) {name signature : Text}
    (hsignature : lastSignature kind schema name = some signature) :
    ∃ d ∈ declarations kind schema, d.name = name ∧ flatten d = signature := by
  rw [lastSignature_of_plain h] at hsignature
  obtain ⟨d, hd, hmade⟩ := List.mem_map.mp (mem_of_lookup hsignature)
  cases hmade
  exact ⟨d, hd, rfl, rfl⟩

theorem different_of_not_kept {before after : Value Number} (hbefore : PlainDocument before) (hafter : PlainDocument after)
    (h : ¬Kept kind before after d) : lastSignature kind before d.name ≠ lastSignature kind after d.name := by
  intro hsame
  rw [Kept, Classical.not_imp] at h
  obtain ⟨hd, hnone⟩ := h
  rw [signature_of_mem hbefore hd] at hsame
  obtain ⟨e, he, hname, hflat⟩ := mem_of_signature hafter hsame.symm
  obtain ⟨entry, -, hentry⟩ := List.mem_filterMap.mp hd
  obtain ⟨other, -, hother⟩ := List.mem_filterMap.mp he
  have hplain := hbefore.plain kind d hd
  have hplain' := hafter.plain kind e he
  obtain ⟨harguments, hreturn, htopics⟩ := flatten_inj hentry hother hplain hplain' hflat.symm
  refine hnone ⟨e, he, (same_iff hplain hplain').mpr ?_⟩
  obtain ⟨name, arguments, returnType, topics⟩ := d
  obtain ⟨name', arguments', returnType', topics'⟩ := e
  rw [Declaration.mk.injEq]
  exact ⟨hname.symm, harguments, hreturn, htopics⟩

theorem signature_kept {before after : Value Number} (hbefore : PlainDocument before) (hafter : PlainDocument after)
    (h : ∀ d, Kept kind before after d) {name signature : Text}
    (hsignature : lastSignature kind before name = some signature) : lastSignature kind after name = some signature := by
  obtain ⟨d, hd, rfl, rfl⟩ := mem_of_signature hbefore hsignature
  obtain ⟨e, he, hsame⟩ := h d hd
  rw [(same_iff (hbefore.plain kind d hd) (hafter.plain kind e he)).mp hsame]
  exact signature_of_mem hafter he

/-- Documents whose declarations are plain are compared exactly. -/
theorem plain_distinguishes {before after : Value Number} (hbefore : PlainDocument before) (hafter : PlainDocument after) :
    Distinguishes before after where
  different kind d h := by
    rcases not_and_or.mp h with h | h
    · exact different_of_not_kept hbefore hafter h
    · exact (different_of_not_kept hafter hbefore h).symm
  alike h kind name := by
    refine Option.ext fun signature => ⟨?_, ?_⟩
    · exact signature_kept hbefore hafter fun d => (h kind d).1
    · exact signature_kept hafter hbefore fun d => (h kind d).2

end Plain

/-- A document with one method that has one argument. -/
def oneMethod (type : Text) (returns : Value Number) : Value Number :=
  .obj [(text "methods", .arr [.obj [(text "name", .str (text "get")), (text "args", .arr [.obj [(text "type", .str type)]]),
    (text "returns", returns)]])]

theorem oneMethod_plain {type returns : Text} (hne : trim type ≠ []) (hcomma : unit ',' ∉ trim type)
    (harrow : unit '>' ∉ trim type) : PlainDocument (oneMethod type (.str returns)) := by
  have hmethod : declarations .method (oneMethod type (.str returns)) =
      [⟨text "get", [.field (some (.str (trim type)))], .str returns, []⟩] := rfl
  have hevent : declarations .event (oneMethod type (.str returns)) = [] := rfl
  refine ⟨fun kind d hd => ?_, fun kind => ?_⟩
  · cases kind with
    | method =>
        rw [hmethod] at hd
        obtain rfl := List.mem_singleton.mp hd
        exact ⟨List.forall_mem_singleton.mpr ⟨_, rfl, hne, hcomma, harrow⟩, ⟨_, rfl⟩, List.forall_mem_nil _⟩
    | event =>
        rw [hevent] at hd
        cases hd
  · cases kind with
    | method =>
        rw [hmethod]
        exact List.nodup_singleton _
    | event =>
        rw [hevent]
        exact List.nodup_nil

theorem compareAbis_exact_types : ∃ changes,
    compareAbis (oneMethod (text "u32") (.str (text "bool"))) (oneMethod (text "u64") (.str (text "bool"))) = .ok changes ∧
      Exact (oneMethod (text "u32") (.str (text "bool"))) (oneMethod (text "u64") (.str (text "bool"))) changes :=
  ⟨_, rfl, (compareAbis_exact_iff rfl).mpr (plain_distinguishes (oneMethod_plain (by decide) (by decide) (by decide))
    (oneMethod_plain (by decide) (by decide) (by decide)))⟩

def vecOf (type : Text) : Value Number := .obj [(text "vec", .str type)]

/-- Of return types that are objects the signatures say nothing. -/
theorem not_compareAbis_exact : ¬∀ before after changes, compareAbis before after = .ok changes → Exact before after changes := by
  intro h
  have hexact := h (oneMethod (text "u32") (vecOf (text "u32"))) (oneMethod (text "u32") (vecOf (text "u64"))) [] rfl
  obtain ⟨e, he, hsame⟩ := (hexact.nothing.mp rfl .method ⟨text "get", [.field (some (.str (text "u32")))],
    vecOf (text "u32"), []⟩).1 List.mem_cons_self
  obtain rfl := List.mem_singleton.mp he
  obtain ⟨w, hw, htypes⟩ := hsame.returnType.2.1
  cases hw
  have htexts : text "u32" = text "u64" := htypes
  exact absurd htexts (by decide)

end Savitools.Web.AbiChanges
