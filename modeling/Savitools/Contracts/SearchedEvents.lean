import Savitools.Contracts.EventFilters
import Savitools.Contracts.ScValDecoder

namespace Savitools.Contracts.SearchedEvents

open Strings.CodeUnits Json.Numbers Json.Values Json.Doubles DecodedEvents EventFilters
open ScValDecoder (Content Typed)

def typedObject (type raw : Text) (value : Value Number) : Value Number :=
  .obj [(text "type", .str type), (text "value", value), (text "raw", .str raw)]

mutual

/-- The value that the decoder gives, as the platform has it. -/
def rendered : Content → Value Number
  | .null => .null
  | .text t => .str t
  | .number x => .num x
  | .bool b => .bool b
  | .vec items => .arr (renderedItems items)
  | .pairs entries => .arr (renderedPairs entries)
  | .record fields => .obj (renderedFields fields)

def renderedItems : List (Typed Content) → List (Value Number)
  | [] => []
  | ⟨type, value, raw⟩ :: items =>
      typedObject type raw (rendered value) :: renderedItems items

def renderedPairs : List (Typed Content × Typed Content) → List (Value Number)
  | [] => []
  | (⟨keyType, key, keyRaw⟩, ⟨type, value, raw⟩) :: entries =>
      .obj [(text "key", typedObject keyType keyRaw (rendered key)),
          (text "value", typedObject type raw (rendered value))] :: renderedPairs entries

def renderedFields : List (Text × Content) → List (Text × Value Number)
  | [] => []
  | (name, value) :: fields => (name, rendered value) :: renderedFields fields

end

/-- A text that a decoded value shows: that of a scalar other than null, or the key of a map. -/
inductive Shows : Text → Content → Prop
  | text (t : Text) : Shows t (.text t)
  | number (x : Number) : Shows (numberText x) (.number x)
  | bool (b : Bool) : Shows (if b then Strings.CodeUnits.text "true" else Strings.CodeUnits.text "false") (.bool b)
  | item {t : Text} {items : List (Typed Content)} {item : Typed Content} (hitem : item ∈ items) (h : Shows t item.value) :
      Shows t (.vec items)
  | pairKey {t : Text} {entries : List (Typed Content × Typed Content)} {entry : Typed Content × Typed Content}
      (hentry : entry ∈ entries) (h : Shows t entry.1.value) : Shows t (.pairs entries)
  | pairValue {t : Text} {entries : List (Typed Content × Typed Content)} {entry : Typed Content × Typed Content}
      (hentry : entry ∈ entries) (h : Shows t entry.2.value) : Shows t (.pairs entries)
  | key {t : Text} {fields : List (Text × Content)} {value : Content} (hfield : (t, value) ∈ fields) : Shows t (.record fields)
  | member {t name : Text} {fields : List (Text × Content)} {value : Content} (hfield : (name, value) ∈ fields)
      (h : Shows t value) : Shows t (.record fields)

/-- The strings that are collected are those that hold. -/
def Collects (strings : Except Text (List Text)) (holds : Text → Prop) : Prop :=
  ∃ out, strings = .ok out ∧ ∀ t, t ∈ out ↔ holds t

theorem valueStrings_typed (type raw : Text) (value : Value Number) :
    valueStrings [(text "type", .str type), (text "value", value), (text "raw", .str raw)] = stringsOf value := by
  rw [valueStrings, if_neg (by decide), valueStrings, if_pos rfl]

theorem itemString_typed (type raw : Text) (value : Value Number) :
    itemString (typedObject type raw value) = stringsOf value := by
  have hraw : textMember (text "raw") (typedObject type raw value) = some raw := rfl
  rw [typedObject] at hraw ⊢
  rw [itemString, hraw, Option.isSome_some, if_pos rfl, valueStrings_typed]

theorem itemString_pair (keyType keyRaw type raw : Text) (key value : Value Number) :
    itemString (.obj [(text "key", typedObject keyType keyRaw key), (text "value", typedObject type raw value)]) =
      (stringsOf key).bind fun out => (stringsOf value).map fun rest => out ++ rest := by
  have hraw : textMember (text "raw") (.obj [(text "key", typedObject keyType keyRaw key),
      (text "value", typedObject type raw value)]) = none := rfl
  rw [itemString, hraw, Option.isSome_none, if_neg (by decide), pairStrings, if_pos rfl, pairStrings, if_neg (by decide),
    pairStrings, if_pos rfl, typedObject, typedObject, nestedStrings, nestedStrings, valueStrings_typed, valueStrings_typed]

theorem Collects.append {first second : Except Text (List Text)} {p q : Text → Prop} (hfirst : Collects first p)
    (hsecond : Collects second q) :
    Collects (first.bind fun out => second.map fun rest => out ++ rest) fun t => p t ∨ q t := by
  obtain ⟨out, rfl, hout⟩ := hfirst
  obtain ⟨rest, rfl, hrest⟩ := hsecond
  exact ⟨out ++ rest, rfl, fun t => by rw [List.mem_append, hout, hrest]⟩

theorem Collects.cons (name : Text) {first second : Except Text (List Text)} {p q : Text → Prop} (hfirst : Collects first p)
    (hsecond : Collects second q) :
    Collects (first.bind fun out => second.map fun rest => name :: (out ++ rest)) fun t => t = name ∨ p t ∨ q t := by
  obtain ⟨out, rfl, hout⟩ := hfirst
  obtain ⟨rest, rfl, hrest⟩ := hsecond
  exact ⟨name :: (out ++ rest), rfl, fun t => by rw [List.mem_cons, List.mem_append, hout, hrest]⟩

theorem Collects.congr {strings : Except Text (List Text)} {p q : Text → Prop} (h : Collects strings p)
    (hpq : ∀ t, p t ↔ q t) : Collects strings q := by
  obtain ⟨out, hout, hmem⟩ := h
  exact ⟨out, hout, fun t => (hmem t).trans (hpq t)⟩

mutual

theorem stringsOf_rendered : ∀ value, Collects (stringsOf (rendered value)) (Shows · value)
  | .null => ⟨[], rfl, fun _ => iff_of_false (List.not_mem_nil) nofun⟩
  | .text s => ⟨[s], rfl, fun _ => ⟨fun h => List.mem_singleton.mp h ▸ .text s, fun | .text _ => List.mem_cons_self⟩⟩
  | .number x => ⟨[_], rfl, fun _ => ⟨fun h => List.mem_singleton.mp h ▸ .number x, fun | .number _ => List.mem_cons_self⟩⟩
  | .bool b => ⟨[_], rfl, fun _ => ⟨fun h => List.mem_singleton.mp h ▸ .bool b, fun | .bool _ => List.mem_cons_self⟩⟩
  | .vec items => (itemStrings_items items).congr fun _ =>
      ⟨fun ⟨_, hitem, h⟩ => .item hitem h, fun | .item hitem h => ⟨_, hitem, h⟩⟩
  | .pairs entries => (itemStrings_pairs entries).congr fun _ =>
      ⟨fun ⟨_, hentry, h⟩ => h.elim (.pairKey hentry) (.pairValue hentry),
        fun | .pairKey hentry h => ⟨_, hentry, .inl h⟩ | .pairValue hentry h => ⟨_, hentry, .inr h⟩⟩
  | .record fields => (entryStrings_fields fields).congr fun _ =>
      ⟨fun ⟨_, hfield, h⟩ => h.elim (fun hname => hname ▸ .key hfield) (.member hfield),
        fun | .key hfield => ⟨_, hfield, .inl rfl⟩ | .member hfield h => ⟨_, hfield, .inr h⟩⟩

theorem itemStrings_items : ∀ items, Collects (itemStrings (renderedItems items)) fun t => ∃ item ∈ items, Shows t item.value
  | [] => ⟨[], rfl, by simp⟩
  | ⟨type, value, raw⟩ :: items => by
      rw [renderedItems, itemStrings, itemString_typed]
      exact ((stringsOf_rendered value).append (itemStrings_items items)).congr fun t => by simp

theorem itemStrings_pairs : ∀ entries, Collects (itemStrings (renderedPairs entries)) fun t =>
    ∃ entry ∈ entries, Shows t entry.1.value ∨ Shows t entry.2.value
  | [] => ⟨[], rfl, by simp⟩
  | (⟨keyType, key, keyRaw⟩, ⟨type, value, raw⟩) :: entries => by
      rw [renderedPairs, itemStrings, itemString_pair]
      exact (((stringsOf_rendered key).append (stringsOf_rendered value)).append (itemStrings_pairs entries)).congr
        fun t => by simp

theorem entryStrings_fields : ∀ fields, Collects (entryStrings (renderedFields fields)) fun t =>
    ∃ field ∈ fields, field.1 = t ∨ Shows t field.2
  | [] => ⟨[], rfl, by simp⟩
  | (name, value) :: fields => by
      rw [renderedFields, entryStrings]
      exact ((stringsOf_rendered value).cons name (entryStrings_fields fields)).congr fun t => by simp [eq_comm, or_assoc]

end

/-- An event whose topics and value are what the decoder gives. -/
structure DecodedEvent (R : Type) where
  ledger : Number
  topic : List ScValDecoder.DecodedScVal
  value : ScValDecoder.DecodedScVal
  rest : R
  matchedCriteria : Option (List Text)

def typed (decoded : ScValDecoder.DecodedScVal) : DecodedScVal := ⟨decoded.type, some (rendered decoded.value), decoded.raw⟩

variable {R : Type}

def DecodedEvent.event (event : DecodedEvent R) : DecodedContractEvent R :=
  ⟨event.ledger, event.topic.map typed, typed event.value, event.rest, event.matchedCriteria⟩

def DecodedEvent.annotated (criteria : List EventFilterCriterion) (event : DecodedEvent R) : DecodedEvent R :=
  { event with matchedCriteria := some (criteria.map describeCriterion) }

variable (beyondAscii : Text → Text)

/-- What a criterion says, over the texts that the event shows. -/
def Meets (event : DecodedEvent R) : EventFilterCriterion → Prop
  | .topic_contains value => ∃ topic ∈ event.topic, ∃ t, Shows t topic.value ∧
      toLowerCase beyondAscii value <:+: toLowerCase beyondAscii t
  | .value_type_is value => toLowerCase beyondAscii event.value.type = toLowerCase beyondAscii value ∨
      toLowerCase beyondAscii event.value.type = text "scv" ++ toLowerCase beyondAscii value
  | .value_equals value => ∃ t, Shows t event.value.value ∧ toLowerCase beyondAscii t = toLowerCase beyondAscii value
  | .ledger_range lower upper =>
      (∀ bound ∈ lower, exceeds bound event.ledger = false) ∧ ∀ bound ∈ upper, exceeds event.ledger bound = false

variable {beyondAscii}

theorem someTopic_decoded (target : Text) (topics : List ScValDecoder.DecodedScVal) :
    ∃ isMet, someTopic beyondAscii target (topics.map typed) = .ok isMet ∧
      (isMet = true ↔ ∃ topic ∈ topics, ∃ t, Shows t topic.value ∧ target <:+: toLowerCase beyondAscii t) := by
  induction topics with
  | nil => exact ⟨false, rfl, by simp⟩
  | cons topic topics ih =>
      obtain ⟨out, hout, hmem⟩ := stringsOf_rendered topic.value
      have hstrings : searchableStrings (typed topic) = .ok out := hout
      have hany : (out.any fun s => target <:+: toLowerCase beyondAscii s) = true ↔
          ∃ t, Shows t topic.value ∧ target <:+: toLowerCase beyondAscii t := by
        simp [hmem]
      have hcons : someTopic beyondAscii target ((topic :: topics).map typed) =
          if out.any fun s => target <:+: toLowerCase beyondAscii s then .ok true
          else someTopic beyondAscii target (topics.map typed) := by
        rw [List.map_cons, someTopic, hstrings]
        rfl
      rw [hcons]
      split
      next htopic => exact ⟨true, rfl, iff_of_true rfl ⟨topic, List.mem_cons_self, hany.mp htopic⟩⟩
      next htopic =>
        obtain ⟨isMet, hrest, hmet⟩ := ih
        refine ⟨isMet, hrest, hmet.trans ?_⟩
        simp only [List.mem_cons, exists_eq_or_imp]
        exact (or_iff_right (fun h => htopic (hany.mpr h))).symm

theorem matchesCriterion_decoded (event : DecodedEvent R) (criterion : EventFilterCriterion) :
    ∃ isMet, matchesCriterion beyondAscii event.event criterion = .ok isMet ∧
      (isMet = true ↔ Meets beyondAscii event criterion) := by
  cases criterion with
  | topic_contains value => exact someTopic_decoded _ event.topic
  | value_type_is value =>
      refine ⟨_, rfl, ?_⟩
      rw [valueTypeMatches, Bool.or_eq_true, decide_eq_true_iff, decide_eq_true_iff]
      rfl
  | value_equals value =>
      obtain ⟨out, hout, hmem⟩ := stringsOf_rendered event.value.value
      have hstrings : searchableStrings event.event.value = .ok out := hout
      refine ⟨_, by rw [matchesCriterion, valueEquals, hstrings]; rfl, ?_⟩
      simp [Meets, hmem]
  | ledger_range lower upper =>
      refine ⟨_, rfl, ?_⟩
      simp only [ledgerInRange, Meets, DecodedEvent.event]
      cases lower <;> cases upper <;> simp <;> grind

theorem matchedCriteria_decoded (event : DecodedEvent R) (criteria : List EventFilterCriterion) :
    ∃ isMet, matchedCriteria beyondAscii event.event criteria =
        .ok (if isMet then some (criteria.map describeCriterion) else none) ∧
      (isMet = true ↔ ∀ criterion ∈ criteria, Meets beyondAscii event criterion) := by
  induction criteria with
  | nil => exact ⟨true, rfl, by simp⟩
  | cons criterion criteria ih =>
      obtain ⟨first, hfirst, hmeets⟩ := @matchesCriterion_decoded R beyondAscii event criterion
      obtain ⟨others, hothers, hall⟩ := ih
      refine ⟨first && others, ?_, ?_⟩
      · rw [matchedCriteria, hfirst, hothers]
        cases first <;> cases others <;> rfl
      · simp only [Bool.and_eq_true, hmeets, hall, List.forall_mem_cons]

theorem surviving_decoded {criteria : List EventFilterCriterion} {survives : DecodedEvent R → Bool}
    (h : ∀ event, survives event = true ↔ ∀ criterion ∈ criteria, Meets beyondAscii event criterion)
    (events : List (DecodedEvent R)) :
    surviving beyondAscii criteria (events.map DecodedEvent.event) =
      .ok ((events.filter survives).map fun event => (event.annotated criteria).event) := by
  induction events with
  | nil => rfl
  | cons event events ih =>
      obtain ⟨isMet, hmatched, hmeets⟩ := @matchedCriteria_decoded R beyondAscii event criteria
      obtain rfl : isMet = survives event := Bool.eq_iff_iff.mpr (hmeets.trans (h event).symm)
      rw [List.map_cons, surviving, hmatched, ih]
      cases hsurvives : survives event
      · rw [List.filter_cons_of_neg (by simp [hsurvives])]
        rfl
      · rw [List.filter_cons_of_pos hsurvives]
        rfl

/-- A search sees every text that an event shows, and keeps the events that meet all its criteria. -/
theorem event_search_sees_leaves (beyondAscii : Text → Text) (events : List (DecodedEvent R))
    (criteria : List EventFilterCriterion) :
    (∀ (event : DecodedEvent R) value, ∃ isMet, matchesCriterion beyondAscii event.event (.value_equals value) = .ok isMet ∧
        (isMet = true ↔ ∃ t, Shows t event.value.value ∧ toLowerCase beyondAscii t = toLowerCase beyondAscii value)) ∧
      (∀ (event : DecodedEvent R) value, ∃ isMet, matchesCriterion beyondAscii event.event (.topic_contains value) = .ok isMet ∧
        (isMet = true ↔ ∃ topic ∈ event.topic, ∃ t, Shows t topic.value ∧
          toLowerCase beyondAscii value <:+: toLowerCase beyondAscii t)) ∧
      ∃ survives : DecodedEvent R → Bool,
        (∀ event, survives event = true ↔ ∀ criterion ∈ criteria, Meets beyondAscii event criterion) ∧
          applyEventFilters beyondAscii (events.map DecodedEvent.event) criteria =
            .ok ((events.filter survives).map fun event => (event.annotated criteria).event) := by
  classical
  refine ⟨fun event value => matchesCriterion_decoded event (.value_equals value),
    fun event value => matchesCriterion_decoded event (.topic_contains value),
    fun event => decide (∀ criterion ∈ criteria, Meets beyondAscii event criterion), fun event => decide_eq_true_iff, ?_⟩
  rw [applyEventFilters]
  split
  next hnone =>
    subst hnone
    simp [DecodedEvent.annotated, DecodedEvent.event, Function.comp_def]
  next => exact surviving_decoded (fun event => decide_eq_true_iff) events

end Savitools.Contracts.SearchedEvents
