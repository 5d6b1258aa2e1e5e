import Savitools.Contracts.EventFilters
import Mathlib.Algebra.Order.Ring.Unbundled.Rat
import Savitools.Strings.Trimming

namespace Savitools.Web.ContractEvents

open Strings.CodeUnits Strings.Decimals Json.Numbers Json.Values Json.Conversions Json.Doubles Contracts.DecodedEvents

inductive CriterionKind
  | topic_contains
  | value_type_is
  | value_equals
  | ledger_range
deriving DecidableEq

/-- A bound that is typed in: nothing, a number, or what is no bound. -/
def parseBound (raw : Text) : Except Unit (Option Number) :=
  let normalized := trim raw
  if normalized = [] then .ok none
  else if normalized.all isDigit then
    match (toNumber normalized).filter isSafeInteger with
    | some parsed => .ok (some parsed)
    | none => .error ()
  else .error ()

def buildLedgerRange (lower upper : Except Unit (Option Number)) : Except Text EventFilterCriterion :=
  match lower, upper with
  | .ok none, .ok none => .error (text "Enter at least one ledger bound.")
  | .ok (some a), .ok (some b) =>
      if exceeds a b then .error (text "The lower ledger bound must not exceed the upper bound.")
      else .ok (.ledger_range (some a) (some b))
  | .ok lower, .ok upper => .ok (.ledger_range lower upper)
  | _, _ => .error (text "Ledger bounds must be non-negative safe integers.")

def buildValue (make : Text → EventFilterCriterion) (value : Text) : Except Text EventFilterCriterion :=
  let normalized := trim value
  if normalized = [] then .error (text "Enter a value for this filter.")
  else if MAX_EVENT_FILTER_VALUE_LENGTH < normalized.length then
    .error (text "Filter values must be " ++ ofNat MAX_EVENT_FILTER_VALUE_LENGTH ++ text " characters or fewer.")
  else .ok (make normalized)

def buildEventFilterCriterion (kind : CriterionKind) (value lower upper : Text) : Except Text EventFilterCriterion :=
  match kind with
  | .topic_contains => buildValue .topic_contains value
  | .value_type_is => buildValue .value_type_is value
  | .value_equals => buildValue .value_equals value
  | .ledger_range => buildLedgerRange (parseBound lower) (parseBound upper)

def describeCriterion : EventFilterCriterion → Text
  | .topic_contains value => text "topic contains " ++ value
  | .value_type_is value => text "value type is " ++ value
  | .value_equals value => text "value equals " ++ value
  | .ledger_range lower upper =>
      text "ledger " ++ lower.elim (text "*") numberText ++ text ".." ++ upper.elim (text "*") numberText

mutual

/-- The strings of a value within another. -/
def nestedStrings : Value Number → Except Text (List Text)
  | .null => .error nullValue
  | .obj fields => valueStrings fields
  | _ => .ok []

/-- The member `value`, which may be missing. -/
def valueStrings : List (Text × Value Number) → Except Text (List Text)
  | [] => .ok []
  | (key, v) :: fields => if key = text "value" then stringsOf v else valueStrings fields

/-- A member of a pair. -/
def pairStrings (name : Text) : List (Text × Value Number) → Except Text (List Text)
  | [] => .error undefinedValue
  | (key, v) :: fields => if key = name then nestedStrings v else pairStrings name fields

def stringsOf : Value Number → Except Text (List Text)
  | .null => .ok []
  | .str t => .ok [t]
  | .num x => .ok [numberText x]
  | .bool b => .ok [if b then text "true" else text "false"]
  | .arr items => itemStrings items
  | .obj fields => entryStrings fields

def itemStrings : List (Value Number) → Except Text (List Text)
  | [] => .ok []
  | item :: items => (itemString item).bind fun out => (itemStrings items).map fun rest => out ++ rest

def itemString : Value Number → Except Text (List Text)
  | .null => .error nullRaw
  | .obj fields =>
      if (textMember (text "raw") (.obj fields)).isSome then valueStrings fields
      else (pairStrings (text "key") fields).bind fun key => (pairStrings (text "value") fields).map fun value => key ++ value
  | _ => .error undefinedValue

def entryStrings : List (Text × Value Number) → Except Text (List Text)
  | [] => .ok []
  | (key, nested) :: fields =>
      (stringsOf nested).bind fun out => (entryStrings fields).map fun rest => key :: (out ++ rest)

end

def searchableStrings (decoded : DecodedScVal) : Except Text (List Text) :=
  match decoded.value with
  | none => .ok []
  | some value => stringsOf value

variable {R : Type} (beyondAscii : Text → Text)

/-- `topic.some`: a topic after the first that matches is not looked at. -/
def someTopic (target : Text) : List DecodedScVal → Except Text Bool
  | [] => .ok false
  | topic :: topics =>
      (searchableStrings topic).bind fun strings =>
        if strings.any (fun s => target <:+: toLowerCase beyondAscii s) then .ok true else someTopic target topics

def matchesCriterion (event : DecodedContractEvent R) : EventFilterCriterion → Except Text Bool
  | .topic_contains value => someTopic beyondAscii (toLowerCase beyondAscii value) event.topic
  | .value_type_is value =>
      let target := toLowerCase beyondAscii value
      let actual := toLowerCase beyondAscii event.value.type
      .ok (actual = target || actual = text "scv" ++ target)
  | .value_equals value =>
      let target := toLowerCase beyondAscii value
      (searchableStrings event.value).map fun strings => strings.any fun s => toLowerCase beyondAscii s = target
  | .ledger_range lower upper =>
      .ok (!lower.any (fun bound => exceeds bound event.ledger) && !upper.any (fun bound => exceeds event.ledger bound))

/-- The descriptions of the criteria, or nothing when one is not met. -/
def matchedCriteria (event : DecodedContractEvent R) : List EventFilterCriterion → Except Text (Option (List Text))
  | [] => .ok (some [])
  | criterion :: criteria =>
      (matchesCriterion beyondAscii event criterion).bind fun isMet =>
        if isMet then (matchedCriteria event criteria).map fun rest => rest.map (describeCriterion criterion :: ·)
        else .ok none

/-- The loop over the events. -/
def surviving (criteria : List EventFilterCriterion) :
    List (DecodedContractEvent R) → Except Text (List (DecodedContractEvent R))
  | [] => .ok []
  | event :: events =>
      (matchedCriteria beyondAscii event criteria).bind fun found =>
        (surviving criteria events).map fun rest =>
          found.elim rest fun matched => { event with matchedCriteria := some matched } :: rest

def applyEventFilters (events : List (DecodedContractEvent R)) (criteria : List EventFilterCriterion) :
    Except Text (List (DecodedContractEvent R)) :=
  if criteria = [] then .ok (events.map fun event => { event with matchedCriteria := some [] })
  else surviving beyondAscii criteria events

end Savitools.Web.ContractEvents

namespace Savitools.Web.FilterAgreement

open Strings.CodeUnits Strings.Decimals Json.Numbers Json.Values Json.Conversions Json.Doubles Contracts
open Contracts.DecodedEvents ContractEvents Strings.Trimming

section

mutual

theorem nestedStrings_eq (v : Value Number) : nestedStrings v = EventFilters.nestedStrings v := by
  cases v with
  | obj fields => exact valueStrings_eq fields
  | _ => rfl

theorem valueStrings_eq (fields : List (Text × Value Number)) : valueStrings fields = EventFilters.valueStrings fields := by
  cases fields with
  | nil => rfl
  | cons field fields =>
      obtain ⟨key, v⟩ := field
      rw [valueStrings, EventFilters.valueStrings, stringsOf_eq v, valueStrings_eq fields]

theorem pairStrings_eq (name : Text) (fields : List (Text × Value Number)) :
    pairStrings name fields = EventFilters.pairStrings name fields := by
  cases fields with
  | nil => rfl
  | cons field fields =>
      obtain ⟨key, v⟩ := field
      rw [pairStrings, EventFilters.pairStrings, nestedStrings_eq v, pairStrings_eq name fields]

theorem stringsOf_eq (v : Value Number) : stringsOf v = EventFilters.stringsOf v := by
  cases v with
  | arr items => exact itemStrings_eq items
  | obj fields => exact entryStrings_eq fields
  | _ => rfl

theorem itemStrings_eq (items : List (Value Number)) : itemStrings items = EventFilters.itemStrings items := by
  cases items with
  | nil => rfl
  | cons item items => rw [itemStrings, EventFilters.itemStrings, itemString_eq item, itemStrings_eq items]

theorem itemString_eq (item : Value Number) : itemString item = EventFilters.itemString item := by
  cases item with
  | obj fields =>
      rw [itemString, EventFilters.itemString, valueStrings_eq fields, pairStrings_eq (text "key") fields,
        pairStrings_eq (text "value") fields]
  | _ => rfl

theorem entryStrings_eq (fields : List (Text × Value Number)) : entryStrings fields = EventFilters.entryStrings fields := by
  cases fields with
  | nil => rfl
  | cons field fields =>
      obtain ⟨key, nested⟩ := field
      rw [entryStrings, EventFilters.entryStrings, stringsOf_eq nested, entryStrings_eq fields]

end

end

theorem searchableStrings_eq (decoded : DecodedScVal) :
    searchableStrings decoded = EventFilters.searchableStrings decoded := by
  rw [searchableStrings, EventFilters.searchableStrings]
  cases decoded.value with
  | none => rfl
  | some value => exact stringsOf_eq value

variable {R : Type} (beyondAscii : Text → Text)

theorem someTopic_eq (target : Text) (topics : List DecodedScVal) :
    someTopic beyondAscii target topics = EventFilters.someTopic beyondAscii target topics := by
  induction topics with
  | nil => rfl
  | cons topic topics ih => rw [someTopic, EventFilters.someTopic, searchableStrings_eq, ih]

theorem matchesCriterion_eq (event : DecodedContractEvent R) (criterion : EventFilterCriterion) :
    matchesCriterion beyondAscii event criterion = EventFilters.matchesCriterion beyondAscii event criterion := by
  cases criterion with
  | topic_contains value => exact someTopic_eq beyondAscii _ event.topic
  | value_type_is value => rfl
  | value_equals value =>
      rw [matchesCriterion, EventFilters.matchesCriterion, EventFilters.valueEquals, searchableStrings_eq]
  | ledger_range lower upper =>
      rw [matchesCriterion, EventFilters.matchesCriterion, EventFilters.ledgerInRange]
      cases lower.any (fun bound => exceeds bound event.ledger) <;>
        cases upper.any (fun bound => exceeds event.ledger bound) <;> rfl

theorem describeCriterion_eq (criterion : EventFilterCriterion) :
    describeCriterion criterion = EventFilters.describeCriterion criterion := by
  cases criterion <;> rfl

theorem matchedCriteria_eq (event : DecodedContractEvent R) (criteria : List EventFilterCriterion) :
    matchedCriteria beyondAscii event criteria = EventFilters.matchedCriteria beyondAscii event criteria := by
  induction criteria with
  | nil => rfl
  | cons criterion criteria ih =>
      rw [matchedCriteria, EventFilters.matchedCriteria, matchesCriterion_eq, ih, describeCriterion_eq]

theorem surviving_eq (criteria : List EventFilterCriterion) (events : List (DecodedContractEvent R)) :
    surviving beyondAscii criteria events = EventFilters.surviving beyondAscii criteria events := by
  induction events with
  | nil => rfl
  | cons event events ih => rw [surviving, EventFilters.surviving, matchedCriteria_eq, ih]

theorem applyEventFilters_eq (events : List (DecodedContractEvent R)) (criteria : List EventFilterCriterion) :
    applyEventFilters beyondAscii events criteria = EventFilters.applyEventFilters beyondAscii events criteria := by
  rw [applyEventFilters, EventFilters.applyEventFilters, surviving_eq]

/-- A criterion as it is sent to the API. -/
def criterionValue : EventFilterCriterion → Value Number
  | .topic_contains value => .obj [(text "kind", .str (text "topic_contains")), (text "value", .str value)]
  | .value_type_is value => .obj [(text "kind", .str (text "value_type_is")), (text "value", .str value)]
  | .value_equals value => .obj [(text "kind", .str (text "value_equals")), (text "value", .str value)]
  | .ledger_range lower upper =>
      .obj ((text "kind", .str (text "ledger_range")) ::
        ((lower.map fun bound => (text "from", Value.num bound)).toList ++
          (upper.map fun bound => (text "to", Value.num bound)).toList))

theorem not_negative_nearest (a d : Nat) : exceeds (.finite 0) (nearest false a d) = false := by
  rw [nearest]
  simp only [Bool.false_eq_true, if_false]
  split
  · rfl
  · exact decide_eq_false (Rat.not_lt.mpr (Rat.mkRat_nonneg (Int.natCast_nonneg _) _))

/-- What is taken for a bound passes the check of the API. -/
theorem not_isBadBound {raw : Text} {bound : Number} (h : parseBound raw = .ok (some bound)) :
    EventFilters.isBadBound (.num bound) = false := by
  rw [parseBound] at h
  split at h
  next => cases h
  next hne =>
    split at h
    next hdigits =>
      split at h
      next parsed hparsed =>
        cases h
        obtain ⟨hnumber, hsafe⟩ := Option.filter_eq_some_iff.mp hparsed
        rw [toNumber_digits (List.all_eq_true.mp hdigits) hne] at hnumber
        rw [EventFilters.isBadBound, hsafe, ← Option.some.inj hnumber, not_negative_nearest]
        rfl
      next => cases h
    next => cases h

section

variable (index : Nat)

theorem criterionError_value {kind value : Text}
    (hkind : kind ∈ [text "topic_contains", text "value_type_is", text "value_equals"])
    (hblank : trim value ≠ []) (hshort : value.length ≤ MAX_EVENT_FILTER_VALUE_LENGTH) :
    EventFilters.criterionError index (.obj [(text "kind", .str kind), (text "value", .str value)]) = none := by
  have hkindOf : member (text "kind") (.obj [(text "kind", .str kind), (text "value", .str value)] : Value Number) =
      some (.str kind) := rfl
  have hvalueOf : textMember (text "value") (.obj [(text "kind", .str kind), (text "value", .str value)] : Value Number) =
      some value := rfl
  have hlower : member (text "from") (.obj [(text "kind", .str kind), (text "value", .str value)] : Value Number) = none := rfl
  have hupper : member (text "to") (.obj [(text "kind", .str kind), (text "value", .str value)] : Value Number) = none := rfl
  have hsupported : EventFilters.supportedKinds.contains kind = true ∧ (kind == text "ledger_range") = false := by
    simp only [List.mem_cons, List.not_mem_nil, or_false] at hkind
    obtain rfl | rfl | rfl := hkind <;> exact (by decide)
  rw [EventFilters.criterionError]
  simp only [hkindOf, Option.elim_some, stringOf, hsupported.1, Bool.not_true, Bool.false_eq_true, if_false, Option.any_some,
    Value.strictEqText, hsupported.2]
  rw [EventFilters.valueError]
  simp only [hlower, hupper, Option.isSome_none, Bool.false_eq_true, or_self, if_false, hvalueOf, if_neg hblank,
    if_neg (Nat.not_lt.mpr hshort)]

/-- A criterion with a value is built from what is neither blank nor too long, and is trimmed. -/
theorem buildValue_eq_ok {make : Text → EventFilterCriterion} {value : Text} {criterion : EventFilterCriterion}
    (h : buildValue make value = .ok criterion) :
    criterion = make (trim value) ∧ trim value ≠ [] ∧ (trim value).length ≤ MAX_EVENT_FILTER_VALUE_LENGTH := by
  rw [buildValue] at h
  split at h
  next => cases h
  next hblank =>
    split at h
    next => cases h
    next hlong =>
      cases h
      exact ⟨rfl, hblank, Nat.not_lt.mp hlong⟩

theorem criterionError_range {lower upper : Option Number} (hsome : lower ≠ none ∨ upper ≠ none)
    (hlower : ∀ bound ∈ lower, EventFilters.isBadBound (.num bound) = false)
    (hupper : ∀ bound ∈ upper, EventFilters.isBadBound (.num bound) = false)
    (horder : ∀ a ∈ lower, ∀ b ∈ upper, exceeds a b = false) :
    EventFilters.criterionError index (criterionValue (.ledger_range lower upper)) = none := by
  have hsupported : EventFilters.supportedKinds.contains (text "ledger_range") = true ∧
      (text "ledger_range" == text "ledger_range") = true := by decide
  have hmembers : member (text "kind") (criterionValue (.ledger_range lower upper)) = some (.str (text "ledger_range")) ∧
      member (text "value") (criterionValue (.ledger_range lower upper)) = none ∧
      member (text "from") (criterionValue (.ledger_range lower upper)) = lower.map .num ∧
      member (text "to") (criterionValue (.ledger_range lower upper)) = upper.map .num := by
    cases lower <;> cases upper <;> exact ⟨rfl, rfl, rfl, rfl⟩
  obtain ⟨hkindOf, hvalueOf, hlowerOf, hupperOf⟩ := hmembers
  have hrange : EventFilters.ledgerRangeError index (criterionValue (.ledger_range lower upper)) = none := by
    rw [EventFilters.ledgerRangeError, hvalueOf, hlowerOf, hupperOf]
    cases lower with
    | none =>
        cases upper with
        | none => exact absurd rfl (hsome.elim id id)
        | some b => simp [hupper b rfl]
    | some a =>
        cases upper with
        | none => simp [hlower a rfl]
        | some b => simp [hlower a rfl, hupper b rfl, horder a rfl b rfl]
  rw [criterionValue] at *
  rw [EventFilters.criterionError]
  simp only [hkindOf, Option.elim_some, stringOf, hsupported.1, Bool.not_true, Bool.false_eq_true, if_false, Option.any_some,
    Value.strictEqText, hsupported.2, if_true, hrange]

/-- The bounds of a built range are read from the fields and are in order. -/
theorem buildLedgerRange_eq_ok {lower upper : Except Unit (Option Number)} {criterion : EventFilterCriterion}
    (h : buildLedgerRange lower upper = .ok criterion) :
    ∃ a b, lower = .ok a ∧ upper = .ok b ∧ criterion = .ledger_range a b ∧ (a ≠ none ∨ b ≠ none) ∧
      ∀ x ∈ a, ∀ y ∈ b, exceeds x y = false := by
  match lower, upper with
  | .error _, _ | .ok none, .error _ | .ok (some _), .error _ | .ok none, .ok none => cases h
  | .ok none, .ok (some b) =>
      cases h
      exact ⟨none, some b, rfl, rfl, rfl, .inr (Option.some_ne_none b), fun _ h => nomatch h⟩
  | .ok (some a), .ok none =>
      cases h
      exact ⟨some a, none, rfl, rfl, rfl, .inl (Option.some_ne_none a), fun _ _ _ h => nomatch h⟩
  | .ok (some a), .ok (some b) =>
      rw [buildLedgerRange] at h
      split at h
      next => cases h
      next horder =>
        cases h
        refine ⟨some a, some b, rfl, rfl, rfl, .inl (Option.some_ne_none a), fun x hx y hy => ?_⟩
        rw [← Option.mem_some.mp hx, ← Option.mem_some.mp hy, Bool.eq_false_iff]
        exact horder

/-- What the builder makes is accepted at any place of a list. -/
theorem built_accepted {kind : CriterionKind} {value lower upper : Text} {criterion : EventFilterCriterion}
    (h : buildEventFilterCriterion kind value lower upper = .ok criterion) :
    EventFilters.criterionError index (criterionValue criterion) = none := by
  have hvalue {name : Text} (hname : name ∈ [text "topic_contains", text "value_type_is", text "value_equals"])
      (hblank : trim value ≠ []) (hshort : (trim value).length ≤ MAX_EVENT_FILTER_VALUE_LENGTH) :
      EventFilters.criterionError index (.obj [(text "kind", .str name), (text "value", .str (trim value))]) = none :=
    criterionError_value index hname (by rwa [trim_trim]) hshort
  cases kind with
  | topic_contains =>
      obtain ⟨rfl, hblank, hshort⟩ := buildValue_eq_ok h
      exact hvalue (by decide) hblank hshort
  | value_type_is =>
      obtain ⟨rfl, hblank, hshort⟩ := buildValue_eq_ok h
      exact hvalue (by decide) hblank hshort
  | value_equals =>
      obtain ⟨rfl, hblank, hshort⟩ := buildValue_eq_ok h
      exact hvalue (by decide) hblank hshort
  | ledger_range =>
      obtain ⟨a, b, ha, hb, rfl, hsome, horder⟩ := buildLedgerRange_eq_ok h
      refine criterionError_range index hsome (fun x hx => ?_) (fun y hy => ?_) horder
      · exact not_isBadBound (by rw [ha, Option.mem_def.mp hx] : parseBound lower = .ok (some x))
      · exact not_isBadBound (by rw [hb, Option.mem_def.mp hy] : parseBound upper = .ok (some y))

end

/-- The page and the API keep the same events with the same descriptions in the same order or fail the same way, and the API
takes every list of criteria that were built on the page, unless it is too long. -/
theorem filters_agree :
    (∀ (R : Type) (beyondAscii : Text → Text) (events : List (DecodedContractEvent R)) (criteria : List EventFilterCriterion),
      applyEventFilters beyondAscii events criteria = EventFilters.applyEventFilters beyondAscii events criteria) ∧
    ∀ criteria : List EventFilterCriterion, criteria.length ≤ MAX_EVENT_FILTER_CRITERIA →
      (∀ criterion ∈ criteria, ∃ kind value lower upper, buildEventFilterCriterion kind value lower upper = .ok criterion) →
      EventFilters.eventFilterCriteriaError (.arr (criteria.map criterionValue)) = none := by
  refine ⟨fun R beyondAscii => applyEventFilters_eq beyondAscii, fun criteria hlength hbuilt => ?_⟩
  rw [EventFilters.eventFilterCriteriaError, List.length_map, if_neg (Nat.not_lt.mpr hlength), List.findSome?_eq_none_iff]
  intro (value, index) hvalue
  obtain ⟨criterion, hcriterion, rfl⟩ := List.mem_map.mp (List.fst_mem_of_mem_zipIdx hvalue)
  obtain ⟨kind, value, lower, upper, h⟩ := hbuilt criterion hcriterion
  exact built_accepted index h

/-- A topic filter of the page, with blanks around what is typed in, is taken by the API. -/
theorem topic_accepted :
    EventFilters.eventFilterCriteriaError (.arr ([.topic_contains (text "mint")].map criterionValue)) = none :=
  filters_agree.2 [.topic_contains (text "mint")] (by decide) fun _ h =>
    ⟨.topic_contains, text " mint ", [], [], (List.mem_singleton.mp h) ▸ rfl⟩

end Savitools.Web.FilterAgreement
