import Savitools.Json.Doubles

namespace Savitools.Contracts.DecodedEvents

open Strings.CodeUnits Json.Numbers Json.Values

/-- A decoded value; its own value may be missing. -/
structure DecodedScVal where
  type : Text
  value : Option (Value Number)
  raw : Text

/-- A decoded event, over what else it tells of where it came from. -/
structure DecodedContractEvent (R : Type) where
  ledger : Number
  topic : List DecodedScVal
  value : DecodedScVal
  rest : R
  matchedCriteria : Option (List Text)

inductive EventFilterCriterion
  | topic_contains (value : Text)
  | value_type_is (value : Text)
  | value_equals (value : Text)
  | ledger_range (lower upper : Option Number)

def MAX_EVENT_FILTER_CRITERIA : Nat := 10

def MAX_EVENT_FILTER_VALUE_LENGTH : Nat := 256

/-- The members of a value of the platform that is no object. -/
def nullValue : Text := text "Cannot destructure property 'value' of 'decoded' as it is null."

def undefinedValue : Text := text "Cannot destructure property 'value' of 'decoded' as it is undefined."

def nullRaw : Text := text "Cannot read properties of null (reading 'raw')"

/-- `Number.isSafeInteger` -/
def isSafeInteger : Number → Bool
  | .finite q => q.den = 1 && q.num.natAbs < 2 ^ 53
  | .infinite _ => false

end Savitools.Contracts.DecodedEvents

namespace Savitools.Contracts.EventFilters

open Strings.CodeUnits Strings.Decimals Json.Numbers Json.Values Json.Conversions Json.Doubles DecodedEvents

def isBadBound (bound : Value Number) : Bool :=
  match bound with
  | .num x => !isSafeInteger x || exceeds (.finite 0) x
  | _ => true

def criterionPath (index : Nat) (message : Text) : Text := text "criteria[" ++ ofNat index ++ text "]" ++ message

def ledgerRangeError (index : Nat) (criterion : Value Number) : Option Text :=
  let lower := member (text "from") criterion
  let upper := member (text "to") criterion
  if (member (text "value") criterion).isSome then some (criterionPath index (text " ledger_range does not accept value"))
  else if lower.isNone ∧ upper.isNone then some (criterionPath index (text " ledger_range requires from or to"))
  else if [lower, upper].any (fun bound => bound.any isBadBound) then
    some (criterionPath index (text " ledger bounds must be non-negative safe integers"))
  else
    match lower, upper with
    | some (.num a), some (.num b) => if exceeds a b then some (criterionPath index (text " from must not exceed to")) else none
    | _, _ => none

def valueError (index : Nat) (criterion : Value Number) : Option Text :=
  if (member (text "from") criterion).isSome ∨ (member (text "to") criterion).isSome then
    some (criterionPath index (unit ' ' :: ((member (text "kind") criterion).elim (text "undefined") stringOf ++
      text " does not accept ledger bounds")))
  else
    match textMember (text "value") criterion with
    | none => some (criterionPath index (text ".value must be a non-empty string"))
    | some value =>
        if trim value = [] then some (criterionPath index (text ".value must be a non-empty string"))
        else if MAX_EVENT_FILTER_VALUE_LENGTH < value.length then
          some (criterionPath index (text ".value must be " ++ ofNat MAX_EVENT_FILTER_VALUE_LENGTH ++ text " characters or fewer"))
        else none

def supportedKinds : List Text :=
  [text "topic_contains", text "value_type_is", text "value_equals", text "ledger_range"]

def criterionError (index : Nat) : Value Number → Option Text
  | .obj fields =>
      let criterion := Value.obj fields
      let kind := member (text "kind") criterion
      if !supportedKinds.contains (kind.elim (text "undefined") stringOf) then some (criterionPath index (text ".kind is not supported"))
      else if kind.any (Value.strictEqText (text "ledger_range")) then ledgerRangeError index criterion
      else valueError index criterion
  | _ => some (criterionPath index (text " must be an object"))

def eventFilterCriteriaError : Value Number → Option Text
  | .arr criteria =>
      if MAX_EVENT_FILTER_CRITERIA < criteria.length then
        some (text "criteria must contain at most " ++ ofNat MAX_EVENT_FILTER_CRITERIA ++ text " filters")
      else criteria.zipIdx.findSome? fun (value, index) => criterionError index value
  | _ => some (text "criteria must be an array")

def describeCriterion : EventFilterCriterion → Text
  | .topic_contains value => text "topic contains " ++ value
  | .value_type_is value => text "value type is " ++ value
  | .value_equals value => text "value equals " ++ value
  | .ledger_range lower upper =>
      text "ledger " ++ lower.elim (text "*") numberText ++ text ".." ++ upper.elim (text "*") numberText

mutual

/-- The strings of a value within another, which is told from a pair by its `raw`. -/
def nestedStrings : Value Number → Except Text (List Text)
  | .null => .error nullValue
  | .obj fields => valueStrings fields
  | _ => .ok []

/-- The member `value`, which may be missing. -/
def valueStrings : List (Text × Value Number) → Except Text (List Text)
  | [] => .ok []
  | (key, v) :: fields => if key = text "value" then stringsOf v else valueStrings fields

/-- A member of a pair. -/
def pairStrings (name : Text) : List (Text × Value Number) → Except Text (List Text)
  | [] => .error undefinedValue
  | (key, v) :: fields => if key = name then nestedStrings v else pairStrings name fields

def stringsOf : Value Number → Except Text (List Text)
  | .null => .ok []
  | .str t => .ok [t]
  | .num x => .ok [numberText x]
  | .bool b => .ok [if b then text "true" else text "false"]
  | .arr items => itemStrings items
  | .obj fields => entryStrings fields

def itemStrings : List (Value Number) → Except Text (List Text)
  | [] => .ok []
  | item :: items => (itemString item).bind fun out => (itemStrings items).map fun rest => out ++ rest

def itemString : Value Number → Except Text (List Text)
  | .null => .error nullRaw
  | .obj fields =>
      if (textMember (text "raw") (.obj fields)).isSome then valueStrings fields
      else (pairStrings (text "key") fields).bind fun key => (pairStrings (text "value") fields).map fun value => key ++ value
  | _ => .error undefinedValue

def entryStrings : List (Text × Value Number) → Except Text (List Text)
  | [] => .ok []
  | (key, nested) :: fields =>
      (stringsOf nested).bind fun out => (entryStrings fields).map fun rest => key :: (out ++ rest)

end

def searchableStrings (decoded : DecodedScVal) : Except Text (List Text) :=
  match decoded.value with
  | none => .ok []
  | some value => stringsOf value

variable {R : Type} (beyondAscii : Text → Text)

/-- `topic.some`: a topic after the first that matches is not looked at. -/
def someTopic (target : Text) : List DecodedScVal → Except Text Bool
  | [] => .ok false
  | topic :: topics =>
      (searchableStrings topic).bind fun strings =>
        if strings.any (fun s => target <:+: toLowerCase beyondAscii s) then .ok true else someTopic target topics

def topicMatches (event : DecodedContractEvent R) (needle : Text) : Except Text Bool :=
  someTopic beyondAscii (toLowerCase beyondAscii needle) event.topic

def valueTypeMatches (event : DecodedContractEvent R) (type : Text) : Bool :=
  let target := toLowerCase beyondAscii type
  let actual := toLowerCase beyondAscii event.value.type
  actual = target || actual = text "scv" ++ target

def valueEquals (event : DecodedContractEvent R) (expected : Text) : Except Text Bool :=
  (searchableStrings event.value).map fun strings =>
    strings.any fun s => toLowerCase beyondAscii s = toLowerCase beyondAscii expected

def ledgerInRange (event : DecodedContractEvent R) (lower upper : Option Number) : Bool :=
  if lower.any (fun bound => exceeds bound event.ledger) then false
  else if upper.any (fun bound => exceeds event.ledger bound) then false
  else true

def matchesCriterion (event : DecodedContractEvent R) : EventFilterCriterion → Except Text Bool
  | .topic_contains value => topicMatches beyondAscii event value
  | .value_type_is value => .ok (valueTypeMatches beyondAscii event value)
  | .value_equals value => valueEquals beyondAscii event value
  | .ledger_range lower upper => .ok (ledgerInRange event lower upper)

/-- The descriptions of the criteria, or nothing when one is not met. -/
def matchedCriteria (event : DecodedContractEvent R) : List EventFilterCriterion → Except Text (Option (List Text))
  | [] => .ok (some [])
  | criterion :: criteria =>
      (matchesCriterion beyondAscii event criterion).bind fun isMet =>
        if isMet then (matchedCriteria event criteria).map fun rest => rest.map (describeCriterion criterion :: ·)
        else .ok none

/-- The loop over the events. -/
def surviving (criteria : List EventFilterCriterion) :
    List (DecodedContractEvent R) → Except Text (List (DecodedContractEvent R))
  | [] => .ok []
  | event :: events =>
      (matchedCriteria beyondAscii event criteria).bind fun found =>
        (surviving criteria events).map fun rest =>
          found.elim rest fun matched => { event with matchedCriteria := some matched } :: rest

def applyEventFilters (events : List (DecodedContractEvent R)) (criteria : List EventFilterCriterion) :
    Except Text (List (DecodedContractEvent R)) :=
  if criteria = [] then .ok (events.map fun event => { event with matchedCriteria := some [] })
  else surviving beyondAscii criteria events

end Savitools.Contracts.EventFilters
