import Savitools.Json.Numbers
import Savitools.Json.Values

namespace Json.Reading

open Strings.CodeUnits Json.Numbers Json.Values

inductive Token
  | openBrace
  | closeBrace
  | openBracket
  | closeBracket
  | colon
  | comma
  | text (t : Text)
  | scalar (v : Value Number)

/-- An array or an object of which a value is still to come. -/
inductive Level
  | items (done : List (Value Number))
  | fields (done : List (Text × Value Number)) (key : Text)

/-- What has been read last, or what must come next. -/
inductive Point
  | value
  | first
  | firstKey
  | key (done : List (Text × Value Number))
  | colon (done : List (Text × Value Number)) (key : Text)
  | after (v : Value Number)

/-- A repeated key keeps its place and takes the new value. -/
def setField (done : List (Text × Value Number)) (key : Text) (v : Value Number) : List (Text × Value Number) :=
  if done.any (fun f => f.1 = key) then done.map (fun f => if f.1 = key then (key, v) else f)
  else done ++ [(key, v)]

/-- The open levels around a value, where a value may begin. -/
def Point.opens (levels : List Level) : Point → Option (List Level)
  | .value => some levels
  | .first => some (.items [] :: levels)
  | _ => none

/-- What a token does. A comma must be followed by another item or key. -/
def advance : Point → List Level → Token → Option (Point × List Level)
  | .first, levels, .closeBracket => some (.after (.arr []), levels)
  | .firstKey, levels, .closeBrace => some (.after (.obj []), levels)
  | .firstKey, levels, .text key => some (.colon [] key, levels)
  | .key done, levels, .text key => some (.colon done key, levels)
  | .colon done key, levels, .colon => some (.value, .fields done key :: levels)
  | .after v, .items done :: levels, .comma => some (.value, .items (done ++ [v]) :: levels)
  | .after v, .items done :: levels, .closeBracket => some (.after (.arr (done ++ [v])), levels)
  | .after v, .fields done key :: levels, .comma => some (.key (setField done key v), levels)
  | .after v, .fields done key :: levels, .closeBrace => some (.after (.obj (setField done key v)), levels)
  | point, levels, .openBracket => (point.opens levels).map (.first, ·)
  | point, levels, .openBrace => (point.opens levels).map (.firstKey, ·)
  | point, levels, .text t => (point.opens levels).map (.after (.str t), ·)
  | point, levels, .scalar v => (point.opens levels).map (.after v, ·)
  | _, _, _ => none

/-- The token that is being read. Of a `\u` escape the digits are kept until there are four. -/
inductive Lexeme
  | between
  | number (seen : Text)
  | word (seen : Text)
  | chars (seen : Text)
  | escape (seen : Text)
  | unicode (seen : Text) (digits : Text)

structure State where
  lexeme : Lexeme
  point : Point
  levels : List Level

def State.take (s : State) (token : Token) : Option State :=
  (advance s.point s.levels token).map fun (point, levels) => ⟨.between, point, levels⟩

def isBlank (u : UInt16) : Bool := u == unit ' ' || u == unit '\t' || u == unit '\n' || u == unit '\r'

def isLetter : UInt16 → Bool := between 'a' 'z'

def punctuation : UInt16 → Option Token := fun u =>
  [(unit '{', Token.openBrace), (unit '}', .closeBrace), (unit '[', .openBracket), (unit ']', .closeBracket),
    (unit ':', .colon), (unit ',', .comma)].lookup u

/-- The first code unit of a token. -/
def State.start (s : State) (u : UInt16) : Option State :=
  if isBlank u then some { s with lexeme := .between }
  else if u = unit '"' then some { s with lexeme := .chars [] }
  else if u = unit '-' ∨ isDigit u then some { s with lexeme := .number [u] }
  else if isLetter u then some { s with lexeme := .word [u] }
  else (punctuation u).bind s.take

def words : List (Text × Value Number) :=
  [(text "null", .null), (text "true", .bool true), (text "false", .bool false)]

def wordValue (t : Text) : Option (Value Number) := words.lookup t

/-- The escapes of one letter, with the code units that they stand for. -/
def escapes : List (UInt16 × UInt16) :=
  [(unit '"', unit '"'), (unit '\\', unit '\\'), (unit 'b', 8), (unit 'f', 12), (unit 'n', 10), (unit 'r', 13),
    (unit 't', 9)]

def unescape (u : UInt16) : Option UInt16 := if u = unit '/' then some u else escapes.lookup u

def State.step (s : State) (u : UInt16) : Option State :=
  match s.lexeme with
  | .between => s.start u
  | .number seen =>
      if isNumberUnit u then some { s with lexeme := .number (seen ++ [u]) }
      else ((readNumber seen).bind (fun n => s.take (.scalar (.num n)))).bind (·.start u)
  | .word seen =>
      if isLetter u then some { s with lexeme := .word (seen ++ [u]) }
      else ((wordValue seen).bind (fun v => s.take (.scalar v))).bind (·.start u)
  | .chars seen =>
      if u = unit '"' then s.take (.text seen)
      else if u = unit '\\' then some { s with lexeme := .escape seen }
      else if u < 0x20 then none
      else some { s with lexeme := .chars (seen ++ [u]) }
  | .escape seen =>
      if u = unit 'u' then some { s with lexeme := .unicode seen [] }
      else (unescape u).map (fun v => { s with lexeme := .chars (seen ++ [v]) })
  | .unicode seen digits =>
      if isHexDigit u = false then none
      else if digits.length < 3 then some { s with lexeme := .unicode seen (digits ++ [u]) }
      else some { s with lexeme := .chars (seen ++ [(hexValue (digits ++ [u])).toUInt16]) }

/-- The value at the end of a text. -/
def State.value (s : State) : Option (Value Number) :=
  match s.point, s.levels with
  | .after v, [] => some v
  | _, _ => none

def State.finish (s : State) : Option (Value Number) :=
  match s.lexeme with
  | .between => s.value
  | .number seen => ((readNumber seen).bind (fun n => s.take (.scalar (.num n)))).bind State.value
  | .word seen => ((wordValue seen).bind (fun v => s.take (.scalar v))).bind State.value
  | _ => none

def State.read (s : State) : Text → Option (Value Number)
  | [] => s.finish
  | u :: t => (s.step u).bind (fun s => s.read t)

/-- `JSON.parse`, where it does not throw. -/
def parse (t : Text) : Option (Value Number) := State.read ⟨.between, .value, []⟩ t

end Json.Reading
