import Mathlib.Data.List.SplitOn
import Savitools.Strings.CodeUnits
import Savitools.Federation.Fetching
import Savitools.Json.Values
import Savitools.Strings.Utf8

namespace Savitools.Federation.Domains

open Strings.CodeUnits

def isLetter (u : UInt16) : Bool := between 'a' 'z' u || between 'A' 'Z' u

def isAlphanumeric (u : UInt16) : Bool := isLetter u || isDigit u

/-- `[a-zA-Z0-9]([a-zA-Z0-9-]*[a-zA-Z0-9])?` -/
def isLabel (label : Text) : Bool :=
  label.all (fun u => isAlphanumeric u || u == unit '-') && label.head?.any isAlphanumeric && label.getLast?.any isAlphanumeric

/-- Labels with dots between them, at least two, the last of two letters or more. -/
def isDomain (input : Text) : Bool :=
  let labels := split (unit '.') input
  decide (2 ≤ labels.length) && labels.all isLabel && labels.getLast?.any (fun label => 2 ≤ label.length && label.all isLetter)

/-- `replace(/\/.*$/, '')` -/
def cutPath : Text → Text
  | [] => []
  | u :: t => if u = unit '/' ∧ t.any isLineEnd = false then [] else u :: cutPath t

/-- `replace(/^https?:\/\//, '')` -/
def dropScheme (t : Text) : Text :=
  if text "https://" <+: t then t.drop 8 else if text "http://" <+: t then t.drop 7 else t

def stripProtocol (domain : Text) : Text := cutPath (dropScheme domain)

/-- `replace(/\.$/, '')` -/
def dropDot (t : Text) : Text := if t.getLast? = some (unit '.') then t.dropLast else t

/-- `replace(/\/$/, '')` -/
def dropSlash (t : Text) : Text := if t.getLast? = some (unit '/') then t.dropLast else t

def normalizeDomain (beyondAscii : Text → Text) (domain : Text) : Text :=
  toLowerCase beyondAscii (dropDot (stripProtocol (trim domain)))

/-- `/^G[A-Z2-7]{55}$/` -/
def isStellarPublicKey : Text → Bool
  | u :: key => u == unit 'G' && key.length == 55 && key.all (fun v => between 'A' 'Z' v || between '2' '7' v)
  | [] => false

def isDomainUnit (u : UInt16) : Bool := isAlphanumeric u || u == unit '-' || u == unit '.'

theorem isDomainUnit_of_isDomain {domain : Text} (h : isDomain domain = true) : ∀ u ∈ domain, isDomainUnit u = true := by
  intro u hu
  simp only [isDomain, Bool.and_eq_true, List.all_eq_true] at h
  have hjoin : join (unit '.') (split (unit '.') domain) = domain := List.intercalate_splitOn _
  rw [← hjoin] at hu
  rcases mem_join hu with rfl | ⟨label, hlabel, hu⟩
  · decide
  · have hunits := h.1.2 label hlabel
    simp only [isLabel, Bool.and_eq_true, List.all_eq_true] at hunits
    rw [isDomainUnit, hunits.1.1 u hu, Bool.true_or]

end Savitools.Federation.Domains

namespace Savitools.Federation.StellarToml

open Strings.CodeUnits Strings.Decimals Strings.Utf8 Net.Urls Json.Values Common.Exceptions Domains Fetching

def TOML_MAX_BYTES : Nat := 512 * 1024

def TOML_MAX_DEPTH : Nat := 64

def TOML_MAX_KEYS : Nat := 10000

/-- The members of a document; its numbers and dates are left open. -/
abbrev Table (N : Type) := List (Text × Value N)

variable {N : Type}

mutual

def measureDepth (depth : Nat) (value : Value N) : Nat :=
  if TOML_MAX_DEPTH < depth then depth
  else
    match value with
    | .arr items => measureItems depth items
    | .obj fields => measureFields depth fields
    | .null | .bool _ | .num _ | .str _ => depth

def measureItems (depth : Nat) : List (Value N) → Nat
  | [] => depth
  | item :: items => max (measureDepth (depth + 1) item) (measureItems depth items)

def measureFields (depth : Nat) : List (Text × Value N) → Nat
  | [] => depth
  | (_, item) :: fields => max (measureDepth (depth + 1) item) (measureFields depth fields)

end

mutual

def countKeys : Value N → Nat
  | .arr items => countItems items
  | .obj fields => countFields fields
  | .null | .bool _ | .num _ | .str _ => 0

def countItems : List (Value N) → Nat
  | [] => 0
  | item :: items => countKeys item + countItems items

def countFields : List (Text × Value N) → Nat
  | [] => 0
  | (_, item) :: fields => 1 + countKeys item + countFields fields

end

/-- `parse` is the parser of TOML, which gives a document or the message of its error. -/
def parseBoundedToml (parse : Text → Except Text (Table N)) (raw : Text) : Except Exception (Table N) :=
  if TOML_MAX_BYTES < (textEncode raw).length then
    .error (.payloadTooLarge
      (text "stellar.toml exceeds the maximum accepted size of " ++ ofNat TOML_MAX_BYTES ++ text " bytes"))
  else
    match parse raw with
    | .error msg => .error (.badRequest (text "Malformed TOML document: " ++ msg))
    | .ok parsed =>
        if TOML_MAX_DEPTH ≤ measureDepth 0 (.obj parsed) then
          .error (.badRequest (text "TOML document nesting depth exceeds the limit of " ++ ofNat TOML_MAX_DEPTH))
        else if TOML_MAX_KEYS < countKeys (.obj parsed) then
          .error (.badRequest (text "TOML document exceeds the maximum of " ++ ofNat TOML_MAX_KEYS ++ text " keys"))
        else .ok parsed

/-- Where stellar.toml documents come from. -/
structure TomlSource (Url N : Type) where
  urls : Urls Url
  parse : Text → Except Text (Table N)
  beyondAscii : Text → Text
  network : Network
  cached : Option (Table N)
  /-- What the call that is already on its way for the domain meets. -/
  inFlight : Option Network

variable {Url : Type} (source : TomlSource Url N)

def tomlUrl (domain : Text) : Text := text "https://" ++ domain ++ text "/.well-known/stellar.toml"

def fetchAndCacheToml (network : Network) (domain : Text) : Except Exception (Table N) :=
  match (fetchWithTimeout source.urls network (tomlUrl domain)).2 with
  | .error error => .error error
  | .ok res =>
      if res.ok then (res.body.mapError Exception.error).bind (parseBoundedToml source.parse)
      else
        .error (.notFound
          (text "stellar.toml not found at " ++ tomlUrl domain ++ text " (HTTP " ++ ofNat res.status ++ text ")"))

def fetchTomlRecord (domain : Text) : Except Exception (Table N) :=
  match source.cached with
  | some cached => .ok cached
  | none => fetchAndCacheToml source (source.inFlight.getD source.network) (normalizeDomain source.beyondAscii domain)

/-- A source that has the document from an earlier call, and whose texts are ASCII. -/
def knownToml (urls : Urls Url) (toml : Table N) : TomlSource Url N :=
  ⟨urls, fun _ => .ok toml, id, answering ⟨200, none, .ok []⟩, some toml, none⟩

/-- A member that is a string. -/
def stringMember (name : Text) (fields : List (Text × Value N)) : Option Text :=
  match fields.lookup name with
  | some (.str t) => some t
  | _ => none

end Savitools.Federation.StellarToml
