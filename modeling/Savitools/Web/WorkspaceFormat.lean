import Savitools.Json.Doubles
import Savitools.Json.Indenting
import Savitools.Stores.Entries
import Savitools.Workspaces.SecretFilters

namespace Savitools.Web.WorkspaceFormat

open Strings.CodeUnits Json.Numbers Json.Values Json.Conversions Json.Doubles Json.Reading Json.Indenting Stores.Entries
open Workspaces.SecretFilters

def WORKSPACE_FORMAT_VERSION : Int := 2

def MIN_SUPPORTED_WORKSPACE_VERSION : Int := 1

/-- A file to be written; the version that it comes with is not used. -/
structure WorkspaceFileInput where
  id : Option Text
  ownerId : Option Text
  name : Option Text
  composerState : List (Text × Value Number)
  operations : List (Value Number)
  createdAt : Option Text
  updatedAt : Option Text

variable (beyondAscii : Text → Text)

def sanitizeWorkspacePayload {N : Type} (value : Value N) : Option (Value N) :=
  cleanValue beyondAscii isSecretString false value

/-- A member that is written when it's there. -/
def optionalMember (key : Text) (value : Option Text) : List (Text × Value Number) :=
  (value.map fun value => (key, Value.str value)).toList

/-- The `output` of `serializeWorkspaceFile`. -/
def exportedFile (file : WorkspaceFileInput) : Value Number :=
  .obj
    ([(text "formatVersion", .num (.ofInt WORKSPACE_FORMAT_VERSION)),
      (text "composerState", (sanitizeWorkspacePayload beyondAscii (.obj file.composerState)).getD (.obj [])),
      (text "operations", (sanitizeWorkspacePayload beyondAscii (.arr file.operations)).getD (.arr []))] ++
      optionalMember (text "id") file.id ++ optionalMember (text "ownerId") file.ownerId ++
      optionalMember (text "name") file.name ++ optionalMember (text "createdAt") file.createdAt ++
      optionalMember (text "updatedAt") file.updatedAt)

def serializeWorkspaceFile (file : WorkspaceFileInput) (space : Nat) : Text :=
  stringifyWith space (exportedFile beyondAscii file)

inductive WorkspaceFormatErrorCode
  | INVALID_JSON
  | INVALID_WORKSPACE
  | UNSUPPORTED_VERSION

structure WorkspaceFormatError where
  code : WorkspaceFormatErrorCode
  message : Text

structure WorkspaceFile where
  formatVersion : Int
  id : Option Text
  ownerId : Option Text
  name : Option Text
  composerState : List (Text × Value Number)
  operations : List (Value Number)
  createdAt : Option Text
  updatedAt : Option Text

/-- Files without a version are of the first one. -/
def readFormatVersion (value : Value Number) : Except WorkspaceFormatError Number :=
  match member (text "formatVersion") value with
  | none => .ok (.ofInt MIN_SUPPORTED_WORKSPACE_VERSION)
  | some (.num n) =>
      if Number.isInteger n then .ok n else .error ⟨.UNSUPPORTED_VERSION, text "Workspace formatVersion must be an integer."⟩
  | some _ => .error ⟨.UNSUPPORTED_VERSION, text "Workspace formatVersion must be an integer."⟩

def unsupportedVersion (version : Number) : WorkspaceFormatError :=
  ⟨.UNSUPPORTED_VERSION, text "Workspace format version " ++ numberText version ++
    text " is not supported. This build supports versions " ++ intText MIN_SUPPORTED_WORKSPACE_VERSION ++ text "–" ++
    intText WORKSPACE_FORMAT_VERSION ++ text "."⟩

/-- The operations of the file, or else those of its composer state. -/
def storedOperations (parsed : Value Number) (composerState : List (Text × Value Number)) : Option (List (Value Number)) :=
  match member (text "operations") parsed, composerState.lookup (text "operations") with
  | some (.arr operations), _ => some operations
  | _, some (.arr operations) => some operations
  | _, _ => none

def migrateWorkspaceFile (parsed : Value Number) : Except WorkspaceFormatError WorkspaceFile :=
  match parsed with
  | .obj _ => do
      let version ← readFormatVersion parsed
      if exceeds (.ofInt MIN_SUPPORTED_WORKSPACE_VERSION) version || exceeds version (.ofInt WORKSPACE_FORMAT_VERSION) then
        .error (unsupportedVersion version)
      else
        match member (text "composerState") parsed with
        | some (.obj composerState) =>
            match storedOperations parsed composerState with
            | none => .error ⟨.INVALID_WORKSPACE, text "Missing or invalid \"operations\" array."⟩
            | some operations =>
                .ok
                  { formatVersion := WORKSPACE_FORMAT_VERSION
                    id := textMember (text "id") parsed
                    ownerId := textMember (text "ownerId") parsed
                    name := textMember (text "name") parsed
                    composerState := put (text "operations") (.arr operations) composerState
                    operations := operations
                    createdAt := textMember (text "createdAt") parsed
                    updatedAt := textMember (text "updatedAt") parsed }
        | _ => .error ⟨.INVALID_WORKSPACE, text "Missing or invalid \"composerState\"."⟩
  | _ => .error ⟨.INVALID_WORKSPACE, text "Workspace JSON must be an object."⟩

def parseWorkspaceFile (json : Text) : Except WorkspaceFormatError WorkspaceFile :=
  match parse json with
  | none => .error ⟨.INVALID_JSON, text "Invalid JSON file."⟩
  | some parsed => migrateWorkspaceFile parsed

end Savitools.Web.WorkspaceFormat
