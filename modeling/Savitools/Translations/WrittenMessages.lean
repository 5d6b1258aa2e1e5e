import Savitools.Translations.Messages

namespace Savitools.Translations.Structures

open Strings.CodeUnits Json.Numbers Stores.Entries Messages

/-- What is known of all the arguments of one name. The offset is null for a plain interpolation; branches
that are null are an empty map here, and neither is read unless the type is complex. -/
inductive Argument
  | mk (name argumentType : Text) (offset : Option Number)
      (branches : List (Text × List (Text × Argument)))

abbrev ArgumentMap := List (Text × Argument)

def Argument.argumentType : Argument → Text
  | .mk _ argumentType _ _ => argumentType

def Argument.offset : Argument → Option Number
  | .mk _ _ offset _ => offset

def Argument.branches : Argument → List (Text × ArgumentMap)
  | .mk _ _ _ branches => branches

/-- The argument with other branches. -/
def Argument.withBranches (branches : List (Text × ArgumentMap)) : Argument → Argument
  | .mk name argumentType offset _ => .mk name argumentType offset branches

/-- `argumentsByName.get(name)`, or the first entry under the name. -/
def argumentNamed (argumentsByName : ArgumentMap) (name argumentType : Text) (offset : Option Number) : Argument :=
  (argumentsByName.lookup name).getD (.mk name argumentType offset [])

mutual

/-- The loop of `collectArguments`, for one node. -/
def collectNode (argumentsByName : ArgumentMap) : Node → ArgumentMap
  | .text _ => argumentsByName
  | .argument name argumentType => put name (argumentNamed argumentsByName name argumentType none) argumentsByName
  | .choice name argumentType offset branches =>
      let argument := argumentNamed argumentsByName name argumentType (some offset)
      put name (argument.withBranches (collectBranches argument.branches branches)) argumentsByName

def collectInto (argumentsByName : ArgumentMap) : List Node → ArgumentMap
  | [] => argumentsByName
  | node :: nodes => collectInto (collectNode argumentsByName node) nodes

def collectBranches (known : List (Text × ArgumentMap)) : List (Text × List Node) → List (Text × ArgumentMap)
  | [] => known
  | (label, nodes) :: branches => collectBranches (put label (collectInto [] nodes) known) branches

end

def collectArguments (nodes : List Node) : ArgumentMap := collectInto [] nodes

structure Issue where
  kind : Text
  key : Text
  reason : Text

def structureIssue (key reason : Text) : Issue := ⟨text "structure", key, reason⟩

def formatArgumentType (argumentType : Text) : Text :=
  if argumentType = text "simple" then text "interpolation" else argumentType

def offsetText : Option Number → Text
  | none => text "null"
  | some offset => numberText offset

/-- A variable as a message has it. -/
def variableText (name : Text) : Text := text "\"\x7b" ++ name ++ text "\x7d\""

def contextSuffix (context : Text) : Text :=
  if context = [] then [] else text " (inside " ++ context ++ text ")"

/-- The context of a branch. -/
def branchContext (context name label : Text) : Text :=
  (if context = [] then name else context) ++ text "." ++ label

def typeIssue (key name sourceType targetType : Text) : Issue :=
  structureIssue key (variableText name ++ text " is " ++ formatArgumentType sourceType ++
    text " in the source locale but " ++ formatArgumentType targetType ++ text " in this locale")

def offsetIssues (key name argumentType : Text) (source target : Option Number) : List Issue :=
  if source = target then []
  else
    [structureIssue key (argumentType ++ text " offset for " ++ variableText name ++ text " is " ++
      offsetText source ++ text " in the source locale but " ++ offsetText target ++ text " in this locale")]

def missingBranch (key name argumentType label : Text) : Issue :=
  structureIssue key (text "missing " ++ argumentType ++ text " branch \"" ++ label ++ text "\" for " ++ variableText name)

def extraBranches (key name argumentType : Text) (source target : List (Text × ArgumentMap)) : List Issue :=
  (target.filter fun branch => (source.lookup branch.1).isNone).map fun branch =>
    structureIssue key
      (text "extra " ++ argumentType ++ text " branch \"" ++ branch.1 ++ text "\" for " ++ variableText name)

def missingVariable (key context name : Text) : Issue :=
  structureIssue key (text "missing interpolation variable " ++ variableText name ++ contextSuffix context)

def extraVariables (key context : Text) (source target : ArgumentMap) : List Issue :=
  (target.filter fun argument => (source.lookup argument.1).isNone).map fun argument =>
    structureIssue key (text "extra interpolation variable " ++ variableText argument.1 ++ contextSuffix context)

mutual

/-- The loop of `compareArgumentMaps`, for one argument of the source. -/
def compareArgument (key context name : Text) (target : ArgumentMap) : Argument → List Issue
  | .mk _ argumentType offset branches =>
      match target.lookup name with
      | none => [missingVariable key context name]
      | some targetArgument =>
          if argumentType ≠ targetArgument.argumentType then
            [typeIssue key name argumentType targetArgument.argumentType]
          else if argumentType ∉ complexArgumentTypes then []
          else
            offsetIssues key name argumentType offset targetArgument.offset ++
              compareBranches key context name argumentType targetArgument.branches branches ++
              extraBranches key name argumentType branches targetArgument.branches

def compareArguments (key context : Text) (target : ArgumentMap) : ArgumentMap → List Issue
  | [] => []
  | (name, argument) :: source =>
      compareArgument key context name target argument ++ compareArguments key context target source

/-- The loop over the branches of an argument; of two branches the arguments are compared on both sides. -/
def compareBranches (key context name argumentType : Text) (target : List (Text × ArgumentMap)) :
    List (Text × ArgumentMap) → List Issue
  | [] => []
  | (label, branchArguments) :: source =>
      (match target.lookup label with
        | none => [missingBranch key name argumentType label]
        | some targetBranch =>
            compareArguments key (branchContext context name label) targetBranch branchArguments ++
              extraVariables key (branchContext context name label) branchArguments targetBranch) ++
        compareBranches key context name argumentType target source

end

def compareArgumentMaps (source target : ArgumentMap) (key context : Text) : List Issue :=
  compareArguments key context target source ++ extraVariables key context source target

def compareMessageStructure (sourceMessage targetMessage key : Text) : List Issue :=
  let source := parseMessage sourceMessage
  let target := parseMessage targetMessage
  let malformed :=
    source.errors.map (fun error =>
      structureIssue key (text "source locale has malformed ICU message: " ++ error)) ++
    target.errors.map (fun error => structureIssue key (text "malformed ICU message: " ++ error))
  if malformed ≠ [] then malformed
  else compareArgumentMaps (collectArguments source.nodes) (collectArguments target.nodes) key []

end Savitools.Translations.Structures

namespace Savitools.Translations.WrittenMessages

open Strings.CodeUnits Json.Conversions Stores.Entries Messages

/-- The message with every branch that it writes, also where a label comes again. -/
def writtenMessage : Text → Parsed := parseMessageWith fun branches label nodes => branches ++ [(label, nodes)]

mutual

/-- The node as the parser stores it, with one branch for each label. -/
def storedNode : Node → Node
  | .text value => .text value
  | .argument name argumentType => .argument name argumentType
  | .choice name argumentType offset branches => .choice name argumentType offset (storedBranches [] branches)

def storedNodes : List Node → List Node
  | [] => []
  | node :: nodes => storedNode node :: storedNodes nodes

def storedBranches (stored : Branches) : List (Text × List Node) → Branches
  | [] => stored
  | (label, nodes) :: branches => storedBranches (put label (storedNodes nodes) stored) branches

end

def Parsed.stored (parsed : Parsed) : Parsed := ⟨storedNodes parsed.nodes, parsed.errors⟩

def Branching.stored (branching : Branching) : Branching :=
  { branching with branches := storedBranches [] branching.branches }

theorem storedNodes_append (before after : List Node) :
    storedNodes (before ++ after) = storedNodes before ++ storedNodes after := by
  induction before with
  | nil => rfl
  | cons node before ih => rw [List.cons_append, storedNodes, storedNodes, ih, List.cons_append]

theorem storedBranches_append (stored before after : Branches) :
    storedBranches stored (before ++ after) = storedBranches (storedBranches stored before) after := by
  induction before generalizing stored with
  | nil => rfl
  | cons branch before ih =>
      obtain ⟨label, nodes⟩ := branch
      rw [List.cons_append, storedBranches, storedBranches, ih]

theorem storedBranches_concat (branches : Branches) (label : Text) (nodes : List Node) :
    storedBranches [] (branches ++ [(label, nodes)]) = put label (storedNodes nodes) (storedBranches [] branches) := by
  rw [storedBranches_append, storedBranches, storedBranches]

theorem nodup_storedBranches {stored : Branches} (h : (stored.map (·.1)).Nodup) (branches : Branches) :
    ((storedBranches stored branches).map (·.1)).Nodup := by
  induction branches generalizing stored with
  | nil => exact h
  | cons branch branches ih =>
      obtain ⟨label, nodes⟩ := branch
      exact ih (nodup_put h)

theorem lookup_storedBranches (label : Text) (stored branches : Branches) :
    (storedBranches stored branches).lookup label =
      ((lastOf label branches).map storedNodes).or (stored.lookup label) := by
  induction branches generalizing stored with
  | nil => rfl
  | cons branch branches ih =>
      obtain ⟨other, nodes⟩ := branch
      rw [storedBranches, ih, lookup_put, lastOf_cons]
      cases lastOf label branches <;> cases label == other <;> rfl

theorem lastOf_storedBranches (label : Text) (branches : Branches) :
    lastOf label (storedBranches [] branches) = (lastOf label branches).map storedNodes := by
  have hnodup : ((storedBranches [] branches).map (·.1)).Nodup := nodup_storedBranches (by simp) branches
  rw [lastOf_of_nodup hnodup, lookup_storedBranches, List.lookup_nil, Option.or_none]

theorem put_ne_nil (label : Text) (nodes : List Node) (branches : Branches) : put label nodes branches ≠ [] := by
  cases branches with
  | nil => exact List.cons_ne_nil _ _
  | cons branch branches =>
      rw [put]
      split <;> exact List.cons_ne_nil _ _

theorem storedBranches_eq_nil {branches : Branches} : storedBranches [] branches = [] ↔ branches = [] := by
  rcases List.eq_nil_or_concat branches with rfl | ⟨before, ⟨label, nodes⟩, rfl⟩
  · exact ⟨fun _ => rfl, fun _ => rfl⟩
  · rw [List.concat_eq_append, storedBranches_concat]
    exact ⟨fun h => absurd h (put_ne_nil _ _ _), fun h => absurd h (by simp)⟩

section Parsing

variable {parse written : Text → Parsed} (hparse : ∀ t, parse t = Parsed.stored (written t))

include hparse

/-- Storing can wait until all the branches are read. -/
theorem parseBranchesFrom_stored (rest : Text) (skip : Nat) (branching : Branching) :
    parseBranchesFrom (fun branches label nodes => put label nodes branches) parse skip (Branching.stored branching) rest =
      Branching.stored
        (parseBranchesFrom (fun branches label nodes => branches ++ [(label, nodes)]) written skip branching rest) := by
  induction rest generalizing skip branching with
  | nil => cases skip <;> rfl
  | cons u rest ih =>
      cases skip with
      | succ skip => exact ih skip branching
      | zero =>
          rw [parseBranchesFrom, parseBranchesFrom]
          split
          · exact ih 0 branching
          · cases offsetMatch (u :: rest) with
            | some offset => exact ih _ { branching with offset := (toNumber offset.1).getD branching.offset }
            | none =>
                cases (u :: rest).idxOf? openBrace with
                | none => rfl
                | some braceStart =>
                    dsimp only
                    cases findClosingBrace ((u :: rest).drop braceStart) with
                    | none => rfl
                    | some braceEnd =>
                        dsimp only
                        split
                        · exact ih _ (branching.fail _)
                        · rw [← ih, hparse]
                          simp only [Branching.stored, Parsed.stored, storedBranches_concat]

theorem parseBranches_stored (style : Text) :
    parseBranches (fun branches label nodes => put label nodes branches) parse style =
      Branching.stored (parseBranches (fun branches label nodes => branches ++ [(label, nodes)]) written style) := by
  have hloop := parseBranchesFrom_stored hparse style 0 ⟨.finite 0, [], []⟩
  have hempty : Branching.stored ⟨.finite 0, [], []⟩ = ⟨.finite 0, [], []⟩ := rfl
  rw [hempty] at hloop
  rw [parseBranches, parseBranches, hloop]
  simp only [Branching.stored, storedBranches_eq_nil]
  split <;> rfl

theorem parseArgument_stored (inner : Text) :
    parseArgument (fun branches label nodes => put label nodes branches) parse inner =
      ((parseArgument (fun branches label nodes => branches ++ [(label, nodes)]) written inner).1.map storedNode,
        (parseArgument (fun branches label nodes => branches ++ [(label, nodes)]) written inner).2) := by
  rw [parseArgument, parseArgument, parseBranches_stored hparse]
  split
  · rfl
  · split <;> rfl

end Parsing

theorem flushText_stored (t : Text) (parsed : Parsed) :
    flushText t (Parsed.stored parsed) = Parsed.stored (flushText t parsed) := by
  rw [flushText, flushText]
  split <;> rfl

theorem after_stored (parsed : Parsed) (nodes : List Node) (errors : List Text) :
    (Parsed.stored parsed).after (storedNodes nodes) errors = Parsed.stored (parsed.after nodes errors) := by
  rw [Parsed.after, Parsed.after, Parsed.stored, Parsed.stored, storedNodes_append]

theorem parseMessageFrom_stored {argument written : Text → Option Node × List Text}
    (hargument : ∀ inner, argument inner = ((written inner).1.map storedNode, (written inner).2))
    (rest : Text) (skip : Nat) (t : Text) :
    parseMessageFrom argument skip t rest = Parsed.stored (parseMessageFrom written skip t rest) := by
  induction rest generalizing skip t with
  | nil => cases skip <;> exact flushText_stored t ⟨[], []⟩
  | cons u rest ih =>
      cases skip with
      | succ skip => exact ih skip t
      | zero =>
          rw [parseMessageFrom, parseMessageFrom]
          split
          · split
            · exact ih 1 _
            · cases findQuotedEnd rest <;> exact ih _ _
          · split
            · cases findClosingBrace (u :: rest) with
              | none => exact flushText_stored t ⟨[], _⟩
              | some braceEnd =>
                  have hnode : ((written (rest.take (braceEnd - 1))).1.map storedNode).toList =
                      storedNodes (written (rest.take (braceEnd - 1))).1.toList := by
                    cases (written (rest.take (braceEnd - 1))).1 <;> rfl
                  dsimp only
                  rw [hargument, hnode, ih, after_stored, flushText_stored]
            · rw [ih]
              exact after_stored _ [] _

theorem parseNested_stored (depth : Nat) (message : Text) :
    parseNested (fun branches label nodes => put label nodes branches) depth message =
      Parsed.stored (parseNested (fun branches label nodes => branches ++ [(label, nodes)]) depth message) := by
  induction depth generalizing message with
  | zero => rfl
  | succ depth ih => exact parseMessageFrom_stored (parseArgument_stored ih) message 0 []

theorem parseMessage_eq_stored (message : Text) : parseMessage message = Parsed.stored (writtenMessage message) :=
  parseNested_stored (message.length + 1) message

end Savitools.Translations.WrittenMessages
