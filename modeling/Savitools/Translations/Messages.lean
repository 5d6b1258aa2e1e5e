import Savitools.Json.Conversions
import Savitools.Stores.Entries
import Savitools.Strings.Trimming

namespace Savitools.Translations.Messages

open Strings.CodeUnits Strings.Trimming Json.Numbers Json.Conversions Stores.Entries

def complexArgumentTypes : List Text := [text "plural", text "select", text "selectordinal"]

def quoteTriggerChars : List UInt16 := text "\x7b\x7d#|"

def apostrophe : UInt16 := 39

def openBrace : UInt16 := unit '{'

def closeBrace : UInt16 := unit '}'

/-- The node of a message. Only an argument of a complex type has branches; they are kept by their labels. -/
inductive Node
  | text (value : Text)
  | argument (name argumentType : Text)
  | choice (name argumentType : Text) (offset : Number) (branches : List (Text × List Node))

abbrev Branches := List (Text × List Node)

structure Parsed where
  nodes : List Node
  errors : List Text

/-- The distance from behind an apostrophe to the one that closes the quoted text. -/
def findQuotedEnd (rest : Text) : Option Nat :=
  if rest.head?.any (quoteTriggerChars.contains ·) then rest.idxOf? apostrophe else none

/-- How many units behind an apostrophe are literal: the second of a pair, or a quoted text with its end. -/
def literalLength (rest : Text) : Option Nat :=
  if rest.head? = some apostrophe then some 1 else (findQuotedEnd rest).map (· + 1)

/-- The loop of `findClosingBrace`: the distance to the brace that brings the depth to zero. The first
argument counts the units that are still to be passed over. -/
def closingBraceFrom : Nat → Int → Text → Option Nat
  | _, _, [] => none
  | skip + 1, depth, _ :: rest => (closingBraceFrom skip depth rest).map (· + 1)
  | 0, depth, u :: rest =>
      if u = apostrophe then (closingBraceFrom ((literalLength rest).getD 0) depth rest).map (· + 1)
      else if u = openBrace then (closingBraceFrom 0 (depth + 1) rest).map (· + 1)
      else if u = closeBrace then
        if depth - 1 = 0 then some 0 else (closingBraceFrom 0 (depth - 1) rest).map (· + 1)
      else (closingBraceFrom 0 depth rest).map (· + 1)

/-- The distance from an opening brace to the one that closes it. -/
def findClosingBrace (input : Text) : Option Nat := closingBraceFrom 0 0 input

def depthAfter (depth : Int) (u : UInt16) : Int :=
  if u = openBrace then depth + 1 else if u = closeBrace then depth - 1 else depth

/-- The loop of `splitTopLevel`, after the part that is being read. -/
def splitTopLevelFrom (delimiter : UInt16) : Nat → Int → Text → Text → List Text
  | _, _, current, [] => [current]
  | skip + 1, depth, current, u :: rest => splitTopLevelFrom delimiter skip depth (current ++ [u]) rest
  | 0, depth, current, u :: rest =>
      match if u = apostrophe then literalLength rest else none with
      | some skip => splitTopLevelFrom delimiter skip depth (current ++ [u]) rest
      | none =>
          if u = delimiter ∧ depthAfter depth u = 0 then
            current :: splitTopLevelFrom delimiter 0 (depthAfter depth u) [] rest
          else splitTopLevelFrom delimiter 0 (depthAfter depth u) (current ++ [u]) rest

def splitTopLevel (input : Text) (delimiter : UInt16) : List Text := splitTopLevelFrom delimiter 0 0 [] input

/-- `/^offset\s*:\s*(\d+)/`: the digits, and the length of the match. -/
def offsetMatch (rest : Text) : Option (Text × Nat) :=
  if (text "offset").isPrefixOf rest then
    let mark := (rest.drop 6).dropWhile isSpace
    let value := (mark.drop 1).dropWhile isSpace
    let digits := value.takeWhile isDigit
    if mark.head? = some (unit ':') ∧ digits ≠ [] then
      some (digits, rest.length - value.length + digits.length)
    else none
  else none

/-- Without a comma at its end. -/
def withoutComma (t : Text) : Text := if t.getLast? = some (unit ',') then t.dropLast else t

def branchLabel (t : Text) : Text := trim (withoutComma (trim t))

/-- What the loop of `parseBranches` has gathered. -/
structure Branching where
  offset : Number
  branches : Branches
  errors : List Text

def Branching.fail (branching : Branching) (error : Text) : Branching :=
  { branching with errors := branching.errors ++ [error] }

section Parsing

/- `store` is how a branch joins those before it, `parse` the message parser for what stands in a branch. -/
variable (store : Branches → Text → List Node → Branches) (parse : Text → Parsed)

/-- The loop of `parseBranches` over the rest of the style. -/
def parseBranchesFrom : Nat → Branching → Text → Branching
  | _, branching, [] => branching
  | skip + 1, branching, _ :: rest => parseBranchesFrom skip branching rest
  | 0, branching, u :: rest =>
      if isSpace u ∨ u = unit ',' then parseBranchesFrom 0 branching rest
      else
        match offsetMatch (u :: rest) with
        | some (digits, length) =>
            parseBranchesFrom (length - 1)
              { branching with offset := (toNumber digits).getD branching.offset } rest
        | none =>
            match (u :: rest).idxOf? openBrace with
            | none => branching.fail (text "missing \"\x7b\" for a plural/select branch")
            | some braceStart =>
                let label := branchLabel ((u :: rest).take braceStart)
                match findClosingBrace ((u :: rest).drop braceStart) with
                | none =>
                    branching.fail
                      (text "unclosed branch \"" ++ (if label = [] then text "?" else label) ++ text "\"")
                | some braceEnd =>
                    if label = [] then
                      parseBranchesFrom braceStart
                        (branching.fail (text "missing plural/select branch label")) rest
                    else
                      let branch := parse (((u :: rest).drop (braceStart + 1)).take (braceEnd - 1))
                      parseBranchesFrom (braceStart + braceEnd)
                        ⟨branching.offset, store branching.branches label branch.nodes,
                          branching.errors ++ branch.errors⟩ rest

def parseBranches (style : Text) : Branching :=
  let branching := parseBranchesFrom store parse 0 ⟨.finite 0, [], []⟩ style
  if branching.branches = [] then branching.fail (text "expected at least one plural/select branch") else branching

def argumentTypeOf (parts : List Text) : Text :=
  match parts[1]? with
  | none => text "simple"
  | some part => if trim part = [] then text "simple" else trim part

/-- An argument without a name is no node. -/
def parseArgument (inner : Text) : Option Node × List Text :=
  let parts := splitTopLevel inner (unit ',')
  let name := trim (parts.headD [])
  let argumentType := argumentTypeOf parts
  if name = [] then (none, [text "interpolation argument has no name"])
  else if argumentType ∉ complexArgumentTypes then (some (.argument name argumentType), [])
  else
    let branching := parseBranches store parse (trim (join (unit ',') (parts.drop 2)))
    (some (.choice name argumentType branching.offset branching.branches), branching.errors)

end Parsing

def flushText (t : Text) (parsed : Parsed) : Parsed :=
  if t = [] then parsed else { parsed with nodes := .text t :: parsed.nodes }

def Parsed.after (parsed : Parsed) (nodes : List Node) (errors : List Text) : Parsed :=
  ⟨nodes ++ parsed.nodes, errors ++ parsed.errors⟩

/-- The loop of `parseMessage` over the rest of the message, with the text that is not yet a node. -/
def parseMessageFrom (argument : Text → Option Node × List Text) : Nat → Text → Text → Parsed
  | _, t, [] => flushText t ⟨[], []⟩
  | skip + 1, t, _ :: rest => parseMessageFrom argument skip t rest
  | 0, t, u :: rest =>
      if u = apostrophe then
        if rest.head? = some apostrophe then parseMessageFrom argument 1 (t ++ [apostrophe]) rest
        else
          match findQuotedEnd rest with
          | some quoteEnd => parseMessageFrom argument (quoteEnd + 1) (t ++ rest.take quoteEnd) rest
          | none => parseMessageFrom argument 0 (t ++ [u]) rest
      else if u = openBrace then
        match findClosingBrace (u :: rest) with
        | none => flushText t ⟨[], [text "unclosed \"\x7b\" in message"]⟩
        | some braceEnd =>
            let (node, errors) := argument (rest.take (braceEnd - 1))
            flushText t ((parseMessageFrom argument braceEnd [] rest).after node.toList errors)
      else
        (parseMessageFrom argument 0 (t ++ [u]) rest).after []
          (if u = closeBrace then [text "unmatched \"\x7d\" in message"] else [])

/-- Messages nested to some depth. -/
def parseNested (store : Branches → Text → List Node → Branches) : Nat → Text → Parsed
  | 0, _ => ⟨[], []⟩
  | depth + 1, message => parseMessageFrom (parseArgument store (parseNested store depth)) 0 [] message

/-- A message is nested less deeply than it is long. -/
def parseMessageWith (store : Branches → Text → List Node → Branches) (message : Text) : Parsed :=
  parseNested store (message.length + 1) message

def parseMessage : Text → Parsed := parseMessageWith fun branches label nodes => put label nodes branches

theorem splitTopLevelFrom_ne_nil (delimiter : UInt16) (skip : Nat) (depth : Int) (current input : Text) :
    splitTopLevelFrom delimiter skip depth current input ≠ [] := by
  induction input generalizing skip depth current with
  | nil => cases skip <;> exact List.cons_ne_nil _ _
  | cons u rest ih =>
      cases skip with
      | succ skip => exact ih _ _ _
      | zero =>
          rw [splitTopLevelFrom]
          split
          · exact ih _ _ _
          · split
            · exact List.cons_ne_nil _ _
            · exact ih _ _ _

/-- Splitting loses nothing but the delimiters. -/
theorem join_splitTopLevelFrom (delimiter : UInt16) (skip : Nat) (depth : Int) (current input : Text) :
    join delimiter (splitTopLevelFrom delimiter skip depth current input) = current ++ input := by
  induction input generalizing skip depth current with
  | nil => cases skip <;> simp [splitTopLevelFrom, join]
  | cons u rest ih =>
      cases skip with
      | succ skip => rw [splitTopLevelFrom, ih, List.append_assoc, List.singleton_append]
      | zero =>
          rw [splitTopLevelFrom]
          split
          · rw [ih, List.append_assoc, List.singleton_append]
          · split
            · rename_i hdelimiter
              have hjoin := ih 0 (depthAfter depth u) []
              rw [join] at hjoin
              rw [join, List.intercalate_cons_of_ne_nil (splitTopLevelFrom_ne_nil _ _ _ _ _), hjoin, hdelimiter.1]
              simp
            · rw [ih, List.append_assoc, List.singleton_append]

theorem length_join_drop_le (delimiter : UInt16) (n : Nat) (parts : List Text) :
    (join delimiter (parts.drop n)).length ≤ (join delimiter parts).length := by
  induction parts generalizing n with
  | nil => rw [List.drop_nil]
  | cons part parts ih =>
      cases n with
      | zero => exact Nat.le_refl _
      | succ n =>
          have hcons : (join delimiter parts).length ≤ (join delimiter (part :: parts)).length := by
            cases parts with
            | nil => exact Nat.zero_le _
            | cons next parts =>
                simp only [join, List.intercalate_cons_cons, List.length_append]
                omega
          exact (ih n).trans hcons

theorem length_style_le (inner : Text) :
    (trim (join (unit ',') ((splitTopLevel inner (unit ',')).drop 2))).length ≤ inner.length := by
  have hjoin := length_join_drop_le (unit ',') 2 (splitTopLevel inner (unit ','))
  rw [splitTopLevel, join_splitTopLevelFrom, List.nil_append] at hjoin
  exact (length_trim_le _).trans hjoin

section Nesting

variable {store : Branches → Text → List Node → Branches} {parse parse' : Text → Parsed} {n : Nat}

/-- The branches of a style are shorter than it. -/
theorem parseBranchesFrom_congr (h : ∀ t, t.length < n → parse t = parse' t) {rest : Text} (hrest : rest.length ≤ n)
    (skip : Nat) (branching : Branching) :
    parseBranchesFrom store parse skip branching rest = parseBranchesFrom store parse' skip branching rest := by
  induction rest generalizing skip branching with
  | nil => cases skip <;> rfl
  | cons u rest ih =>
      have hih := ih (Nat.le_of_succ_le hrest)
      cases skip with
      | succ skip => exact hih skip branching
      | zero =>
          rw [parseBranchesFrom, parseBranchesFrom]
          split
          · exact hih 0 branching
          · cases offsetMatch (u :: rest) with
            | some offset => exact hih _ _
            | none =>
                cases (u :: rest).idxOf? openBrace with
                | none => rfl
                | some braceStart =>
                    dsimp only
                    cases findClosingBrace ((u :: rest).drop braceStart) with
                    | none => rfl
                    | some braceEnd =>
                        dsimp only
                        split
                        · exact hih _ _
                        · have hlength : (((u :: rest).drop (braceStart + 1)).take (braceEnd - 1)).length < n := by
                            rw [List.length_take, List.length_drop, List.length_cons]
                            rw [List.length_cons] at hrest
                            omega
                          rw [h _ hlength]
                          exact hih _ _

theorem parseArgument_congr (h : ∀ t, t.length < n → parse t = parse' t) {inner : Text} (hinner : inner.length ≤ n) :
    parseArgument store parse inner = parseArgument store parse' inner := by
  have hstyle := (length_style_le inner).trans hinner
  have hbranches : parseBranches store parse (trim (join (unit ',') ((splitTopLevel inner (unit ',')).drop 2))) =
      parseBranches store parse' (trim (join (unit ',') ((splitTopLevel inner (unit ',')).drop 2))) := by
    rw [parseBranches, parseBranches, parseBranchesFrom_congr h hstyle]
  rw [parseArgument, parseArgument, hbranches]

theorem parseMessageFrom_congr {argument argument' : Text → Option Node × List Text}
    (h : ∀ inner, inner.length < n → argument inner = argument' inner) {rest : Text} (hrest : rest.length ≤ n)
    (skip : Nat) (t : Text) :
    parseMessageFrom argument skip t rest = parseMessageFrom argument' skip t rest := by
  induction rest generalizing skip t with
  | nil => cases skip <;> rfl
  | cons u rest ih =>
      have hih := ih (Nat.le_of_succ_le hrest)
      cases skip with
      | succ skip => exact hih skip t
      | zero =>
          rw [parseMessageFrom, parseMessageFrom]
          split
          · split
            · exact hih 1 _
            · cases findQuotedEnd rest <;> exact hih _ _
          · split
            · cases findClosingBrace (u :: rest) with
              | none => rfl
              | some braceEnd =>
                  have hinner : (rest.take (braceEnd - 1)).length < n := by
                    rw [List.length_take]
                    rw [List.length_cons] at hrest
                    omega
                  dsimp only
                  rw [h _ hinner, hih]
            · rw [hih]

/-- More depth than a message is long changes nothing. -/
theorem parseNested_eq {depth depth' : Nat} {message : Text} (h : message.length < depth) (h' : message.length < depth') :
    parseNested store depth message = parseNested store depth' message := by
  induction depth generalizing depth' message with
  | zero => exact absurd h (Nat.not_lt_zero _)
  | succ depth ih =>
      cases depth' with
      | zero => exact absurd h' (Nat.not_lt_zero _)
      | succ depth' =>
          apply parseMessageFrom_congr _ (Nat.le_refl _)
          intro inner hinner
          apply parseArgument_congr _ (Nat.le_refl _)
          intro t ht
          exact ih (by omega) (by omega)

/-- `parseMessage` calls itself for the branches. -/
theorem parseMessageWith_eq (message : Text) :
    parseMessageWith store message = parseMessageFrom (parseArgument store (parseMessageWith store)) 0 [] message := by
  apply parseMessageFrom_congr _ (Nat.le_refl _)
  intro inner hinner
  apply parseArgument_congr _ (Nat.le_refl _)
  intro t ht
  exact parseNested_eq (by omega) (Nat.lt_succ_self _)

end Nesting

end Savitools.Translations.Messages
