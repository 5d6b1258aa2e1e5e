import Savitools.Transitions.Folds
import Savitools.Translations.Messages

namespace Savitools.Translations.MessageCursors

open Strings.CodeUnits Json.Numbers Json.Conversions Stores.Entries Transitions.Scans Messages

def slice (input : Text) (start stop : Nat) : Text := (input.drop start).take (stop - start)

def indexOf (input : Text) (u : UInt16) (start : Nat) : Option Nat := ((input.drop start).idxOf? u).map (start + ·)

def findQuotedEnd (input : Text) (start : Nat) : Option Nat :=
  if input[start + 1]?.any (quoteTriggerChars.contains ·) then indexOf input apostrophe (start + 1) else none

def closingBracePass (input : Text) : Pass Int (Option Nat) := fun i depth =>
  match input[i]? with
  | none => some (.inr none)
  | some u =>
      if u = apostrophe then
        if input[i + 1]? = some apostrophe then some (.inl (i + 2, depth))
        else some (.inl ((findQuotedEnd input i).getD i + 1, depth))
      else if u = openBrace then some (.inl (i + 1, depth + 1))
      else if u = closeBrace then
        if depth - 1 = 0 then some (.inr (some i)) else some (.inl (i + 1, depth - 1))
      else some (.inl (i + 1, depth))

/-- Loops and calls that use up their fuel have no result: the outer `none`. -/
def findClosingBrace (fuel : Nat) (input : Text) (start : Nat) : Option (Option Nat) :=
  scan (closingBracePass input) fuel start 0

/-- The parts that are complete, the one that is being read, and the depth. -/
structure Splitting where
  parts : List Text
  current : Text
  depth : Int

def splitPass (input : Text) (delimiter : UInt16) : Pass Splitting (List Text) := fun i s =>
  match input[i]? with
  | none => some (.inr (s.parts ++ [s.current]))
  | some u =>
      let plain :=
        let depth := depthAfter s.depth u
        if u = delimiter ∧ depth = 0 then some (.inl (i + 1, ⟨s.parts ++ [s.current], [], depth⟩))
        else some (.inl (i + 1, ⟨s.parts, s.current ++ [u], depth⟩))
      if u = apostrophe then
        if input[i + 1]? = some apostrophe then
          some (.inl (i + 2, { s with current := s.current ++ [apostrophe, apostrophe] }))
        else
          match findQuotedEnd input i with
          | some quoteEnd => some (.inl (quoteEnd + 1, { s with current := s.current ++ slice input i (quoteEnd + 1) }))
          | none => plain
      else plain

def splitTopLevel (fuel : Nat) (input : Text) (delimiter : UInt16) : Option (List Text) :=
  scan (splitPass input delimiter) fuel 0 ⟨[], [], 0⟩

def isSeparator (u : UInt16) : Bool := isSpace u || u = unit ','

/-- The inner loop of `parseBranches`, over the separators. -/
def separatorPass (style : Text) : Pass Unit Nat := fun cursor _ =>
  if style[cursor]?.any isSeparator then some (.inl (cursor + 1, ())) else some (.inr cursor)

def branchesPass (fuel : Nat) (parse : Text → Option Parsed) (style : Text) : Pass Branching Branching :=
  fun before branching => do
    let cursor ← scan (separatorPass style) fuel before ()
    if style.length ≤ cursor then some (.inr branching)
    else
      match offsetMatch (style.drop cursor) with
      | some (digits, length) =>
          some (.inl (cursor + length, { branching with offset := (toNumber digits).getD branching.offset }))
      | none =>
          match indexOf style openBrace cursor with
          | none => some (.inr (branching.fail (text "missing \"\x7b\" for a plural/select branch")))
          | some braceStart =>
              let label := branchLabel (slice style cursor braceStart)
              match ← findClosingBrace fuel style braceStart with
              | none =>
                  some (.inr (branching.fail
                    (text "unclosed branch \"" ++ (if label = [] then text "?" else label) ++ text "\"")))
              | some braceEnd =>
                  if label = [] then
                    some (.inl (braceStart + 1, branching.fail (text "missing plural/select branch label")))
                  else
                    let branch ← parse (slice style (braceStart + 1) braceEnd)
                    some (.inl (braceEnd + 1, ⟨branching.offset, put label branch.nodes branching.branches,
                      branching.errors ++ branch.errors⟩))

def parseBranches (fuel : Nat) (parse : Text → Option Parsed) (style : Text) : Option Branching := do
  let branching ← scan (branchesPass fuel parse style) fuel 0 ⟨.finite 0, [], []⟩
  some (if branching.branches = [] then branching.fail (text "expected at least one plural/select branch") else branching)

def parseArgument (fuel : Nat) (parse : Text → Option Parsed) (inner : Text) : Option (Option Node × List Text) := do
  let parts ← splitTopLevel fuel inner (unit ',')
  let name := trim (parts.headD [])
  let argumentType := argumentTypeOf parts
  if name = [] then some (none, [text "interpolation argument has no name"])
  else if argumentType ∉ complexArgumentTypes then some (some (.argument name argumentType), [])
  else
    let branching ← parseBranches fuel parse (trim (join (unit ',') (parts.drop 2)))
    some (some (.choice name argumentType branching.offset branching.branches), branching.errors)

/-- What the loop of `parseMessage` has gathered, and the text that is not yet a node. -/
structure Reading where
  nodes : List Node
  errors : List Text
  text : Text

def Reading.flushText (s : Reading) : Reading :=
  if s.text = [] then s else ⟨s.nodes ++ [.text s.text], s.errors, []⟩

def Reading.parsed (s : Reading) : Parsed := ⟨s.nodes, s.errors⟩

def messagePass (fuel : Nat) (argument : Text → Option (Option Node × List Text)) (message : Text) : Pass Reading Parsed :=
  fun cursor s =>
    match message[cursor]? with
    | none => some (.inr s.flushText.parsed)
    | some u =>
        if u = apostrophe then
          if message[cursor + 1]? = some apostrophe then
            some (.inl (cursor + 2, { s with text := s.text ++ [apostrophe] }))
          else
            match findQuotedEnd message cursor with
            | some quoteEnd =>
                some (.inl (quoteEnd + 1, { s with text := s.text ++ slice message (cursor + 1) quoteEnd }))
            | none => some (.inl (cursor + 1, { s with text := s.text ++ [u] }))
        else if u = openBrace then do
          match ← findClosingBrace fuel message cursor with
          | none =>
              let s := s.flushText
              some (.inr ⟨s.nodes, s.errors ++ [Strings.CodeUnits.text "unclosed \"\x7b\" in message"]⟩)
          | some braceEnd =>
              let s := s.flushText
              let (node, errors) ← argument (slice message (cursor + 1) braceEnd)
              some (.inl (braceEnd + 1, ⟨s.nodes ++ node.toList, s.errors ++ errors, s.text⟩))
        else
          let errors := if u = closeBrace then [Strings.CodeUnits.text "unmatched \"\x7d\" in message"] else []
          some (.inl (cursor + 1, { s with errors := s.errors ++ errors, text := s.text ++ [u] }))

def parseMessage : Nat → Text → Option Parsed
  | 0, _ => none
  | fuel + 1, message =>
      scan (messagePass (fuel + 1) (parseArgument (fuel + 1) (parseMessage fuel)) message) (fuel + 1) 0 ⟨[], [], []⟩

theorem drop_of_getElem? {input : Text} {i : Nat} {u : UInt16} (h : input[i]? = some u) :
    input.drop i = u :: input.drop (i + 1) := by
  obtain ⟨hlt, rfl⟩ := List.getElem?_eq_some_iff.mp h
  exact List.drop_eq_getElem_cons hlt

theorem drop_of_getElem?_none {input : Text} {i : Nat} (h : input[i]? = none) : input.drop i = [] :=
  List.drop_eq_nil_of_le (List.getElem?_eq_none_iff.mp h)

theorem lt_of_getElem? {input : Text} {i : Nat} {u : UInt16} (h : input[i]? = some u) : i < input.length :=
  (List.getElem?_eq_some_iff.mp h).1

theorem indexOf_bounds {input : Text} {u : UInt16} {start i : Nat} (h : indexOf input u start = some i) :
    start ≤ i ∧ i < input.length := by
  obtain ⟨j, hj, rfl⟩ := Option.map_eq_some_iff.mp h
  obtain ⟨hlt, -⟩ := List.findIdx?_eq_some_iff_getElem.mp hj
  rw [List.length_drop] at hlt
  omega

theorem findQuotedEnd_bounds {input : Text} {start i : Nat} (h : findQuotedEnd input start = some i) :
    start + 1 ≤ i ∧ i < input.length := indexOf_bounds (Option.ite_none_right_eq_some.mp h).2

/-- The rest behind an apostrophe tells where the quoted text ends. -/
theorem findQuotedEnd_eq (input : Text) (start : Nat) :
    findQuotedEnd input start = (Messages.findQuotedEnd (input.drop (start + 1))).map (start + 1 + ·) := by
  rw [findQuotedEnd, Messages.findQuotedEnd, List.head?_drop]
  split <;> rfl

theorem literalLength_eq (input : Text) (start : Nat) : literalLength (input.drop (start + 1)) =
    if input[start + 1]? = some apostrophe then some 1 else (Messages.findQuotedEnd (input.drop (start + 1))).map (· + 1) := by
  rw [literalLength, List.head?_drop]

theorem closingBracePass_advances (input : Text) : Advances (closingBracePass input) input.length := by
  intro i depth next t h
  rw [closingBracePass] at h
  split at h
  next => cases h
  next u hu =>
    have hone : i < i + 1 ∧ i + 1 ≤ input.length := ⟨Nat.lt_succ_self i, lt_of_getElem? hu⟩
    split at h
    next =>
      split at h
      next hpair => exact bounds_of_inl h ⟨by omega, lt_of_getElem? hpair⟩
      next =>
        refine bounds_of_inl h ?_
        cases hquote : findQuotedEnd input i with
        | none => exact hone
        | some quoteEnd =>
            have := findQuotedEnd_bounds hquote
            rw [Option.getD_some]
            omega
    next =>
      split at h
      next => exact bounds_of_inl h hone
      next =>
        split at h
        next =>
          split at h
          next => cases h
          next => exact bounds_of_inl h hone
        next => exact bounds_of_inl h hone

/-- Units that are passed over could have been dropped. -/
theorem closingBraceFrom_skip (skip : Nat) (depth : Int) (rest : Text) :
    closingBraceFrom skip depth rest = (closingBraceFrom 0 depth (rest.drop skip)).map (skip + ·) := by
  induction skip generalizing rest with
  | zero => simp only [List.drop_zero, Nat.zero_add, Option.map_id_fun', id_eq]
  | succ skip ih =>
      cases rest with
      | nil => rfl
      | cons u rest =>
          rw [closingBraceFrom, ih, List.drop_succ_cons, Option.map_map]
          congr 1
          funext i
          simp only [Function.comp_apply]
          omega

/-- Where the brace is that closes what is open from `i` on. -/
def closingBraceAt (input : Text) (i : Nat) (depth : Int) : Option Nat :=
  (closingBraceFrom 0 depth (input.drop i)).map (i + ·)

theorem closingBraceAt_skip (input : Text) (i skip : Nat) (depth : Int) :
    ((closingBraceFrom skip depth (input.drop (i + 1))).map (· + 1)).map (i + ·) =
      closingBraceAt input (i + 1 + skip) depth := by
  rw [closingBraceFrom_skip, List.drop_drop, Option.map_map, Option.map_map, closingBraceAt]
  congr 1
  funext j
  simp only [Function.comp_apply]
  omega

theorem closingBracePass_computes (input : Text) : Computes (closingBracePass input) (closingBraceAt input) := by
  intro i depth
  rw [closingBracePass]
  cases hu : input[i]? with
  | none =>
      right
      rw [closingBraceAt, drop_of_getElem?_none hu]
      rfl
  | some u =>
      have hskip := closingBraceAt_skip input i
      have hat : closingBraceAt input i depth = (closingBraceFrom 0 depth (u :: input.drop (i + 1))).map (i + ·) := by
        rw [closingBraceAt, drop_of_getElem? hu]
      rw [hat, closingBraceFrom]
      simp only
      split
      next =>
        left
        rw [hskip, literalLength_eq]
        split
        next => exact ⟨_, _, rfl, rfl⟩
        next =>
          rw [findQuotedEnd_eq]
          cases Messages.findQuotedEnd (input.drop (i + 1)) with
          | none => exact ⟨_, _, rfl, rfl⟩
          | some quoteEnd => exact ⟨_, _, rfl, rfl⟩
      next =>
        split
        next => exact .inl ⟨_, _, rfl, (hskip 0 (depth + 1)).symm⟩
        next =>
          split
          next =>
            split
            next => exact .inr rfl
            next => exact .inl ⟨_, _, rfl, (hskip 0 (depth - 1)).symm⟩
          next => exact .inl ⟨_, _, rfl, (hskip 0 depth).symm⟩

theorem findClosingBrace_eq {fuel : Nat} {input : Text} {start : Nat} (hfuel : input.length ≤ fuel + start) :
    findClosingBrace (fuel + 1) input start = some ((Messages.findClosingBrace (input.drop start)).map (start + ·)) :=
  scan_eq (closingBracePass_advances input) (closingBracePass_computes input) hfuel

theorem findClosingBrace_bounds {fuel : Nat} {input : Text} {start i : Nat}
    (h : findClosingBrace fuel input start = some (some i)) : start ≤ i ∧ i < input.length := by
  obtain ⟨last, depth, hle, hlast⟩ := scan_last (closingBracePass_advances input) h
  rw [closingBracePass] at hlast
  split at hlast
  next => cases hlast
  next u hu =>
    split at hlast
    next =>
      split at hlast
      next => cases hlast
      next => cases hlast
    next =>
      split at hlast
      next => cases hlast
      next =>
        split at hlast
        next =>
          split at hlast
          next =>
            obtain rfl := Option.some.inj (Sum.inr.inj (Option.some.inj hlast))
            exact ⟨hle, lt_of_getElem? hu⟩
          next => cases hlast
        next => cases hlast

theorem splitPass_advances (input : Text) (delimiter : UInt16) : Advances (splitPass input delimiter) input.length := by
  intro i s next t h
  rw [splitPass] at h
  split at h
  next => cases h
  next u hu =>
    have hone : i < i + 1 ∧ i + 1 ≤ input.length := ⟨Nat.lt_succ_self i, lt_of_getElem? hu⟩
    have hplain {p : Prop} [Decidable p] {a b : Splitting}
        (h : (if p then some (.inl (i + 1, a)) else some (.inl (i + 1, b)) : Option (Nat × Splitting ⊕ List Text)) =
          some (.inl (next, t))) : i < next ∧ next ≤ input.length := by
      split at h
      · exact bounds_of_inl h hone
      · exact bounds_of_inl h hone
    simp only at h
    split at h
    next =>
      split at h
      next hpair => exact bounds_of_inl h ⟨by omega, lt_of_getElem? hpair⟩
      next =>
        split at h
        next quoteEnd hquote =>
          have := findQuotedEnd_bounds hquote
          exact bounds_of_inl h (by omega)
        next => exact hplain h
    next => exact hplain h

theorem splitTopLevelFrom_skip (delimiter : UInt16) (skip : Nat) (depth : Int) (current rest : Text) :
    splitTopLevelFrom delimiter skip depth current rest =
      splitTopLevelFrom delimiter 0 depth (current ++ rest.take skip) (rest.drop skip) := by
  induction skip generalizing current rest with
  | zero => rw [List.take_zero, List.append_nil, List.drop_zero]
  | succ skip ih =>
      cases rest with
      | nil =>
          rw [List.take_nil, List.append_nil, List.drop_nil]
          rfl
      | cons u rest => rw [splitTopLevelFrom, ih, List.append_assoc, List.take_succ_cons, List.drop_succ_cons,
          List.singleton_append]

/-- The parts, when those from `i` on are still to be split. -/
def partsAt (input : Text) (delimiter : UInt16) (i : Nat) (s : Splitting) : List Text :=
  s.parts ++ splitTopLevelFrom delimiter 0 s.depth s.current (input.drop i)

theorem splitPass_computes (input : Text) (delimiter : UInt16) :
    Computes (splitPass input delimiter) (partsAt input delimiter) := by
  intro i s
  rw [splitPass]
  cases hu : input[i]? with
  | none =>
      right
      rw [partsAt, drop_of_getElem?_none hu]
      rfl
  | some u =>
      left
      have hat : partsAt input delimiter i s =
          s.parts ++ splitTopLevelFrom delimiter 0 s.depth s.current (u :: input.drop (i + 1)) := by
        rw [partsAt, drop_of_getElem? hu]
      have hskip (skip : Nat) : s.parts ++ splitTopLevelFrom delimiter skip s.depth (s.current ++ [u]) (input.drop (i + 1)) =
          partsAt input delimiter (i + 1 + skip)
            { s with current := s.current ++ u :: (input.drop (i + 1)).take skip } := by
        rw [splitTopLevelFrom_skip, List.drop_drop, partsAt, List.append_assoc, List.singleton_append]
      have hplain : ∃ next t, (if u = delimiter ∧ depthAfter s.depth u = 0 then
            some (.inl (i + 1, ⟨s.parts ++ [s.current], [], depthAfter s.depth u⟩))
          else some (.inl (i + 1, ⟨s.parts, s.current ++ [u], depthAfter s.depth u⟩)) : Option (Nat × Splitting ⊕ List Text)) =
            some (.inl (next, t)) ∧
          partsAt input delimiter next t = s.parts ++ (if u = delimiter ∧ depthAfter s.depth u = 0 then
            s.current :: splitTopLevelFrom delimiter 0 (depthAfter s.depth u) [] (input.drop (i + 1))
          else splitTopLevelFrom delimiter 0 (depthAfter s.depth u) (s.current ++ [u]) (input.drop (i + 1))) := by
        split
        next => exact ⟨_, _, rfl, by rw [partsAt, List.append_assoc, List.singleton_append]⟩
        next => exact ⟨_, _, rfl, rfl⟩
      rw [hat, splitTopLevelFrom, literalLength_eq]
      simp only
      split
      next hquote =>
        subst hquote
        split
        next hpair =>
          refine ⟨_, _, rfl, ?_⟩
          rw [hskip, drop_of_getElem? hpair]
          rfl
        next =>
          rw [findQuotedEnd_eq]
          cases Messages.findQuotedEnd (input.drop (i + 1)) with
          | none => exact hplain
          | some quoteEnd =>
              refine ⟨_, _, rfl, ?_⟩
              simp only [Option.map_some]
              rw [hskip, slice, drop_of_getElem? hu]
              have hlength : i + 1 + quoteEnd + 1 - i = quoteEnd + 1 + 1 := by omega
              rw [hlength, List.take_succ_cons]
              rfl
      next => exact hplain

theorem splitTopLevel_eq {fuel : Nat} {input : Text} (hfuel : input.length ≤ fuel) (delimiter : UInt16) :
    splitTopLevel (fuel + 1) input delimiter = some (Messages.splitTopLevel input delimiter) :=
  scan_eq (splitPass_advances input delimiter) (splitPass_computes input delimiter) hfuel

theorem splitTopLevel_value {fuel : Nat} {input : Text} {delimiter : UInt16} {parts : List Text}
    (h : splitTopLevel fuel input delimiter = some parts) : parts = Messages.splitTopLevel input delimiter :=
  scan_value (splitPass_computes input delimiter) h

theorem separatorPass_advances (style : Text) : Advances (separatorPass style) style.length := by
  intro cursor s next t h
  rw [separatorPass] at h
  split at h
  next hseparator =>
    obtain ⟨u, hu, -⟩ := (Option.any_eq_true _ _).mp hseparator
    exact bounds_of_inl h ⟨Nat.lt_succ_self cursor, lt_of_getElem? hu⟩
  next => cases h

/-- Behind the separators from the cursor on. -/
def behindSeparators (style : Text) (cursor : Nat) (_ : Unit) : Nat :=
  cursor + ((style.drop cursor).takeWhile isSeparator).length

theorem separatorPass_computes (style : Text) : Computes (separatorPass style) (behindSeparators style) := by
  intro cursor s
  rw [separatorPass]
  cases hu : style[cursor]? with
  | none =>
      right
      rw [behindSeparators, drop_of_getElem?_none hu]
      rfl
  | some u =>
      rw [Option.any_some]
      cases hseparator : isSeparator u with
      | true =>
          refine .inl ⟨cursor + 1, (), rfl, ?_⟩
          rw [behindSeparators, behindSeparators, drop_of_getElem? hu, List.takeWhile_cons_of_pos hseparator, List.length_cons]
          omega
      | false =>
          right
          rw [behindSeparators, drop_of_getElem? hu, List.takeWhile_cons_of_neg (ne_true_of_eq_false hseparator)]
          rfl

theorem drop_behindSeparators (style : Text) (cursor : Nat) :
    style.drop (behindSeparators style cursor ()) = (style.drop cursor).dropWhile isSeparator := by
  have happend := @List.takeWhile_append_dropWhile _ isSeparator (style.drop cursor)
  rw [behindSeparators, ← List.drop_drop]
  nth_rewrite 2 [← happend]
  rw [List.drop_left]

theorem not_separator_behind (style : Text) (cursor : Nat) :
    ∀ u ∈ (style.drop (behindSeparators style cursor ())).head?, isSeparator u = false := by
  intro u hu
  have hhead := List.head?_dropWhile_not isSeparator (style.drop cursor)
  rw [drop_behindSeparators] at hu
  rw [hu] at hhead
  exact hhead

theorem offsetMatch_bounds {rest digits : Text} {length : Nat} (h : offsetMatch rest = some (digits, length)) :
    0 < length ∧ length ≤ rest.length := by
  rw [offsetMatch] at h
  obtain ⟨-, h⟩ := Option.ite_none_right_eq_some.mp h
  obtain ⟨⟨-, hdigits⟩, h⟩ := Option.ite_none_right_eq_some.mp h
  obtain ⟨rfl, rfl⟩ := Prod.mk.inj (Option.some.inj h)
  have hpos := List.length_pos_iff.mpr hdigits
  generalize hvalue : List.dropWhile isSpace (List.drop 1 (List.dropWhile isSpace (rest.drop 6))) = value at hpos ⊢
  have htaken := (List.takeWhile_sublist isDigit (l := value)).length_le
  have hrest : value.length ≤ rest.length := by
    rw [← hvalue]
    exact ((List.dropWhile_sublist _).trans ((List.drop_sublist _ _).trans
      ((List.dropWhile_sublist _).trans (List.drop_sublist _ _)))).length_le
  omega

theorem branchesPass_advances (fuel : Nat) (parse : Text → Option Parsed) (style : Text) :
    Advances (branchesPass fuel parse style) style.length := by
  intro before branching next t h
  rw [branchesPass] at h
  obtain ⟨cursor, hcursor, h⟩ := Option.bind_eq_some_iff.mp h
  obtain ⟨last, ⟨⟩, hle, hlast⟩ := scan_last (separatorPass_advances style) hcursor
  rw [separatorPass] at hlast
  split at hlast
  next => cases hlast
  next =>
    obtain rfl := Sum.inr.inj (Option.some.inj hlast)
    split at h
    next => cases h
    next hlt =>
      have hlt := Nat.lt_of_not_le hlt
      split at h
      next digits length hoffset =>
        have hbounds := offsetMatch_bounds hoffset
        rw [List.length_drop] at hbounds
        exact bounds_of_inl h (by omega)
      next =>
        split at h
        next => cases h
        next braceStart hstart =>
          have hstart := indexOf_bounds hstart
          obtain ⟨braceEnd, hend, h⟩ := Option.bind_eq_some_iff.mp h
          cases braceEnd with
          | none => cases h
          | some braceEnd =>
              have hend := findClosingBrace_bounds hend
              simp only at h
              split at h
              next => exact bounds_of_inl h (by omega)
              next =>
                obtain ⟨branch, -, h⟩ := Option.bind_eq_some_iff.mp h
                exact bounds_of_inl h (by omega)

/-- A label that comes again keeps its place and gets the later branch. -/
def setBranch (branches : Branches) (label : Text) (nodes : List Node) : Branches := put label nodes branches

section Calls

variable {parse parse' : Text → Option Parsed} {total : Text → Parsed}

theorem parseBranchesFrom_skip (skip : Nat) (branching : Branching) (rest : Text) :
    parseBranchesFrom setBranch total skip branching rest = parseBranchesFrom setBranch total 0 branching (rest.drop skip) := by
  induction skip generalizing rest with
  | zero => rw [List.drop_zero]
  | succ skip ih =>
      cases rest with
      | nil => rfl
      | cons u rest => rw [parseBranchesFrom, ih, List.drop_succ_cons]

theorem parseBranchesFrom_separators (branching : Branching) (rest : Text) :
    parseBranchesFrom setBranch total 0 branching (rest.dropWhile isSeparator) =
      parseBranchesFrom setBranch total 0 branching rest := by
  induction rest with
  | nil => rfl
  | cons u rest ih =>
      cases hseparator : isSeparator u with
      | true =>
          have hu : isSpace u = true ∨ u = unit ',' := by simpa [isSeparator] using hseparator
          rw [List.dropWhile_cons_of_pos hseparator, ih, parseBranchesFrom, if_pos hu]
      | false => rw [List.dropWhile_cons_of_neg (ne_true_of_eq_false hseparator)]

/-- What is gathered when the branches from the cursor on are still to be parsed. -/
def branchesAt (total : Text → Parsed) (style : Text) (cursor : Nat) (branching : Branching) : Branching :=
  parseBranchesFrom setBranch total 0 branching (style.drop cursor)

theorem branchesAt_skip (style : Text) (cursor skip : Nat) (branching : Branching) :
    parseBranchesFrom setBranch total skip branching (style.drop (cursor + 1)) =
      branchesAt total style (cursor + 1 + skip) branching := by
  rw [parseBranchesFrom_skip, List.drop_drop, branchesAt]

theorem branchesAt_behind (style : Text) (cursor : Nat) (branching : Branching) :
    branchesAt total style cursor branching = branchesAt total style (behindSeparators style cursor ()) branching := by
  rw [branchesAt, branchesAt, drop_behindSeparators, parseBranchesFrom_separators]

theorem slice_add (input : Text) (start length : Nat) :
    slice input start (start + length) = (input.drop start).take length := by
  rw [slice, Nat.add_sub_cancel_left]

/-- What stands between two braces. -/
theorem slice_between (input : Text) (start length : Nat) :
    slice input (start + 1) (start + length) = (input.drop (start + 1)).take (length - 1) := by
  rw [slice, Nat.add_sub_add_left]

theorem length_slice_lt {input : Text} {start stop : Nat} (h : start < input.length) :
    (slice input (start + 1) stop).length < input.length := by
  rw [slice, List.length_take, List.length_drop]
  omega

theorem branchesPass_computes {fuel : Nat} {style : Text} (hfuel : style.length ≤ fuel)
    (hparse : ∀ t, t.length < style.length → parse t = some (total t)) :
    Computes (branchesPass (fuel + 1) parse style) (branchesAt total style) := by
  intro before branching
  have hcursor : scan (separatorPass style) (fuel + 1) before () = some (behindSeparators style before ()) :=
    scan_eq (separatorPass_advances style) (separatorPass_computes style) (by omega)
  have hbehind := not_separator_behind style before
  rw [branchesPass, hcursor, branchesAt_behind]
  generalize behindSeparators style before () = cursor at hbehind
  simp only [Option.bind_eq_bind, Option.bind_some]
  split
  next hle =>
    right
    rw [branchesAt, List.drop_eq_nil_of_le hle]
    rfl
  next hlt =>
    have hlt := Nat.lt_of_not_le hlt
    obtain ⟨u, hu⟩ : ∃ u, style[cursor]? = some u := ⟨_, List.getElem?_eq_getElem hlt⟩
    have hdrop := drop_of_getElem? hu
    have hsep : ¬(isSpace u = true ∨ u = unit ',') := by
      have := hbehind u (by rw [hdrop]; rfl)
      simpa [isSeparator] using this
    have hcursor : branchesAt total style cursor branching =
        parseBranchesFrom setBranch total 0 branching (u :: style.drop (cursor + 1)) := by
      rw [branchesAt, hdrop]
    have hskip := @branchesAt_skip total style cursor
    rw [hcursor, parseBranchesFrom, if_neg hsep, ← hdrop]
    cases hoffset : offsetMatch (style.drop cursor) with
    | some match_ =>
        obtain ⟨digits, length⟩ := match_
        have hpos := (offsetMatch_bounds hoffset).1
        refine .inl ⟨_, _, rfl, ?_⟩
        simp only
        rw [hskip]
        congr 1
        omega
    | none =>
        cases hstart : (style.drop cursor).idxOf? openBrace with
        | none =>
            right
            simp only [indexOf, hstart, Option.map_none]
        | some braceStart =>
            have hindex : indexOf style openBrace cursor = some (cursor + braceStart) := by
              rw [indexOf, hstart]
              rfl
            have hbounds := (indexOf_bounds hindex).2
            have hclose := @findClosingBrace_eq fuel style (cursor + braceStart) (by omega)
            simp only [hindex, hclose, Option.bind_some, slice_add, List.drop_drop]
            cases hend : Messages.findClosingBrace (style.drop (cursor + braceStart)) with
            | none => exact .inr rfl
            | some braceEnd =>
                simp only [Option.map_some]
                split
                next =>
                  refine .inl ⟨_, _, rfl, ?_⟩
                  rw [hskip]
                  congr 1
                  omega
                next =>
                  rw [hparse _ (length_slice_lt hbounds), slice_between, Nat.add_assoc cursor braceStart 1]
                  refine .inl ⟨_, _, rfl, ?_⟩
                  rw [hskip]
                  congr 1
                  omega

theorem parseBranches_eq {fuel : Nat} {style : Text} (hfuel : style.length ≤ fuel)
    (hparse : ∀ t, t.length < style.length → parse t = some (total t)) :
    parseBranches (fuel + 1) parse style = some (Messages.parseBranches setBranch total style) := by
  have hscan := @scan_eq _ _ _ style.length _ (branchesPass_advances (fuel + 1) parse style)
    (branchesPass_computes hfuel hparse) fuel 0 ⟨.finite 0, [], []⟩ hfuel
  rw [parseBranches, hscan]
  rfl

theorem parseArgument_eq {fuel : Nat} {inner : Text} (hfuel : inner.length ≤ fuel)
    (hparse : ∀ t, t.length < inner.length → parse t = some (total t)) :
    parseArgument (fuel + 1) parse inner = some (Messages.parseArgument setBranch total inner) := by
  have hstyle := length_style_le inner
  have hbranches := @parseBranches_eq parse total fuel _ (Nat.le_trans hstyle hfuel)
    fun t ht => hparse t (Nat.lt_of_lt_of_le ht hstyle)
  simp only [parseArgument, Messages.parseArgument, splitTopLevel_eq hfuel, Option.bind_eq_bind, Option.bind_some]
  split
  next => rfl
  next =>
    split
    next => rfl
    next => rw [hbranches, Option.bind_some]

/-- A style asks for messages that are shorter than it. -/
theorem branchesPass_congr {fuel : Nat} {style : Text} (h : ∀ t, t.length < style.length → parse t = parse' t) :
    branchesPass fuel parse style = branchesPass fuel parse' style := by
  funext before branching
  rw [branchesPass, branchesPass]
  cases scan (separatorPass style) fuel before () with
  | none => simp only [Option.bind_eq_bind, Option.bind_none]
  | some cursor =>
      simp only [Option.bind_eq_bind, Option.bind_some]
      cases offsetMatch (style.drop cursor) with
      | some offset => simp only
      | none =>
          cases hstart : indexOf style openBrace cursor with
          | none => simp only
          | some braceStart =>
              simp only
              cases findClosingBrace fuel style braceStart with
              | none => simp only [Option.bind_none]
              | some braceEnd =>
                  cases braceEnd with
                  | none => simp only [Option.bind_some]
                  | some braceEnd =>
                      simp only [Option.bind_some]
                      rw [h _ (length_slice_lt (indexOf_bounds hstart).2)]

theorem parseArgument_congr {fuel : Nat} {inner : Text} (h : ∀ t, t.length < inner.length → parse t = parse' t) :
    parseArgument fuel parse inner = parseArgument fuel parse' inner := by
  rw [parseArgument, parseArgument]
  cases hparts : splitTopLevel fuel inner (unit ',') with
  | none => simp only [Option.bind_eq_bind, Option.bind_none]
  | some parts =>
      obtain rfl := splitTopLevel_value hparts
      have hstyle := length_style_le inner
      have hbranches := @branchesPass_congr parse parse' fuel _ fun t ht => h t (Nat.lt_of_lt_of_le ht hstyle)
      simp only [Option.bind_eq_bind, Option.bind_some, parseBranches, hbranches]

end Calls

theorem text_flushText (s : Reading) : s.flushText.text = [] := by
  rw [Reading.flushText]
  split
  next h => exact h
  next => rfl

section Message

variable {argument argument' : Text → Option (Option Node × List Text)} {total : Text → Option Node × List Text}

theorem messagePass_advances (fuel : Nat) (argument : Text → Option (Option Node × List Text)) (message : Text) :
    Advances (messagePass fuel argument message) message.length := by
  intro cursor s next t h
  rw [messagePass] at h
  split at h
  next => cases h
  next u hu =>
    have hone : cursor < cursor + 1 ∧ cursor + 1 ≤ message.length := ⟨Nat.lt_succ_self cursor, lt_of_getElem? hu⟩
    split at h
    next =>
      split at h
      next hpair => exact bounds_of_inl h ⟨by omega, lt_of_getElem? hpair⟩
      next =>
        split at h
        next quoteEnd hquote =>
          have := findQuotedEnd_bounds hquote
          exact bounds_of_inl h (by omega)
        next => exact bounds_of_inl h hone
    next =>
      split at h
      next =>
        obtain ⟨braceEnd, hend, h⟩ := Option.bind_eq_some_iff.mp h
        cases braceEnd with
        | none => cases h
        | some braceEnd =>
            have hend := findClosingBrace_bounds hend
            obtain ⟨node, -, h⟩ := Option.bind_eq_some_iff.mp h
            exact bounds_of_inl h (by omega)
      next => exact bounds_of_inl h hone

/-- What is gathered when the message from the cursor on is still to be parsed. -/
def messageAt (total : Text → Option Node × List Text) (message : Text) (cursor : Nat) (s : Reading) : Parsed :=
  (parseMessageFrom total 0 s.text (message.drop cursor)).after s.nodes s.errors

theorem parseMessageFrom_skip (skip : Nat) (t rest : Text) :
    parseMessageFrom total skip t rest = parseMessageFrom total 0 t (rest.drop skip) := by
  induction skip generalizing rest with
  | zero => rw [List.drop_zero]
  | succ skip ih =>
      cases rest with
      | nil => rfl
      | cons u rest => rw [parseMessageFrom, ih, List.drop_succ_cons]

theorem messageAt_skip (message : Text) (cursor skip : Nat) (s : Reading) :
    (parseMessageFrom total skip s.text (message.drop (cursor + 1))).after s.nodes s.errors =
      messageAt total message (cursor + 1 + skip) s := by
  rw [parseMessageFrom_skip, List.drop_drop, messageAt]

theorem Parsed.after_after (parsed : Parsed) (nodes nodes' : List Node) (errors errors' : List Text) :
    (parsed.after nodes' errors').after nodes errors = parsed.after (nodes ++ nodes') (errors ++ errors') := by
  rw [Parsed.after, Parsed.after, Parsed.after, List.append_assoc, List.append_assoc]

theorem flushText_after (s : Reading) (parsed : Parsed) :
    (flushText s.text parsed).after s.nodes s.errors = parsed.after s.flushText.nodes s.flushText.errors := by
  rw [Reading.flushText, flushText]
  split
  next => rfl
  next => rw [Parsed.after, Parsed.after, List.append_assoc, List.singleton_append]

theorem messagePass_computes {fuel : Nat} {message : Text} (hfuel : message.length ≤ fuel)
    (hargument : ∀ inner, inner.length < message.length → argument inner = some (total inner)) :
    Computes (messagePass (fuel + 1) argument message) (messageAt total message) := by
  intro cursor s
  rw [messagePass]
  cases hu : message[cursor]? with
  | none =>
      have hat : messageAt total message cursor s = (flushText s.text ⟨[], []⟩).after s.nodes s.errors := by
        rw [messageAt, drop_of_getElem?_none hu]
        rfl
      right
      rw [hat, flushText_after, Parsed.after, List.append_nil, List.append_nil]
      rfl
  | some u =>
      have hat : messageAt total message cursor s =
          (parseMessageFrom total 0 s.text (u :: message.drop (cursor + 1))).after s.nodes s.errors := by
        rw [messageAt, drop_of_getElem? hu]
      have hskip := @messageAt_skip total message cursor
      rw [hat, parseMessageFrom, List.head?_drop]
      simp only
      split
      next hquote =>
        split
        next => exact .inl ⟨_, _, rfl, (hskip 1 { s with text := s.text ++ [apostrophe] }).symm⟩
        next =>
          rw [findQuotedEnd_eq]
          cases Messages.findQuotedEnd (message.drop (cursor + 1)) with
          | none => exact .inl ⟨_, _, rfl, (hskip 0 { s with text := s.text ++ [u] }).symm⟩
          | some quoteEnd =>
              refine .inl ⟨_, _, rfl, ?_⟩
              rw [slice_add]
              exact (hskip (quoteEnd + 1) { s with text := s.text ++ (message.drop (cursor + 1)).take quoteEnd }).symm
      next =>
        split
        next =>
          have hlt := lt_of_getElem? hu
          have hclose := @findClosingBrace_eq fuel message cursor (by omega)
          rw [← drop_of_getElem? hu]
          simp only [hclose, Option.bind_eq_bind, Option.bind_some]
          cases hend : Messages.findClosingBrace (message.drop cursor) with
          | none =>
              right
              simp only [Option.map_none]
              rw [flushText_after]
              simp only [Parsed.after, List.append_nil]
          | some braceEnd =>
              simp only [Option.map_some]
              rw [hargument _ (length_slice_lt hlt), slice_between]
              refine .inl ⟨_, _, rfl, ?_⟩
              have hnext := hskip braceEnd
                ⟨s.flushText.nodes ++ (total ((message.drop (cursor + 1)).take (braceEnd - 1))).1.toList,
                  s.flushText.errors ++ (total ((message.drop (cursor + 1)).take (braceEnd - 1))).2, []⟩
              rw [flushText_after, Parsed.after_after, text_flushText, Nat.add_right_comm, ← hnext]
        next =>
          refine .inl ⟨_, _, rfl, ?_⟩
          rw [Parsed.after_after, List.append_nil]
          exact (hskip 0 ⟨s.nodes, s.errors ++ _, s.text ++ [u]⟩).symm

theorem messagePass_congr {fuel : Nat} {message : Text}
    (h : ∀ inner, inner.length < message.length → argument inner = argument' inner) :
    messagePass fuel argument message = messagePass fuel argument' message := by
  funext cursor s
  rw [messagePass, messagePass]
  cases hu : message[cursor]? with
  | none => rfl
  | some u =>
      cases findClosingBrace fuel message cursor with
      | none => simp only [Option.bind_eq_bind, Option.bind_none]
      | some braceEnd =>
          cases braceEnd with
          | none => simp only [Option.bind_eq_bind, Option.bind_some]
          | some braceEnd =>
              simp only [Option.bind_eq_bind, Option.bind_some]
              rw [h _ (length_slice_lt (lt_of_getElem? hu))]

end Message

/-- As many passes and calls as the message is long, and one more, are enough. -/
theorem parseMessage_eq {fuel : Nat} : ∀ {message : Text}, message.length < fuel →
    parseMessage fuel message = some (Messages.parseMessage message) := by
  induction fuel with
  | zero => exact fun h => absurd h (Nat.not_lt_zero _)
  | succ fuel ih =>
      intro message hlt
      have hle := Nat.le_of_lt_succ hlt
      have hargument (inner : Text) (hinner : inner.length < message.length) :
          parseArgument (fuel + 1) (parseMessage fuel) inner =
            some (Messages.parseArgument setBranch Messages.parseMessage inner) :=
        parseArgument_eq (Nat.le_trans (Nat.le_of_lt hinner) hle) fun t ht => ih (by omega)
      have hscan := @scan_eq _ _ _ message.length _ (messagePass_advances (fuel + 1) _ message)
        (messagePass_computes hle hargument) fuel 0 ⟨[], [], []⟩ hle
      rw [parseMessage, hscan]
      exact congrArg some (parseMessageWith_eq message).symm

/-- The three parsers return on the input, their loops only go forward in it, and what they ask of each other is
asked for less of it. -/
structure Terminates (input : Text) : Prop where
  message : ∀ fuel, input.length < fuel → parseMessage fuel input = some (Messages.parseMessage input)
  argument : ∀ fuel, input.length ≤ fuel → parseArgument (fuel + 1) (parseMessage fuel) input =
    some (Messages.parseArgument setBranch Messages.parseMessage input)
  branches : ∀ fuel, input.length ≤ fuel → parseBranches (fuel + 1) (parseMessage fuel) input =
    some (Messages.parseBranches setBranch Messages.parseMessage input)
  messageLoop : ∀ fuel parseArgument, Forward (messagePass fuel parseArgument input) input.length
  branchesLoop : ∀ fuel parse, Forward (branchesPass fuel parse input) input.length
  separatorsLoop : Forward (separatorPass input) input.length
  partsLoop : ∀ delimiter, Forward (splitPass input delimiter) input.length
  closingBraceLoop : Forward (closingBracePass input) input.length
  argumentCalls : ∀ fuel parseArgument parseArgument',
    (∀ inner, inner.length < input.length → parseArgument inner = parseArgument' inner) →
      messagePass fuel parseArgument input = messagePass fuel parseArgument' input
  messageCalls : ∀ fuel parse parse', (∀ t, t.length < input.length → parse t = parse' t) →
    parseArgument fuel parse input = parseArgument fuel parse' input ∧
      branchesPass fuel parse input = branchesPass fuel parse' input

theorem parser_terminates (input : Text) : Terminates input where
  message _ h := parseMessage_eq h
  argument _ h := parseArgument_eq h fun _ ht => parseMessage_eq (Nat.lt_of_lt_of_le ht h)
  branches _ h := parseBranches_eq h fun _ ht => parseMessage_eq (Nat.lt_of_lt_of_le ht h)
  messageLoop fuel parseArgument := (messagePass_advances fuel parseArgument input).forward
  branchesLoop fuel parse := (branchesPass_advances fuel parse input).forward
  separatorsLoop := (separatorPass_advances input).forward
  partsLoop delimiter := (splitPass_advances input delimiter).forward
  closingBraceLoop := (closingBracePass_advances input).forward
  argumentCalls _ _ _ h := messagePass_congr h
  messageCalls _ _ _ h := ⟨parseArgument_congr h, branchesPass_congr h⟩

end Savitools.Translations.MessageCursors
