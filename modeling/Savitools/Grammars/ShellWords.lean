import Mathlib.Data.List.Count
import Savitools.Strings.CodeUnits

namespace Grammars.ShellWords

open Strings.CodeUnits

/-- What a word consists of before it is expanded. -/
inductive Part
  | unit (u : UInt16)
  | parameter (name : Text)
  | wildcard (u : UInt16)
deriving DecidableEq

abbrev Word := List Part

/-- The word that is passed as this text, whatever parameters and files there are. -/
def literal (t : Text) : Word := t.map .unit

/-- Outside of quotes there may be no word yet. -/
inductive Mode
  | outside (word : Option Word)
  | escaped (word : Option Word)
  | single (word : Word)
  | double (word : Word)
  | doubleEscaped (word : Word)
  | name (word : Word) (name : Text)

structure State where
  done : List Word
  mode : Mode

def isBlank (u : UInt16) : Bool := u == unit ' ' || u == unit '\t'

def isWildcard (u : UInt16) : Bool := (text "*?[").contains u

/-- Operators and the ends of commands, and the expansions that are split into several words. -/
def isOperator (u : UInt16) : Bool := (text "\n|&;<>()$`").contains u

/-- At the front of a word: comments and the homes of users. -/
def isMark (u : UInt16) : Bool := (text "#~").contains u

def isQuoting (u : UInt16) : Bool := (text "\\'\"").contains u

def isNameUnit (first : Bool) (u : UInt16) : Bool :=
  between 'a' 'z' u || between 'A' 'Z' u || u == unit '_' || (!first && isDigit u)

/-- The words that are done when a word ends, if there is one. -/
def closed (done : List Word) : Option Word → List Word
  | none => done
  | some word => done ++ [word]

def outsideStep (done : List Word) (word : Option Word) (u : UInt16) : Option State :=
  if isBlank u then some ⟨closed done word, .outside none⟩
  else if u = unit '\\' then some ⟨done, .escaped word⟩
  else if u = unit '\'' then some ⟨done, .single (word.getD [])⟩
  else if u = unit '"' then some ⟨done, .double (word.getD [])⟩
  else if isOperator u || (word.isNone && isMark u) then none
  else some ⟨done, .outside (some (word.getD [] ++ [if isWildcard u then .wildcard u else .unit u]))⟩

def doubleStep (done : List Word) (word : Word) (u : UInt16) : Option State :=
  if u = unit '"' then some ⟨done, .outside (some word)⟩
  else if u = unit '\\' then some ⟨done, .doubleEscaped word⟩
  else if u = unit '$' then some ⟨done, .name word []⟩
  else if u = 0x60 then none
  else some ⟨done, .double (word ++ [.unit u])⟩

/-- A backslash before the end of a line joins the lines. Between double quotes it stays before most units. -/
def step (s : State) (u : UInt16) : Option State :=
  if u = 0 then none
  else
    match s.mode with
    | .outside word => outsideStep s.done word u
    | .escaped word =>
        if u = unit '\n' then some ⟨s.done, .outside word⟩
        else some ⟨s.done, .outside (some (word.getD [] ++ [.unit u]))⟩
    | .single word =>
        if u = unit '\'' then some ⟨s.done, .outside (some word)⟩ else some ⟨s.done, .single (word ++ [.unit u])⟩
    | .double word => doubleStep s.done word u
    | .doubleEscaped word =>
        if u = unit '\n' then some ⟨s.done, .double word⟩
        else if (text "$`\"\\").contains u then some ⟨s.done, .double (word ++ [.unit u])⟩
        else some ⟨s.done, .double (word ++ [.unit (unit '\\'), .unit u])⟩
    | .name word name =>
        if isNameUnit (name == []) u then some ⟨s.done, .name word (name ++ [u])⟩
        else if name = [] then none
        else doubleStep s.done (word ++ [.parameter name]) u

def run (s : State) (t : Text) : Option State := t.foldlM step s

def finish (s : State) : Option (List Word) :=
  match s.mode with
  | .outside word => some (closed s.done word)
  | _ => none

/-- The words of a simple command; of any other text none. -/
def words (t : Text) : Option (List Word) := (run ⟨[], .outside none⟩ t).bind finish

theorem run_append (s : State) (t rest : Text) : run s (t ++ rest) = (run s t).bind fun s => run s rest :=
  List.foldlM_append ..

theorem run_cons (s : State) (u : UInt16) (t : Text) : run s (u :: t) = (step s u).bind fun s => run s t :=
  List.foldlM_cons

/-- The units that stand for themselves outside of quotes, or for the names of files. -/
def isOrdinary (u : UInt16) : Bool := u != 0 && !isBlank u && !isQuoting u && !isOperator u

/-- Texts that are a word by themselves. -/
structure Bare (t : Text) : Prop where
  nonempty : t ≠ []
  ordinary : ∀ u ∈ t, isOrdinary u = true ∧ isWildcard u = false
  unmarked : ∀ u ∈ t.head?, isMark u = false

def isBare (t : Text) : Bool :=
  t != [] && t.all (fun u => isOrdinary u && !isWildcard u) && t.head?.all (fun u => !isMark u)

def partOf (u : UInt16) : Part := if isWildcard u then .wildcard u else .unit u

/-- The mode after ordinary units. -/
def begun (t : Text) : Mode := .outside (if t = [] then none else some (t.map partOf))

def Mode.word : Mode → Word
  | .outside word | .escaped word => word.getD []
  | .single word | .double word | .doubleEscaped word | .name word _ => word

/-- A weight of words, with what is owed for units that have been read and are in no word yet. -/
structure Measure where
  part : Part → Nat
  gain : UInt16 → Nat
  escaped : Nat
  single : Nat
  double : Nat
  doubleEscaped : Nat
  name : Nat
  part_unit : ∀ u, part (.unit u) = gain u
  wildcard_le : ∀ u, part (.wildcard u) ≤ gain u
  escaped_le : escaped ≤ gain (unit '\\')
  single_le : single ≤ gain (unit '\'')
  double_le : double ≤ gain (unit '"')
  doubleEscaped_le : doubleEscaped ≤ double + gain (unit '\\')
  kept_le : gain (unit '\\') + double ≤ doubleEscaped
  name_le : name ≤ double + gain (unit '$')
  parameter_le : ∀ n, part (.parameter n) + double ≤ name

namespace Measure

def weigh (m : Measure) (word : Word) : Nat := word.foldr (fun p n => m.part p + n) 0

def spent (m : Measure) (t : Text) : Nat := t.foldr (fun u n => m.gain u + n) 0

def owed (m : Measure) : Mode → Nat
  | .outside _ => 0
  | .escaped _ => m.escaped
  | .single _ => m.single
  | .double _ => m.double
  | .doubleEscaped _ => m.doubleEscaped
  | .name _ _ => m.name

def total (m : Measure) (s : State) : Nat := m.weigh s.done.flatten + m.weigh s.mode.word + m.owed s.mode

end Measure

/-- What a unit does in each mode. -/
inductive Effect (done : List Word) : Mode → UInt16 → State → Prop
  | blank (word u) (hu : isBlank u = true) : Effect done (.outside word) u ⟨closed done word, .outside none⟩
  | slash (word) : Effect done (.outside word) (unit '\\') ⟨done, .escaped word⟩
  | openSingle (word) : Effect done (.outside word) (unit '\'') ⟨done, .single (word.getD [])⟩
  | openDouble (word) : Effect done (.outside word) (unit '"') ⟨done, .double (word.getD [])⟩
  | ordinary (word u) (hu : isOrdinary u = true) (hmark : word = none → isMark u = false) :
      Effect done (.outside word) u ⟨done, .outside (some (word.getD [] ++ [partOf u]))⟩
  | joined (word) : Effect done (.escaped word) (unit '\n') ⟨done, .outside word⟩
  | escaped (word u) : Effect done (.escaped word) u ⟨done, .outside (some (word.getD [] ++ [.unit u]))⟩
  | closeSingle (word) : Effect done (.single word) (unit '\'') ⟨done, .outside (some word)⟩
  | single (word u) : Effect done (.single word) u ⟨done, .single (word ++ [.unit u])⟩
  | closeDouble (word) : Effect done (.double word) (unit '"') ⟨done, .outside (some word)⟩
  | doubleSlash (word) : Effect done (.double word) (unit '\\') ⟨done, .doubleEscaped word⟩
  | dollar (word) : Effect done (.double word) (unit '$') ⟨done, .name word []⟩
  | double (word u) : Effect done (.double word) u ⟨done, .double (word ++ [.unit u])⟩
  | doubleJoined (word) : Effect done (.doubleEscaped word) (unit '\n') ⟨done, .double word⟩
  | doubleEscaped (word u) : Effect done (.doubleEscaped word) u ⟨done, .double (word ++ [.unit u])⟩
  | kept (word u) : Effect done (.doubleEscaped word) u ⟨done, .double (word ++ [.unit (unit '\\'), .unit u])⟩
  | name (word name u) : Effect done (.name word name) u ⟨done, .name word (name ++ [u])⟩
  | named (word name u s) (h : Effect done (.double (word ++ [.parameter name])) u s) : Effect done (.name word name) u s

variable {done : List Word} {word : Word} {t : Text} {s s' : State} {u : UInt16}

theorem isQuoting_eq (u : UInt16) : isQuoting u = (u == unit '\\' || (u == unit '\'' || (u == unit '"' || false))) := rfl

theorem effect_outsideStep {word : Option Word} (hzero : u ≠ 0) (h : outsideStep done word u = some s) :
    Effect done (.outside word) u s := by
  rw [outsideStep] at h
  split at h
  next hblank =>
    cases h
    exact .blank word u hblank
  next hblank =>
    split at h
    next hslash =>
      cases h
      exact hslash ▸ .slash word
    next hslash =>
      split at h
      next hsingle =>
        cases h
        exact hsingle ▸ .openSingle word
      next hsingle =>
        split at h
        next hdouble =>
          cases h
          exact hdouble ▸ .openDouble word
        next hdouble =>
          split at h
          next => cases h
          next hrefused =>
            simp only [Bool.or_eq_true, Bool.and_eq_true, not_or, not_and, Bool.not_eq_true] at hrefused
            cases h
            refine .ordinary word u ?_ ?_
            · simp [isOrdinary, isQuoting_eq, hzero, hblank, hslash, hsingle, hdouble, hrefused.1]
            · rintro rfl
              exact hrefused.2 rfl

theorem effect_doubleStep (h : doubleStep done word u = some s) : Effect done (.double word) u s := by
  rw [doubleStep] at h
  split at h
  next hquote =>
    cases h
    exact hquote ▸ .closeDouble word
  next =>
    split at h
    next hslash =>
      cases h
      exact hslash ▸ .doubleSlash word
    next =>
      split at h
      next hdollar =>
        cases h
        exact hdollar ▸ .dollar word
      next =>
        split at h
        next => cases h
        next =>
          cases h
          exact .double word u

theorem effect_step (h : step s u = some s') : u ≠ 0 ∧ Effect s.done s.mode u s' := by
  obtain ⟨done, mode⟩ := s
  rw [step] at h
  split at h
  next => cases h
  next hzero =>
    refine ⟨hzero, ?_⟩
    cases mode with
    | outside word => exact effect_outsideStep hzero h
    | escaped word =>
        dsimp only at h
        split at h
        next hline =>
          cases h
          exact hline ▸ .joined word
        next =>
          cases h
          exact .escaped word u
    | single word =>
        dsimp only at h
        split at h
        next hquote =>
          cases h
          exact hquote ▸ .closeSingle word
        next =>
          cases h
          exact .single word u
    | double word => exact effect_doubleStep h
    | doubleEscaped word =>
        dsimp only at h
        split at h
        next hline =>
          cases h
          exact hline ▸ .doubleJoined word
        next =>
          split at h
          next =>
            cases h
            exact .doubleEscaped word u
          next =>
            cases h
            exact .kept word u
    | name word name =>
        dsimp only at h
        split at h
        next =>
          cases h
          exact .name word name u
        next =>
          split at h
          next => cases h
          next => exact .named word name u s' (effect_doubleStep h)

@[simp] theorem flatten_closed (done : List Word) (word : Option Word) :
    (closed done word).flatten = done.flatten ++ word.getD [] := by
  cases word with
  | none => exact (List.append_nil _).symm
  | some word => rw [closed, List.flatten_append, List.flatten_singleton, Option.getD_some]

namespace Measure

variable (m : Measure)

@[simp] theorem weigh_nil : m.weigh [] = 0 := rfl

theorem weigh_cons (p : Part) (w : Word) : m.weigh (p :: w) = m.part p + m.weigh w := rfl

@[simp] theorem weigh_append (w other : Word) : m.weigh (w ++ other) = m.weigh w + m.weigh other := by
  induction w with
  | nil => exact (Nat.zero_add _).symm
  | cons p w ih => rw [List.cons_append, weigh_cons, ih, weigh_cons, Nat.add_assoc]

@[simp] theorem weigh_unit (u : UInt16) : m.weigh [.unit u] = m.gain u := m.part_unit u

theorem weigh_partOf (u : UInt16) : m.weigh [partOf u] ≤ m.gain u := by
  rw [partOf]
  split
  next => exact m.wildcard_le u
  next => exact (m.weigh_unit u).le

theorem spent_cons (u : UInt16) (t : Text) : m.spent (u :: t) = m.gain u + m.spent t := rfl

/-- A literal weighs what has been read for it. -/
theorem weigh_literal (t : Text) : m.weigh (literal t) = m.spent t := by
  induction t with
  | nil => rfl
  | cons u t ih => rw [literal, List.map_cons, weigh_cons, ← literal, ih, m.part_unit, spent_cons]

theorem spent_append (t rest : Text) : m.spent (t ++ rest) = m.spent t + m.spent rest := by
  rw [← weigh_literal, literal, List.map_append, weigh_append, ← literal, ← literal, weigh_literal, weigh_literal]

theorem total_mk (done : List Word) (mode : Mode) :
    m.total ⟨done, mode⟩ = m.weigh done.flatten + m.weigh mode.word + m.owed mode := rfl

theorem total_effect {mode : Mode} (h : Effect done mode u s) : m.total s ≤ m.total ⟨done, mode⟩ + m.gain u := by
  have hescaped := m.escaped_le
  have hsingle := m.single_le
  have hdouble := m.double_le
  have hdoubleEscaped := m.doubleEscaped_le
  have hkept := m.kept_le
  have hname := m.name_le
  induction h with
  | blank word u =>
      simp only [total_mk, flatten_closed, Mode.word, Option.getD_none, owed, weigh_append, weigh_nil]
      omega
  | ordinary word u =>
      have hpart := m.weigh_partOf u
      simp only [total_mk, Mode.word, owed, Option.getD_some, weigh_append]
      omega
  | kept word u =>
      have hboth : m.weigh [.unit (unit '\\'), .unit u] = m.gain (unit '\\') + m.gain u := by
        rw [← weigh_unit, ← weigh_unit, ← weigh_append]
        rfl
      simp only [total_mk, Mode.word, owed, weigh_append, hboth]
      omega
  | named word name u s h ih =>
      have hparameter : m.weigh [.parameter name] + m.double ≤ m.name := m.parameter_le name
      simp only [total_mk, Mode.word, owed, weigh_append] at ih ⊢
      omega
  | _ =>
      simp only [total_mk, Mode.word, owed, Option.getD_some, weigh_append, weigh_unit]
      omega

/-- The words never weigh more than what has been read. -/
theorem total_step (h : step s u = some s') : m.total s' ≤ m.total s + m.gain u := m.total_effect (effect_step h).2

theorem total_run {t : Text} (h : run s t = some s') : m.total s' ≤ m.total s + m.spent t := by
  induction t generalizing s with
  | nil =>
      cases h
      exact Nat.le_add_right _ _
  | cons u t ih =>
      rw [run_cons, Option.bind_eq_some_iff] at h
      obtain ⟨next, hnext, hrest⟩ := h
      have hstep := m.total_step hnext
      have hlater := ih hrest
      rw [spent_cons]
      omega

end Measure

/-- How often a unit is among the words. -/
def tally (c : UInt16) : Measure where
  part p := if p = .unit c then 1 else 0
  gain u := if u = c then 1 else 0
  escaped := if unit '\\' = c then 1 else 0
  single := if unit '\'' = c then 1 else 0
  double := if unit '"' = c then 1 else 0
  doubleEscaped := (if unit '"' = c then 1 else 0) + if unit '\\' = c then 1 else 0
  name := if unit '"' = c then 1 else 0
  part_unit _ := by simp
  wildcard_le _ := Nat.zero_le _
  escaped_le := le_rfl
  single_le := le_rfl
  double_le := le_rfl
  doubleEscaped_le := le_rfl
  kept_le := (Nat.add_comm _ _).le
  name_le := Nat.le_add_right _ _
  parameter_le _ := (Nat.zero_add _).le

theorem spent_of_not_mem {c : UInt16} {t : Text} (h : c ∉ t) : (tally c).spent t = 0 := by
  induction t with
  | nil => rfl
  | cons u t ih =>
      have hgain : (tally c).gain u = 0 := if_neg fun heq => h (List.mem_cons.mpr (.inl heq.symm))
      rw [Measure.spent_cons, hgain, ih fun hmem => h (List.mem_cons_of_mem _ hmem)]

/-- How many parts the words have. -/
def extent : Measure where
  part _ := 1
  gain _ := 1
  escaped := 0
  single := 0
  double := 0
  doubleEscaped := 1
  name := 1
  part_unit _ := rfl
  wildcard_le _ := le_rfl
  escaped_le := Nat.zero_le _
  single_le := Nat.zero_le _
  double_le := Nat.zero_le _
  doubleEscaped_le := le_rfl
  kept_le := le_rfl
  name_le := le_rfl
  parameter_le _ := le_rfl

section Runs

theorem prefix_closed (done : List Word) (word : Option Word) : done <+: closed done word := by
  cases word with
  | none => exact List.prefix_refl _
  | some word => exact List.prefix_append _ _

theorem done_effect {mode : Mode} (h : Effect done mode u s) : done <+: s.done := by
  induction h with
  | blank word u => exact prefix_closed _ _
  | named word name u s h ih => exact ih
  | _ => exact List.prefix_refl _

/-- A word that is done stays. -/
theorem done_run {t : Text} (h : run s t = some s') : s.done <+: s'.done := by
  induction t generalizing s with
  | nil =>
      cases h
      exact List.prefix_refl _
  | cons u t ih =>
      rw [run_cons, Option.bind_eq_some_iff] at h
      obtain ⟨next, hnext, hrest⟩ := h
      exact (done_effect (effect_step hnext).2).trans (ih hrest)

/-- What comes out at the end starts with what was done before. -/
theorem done_finish {t : Text} {ws : List Word} (h : (run s t).bind finish = some ws) : s.done <+: ws := by
  obtain ⟨last, hlast, hfinish⟩ := Option.bind_eq_some_iff.mp h
  refine (done_run hlast).trans ?_
  rw [finish] at hfinish
  split at hfinish
  next =>
    cases hfinish
    exact prefix_closed _ _
  next => cases hfinish

/-- Every part of ordinary units counts. -/
theorem weigh_begun (t : Text) : extent.weigh (begun t).word = extent.spent t := by
  have hparts : extent.weigh (t.map partOf) = extent.spent t := by
    induction t with
    | nil => rfl
    | cons u t ih => rw [List.map_cons, Measure.weigh_cons, ih, Measure.spent_cons]; rfl
  cases t with
  | nil => rfl
  | cons u t => exact hparts

theorem begun_concat (t : Text) (u : UInt16) :
    begun (t ++ [u]) = .outside (some ((begun t).word ++ [partOf u])) := by
  cases t with
  | nil => rfl
  | cons v t => simp [begun, Mode.word]

/-- Between two words, a text either has ordinary units only, or some of its units are lost. -/
theorem run_fresh {t : Text} (h : run ⟨done, .outside none⟩ t = some s) :
    ((∀ u ∈ t, isOrdinary u = true) ∧ (∀ u ∈ t.head?, isMark u = false) ∧ s = ⟨done, begun t⟩) ∨
      extent.total s < extent.weigh done.flatten + extent.spent t := by
  induction t using List.reverseRecOn generalizing s with
  | nil =>
      cases h
      exact .inl ⟨List.forall_mem_nil _, fun _ hu => (Option.not_mem_none _ hu).elim, rfl⟩
  | append_singleton t u ih =>
      rw [run_append, Option.bind_eq_some_iff] at h
      obtain ⟨next, hnext, hlast⟩ := h
      rw [run_cons, Option.bind_eq_some_iff] at hlast
      obtain ⟨last, hstep, hlast⟩ := hlast
      cases hlast
      have hone : extent.gain u = 1 := rfl
      have hspent : extent.spent (t ++ [u]) = extent.spent t + 1 := by
        rw [Measure.spent_append]
        rfl
      obtain ⟨hordinary, hmark, rfl⟩ | hless := ih hnext
      · have hbegun : extent.weigh ((if t = [] then none else some (t.map partOf)).getD []) = extent.spent t :=
          weigh_begun t
        have hlost {mode : Mode} (howed : extent.owed mode = 0)
            (hword : mode.word = (if t = [] then none else some (t.map partOf)).getD []) :
            extent.total ⟨done, mode⟩ < extent.weigh done.flatten + extent.spent (t ++ [u]) := by
          rw [Measure.total_mk, howed, hword]
          omega
        cases (effect_step hstep).2 with
        | blank word u =>
            right
            simp only [Measure.total_mk, flatten_closed, Measure.weigh_append, Mode.word,
              Option.getD_none, Measure.weigh_nil, Measure.owed]
            omega
        | slash => exact .inr (hlost rfl rfl)
        | openSingle => exact .inr (hlost rfl rfl)
        | openDouble => exact .inr (hlost rfl rfl)
        | ordinary word u hu hfirst =>
            refine .inl ⟨List.forall_mem_append.mpr ⟨hordinary, List.forall_mem_singleton.mpr hu⟩, ?_, ?_⟩
            · cases t with
              | nil => simpa using hfirst rfl
              | cons v t => exact hmark
            · rw [begun_concat]
              rfl
      · have hmore := extent.total_step hstep
        right
        omega

/-- The units that stand for themselves between double quotes. -/
def isInside (u : UInt16) : Bool := u != 0 && !(text "\"\\$`").contains u

theorem run_single {t : Text} (ht : ∀ u ∈ t, u ≠ 0 ∧ u ≠ unit '\'') (done : List Word) (word : Word)
    (rest : Text) :
    run ⟨done, .single word⟩ (t ++ rest) = run ⟨done, .single (word ++ literal t)⟩ rest := by
  induction t generalizing word with
  | nil => rw [literal, List.map_nil, List.append_nil, List.nil_append]
  | cons u t ih =>
      obtain ⟨⟨hzero, hquote⟩, ht⟩ := List.forall_mem_cons.mp ht
      have hstep : step ⟨done, .single word⟩ u = some ⟨done, .single (word ++ [.unit u])⟩ := by
        simp only [step, if_neg hzero, if_neg hquote]
      rw [List.cons_append, run_cons, hstep, Option.bind_some, ih ht, List.append_assoc]
      rfl

theorem run_double {t : Text} (ht : ∀ u ∈ t, isInside u = true) (done : List Word) (word : Word) (rest : Text) :
    run ⟨done, .double word⟩ (t ++ rest) = run ⟨done, .double (word ++ literal t)⟩ rest := by
  induction t generalizing word with
  | nil => rw [literal, List.map_nil, List.append_nil, List.nil_append]
  | cons u t ih =>
      obtain ⟨hu, ht⟩ := List.forall_mem_cons.mp ht
      have hstep : step ⟨done, .double word⟩ u = some ⟨done, .double (word ++ [.unit u])⟩ := by
        have hunits : (text "\"\\$`").contains u =
            (u == unit '"' || (u == unit '\\' || (u == unit '$' || (u == 0x60 || false)))) := rfl
        simp only [isInside, hunits, Bool.and_eq_true, bne_iff_ne, Bool.not_eq_true', Bool.or_eq_false_iff,
          beq_eq_false_iff_ne] at hu
        obtain ⟨hzero, hquote, hslash, hdollar, hback, -⟩ := hu
        simp only [step, if_neg hzero, doubleStep, if_neg hquote, if_neg hslash, if_neg hdollar, if_neg hback]
      rw [List.cons_append, run_cons, hstep, Option.bind_some, ih ht, List.append_assoc]
      rfl

theorem step_ordinary {word : Option Word} (hu : isOrdinary u = true) (hmark : word = none → isMark u = false)
    (done : List Word) :
    step ⟨done, .outside word⟩ u = some ⟨done, .outside (some (word.getD [] ++ [partOf u]))⟩ := by
  simp only [isOrdinary, isQuoting_eq, Bool.and_eq_true, bne_iff_ne, Bool.not_eq_true', Bool.or_eq_false_iff,
    beq_eq_false_iff_ne] at hu
  obtain ⟨⟨⟨hzero, hblank⟩, hslash, hsingle, hdouble, -⟩, hoperator⟩ := hu
  have hrefused : (isOperator u || (word.isNone && isMark u)) = false := by
    cases word with
    | none => rw [hoperator, hmark rfl]; rfl
    | some word => rw [hoperator]; rfl
  simp only [step, if_neg hzero, outsideStep, hblank, Bool.false_eq_true, if_false, if_neg hslash, if_neg hsingle,
    if_neg hdouble, hrefused, partOf]

theorem run_ordinary {t : Text} (ht : ∀ u ∈ t, isOrdinary u = true) (done : List Word) (word : Word) (rest : Text) :
    run ⟨done, .outside (some word)⟩ (t ++ rest) = run ⟨done, .outside (some (word ++ t.map partOf))⟩ rest := by
  induction t generalizing word with
  | nil => rw [List.map_nil, List.append_nil, List.nil_append]
  | cons u t ih =>
      obtain ⟨hu, ht⟩ := List.forall_mem_cons.mp ht
      rw [List.cons_append, run_cons, step_ordinary hu (fun h => absurd h (Option.some_ne_none word)), Option.bind_some,
        ih ht, Option.getD_some, List.append_assoc]
      rfl

theorem bare_of_isBare {t : Text} (h : isBare t = true) : Bare t := by
  simp only [isBare, Bool.and_eq_true, bne_iff_ne] at h
  obtain ⟨⟨hne, hall⟩, hmark⟩ := h
  refine ⟨hne, fun u hu => ?_, fun u hu => ?_⟩
  · have hunit := List.all_eq_true.mp hall u hu
    rwa [Bool.and_eq_true, Bool.not_eq_true'] at hunit
  · rw [hu, Option.all_some, Bool.not_eq_true'] at hmark
    exact hmark

theorem map_partOf {t : Text} (ht : ∀ u ∈ t, isWildcard u = false) : t.map partOf = literal t :=
  List.map_congr_left fun u hu => by rw [partOf, ht u hu, if_neg Bool.false_ne_true]

theorem run_bare {t : Text} (ht : Bare t) (done : List Word) (rest : Text) :
    run ⟨done, .outside none⟩ (t ++ rest) = run ⟨done, .outside (some (literal t))⟩ rest := by
  obtain ⟨hne, hunits, hmark⟩ := ht
  cases t with
  | nil => exact absurd rfl hne
  | cons u t =>
      obtain ⟨hu, ht⟩ := List.forall_mem_cons.mp hunits
      rw [← map_partOf fun v hv => (hunits v hv).2, List.cons_append, run_cons,
        step_ordinary hu.1 fun _ => hmark u rfl, Option.bind_some, run_ordinary fun v hv => (ht v hv).1]
      rfl

end Runs

section Literals

theorem literal_inj {t other : Text} (h : literal t = literal other) : t = other :=
  List.map_injective_iff.mpr (fun _ _ => Part.unit.inj) h

/-- Ordinary units are a literal only if none of them is a wildcard. -/
theorem no_wildcard {t : Text} (h : t.map partOf = literal t) : ∀ u ∈ t, isWildcard u = false := by
  intro u hu
  have hpart := List.map_inj_left.mp h u hu
  rw [partOf] at hpart
  split at hpart
  next => cases hpart
  next hwild => exact Bool.eq_false_iff.mpr hwild

theorem appended_unique {ws more : List Word} {w other : Word} (h : done ++ [w] <+: ws) (heq : ws = done ++ other :: more) :
    w = other := by
  rw [heq, List.prefix_append_right_inj] at h
  obtain ⟨rest, hrest⟩ := h
  exact (List.cons.inj hrest).1

theorem step_blank {word : Option Word} (hu : isBlank u = true) :
    step ⟨done, .outside word⟩ u = some ⟨closed done word, .outside none⟩ := by
  have hzero : u ≠ 0 := by
    rintro rfl
    exact absurd hu (by decide)
  simp only [step, if_neg hzero, outsideStep, if_pos hu]

/-- The sign that a quotation has begun with. -/
def sign : Mode → Option UInt16
  | .outside _ => none
  | .escaped _ => some (unit '\\')
  | .single _ => some (unit '\'')
  | .double _ | .doubleEscaped _ | .name _ _ => some (unit '"')

theorem owed_sign {mode : Mode} {c : UInt16} (h : sign mode = some c) : 0 < (tally c).owed mode := by
  cases mode with
  | outside word => cases h
  | escaped word =>
      cases h
      exact (by decide : 0 < (tally (unit '\\')).escaped)
  | single word =>
      cases h
      exact (by decide : 0 < (tally (unit '\'')).single)
  | double word | name word name =>
      cases h
      exact (by decide : 0 < (tally (unit '"')).double)
  | doubleEscaped word =>
      cases h
      exact (by decide : 0 < (tally (unit '"')).doubleEscaped)

/-- After a quotation that is still open, the word that it is in ends without another of its signs. -/
def Recovers (rest : Text) : Prop :=
  ∀ mode c, sign mode = some c → ∀ done ws, (run ⟨done, mode⟩ rest).bind finish = some ws →
    ∃ word, done ++ [word] <+: ws ∧ (tally c).weigh word ≤ (tally c).weigh mode.word

/-- Where a word may end, a bare word follows. -/
def Continues (rest : Text) : Prop :=
  (∃ u tail, rest = u :: tail ∧ isBlank u = true) ∧
    ∀ done ws, (run ⟨done, .outside none⟩ rest).bind finish = some ws →
      ∃ next, Bare next ∧ done ++ [literal next] <+: ws

/-- Only a bare text is passed as it is where it is written without quotes. -/
theorem bare_of_words {t rest : Text} {more : List Word} (hcontinues : Continues rest) (hrecovers : Recovers rest)
    (h : (run ⟨done, .outside none⟩ (t ++ rest)).bind finish = some (done ++ literal t :: more)) : Bare t := by
  rw [run_append, Option.bind_assoc, Option.bind_eq_some_iff] at h
  obtain ⟨⟨after, mode⟩, hrun, hrest⟩ := h
  obtain ⟨ds, hdone⟩ : done <+: after := done_run hrun
  obtain rfl : done ++ ds = after := hdone
  have hdone := done_finish hrest
  cases ds with
  | cons w ds =>
      have hw : w = literal t := by
        refine appended_unique (List.IsPrefix.trans ?_ hdone) rfl
        exact ⟨ds, by simp⟩
      obtain ⟨-, -, hbegun⟩ | hless := run_fresh hrun
      · have hlength := congrArg (fun s => s.done.length) hbegun
        simp at hlength
      · rw [Measure.total_mk, List.flatten_append, Measure.weigh_append, List.flatten_cons, Measure.weigh_append, hw,
          Measure.weigh_literal] at hless
        omega
  | nil =>
      rw [List.append_nil] at hrun hrest
      have howing (c : UInt16) (hsign : sign mode = some c) : Bare t := by
        obtain ⟨word, hprefix, hle⟩ := hrecovers mode c hsign done _ hrest
        have howed := owed_sign hsign
        have hword := appended_unique hprefix rfl
        have htotal := (tally c).total_run hrun
        rw [hword, Measure.weigh_literal] at hle
        rw [Measure.total_mk, Measure.total_mk, Mode.word, Option.getD_none, Measure.weigh_nil, Measure.owed] at htotal
        omega
      cases mode with
      | outside word =>
          cases word with
          | none =>
              obtain ⟨next, hnext, hprefix⟩ := hcontinues.2 done _ hrest
              rwa [← literal_inj (appended_unique hprefix rfl)]
          | some w =>
              obtain ⟨⟨u, tail, rfl, hu⟩, -⟩ := hcontinues
              have hw : w = literal t := by
                rw [run_cons, step_blank hu, Option.bind_some] at hrest
                exact appended_unique (done_finish hrest) rfl
              obtain ⟨hordinary, hmark, hbegun⟩ | hless := run_fresh hrun
              · rw [State.mk.injEq, begun, Mode.outside.injEq] at hbegun
                split at hbegun
                next => cases hbegun.2
                next hne =>
                  have hparts := (Option.some.inj hbegun.2).symm.trans hw
                  exact ⟨hne, fun v hv => ⟨hordinary v hv, no_wildcard hparts v hv⟩, hmark⟩
              · rw [Measure.total_mk, Mode.word, Option.getD_some, hw, Measure.weigh_literal] at hless
                omega
      | escaped word => exact howing _ rfl
      | single word => exact howing _ rfl
      | double word => exact howing _ rfl
      | doubleEscaped word => exact howing _ rfl
      | name word name => exact howing _ rfl

end Literals

section Quotations

theorem not_escaped {mode : Mode} (h : Effect done mode u s) (hu : u ≠ unit '\\') (word : Option Word) :
    s.mode ≠ .escaped word := by
  induction h with
  | slash => exact absurd rfl hu
  | named word name u s h ih => exact ih hu
  | _ => exact fun h => Mode.noConfusion h

/-- A last apostrophe closes a quotation, unless it is escaped. -/
theorem total_closing {ws : List Word} (h : step s (unit '\'') = some s') (hmode : ∀ word, s.mode ≠ .escaped word)
    (hfinish : finish s' = some ws) : (tally (unit '\'')).total s' < (tally (unit '\'')).total s := by
  obtain ⟨done, mode⟩ := s
  have hdouble {w : Word} (h : doubleStep done w (unit '\'') = some s') : False := by
    have hstep : doubleStep done w (unit '\'') = some ⟨done, .double (w ++ [.unit (unit '\'')])⟩ := rfl
    cases hstep.symm.trans h
    cases hfinish
  cases mode with
  | outside word =>
      have hstep : step ⟨done, .outside word⟩ (unit '\'') = some ⟨done, .single (word.getD [])⟩ := rfl
      cases hstep.symm.trans h
      cases hfinish
  | escaped word => exact absurd rfl (hmode word)
  | single word =>
      have hstep : step ⟨done, .single word⟩ (unit '\'') = some ⟨done, .outside (some word)⟩ := rfl
      cases hstep.symm.trans h
      exact Nat.lt_succ_self _
  | double word => exact (hdouble h).elim
  | doubleEscaped word =>
      have hstep : step ⟨done, .doubleEscaped word⟩ (unit '\'') =
        some ⟨done, .double (word ++ [.unit (unit '\\'), .unit (unit '\'')])⟩ := rfl
      cases hstep.symm.trans h
      cases hfinish
  | name word name =>
      rw [step, if_neg (by decide)] at h
      dsimp only at h
      have hunit (first : Bool) : isNameUnit first (unit '\'') = false := by
        cases first <;> decide
      rw [hunit, if_neg Bool.false_ne_true] at h
      split at h
      next => cases h
      next => exact (hdouble h).elim

theorem total_of_finish {ws : List Word} (m : Measure) (h : finish s = some ws) : m.total s = m.weigh ws.flatten := by
  obtain ⟨done, mode⟩ := s
  cases mode with
  | outside word =>
      cases h
      rw [flatten_closed, Measure.weigh_append]
      rfl
  | _ => cases h

theorem ne_zero_of_run {t : Text} (h : run s t = some s') : ∀ u ∈ t, u ≠ 0 := by
  induction t generalizing s with
  | nil => exact List.forall_mem_nil _
  | cons u t ih =>
      rw [run_cons, Option.bind_eq_some_iff] at h
      obtain ⟨next, hnext, hrest⟩ := h
      refine List.forall_mem_cons.mpr ⟨?_, ih hrest⟩
      rintro rfl
      cases hnext

/-- Between apostrophes a text is passed as one with as many of them only if it has none. -/
theorem no_apostrophe_of_words {t want : Text} (hlast : ∀ u ∈ t.getLast?, u ≠ unit '\\')
    (hcount : (tally (unit '\'')).spent t ≤ (tally (unit '\'')).spent want)
    (h : (run ⟨done, .single []⟩ (t ++ [unit '\''])).bind finish = some (done ++ [literal want])) : unit '\'' ∉ t := by
  intro hmem
  obtain ⟨before, after, heq, hbefore⟩ := List.eq_append_cons_of_mem hmem
  rw [run_append, Option.bind_assoc, Option.bind_eq_some_iff] at h
  obtain ⟨opened, hopen, hclose⟩ := h
  rw [run_cons, Option.bind_assoc, Option.bind_eq_some_iff] at hclose
  obtain ⟨closed, hstep, hfinish⟩ := hclose
  have hmode (word : Option Word) : opened.mode ≠ .escaped word := by
    obtain ⟨front, last, hsplit⟩ := List.eq_nil_or_concat t |>.resolve_left (List.ne_nil_of_mem hmem)
    rw [List.concat_eq_append] at hsplit
    rw [hsplit, run_append, Option.bind_eq_some_iff] at hopen
    obtain ⟨next, -, hlastStep⟩ := hopen
    rw [run_cons, Option.bind_eq_some_iff] at hlastStep
    obtain ⟨final, hlastStep, hfinal⟩ := hlastStep
    cases hfinal
    exact not_escaped (effect_step hlastStep).2 (hlast last (by rw [hsplit]; exact List.getLast?_concat)) word
  have hzero := ne_zero_of_run hopen
  have hplain (u : UInt16) (hu : u ∈ before) : u ≠ 0 ∧ u ≠ unit '\'' :=
    ⟨hzero u (heq ▸ List.mem_append_left _ hu), fun h => hbefore (h ▸ hu)⟩
  rw [heq, run_single hplain, run_cons] at hopen
  have hfirst : step ⟨done, .single ([] ++ literal before)⟩ (unit '\'') =
    some ⟨done, .outside (some (literal before))⟩ := rfl
  rw [hfirst, Option.bind_some] at hopen
  have hless := total_closing hstep hmode hfinish
  have hbound := (tally (unit '\'')).total_run hopen
  have htotal := total_of_finish (tally (unit '\'')) hfinish
  have hone : (tally (unit '\'')).gain (unit '\'') = 1 := rfl
  rw [heq, Measure.spent_append, Measure.spent_cons, hone] at hcount
  rw [Measure.total_mk _ done, Mode.word, Option.getD_some, Measure.weigh_literal, Measure.owed] at hbound
  rw [List.flatten_append, List.flatten_singleton, Measure.weigh_append, Measure.weigh_literal] at htotal
  omega

end Quotations

example : words (text "a 'b c'd \\\n \"$x y\"") =
    some [literal (text "a"), literal (text "b cd"), .parameter (text "x") :: literal (text " y")] := by decide

end Grammars.ShellWords
