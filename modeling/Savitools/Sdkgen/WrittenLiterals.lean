import Savitools.Grammars.ShellWords
import Savitools.Grammars.SourceLiterals
import Savitools.Sdkgen.Generators

namespace Savitools.Sdkgen.WrittenLiterals

open Strings.CodeUnits Strings.Cases Json.Numbers Json.Values Json.Writing Json.RoundTrip Grammars
  Grammars.ShellWords Grammars.SourceLiterals Types

/-- `replace` of all places of one unit. -/
def replaceUnit (u : UInt16) (replacement t : Text) : Text := t.flatMap fun v => if v = u then replacement else [v]

def pyLiteral (value : Value Number) : Text :=
  replaceUnit (unit '\'') (text "\\'") (replaceUnit (unit '\\') (text "\\\\") (stringify value))

/-- With the text that `String` makes of the value, and the separators as a class of units. -/
def goString (value : Text) : Text := (quote value).filter fun u => !(text "\u2028\u2029").contains u

def METHODS_WITH_BODY : List Text := [text "post", text "put", text "patch"]

/-- A member of the body as the curl generator writes it. -/
def curlPair (member : Text × Value Number) : Text :=
  unit '"' :: (member.1 ++ (text "\": " ++ stringify member.2))

def curlPairs (members : List (Text × Value Number)) : Text := (text ", ").intercalate (members.map curlPair)

def curlBody (members : List (Text × Value Number)) : Text := text "\x7b " ++ (curlPairs members ++ text " \x7d")

/-- The header that every command has. -/
def authorization : Text := text " \\\n  -H \"Authorization: Bearer $API_KEY\""

def contentType : Text := text " \\\n  -H \"Content-Type: application/json\""

/-- What follows of a method that has a body. -/
def curlTail (method : Text) (members : List (Text × Value Number)) : Text :=
  if METHODS_WITH_BODY.contains method then
    contentType ++ if members.isEmpty then [] else text " \\\n  -d '" ++ (curlBody members ++ text "'")
  else []

/-- The command that the curl generator writes for an operation with this URL and these members of the body. -/
def curlCommand (method url : Text) (members : List (Text × Value Number)) : Text :=
  text "curl -X " ++ (method.map toUpperAscii ++ (text " " ++ (url ++ (authorization ++ curlTail method members))))

/-- The JSON text of the body, with a blank between its parts. -/
def jsonPair (member : Text × Value Number) : Text := quote member.1 ++ (text ": " ++ stringify member.2)

def jsonBody (members : List (Text × Value Number)) : Text :=
  text "\x7b " ++ ((text ", ").intercalate (members.map jsonPair) ++ text " \x7d")

def bearer : Word := literal (text "Authorization: Bearer ") ++ [.parameter (text "API_KEY")]

/-- The arguments that the command is meant to pass. -/
def curlWords (method url : Text) (members : List (Text × Value Number)) : List Word :=
  [literal (text "curl"), literal (text "-X"), literal (method.map toUpperAscii), literal url, literal (text "-H"),
      bearer] ++
    if METHODS_WITH_BODY.contains method then
      [literal (text "-H"), literal (text "Content-Type: application/json")] ++
        if members.isEmpty then [] else [literal (text "-d"), literal (jsonBody members)]
    else []

section Bodies

/-- Parts that are not longer make a text that is not longer, and only such of equal length make one of equal length. -/
theorem spent_intercalate {α : Type} (m : Measure) (separator : Text) {f g : α → Text} {xs : List α}
    (h : ∀ x ∈ xs, m.spent (f x) ≤ m.spent (g x)) :
    m.spent (separator.intercalate (xs.map f)) ≤ m.spent (separator.intercalate (xs.map g)) ∧
      (m.spent (separator.intercalate (xs.map f)) = m.spent (separator.intercalate (xs.map g)) →
        ∀ x ∈ xs, m.spent (f x) = m.spent (g x)) := by
  induction xs with
  | nil => exact ⟨le_rfl, fun _ => List.forall_mem_nil _⟩
  | cons x xs ih =>
      obtain ⟨hx, hxs⟩ := List.forall_mem_cons.mp h
      obtain ⟨hle, heq⟩ := ih hxs
      cases xs with
      | nil => simpa using hx
      | cons y xs =>
          simp only [List.map_cons, List.intercalate_cons_cons, Measure.spent_append] at hle heq ⊢
          refine ⟨by omega, fun h => List.forall_mem_cons.mpr ⟨by omega, heq (by omega)⟩⟩

/-- Escapes do not make a text shorter. -/
theorem spent_escapeUnits (m : Measure) (hunit : ∀ u, m.gain u ≤ m.spent (escapeUnit u))
    (hsurrogate : ∀ u, (isHighSurrogate u || isLowSurrogate u) = true → m.gain u ≤ m.spent (unicodeEscape u))
    (t : Text) : m.spent t ≤ m.spent (escapeUnits t) := by
  fun_induction escapeUnits t with
  | case1 => exact le_rfl
  | case2 u hlone => exact hsurrogate u hlone
  | case3 u hlone => exact hunit u
  | case4 u v t hpair ih =>
      rw [Measure.spent_cons, Measure.spent_cons, Measure.spent_cons, Measure.spent_cons]
      omega
  | case5 u v t hpair hlone ih =>
      have hu := hsurrogate u hlone
      rw [Measure.spent_cons, Measure.spent_append]
      omega
  | case6 u v t hpair hlone ih =>
      have hu := hunit u
      rw [Measure.spent_cons, Measure.spent_append]
      omega

theorem extent_spent (t : Text) : extent.spent t = t.length := by
  induction t with
  | nil => rfl
  | cons u t ih =>
      rw [Measure.spent_cons, ih, List.length_cons, Nat.add_comm]
      rfl

theorem spent_pair (m : Measure) (hescape : ∀ t, m.spent t ≤ m.spent (escapeUnits t)) (member : Text × Value Number) :
    m.spent (curlPair member) ≤ m.spent (jsonPair member) := by
  have hkey := hescape member.1
  have hclose : text "\": " = [unit '"'] ++ text ": " := by decide
  simp only [curlPair, jsonPair, quote, hclose, Measure.spent_cons, Measure.spent_append]
  omega

theorem apostrophes_escapeUnits (t : Text) : (tally (unit '\'')).spent t ≤ (tally (unit '\'')).spent (escapeUnits t) := by
  have hother {u : UInt16} (hu : u ≠ unit '\'') : (tally (unit '\'')).gain u = 0 := if_neg hu
  refine spent_escapeUnits _ (fun u => ?_) (fun u hu => ?_) t
  · by_cases hquote : u = unit '\''
    · rw [hquote]
      decide
    · rw [hother hquote]
      exact Nat.zero_le _
  · rw [hother]
    · exact Nat.zero_le _
    · rintro rfl
      exact absurd hu (by decide)

/-- The pairs are those of JSON if no name needs an escape. -/
theorem curlPairs_eq_iff {members : List (Text × Value Number)} :
    curlPairs members = (text ", ").intercalate (members.map jsonPair) ↔ ∀ m ∈ members, Unescaped m.1 := by
  have hclose : text "\": " = [unit '"'] ++ text ": " := by decide
  constructor
  · intro h m hm
    have hle (m : Text × Value Number) (_ : m ∈ members) : extent.spent (curlPair m) ≤ extent.spent (jsonPair m) :=
      spent_pair extent (fun t => by rw [extent_spent, extent_spent]; exact length_escapeUnits t) m
    have hequal := (spent_intercalate extent (text ", ") hle).2 (congrArg extent.spent h) m hm
    simp only [curlPair, jsonPair, quote, hclose, Measure.spent_cons, Measure.spent_append, extent_spent] at hequal
    exact length_escapeUnits_iff.mp (by omega)
  · intro h
    refine congrArg (text ", ").intercalate (List.map_congr_left fun m hm => ?_)
    simp only [curlPair, jsonPair, quote, escapeUnits_of_unescaped (h m hm), hclose, List.cons_append, List.append_assoc,
      List.nil_append]

theorem apostrophe_escapeUnits {t : Text} : unit '\'' ∉ escapeUnits t ↔ unit '\'' ∉ t := by
  constructor
  · intro h hmem
    have hle := apostrophes_escapeUnits t
    obtain ⟨before, after, rfl⟩ := List.append_of_mem hmem
    have hone : (tally (unit '\'')).gain (unit '\'') = 1 := rfl
    rw [spent_of_not_mem h, Measure.spent_append, Measure.spent_cons, hone] at hle
    omega
  · intro h hmem
    have hletters : Json.Reading.escapes.all (fun e => e.1 != unit '\'') = true := by decide
    have hall : ∀ u ∈ escapeUnits t, u ≠ unit '\'' :=
      forall_escapeUnits (by decide) (by decide) (by decide)
        (fun e he _ => bne_iff_ne.mp (List.all_eq_true.mp hletters e he)) fun u hu _ heq => h (heq ▸ hu)
    exact hall _ hmem rfl

theorem apostrophe_stringify {v : Value Number} :
    unit '\'' ∉ stringify v ↔ Everywhere (Lacks (unit '\'')) v := by
  have hlacks (v : Value Number) : LacksWritten (unit '\'') v ↔ Lacks (unit '\'') v := by
    cases v with
    | str t => exact apostrophe_escapeUnits
    | obj fields => exact forall₂_congr fun f _ => apostrophe_escapeUnits
    | _ => exact Iff.rfl
  rw [not_mem_stringify_iff (by decide) (by decide), everywhere_congr hlacks]

/-- No apostrophe is in the body of a command. -/
def Unquoted (members : List (Text × Value Number)) : Prop :=
  ∀ m ∈ members, unit '\'' ∉ m.1 ∧ Everywhere (Lacks (unit '\'')) m.2

theorem unquoted_iff {members : List (Text × Value Number)} : unit '\'' ∉ curlPairs members ↔ Unquoted members := by
  have hsigns : unit '\'' ∉ text ", " ∧ unit '\'' ∉ text "\": " ∧ unit '\'' ≠ unit '"' := by decide
  have hpair (m : Text × Value Number) :
      unit '\'' ∉ curlPair m ↔ unit '\'' ∉ m.1 ∧ Everywhere (Lacks (unit '\'')) m.2 := by
    rw [curlPair, List.mem_cons, List.mem_append, List.mem_append, or_iff_right hsigns.2.2, or_iff_right hsigns.2.1,
      not_or, apostrophe_stringify]
  rw [curlPairs, mem_intercalate hsigns.1]
  simp only [not_exists, not_and, List.forall_mem_map]
  exact forall₂_congr fun m _ => hpair m

/-- JSON escapes the unit that ends a text in C. -/
theorem zero_escapeUnits (t : Text) : 0 ∉ escapeUnits t := by
  have hletters : Json.Reading.escapes.all (fun e => e.1 != 0) = true := by decide
  have hall : ∀ u ∈ escapeUnits t, u ≠ 0 := by
    refine forall_escapeUnits (by decide) (by decide) (by decide)
      (fun e he _ => bne_iff_ne.mp (List.all_eq_true.mp hletters e he)) fun u _ hu => ?_
    rintro rfl
    exact absurd hu (by decide)
  exact fun hmem => hall 0 hmem rfl

theorem zero_stringify (v : Value Number) : 0 ∉ stringify v := by
  refine (not_mem_stringify_iff (by decide) (by decide)).mpr (everywhere_of_forall (fun v => ?_) v)
  cases v with
  | str t => exact zero_escapeUnits t
  | obj fields => exact fun f _ => zero_escapeUnits f.1
  | _ => trivial

theorem ne_zero_of_jsonBody (members : List (Text × Value Number)) : ∀ u ∈ jsonBody members, u ≠ 0 := by
  have hsigns : 0 ∉ text "\x7b " ∧ 0 ∉ text ", " ∧ 0 ∉ text ": " ∧ 0 ∉ text " \x7d" ∧ 0 ≠ unit '"' := by decide
  rintro u hu rfl
  rw [jsonBody, List.mem_append, List.mem_append, or_iff_right hsigns.1, or_iff_left hsigns.2.2.2.1,
    mem_intercalate hsigns.2.1] at hu
  obtain ⟨t, ht, hzero⟩ := hu
  obtain ⟨m, -, rfl⟩ := List.mem_map.mp ht
  rw [jsonPair, List.mem_append, List.mem_append, or_iff_right hsigns.2.2.1] at hzero
  exact hzero.elim ((not_mem_quote hsigns.2.2.2.2).mpr (zero_escapeUnits m.1)) (zero_stringify m.2)

end Bodies

section Members

open Json.Reading hiding words

variable {p : Point} {ls : List Level}

theorem read_jsonPairs (members : List (Text × Value Number)) (hmembers : FaithfulFields members) (hne : members ≠ [])
    (done : List (Text × Value Number)) (hp : Keyed done p) (hkeys : ((done ++ members).map Prod.fst).Nodup) (rest : Text) :
    State.read ⟨.between, p, ls⟩ ((text ", ").intercalate (members.map jsonPair) ++ (text " \x7d" ++ rest)) =
      State.read ⟨.between, .after (.obj (done ++ members)), ls⟩ rest := by
  have hcomma {v : Value Number} {done : List (Text × Value Number)} {key : Text} (rest : Text) :
    State.read ⟨.between, .after v, .fields done key :: ls⟩ (text ", " ++ rest) =
      State.read ⟨.between, .key (setField done key v), ls⟩ rest := rfl
  have hclose {v : Value Number} {done : List (Text × Value Number)} {key : Text} (rest : Text) :
    State.read ⟨.between, .after v, .fields done key :: ls⟩ (text " \x7d" ++ rest) =
      State.read ⟨.between, .after (.obj (setField done key v)), ls⟩ rest := rfl
  induction members generalizing p done with
  | nil => exact absurd rfl hne
  | cons m members ih =>
      obtain ⟨key, v⟩ := m
      have hkey : key ∉ done.map Prod.fst := not_mem_of_nodup hkeys
      have hpair (after : Text) (hafter : Stops after) :
          State.read ⟨.between, p, ls⟩ (jsonPair (key, v) ++ after) =
            State.read ⟨.between, .after v, .fields done key :: ls⟩ after := by
        have hcolon (rest : Text) : State.read ⟨.between, .colon done key, ls⟩ (text ": " ++ rest) =
          State.read ⟨.between, .value, .fields done key :: ls⟩ rest := rfl
        rw [jsonPair, List.append_assoc, List.append_assoc, read_quote, take_key hp, Option.bind_some, hcolon]
        exact read_stringify v hmembers.1 .value (.fields done key :: ls) _ rfl after hafter
      cases members with
      | nil =>
          have hstops : Stops (text " \x7d" ++ rest) := stops_cons (by decide) _
          rw [List.map_singleton, List.intercalate_singleton, hpair _ hstops, hclose, setField_new hkey]
      | cons f members =>
          have hstops (t : Text) : Stops (text ", " ++ t) := stops_cons (by decide) _
          have hmore : ((done ++ [(key, v)] ++ f :: members).map Prod.fst).Nodup := by
            rwa [List.append_assoc, List.singleton_append]
          have hnext := ih hmembers.2 (List.cons_ne_nil f members) (done ++ [(key, v)]) (.inl rfl) hmore
          rw [List.map_cons, List.map_cons, List.intercalate_cons_cons, ← List.map_cons, List.append_assoc,
            List.append_assoc, hpair _ (hstops _), hcomma, setField_new hkey, hnext, List.append_assoc,
            List.singleton_append]

/-- The text of a body is JSON of its members. -/
theorem parse_jsonBody {members : List (Text × Value Number)} (hmembers : Faithful (.obj members)) :
    parse (jsonBody members) = some (.obj members) := by
  have hopen (rest : Text) : parse (text "\x7b " ++ rest) = State.read ⟨.between, .firstKey, []⟩ rest := rfl
  rw [jsonBody, hopen]
  cases members with
  | nil => rfl
  | cons m members =>
      have hread := @read_jsonPairs .firstKey [] (m :: members) hmembers.2 (List.cons_ne_nil m members) []
        (.inr ⟨rfl, rfl⟩) hmembers.1 []
      rw [List.append_nil] at hread
      exact hread

end Members

section Curl

variable {done : List Word} {word : Word} {rest : Text}

theorem run_flag (word : Option Word) (rest : Text) :
    run ⟨done, .outside word⟩ (text " \\\n  -H \"" ++ rest) =
      run ⟨closed done word ++ [literal (text "-H")], .double []⟩ rest := by
  cases word <;> rfl

/-- A header between double quotes, of units that stand for themselves. -/
theorem run_header {t : Text} (ht : t.all isInside = true) (word : Option Word) (rest : Text) :
    run ⟨done, .outside word⟩ (text " \\\n  -H \"" ++ (t ++ rest)) =
      run ⟨closed done word ++ [literal (text "-H")], .double (literal t)⟩ rest := by
  rw [run_flag, run_double (List.all_eq_true.mp ht), List.nil_append]

theorem authorization_eq :
    authorization = text " \\\n  -H \"" ++ (text "Authorization: Bearer " ++ text "$API_KEY\"") := by decide

theorem contentType_eq :
    contentType = text " \\\n  -H \"" ++ (text "Content-Type: application/json" ++ text "\"") := by decide

theorem run_authorization (done : List Word) (word : Option Word) (rest : Text) :
    run ⟨done, .outside word⟩ (authorization ++ rest) =
      run ⟨closed done word ++ [literal (text "-H")], .outside (some bearer)⟩ rest := by
  rw [authorization_eq, List.append_assoc, List.append_assoc, run_header (by decide)]
  rfl

theorem run_contentType (done : List Word) (word : Word) (rest : Text) :
    run ⟨done, .outside (some word)⟩ (contentType ++ rest) = run ⟨done ++ [word, literal (text "-H")],
      .outside (some (literal (text "Content-Type: application/json")))⟩ rest := by
  rw [contentType_eq, List.append_assoc, List.append_assoc, run_header (by decide), closed, List.append_assoc]
  rfl

theorem run_data (done : List Word) (word : Word) (rest : Text) :
    run ⟨done, .outside (some word)⟩ (text " \\\n  -d '" ++ rest) =
      run ⟨done ++ [word, literal (text "-d")], .single []⟩ rest := by
  have hdata : run ⟨done, .outside (some word)⟩ (text " \\\n  -d '" ++ rest) =
    run ⟨done ++ [word] ++ [literal (text "-d")], .single []⟩ rest := rfl
  rw [hdata, List.append_assoc]
  rfl

theorem bare_method {method : Text} (h : method ∈ HTTP_METHODS) : Bare (method.map toUpperAscii) := by
  have hall : HTTP_METHODS.all (fun method => isBare (method.map toUpperAscii)) = true := by decide
  exact bare_of_isBare (List.all_eq_true.mp hall method h)

/-- The command up to its URL. -/
theorem run_start {method : Text} (h : method ∈ HTTP_METHODS) (rest : Text) :
    run ⟨[], .outside none⟩ (text "curl -X " ++ (method.map toUpperAscii ++ (text " " ++ rest))) =
      run ⟨[literal (text "curl"), literal (text "-X"), literal (method.map toUpperAscii)], .outside none⟩ rest := by
  have hcurl (rest : Text) : run ⟨[], .outside none⟩ (text "curl -X " ++ rest) =
    run ⟨[literal (text "curl"), literal (text "-X")], .outside none⟩ rest := rfl
  rw [hcurl, run_bare (bare_method h)]
  rfl

theorem continues_authorization (tail : Text) : Continues (authorization ++ tail) := by
  refine ⟨⟨unit ' ', _, rfl, rfl⟩, fun done ws h => ⟨text "-H", bare_of_isBare (by decide), ?_⟩⟩
  rw [run_authorization] at h
  exact done_finish h

/-- In an open double quotation, the header closes it and ends the word. -/
theorem run_open_double (done : List Word) (word : Word) (rest : Text) :
    run ⟨done, .double word⟩ (text "\\\n  -H \"Authorization: Bearer $API_KEY\"" ++ rest) =
      run ⟨done ++ [word ++ (literal (text "  -H ") ++ literal (text "Authorization:"))], .outside none⟩
        (text "Bearer $API_KEY\"" ++ rest) := by
  have hsplit : text "\\\n  -H \"Authorization: Bearer $API_KEY\"" =
      text "\\\n" ++ (text "  -H " ++ (text "\"" ++ (text "Authorization:" ++ (text " " ++ text "Bearer $API_KEY\"")))) := by
    decide
  have hline (rest : Text) : run ⟨done, .double word⟩ (text "\\\n" ++ rest) = run ⟨done, .double word⟩ rest := rfl
  have hclose (word : Word) (rest : Text) :
    run ⟨done, .double word⟩ (text "\"" ++ rest) = run ⟨done, .outside (some word)⟩ rest := rfl
  have hend (word : Word) (rest : Text) :
    run ⟨done, .outside (some word)⟩ (text " " ++ rest) = run ⟨done ++ [word], .outside none⟩ rest := rfl
  have hinside : (text "  -H ").all isInside = true := by decide
  have hordinary : (text "Authorization:").all isOrdinary = true := by decide
  have hparts : (text "Authorization:").map partOf = literal (text "Authorization:") := by decide
  simp only [hsplit, List.append_assoc]
  rw [hline, run_double (List.all_eq_true.mp hinside), hclose, run_ordinary (List.all_eq_true.mp hordinary), hparts, hend,
    List.append_assoc word]

theorem recovers_double {mode : Mode} {tail : Text} {ws : List Word}
    (hmode : ∀ s, step ⟨done, mode⟩ (unit ' ') = some s → ∃ w, s = ⟨done, .double w⟩ ∧
      (tally (unit '"')).weigh w = (tally (unit '"')).weigh mode.word)
    (h : (run ⟨done, mode⟩ (authorization ++ tail)).bind finish = some ws) :
    ∃ word, done ++ [word] <+: ws ∧ (tally (unit '"')).weigh word ≤ (tally (unit '"')).weigh mode.word := by
  have hsplit : authorization = unit ' ' :: text "\\\n  -H \"Authorization: Bearer $API_KEY\"" := by decide
  rw [hsplit, List.cons_append, run_cons, Option.bind_assoc, Option.bind_eq_some_iff] at h
  obtain ⟨s, hstep, hrest⟩ := h
  obtain ⟨w, rfl, hw⟩ := hmode s hstep
  rw [run_open_double] at hrest
  refine ⟨_, done_finish hrest, ?_⟩
  have hindent : (tally (unit '"')).spent (text "  -H ") = 0 := by decide
  have hname : (tally (unit '"')).spent (text "Authorization:") = 0 := by decide
  rw [Measure.weigh_append, Measure.weigh_append, Measure.weigh_literal, Measure.weigh_literal, hindent, hname, hw]
  exact le_rfl

theorem recovers_authorization {tail : Text}
    (htail : unit '\'' ∉ tail ∨ ∃ before rest, tail = before ++ (text "'\x7b " ++ rest) ∧ unit '\'' ∉ before) :
    Recovers (authorization ++ tail) := by
  intro mode c hsign done ws h
  cases mode with
  | outside word => cases hsign
  | escaped word =>
      cases hsign
      have hsplit : authorization = text " \\\n " ++ text " -H \"Authorization: Bearer $API_KEY\"" := by decide
      have hrun (rest : Text) : run ⟨done, .escaped word⟩ (text " \\\n " ++ rest) =
        run ⟨done ++ [word.getD [] ++ [.unit (unit ' ')]], .outside none⟩ rest := rfl
      rw [hsplit, List.append_assoc, hrun] at h
      refine ⟨_, done_finish h, ?_⟩
      rw [Measure.weigh_append]
      exact le_rfl
  | double word =>
      cases hsign
      refine recovers_double (fun s hs => ⟨word ++ [.unit (unit ' ')], (Option.some.inj hs).symm, ?_⟩) h
      rw [Measure.weigh_append]
      rfl
  | doubleEscaped word =>
      cases hsign
      refine recovers_double
        (fun s hs => ⟨word ++ [.unit (unit '\\'), .unit (unit ' ')], (Option.some.inj hs).symm, ?_⟩) h
      rw [Measure.weigh_append]
      rfl
  | name word name =>
      cases hsign
      refine recovers_double (fun s hs => ?_) h
      have hunit (first : Bool) : isNameUnit first (unit ' ') = false := by
        cases first <;> decide
      rw [step, if_neg (by decide)] at hs
      dsimp only at hs
      rw [hunit, if_neg Bool.false_ne_true] at hs
      split at hs
      next => cases hs
      next =>
        refine ⟨word ++ [.parameter name] ++ [.unit (unit ' ')], (Option.some.inj hs).symm, ?_⟩
        rw [Measure.weigh_append, Measure.weigh_append]
        rfl
  | single word =>
      cases hsign
      have hauthorization : unit '\'' ∉ authorization := by decide
      have hzero : ∀ u ∈ authorization ++ tail, u ≠ 0 := by
        obtain ⟨s, hrun, -⟩ := Option.bind_eq_some_iff.mp h
        exact ne_zero_of_run hrun
      obtain hnone | ⟨before, rest, rfl, hbefore⟩ := htail
      · have hall : ∀ u ∈ authorization ++ tail, u ≠ 0 ∧ u ≠ unit '\'' := fun u hu =>
          ⟨hzero u hu, fun heq => (List.mem_append.mp (heq ▸ hu)).elim hauthorization hnone⟩
        rw [← List.append_nil (authorization ++ tail), run_single hall] at h
        cases h
      · have hclose (word : Word) (rest : Text) : run ⟨done, .single word⟩ (text "'\x7b " ++ rest) =
          run ⟨done ++ [word ++ [.unit (unit '\x7b')]], .outside none⟩ rest := rfl
        have hall : ∀ u ∈ authorization ++ before, u ≠ 0 ∧ u ≠ unit '\'' := fun u hu =>
          ⟨hzero u (by
            rw [← List.append_assoc]
            exact List.mem_append_left _ hu), fun heq => (List.mem_append.mp (heq ▸ hu)).elim hauthorization hbefore⟩
        rw [← List.append_assoc, run_single hall, hclose] at h
        refine ⟨_, done_finish h, ?_⟩
        have hspent : (tally (unit '\'')).spent (authorization ++ before) = 0 :=
          spent_of_not_mem fun hmem => (List.mem_append.mp hmem).elim hauthorization hbefore
        rw [Measure.weigh_append, Measure.weigh_append, Measure.weigh_literal, hspent]
        exact le_rfl

/-- The body is passed as its JSON text if no name needs an escape and nothing has an apostrophe. -/
theorem run_body_iff (done : List Word) (members : List (Text × Value Number)) :
    (run ⟨done, .single []⟩ (curlBody members ++ text "'")).bind finish = some (done ++ [literal (jsonBody members)]) ↔
      (∀ m ∈ members, Unescaped m.1) ∧ Unquoted members := by
  have hends : unit '\'' ∉ text "\x7b " ∧ unit '\'' ∉ text " \x7d" := by decide
  have hmem : unit '\'' ∉ curlBody members ↔ unit '\'' ∉ curlPairs members := by
    rw [curlBody, List.mem_append, List.mem_append, or_iff_right hends.1, or_iff_left hends.2]
  have hbodies : curlBody members = jsonBody members ↔ ∀ m ∈ members, Unescaped m.1 := by
    rw [curlBody, jsonBody, List.append_cancel_left_eq, List.append_cancel_right_eq, curlPairs_eq_iff]
  have hread (hzero : ∀ u ∈ curlBody members, u ≠ 0) (hnone : unit '\'' ∉ curlBody members) :
      (run ⟨done, .single []⟩ (curlBody members ++ text "'")).bind finish =
        some (done ++ [literal (curlBody members)]) := by
    rw [run_single fun u hu => ⟨hzero u hu, fun heq => hnone (heq ▸ hu)⟩]
    rfl
  constructor
  · intro h
    have hlast : ∀ u ∈ (curlBody members).getLast?, u ≠ unit '\\' := by
      have hclose : text " \x7d" = [unit ' '] ++ [unit '\x7d'] := rfl
      rw [curlBody, hclose, ← List.append_assoc, ← List.append_assoc, List.getLast?_concat]
      rintro u ⟨⟩
      decide
    have hcount : (tally (unit '\'')).spent (curlBody members) ≤ (tally (unit '\'')).spent (jsonBody members) := by
      have hpairs := (spent_intercalate (tally (unit '\'')) (text ", ")
        fun m (_ : m ∈ members) => spent_pair _ apostrophes_escapeUnits m).1
      rw [curlBody, jsonBody, Measure.spent_append, Measure.spent_append, Measure.spent_append, Measure.spent_append]
      exact Nat.add_le_add_left (Nat.add_le_add_right hpairs _) _
    have hnone := no_apostrophe_of_words hlast hcount h
    have hzero : ∀ u ∈ curlBody members, u ≠ 0 := by
      obtain ⟨s, hrun, -⟩ := Option.bind_eq_some_iff.mp h
      exact fun u hu => ne_zero_of_run hrun u (List.mem_append_left _ hu)
    have hequal := (hread hzero hnone).symm.trans h
    rw [Option.some.injEq, List.append_cancel_left_eq, List.cons.injEq] at hequal
    exact ⟨hbodies.mp (literal_inj hequal.1), unquoted_iff.mp (hmem.mp hnone)⟩
  · rintro ⟨hnames, hunquoted⟩
    have hequal := hbodies.mpr hnames
    rw [hread (hequal ▸ ne_zero_of_jsonBody members) (hmem.mpr (unquoted_iff.mpr hunquoted)), hequal]

theorem tail_quotes (method : Text) (members : List (Text × Value Number)) :
    unit '\'' ∉ curlTail method members ∨
      ∃ before rest, curlTail method members = before ++ (text "'\x7b " ++ rest) ∧ unit '\'' ∉ before := by
  have hcontent : unit '\'' ∉ contentType := by decide
  rw [curlTail]
  split
  next =>
    split
    next => exact .inl (by rwa [List.append_nil])
    next =>
      refine .inr ⟨contentType ++ text " \\\n  -d ", curlPairs members ++ text " \x7d'", ?_, ?_⟩
      · have hdata : text " \\\n  -d '" = text " \\\n  -d " ++ text "'" := by decide
        have hopen : text "'\x7b " = text "'" ++ text "\x7b " := by decide
        have hclose : text " \x7d'" = text " \x7d" ++ text "'" := by decide
        simp only [curlBody, hdata, hopen, hclose, List.append_assoc]
      · exact fun hmem => (List.mem_append.mp hmem).elim hcontent (by decide)
  next => exact .inl List.not_mem_nil

/-- The words of a command are those that are meant exactly when its URL is bare and its body is plain. -/
theorem curl_iff {method : Text} (hmethod : method ∈ HTTP_METHODS) (url : Text) (members : List (Text × Value Number)) :
    words (curlCommand method url members) = some (curlWords method url members) ↔
      Bare url ∧ (METHODS_WITH_BODY.contains method = true → (∀ m ∈ members, Unescaped m.1) ∧ Unquoted members) := by
  rw [words, curlCommand, run_start hmethod]
  have hrun (hurl : Bare url) : run ⟨[literal (text "curl"), literal (text "-X"), literal (method.map toUpperAscii)],
      .outside none⟩ (url ++ (authorization ++ curlTail method members)) =
      run ⟨[literal (text "curl"), literal (text "-X"), literal (method.map toUpperAscii), literal url,
        literal (text "-H")], .outside (some bearer)⟩ (curlTail method members) := by
    rw [run_bare hurl, run_authorization]
    rfl
  have hbody : METHODS_WITH_BODY.contains method = true → ((run ⟨[literal (text "curl"), literal (text "-X"),
      literal (method.map toUpperAscii), literal url, literal (text "-H")], .outside (some bearer)⟩
      (curlTail method members)).bind finish = some (curlWords method url members) ↔
      (∀ m ∈ members, Unescaped m.1) ∧ Unquoted members) := by
    intro hmethod
    rw [curlTail, curlWords, if_pos hmethod, if_pos hmethod, run_contentType]
    cases members with
    | nil => exact iff_of_true rfl ⟨List.forall_mem_nil _, List.forall_mem_nil _⟩
    | cons m members =>
        rw [List.isEmpty_cons, if_neg Bool.false_ne_true, if_neg Bool.false_ne_true, run_data]
        exact run_body_iff _ (m :: members)
  constructor
  · intro h
    have hurl : Bare url := bare_of_words (continues_authorization _) (recovers_authorization (tail_quotes method members)) h
    rw [hrun hurl] at h
    exact ⟨hurl, fun hmethod => (hbody hmethod).mp h⟩
  · rintro ⟨hurl, hplain⟩
    rw [hrun hurl]
    by_cases hmethod : METHODS_WITH_BODY.contains method = true
    · exact (hbody hmethod).mpr (hplain hmethod)
    · rw [curlTail, curlWords, if_neg hmethod, if_neg hmethod]
      rfl

end Curl

theorem replaceUnit_cons (u : UInt16) (replacement : Text) (v : UInt16) (t : Text) :
    replaceUnit u replacement (v :: t) = (if v = u then replacement else [v]) ++ replaceUnit u replacement t := rfl

theorem replaceUnit_append (u : UInt16) (replacement t rest : Text) :
    replaceUnit u replacement (t ++ rest) = replaceUnit u replacement t ++ replaceUnit u replacement rest :=
  List.flatMap_append

/-- The second replacement leaves the backslashes of the first as they are. -/
theorem pyLiteral_eq (value : Value Number) : pyLiteral value = PythonLiterals.guarded (stringify value) := by
  rw [pyLiteral]
  induction stringify value with
  | nil => rfl
  | cons u t ih =>
      rw [replaceUnit_cons, replaceUnit_append, ih, PythonLiterals.guarded_cons]
      by_cases hslash : u = unit '\\'
      · rw [if_pos hslash, if_pos hslash]
        rfl
      · have hnil : replaceUnit (unit '\'') (text "\\'") [] = [] := rfl
        have hquote : text "\\'" = [unit '\\', unit '\''] := by decide
        rw [if_neg hslash, if_neg hslash, replaceUnit_cons, hnil, List.append_nil, hquote]

theorem goString_eq (value : Text) : goString value = GoStrings.stripped (quote value) := by
  have hseparators (u : UInt16) : (text "\u2028\u2029").contains u = GoStrings.isSeparator u := by
    have hunits : (text "\u2028\u2029").contains u = (u == 0x2028 || (u == 0x2029 || false)) := rfl
    rw [hunits, Bool.or_false, GoStrings.isSeparator]
  exact List.filter_congr fun u _ => by rw [hseparators]

/-- What each generator writes denotes what is meant by it. -/
theorem literals_denote_iff {value : Value Number} (hvalue : Everywhere PythonLiterals.Decoded value) (string : Text)
    {method : Text} (hmethod : method ∈ HTTP_METHODS) (url : Text) (members : List (Text × Value Number)) :
    (PythonLiterals.eval (pyLiteral value) = some value ↔ Everywhere PythonLiterals.Plain value) ∧
    (GoStrings.read (goString string) = some string ↔
      isPaired string = true ∧ 0xFEFF ∉ string ∧ ∀ u ∈ string, GoStrings.isSeparator u = false) ∧
    (words (curlCommand method url members) = some (curlWords method url members) ↔
      Bare url ∧ (METHODS_WITH_BODY.contains method = true → (∀ m ∈ members, Unescaped m.1) ∧ Unquoted members)) := by
  refine ⟨?_, ?_, curl_iff hmethod url members⟩
  · rw [pyLiteral_eq]
    exact PythonLiterals.eval_stringify_iff hvalue
  · rw [goString_eq]
    exact GoStrings.read_stripped_iff

def sampleBody : Value Number := .obj [(text "title", .str (text "it's"))]

theorem plain_literals_denote :
    PythonLiterals.eval (pyLiteral sampleBody) = some sampleBody ∧
    GoStrings.read (goString (text "a\"b\\")) = some (text "a\"b\\") ∧
    words (curlCommand (text "post") (text "https://api.example.com/users") [(text "name", .str (text "Ann"))]) =
      some (curlWords (text "post") (text "https://api.example.com/users") [(text "name", .str (text "Ann"))]) := by
  have hkeys : Everywhere PythonLiterals.Decoded sampleBody := ⟨List.nodup_singleton _, trivial, trivial⟩
  obtain ⟨hpython, hgo, hcurl⟩ := literals_denote_iff hkeys (text "a\"b\\") (by decide : text "post" ∈ HTTP_METHODS)
    (text "https://api.example.com/users") [(text "name", .str (text "Ann"))]
  have hunescaped {t : Text} (hpaired : isPaired t = true) (ht : t.all (fun u => !needsEscape u) = true) : Unescaped t :=
    ⟨hpaired, fun u hu => by simpa using List.all_eq_true.mp ht u hu⟩
  have hseparators : ∀ u ∈ text "a\"b\\", GoStrings.isSeparator u = false := fun u hu => by
    have hall : (text "a\"b\\").all (fun u => !GoStrings.isSeparator u) = true := by decide
    simpa using List.all_eq_true.mp hall u hu
  refine ⟨hpython.mpr ⟨?_, hunescaped (by decide) (by decide), trivial⟩, hgo.mpr ⟨by decide, by decide, hseparators⟩,
    hcurl.mpr ⟨bare_of_isBare (by decide), fun _ => ⟨?_, ?_⟩⟩⟩
  · exact List.forall_mem_singleton.mpr (hunescaped (by decide) (by decide))
  · exact List.forall_mem_singleton.mpr (hunescaped (by decide) (by decide))
  · exact List.forall_mem_singleton.mpr ⟨by decide, (by decide : unit '\'' ∉ text "Ann")⟩

/-- The words of JSON are no values in Python, a separator is deleted from a string of Go, and the shell cuts a URL at its
ampersand. -/
theorem literals_misread :
    PythonLiterals.eval (pyLiteral (.bool true)) = none ∧
    GoStrings.read (goString (text "a\u2028b")) = some (text "ab") ∧
    words (curlCommand (text "get") (text "https://api.example.com/x?a=1&b=2") []) = none :=
  ⟨rfl, by decide, by decide⟩

end Savitools.Sdkgen.WrittenLiterals
