import Savitools.Json.RoundTrip
import Savitools.Json.Writing

namespace Json.Indenting

open Strings.CodeUnits Json.Numbers Json.Values Json.Writing

/-- What stands between brackets: the parts on lines of their own, and the closing bracket on the line after. -/
def block (gap indent : Text) (opening closing : UInt16) (parts : List Text) : Text :=
  if parts = [] then [opening, closing]
  else
    opening :: (unit '\n' :: (indent ++ gap) ++ (unit ',' :: unit '\n' :: (indent ++ gap)).intercalate parts ++
      unit '\n' :: (indent ++ [closing]))

mutual

/-- The text of a value in a line that begins with this indentation. -/
def indented (gap indent : Text) : Value Number → Text
  | .arr items => block gap indent (unit '[') (unit ']') (indentedItems gap (indent ++ gap) items)
  | .obj fields => block gap indent (unit '{') (unit '}') (indentedFields gap (indent ++ gap) fields)
  | v => stringify v

def indentedItems (gap indent : Text) : List (Value Number) → List Text
  | [] => []
  | v :: items => indented gap indent v :: indentedItems gap indent items

def indentedFields (gap indent : Text) : List (Text × Value Number) → List Text
  | [] => []
  | (key, v) :: fields => (quote key ++ text ": " ++ indented gap indent v) :: indentedFields gap indent fields

end

/-- `JSON.stringify(v, null, space)` -/
def stringifyWith (space : Nat) (v : Value Number) : Text :=
  if space = 0 then stringify v else indented (List.replicate (min space 10) (unit ' ')) [] v

example : stringifyWith 2 (.obj [(text "a", .arr [.null, .obj []])]) =
    text "\x7b\n  \"a\": [\n    null,\n    \x7b\x7d\n  ]\n\x7d" := by decide

end Json.Indenting

namespace Json.IndentedRoundTrip

open Strings.CodeUnits Json.Numbers Json.Values Json.Reading Json.Writing Json.RoundTrip Json.Indenting

/-- A text of which nothing is read between tokens. -/
def Blank (t : Text) : Prop := ∀ u ∈ t, isBlank u = true

theorem Blank.append {t s : Text} (ht : Blank t) (hs : Blank s) : Blank (t ++ s) := List.forall_mem_append.mpr ⟨ht, hs⟩

theorem blank_line {indent : Text} (h : Blank indent) : Blank (unit '\n' :: indent) :=
  List.forall_mem_cons.mpr ⟨by decide, h⟩

theorem blank_spaces (n : Nat) : Blank (List.replicate n (unit ' ')) := by
  intro u hu
  rw [List.eq_of_mem_replicate hu]
  rfl

theorem read_blank {blanks : Text} (hblanks : Blank blanks) (p : Point) (ls : List Level) (rest : Text) :
    State.read ⟨.between, p, ls⟩ (blanks ++ rest) = State.read ⟨.between, p, ls⟩ rest := by
  induction blanks with
  | nil => rfl
  | cons u blanks ih =>
      obtain ⟨hu, hblanks⟩ := List.forall_mem_cons.mp hblanks
      have hstep : State.step ⟨.between, p, ls⟩ u = some ⟨.between, p, ls⟩ := if_pos hu
      rw [List.cons_append, read_of_step hstep, ih hblanks]

theorem stops_line (rest : Text) : Stops (unit '\n' :: rest) := stops_cons (by decide) rest

/-- The parts of a block, each in a line of its own, and the line of the closing bracket. -/
def lines (inner indent : Text) (closing : UInt16) (parts : List Text) (rest : Text) : Text :=
  (unit ',' :: unit '\n' :: inner).intercalate parts ++ unit '\n' :: (indent ++ closing :: rest)

theorem lines_singleton (inner indent : Text) (closing : UInt16) (part rest : Text) :
    lines inner indent closing [part] rest = part ++ unit '\n' :: (indent ++ closing :: rest) := by
  rw [lines, List.intercalate_singleton]

theorem lines_cons_cons (inner indent : Text) (closing : UInt16) (part next : Text) (parts : List Text) (rest : Text) :
    lines inner indent closing (part :: next :: parts) rest =
      part ++ unit ',' :: (unit '\n' :: inner ++ lines inner indent closing (next :: parts) rest) := by
  rw [lines, List.intercalate_cons_cons, List.append_assoc, List.append_assoc, lines]
  rfl

theorem block_append {parts : List Text} (hne : parts ≠ []) (gap indent : Text) (opening closing : UInt16) (rest : Text) :
    block gap indent opening closing parts ++ rest =
      opening :: (unit '\n' :: (indent ++ gap) ++ lines (indent ++ gap) indent closing parts rest) := by
  rw [block, if_neg hne, lines]
  simp only [List.cons_append, List.append_assoc, List.nil_append]

theorem indentedItems_ne_nil {gap indent : Text} {items : List (Value Number)} (hne : items ≠ []) :
    indentedItems gap indent items ≠ [] := by
  cases items with
  | nil => exact absurd rfl hne
  | cons v items => exact List.cons_ne_nil _ _

theorem indentedFields_ne_nil {gap indent : Text} {fields : List (Text × Value Number)} (hne : fields ≠ []) :
    indentedFields gap indent fields ≠ [] := by
  cases fields with
  | nil => exact absurd rfl hne
  | cons f fields =>
      obtain ⟨key, v⟩ := f
      exact List.cons_ne_nil _ _

mutual

/-- Where a value may begin, its indented text reads as the value. -/
theorem read_indented {gap : Text} (hgap : Blank gap) (v : Value Number) (hv : Faithful v) {indent : Text}
    (hindent : Blank indent) (p : Point) (ls levels : List Level) (hopens : p.opens ls = some levels) (rest : Text)
    (hrest : Stops rest) :
    State.read ⟨.between, p, ls⟩ (indented gap indent v ++ rest) = State.read ⟨.between, .after v, levels⟩ rest := by
  match v with
  | .null => exact read_stringify _ hv p ls levels hopens rest hrest
  | .bool _ => exact read_stringify _ hv p ls levels hopens rest hrest
  | .num _ => exact read_stringify _ hv p ls levels hopens rest hrest
  | .str _ => exact read_stringify _ hv p ls levels hopens rest hrest
  | .arr items =>
      rw [indented]
      by_cases hne : items = []
      · subst hne
        rw [indentedItems, block, if_pos rfl, List.cons_append, read_of_step (take_openBracket hopens)]
        rfl
      · rw [block_append (indentedItems_ne_nil hne), read_of_step (take_openBracket hopens),
          read_blank (blank_line (hindent.append hgap))]
        exact read_indentedItems hgap items hv hne (hindent.append hgap) hindent .first levels [] levels rfl rest
  | .obj fields =>
      rw [indented]
      by_cases hne : fields = []
      · subst hne
        rw [indentedFields, block, if_pos rfl, List.cons_append, read_of_step (take_openBrace hopens)]
        rfl
      · rw [block_append (indentedFields_ne_nil hne), read_of_step (take_openBrace hopens),
          read_blank (blank_line (hindent.append hgap))]
        exact read_indentedFields hgap fields hv.2 hne (hindent.append hgap) hindent .firstKey levels []
          (Or.inr ⟨rfl, rfl⟩) hv.1 rest

theorem read_indentedItems {gap : Text} (hgap : Blank gap) (items : List (Value Number)) (hitems : FaithfulItems items)
    (hne : items ≠ []) {inner indent : Text} (hinner : Blank inner) (hindent : Blank indent) (p : Point)
    (ls : List Level) (done : List (Value Number)) (levels : List Level)
    (hopens : p.opens ls = some (.items done :: levels)) (rest : Text) :
    State.read ⟨.between, p, ls⟩ (lines inner indent (unit ']') (indentedItems gap inner items) rest) =
      State.read ⟨.between, .after (.arr (done ++ items)), levels⟩ rest := by
  match items with
  | [v] =>
      rw [indentedItems, indentedItems, lines_singleton,
        read_indented hgap v hitems.1 hinner p ls _ hopens _ (stops_line _), ← List.cons_append,
        read_blank (blank_line hindent)]
      rfl
  | v :: w :: items =>
      have hnext := read_indentedItems hgap (w :: items) hitems.2 (List.cons_ne_nil w items) hinner hindent .value
        (.items (done ++ [v]) :: levels) (done ++ [v]) levels rfl rest
      rw [List.append_assoc, List.singleton_append, indentedItems, ← read_blank (blank_line hinner)] at hnext
      rw [indentedItems, indentedItems, lines_cons_cons,
        read_indented hgap v hitems.1 hinner p ls _ hopens _ (stops_comma _)]
      exact hnext

theorem read_indentedFields {gap : Text} (hgap : Blank gap) (fields : List (Text × Value Number))
    (hfields : FaithfulFields fields) (hne : fields ≠ []) {inner indent : Text} (hinner : Blank inner)
    (hindent : Blank indent) (p : Point) (ls : List Level) (done : List (Text × Value Number)) (hp : Keyed done p)
    (hkeys : ((done ++ fields).map Prod.fst).Nodup) (rest : Text) :
    State.read ⟨.between, p, ls⟩ (lines inner indent (unit '}') (indentedFields gap inner fields) rest) =
      State.read ⟨.between, .after (.obj (done ++ fields)), ls⟩ rest := by
  match fields with
  | (key, v) :: fields =>
      have hkey : key ∉ done.map Prod.fst := not_mem_of_nodup hkeys
      have hfield (after : Text) (hafter : Stops after) :
          State.read ⟨.between, p, ls⟩ (quote key ++ text ": " ++ indented gap inner v ++ after) =
            State.read ⟨.between, .after v, .fields done key :: ls⟩ after := by
        rw [List.append_assoc, List.append_assoc, read_quote, take_key hp, Option.bind_some]
        exact read_indented hgap v hfields.1 hinner .value (.fields done key :: ls) _ rfl after hafter
      cases fields with
      | nil =>
          rw [indentedFields, indentedFields, lines_singleton, hfield _ (stops_line _), ← List.cons_append,
            read_blank (blank_line hindent), ← setField_new hkey]
          rfl
      | cons f fields =>
          obtain ⟨next, w⟩ := f
          have hnext := read_indentedFields hgap ((next, w) :: fields) hfields.2 (List.cons_ne_nil _ fields) hinner hindent
            (.key (done ++ [(key, v)])) ls (done ++ [(key, v)]) (Or.inl rfl) (by simpa using hkeys) rest
          rw [List.append_assoc, List.singleton_append, indentedFields, ← read_blank (blank_line hinner),
            ← setField_new hkey] at hnext
          rw [indentedFields, indentedFields, lines_cons_cons, hfield _ (stops_comma _)]
          exact hnext

end

/-- What is written of a faithful value with any indentation is read as that value. -/
theorem parse_stringifyWith (space : Nat) {v : Value Number} (hv : Faithful v) : parse (stringifyWith space v) = some v := by
  rw [stringifyWith]
  split
  next => exact parse_stringify hv
  next =>
    have hread := read_indented (blank_spaces (min space 10)) v hv (List.forall_mem_nil _) .value [] [] rfl []
      fun u hu => nomatch hu
    rw [List.append_nil] at hread
    rw [parse, hread]
    rfl

end Json.IndentedRoundTrip
