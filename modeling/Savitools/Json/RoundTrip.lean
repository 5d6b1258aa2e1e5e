import Savitools.Json.Writing

namespace Json.RoundTrip

open Strings.CodeUnits Json.Numbers Json.Values Json.Reading Json.Writing

/-- What follows a number or a word and is no part of it. -/
def Stops (rest : Text) : Prop := ∀ u, rest.head? = some u → isNumberUnit u = false ∧ isLetter u = false

theorem stops_cons {u : UInt16} (hu : isNumberUnit u = false ∧ isLetter u = false) (rest : Text) : Stops (u :: rest) := by
  rintro v hv
  cases hv
  exact hu

variable {p : Point} {ls levels : List Level}

theorem read_number (seen t rest : Text) (ht : ∀ u ∈ t, isNumberUnit u = true) :
    State.read ⟨.number seen, p, ls⟩ (t ++ rest) = State.read ⟨.number (seen ++ t), p, ls⟩ rest := by
  induction t generalizing seen with
  | nil => rw [List.append_nil, List.nil_append]
  | cons u t ih =>
      have hu : State.step ⟨.number seen, p, ls⟩ u = some ⟨.number (seen ++ [u]), p, ls⟩ := by
        simp only [State.step, if_pos (ht u List.mem_cons_self)]
      rw [List.cons_append, read_of_step hu, ih _ (fun v hv => ht v (List.mem_cons_of_mem u hv)), List.append_assoc,
        List.singleton_append]

theorem read_word (seen t rest : Text) (ht : ∀ u ∈ t, isLetter u = true) :
    State.read ⟨.word seen, p, ls⟩ (t ++ rest) = State.read ⟨.word (seen ++ t), p, ls⟩ rest := by
  induction t generalizing seen with
  | nil => rw [List.append_nil, List.nil_append]
  | cons u t ih =>
      have hu : State.step ⟨.word seen, p, ls⟩ u = some ⟨.word (seen ++ [u]), p, ls⟩ := by
        simp only [State.step, if_pos (ht u List.mem_cons_self)]
      rw [List.cons_append, read_of_step hu, ih _ (fun v hv => ht v (List.mem_cons_of_mem u hv)), List.append_assoc,
        List.singleton_append]

theorem take_scalar (hopens : p.opens ls = some levels) (lexeme : Lexeme) (v : Value Number) :
    State.take ⟨lexeme, p, ls⟩ (.scalar v) = some ⟨.between, .after v, levels⟩ := by
  cases p with
  | value => cases hopens; rfl
  | first => cases hopens; rfl
  | _ => cases hopens

theorem read_number_end {seen rest : Text} {n : Number} (hn : readNumber seen = some n)
    (hopens : p.opens ls = some levels) (hrest : Stops rest) :
    State.read ⟨.number seen, p, ls⟩ rest = State.read ⟨.between, .after (.num n), levels⟩ rest := by
  cases rest with
  | nil => simp only [State.read, State.finish, hn, Option.bind_some, take_scalar hopens]
  | cons u t =>
      simp only [State.read, State.step, (hrest u rfl).1, Bool.false_eq_true, if_false, hn, Option.bind_some,
        take_scalar hopens]

theorem read_word_end {seen rest : Text} {v : Value Number} (hv : wordValue seen = some v)
    (hopens : p.opens ls = some levels) (hrest : Stops rest) :
    State.read ⟨.word seen, p, ls⟩ rest = State.read ⟨.between, .after v, levels⟩ rest := by
  cases rest with
  | nil => simp only [State.read, State.finish, hv, Option.bind_some, take_scalar hopens]
  | cons u t =>
      simp only [State.read, State.step, (hrest u rfl).2, Bool.false_eq_true, if_false, hv, Option.bind_some,
        take_scalar hopens]

theorem take_text (hopens : p.opens ls = some levels) (t : Text) :
    State.take ⟨.between, p, ls⟩ (.text t) = some ⟨.between, .after (.str t), levels⟩ := by
  cases p with
  | value => cases hopens; rfl
  | first => cases hopens; rfl
  | _ => cases hopens

theorem take_openBracket (hopens : p.opens ls = some levels) :
    State.step ⟨.between, p, ls⟩ (unit '[') = some ⟨.between, .first, levels⟩ := by
  cases p with
  | value => cases hopens; rfl
  | first => cases hopens; rfl
  | _ => cases hopens

theorem take_openBrace (hopens : p.opens ls = some levels) :
    State.step ⟨.between, p, ls⟩ (unit '{') = some ⟨.between, .firstKey, levels⟩ := by
  cases p with
  | value => cases hopens; rfl
  | first => cases hopens; rfl
  | _ => cases hopens

theorem isBlank_of_isDigit {u : UInt16} (hu : isDigit u = true) : isBlank u = false := by
  apply Bool.eq_false_iff.mpr
  intro hblank
  simp only [isBlank, Bool.or_eq_true, beq_iff_eq] at hblank
  rcases hblank with ((rfl | rfl) | rfl) | rfl <;> exact absurd hu (by decide)

theorem start_number {u : UInt16} (hu : u = unit '-' ∨ isDigit u = true) :
    State.step ⟨.between, p, ls⟩ u = some ⟨.number [u], p, ls⟩ := by
  have hblank : isBlank u = false := hu.elim (fun h => h ▸ rfl) isBlank_of_isDigit
  have hquote : u ≠ unit '"' := by
    rintro rfl
    exact absurd hu (by decide)
  simp only [State.step, State.start, hblank, Bool.false_eq_true, if_false, if_neg hquote, if_pos hu]

theorem read_wordText {w : Text} {v : Value Number} (hv : (w, v) ∈ words) (hopens : p.opens ls = some levels)
    {rest : Text} (hrest : Stops rest) :
    State.read ⟨.between, p, ls⟩ (w ++ rest) = State.read ⟨.between, .after v, levels⟩ rest := by
  have hword {u : UInt16} {t : Text} (hu : State.step ⟨.between, p, ls⟩ u = some ⟨.word [u], p, ls⟩)
      (ht : t.all isLetter = true) (hvalue : wordValue (u :: t) = some v) :
      State.read ⟨.between, p, ls⟩ (u :: (t ++ rest)) = State.read ⟨.between, .after v, levels⟩ rest := by
    rw [read_of_step hu, read_word _ _ _ (List.all_eq_true.mp ht)]
    exact read_word_end hvalue hopens hrest
  rw [words, List.mem_cons, List.mem_cons, List.mem_singleton] at hv
  obtain ⟨⟨⟩⟩ | ⟨⟨⟩⟩ | ⟨⟨⟩⟩ := hv
  · exact @hword (unit 'n') (text "ull") rfl (by decide) rfl
  · exact @hword (unit 't') (text "rue") rfl (by decide) rfl
  · exact @hword (unit 'f') (text "alse") rfl (by decide) rfl

theorem read_numberText {n : Number} (hn : Readable n) (hopens : p.opens ls = some levels) {rest : Text}
    (hrest : Stops rest) :
    State.read ⟨.between, p, ls⟩ (numberText n ++ rest) = State.read ⟨.between, .after (.num n), levels⟩ rest := by
  obtain ⟨⟨u, t, htext, hu⟩, hunits, hread⟩ := hn
  rw [htext] at hunits hread ⊢
  rw [List.cons_append, read_of_step (start_number hu), read_number _ _ _ (fun v hv => hunits v (List.mem_cons_of_mem u hv))]
  exact read_number_end hread hopens hrest

theorem join_cons_cons (separator : UInt16) (a b : Text) (ts : List Text) :
    join separator (a :: b :: ts) = a ++ separator :: join separator (b :: ts) := by
  rw [join, List.intercalate_cons_cons, List.append_assoc, List.singleton_append, join]

theorem join_singleton (separator : UInt16) (a : Text) : join separator [a] = a := by
  rw [join, List.intercalate_singleton]

/-- A key that is not repeated is new where it is read. -/
theorem not_mem_of_nodup {done fields : List (Text × Value Number)} {key : Text} {v : Value Number}
    (hkeys : ((done ++ (key, v) :: fields).map Prod.fst).Nodup) : key ∉ done.map Prod.fst := by
  rw [List.map_append, List.nodup_append] at hkeys
  exact fun hmem => hkeys.2.2 key hmem key List.mem_cons_self rfl

theorem setField_new {done : List (Text × Value Number)} {key : Text} (hkey : key ∉ done.map Prod.fst)
    (v : Value Number) : setField done key v = done ++ [(key, v)] := by
  have hany : done.any (fun f => decide (f.1 = key)) = false := by
    refine List.any_eq_false.mpr (fun f hf heq => hkey ?_)
    rw [← of_decide_eq_true heq]
    exact List.mem_map_of_mem hf
  rw [setField, hany]
  rfl

theorem stops_comma (rest : Text) : Stops (unit ',' :: rest) := stops_cons (by decide) rest

theorem stops_closeBracket (rest : Text) : Stops (unit ']' :: rest) := stops_cons (by decide) rest

theorem stops_closeBrace (rest : Text) : Stops (unit '}' :: rest) := stops_cons (by decide) rest

/-- The places where the key of another field may come. -/
def Keyed (done : List (Text × Value Number)) (p : Point) : Prop := p = .key done ∨ (p = .firstKey ∧ done = [])

theorem take_key {done : List (Text × Value Number)} (hp : Keyed done p) (key : Text) :
    State.take ⟨.between, p, ls⟩ (.text key) = some ⟨.between, .colon done key, ls⟩ := by
  obtain rfl | ⟨rfl, rfl⟩ := hp <;> rfl

mutual

/-- Where a value may begin, its text reads as the value. -/
theorem read_stringify (v : Value Number) (hv : Faithful v) (p : Point) (ls levels : List Level)
    (hopens : p.opens ls = some levels) (rest : Text) (hrest : Stops rest) :
    State.read ⟨.between, p, ls⟩ (stringify v ++ rest) = State.read ⟨.between, .after v, levels⟩ rest := by
  match v with
  | .null =>
      rw [stringify]
      exact read_wordText (by simp [words]) hopens hrest
  | .bool true =>
      rw [stringify, if_pos rfl]
      exact read_wordText (by simp [words]) hopens hrest
  | .bool false =>
      rw [stringify, if_neg Bool.false_ne_true]
      exact read_wordText (by simp [words]) hopens hrest
  | .num (.finite q) => exact read_numberText hv hopens hrest
  | .str t => rw [stringify, read_quote, take_text hopens, Option.bind_some]
  | .arr items =>
      rw [stringify, List.cons_append, read_of_step (take_openBracket hopens), List.append_assoc, List.singleton_append]
      cases items with
      | nil => rfl
      | cons v items => exact read_items (v :: items) hv (List.cons_ne_nil v items) .first levels [] levels rfl rest
  | .obj fields =>
      rw [stringify, List.cons_append, read_of_step (take_openBrace hopens), List.append_assoc, List.singleton_append]
      cases fields with
      | nil => rfl
      | cons f fields =>
          exact read_fields (f :: fields) hv.2 (List.cons_ne_nil f fields) .firstKey levels [] (Or.inr ⟨rfl, rfl⟩) hv.1 rest

theorem read_items (items : List (Value Number)) (hitems : FaithfulItems items) (hne : items ≠ []) (p : Point)
    (ls : List Level) (done : List (Value Number)) (levels : List Level)
    (hopens : p.opens ls = some (.items done :: levels)) (rest : Text) :
    State.read ⟨.between, p, ls⟩ (join (unit ',') (stringifyItems items) ++ unit ']' :: rest) =
      State.read ⟨.between, .after (.arr (done ++ items)), levels⟩ rest := by
  match items with
  | [v] =>
      rw [stringifyItems, stringifyItems, join_singleton,
        read_stringify v hitems.1 p ls _ hopens _ (stops_closeBracket rest)]
      rfl
  | v :: w :: items =>
      have hnext := read_items (w :: items) hitems.2 (List.cons_ne_nil w items) .value
        (.items (done ++ [v]) :: levels) (done ++ [v]) levels rfl rest
      rw [List.append_assoc, List.singleton_append] at hnext
      rw [stringifyItems, stringifyItems, join_cons_cons, List.append_assoc, List.cons_append,
        read_stringify v hitems.1 p ls _ hopens _ (stops_comma _)]
      exact hnext

theorem read_fields (fields : List (Text × Value Number)) (hfields : FaithfulFields fields) (hne : fields ≠ [])
    (p : Point) (ls : List Level) (done : List (Text × Value Number)) (hp : Keyed done p)
    (hkeys : ((done ++ fields).map Prod.fst).Nodup) (rest : Text) :
    State.read ⟨.between, p, ls⟩ (join (unit ',') (stringifyFields fields) ++ unit '}' :: rest) =
      State.read ⟨.between, .after (.obj (done ++ fields)), ls⟩ rest := by
  match fields with
  | (key, v) :: fields =>
      have hkey : key ∉ done.map Prod.fst := not_mem_of_nodup hkeys
      have hfield (after : Text) (hafter : Stops after) :
          State.read ⟨.between, p, ls⟩ (quote key ++ unit ':' :: stringify v ++ after) =
            State.read ⟨.between, .after v, .fields done key :: ls⟩ after := by
        rw [List.append_assoc, read_quote, take_key hp, Option.bind_some]
        exact read_stringify v hfields.1 .value (.fields done key :: ls) _ rfl after hafter
      cases fields with
      | nil =>
          rw [stringifyFields, stringifyFields, join_singleton, hfield _ (stops_closeBrace rest), ← setField_new hkey]
          rfl
      | cons f fields =>
          have hnext := read_fields (f :: fields) hfields.2 (List.cons_ne_nil f fields) (.key (done ++ [(key, v)])) ls
            (done ++ [(key, v)]) (Or.inl rfl) (by simpa using hkeys) rest
          rw [List.append_assoc, List.singleton_append, ← setField_new hkey] at hnext
          rw [stringifyFields, stringifyFields, join_cons_cons, List.append_assoc, List.cons_append,
            hfield _ (stops_comma _)]
          exact hnext

end

/-- What `stringify` writes of a faithful value, `parse` reads as that value. -/
theorem parse_stringify {v : Value Number} (hv : Faithful v) : parse (stringify v) = some v := by
  have hread := read_stringify v hv .value [] [] rfl [] (fun u hu => nomatch hu)
  rw [List.append_nil] at hread
  rw [parse, hread]
  rfl

theorem stringify_inj {v w : Value Number} (hv : Faithful v) (hw : Faithful w) (h : stringify v = stringify w) : v = w :=
  Option.some.inj ((parse_stringify hv).symm.trans ((congrArg parse h).trans (parse_stringify hw)))

end Json.RoundTrip
