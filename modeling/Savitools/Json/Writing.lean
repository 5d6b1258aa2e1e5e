import Savitools.Json.Reading

namespace Json.Writing

open Strings.CodeUnits Json.Numbers Json.Values Json.Reading

def unicodeEscape (u : UInt16) : Text :=
  [unit '\\', unit 'u', hexDigit (u.toNat / 4096), hexDigit (u.toNat / 256 % 16), hexDigit (u.toNat / 16 % 16),
    hexDigit (u.toNat % 16)]

def escapeUnit (u : UInt16) : Text :=
  match escapes.find? (fun e => e.2 = u) with
  | some (letter, _) => [unit '\\', letter]
  | none => if u < 0x20 then unicodeEscape u else [u]

/-- The content of a string literal. Surrogates that are not a pair are escaped. -/
def escapeUnits : Text → Text
  | [] => []
  | [u] => if isHighSurrogate u || isLowSurrogate u then unicodeEscape u else escapeUnit u
  | u :: v :: t =>
      if isHighSurrogate u && isLowSurrogate v then u :: v :: escapeUnits t
      else if isHighSurrogate u || isLowSurrogate u then unicodeEscape u ++ escapeUnits (v :: t)
      else escapeUnit u ++ escapeUnits (v :: t)

def quote (t : Text) : Text := unit '"' :: (escapeUnits t ++ [unit '"'])

mutual

/-- `JSON.stringify` of a value, the fields in their order. -/
def stringify : Value Number → Text
  | .null => text "null"
  | .bool b => if b then text "true" else text "false"
  | .num (.finite q) => numberText (.finite q)
  | .num (.infinite _) => text "null"
  | .str t => quote t
  | .arr items => unit '[' :: (join (unit ',') (stringifyItems items) ++ [unit ']'])
  | .obj fields => unit '{' :: (join (unit ',') (stringifyFields fields) ++ [unit '}'])

def stringifyItems : List (Value Number) → List Text
  | [] => []
  | v :: items => stringify v :: stringifyItems items

def stringifyFields : List (Text × Value Number) → List Text
  | [] => []
  | (key, v) :: fields => (quote key ++ unit ':' :: stringify v) :: stringifyFields fields

end

mutual

/-- No key twice and only numbers that are read back: what `stringify` loses nothing of. -/
def Faithful : Value Number → Prop
  | .num (.finite q) => Readable (.finite q)
  | .num (.infinite _) => False
  | .arr items => FaithfulItems items
  | .obj fields => (fields.map Prod.fst).Nodup ∧ FaithfulFields fields
  | _ => True

def FaithfulItems : List (Value Number) → Prop
  | [] => True
  | v :: items => Faithful v ∧ FaithfulItems items

def FaithfulFields : List (Text × Value Number) → Prop
  | [] => True
  | (_, v) :: fields => Faithful v ∧ FaithfulFields fields

end

theorem faithfulItems_iff {items : List (Value Number)} : FaithfulItems items ↔ ∀ v ∈ items, Faithful v := by
  induction items with
  | nil => simp [FaithfulItems]
  | cons v items ih => rw [FaithfulItems, ih, List.forall_mem_cons]

theorem faithfulFields_iff {fields : List (Text × Value Number)} : FaithfulFields fields ↔ ∀ f ∈ fields, Faithful f.2 := by
  induction fields with
  | nil => simp [FaithfulFields]
  | cons f fields ih => rw [FaithfulFields, ih, List.forall_mem_cons]

/-- The members of a literal, without those that are `undefined`. -/
def definedMembers {N : Type} (fields : List (Text × Option (Value N))) : List (Text × Value N) :=
  fields.filterMap fun f => f.2.map (Prod.mk f.1)

theorem keys_definedMembers {N : Type} (fields : List (Text × Option (Value N))) :
    ((definedMembers fields).map Prod.fst).Sublist (fields.map Prod.fst) := by
  induction fields with
  | nil => exact List.Sublist.refl _
  | cons f fields ih =>
      obtain ⟨key, v⟩ := f
      cases v with
      | none => exact ih.cons key
      | some v => exact ih.cons_cons key

theorem definedMembers_cons {N : Type} (key : Text) (v : Value N) (fields : List (Text × Option (Value N))) :
    definedMembers ((key, some v) :: fields) = (key, v) :: definedMembers fields := rfl

theorem lookup_definedMembers {N : Type} {fields : List (Text × Option (Value N))} (hkeys : (fields.map Prod.fst).Nodup)
    (name : Text) : (definedMembers fields).lookup name = (fields.lookup name).join := by
  induction fields with
  | nil => rfl
  | cons f fields ih =>
      obtain ⟨key, v⟩ := f
      obtain ⟨hkey, hrest⟩ := List.nodup_cons.mp hkeys
      by_cases hname : name = key
      · rw [List.lookup_cons, hname, beq_self_eq_true]
        cases v with
        | none =>
            refine List.lookup_eq_none_iff.mpr fun f hf => bne_iff_ne.mpr fun h => hkey ?_
            exact (keys_definedMembers fields).subset (List.mem_map.mpr ⟨f, hf, h.symm⟩)
        | some v => rw [definedMembers_cons, List.lookup_cons, beq_self_eq_true, Option.join_some]
      · rw [List.lookup_cons, beq_eq_false_iff_ne.mpr hname]
        cases v with
        | none => exact ih hrest
        | some v =>
            rw [definedMembers_cons, List.lookup_cons, beq_eq_false_iff_ne.mpr hname]
            exact ih hrest

theorem faithful_definedMembers {fields : List (Text × Option (Value Number))} (hkeys : (fields.map Prod.fst).Nodup)
    (hfields : ∀ f ∈ fields, ∀ v ∈ f.2, Faithful v) : Faithful (.obj (definedMembers fields)) := by
  refine ⟨(keys_definedMembers fields).nodup hkeys, faithfulFields_iff.mpr fun f hf => ?_⟩
  obtain ⟨g, hg, hgf⟩ := List.mem_filterMap.mp hf
  obtain ⟨v, hv, rfl⟩ := Option.map_eq_some_iff.mp hgf
  exact hfields g hg v hv

theorem faithful_of_map {α : Type} {f : α → Value Number} {o : Option α} (hf : ∀ a, Faithful (f a)) :
    ∀ v ∈ o.map f, Faithful v := by
  intro v hv
  obtain ⟨a, -, rfl⟩ := Option.map_eq_some_iff.mp hv
  exact hf a

theorem read_of_step {s s' : State} {u : UInt16} (h : s.step u = some s') (t : Text) :
    s.read (u :: t) = s'.read t := by
  rw [State.read, h, Option.bind_some]

variable (p : Point) (ls : List Level)

theorem step_backslash (seen : Text) :
    State.step ⟨.chars seen, p, ls⟩ (unit '\\') = some ⟨.escape seen, p, ls⟩ := rfl

theorem step_unicode (seen digits : Text) {u : UInt16} (hu : isHexDigit u = true) (hlen : digits.length < 3) :
    State.step ⟨.unicode seen digits, p, ls⟩ u = some ⟨.unicode seen (digits ++ [u]), p, ls⟩ := by
  simp only [State.step, hu, Bool.true_eq_false, if_false, if_pos hlen]

theorem step_lastDigit (seen digits : Text) {u : UInt16} (hu : isHexDigit u = true) (hlen : digits.length = 3) :
    State.step ⟨.unicode seen digits, p, ls⟩ u =
      some ⟨.chars (seen ++ [(hexValue (digits ++ [u])).toUInt16]), p, ls⟩ := by
  simp only [State.step, hu, Bool.true_eq_false, if_false, hlen, Nat.lt_irrefl]

/-- The four digits of an escape have the value of the unit. -/
theorem unicodeEscape_digits (u : UInt16) : ∃ a b c d, unicodeEscape u = [unit '\\', unit 'u', a, b, c, d] ∧
    (isHexDigit a = true ∧ isHexDigit b = true ∧ isHexDigit c = true ∧ isHexDigit d = true) ∧
    (hexValue [a, b, c, d]).toUInt16 = u := by
  have hdigit : ∀ n < 16, isHexDigit (hexDigit n) = true ∧ hexDigitValue (hexDigit n) = n := by decide
  have hlt : u.toNat < 65536 := u.toNat_lt
  obtain ⟨ha, hva⟩ := hdigit (u.toNat / 4096) (by omega)
  obtain ⟨hb, hvb⟩ := hdigit (u.toNat / 256 % 16) (by omega)
  obtain ⟨hc, hvc⟩ := hdigit (u.toNat / 16 % 16) (by omega)
  obtain ⟨hd, hvd⟩ := hdigit (u.toNat % 16) (by omega)
  have hvalue : hexValue [hexDigit (u.toNat / 4096), hexDigit (u.toNat / 256 % 16), hexDigit (u.toNat / 16 % 16),
      hexDigit (u.toNat % 16)] = u.toNat := by
    simp only [hexValue, List.foldl_cons, List.foldl_nil, hva, hvb, hvc, hvd]
    omega
  refine ⟨_, _, _, _, rfl, ⟨ha, hb, hc, hd⟩, ?_⟩
  rw [hvalue, Nat.toUInt16_eq, UInt16.ofNat_toNat]

theorem read_unicodeEscape (seen : Text) (u : UInt16) (rest : Text) :
    State.read ⟨.chars seen, p, ls⟩ (unicodeEscape u ++ rest) = State.read ⟨.chars (seen ++ [u]), p, ls⟩ rest := by
  obtain ⟨a, b, c, d, hescape, ⟨ha, hb, hc, hd⟩, hvalue⟩ := unicodeEscape_digits u
  have hu : State.step ⟨.escape seen, p, ls⟩ (unit 'u') = some ⟨.unicode seen [], p, ls⟩ := rfl
  simp only [hescape, List.cons_append, List.nil_append]
  rw [read_of_step (step_backslash p ls seen), read_of_step hu]
  refine (read_of_step (step_unicode p ls seen [] ha (by decide)) _).trans ?_
  refine (read_of_step (step_unicode p ls seen [a] hb (Nat.lt_succ_of_lt (Nat.lt_succ_self 1))) _).trans ?_
  refine (read_of_step (step_unicode p ls seen [a, b] hc (Nat.lt_succ_self 2)) _).trans ?_
  refine (read_of_step (step_lastDigit p ls seen [a, b, c] hd rfl) _).trans ?_
  rw [List.cons_append, List.cons_append, List.cons_append, List.nil_append, hvalue]

theorem step_plain {seen : Text} {u : UInt16} (hquote : u ≠ unit '"') (hslash : u ≠ unit '\\') (hlow : ¬u < 0x20) :
    State.step ⟨.chars seen, p, ls⟩ u = some ⟨.chars (seen ++ [u]), p, ls⟩ := by
  simp only [State.step, if_neg hquote, if_neg hslash, if_neg hlow]

theorem read_escapeUnit (seen : Text) (u : UInt16) (rest : Text) :
    State.read ⟨.chars seen, p, ls⟩ (escapeUnit u ++ rest) = State.read ⟨.chars (seen ++ [u]), p, ls⟩ rest := by
  rw [escapeUnit]
  split
  next letter v hfind =>
    have hv : v = u := by simpa using List.find?_some hfind
    have hall : escapes.all (fun e => e.1 ≠ unit 'u' ∧ unescape e.1 = some e.2) = true := by decide
    obtain ⟨hne, hback⟩ := of_decide_eq_true (List.all_eq_true.mp hall _ (List.mem_of_find?_eq_some hfind))
    have hstep : State.step ⟨.escape seen, p, ls⟩ letter = some ⟨.chars (seen ++ [u]), p, ls⟩ := by
      simp only [State.step, if_neg hne, hback, Option.map_some, hv]
    rw [List.cons_append, read_of_step (step_backslash p ls seen), List.cons_append, read_of_step hstep, List.nil_append]
  next hnone =>
    split
    next => exact read_unicodeEscape p ls seen u rest
    next hlow =>
      have hne : ∀ e ∈ escapes, e.2 ≠ u := fun e he => by simpa using List.find?_eq_none.mp hnone e he
      have hquote : u ≠ unit '"' := (hne (unit '"', unit '"') (by decide)).symm
      have hslash : u ≠ unit '\\' := (hne (unit '\\', unit '\\') (by decide)).symm
      rw [List.cons_append, read_of_step (step_plain p ls hquote hslash hlow), List.nil_append]

theorem step_surrogate {seen : Text} {u : UInt16} (hu : 0xD800 ≤ u) :
    State.step ⟨.chars seen, p, ls⟩ u = some ⟨.chars (seen ++ [u]), p, ls⟩ := by
  have hge : 0xD800 ≤ u.toNat := UInt16.le_iff_toNat_le.mp hu
  apply step_plain
  · rintro rfl
    exact absurd hge (by decide)
  · rintro rfl
    exact absurd hge (by decide)
  · intro hlow
    have hlt : u.toNat < 0x20 := UInt16.lt_iff_toNat_lt.mp hlow
    omega

theorem isHighSurrogate_ge {u : UInt16} (hu : isHighSurrogate u = true) : 0xD800 ≤ u := by
  rw [isHighSurrogate, Bool.and_eq_true] at hu
  exact of_decide_eq_true hu.1

theorem isLowSurrogate_ge {u : UInt16} (hu : isLowSurrogate u = true) : 0xD800 ≤ u := by
  rw [isLowSurrogate, Bool.and_eq_true] at hu
  exact UInt16.le_trans (by decide) (of_decide_eq_true hu.1)

/-- A string literal reads as the text that was written. -/
theorem read_escapeUnits (t seen rest : Text) :
    State.read ⟨.chars seen, p, ls⟩ (escapeUnits t ++ rest) = State.read ⟨.chars (seen ++ t), p, ls⟩ rest := by
  fun_induction escapeUnits t generalizing seen with
  | case1 => simp
  | case2 u hlone => exact read_unicodeEscape p ls seen u rest
  | case3 u hlone => exact read_escapeUnit p ls seen u rest
  | case4 u v t hpair ih =>
      rw [Bool.and_eq_true] at hpair
      rw [List.cons_append, read_of_step (step_surrogate p ls (isHighSurrogate_ge hpair.1)), List.cons_append,
        read_of_step (step_surrogate p ls (isLowSurrogate_ge hpair.2)), ih]
      simp
  | case5 u v t hpair hlone ih => rw [List.append_assoc, read_unicodeEscape, ih, List.append_assoc, List.singleton_append]
  | case6 u v t hpair hlone ih => rw [List.append_assoc, read_escapeUnit, ih, List.append_assoc, List.singleton_append]

theorem read_quote (t rest : Text) :
    State.read ⟨.between, p, ls⟩ (quote t ++ rest) = (State.take ⟨.between, p, ls⟩ (.text t)).bind (·.read rest) := by
  have hopen : State.step ⟨.between, p, ls⟩ (unit '"') = some ⟨.chars [], p, ls⟩ := rfl
  rw [quote, List.cons_append, read_of_step hopen, List.append_assoc, read_escapeUnits]
  rfl

end Json.Writing
