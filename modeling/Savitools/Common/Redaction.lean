import Savitools.Json.Values
import Savitools.Strings.Replace

namespace Savitools.Common.Redaction

open Strings.CodeUnits Strings.Replace Json.Values

def redacted : Text := text "[REDACTED]"

def isJwtUnit (u : UInt16) : Bool :=
  between 'A' 'Z' u || between 'a' 'z' u || isDigit u || u == unit '_' || u == unit '-'

def isSeedUnit (u : UInt16) : Bool := between 'A' 'Z' u || between '2' '7' u

def isBearerUnit (u : UInt16) : Bool := isJwtUnit u || u == unit '.'

/-- What follows the first segment of a token. A segment does not hold the dot, so it takes
all units that it can. -/
def afterSegment (t : Text) : Option Text :=
  if t.takeWhile isJwtUnit = [] then none else some (t.dropWhile isJwtUnit)

def afterDot : Text → Option Text
  | [] => none
  | u :: rest => if u = unit '.' then some rest else none

/-- The length of the match of `JWT_REGEX` at the start of a text. -/
def jwtMatch (t : Text) : Option Nat :=
  ((((afterSegment t).bind afterDot).bind afterSegment).bind afterDot).bind afterSegment |>.map
    (fun rest => t.length - rest.length)

/-- The length of the match of `SEED_REGEX` at the start of a text. -/
def seedMatch : Text → Option Nat
  | [] => none
  | u :: rest => if u = unit 'S' ∧ 55 ≤ (rest.takeWhile isSeedUnit).length then some 56 else none

def bearerPrefix : Text := text "Bearer "

/-- The bearer pattern is anchored, so it matches at most once. -/
def redactBearer (t : Text) : Text :=
  if (t.take bearerPrefix.length).map toLowerAscii = bearerPrefix.map toLowerAscii ∧
      (t.drop bearerPrefix.length).takeWhile isBearerUnit ≠ [] then
    bearerPrefix ++ redacted ++ (t.drop bearerPrefix.length).dropWhile isBearerUnit
  else t

def redactString (value : Text) : Text :=
  if value = [] then value
  else redactBearer (replaceAll seedMatch redacted (replaceAll jwtMatch redacted value))

def sensitiveKeyPatterns : List Text :=
  [text "key", text "jwt", text "token", text "secret", text "signature", text "signing_key", text "private",
    text "password", text "authorization", text "credential", text "cookie"]

/-- The patterns are in lower case and are looked for anywhere in the key. -/
def isSensitiveKey (key : Text) : Bool :=
  sensitiveKeyPatterns.any (fun pattern => pattern <:+: key.map toLowerAscii)

def isSensitiveHint (keyHint : Option Text) : Bool :=
  keyHint.any (fun key => key != [] && isSensitiveKey key)

variable {N : Type}

mutual

def redactValue (keyHint : Option Text) (value : Value N) : Value N :=
  if isSensitiveHint keyHint then .str redacted
  else
    match value with
    | .str t => .str (redactString t)
    | .arr items => .arr (redactItems keyHint items)
    | .obj fields => .obj (redactFields fields)
    | .null => .null
    | .bool b => .bool b
    | .num n => .num n

def redactItems (keyHint : Option Text) : List (Value N) → List (Value N)
  | [] => []
  | item :: items => redactValue keyHint item :: redactItems keyHint items

/-- The names of an object's members are distinct, so each assignment adds one; but an
assignment to `__proto__` sets no member. -/
def redactFields : List (Text × Value N) → List (Text × Value N)
  | [] => []
  | (k, v) :: fields =>
      if k = text "__proto__" then redactFields fields else (k, redactValue (some k) v) :: redactFields fields

end

end Savitools.Common.Redaction

namespace Savitools.Common.RedactedValues

open Strings.CodeUnits Strings.Replace Json.Values Redaction

def IsSegment (t : Text) : Prop := t ≠ [] ∧ ∀ u ∈ t, isJwtUnit u = true

/-- What `JWT_REGEX` matches. -/
def IsJwt (t : Text) : Prop :=
  ∃ header payload signature, IsSegment header ∧ IsSegment payload ∧ IsSegment signature ∧
    t = header ++ unit '.' :: (payload ++ unit '.' :: signature)

/-- What `SEED_REGEX` matches. -/
def IsSeed (t : Text) : Prop :=
  ∃ rest, rest.length = 55 ∧ (∀ u ∈ rest, isSeedUnit u = true) ∧ t = unit 'S' :: rest

theorem IsSegment.not_mem {t : Text} {u : UInt16} (ht : IsSegment t) (hu : isJwtUnit u = false) : u ∉ t := by
  intro hm
  rw [ht.2 u hm] at hu
  cases hu

theorem IsSegment.takeWhile_append {t : Text} (ht : IsSegment t) (rest : Text) :
    (t ++ rest).takeWhile isJwtUnit = t ++ rest.takeWhile isJwtUnit :=
  List.takeWhile_append_of_pos ht.2

theorem afterSegment_append {t : Text} (ht : IsSegment t) (rest : Text) :
    afterSegment (t ++ unit '.' :: rest) = some (unit '.' :: rest) := by
  have hdot : isJwtUnit (unit '.') = false := by decide
  rw [afterSegment, ht.takeWhile_append, List.takeWhile_cons_of_neg (by simp [hdot]), List.append_nil, if_neg ht.1,
    List.dropWhile_append_of_pos ht.2, List.dropWhile_cons_of_neg (by simp [hdot])]

theorem afterSegment_isSome {t : Text} (ht : IsSegment t) (rest : Text) : ∃ r, afterSegment (t ++ rest) = some r := by
  rw [afterSegment, ht.takeWhile_append, if_neg (by simp [ht.1])]
  exact ⟨_, rfl⟩

theorem afterSegment_eq_some {t rest : Text} (h : afterSegment t = some rest) :
    ∃ segment, IsSegment segment ∧ t = segment ++ rest := by
  rw [afterSegment] at h
  split at h
  next => cases h
  next hne =>
    cases h
    exact ⟨t.takeWhile isJwtUnit, ⟨hne, List.all_eq_true.mp List.all_takeWhile⟩, List.takeWhile_append_dropWhile.symm⟩

theorem afterDot_eq_some {t rest : Text} (h : afterDot t = some rest) : t = unit '.' :: rest := by
  cases t with
  | nil => cases h
  | cons u t =>
      rw [afterDot] at h
      split at h
      next hu => rw [hu, Option.some.inj h]
      next => cases h

theorem recognises_jwt : Recognises jwtMatch IsJwt := by
  intro t
  constructor
  · rintro hnone w ⟨rest, rfl⟩ ⟨header, payload, signature, hheader, hpayload, hsignature, rfl⟩
    obtain ⟨r, hr⟩ := afterSegment_isSome hsignature rest
    simp [jwtMatch, afterSegment_append hheader, afterSegment_append hpayload, afterDot, hr] at hnone
  · intro hfree
    cases hmatch : jwtMatch t with
    | none => rfl
    | some n =>
        rw [jwtMatch] at hmatch
        simp only [Option.map_eq_some_iff, Option.bind_eq_some_iff] at hmatch
        obtain ⟨t₅, ⟨t₄, ⟨t₃, ⟨t₂, ⟨t₁, h₁, h₂⟩, h₃⟩, h₄⟩, h₅⟩, -⟩ := hmatch
        obtain ⟨header, hheader, rfl⟩ := afterSegment_eq_some h₁
        obtain rfl := afterDot_eq_some h₂
        obtain ⟨payload, hpayload, rfl⟩ := afterSegment_eq_some h₃
        obtain rfl := afterDot_eq_some h₄
        obtain ⟨signature, hsignature, rfl⟩ := afterSegment_eq_some h₅
        exact absurd ⟨header, payload, signature, hheader, hpayload, hsignature, rfl⟩
          (hfree _ ⟨t₅, by simp⟩)

theorem recognises_seed : Recognises seedMatch IsSeed := by
  intro t
  constructor
  · rintro hnone w ⟨after, rfl⟩ ⟨rest, hlength, hunits, rfl⟩
    rw [List.cons_append, seedMatch, List.takeWhile_append_of_pos hunits, List.length_append, hlength,
      if_pos ⟨rfl, Nat.le_add_right _ _⟩] at hnone
    cases hnone
  · intro hfree
    cases t with
    | nil => rfl
    | cons u rest =>
        rw [seedMatch]
        split
        next h =>
          have htake : (rest.takeWhile isSeedUnit).take 55 <+: rest :=
            (List.take_prefix _ _).trans (List.takeWhile_prefix _)
          refine absurd ⟨(rest.takeWhile isSeedUnit).take 55, ?_, ?_, by rw [h.1]⟩
            (hfree (u :: (rest.takeWhile isSeedUnit).take 55) (List.cons_prefix_cons.mpr ⟨rfl, htake⟩))
          · rw [List.length_take, Nat.min_eq_left h.2]
          · exact fun v hv => List.all_eq_true.mp List.all_takeWhile v (List.mem_of_mem_take hv)
        next => rfl

theorem dot_mem_of_isJwt (t : Text) (ht : IsJwt t) : unit '.' ∈ t := by
  obtain ⟨header, payload, signature, -, -, -, rfl⟩ := ht
  exact List.mem_append_right _ List.mem_cons_self

theorem length_of_isSeed (t : Text) (ht : IsSeed t) : t.length = 56 := by
  obtain ⟨rest, hlength, -, rfl⟩ := ht
  rw [List.length_cons, hlength]

theorem avoids_jwt : Avoids IsJwt (unit '[') (unit ']') := by
  rintro t ht
  refine ⟨List.ne_nil_of_mem (dot_mem_of_isJwt t ht), ?_⟩
  obtain ⟨header, payload, signature, hheader, hpayload, hsignature, rfl⟩ := ht
  have hnot : ∀ u, isJwtUnit u = false → u ≠ unit '.' →
      u ∉ header ++ unit '.' :: (payload ++ unit '.' :: signature) := by
    intro u hu hdot
    simp [hheader.not_mem hu, hpayload.not_mem hu, hsignature.not_mem hu, hdot]
  exact ⟨hnot _ (by decide) (by decide), hnot _ (by decide) (by decide)⟩

theorem avoids_seed : Avoids IsSeed (unit '[') (unit ']') := by
  rintro t ⟨rest, -, hunits, rfl⟩
  have hnot : ∀ u, isSeedUnit u = false → u ≠ unit 'S' → u ∉ unit 'S' :: rest := by
    intro u hu hs hm
    rcases List.mem_cons.mp hm with h | h
    · exact hs h
    · rw [hunits u h] at hu
      cases hu
  exact ⟨List.cons_ne_nil _ _, hnot _ (by decide) (by decide), hnot _ (by decide) (by decide)⟩

/-- What a redacted text must not hold. -/
def Clean (t : Text) : Prop := Free IsJwt t ∧ Free IsSeed t

theorem redacted_eq : redacted = unit '[' :: text "REDACTED" ++ [unit ']'] := by decide

theorem clean_redacted : Clean redacted :=
  ⟨free_of_mem dot_mem_of_isJwt (by decide), free_of_length length_of_isSeed (by decide)⟩

theorem free_jwt_replaceAll (t : Text) : Free IsJwt (replaceAll jwtMatch redacted t) := by
  rw [redacted_eq]
  exact free_replaceFrom recognises_jwt avoids_jwt (redacted_eq ▸ clean_redacted.1) 0 t

theorem clean_replaceAll_seed {t : Text} (ht : Free IsJwt t) : Clean (replaceAll seedMatch redacted t) := by
  rw [redacted_eq]
  exact ⟨ht.replaceFrom avoids_jwt (redacted_eq ▸ clean_redacted.1) 0,
    free_replaceFrom recognises_seed avoids_seed (redacted_eq ▸ clean_redacted.2) 0 t⟩

theorem bearerPrefix_append (rest : Text) :
    bearerPrefix ++ redacted ++ rest = text "Bearer [REDACTED" ++ unit ']' :: rest := by
  have hstart : bearerPrefix ++ redacted = text "Bearer [REDACTED" ++ [unit ']'] := by decide
  rw [hstart, List.append_assoc]
  rfl

theorem clean_redactBearer {t : Text} (ht : Clean t) : Clean (redactBearer t) := by
  rw [redactBearer]
  split
  next =>
    have hsuffix : (t.drop bearerPrefix.length).dropWhile isBearerUnit <:+: t :=
      ((List.dropWhile_suffix _).trans (List.drop_suffix _ _)).isInfix
    rw [bearerPrefix_append]
    exact ⟨(free_of_mem dot_mem_of_isJwt (by decide)).append (ht.1.of_isInfix hsuffix) avoids_jwt,
      (free_of_length length_of_isSeed (by decide)).append (ht.2.of_isInfix hsuffix) avoids_seed⟩
  next => exact ht

theorem clean_redactString (value : Text) : Clean (redactString value) := by
  rw [redactString]
  split
  next hempty =>
    rw [hempty]
    exact ⟨free_of_mem dot_mem_of_isJwt (by decide), free_of_length length_of_isSeed (by decide)⟩
  next => exact clean_redactBearer (clean_replaceAll_seed (free_jwt_replaceAll value))

theorem redactBearer_redacted (rest : Text) :
    redactBearer (bearerPrefix ++ redacted ++ rest) = bearerPrefix ++ redacted ++ rest := by
  rw [redactBearer, if_neg]
  rintro ⟨-, hne⟩
  rw [List.append_assoc, List.drop_left] at hne
  exact hne rfl

theorem redactBearer_redactBearer (t : Text) : redactBearer (redactBearer t) = redactBearer t := by
  by_cases h : (t.take bearerPrefix.length).map toLowerAscii = bearerPrefix.map toLowerAscii ∧
      (t.drop bearerPrefix.length).takeWhile isBearerUnit ≠ []
  · have hmatch : redactBearer t =
        bearerPrefix ++ redacted ++ (t.drop bearerPrefix.length).dropWhile isBearerUnit := if_pos h
    rw [hmatch, redactBearer_redacted]
  · have hnone : redactBearer t = t := if_neg h
    rw [hnone, hnone]

theorem redactString_of_clean {t : Text} (ht : Clean t) (hbearer : redactBearer t = t) : redactString t = t := by
  have hjwt : replaceAll jwtMatch redacted t = t := replaceFrom_of_free recognises_jwt ht.1
  have hseed : replaceAll seedMatch redacted t = t := replaceFrom_of_free recognises_seed ht.2
  rw [redactString, hjwt, hseed, hbearer, ite_self]

theorem redactString_redactString (value : Text) : redactString (redactString value) = redactString value := by
  refine redactString_of_clean (clean_redactString value) ?_
  rw [redactString]
  split
  next hempty =>
    rw [hempty]
    decide
  next => exact redactBearer_redactBearer _

variable {N : Type}

mutual

def strings : Value N → List Text
  | .str t => [t]
  | .arr items => itemStrings items
  | .obj fields => fieldStrings fields
  | .null | .bool _ | .num _ => []

def itemStrings : List (Value N) → List Text
  | [] => []
  | item :: items => strings item ++ itemStrings items

def fieldStrings : List (Text × Value N) → List Text
  | [] => []
  | (_, v) :: fields => strings v ++ fieldStrings fields

end

mutual

/-- The names of all members within a value. -/
def names : Value N → List Text
  | .arr items => itemNames items
  | .obj fields => fieldNames fields
  | .null | .bool _ | .num _ | .str _ => []

def itemNames : List (Value N) → List Text
  | [] => []
  | item :: items => names item ++ itemNames items

def fieldNames : List (Text × Value N) → List Text
  | [] => []
  | (k, v) :: fields => k :: names v ++ fieldNames fields

end

theorem redactValue_of_sensitive {keyHint : Option Text} (h : isSensitiveHint keyHint = true) (value : Value N) :
    redactValue keyHint value = .str redacted := by
  cases value <;> rw [redactValue, if_pos h]

theorem redactValue_of_not_sensitive {keyHint : Option Text} (h : ¬isSensitiveHint keyHint = true) (value : Value N) :
    redactValue keyHint value =
      match value with
      | .str t => .str (redactString t)
      | .arr items => .arr (redactItems keyHint items)
      | .obj fields => .obj (redactFields fields)
      | .null => .null
      | .bool b => .bool b
      | .num n => .num n := by
  cases value <;> rw [redactValue, if_neg h]

mutual

theorem clean_redactValue (keyHint : Option Text) (value : Value N) :
    ∀ t ∈ strings (redactValue keyHint value), Clean t := by
  by_cases h : isSensitiveHint keyHint = true
  · rw [redactValue_of_sensitive h]
    exact List.forall_mem_singleton.mpr clean_redacted
  · rw [redactValue_of_not_sensitive h]
    cases value with
    | str t => exact List.forall_mem_singleton.mpr (clean_redactString t)
    | arr items => exact clean_redactItems keyHint items
    | obj fields => exact clean_redactFields fields
    | null => exact List.forall_mem_nil _
    | bool b => exact List.forall_mem_nil _
    | num n => exact List.forall_mem_nil _

theorem clean_redactItems (keyHint : Option Text) (items : List (Value N)) :
    ∀ t ∈ itemStrings (redactItems keyHint items), Clean t := by
  cases items with
  | nil => exact List.forall_mem_nil _
  | cons item items =>
      rw [redactItems, itemStrings]
      exact List.forall_mem_append.mpr ⟨clean_redactValue keyHint item, clean_redactItems keyHint items⟩

theorem clean_redactFields (fields : List (Text × Value N)) :
    ∀ t ∈ fieldStrings (redactFields fields), Clean t := by
  match fields with
  | [] => exact List.forall_mem_nil _
  | (k, v) :: fields =>
      rw [redactFields]
      split
      next => exact clean_redactFields fields
      next =>
        rw [fieldStrings]
        exact List.forall_mem_append.mpr ⟨clean_redactValue (some k) v, clean_redactFields fields⟩

end

mutual

theorem redactValue_redactValue (keyHint : Option Text) (value : Value N) :
    redactValue keyHint (redactValue keyHint value) = redactValue keyHint value := by
  by_cases h : isSensitiveHint keyHint = true
  · rw [redactValue_of_sensitive h, redactValue_of_sensitive h]
  · cases value with
    | str t => simp only [redactValue_of_not_sensitive h, redactString_redactString]
    | arr items => simp only [redactValue_of_not_sensitive h, redactItems_redactItems keyHint items]
    | obj fields => simp only [redactValue_of_not_sensitive h, redactFields_redactFields fields]
    | null => simp only [redactValue_of_not_sensitive h]
    | bool b => simp only [redactValue_of_not_sensitive h]
    | num n => simp only [redactValue_of_not_sensitive h]

theorem redactItems_redactItems (keyHint : Option Text) (items : List (Value N)) :
    redactItems keyHint (redactItems keyHint items) = redactItems keyHint items := by
  cases items with
  | nil => rfl
  | cons item items =>
      rw [redactItems, redactItems, redactValue_redactValue keyHint item, redactItems_redactItems keyHint items]

theorem redactFields_redactFields (fields : List (Text × Value N)) :
    redactFields (redactFields fields) = redactFields fields := by
  match fields with
  | [] => rfl
  | (k, v) :: fields =>
      rw [redactFields]
      split
      next => exact redactFields_redactFields fields
      next hproto =>
        rw [redactFields, if_neg hproto, redactValue_redactValue (some k) v, redactFields_redactFields fields]

end

mutual

/-- Under a name that is not sensitive a value is redacted as without a name. -/
theorem redactValue_hint {keyHint : Option Text} (h : ¬isSensitiveHint keyHint = true) (value : Value N) :
    redactValue keyHint value = redactValue none value := by
  have hnone : ¬isSensitiveHint none = true := Bool.false_ne_true
  rw [redactValue_of_not_sensitive h, redactValue_of_not_sensitive hnone]
  cases value with
  | arr items => exact congrArg Value.arr (redactItems_hint h items)
  | _ => rfl

theorem redactItems_hint {keyHint : Option Text} (h : ¬isSensitiveHint keyHint = true) (items : List (Value N)) :
    redactItems keyHint items = redactItems none items := by
  cases items with
  | nil => rfl
  | cons item items => rw [redactItems, redactItems, redactValue_hint h item, redactItems_hint h items]

end

theorem names_redactFields_of_lookup {name : Text} {fields : List (Text × Value N)} {value : Value N}
    (h : fields.lookup name = some value) (hname : ¬isSensitiveHint (some name) = true) (hproto : name ≠ text "__proto__") :
    names (redactValue none value) ⊆ fieldNames (redactFields fields) := by
  induction fields with
  | nil => cases h
  | cons field fields ih =>
      obtain ⟨k, v⟩ := field
      rw [List.lookup_cons] at h
      rw [redactFields]
      by_cases hk : name = k
      · rw [hk, beq_self_eq_true] at h
        cases h
        rw [if_neg (hk ▸ hproto), fieldNames, ← redactValue_hint (hk ▸ hname)]
        exact List.subset_cons_of_subset _ (List.subset_append_left _ _)
      · rw [beq_false_of_ne hk] at h
        split
        · exact ih h
        · rw [fieldNames]
          exact List.subset_cons_of_subset _ (List.subset_append_of_subset_right _ (ih h))

/-- What a member keeps of its names, the object keeps of its own. -/
theorem names_redactValue_of_member {name : Text} {value inner : Value N} (h : member name value = some inner)
    (hname : ¬isSensitiveHint (some name) = true) (hproto : name ≠ text "__proto__") :
    names (redactValue none inner) ⊆ names (redactValue none value) := by
  have hnone : ¬isSensitiveHint none = true := Bool.false_ne_true
  cases value with
  | obj fields =>
      rw [redactValue_of_not_sensitive hnone (.obj fields)]
      exact names_redactFields_of_lookup h hname hproto
  | _ => cases h

mutual

/-- Two values that differ at most in what stands under sensitive keys. -/
inductive SameBut : Value N → Value N → Prop
  | refl (value : Value N) : SameBut value value
  | arr {items others : List (Value N)} (h : SameButItems items others) : SameBut (.arr items) (.arr others)
  | obj {fields others : List (Text × Value N)} (h : SameButFields fields others) :
      SameBut (.obj fields) (.obj others)

inductive SameButItems : List (Value N) → List (Value N) → Prop
  | nil : SameButItems [] []
  | cons {item other : Value N} {items others : List (Value N)} (hitem : SameBut item other)
      (hitems : SameButItems items others) : SameButItems (item :: items) (other :: others)

inductive SameButFields : List (Text × Value N) → List (Text × Value N) → Prop
  | nil : SameButFields [] []
  | hidden {k : Text} {v w : Value N} {fields others : List (Text × Value N)} (hkey : isSensitiveKey k = true)
      (hfields : SameButFields fields others) : SameButFields ((k, v) :: fields) ((k, w) :: others)
  | cons {k : Text} {v w : Value N} {fields others : List (Text × Value N)} (hvalue : SameBut v w)
      (hfields : SameButFields fields others) : SameButFields ((k, v) :: fields) ((k, w) :: others)

end

theorem isSensitiveHint_of_key {k : Text} (hkey : isSensitiveKey k = true) : isSensitiveHint (some k) = true := by
  rw [isSensitiveHint, Option.any_some, hkey, Bool.and_true]
  cases k with
  | nil => exact absurd hkey (by decide)
  | cons u k => rfl

mutual

theorem SameBut.redactValue {value other : Value N} (h : SameBut value other) (keyHint : Option Text) :
    redactValue keyHint value = redactValue keyHint other := by
  by_cases hhint : isSensitiveHint keyHint = true
  · rw [redactValue_of_sensitive hhint, redactValue_of_sensitive hhint]
  · cases h with
    | refl => rfl
    | arr hitems => simp only [redactValue_of_not_sensitive hhint, hitems.redactItems keyHint]
    | obj hfields => simp only [redactValue_of_not_sensitive hhint, hfields.redactFields]

theorem SameButItems.redactItems {items others : List (Value N)} (h : SameButItems items others)
    (keyHint : Option Text) : redactItems keyHint items = redactItems keyHint others := by
  cases h with
  | nil => rfl
  | cons hitem hitems => simp only [Redaction.redactItems, hitem.redactValue keyHint, hitems.redactItems keyHint]

theorem SameButFields.redactFields {fields others : List (Text × Value N)} (h : SameButFields fields others) :
    redactFields fields = redactFields others := by
  cases h with
  | nil => rfl
  | hidden hkey hfields =>
      simp only [Redaction.redactFields, redactValue_of_sensitive (isSensitiveHint_of_key hkey), hfields.redactFields]
  | cons hvalue hfields => simp only [Redaction.redactFields, hvalue.redactValue, hfields.redactFields]

end

/-- Redacted values are clean and stay as they are, and what stood under sensitive keys
does not show in them. -/
theorem redactValue_hides (keyHint : Option Text) (value : Value N) :
    (∀ t ∈ strings (redactValue keyHint value), Clean t) ∧
      redactValue keyHint (redactValue keyHint value) = redactValue keyHint value ∧
      ∀ other, SameBut value other → redactValue keyHint other = redactValue keyHint value :=
  ⟨clean_redactValue keyHint value, redactValue_redactValue keyHint value,
    fun _ h => (h.redactValue keyHint).symm⟩

theorem redactValue_hides_token :
    redactValue (N := Nat) none (.obj [(text "accessToken", .str (text "t-1")), (text "memo", .num 7)]) =
      redactValue none (.obj [(text "accessToken", .arr [.null]), (text "memo", .num 7)]) :=
  (redactValue_hides none (.obj [(text "accessToken", .arr [.null]), (text "memo", .num 7)])).2.2 _
    (.obj (.hidden (by decide) (.cons (.refl _) .nil)))

end Savitools.Common.RedactedValues
