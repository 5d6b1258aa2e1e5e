import Savitools.Json.Conversions
import Savitools.Stores.Entries
import Savitools.Strings.HexBytes

namespace Savitools.Contracts.ScValDecoder

open Strings.CodeUnits Strings.Decimals Strings.HexBytes Json.Numbers Json.Conversions Stores.Entries

/-- An error of a contract with its own code, or one of the host with the names of its type and code. -/
inductive ScError
  | contract (code : Nat)
  | host (type code : Text)

inductive Executable
  | wasm (hash : List (BitVec 8))
  | stellarAsset

/-- A value of the contract language. A string or symbol is given by the text that its bytes read as,
an address by its strkey, which some kinds do not have. -/
inductive ScVal
  | bool (b : Bool)
  | void
  | error (error : ScError)
  | integer (signed : Bool) (bits : Nat) (n : Int)
  | timepoint (n : Nat)
  | duration (n : Nat)
  | bytes (bytes : List (BitVec 8))
  | string (t : Text)
  | symbol (t : Text)
  | vec (items : Option (List ScVal))
  | map (entries : Option (List (ScVal × ScVal)))
  | address (strKey : Option Text)
  | contractInstance (executable : Executable) (storage : Option (List (ScVal × ScVal)))
  | ledgerKeyContractInstance
  | ledgerKeyNonce (nonce : Int)

structure Typed (V : Type) where
  type : Text
  value : V
  raw : Text

/-- What a value is decoded to: a scalar, decoded values in a list or in pairs, or a record, which
holds its values bare. -/
inductive Content
  | null
  | text (t : Text)
  | number (x : Number)
  | bool (b : Bool)
  | vec (items : List (Typed Content))
  | pairs (entries : List (Typed Content × Typed Content))
  | record (fields : List (Text × Content))

abbrev DecodedScVal := Typed Content

abbrev DecodedMapPair := DecodedScVal × DecodedScVal

def scValName : ScVal → Text
  | .bool _ => text "scvBool"
  | .void => text "scvVoid"
  | .error _ => text "scvError"
  | .integer signed bits _ => text (if signed then "scvI" else "scvU") ++ ofNat bits
  | .timepoint _ => text "scvTimepoint"
  | .duration _ => text "scvDuration"
  | .bytes _ => text "scvBytes"
  | .string _ => text "scvString"
  | .symbol _ => text "scvSymbol"
  | .vec _ => text "scvVec"
  | .map _ => text "scvMap"
  | .address _ => text "scvAddress"
  | .contractInstance _ _ => text "scvContractInstance"
  | .ledgerKeyContractInstance => text "scvLedgerKeyContractInstance"
  | .ledgerKeyNonce _ => text "scvLedgerKeyNonce"

def decodeError : ScError → Content
  | .contract code => .record [(text "type", .text (text "sceContract")), (text "contractCode", .number (.ofInt code))]
  | .host type code => .record [(text "type", .text type), (text "code", .text code)]

def decodeExecutable : Executable → Content
  | .wasm hash => .record [(text "type", .text (text "wasm")), (text "wasmHash", .text (bytesHex hash))]
  | .stellarAsset => .record [(text "type", .text (text "stellarAsset"))]

/-- What is no list, map or instance. -/
def decodeScalar : ScVal → Content
  | .bool b => .bool b
  | .error error => decodeError error
  | .integer _ bits n => if bits = 32 then .number (.ofInt n) else .text (intText n)
  | .timepoint n | .duration n => .text (ofNat n)
  | .bytes bytes => .text (bytesHex bytes)
  | .string t | .symbol t => .text t
  | .address (some strKey) => .text strKey
  | .ledgerKeyNonce nonce => .text (intText nonce)
  | _ => .null

def asObjectKey : Content → Option Text
  | .text t => some t
  | .number x => some (numberText x)
  | .bool b => some (if b then text "true" else text "false")
  | _ => none

def prototypeKey : Text := text "__proto__"

/-- `record[key] = value`: under the name `__proto__` that sets the prototype, and there is no new
member. The members stay in the order of insertion, also where their names are array indices. -/
def assign (record : List (Text × Content)) (key : Text) (value : Content) : List (Text × Content) :=
  if key = prototypeKey then record else put key value record

/-- The loop over the entries, with the keys seen so far; nothing when a key comes twice. -/
def collect : List Text → List (Text × Content) → List (Text × DecodedScVal) → Option (List (Text × Content))
  | _, record, [] => some record
  | seen, record, (key, decoded) :: rest =>
      if key ∈ seen then none else collect (key :: seen) (assign record key decoded.value) rest

/-- `decodeMap`, on entries that are decoded. -/
def mapContent (entries : List DecodedMapPair) : Content :=
  match entries.mapM fun entry => asObjectKey entry.1.value with
  | none => .pairs entries
  | some keys =>
      match collect [] [] (keys.zip (entries.map (·.2))) with
      | none => .pairs entries
      | some record => .record record

variable (raw : ScVal → Text)

mutual

def content : ScVal → Content
  | .vec none => .vec []
  | .vec (some items) => .vec (decodeItems items)
  | .map none => mapContent []
  | .map (some entries) => mapContent (decodeEntries entries)
  | .contractInstance executable none =>
      .record [(text "executable", decodeExecutable executable), (text "storage", .null)]
  | .contractInstance executable (some storage) =>
      .record [(text "executable", decodeExecutable executable), (text "storage", mapContent (decodeEntries storage))]
  | v => decodeScalar v

def decodeItems : List ScVal → List DecodedScVal
  | [] => []
  | v :: vs => ⟨scValName v, content v, raw v⟩ :: decodeItems vs

def decodeEntries : List (ScVal × ScVal) → List DecodedMapPair
  | [] => []
  | (key, val) :: entries =>
      (⟨scValName key, content key, raw key⟩, ⟨scValName val, content val, raw val⟩) :: decodeEntries entries

end

def decodeScVal (v : ScVal) : DecodedScVal := ⟨scValName v, content raw v, raw v⟩

/-- The texts of the keys of a map, where all of them are scalars. -/
def keyTexts (entries : List (ScVal × ScVal)) : Option (List Text) :=
  entries.mapM fun entry => asObjectKey (content raw entry.1)

mutual

/-- The decoded value has the items and the entries of the value, at every depth: a map either as the
list of its pairs, or as a record with a member for each entry. -/
def Carries : ScVal → Content → Prop
  | .vec none, c => c = .vec []
  | .vec (some items), c => ∃ decoded, c = .vec decoded ∧ CarriesItems items decoded
  | .map none, c => c = .record []
  | .map (some entries), c =>
      (∃ decoded, c = .pairs decoded ∧ CarriesPairs entries decoded) ∨
        ∃ fields, c = .record fields ∧ CarriesFields entries fields
  | .contractInstance executable none, c =>
      c = .record [(text "executable", decodeExecutable executable), (text "storage", .null)]
  | .contractInstance executable (some storage), c =>
      ∃ d, c = .record [(text "executable", decodeExecutable executable), (text "storage", d)] ∧
        ((∃ decoded, d = .pairs decoded ∧ CarriesPairs storage decoded) ∨
          ∃ fields, d = .record fields ∧ CarriesFields storage fields)
  | v, c => c = decodeScalar v

def CarriesItems : List ScVal → List DecodedScVal → Prop
  | [], decoded => decoded = []
  | v :: vs, decoded => ∃ c rest, decoded = ⟨scValName v, c, raw v⟩ :: rest ∧ Carries v c ∧ CarriesItems vs rest

def CarriesPairs : List (ScVal × ScVal) → List DecodedMapPair → Prop
  | [], decoded => decoded = []
  | (key, val) :: entries, decoded => ∃ k c rest,
      decoded = (⟨scValName key, k, raw key⟩, ⟨scValName val, c, raw val⟩) :: rest ∧
        Carries key k ∧ Carries val c ∧ CarriesPairs entries rest

def CarriesFields : List (ScVal × ScVal) → List (Text × Content) → Prop
  | [], fields => fields = []
  | (key, val) :: entries, fields => ∃ t c rest, fields = (t, c) :: rest ∧
      asObjectKey (content raw key) = some t ∧ Carries val c ∧ CarriesFields entries rest

end

/-- All keys are scalars with texts of their own, and one of them is `__proto__`. -/
def HasPrototypeKey (entries : List (ScVal × ScVal)) : Prop :=
  ∃ keys, keyTexts raw entries = some keys ∧ keys.Nodup ∧ prototypeKey ∈ keys

mutual

/-- No map has a prototype key, at any depth. -/
def PlainKeys : ScVal → Prop
  | .vec (some items) => PlainItems items
  | .map (some entries) => ¬ HasPrototypeKey raw entries ∧ PlainEntries entries
  | .contractInstance _ (some storage) => ¬ HasPrototypeKey raw storage ∧ PlainEntries storage
  | _ => True

def PlainItems : List ScVal → Prop
  | [] => True
  | v :: vs => PlainKeys v ∧ PlainItems vs

def PlainEntries : List (ScVal × ScVal) → Prop
  | [] => True
  | (key, val) :: entries => PlainKeys key ∧ PlainKeys val ∧ PlainEntries entries

end

variable {raw}

def bare (entry : Text × DecodedScVal) : Text × Content := (entry.1, entry.2.value)

/-- Keys that are new and differ give a record of all entries but the one whose key is `__proto__`. -/
theorem collect_of_nodup {entries : List (Text × DecodedScVal)} : ∀ {seen : List Text} {record : List (Text × Content)},
    (∀ key ∈ record.map (·.1), key ∈ seen) → (∀ entry ∈ entries, entry.1 ∉ seen) → (entries.map (·.1)).Nodup →
      collect seen record entries =
        some (record ++ (entries.filter fun entry => entry.1 ≠ prototypeKey).map bare) := by
  induction entries with
  | nil =>
      intro seen record _ _ _
      simp [collect]
  | cons entry entries ih =>
      intro seen record hseen hnew hnodup
      obtain ⟨key, decoded⟩ := entry
      rw [List.map_cons, List.nodup_cons] at hnodup
      have hkey : key ∉ seen := hnew (key, decoded) List.mem_cons_self
      have hrest : ∀ other ∈ entries, other.1 ∉ key :: seen := fun other hother hmem =>
        (List.mem_cons.mp hmem).elim (fun heq => hnodup.1 (List.mem_map.mpr ⟨other, hother, heq⟩))
          (hnew other (List.mem_cons_of_mem _ hother))
      rw [collect, if_neg hkey, assign]
      by_cases hproto : key = prototypeKey
      · rw [if_pos hproto, ih (fun k hk => List.mem_cons_of_mem _ (hseen k hk)) hrest hnodup.2,
          List.filter_cons_of_neg (by simp [hproto])]
      · have hput : put key decoded.value record = record ++ [(key, decoded.value)] :=
          put_of_not_mem fun hmem => hkey (hseen key hmem)
        have hseen' : ∀ k ∈ (record ++ [(key, decoded.value)]).map (·.1), k ∈ key :: seen := by
          intro k hk
          rw [List.map_append, List.mem_append] at hk
          rcases hk with hk | hk
          · exact List.mem_cons_of_mem _ (hseen k hk)
          · rw [List.mem_singleton.mp hk]
            exact List.mem_cons_self
        rw [if_neg hproto, hput, ih hseen' hrest hnodup.2, List.filter_cons_of_pos (by simp [hproto]), List.map_cons, bare,
          List.append_assoc, List.singleton_append]

theorem collect_of_repeated {entries : List (Text × DecodedScVal)} : ∀ {seen : List Text} {record : List (Text × Content)},
    ((∃ entry ∈ entries, entry.1 ∈ seen) ∨ ¬ (entries.map (·.1)).Nodup) → collect seen record entries = none := by
  induction entries with
  | nil =>
      intro seen record h
      simp at h
  | cons entry entries ih =>
      intro seen record h
      obtain ⟨key, decoded⟩ := entry
      rw [collect]
      split
      next => rfl
      next hkey =>
        refine ih ?_
        rcases h with ⟨other, hother, hmem⟩ | hrepeated
        · rcases List.mem_cons.mp hother with rfl | hother
          · exact absurd hmem hkey
          · exact .inl ⟨other, hother, List.mem_cons_of_mem _ hmem⟩
        · rw [List.map_cons, List.nodup_cons, not_and_or, not_not] at hrepeated
          refine hrepeated.imp_left fun hmem => ?_
          obtain ⟨other, hother, heq⟩ := List.mem_map.mp hmem
          exact ⟨other, hother, heq ▸ List.mem_cons_self⟩

theorem keyTexts_cons {key val : ScVal} {entries : List (ScVal × ScVal)} {keys : List Text} :
    keyTexts raw ((key, val) :: entries) = some keys ↔
      ∃ t ts, asObjectKey (content raw key) = some t ∧ keyTexts raw entries = some ts ∧ keys = t :: ts := by
  simp only [keyTexts, List.mapM_cons, Option.bind_eq_bind, Option.bind_eq_some_iff, Option.pure_def, Option.some.injEq]
  grind

theorem mapM_decodeEntries (entries : List (ScVal × ScVal)) :
    ((decodeEntries raw entries).mapM fun entry => asObjectKey entry.1.value) = keyTexts raw entries := by
  induction entries with
  | nil => rfl
  | cons entry entries ih =>
      obtain ⟨key, val⟩ := entry
      simp only [decodeEntries, keyTexts, List.mapM_cons] at ih ⊢
      rw [ih]

/-- The entries with the texts of their keys. -/
def keyed (raw : ScVal → Text) (keys : List Text) (entries : List (ScVal × ScVal)) : List (Text × DecodedScVal) :=
  keys.zip ((decodeEntries raw entries).map (·.2))

theorem length_keyTexts {entries : List (ScVal × ScVal)} : ∀ {keys : List Text}, keyTexts raw entries = some keys →
    keys.length = (decodeEntries raw entries).length := by
  induction entries with
  | nil =>
      intro keys h
      obtain rfl := Option.some.inj h
      rfl
  | cons entry entries ih =>
      intro keys h
      obtain ⟨t, ts, -, hts, rfl⟩ := keyTexts_cons.mp h
      exact congrArg (· + 1) (ih hts)

theorem keys_keyed {keys : List Text} {entries : List (ScVal × ScVal)} (h : keyTexts raw entries = some keys) :
    (keyed raw keys entries).map (·.1) = keys := by
  rw [keyed, List.map_fst_zip]
  rw [length_keyTexts h, List.length_map]

theorem length_decodeEntries (entries : List (ScVal × ScVal)) : (decodeEntries raw entries).length = entries.length := by
  induction entries with
  | nil => rfl
  | cons entry entries ih => exact congrArg (· + 1) ih

theorem length_keyed {keys : List Text} {entries : List (ScVal × ScVal)} (h : keyTexts raw entries = some keys) :
    (keyed raw keys entries).length = entries.length := by
  rw [keyed, List.length_zip, List.length_map, length_keyTexts h, Nat.min_self, length_decodeEntries]

/-- A map is decoded to the list of its pairs, or to a record of all entries but that under `__proto__`. -/
theorem mapContent_cases (entries : List (ScVal × ScVal)) :
    (mapContent (decodeEntries raw entries) = .pairs (decodeEntries raw entries) ∧ ¬ HasPrototypeKey raw entries) ∨
      ∃ keys, keyTexts raw entries = some keys ∧ keys.Nodup ∧ mapContent (decodeEntries raw entries) =
          .record (((keyed raw keys entries).filter fun entry => entry.1 ≠ prototypeKey).map bare) := by
  rw [mapContent, mapM_decodeEntries]
  cases hkeys : keyTexts raw entries with
  | none => exact .inl ⟨rfl, fun ⟨keys, h, _⟩ => by rw [hkeys] at h; cases h⟩
  | some keys =>
      simp only
      have hmap := keys_keyed hkeys
      by_cases hnodup : keys.Nodup
      · refine .inr ⟨keys, rfl, hnodup, ?_⟩
        rw [← keyed, collect_of_nodup (by simp) (by simp) (hmap.symm ▸ hnodup), List.nil_append]
      · refine .inl ⟨?_, fun ⟨others, h, hothers, _⟩ => ?_⟩
        · rw [← keyed, collect_of_repeated (.inr (hmap.symm ▸ hnodup))]
        · obtain rfl := Option.some.inj (hkeys.symm.trans h)
          exact hnodup hothers

theorem asObjectKey_mapContent (entries : List DecodedMapPair) : asObjectKey (mapContent entries) = none := by
  rw [mapContent]
  split
  next => rfl
  next => split <;> rfl

/-- What a scalar decodes from holds no map. -/
theorem plainKeys_of_objectKey {v : ScVal} {t : Text} (h : asObjectKey (content raw v) = some t) : PlainKeys raw v := by
  cases v with
  | vec items => cases items <;> cases h
  | map entries =>
      cases entries with
      | none => trivial
      | some entries =>
          rw [content, asObjectKey_mapContent] at h
          cases h
  | contractInstance executable storage => cases storage <;> cases h
  | _ => trivial

theorem length_of_carriesFields {entries : List (ScVal × ScVal)} : ∀ {fields : List (Text × Content)},
    CarriesFields raw entries fields → fields.length = entries.length := by
  induction entries with
  | nil =>
      intro fields h
      rw [CarriesFields] at h
      subst h
      rfl
  | cons entry entries ih =>
      intro fields h
      obtain ⟨key, val⟩ := entry
      rw [CarriesFields] at h
      obtain ⟨t, c, rest, rfl, -, -, hrest⟩ := h
      exact congrArg (· + 1) (ih hrest)

/-- A map carries its entries if its keys are plain and what is below it does. -/
theorem carries_mapContent {entries : List (ScVal × ScVal)}
    (hpairs : CarriesPairs raw entries (decodeEntries raw entries) ↔ PlainEntries raw entries)
    (hfields : ∀ keys, keyTexts raw entries = some keys →
      (CarriesFields raw entries ((keyed raw keys entries).map bare) ↔ PlainEntries raw entries)) :
    ((∃ decoded, mapContent (decodeEntries raw entries) = .pairs decoded ∧ CarriesPairs raw entries decoded) ∨
        ∃ fields, mapContent (decodeEntries raw entries) = .record fields ∧ CarriesFields raw entries fields) ↔
      ¬ HasPrototypeKey raw entries ∧ PlainEntries raw entries := by
  rcases @mapContent_cases raw entries with ⟨hcontent, hplain⟩ | ⟨keys, hkeys, hnodup, hcontent⟩
  · simp [hcontent, hplain, hpairs]
  · simp only [hcontent, reduceCtorEq, false_and, exists_const, false_or, Content.record.injEq, exists_eq_left']
    have hspecial : HasPrototypeKey raw entries ↔ prototypeKey ∈ keys := by
      simp [HasPrototypeKey, hkeys, hnodup]
    rw [hspecial]
    by_cases hproto : prototypeKey ∈ keys
    · -- the member is missing
      refine iff_of_false (fun hcarries => ?_) (fun h => h.1 hproto)
      have hlength := length_of_carriesFields hcarries
      rw [List.length_map] at hlength
      obtain ⟨entry, hentry, hkey⟩ := List.mem_map.mp (keys_keyed hkeys ▸ hproto)
      have hless : ((keyed raw keys entries).filter fun entry => entry.1 ≠ prototypeKey).length <
          (keyed raw keys entries).length := List.length_filter_lt_length_iff_exists.mpr ⟨entry, hentry, by simp [hkey]⟩
      rw [hlength, length_keyed hkeys] at hless
      exact Nat.lt_irrefl _ hless
    · have hall : (keyed raw keys entries).filter (fun entry => entry.1 ≠ prototypeKey) = keyed raw keys entries := by
        rw [List.filter_eq_self]
        intro entry hentry
        have hmem : entry.1 ∈ keys := keys_keyed hkeys ▸ List.mem_map_of_mem hentry
        exact decide_eq_true fun heq => hproto (heq ▸ hmem)
      rw [hall, hfields keys hkeys, and_iff_right hproto]

mutual

theorem carries_iff : ∀ v, Carries raw v (content raw v) ↔ PlainKeys raw v
  | .vec none => by simp [Carries, content, PlainKeys]
  | .vec (some items) => by simpa [Carries, content, PlainKeys] using carriesItems_iff items
  | .map none => by simp [Carries, content, PlainKeys, mapContent, collect]
  | .map (some entries) => by
      rw [Carries, content, PlainKeys]
      exact carries_mapContent (carriesPairs_iff entries) (fun keys => carriesFields_iff entries)
  | .contractInstance _ none => by simp [Carries, content, PlainKeys]
  | .contractInstance _ (some storage) => by
      rw [Carries, content, PlainKeys]
      simpa using carries_mapContent (carriesPairs_iff storage) (fun keys => carriesFields_iff storage)
  | .bool _ | .void | .error _ | .integer _ _ _ | .timepoint _ | .duration _ | .bytes _ | .string _ | .symbol _ | .address _
  | .ledgerKeyContractInstance | .ledgerKeyNonce _ => by simp [Carries, content, PlainKeys]

theorem carriesItems_iff : ∀ items, CarriesItems raw items (decodeItems raw items) ↔ PlainItems raw items
  | [] => by simp [CarriesItems, decodeItems, PlainItems]
  | v :: vs => by simp [CarriesItems, decodeItems, PlainItems, carries_iff v, carriesItems_iff vs]

theorem carriesPairs_iff : ∀ entries, CarriesPairs raw entries (decodeEntries raw entries) ↔ PlainEntries raw entries
  | [] => by simp [CarriesPairs, decodeEntries, PlainEntries]
  | (key, val) :: entries => by
      simp [CarriesPairs, decodeEntries, PlainEntries, carries_iff key, carries_iff val, carriesPairs_iff entries]

theorem carriesFields_iff : ∀ entries {keys}, keyTexts raw entries = some keys →
    (CarriesFields raw entries ((keyed raw keys entries).map bare) ↔ PlainEntries raw entries)
  | [], keys, h => by
      obtain rfl := Option.some.inj h
      simp [CarriesFields, keyed, PlainEntries]
  | (key, val) :: entries, keys, h => by
      obtain ⟨t, ts, ht, hts, rfl⟩ := keyTexts_cons.mp h
      have hrest := carriesFields_iff entries hts
      rw [keyed] at hrest
      simp [CarriesFields, keyed, bare, decodeEntries, PlainEntries, ht, plainKeys_of_objectKey ht, carries_iff val, hrest]

end

theorem maps_keep_entries_iff (raw : ScVal → Text) (v : ScVal) :
    Carries raw v (decodeScVal raw v).value ↔ PlainKeys raw v := carries_iff v

/-- A map from symbols to an integer and a flag. -/
def protoMap : ScVal :=
  .map (some [(.symbol (text "__proto__"), .integer false 32 7), (.symbol (text "paid"), .bool true)])

theorem prototype_entry_lost :
    (∀ raw, (decodeScVal raw protoMap).value = .record [(text "paid", .bool true)]) ∧
      ¬ ∃ raw, Carries raw protoMap (decodeScVal raw protoMap).value := by
  refine ⟨fun raw => rfl, fun ⟨raw, hcarries⟩ => ?_⟩
  refine ((carries_iff protoMap).mp hcarries).1 ⟨[text "__proto__", text "paid"], rfl, ?_, ?_⟩ <;> decide

end Savitools.Contracts.ScValDecoder
