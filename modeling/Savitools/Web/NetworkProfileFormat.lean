import Savitools.Common.Exceptions
import Savitools.Json.Doubles
import Savitools.Json.Indenting
import Savitools.Strings.Trimming

namespace Savitools.Web.NetworkProfileFormat

open Strings.CodeUnits Strings.Trimming Json.Numbers Json.Values Json.Conversions Json.Doubles Json.Reading Json.Writing
open Json.Indenting Json.IndentedRoundTrip Common.Exceptions

def NETWORK_PROFILE_SCHEMA_VERSION : Int := 1

def MIN_SUPPORTED_NETWORK_PROFILE_VERSION : Int := 1

inductive NetworkProfileFormatErrorCode
  | INVALID_JSON
  | INVALID_PROFILE
  | UNSUPPORTED_VERSION

structure NetworkProfileFormatError where
  code : NetworkProfileFormatErrorCode
  message : Text

structure NetworkProfileFile where
  schemaVersion : Int
  name : Text
  horizonUrl : Text
  networkPassphrase : Text
  friendbotUrl : Option Text
  id : Option Text
  isDefault : Option Bool

/-- A profile to be written; the version that it comes with is not used, and the URL of its friendbot may be `null`. -/
structure NetworkProfileFileInput where
  name : Option Text
  horizonUrl : Text
  networkPassphrase : Text
  friendbotUrl : Option (Option Text)
  id : Option Text
  isDefault : Option Bool

/-- What `??` passes over is missing or `null`. -/
def given : Option (Value Number) → Option (Value Number)
  | some .null => none
  | value => value

/-- Files without a version are of the first one. -/
def readSchemaVersion (value : Value Number) : Except NetworkProfileFormatError Number :=
  let raw := (given (member (text "schemaVersion") value)).or
    ((given (member (text "formatVersion") value)).or (member (text "version") value))
  match raw with
  | none => .ok (.ofInt MIN_SUPPORTED_NETWORK_PROFILE_VERSION)
  | some (.num n) =>
      if Number.isInteger n then .ok n
      else .error ⟨.UNSUPPORTED_VERSION, text "Network profile schemaVersion must be an integer."⟩
  | some _ => .error ⟨.UNSUPPORTED_VERSION, text "Network profile schemaVersion must be an integer."⟩

def optionalString : Option (Value Number) → Option Text
  | some (.str t) => if trim t = [] then none else some (trim t)
  | _ => none

def requiredString (value : Option (Value Number)) (field : Text) : Except NetworkProfileFormatError Text :=
  match optionalString value with
  | none =>
      .error ⟨.INVALID_PROFILE, text "Missing or invalid \"" ++ field ++ text "\". A network profile needs a non-empty " ++
        field ++ text "."⟩
  | some t => .ok t

/-- The check of the version of a profile, or of the store of them. -/
def checkVersion (subject : Text) (version : Number) : Except NetworkProfileFormatError Unit :=
  if exceeds (.ofInt MIN_SUPPORTED_NETWORK_PROFILE_VERSION) version ||
      exceeds version (.ofInt NETWORK_PROFILE_SCHEMA_VERSION) then
    .error ⟨.UNSUPPORTED_VERSION, subject ++ text " schema version " ++ numberText version ++
      text " is not supported. This build supports versions " ++ intText MIN_SUPPORTED_NETWORK_PROFILE_VERSION ++
      text "–" ++ intText NETWORK_PROFILE_SCHEMA_VERSION ++ text "."⟩
  else .ok ()

/-- `replace(/\/+$/, '')` -/
def withoutSlashes (url : Text) : Text := url.rdropWhile (· == unit '/')

def flag : Option (Value Number) → Option Bool
  | some (.bool b) => some b
  | _ => none

def migrateNetworkProfile (parsed : Value Number) : Except NetworkProfileFormatError NetworkProfileFile :=
  match parsed with
  | .obj _ => do
      let version ← readSchemaVersion parsed
      checkVersion (text "Network profile") version
      let horizonUrl ← requiredString (member (text "horizonUrl") parsed) (text "horizonUrl")
      let networkPassphrase ← requiredString (member (text "networkPassphrase") parsed) (text "networkPassphrase")
      .ok
        { schemaVersion := NETWORK_PROFILE_SCHEMA_VERSION
          name := (optionalString (member (text "name") parsed)).getD (text "Imported Profile")
          horizonUrl := withoutSlashes horizonUrl
          networkPassphrase := networkPassphrase
          friendbotUrl := optionalString (member (text "friendbotUrl") parsed)
          id := optionalString (member (text "id") parsed)
          isDefault := flag (member (text "isDefault") parsed) }
  | _ => .error ⟨.INVALID_PROFILE, text "Network profile JSON must be an object."⟩

/-- `{ ...profile, schemaVersion }` -/
def NetworkProfileFileInput.versioned (profile : NetworkProfileFileInput) : Value Number :=
  .obj (definedMembers
    [(text "name", profile.name.map .str), (text "horizonUrl", some (.str profile.horizonUrl)),
      (text "networkPassphrase", some (.str profile.networkPassphrase)),
      (text "friendbotUrl", profile.friendbotUrl.map fun url => url.elim .null .str), (text "id", profile.id.map .str),
      (text "isDefault", profile.isDefault.map .bool),
      (text "schemaVersion", some (.num (.ofInt NETWORK_PROFILE_SCHEMA_VERSION)))])

def NetworkProfileFile.members (profile : NetworkProfileFile) : List (Text × Option (Value Number)) :=
  [(text "schemaVersion", some (.num (.ofInt profile.schemaVersion))), (text "name", some (.str profile.name)),
    (text "horizonUrl", some (.str profile.horizonUrl)),
    (text "networkPassphrase", some (.str profile.networkPassphrase)),
    (text "friendbotUrl", profile.friendbotUrl.map .str), (text "id", profile.id.map .str),
    (text "isDefault", profile.isDefault.map .bool)]

def NetworkProfileFile.value (profile : NetworkProfileFile) : Value Number := .obj (definedMembers profile.members)

/-- A profile as it is put into the store. -/
def storedProfile (profile : NetworkProfileFileInput) : Except NetworkProfileFormatError NetworkProfileFile := do
  let migrated ← migrateNetworkProfile profile.versioned
  .ok { migrated with isDefault := some (profile.isDefault.getD false) }

def storeValue (profiles : List NetworkProfileFile) : Value Number :=
  .obj [(text "schemaVersion", .num (.ofInt NETWORK_PROFILE_SCHEMA_VERSION)),
    (text "profiles", .arr (profiles.map NetworkProfileFile.value))]

def serializeNetworkProfileStore (profiles : List NetworkProfileFileInput) (space : Nat) :
    Except NetworkProfileFormatError Text := do
  let stored ← profiles.mapM storedProfile
  .ok (stringifyWith space (storeValue stored))

def parseNetworkProfileStore (json : Text) : Except NetworkProfileFormatError (List NetworkProfileFile) :=
  match parse json with
  | none => .error ⟨.INVALID_JSON, text "Invalid stored network profiles."⟩
  | some (.arr rawProfiles) => rawProfiles.mapM migrateNetworkProfile
  | some parsed =>
      match member (text "profiles") parsed with
      | some (.arr rawProfiles) =>
          if (member (text "schemaVersion") parsed).isNone && (member (text "formatVersion") parsed).isNone &&
              (member (text "version") parsed).isNone then
            .error ⟨.INVALID_PROFILE, text "Stored network profile envelope is missing schemaVersion."⟩
          else do
            let version ← readSchemaVersion parsed
            checkVersion (text "Network profile store") version
            rawProfiles.mapM migrateNetworkProfile
      | _ =>
          .error ⟨.INVALID_PROFILE,
            text "Stored network profiles must be an array or an object with a \"profiles\" array."⟩

theorem requiredString_eq_ok_iff {value : Option (Value Number)} {field t : Text} :
    requiredString value field = .ok t ↔ optionalString value = some t := by
  rw [requiredString]
  cases optionalString value with
  | none => simp
  | some s => simp

theorem optionalString_eq_some_iff {value : Option (Value Number)} {t : Text} :
    optionalString value = some t ↔ ∃ s, value = some (.str s) ∧ trim s ≠ [] ∧ trim s = t := by
  match value with
  | some (.str s) =>
      by_cases hblank : trim s = []
      · simp [optionalString, hblank]
      · simp [optionalString, hblank]
  | none | some .null | some (.bool _) | some (.num _) | some (.arr _) | some (.obj _) => simp [optionalString]

/-- A text that is read as one is read as the same again. -/
theorem optionalString_again {value : Option (Value Number)} {t : Text} (h : optionalString value = some t) :
    optionalString (some (.str t)) = some t := by
  obtain ⟨s, -, hne, rfl⟩ := optionalString_eq_some_iff.mp h
  rw [optionalString, trim_trim, if_neg hne]

/-- The version is one that can be read. -/
def Supported (v : Value Number) : Prop :=
  ∃ version, readSchemaVersion v = .ok version ∧ checkVersion (text "Network profile") version = .ok ()

/-- What `migrateNetworkProfile` makes of a value. -/
structure Migrates (v : Value Number) (profile : NetworkProfileFile) : Prop where
  isRecord : ∃ fields, v = .obj fields
  supported : Supported v
  schemaVersion : profile.schemaVersion = NETWORK_PROFILE_SCHEMA_VERSION
  name : profile.name = (optionalString (member (text "name") v)).getD (text "Imported Profile")
  horizonUrl : ∃ url, optionalString (member (text "horizonUrl") v) = some url ∧ withoutSlashes url = profile.horizonUrl
  networkPassphrase : optionalString (member (text "networkPassphrase") v) = some profile.networkPassphrase
  friendbotUrl : optionalString (member (text "friendbotUrl") v) = profile.friendbotUrl
  id : optionalString (member (text "id") v) = profile.id
  isDefault : flag (member (text "isDefault") v) = profile.isDefault

theorem migrate_eq_ok_iff {v : Value Number} {profile : NetworkProfileFile} :
    migrateNetworkProfile v = .ok profile ↔ Migrates v profile := by
  constructor
  · intro h
    match v with
    | .obj fields =>
        obtain ⟨version, hversion, h⟩ := bind_eq_ok.mp h
        obtain ⟨⟨⟩, hcheck, h⟩ := bind_eq_ok.mp h
        obtain ⟨url, hurl, h⟩ := bind_eq_ok.mp h
        obtain ⟨passphrase, hpassphrase, h⟩ := bind_eq_ok.mp h
        obtain rfl := Except.ok.inj h
        exact ⟨⟨_, rfl⟩, ⟨version, hversion, hcheck⟩, rfl, rfl, ⟨url, requiredString_eq_ok_iff.mp hurl, rfl⟩,
          requiredString_eq_ok_iff.mp hpassphrase, rfl, rfl, rfl⟩
    | .null | .bool _ | .num _ | .str _ | .arr _ => cases h
  · intro h
    obtain ⟨fields, rfl⟩ := h.isRecord
    obtain ⟨version, hversion, hcheck⟩ := h.supported
    obtain ⟨url, hurl, hhorizon⟩ := h.horizonUrl
    refine bind_eq_ok.mpr ⟨version, hversion, bind_eq_ok.mpr ⟨(), hcheck, bind_eq_ok.mpr ⟨url,
      requiredString_eq_ok_iff.mpr hurl, bind_eq_ok.mpr ⟨_, requiredString_eq_ok_iff.mpr h.networkPassphrase, ?_⟩⟩⟩⟩
    rw [← h.schemaVersion, ← h.name, hhorizon, h.friendbotUrl, h.id, h.isDefault]

theorem keys_members (profile : NetworkProfileFile) : (profile.members.map Prod.fst).Nodup := by
  have hkeys : [text "schemaVersion", text "name", text "horizonUrl", text "networkPassphrase", text "friendbotUrl",
      text "id", text "isDefault"].Nodup := by decide
  exact hkeys

theorem member_value (name : Text) (profile : NetworkProfileFile) :
    member name profile.value = (profile.members.lookup name).join :=
  lookup_definedMembers (keys_members profile) name

theorem flag_map (b : Option Bool) : flag (b.map .bool) = b := by
  cases b <;> rfl

/-- The texts are read as they are, but for the URL. -/
structure Trimmed (profile : NetworkProfileFile) : Prop where
  schemaVersion : profile.schemaVersion = NETWORK_PROFILE_SCHEMA_VERSION
  name : optionalString (some (.str profile.name)) = some profile.name
  networkPassphrase : optionalString (some (.str profile.networkPassphrase)) = some profile.networkPassphrase
  friendbotUrl : optionalString (profile.friendbotUrl.map .str) = profile.friendbotUrl
  id : optionalString (profile.id.map .str) = profile.id

theorem supported_value {profile : NetworkProfileFile} (hprofile : profile.schemaVersion = NETWORK_PROFILE_SCHEMA_VERSION) :
    Supported profile.value := by
  have hread : readSchemaVersion profile.value = .ok (.ofInt profile.schemaVersion) := by
    rw [readSchemaVersion, member_value, member_value, member_value]
    rfl
  exact ⟨_, hread, by rw [hprofile]; rfl⟩

/-- A profile without white space around its texts is read as it is when its URL is left as it is. -/
theorem migrate_value_iff {profile : NetworkProfileFile} (hprofile : Trimmed profile) :
    migrateNetworkProfile profile.value = .ok profile ↔
      trim profile.horizonUrl ≠ [] ∧ withoutSlashes (trim profile.horizonUrl) = profile.horizonUrl := by
  rw [migrate_eq_ok_iff]
  constructor
  · intro h
    obtain ⟨url, hurl, hsame⟩ := h.horizonUrl
    rw [member_value] at hurl
    obtain ⟨s, hs, hne, rfl⟩ := optionalString_eq_some_iff.mp hurl
    obtain rfl := Value.str.inj (Option.some.inj hs)
    exact ⟨hne, hsame⟩
  · rintro ⟨hne, hsame⟩
    have hname : profile.name = (optionalString (some (.str profile.name))).getD (text "Imported Profile") := by
      rw [hprofile.name, Option.getD_some]
    have hurl : optionalString (some (.str profile.horizonUrl)) = some (trim profile.horizonUrl) := if_neg hne
    refine ⟨⟨_, rfl⟩, supported_value hprofile.schemaVersion, hprofile.schemaVersion, ?_, ⟨_, ?_, hsame⟩, ?_, ?_, ?_, ?_⟩
    all_goals rw [member_value]
    · exact hname
    · exact hurl
    · exact hprofile.networkPassphrase
    · exact hprofile.friendbotUrl
    · exact hprofile.id
    · exact flag_map profile.isDefault

theorem Migrates.trimmed {v : Value Number} {profile : NetworkProfileFile} (h : Migrates v profile) : Trimmed profile := by
  have hoptional {value : Option (Value Number)} {t : Option Text} (ht : optionalString value = t) :
      optionalString (t.map .str) = t := by
    cases t with
    | none => rfl
    | some t => exact optionalString_again ht
  refine ⟨h.schemaVersion, ?_, optionalString_again h.networkPassphrase, hoptional h.friendbotUrl, hoptional h.id⟩
  rw [h.name]
  cases hname : optionalString (member (text "name") v) with
  | none => decide
  | some name => exact optionalString_again hname

/-- Before the slashes at the end of the URL (and the white space after them) stands neither a slash nor white space. -/
def Settled (url : Text) : Prop :=
  ∃ front u slashes blanks, url = front ++ u :: (slashes ++ blanks) ∧ u ≠ unit '/' ∧ isSpace u = false ∧
    (∀ c ∈ slashes, c = unit '/') ∧ ∀ c ∈ blanks, isSpace c = true

/-- What is left of a URL is left as it is exactly when it is not empty and has no white space at its end. -/
theorem left_iff_settled (url : Text) :
    trim (withoutSlashes (trim url)) ≠ [] ∧ withoutSlashes (trim (withoutSlashes (trim url))) = withoutSlashes (trim url) ↔
      Settled url := by
  constructor
  · rintro ⟨hne, hsame⟩
    obtain ⟨left, hleft⟩ : ∃ left, withoutSlashes (trim url) = left := ⟨_, rfl⟩
    rw [hleft] at hne hsame
    -- A part of it that is as long as it is.
    have htrim : trim left = left := by
      have hfront : withoutSlashes (trim left) <+: trim left := List.rdropWhile_prefix _ _
      rw [hsame] at hfront
      exact (hfront.eq_of_length_le (length_trim_le left)).symm
    rw [htrim] at hne
    have hspace : isSpace (left.getLast hne) = false := by
      have h := @not_space_getLast_trim left (by rwa [htrim])
      simpa only [htrim] using h
    obtain ⟨⟨slashes, hslashes, hall⟩, hlast⟩ := rdropWhile_eq_iff.mp hleft
    obtain ⟨blanks, hblanks, hstart⟩ := trimStart_eq_append url
    refine ⟨url.takeWhile isSpace ++ left.dropLast, left.getLast hne, slashes, blanks, ?_,
      beq_eq_false_iff_ne.mp (hlast hne), hspace, fun c hc => beq_iff_eq.mp (hall c hc), hblanks⟩
    calc url = url.takeWhile isSpace ++ trimStart url := List.takeWhile_append_dropWhile.symm
      _ = url.takeWhile isSpace ++ (left.dropLast ++ [left.getLast hne] ++ slashes ++ blanks) := by
        rw [hstart, hslashes, List.dropLast_append_getLast]
      _ = url.takeWhile isSpace ++ left.dropLast ++ left.getLast hne :: (slashes ++ blanks) := by simp
  · rintro ⟨front, u, slashes, blanks, rfl, hslash, hu, hslashes, hblanks⟩
    have hslash : (u == unit '/') = false := beq_eq_false_iff_ne.mpr hslash
    have hstrip {after : Text} (hafter : ∀ c ∈ after, c = unit '/') :
        withoutSlashes (trimStart front ++ u :: after) = trimStart front ++ [u] :=
      rdropWhile_append_singleton hslash fun c hc => beq_iff_eq.mpr (hafter c hc)
    have hagain : trim (trimStart front ++ [u]) = trimStart front ++ [u] := by
      have h := @trim_append_cons (trimStart front) [] [] u hu (List.forall_mem_nil _) (List.forall_mem_nil _)
      rwa [trimStart_trimStart] at h
    rw [trim_append_cons hu (fun c hc => hslashes c hc ▸ rfl) hblanks, hstrip hslashes, hagain, hstrip (List.forall_mem_nil _)]
    exact ⟨List.append_ne_nil_of_right_ne_nil _ (List.cons_ne_nil _ _), rfl⟩

theorem migrate_again_iff {v : Value Number} {profile : NetworkProfileFile} (h : migrateNetworkProfile v = .ok profile) :
    migrateNetworkProfile profile.value = .ok profile ↔
      ∃ url, member (text "horizonUrl") v = some (.str url) ∧ Settled url := by
  have hmigrates := migrate_eq_ok_iff.mp h
  obtain ⟨t, ht, hhorizon⟩ := hmigrates.horizonUrl
  obtain ⟨url, hurl, -, rfl⟩ := optionalString_eq_some_iff.mp ht
  rw [migrate_value_iff hmigrates.trimmed, ← hhorizon, left_iff_settled, hurl]
  constructor
  · exact fun hsettled => ⟨url, rfl, hsettled⟩
  · rintro ⟨other, hother, hsettled⟩
    obtain rfl := Value.str.inj (Option.some.inj hother)
    exact hsettled

theorem faithful_value {profile : NetworkProfileFile} (hprofile : profile.schemaVersion = NETWORK_PROFILE_SCHEMA_VERSION) :
    Faithful profile.value := by
  have hversion : Faithful (.num (.ofInt profile.schemaVersion)) := by
    rw [hprofile]
    exact @readable_ofInt 1 (by decide)
  refine faithful_definedMembers (keys_members profile) ?_
  simp only [NetworkProfileFile.members, List.forall_mem_cons]
  exact ⟨fun v hv => Option.some.inj hv ▸ hversion, fun v hv => Option.some.inj hv ▸ trivial,
    fun v hv => Option.some.inj hv ▸ trivial, fun v hv => Option.some.inj hv ▸ trivial,
    faithful_of_map fun _ => trivial, faithful_of_map fun _ => trivial, faithful_of_map fun _ => trivial,
    List.forall_mem_nil _⟩

theorem parse_storeValue {profiles : List NetworkProfileFile}
    (hprofiles : ∀ profile ∈ profiles, profile.schemaVersion = NETWORK_PROFILE_SCHEMA_VERSION) (space : Nat) :
    parseNetworkProfileStore (stringifyWith space (storeValue profiles)) =
      (profiles.map NetworkProfileFile.value).mapM migrateNetworkProfile := by
  have hfaithful : Faithful (storeValue profiles) := by
    refine ⟨by simp only [List.map_cons, List.map_nil]; decide, @readable_ofInt 1 (by decide), ?_, trivial⟩
    rw [Faithful, faithfulItems_iff]
    intro v hv
    obtain ⟨profile, hprofile, rfl⟩ := List.mem_map.mp hv
    exact faithful_value (hprofiles profile hprofile)
  rw [parseNetworkProfileStore, parse_stringifyWith space hfaithful]
  rfl

theorem Trimmed.stored {profile : NetworkProfileFile} (h : Trimmed profile) (isDefault : Option Bool) :
    Trimmed { profile with isDefault := isDefault } :=
  ⟨h.schemaVersion, h.name, h.networkPassphrase, h.friendbotUrl, h.id⟩

theorem member_versioned (profile : NetworkProfileFileInput) :
    member (text "horizonUrl") profile.versioned = some (.str profile.horizonUrl) := by
  have hkeys : [text "name", text "horizonUrl", text "networkPassphrase", text "friendbotUrl", text "id",
      text "isDefault", text "schemaVersion"].Nodup := by decide
  rw [NetworkProfileFileInput.versioned, member, lookup_definedMembers]
  · rfl
  · exact hkeys

theorem stored_spec {profile : NetworkProfileFileInput} {stored : NetworkProfileFile} (h : storedProfile profile = .ok stored) :
    Trimmed stored ∧ stored.horizonUrl = withoutSlashes (trim profile.horizonUrl) := by
  obtain ⟨migrated, hmigrated, hstored⟩ := bind_eq_ok.mp h
  obtain rfl := Except.ok.inj hstored
  have hmigrates := migrate_eq_ok_iff.mp hmigrated
  obtain ⟨t, ht, hhorizon⟩ := hmigrates.horizonUrl
  rw [member_versioned] at ht
  obtain ⟨url, hurl, -, rfl⟩ := optionalString_eq_some_iff.mp ht
  obtain rfl := Value.str.inj (Option.some.inj hurl)
  exact ⟨hmigrates.trimmed.stored _, hhorizon.symm⟩

theorem stored_again_iff {profile : NetworkProfileFileInput} {stored : NetworkProfileFile}
    (h : storedProfile profile = .ok stored) :
    migrateNetworkProfile stored.value = .ok stored ↔ Settled profile.horizonUrl := by
  obtain ⟨htrimmed, hhorizon⟩ := stored_spec h
  rw [migrate_value_iff htrimmed, hhorizon, left_iff_settled]

theorem parse_stored_iff {profiles : List NetworkProfileFileInput} {stored : List NetworkProfileFile}
    (h : profiles.mapM storedProfile = .ok stored) (space : Nat) :
    parseNetworkProfileStore (stringifyWith space (storeValue stored)) = .ok stored ↔
      ∀ profile ∈ profiles, Settled profile.horizonUrl := by
  obtain ⟨hgiven, hread⟩ := mapM_ok h
  have hversions : ∀ profile ∈ stored, profile.schemaVersion = NETWORK_PROFILE_SCHEMA_VERSION := by
    intro s hs
    obtain ⟨profile, -, hprofile⟩ := hread s hs
    exact (stored_spec hprofile).1.schemaVersion
  rw [parse_storeValue hversions, List.mapM_map, mapM_eq_self_iff]
  constructor
  · intro hsame profile hprofile
    obtain ⟨s, hs, hstored⟩ := hgiven profile hprofile
    exact (stored_again_iff hstored).mp (hsame s hs)
  · intro hsettled s hs
    obtain ⟨profile, hprofile, hstored⟩ := hread s hs
    exact (stored_again_iff hstored).mpr (hsettled profile hprofile)

/-- The profiles of a store are read as they were written exactly when the URL of each is settled; and so it is with a
profile that is migrated once more. -/
theorem parse_serialize_iff {profiles : List NetworkProfileFileInput} {space : Nat} {json : Text}
    (h : serializeNetworkProfileStore profiles space = .ok json) :
    (parseNetworkProfileStore json = profiles.mapM storedProfile ↔ ∀ profile ∈ profiles, Settled profile.horizonUrl) ∧
      ∀ (v : Value Number) (profile : NetworkProfileFile), migrateNetworkProfile v = .ok profile →
        (migrateNetworkProfile profile.value = .ok profile ↔
          ∃ url, member (text "horizonUrl") v = some (.str url) ∧ Settled url) := by
  refine ⟨?_, fun v profile => migrate_again_iff⟩
  obtain ⟨stored, hstored, hjson⟩ := bind_eq_ok.mp h
  obtain rfl := Except.ok.inj hjson
  rw [hstored, parse_stored_iff hstored]

theorem not_settled_slashes {url : Text} (hurl : ∀ u ∈ url, u = unit '/') : ¬Settled url := by
  rintro ⟨front, u, slashes, blanks, rfl, hslash, -⟩
  exact hslash (hurl u (List.mem_append_right _ List.mem_cons_self))

def plainProfile (horizonUrl : Text) : NetworkProfileFileInput :=
  ⟨none, horizonUrl, text "Test SDF Network ; September 2015", none, none, none⟩

def storedPlain (horizonUrl : Text) : NetworkProfileFile :=
  ⟨1, text "Imported Profile", horizonUrl, text "Test SDF Network ; September 2015", none, none, some false⟩

theorem parse_serialize_iff_plain :
    (parseNetworkProfileStore (stringifyWith 0 (storeValue [storedPlain (text "http://a")])) =
        [plainProfile (text "http://a/")].mapM storedProfile ↔
      ∀ profile ∈ [plainProfile (text "http://a/")], Settled profile.horizonUrl) ∧
    (migrateNetworkProfile (storedPlain (text "http://a")).value = .ok (storedPlain (text "http://a")) ↔
      ∃ url, member (text "horizonUrl") (storedPlain (text "http://a")).value = some (.str url) ∧ Settled url) := by
  have h : serializeNetworkProfileStore [plainProfile (text "http://a/")] 0 =
      .ok (stringifyWith 0 (storeValue [storedPlain (text "http://a")])) := rfl
  exact ⟨(parse_serialize_iff h).1, (parse_serialize_iff h).2 _ _ rfl⟩

/-- A URL of slashes only is stored as an empty one, with which nothing of the store can be read. -/
theorem not_parse_serialize :
    ¬∀ (profiles : List NetworkProfileFileInput) (space : Nat) (json : Text),
      serializeNetworkProfileStore profiles space = .ok json →
        parseNetworkProfileStore json = profiles.mapM storedProfile := by
  intro hall
  have hstored : [plainProfile (text "///")].mapM storedProfile = .ok [storedPlain []] := rfl
  have hread := hall [plainProfile (text "///")] 0 (stringifyWith 0 (storeValue [storedPlain []])) rfl
  rw [hstored] at hread
  have hslashes : (text "///").all (· == unit '/') = true := by decide
  exact not_settled_slashes (fun u hu => beq_iff_eq.mp (List.all_eq_true.mp hslashes u hu))
    ((parse_stored_iff hstored 0).mp hread _ (List.mem_singleton_self _))

end Savitools.Web.NetworkProfileFormat
