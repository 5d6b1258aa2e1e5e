import Savitools.Contracts.AbiCatalog
import Savitools.Stores.Entries
import Savitools.Contracts.InvocableCatalogs
import Savitools.Transitions.Runs

namespace Savitools.Contracts.AbiCatalogs

open Strings.CodeUnits Strings.Decimals Json.Numbers Json.Values Stores.Entries AbiCatalog AbiEncoding

def ABI_CATALOG_MAX_ENTRIES : Nat := 200

def ABI_CATALOG_TTL_MS : Nat := 60 * 60 * 1000

structure CachedCatalog where
  entry : AbiCatalogEntry
  expiresAt : Nat
deriving DecidableEq

/-- The map of the catalogs, in the order in which their ids came. -/
abbrev Catalogs := List (Text × CachedCatalog)

structure AttachAbiDto where
  schema : Value Number
  wasmId : Option Text
  network : Option Text
  name : Option Text

inductive ContractError
  | badRequest (message : Text)
  | notFound (message : Text)
  | document (error : AbiError)
  | argument (error : EncodeError)
deriving DecidableEq

/-- What the clock says when it is read, in this order. -/
structure AttachTimes where
  attachedAt : Text
  prunedAt : Nat
  setAt : Nat

structure EncodedArg where
  name : Text
  type : Text
  encoded : Encoded

def isExpired (now : Nat) (slot : Text × CachedCatalog) : Bool := slot.2.expiresAt < now

/-- The loop that deletes the oldest catalog while there are too many. -/
def evictOldest : Catalogs → Catalogs
  | [] => []
  | oldest :: newer =>
      if ABI_CATALOG_MAX_ENTRIES < (oldest :: newer).length then evictOldest newer else oldest :: newer

def pruneAbiCatalogs (now : Nat) (catalogs : Catalogs) : Catalogs :=
  evictOldest (catalogs.filter fun slot => !isExpired now slot)

variable (beyondAscii : Text → Text)

def attachAbi (contractId : Text) (dto : AttachAbiDto) (times : AttachTimes) (catalogs : Catalogs) :
    Catalogs × Except ContractError AbiCatalogEntry :=
  if contractId.length < 40 then
    (catalogs, .error (.badRequest (text "contractId must be a Soroban contract ID")))
  else if abiMaxBytes < serializedBytes dto.schema then
    (catalogs, .error (.badRequest
      (text "ABI document exceeds the maximum accepted size of " ++ ofNat abiMaxBytes ++ text " bytes")))
  else
    let options : Options := ⟨dto.wasmId, some (dto.network.getD (text "testnet")), dto.name⟩
    match buildAbiCatalog beyondAscii contractId dto.schema options times.attachedAt with
    | .error error => (catalogs, .error (.document error))
    | .ok entry =>
        (put entry.id ⟨entry, times.setAt + ABI_CATALOG_TTL_MS⟩ (pruneAbiCatalogs times.prunedAt catalogs), .ok entry)

def getAbi (contractId : Text) (wasmId : Option Text) (now : Nat) (catalogs : Catalogs) :
    Catalogs × Except ContractError AbiCatalogEntry :=
  let id := catalogId contractId wasmId
  match catalogs.lookup id with
  | some found =>
      if found.expiresAt < now then (remove id, .error missing) else (catalogs, .ok found.entry)
  | none => (remove id, .error missing)
where
  remove (id : Text) : Catalogs := catalogs.filter fun slot => slot.1 != id
  missing : ContractError := .notFound (text "No ABI catalog attached to contract " ++ contractId ++
    match wasmId with
    | some (u :: wasmId) => text " / WASM " ++ u :: wasmId
    | _ => [])

/-- The arguments of a method with the values given for them; the first that fails is thrown. -/
def encodeAll (sdk : Sdk) : List (AbiMethodArg × Value Number) → Except ContractError (List EncodedArg)
  | [] => .ok []
  | (arg, value) :: rest =>
      match encodeAbiArgument beyondAscii sdk arg.type value with
      | .error error => .error (.argument error)
      | .ok encoded => (encodeAll sdk rest).map fun more => ⟨arg.name, arg.type, encoded⟩ :: more

def encodeAbiArguments (sdk : Sdk) (contractId functionName : Text) (args : List (Value Number)) (wasmId : Option Text)
    (now : Nat) (catalogs : Catalogs) : Catalogs × Except ContractError (List EncodedArg) :=
  match getAbi contractId wasmId now catalogs with
  | (catalogs, .error error) => (catalogs, .error error)
  | (catalogs, .ok entry) =>
      match entry.methods.find? (fun m => m.name == functionName) with
      | none => (catalogs, .error (.notFound
          (text "Method '" ++ functionName ++ text "' is not part of the ABI catalog for " ++ contractId)))
      | some method =>
          if args.length ≠ method.arguments.length then
            (catalogs, .error (.badRequest (text "Method '" ++ functionName ++ text "' expects " ++
              ofNat method.arguments.length ++ text " argument(s), received " ++ ofNat args.length)))
          else (catalogs, encodeAll beyondAscii sdk (method.arguments.zip args))

end Savitools.Contracts.AbiCatalogs

namespace Savitools.Contracts.CatalogBounds

open Transitions.Runs Strings.CodeUnits Strings.Decimals Json.Numbers Json.Values Stores.Entries AbiCatalog AbiEncoding AbiCatalogs

inductive Act
  | attach (contractId : Text) (dto : AttachAbiDto) (times : AttachTimes)
  | get (contractId : Text) (wasmId : Option Text) (now : Nat)
  | encode (contractId functionName : Text) (args : List (Value Number)) (wasmId : Option Text) (now : Nat)

variable (beyondAscii : Text → Text) (sdk : Sdk)

def step : Step Catalogs Act
  | s, .attach contractId dto times => some (attachAbi beyondAscii contractId dto times s).1
  | s, .get contractId wasmId now => some (getAbi contractId wasmId now s).1
  | s, .encode contractId functionName args wasmId now =>
      some (encodeAbiArguments beyondAscii sdk contractId functionName args wasmId now s).1

/-- The catalogs that have not expired. -/
def live (now : Nat) (s : Catalogs) : Catalogs := s.filter fun slot => !isExpired now slot

/-- The cache is within its bound, and pruning it then removes only what has expired. -/
structure Bounded (s : Catalogs) : Prop where
  size : s.length ≤ ABI_CATALOG_MAX_ENTRIES
  kept : ∀ now, ∀ slot ∈ s, isExpired now slot = false → slot ∈ pruneAbiCatalogs now s

/-- A catalog that is attached has its id among those that have not expired, or finds fewer of them than the bound. -/
def Roomy (s : Catalogs) : Act → Prop
  | .attach contractId dto times => ∀ entry, (attachAbi beyondAscii contractId dto times s).2 = .ok entry →
      entry.id ∈ (live times.prunedAt s).map (·.1) ∨ (live times.prunedAt s).length < ABI_CATALOG_MAX_ENTRIES
  | _ => True

theorem evictOldest_of_le {s : Catalogs} (h : s.length ≤ ABI_CATALOG_MAX_ENTRIES) : evictOldest s = s := by
  cases s with
  | nil => rfl
  | cons oldest newer => rw [evictOldest, if_neg (Nat.not_lt.mpr h)]

theorem length_live_le (now : Nat) (s : Catalogs) : (live now s).length ≤ s.length := List.length_filter_le _ _

theorem prune_of_le {s : Catalogs} (now : Nat) (h : s.length ≤ ABI_CATALOG_MAX_ENTRIES) : pruneAbiCatalogs now s = live now s :=
  evictOldest_of_le ((length_live_le now s).trans h)

theorem bounded_iff {s : Catalogs} : Bounded s ↔ s.length ≤ ABI_CATALOG_MAX_ENTRIES := by
  refine ⟨Bounded.size, fun h => ⟨h, fun now slot hslot hexpired => ?_⟩⟩
  rw [prune_of_le now h, live, List.mem_filter]
  exact ⟨hslot, by simp [hexpired]⟩

theorem length_getAbi_le (contractId : Text) (wasmId : Option Text) (now : Nat) (s : Catalogs) :
    (getAbi contractId wasmId now s).1.length ≤ s.length := by
  rw [getAbi]
  split
  next =>
    split
    next => exact List.length_filter_le _ _
    next => exact Nat.le_refl _
  next => exact List.length_filter_le _ _

theorem encodeAbiArguments_fst (contractId functionName : Text) (args : List (Value Number)) (wasmId : Option Text)
    (now : Nat) (s : Catalogs) :
    (encodeAbiArguments beyondAscii sdk contractId functionName args wasmId now s).1 = (getAbi contractId wasmId now s).1 := by
  rw [encodeAbiArguments]
  split
  next h => rw [h]
  next h =>
    rw [h]
    split
    next => rfl
    next => split <;> rfl

variable {beyondAscii} {sdk}

/-- A request to attach a catalog changes nothing, or puts the entry among what pruning leaves. -/
theorem attachAbi_cases (contractId : Text) (dto : AttachAbiDto) (times : AttachTimes) (s : Catalogs) :
    (∃ error, attachAbi beyondAscii contractId dto times s = (s, .error error)) ∨
      ∃ entry, attachAbi beyondAscii contractId dto times s =
        (put entry.id ⟨entry, times.setAt + ABI_CATALOG_TTL_MS⟩ (pruneAbiCatalogs times.prunedAt s), .ok entry) := by
  rw [attachAbi]
  split
  next => exact .inl ⟨_, rfl⟩
  next =>
    split
    next => exact .inl ⟨_, rfl⟩
    next =>
      simp only
      split
      next => exact .inl ⟨_, rfl⟩
      next entry _ => exact .inr ⟨entry, rfl⟩

theorem step_bounded_iff {s t : Catalogs} {act : Act} (hs : Bounded s) (h : step beyondAscii sdk s act = some t) :
    Bounded t ↔ Roomy beyondAscii s act := by
  rw [bounded_iff]
  cases act with
  | get contractId wasmId now =>
      cases h
      exact iff_of_true ((length_getAbi_le contractId wasmId now s).trans hs.size) trivial
  | encode contractId functionName args wasmId now =>
      cases h
      rw [encodeAbiArguments_fst]
      exact iff_of_true ((length_getAbi_le contractId wasmId now s).trans hs.size) trivial
  | attach contractId dto times =>
      cases h
      rcases @attachAbi_cases beyondAscii contractId dto times s with ⟨error, hattach⟩ | ⟨entry, hattach⟩
      · refine iff_of_true (hattach ▸ hs.size) fun entry hentry => ?_
        rw [hattach] at hentry
        cases hentry
      · have hlive := (length_live_le times.prunedAt s).trans hs.size
        have hroomy : Roomy beyondAscii s (.attach contractId dto times) ↔
            entry.id ∈ (live times.prunedAt s).map (·.1) ∨ (live times.prunedAt s).length < ABI_CATALOG_MAX_ENTRIES := by
          simp only [Roomy, hattach, Except.ok.injEq, forall_eq']
        rw [hroomy, hattach, prune_of_le times.prunedAt hs.size, length_put]
        split
        next hmem => exact iff_of_true hlive (.inl hmem)
        next hmem => exact (or_iff_right hmem).symm

theorem catalogs_bounded_iff (acts : List Act) :
    Throughout (step beyondAscii sdk) Bounded [] acts ↔ Guarded (step beyondAscii sdk) (Roomy beyondAscii) [] acts :=
  throughout_iff_guarded_of_inv (I := fun _ => True) (fun _ _ _ _ _ _ => trivial)
    (fun _ _ _ _ hs h => step_bounded_iff hs h) trivial (bounded_iff.mpr (Nat.zero_le _)) acts

/-- An empty document for one more contract. -/
def nthContract (n : Nat) : Text := List.replicate 40 (unit 'C') ++ ofNat n

def nthAttach (n : Nat) : Act := .attach (nthContract n) ⟨.obj [], none, none, none⟩ ⟨[], 0, 0⟩

def nthEntry (n : Nat) : AbiCatalogEntry :=
  ⟨catalogId (nthContract n) none, nthContract n, none, text "testnet", none, [], [], []⟩

def nthSlot (n : Nat) : Text × CachedCatalog := ((nthEntry n).id, ⟨nthEntry n, 0 + ABI_CATALOG_TTL_MS⟩)

theorem nthEntry_id_inj {m n : Nat} (h : (nthEntry m).id = (nthEntry n).id) : m = n := by
  have hdigits : ofNat m = ofNat n := List.append_cancel_left (List.append_cancel_right h)
  rw [← digitsValue_ofNat m, hdigits, digitsValue_ofNat]

theorem attachAbi_nth (n : Nat) (s : Catalogs) :
    attachAbi id (nthContract n) ⟨.obj [], none, none, none⟩ ⟨[], 0, 0⟩ s =
      (put (nthEntry n).id ⟨nthEntry n, 0 + ABI_CATALOG_TTL_MS⟩ (pruneAbiCatalogs 0 s), .ok (nthEntry n)) := by
  have hlength : ¬ (nthContract n).length < 40 := by
    rw [nthContract, List.length_append, List.length_replicate]
    omega
  have hbuild : buildAbiCatalog id (nthContract n) (.obj []) ⟨none, some (text "testnet"), none⟩ [] = .ok (nthEntry n) := by
    rw [buildAbiCatalog, if_neg (by decide)]
    rfl
  rw [attachAbi, if_neg hlength, if_neg (by decide)]
  simp only [Option.getD_none, hbuild]

theorem run_nth (n : Nat) (h : n ≤ ABI_CATALOG_MAX_ENTRIES + 1) :
    run (step id sdk) [] ((List.range n).map nthAttach) = some ((List.range n).map nthSlot) := by
  induction n with
  | zero => rfl
  | succ n ih =>
      have hprune : pruneAbiCatalogs 0 ((List.range n).map nthSlot) = (List.range n).map nthSlot := by
        rw [prune_of_le 0 (by simpa using Nat.le_of_succ_le_succ h), live, List.filter_eq_self, List.forall_mem_map]
        intro m _
        rfl
      have hnew : (nthEntry n).id ∉ ((List.range n).map nthSlot).map (·.1) := by
        rw [List.map_map]
        intro hmem
        obtain ⟨m, hm, hid⟩ := List.mem_map.mp hmem
        obtain rfl := nthEntry_id_inj hid
        exact absurd (List.mem_range.mp hm) (Nat.lt_irrefl m)
      rw [List.range_succ, List.map_append, List.map_append, run_append]
      refine ⟨_, ih (Nat.le_of_succ_le h), run_cons.mpr ⟨_, rfl, ?_⟩⟩
      rw [attachAbi_nth, hprune, put_of_not_mem hnew]
      rfl

/-- One catalog more than the bound is attached, each for a contract of its own. -/
theorem not_catalogs_bounded :
    ¬ Throughout (step id InvocableCatalogs.sampleSdk) Bounded [] ((List.range (ABI_CATALOG_MAX_ENTRIES + 1)).map nthAttach) := by
  intro h
  have hsize := (h.last (run_nth _ (Nat.le_refl _))).size
  rw [List.length_map, List.length_range] at hsize
  exact absurd hsize (Nat.not_succ_le_self _)

end Savitools.Contracts.CatalogBounds
