import Savitools.Playground.ApiKeys

namespace Savitools.Playground.StoredKeys

open Strings.CodeUnits Strings.Utf8 Strings.HexBytes Stores.Keyed Transitions.Runs Common.Encryption ApiKeys

variable {env : Environment} {s t : State}

/-- The plaintext that the columns of a row hold. -/
def opened (env : Environment) (key : ApiKey) : Option Text :=
  if key.keyVersion = 2 then decryptForUser env.crypto env.encryptionSecret key.userId (payload key) .playgroundApiKey
  else legacyDecrypt env (payload key)

/-- A mask of a text that is stored as `stored`. -/
def Fits (masked stored : Text) : Prop :=
  ∃ plaintext, wellFormed plaintext = stored ∧ (masked = maskApiKey plaintext ∨ masked = serviceMaskApiKey plaintext)

/-- A row that holds a text, and whose masks are of that text. -/
structure Holds (env : Environment) (key : ApiKey) (stored : Text) : Prop where
  opened : opened env key = some stored
  masked : ∀ masked, key.maskedKey = some masked → Fits masked stored
  preview : ∀ masked, key.keyPreview = some masked → Fits masked stored

/-- What the user once saved under the id is stored as `stored`. -/
def GivenFor (given : List Saved) (id : Nat) (userId stored : Text) : Prop :=
  ∃ saved ∈ given, saved.id = id ∧ saved.userId = userId ∧ wellFormed saved.plaintext = stored

/-- A row that holds what its user saved there, with masks of what was saved there. -/
structure Kept (env : Environment) (given : List Saved) (key : ApiKey) : Prop where
  opened : ∃ stored, opened env key = some stored ∧ GivenFor given key.id key.userId stored
  masked : ∀ masked, key.maskedKey = some masked → ∃ stored, Fits masked stored ∧ GivenFor given key.id key.userId stored
  preview : ∀ masked, key.keyPreview = some masked → ∃ stored, Fits masked stored ∧ GivenFor given key.id key.userId stored

/-- What is to be written is right in any state to come. -/
def Pending (env : Environment) (given : List Saved) : Task → Prop
  | .insert key plaintext => Holds env key (wellFormed plaintext)
  | .save _ key none => Kept env given key
  | .save _ key (some plaintext) =>
      Holds env key (wellFormed plaintext) ∧ ∃ stored, GivenFor given key.id key.userId stored
  | .remove _ => True
  | .upgrade key plaintext upgraded _ =>
      GivenFor given key.id key.userId plaintext ∧ opened env (key.setPayload upgraded) = some plaintext
  | .mask key masked => ∃ stored, Fits masked stored ∧ GivenFor given key.id key.userId stored

structure Invariant (env : Environment) (s : State) : Prop where
  owners : ∀ saved ∈ s.given, ∀ other ∈ s.given, saved.id = other.id → saved.userId = other.userId
  fresh : ∀ saved ∈ s.given, saved.id < s.nextId
  rows : ∀ row ∈ s.rows.rows, Kept env s.given row
  tasks : ∀ task ∈ s.tasks, Pending env s.given task
  used : ∀ entry ∈ s.used, ∃ userId, GivenFor s.given entry.1 userId entry.2
  shown : ∀ entry ∈ s.shown, ∃ userId stored, Fits entry.2 stored ∧ GivenFor s.given entry.1 userId stored
  thrown : s.thrown = []

section Masks

variable (plaintext : Text)

theorem fits_maskApiKey : Fits (maskApiKey plaintext) (wellFormed plaintext) := ⟨plaintext, rfl, .inl rfl⟩

theorem fits_serviceMaskApiKey : Fits (serviceMaskApiKey plaintext) (wellFormed plaintext) := ⟨plaintext, rfl, .inr rfl⟩

/-- What was stored is masked as what it was stored for. -/
theorem GivenFor.fits {given : List Saved} {id : Nat} {userId stored : Text} (h : GivenFor given id userId stored) :
    Fits (maskApiKey stored) stored := by
  obtain ⟨saved, -, -, -, rfl⟩ := h
  exact ⟨wellFormed saved.plaintext, wellFormed_wellFormed _, .inl rfl⟩

end Masks

section Given

variable {given more : List Saved} {id : Nat} {userId stored : Text} {key : ApiKey}

theorem GivenFor.mono (h : GivenFor given id userId stored) : GivenFor (given ++ more) id userId stored := by
  obtain ⟨saved, hsaved, hrest⟩ := h
  exact ⟨saved, List.mem_append_left _ hsaved, hrest⟩

theorem Kept.mono (h : Kept env given key) : Kept env (given ++ more) key where
  opened := h.opened.imp fun _ => And.imp_right GivenFor.mono
  masked masked hmasked := (h.masked masked hmasked).imp fun _ => And.imp_right GivenFor.mono
  preview masked hmasked := (h.preview masked hmasked).imp fun _ => And.imp_right GivenFor.mono

theorem Pending.mono {task : Task} (h : Pending env given task) : Pending env (given ++ more) task := by
  match task, h with
  | .insert _ _, h => exact h
  | .save _ _ none, h => exact Kept.mono h
  | .save _ _ (some _), ⟨hholds, hgiven⟩ => exact ⟨hholds, hgiven.imp fun _ => GivenFor.mono⟩
  | .remove _, h => exact h
  | .upgrade _ _ _ _, ⟨hgiven, hopened⟩ => exact ⟨hgiven.mono, hopened⟩
  | .mask _ _, h => exact h.imp fun _ => And.imp_right GivenFor.mono

theorem Holds.kept (h : Holds env key stored) (hgiven : GivenFor given key.id key.userId stored) : Kept env given key where
  opened := ⟨stored, h.opened, hgiven⟩
  masked masked hmasked := ⟨stored, h.masked masked hmasked, hgiven⟩
  preview masked hmasked := ⟨stored, h.preview masked hmasked, hgiven⟩

end Given

section Reads

variable {key : ApiKey} {userId : Text}

theorem opened_setPayload (h : env.crypto.Opens) (key : ApiKey) (plaintext : Text) (iv : Bytes) :
    opened env (key.setPayload (encrypt env key.userId plaintext iv)) = some (wellFormed plaintext) :=
  decryptForUser_encryptForUser h env.encryptionSecret key.userId plaintext .playgroundApiKey iv

theorem decryptAndUpgrade_eq {iv : Bytes} (howner : key.userId = userId) :
    decryptAndUpgrade env userId key iv = (opened env key).map fun plaintext =>
      (plaintext, if key.keyVersion = 2 then none else some (encrypt env userId plaintext iv)) := by
  subst howner
  rw [decryptAndUpgrade, opened]
  split
  · rfl
  · rfl

theorem findOwn_eq_some {id : Nat} (h : findOwn s id userId = some key) :
    key ∈ s.rows.rows ∧ key.id = id ∧ key.userId = userId := by
  obtain ⟨hget, howner⟩ := Option.filter_eq_some_iff.mp h
  obtain ⟨hrow, hid⟩ := KeyedRows.get?_eq_some.mp hget
  exact ⟨hrow, hid, by simpa using howner⟩

theorem Invariant.await (h : Invariant env s) {task : Task} (htask : Pending env s.given task) : Invariant env (s.await task) :=
  { h with
    tasks := by
      intro other hother
      rcases List.mem_append.mp hother with hold | hnew
      · exact h.tasks other hold
      · rwa [List.mem_singleton.mp hnew] }

theorem Kept.decryptAndUpgrade (hcrypto : env.crypto.Opens) {given : List Saved} (h : Kept env given key)
    (howner : key.userId = userId) (iv : Bytes) :
    ∃ stored, GivenFor given key.id key.userId stored ∧
      (ApiKeys.decryptAndUpgrade env userId key iv = some (stored, none) ∨
        ∃ upgraded, ApiKeys.decryptAndUpgrade env userId key iv = some (stored, some upgraded) ∧
          StoredKeys.opened env (key.setPayload upgraded) = some stored) := by
  obtain ⟨stored, hopened, hgiven⟩ := h.opened
  refine ⟨stored, hgiven, ?_⟩
  rw [decryptAndUpgrade_eq howner, hopened, Option.map_some]
  by_cases hversion : key.keyVersion = 2
  · exact .inl (by rw [if_pos hversion])
  · refine .inr ⟨encrypt env userId stored iv, by rw [if_neg hversion], ?_⟩
    obtain ⟨saved, -, -, -, rfl⟩ := hgiven
    rw [← howner, opened_setPayload hcrypto, wellFormed_wellFormed]

theorem Invariant.proxyRequest (hcrypto : env.crypto.Opens) (h : Invariant env s) (hrow : key ∈ s.rows.rows)
    (howner : key.userId = userId) (iv : Bytes) : Invariant env (stepProxyRequest env s userId key iv) := by
  obtain ⟨stored, hgiven, hplain | ⟨upgraded, hupgrade, hopened⟩⟩ := (h.rows key hrow).decryptAndUpgrade hcrypto howner iv
  · rw [stepProxyRequest, hplain]
    refine { h with used := fun entry hentry => ?_ }
    rcases List.mem_append.mp hentry with hold | hnew
    · exact h.used entry hold
    · rw [List.mem_singleton.mp hnew]
      exact ⟨key.userId, hgiven⟩
  · rw [stepProxyRequest, hupgrade]
    exact h.await ⟨hgiven, hopened⟩

theorem Invariant.maskFor (hcrypto : env.crypto.Opens) (h : Invariant env s) (hrow : key ∈ s.rows.rows)
    (howner : key.userId = userId) (iv : Bytes) : Invariant env (stepMaskFor env s userId key iv) := by
  rw [stepMaskFor]
  split
  next u masked hmasked =>
    refine { h with shown := fun entry hentry => ?_ }
    rcases List.mem_append.mp hentry with hold | hnew
    · exact h.shown entry hold
    · rw [List.mem_singleton.mp hnew]
      exact ⟨key.userId, (h.rows key hrow).masked _ hmasked⟩
  next =>
    obtain ⟨stored, hgiven, hplain | ⟨upgraded, hupgrade, hopened⟩⟩ := (h.rows key hrow).decryptAndUpgrade hcrypto howner iv
    · rw [hplain]
      exact h.await ⟨stored, hgiven.fits, hgiven⟩
    · rw [hupgrade]
      exact h.await ⟨hgiven, hopened⟩

end Reads

section Entities

variable (hcrypto : env.crypto.Opens) (userId apiKey : Text) (iv : Bytes)

include hcrypto

theorem holds_created (provider : ApiKeyProvider) (label : Text) (origin : Option Text) {masked : Text}
    (hmasked : Fits masked (wellFormed apiKey)) :
    Holds env (created env userId provider label apiKey origin masked iv) (wellFormed apiKey) where
  opened := decryptForUser_encryptForUser hcrypto env.encryptionSecret userId apiKey .playgroundApiKey iv
  masked := by
    rintro _ ⟨⟩
    exact hmasked
  preview := by
    rintro _ ⟨⟩
    exact fits_serviceMaskApiKey apiKey

theorem holds_updated (key : ApiKey) (howner : key.userId = userId) (label : Option Text) :
    Holds env (updated env key userId label (some apiKey) iv) (wellFormed apiKey) where
  opened := by
    subst howner
    exact decryptForUser_encryptForUser hcrypto env.encryptionSecret key.userId apiKey .playgroundApiKey iv
  masked := by
    rintro _ ⟨⟩
    exact fits_serviceMaskApiKey apiKey
  preview := by
    rintro _ ⟨⟩
    exact fits_serviceMaskApiKey apiKey

end Entities

section Writes

variable {key : ApiKey} {plaintext : Option Text}

/-- A call of `save` with an entity that holds what is given with it, or else what was. -/
theorem Invariant.save (h : Invariant env s)
    (hkey : Kept env (s.given ++ (plaintext.map (Saved.mk key.id key.userId)).toList) key)
    (howner : ∀ saved ∈ s.given, saved.id = key.id → saved.userId = key.userId) (hfresh : key.id < s.nextId) :
    Invariant env (ApiKeys.save s key plaintext) := by
  rw [ApiKeys.save]
  split
  · exact h
  have hnew (saved : Saved) (hsaved : saved ∈ (plaintext.map (Saved.mk key.id key.userId)).toList) :
      saved.id = key.id ∧ saved.userId = key.userId := by
    obtain ⟨text, -, rfl⟩ := Option.map_eq_some_iff.mp (Option.mem_toList.mp hsaved)
    exact ⟨rfl, rfl⟩
  constructor
  · intro saved hsaved other hother hid
    rcases List.mem_append.mp hsaved with hold | hsaved <;> rcases List.mem_append.mp hother with hold' | hother
    · exact h.owners saved hold other hold' hid
    · rw [(hnew other hother).2]
      exact howner saved hold (hid.trans (hnew other hother).1)
    · rw [(hnew saved hsaved).2]
      exact (howner other hold' (hid.symm.trans (hnew saved hsaved).1)).symm
    · rw [(hnew saved hsaved).2, (hnew other hother).2]
  · intro saved hsaved
    rcases List.mem_append.mp hsaved with hold | hsaved
    · exact h.fresh saved hold
    · rw [(hnew saved hsaved).1]
      exact hfresh
  · intro row hrow
    rcases KeyedRows.mem_put.mp hrow with rfl | ⟨hold, -⟩
    · exact hkey
    · exact (h.rows row hold).mono
  · exact fun task htask => (h.tasks task htask).mono
  · exact fun entry hentry => (h.used entry hentry).imp fun _ => GivenFor.mono
  · exact fun entry hentry => (h.shown entry hentry).imp fun _ => Exists.imp fun _ => And.imp_right GivenFor.mono
  · exact h.thrown

theorem Invariant.owner (h : Invariant env s) {id : Nat} {userId stored : Text} (hgiven : GivenFor s.given id userId stored)
    {saved : Saved} (hsaved : saved ∈ s.given) (hid : saved.id = id) : saved.userId = userId := by
  obtain ⟨other, hother, hsame, rfl, -⟩ := hgiven
  exact h.owners saved hsaved other hother (hid.trans hsame.symm)

theorem Kept.exists_given {given : List Saved} (h : Kept env given key) : ∃ stored, GivenFor given key.id key.userId stored :=
  h.opened.imp fun _ => And.right

theorem GivenFor.lt (h : Invariant env s) {id : Nat} {userId stored : Text} (hgiven : GivenFor s.given id userId stored) :
    id < s.nextId := by
  obtain ⟨saved, hsaved, rfl, -⟩ := hgiven
  exact h.fresh saved hsaved

theorem Invariant.insert (h : Invariant env s) {plaintext : Text} (hkey : Holds env key (wellFormed plaintext)) :
    Invariant env (stepCommit s (.insert key plaintext)) := by
  have hgiven : GivenFor (s.given ++ [⟨s.nextId, key.userId, plaintext⟩]) s.nextId key.userId (wellFormed plaintext) :=
    ⟨_, List.mem_append_right _ List.mem_cons_self, rfl, rfl, rfl⟩
  have hholds : Holds env { key with id := s.nextId } (wellFormed plaintext) := ⟨hkey.opened, hkey.masked, hkey.preview⟩
  have hnext : Invariant env { s with nextId := s.nextId + 1 } :=
    { h with fresh := fun saved hsaved => (h.fresh saved hsaved).trans (Nat.lt_succ_self _) }
  refine hnext.save (hholds.kept hgiven) (fun saved hsaved hid => ?_) (Nat.lt_succ_self _)
  exact absurd (h.fresh saved hsaved) (hid ▸ lt_irrefl s.nextId)

theorem Invariant.updateKey (h : Invariant env s) {userId stored : Text} {id : Nat} (hgiven : GivenFor s.given id userId stored)
    (f : ApiKey → ApiKey) (hf : ∀ row, (f row).id = row.id)
    (hkept : ∀ row ∈ s.rows.rows, row.id = id → row.userId = userId → Kept env s.given (f row)) :
    Invariant env { s with rows := s.rows.updateKeys [id] f hf } :=
  { h with
    rows := by
      intro row hrow
      obtain ⟨old, hold, rfl⟩ := (KeyedRows.mem_updateKeys hf).mp hrow
      split
      next hid =>
        have hid := List.mem_singleton.mp hid
        obtain ⟨other, saved, hsaved, hsame, howner, -⟩ := (h.rows old hold).exists_given
        exact hkept old hold hid (howner.symm.trans (h.owner hgiven hsaved (hsame.trans hid)))
      next => exact h.rows old hold }

theorem Invariant.delete (h : Invariant env s) (id : Nat) : Invariant env { s with rows := s.rows.delete id } :=
  { h with rows := fun row hrow => h.rows row (KeyedRows.mem_delete.mp hrow).1 }

theorem Invariant.upgrade (h : Invariant env s) {stored : Text} {upgraded : EncryptedPayload} (lists : Bool)
    (hgiven : GivenFor s.given key.id key.userId stored) (hopened : opened env (key.setPayload upgraded) = some stored) :
    Invariant env (stepCommit s (.upgrade key stored upgraded lists)) := by
  have hrows := h.updateKey hgiven (fun row => (row.setPayload upgraded).setMask (maskApiKey stored)) (fun _ => rfl) ?_
  · refine { hrows with used := fun entry hentry => ?_, shown := fun entry hentry => ?_ }
    · cases lists with
      | true => exact h.used entry hentry
      | false =>
          rcases List.mem_append.mp hentry with hold | hnew
          · exact h.used entry hold
          · rw [List.mem_singleton.mp hnew]
            exact ⟨key.userId, hgiven⟩
    · cases lists with
      | false => exact h.shown entry hentry
      | true =>
          rcases List.mem_append.mp hentry with hold | hnew
          · exact h.shown entry hold
          · rw [List.mem_singleton.mp hnew]
            exact ⟨key.userId, stored, hgiven.fits, hgiven⟩
  · intro row hrow hid howner
    have hsame : GivenFor s.given row.id row.userId stored := hid ▸ howner ▸ hgiven
    refine ⟨⟨stored, ?_, hsame⟩, ?_, (h.rows row hrow).preview⟩
    · rw [← hopened, opened, opened]
      simp only [ApiKey.setMask, ApiKey.setPayload, payload, howner]
    · rintro _ ⟨⟩
      exact ⟨stored, hgiven.fits, hsame⟩

theorem Invariant.mask (h : Invariant env s) {masked : Text}
    (hmask : ∃ stored, Fits masked stored ∧ GivenFor s.given key.id key.userId stored) :
    Invariant env (stepCommit s (.mask key masked)) := by
  obtain ⟨stored, hfits, hgiven⟩ := hmask
  have hrows := h.updateKey hgiven (·.setMask masked) (fun _ => rfl) ?_
  · refine { hrows with shown := fun entry hentry => ?_ }
    rcases List.mem_append.mp hentry with hold | hnew
    · exact h.shown entry hold
    · rw [List.mem_singleton.mp hnew]
      exact ⟨key.userId, stored, hfits, hgiven⟩
  · intro row hrow hid howner
    refine ⟨(h.rows row hrow).opened, ?_, (h.rows row hrow).preview⟩
    rintro _ ⟨⟩
    exact ⟨stored, hfits, hid ▸ howner ▸ hgiven⟩

theorem invariant_commit (h : Invariant env s) {task : Task} (htask : Pending env s.given task) :
    Invariant env (stepCommit s task) := by
  match task, htask with
  | .insert key plaintext, hkey => exact h.insert hkey
  | .save _ key none, hkey =>
      obtain ⟨stored, hgiven⟩ := Kept.exists_given hkey
      exact h.save (Kept.mono hkey) (fun saved hsaved hid => h.owner hgiven hsaved hid) (hgiven.lt h)
  | .save _ key (some plaintext), ⟨hkey, stored, hgiven⟩ =>
      have hnew : GivenFor (s.given ++ [⟨key.id, key.userId, plaintext⟩]) key.id key.userId (wellFormed plaintext) :=
        ⟨_, List.mem_append_right _ List.mem_cons_self, rfl, rfl, rfl⟩
      exact h.save (hkey.kept hnew) (fun saved hsaved hid => h.owner hgiven hsaved hid) (hgiven.lt h)
  | .remove id, _ => exact h.delete id
  | .upgrade key plaintext upgraded lists, ⟨hgiven, hopened⟩ => exact h.upgrade lists hgiven hopened
  | .mask key masked, hmask => exact h.mask hmask

end Writes

theorem invariant_step (hcrypto : env.crypto.Opens) : Preserves (step env) always (Invariant env) := by
  intro s a t h _ hstep
  cases a with
  | saveKey userId provider label apiKey iv =>
      rw [step] at hstep
      split at hstep
      next => cases hstep
      next =>
        obtain rfl := Option.some.inj hstep
        exact h.await (holds_created hcrypto userId apiKey iv provider label none (fits_serviceMaskApiKey apiKey))
  | importProvider userId name origin apiKey iv =>
      obtain rfl := Option.some.inj hstep
      exact h.await (holds_created hcrypto userId apiKey iv .custom name (some origin) (fits_maskApiKey apiKey))
  | updateKey id userId label apiKey iv =>
      obtain ⟨key, hfind, hnext⟩ := Option.bind_eq_some_iff.mp hstep
      obtain ⟨hrow, rfl, howner⟩ := findOwn_eq_some hfind
      obtain rfl := Option.some.inj hnext
      cases apiKey with
      | none =>
          have htask : Pending env s.given (.save key (updated env key userId label none iv) none) :=
            ⟨(h.rows key hrow).opened, (h.rows key hrow).masked, (h.rows key hrow).preview⟩
          exact h.await htask
      | some apiKey =>
          have htask : Pending env s.given (.save key (updated env key userId label (some apiKey) iv) (some apiKey)) :=
            ⟨holds_updated hcrypto userId apiKey iv key howner label, (h.rows key hrow).exists_given⟩
          exact h.await htask
  | renameProvider id userId name =>
      obtain ⟨key, hfind, hnext⟩ := Option.bind_eq_some_iff.mp hstep
      obtain ⟨hrow, rfl, howner⟩ := findOwn_eq_some hfind
      obtain rfl := Option.some.inj hnext
      have htask : Pending env s.given (.save key { key with label := name } none) :=
        ⟨(h.rows key hrow).opened, (h.rows key hrow).masked, (h.rows key hrow).preview⟩
      exact h.await htask
  | deleteKey id userId =>
      obtain ⟨key, hfind, hnext⟩ := Option.bind_eq_some_iff.mp hstep
      obtain rfl := Option.some.inj hnext
      exact h.await (show Pending env s.given (.remove key.id) from trivial)
  | proxyRequest id userId iv =>
      obtain ⟨key, hfind, hnext⟩ := Option.bind_eq_some_iff.mp hstep
      obtain ⟨hrow, rfl, howner⟩ := findOwn_eq_some hfind
      obtain rfl := Option.some.inj hnext
      exact h.proxyRequest hcrypto hrow howner iv
  | listKeys id userId iv =>
      obtain ⟨key, hfind, hnext⟩ := Option.bind_eq_some_iff.mp hstep
      obtain ⟨hrow, rfl, howner⟩ := findOwn_eq_some hfind
      obtain rfl := Option.some.inj hnext
      exact h.maskFor hcrypto hrow howner iv
  | commit i ok =>
      obtain ⟨task, htask, hnext⟩ := Option.bind_eq_some_iff.mp hstep
      obtain rfl := Option.some.inj hnext
      have hrest : Invariant env { s with tasks := s.tasks.eraseIdx i } :=
        { h with tasks := fun other hother => h.tasks other (List.mem_of_mem_eraseIdx hother) }
      cases ok with
      | false => exact hrest
      | true => exact invariant_commit hrest (h.tasks task (List.mem_of_getElem? htask))

/-- What was saved last under an id. -/
def latest (given : List Saved) (id : Nat) : Option Saved := given.reverse.find? fun saved => saved.id = id

/-- A row that holds what was saved last, with the masks of it. -/
def Current (env : Environment) (given : List Saved) (row : ApiKey) : Prop :=
  ∃ saved, latest given row.id = some saved ∧ Holds env row (wellFormed saved.plaintext)

/-- The columns that a call has loaded are those of the row. -/
def SameKey (row key : ApiKey) : Prop :=
  row.userId = key.userId ∧ payload row = payload key ∧ row.keyVersion = key.keyVersion

instance (row key : ApiKey) : Decidable (SameKey row key) := inferInstanceAs (Decidable (_ ∧ _ ∧ _))

/-- No other call has changed the key since it was loaded. -/
def UpToDate (s : State) : Task → Prop
  | .insert _ _ | .remove _ => True
  | .save loaded _ _ => ∃ row ∈ s.rows.rows, row.id = loaded.id ∧ SameKey row loaded
  | .upgrade key _ _ _ | .mask key _ => ∀ row ∈ s.rows.rows, row.id = key.id → SameKey row key

instance (s : State) : (task : Task) → Decidable (UpToDate s task)
  | .insert _ _ | .remove _ => inferInstanceAs (Decidable True)
  | .save loaded _ _ => inferInstanceAs (Decidable (∃ row ∈ s.rows.rows, row.id = loaded.id ∧ SameKey row loaded))
  | .upgrade key _ _ _ | .mask key _ => inferInstanceAs (Decidable (∀ row ∈ s.rows.rows, row.id = key.id → SameKey row key))

def Undisturbed (s : State) : Act → Prop
  | .commit i true => ∀ task ∈ s.tasks[i]?, UpToDate s task
  | _ => True

instance (s : State) : (a : Act) → Decidable (Undisturbed s a)
  | .commit i true => inferInstanceAs (Decidable (∀ task ∈ s.tasks[i]?, UpToDate s task))
  | .commit _ false | .saveKey .. | .importProvider .. | .updateKey .. | .renameProvider .. | .deleteKey ..
  | .proxyRequest .. | .listKeys .. => inferInstanceAs (Decidable True)

/-- What is to be written is right as long as the row is the one that was loaded. -/
def Matching (env : Environment) : Task → Prop
  | .insert _ _ | .remove _ => True
  | .save loaded key none => key.id = loaded.id ∧ ∃ stored, opened env loaded = some stored ∧ Holds env key stored
  | .save loaded key (some _) => key.id = loaded.id
  | .upgrade key plaintext _ _ => opened env key = some plaintext
  | .mask key masked => ∃ stored, opened env key = some stored ∧ Fits masked stored

structure CurrentInvariant (env : Environment) (s : State) : Prop where
  base : Invariant env s
  rows : ∀ row ∈ s.rows.rows, Current env s.given row
  tasks : ∀ task ∈ s.tasks, Matching env task

section Latest

variable {key row : ApiKey}

theorem latest_append_self (given : List Saved) (saved : Saved) : latest (given ++ [saved]) saved.id = some saved := by
  rw [latest, List.reverse_append, List.reverse_singleton, List.singleton_append, List.find?_cons_of_pos]
  exact decide_eq_true rfl

theorem latest_append_of_ne (given : List Saved) {saved : Saved} {id : Nat} (h : id ≠ saved.id) :
    latest (given ++ [saved]) id = latest given id := by
  rw [latest, List.reverse_append, List.reverse_singleton, List.singleton_append, List.find?_cons_of_neg, latest]
  simpa using h.symm

theorem SameKey.opened (h : SameKey row key) : opened env row = opened env key := by
  obtain ⟨howner, hpayload, hversion⟩ := h
  rw [StoredKeys.opened, StoredKeys.opened, howner, hpayload, hversion]

theorem CurrentInvariant.await (h : CurrentInvariant env s) {task : Task} (htask : Pending env s.given task)
    (hmatching : Matching env task) : CurrentInvariant env (s.await task) where
  base := h.base.await htask
  rows := h.rows
  tasks := by
    intro other hother
    rcases List.mem_append.mp hother with hold | hnew
    · exact h.tasks other hold
    · rwa [List.mem_singleton.mp hnew]

/-- A call of `save` with an entity that holds what was given last. -/
theorem CurrentInvariant.save (h : CurrentInvariant env s) {plaintext : Option Text}
    (hbase : Invariant env (ApiKeys.save s key plaintext))
    (hkey : Current env (s.given ++ (plaintext.map (Saved.mk key.id key.userId)).toList) key) :
    CurrentInvariant env (ApiKeys.save s key plaintext) := by
  refine ⟨hbase, ?_, ?_⟩
  · intro row hrow
    rw [ApiKeys.save] at hrow ⊢
    by_cases hclash : clashes s key = true
    · rw [if_pos hclash] at hrow ⊢
      exact h.rows row hrow
    · rw [if_neg hclash] at hrow ⊢
      rcases KeyedRows.mem_put.mp hrow with rfl | ⟨hold, hne⟩
      · exact hkey
      · obtain ⟨saved, hlatest, hholds⟩ := h.rows row hold
        refine ⟨saved, ?_, hholds⟩
        cases plaintext with
        | none => rwa [Option.map_none, Option.toList_none, List.append_nil]
        | some plaintext => rwa [Option.map_some, Option.toList_some, latest_append_of_ne _ hne]
  · rw [ApiKeys.save]
    split
    · exact h.tasks
    · exact h.tasks

theorem CurrentInvariant.insert (h : CurrentInvariant env s) {plaintext : Text} (hkey : Holds env key (wellFormed plaintext)) :
    CurrentInvariant env (stepCommit s (.insert key plaintext)) := by
  have hnext : CurrentInvariant env { s with nextId := s.nextId + 1 } :=
    ⟨{ h.base with fresh := fun saved hsaved => (h.base.fresh saved hsaved).trans (Nat.lt_succ_self _) }, h.rows, h.tasks⟩
  exact hnext.save (h.base.insert hkey)
    ⟨⟨s.nextId, key.userId, plaintext⟩, latest_append_self _ _, hkey.opened, hkey.masked, hkey.preview⟩

/-- A write to the row of an id that leaves it holding the text that it holds. -/
theorem CurrentInvariant.updateKey (h : CurrentInvariant env s) {id : Nat} (f : ApiKey → ApiKey) (hf : ∀ row, (f row).id = row.id)
    (hholds : ∀ row ∈ s.rows.rows, row.id = id → ∀ stored, Holds env row stored → Holds env (f row) stored) :
    ∀ row ∈ (s.rows.updateKeys [id] f hf).rows, Current env s.given row := by
  intro row hrow
  obtain ⟨old, hold, rfl⟩ := (KeyedRows.mem_updateKeys hf).mp hrow
  obtain ⟨saved, hlatest, hsaved⟩ := h.rows old hold
  split
  next hid => exact ⟨saved, by rwa [hf], hholds old hold (List.mem_singleton.mp hid) _ hsaved⟩
  next => exact ⟨saved, hlatest, hsaved⟩

end Latest

theorem current_commit (h : CurrentInvariant env s) {task : Task} (htask : Pending env s.given task)
    (hmatching : Matching env task) (hdate : UpToDate s task) : CurrentInvariant env (stepCommit s task) := by
  have hbase := invariant_commit h.base htask
  match task, htask, hmatching, hdate with
  | .insert key plaintext, hkey, _, _ => exact h.insert hkey
  | .save loaded key none, _, ⟨hid, stored, hloaded, hkey⟩, ⟨row, hrow, hsame, hdate⟩ =>
      obtain ⟨saved, hlatest, hholds⟩ := h.rows row hrow
      have hstored : stored = wellFormed saved.plaintext :=
        Option.some.inj (hloaded.symm.trans (hdate.opened.symm.trans hholds.opened))
      refine h.save hbase ⟨saved, ?_, hstored ▸ hkey⟩
      rwa [Option.map_none, Option.toList_none, List.append_nil, hid, ← hsame]
  | .save loaded key (some plaintext), ⟨hkey, _⟩, _, _ =>
      exact h.save hbase ⟨⟨key.id, key.userId, plaintext⟩, latest_append_self _ _, hkey⟩
  | .remove id, _, _, _ => exact ⟨hbase, fun row hrow => h.rows row (KeyedRows.mem_delete.mp hrow).1, h.tasks⟩
  | .upgrade key plaintext upgraded lists, ⟨hgiven, hopened⟩, hmatching, hdate =>
      have hrow (row : ApiKey) (hrow : row ∈ s.rows.rows) (hid : row.id = key.id) (stored : Text) (hholds : Holds env row stored) :
          Holds env ((row.setPayload upgraded).setMask (maskApiKey plaintext)) stored := by
        have hstored : plaintext = stored :=
          Option.some.inj (hmatching.symm.trans ((hdate row hrow hid).opened.symm.trans hholds.opened))
        refine ⟨?_, ?_, hholds.preview⟩
        · rw [← hstored, ← hopened, opened, opened]
          simp only [ApiKey.setMask, ApiKey.setPayload, payload, (hdate row hrow hid).1]
        · rintro _ ⟨⟩
          exact hstored ▸ hgiven.fits
      exact ⟨hbase, h.updateKey (fun row => (row.setPayload upgraded).setMask (maskApiKey plaintext)) (fun _ => rfl) hrow, h.tasks⟩
  | .mask key masked, _, ⟨stored, hopened, hfits⟩, hdate =>
      have hrow (row : ApiKey) (hrow : row ∈ s.rows.rows) (hid : row.id = key.id) (other : Text) (hholds : Holds env row other) :
          Holds env (row.setMask masked) other := by
        have hstored : stored = other :=
          Option.some.inj (hopened.symm.trans ((hdate row hrow hid).opened.symm.trans hholds.opened))
        refine ⟨hholds.opened, ?_, hholds.preview⟩
        rintro _ ⟨⟩
        exact hstored ▸ hfits
      exact ⟨hbase, h.updateKey (·.setMask masked) (fun _ => rfl) hrow, h.tasks⟩

section Steps

variable {key : ApiKey} {userId : Text} {iv : Bytes}

theorem Current.holds {given : List Saved} {row : ApiKey} (h : Current env given row) : ∃ stored, Holds env row stored := by
  obtain ⟨saved, -, hholds⟩ := h
  exact ⟨_, hholds⟩

theorem decryptAndUpgrade_opened {plaintext : Text} {upgraded : Option EncryptedPayload} (howner : key.userId = userId)
    (h : decryptAndUpgrade env userId key iv = some (plaintext, upgraded)) : opened env key = some plaintext := by
  rw [decryptAndUpgrade_eq howner] at h
  obtain ⟨stored, hopened, hpair⟩ := Option.map_eq_some_iff.mp h
  rw [hopened, (Prod.mk.inj hpair).1]

theorem CurrentInvariant.proxyRequest (h : CurrentInvariant env s)
    (hbase : Invariant env (stepProxyRequest env s userId key iv)) (howner : key.userId = userId) :
    CurrentInvariant env (stepProxyRequest env s userId key iv) := by
  refine ⟨hbase, ?_, ?_⟩
  · rw [stepProxyRequest]
    split <;> exact h.rows
  · rw [stepProxyRequest]
    split
    next => exact h.tasks
    next => exact h.tasks
    next plaintext upgraded hread =>
      intro task htask
      rcases List.mem_append.mp htask with hold | hnew
      · exact h.tasks task hold
      · rw [List.mem_singleton.mp hnew]
        exact decryptAndUpgrade_opened howner hread

theorem CurrentInvariant.maskFor (h : CurrentInvariant env s)
    (hbase : Invariant env (stepMaskFor env s userId key iv)) (hrow : key ∈ s.rows.rows) (howner : key.userId = userId) :
    CurrentInvariant env (stepMaskFor env s userId key iv) := by
  refine ⟨hbase, ?_, ?_⟩
  · rw [stepMaskFor]
    split
    next => exact h.rows
    next => split <;> exact h.rows
  · rw [stepMaskFor]
    split
    next => exact h.tasks
    next =>
      split
      next => exact h.tasks
      next plaintext hread =>
        intro task htask
        rcases List.mem_append.mp htask with hold | hnew
        · exact h.tasks task hold
        · rw [List.mem_singleton.mp hnew]
          have hopened := decryptAndUpgrade_opened howner hread
          obtain ⟨stored, hstored, hgiven⟩ := (h.base.rows key hrow).opened
          obtain rfl := Option.some.inj (hstored.symm.trans hopened)
          exact ⟨stored, hopened, hgiven.fits⟩
      next plaintext upgraded hread =>
        intro task htask
        rcases List.mem_append.mp htask with hold | hnew
        · exact h.tasks task hold
        · rw [List.mem_singleton.mp hnew]
          exact decryptAndUpgrade_opened howner hread

theorem current_step (hcrypto : env.crypto.Opens) : Preserves (step env) Undisturbed (CurrentInvariant env) := by
  intro s a t h hdate hstep
  have hbase := invariant_step hcrypto s a t h.base trivial hstep
  cases a with
  | saveKey userId provider label apiKey iv =>
      rw [step] at hstep
      split at hstep
      next => cases hstep
      next =>
        obtain rfl := Option.some.inj hstep
        exact h.await (hbase.tasks _ (List.mem_append_right _ List.mem_cons_self)) trivial
  | importProvider userId name origin apiKey iv =>
      obtain rfl := Option.some.inj hstep
      exact h.await (hbase.tasks _ (List.mem_append_right _ List.mem_cons_self)) trivial
  | updateKey id userId label apiKey iv =>
      obtain ⟨key, hfind, hnext⟩ := Option.bind_eq_some_iff.mp hstep
      obtain ⟨hrow, rfl, howner⟩ := findOwn_eq_some hfind
      obtain rfl := Option.some.inj hnext
      refine h.await (hbase.tasks _ (List.mem_append_right _ List.mem_cons_self)) ?_
      cases apiKey with
      | none =>
          obtain ⟨stored, hholds⟩ := (h.rows key hrow).holds
          exact ⟨rfl, stored, hholds.opened, hholds.opened, hholds.masked, hholds.preview⟩
      | some apiKey => exact rfl
  | renameProvider id userId name =>
      obtain ⟨key, hfind, hnext⟩ := Option.bind_eq_some_iff.mp hstep
      obtain ⟨hrow, rfl, howner⟩ := findOwn_eq_some hfind
      obtain rfl := Option.some.inj hnext
      obtain ⟨stored, hholds⟩ := (h.rows key hrow).holds
      exact h.await (hbase.tasks _ (List.mem_append_right _ List.mem_cons_self))
        ⟨rfl, stored, hholds.opened, hholds.opened, hholds.masked, hholds.preview⟩
  | deleteKey id userId =>
      obtain ⟨key, hfind, hnext⟩ := Option.bind_eq_some_iff.mp hstep
      obtain rfl := Option.some.inj hnext
      exact h.await (hbase.tasks _ (List.mem_append_right _ List.mem_cons_self)) trivial
  | proxyRequest id userId iv =>
      obtain ⟨key, hfind, hnext⟩ := Option.bind_eq_some_iff.mp hstep
      obtain ⟨hrow, rfl, howner⟩ := findOwn_eq_some hfind
      obtain rfl := Option.some.inj hnext
      exact h.proxyRequest hbase howner
  | listKeys id userId iv =>
      obtain ⟨key, hfind, hnext⟩ := Option.bind_eq_some_iff.mp hstep
      obtain ⟨hrow, rfl, howner⟩ := findOwn_eq_some hfind
      obtain rfl := Option.some.inj hnext
      exact h.maskFor hbase hrow howner
  | commit i ok =>
      obtain ⟨task, htask, hnext⟩ := Option.bind_eq_some_iff.mp hstep
      obtain rfl := Option.some.inj hnext
      have hmem := List.mem_of_getElem? htask
      have hrest : CurrentInvariant env { s with tasks := s.tasks.eraseIdx i } :=
        ⟨{ h.base with tasks := fun other hother => h.base.tasks other (List.mem_of_mem_eraseIdx hother) }, h.rows,
          fun other hother => h.tasks other (List.mem_of_mem_eraseIdx hother)⟩
      cases ok with
      | false => exact hrest
      | true => exact current_commit hrest (h.base.tasks task hmem) (h.tasks task hmem) (hdate task htask)

end Steps

/-- Keys that hold what was saved last under their ids, before any call. -/
structure Initial (env : Environment) (rows : KeyedRows ApiKey.id) (nextId : Nat) (given : List Saved) : Prop where
  owners : ∀ saved ∈ given, ∀ other ∈ given, saved.id = other.id → saved.userId = other.userId
  fresh : ∀ saved ∈ given, saved.id < nextId
  rows : ∀ row ∈ rows.rows, ∃ saved, latest given row.id = some saved ∧ saved.userId = row.userId ∧
    Holds env row (wellFormed saved.plaintext)

section Runs

variable {rows : KeyedRows ApiKey.id} {nextId : Nat} {given : List Saved}

theorem mem_of_latest {id : Nat} {saved : Saved} (h : latest given id = some saved) : saved ∈ given ∧ saved.id = id :=
  ⟨List.mem_reverse.mp (List.mem_of_find?_eq_some h), by simpa using List.find?_some h⟩

theorem Initial.invariant (h : Initial env rows nextId given) :
    CurrentInvariant env { rows := rows, nextId := nextId, given := given } where
  base :=
    { owners := h.owners
      fresh := h.fresh
      rows := by
        intro row hrow
        obtain ⟨saved, hlatest, howner, hholds⟩ := h.rows row hrow
        obtain ⟨hsaved, hid⟩ := mem_of_latest hlatest
        exact hholds.kept ⟨saved, hsaved, hid, howner, rfl⟩
      tasks := List.forall_mem_nil _
      used := List.forall_mem_nil _
      shown := List.forall_mem_nil _
      thrown := rfl }
  rows := by
    intro row hrow
    obtain ⟨saved, hlatest, -, hholds⟩ := h.rows row hrow
    exact ⟨saved, hlatest, hholds⟩
  tasks := List.forall_mem_nil _

/-- Whatever the calls do to each other, a key is never lost to its user: every row holds what its user saved there,
and so does all that is read. -/
structure Readable (env : Environment) (s : State) : Prop where
  rows : ∀ row ∈ s.rows.rows, Kept env s.given row
  used : ∀ entry ∈ s.used, ∃ userId, GivenFor s.given entry.1 userId entry.2
  shown : ∀ entry ∈ s.shown, ∃ userId stored, Fits entry.2 stored ∧ GivenFor s.given entry.1 userId stored
  thrown : s.thrown = []

theorem keys_readable (hcrypto : env.crypto.Opens) (h : Initial env rows nextId given) (acts : List Act) :
    Throughout (step env) (Readable env) { rows := rows, nextId := nextId, given := given } acts :=
  (invariant_step hcrypto).throughout (fun _ h => ⟨h.rows, h.used, h.shown, h.thrown⟩) h.invariant.base
    (guarded_always (step env) _ acts)

/-- As long as no call writes over what another has written since, a row holds what was saved last, and its masks are
of that. -/
theorem keys_current (hcrypto : env.crypto.Opens) (h : Initial env rows nextId given) {acts : List Act}
    (hacts : Guarded (step env) Undisturbed { rows := rows, nextId := nextId, given := given } acts) :
    Throughout (step env) (fun s => ∀ row ∈ s.rows.rows, Current env s.given row)
      { rows := rows, nextId := nextId, given := given } acts :=
  (current_step hcrypto).throughout (fun _ h => h.rows) h.invariant hacts

end Runs

def sampleEnv : Environment := ⟨sampleCrypto, text "e", text "j"⟩

/-- A row of the old scheme, without a mask. -/
def legacyRow : ApiKey where
  id := 1
  userId := text "u"
  provider := .fluxa
  label := text "main"
  encryptedKey := bytesHex (textEncode (text "old"))
  iv := bytesHex [7]
  authTag := bytesHex (textEncode (text "jsavitools-playground-spec-cache") ++ [7])
  keyVersion := 1
  providerOrigin := none
  maskedKey := none
  keyPreview := none

def sampleRows : KeyedRows ApiKey.id := ⟨[legacyRow], by decide⟩

def sampleGiven : List Saved := [⟨1, text "u", text "old"⟩]

theorem sample_initial : Initial sampleEnv sampleRows 2 sampleGiven where
  owners := by
    intro saved hsaved other hother _
    rw [List.mem_singleton.mp hsaved, List.mem_singleton.mp hother]
  fresh := by
    intro saved hsaved
    rw [List.mem_singleton.mp hsaved]
    decide
  rows := by
    intro row hrow
    rw [List.mem_singleton.mp hrow]
    exact ⟨_, rfl, rfl, by decide, nofun, nofun⟩

/-- A request that finds the old row, and an update of the key that is quicker. -/
def overtaken : List Act :=
  [.proxyRequest 1 (text "u") [1], .updateKey 1 (text "u") none (some (text "new")) [2], .commit 1 true, .commit 0 true]

theorem keys_readable_overtaken :
    Throughout (step sampleEnv) (Readable sampleEnv) { rows := sampleRows, nextId := 2, given := sampleGiven } overtaken :=
  keys_readable sampleCrypto_opens sample_initial overtaken

/-- The same calls, one after the other. -/
def inTurn : List Act :=
  [.proxyRequest 1 (text "u") [1], .commit 0 true, .updateKey 1 (text "u") none (some (text "new")) [2], .commit 0 true,
    .listKeys 1 (text "u") [3]]

theorem keys_current_inTurn :
    Throughout (step sampleEnv) (fun s => ∀ row ∈ s.rows.rows, Current sampleEnv s.given row)
      { rows := sampleRows, nextId := 2, given := sampleGiven } inTurn :=
  keys_current sampleCrypto_opens sample_initial (by decide)

/-- Where the update is overtaken, the row ends up with the old key again. -/
example : (run (step sampleEnv) { rows := sampleRows, nextId := 2, given := sampleGiven } overtaken).map
    (fun s => s.rows.rows.map (opened sampleEnv)) = some [some (text "old")] := by decide

end Savitools.Playground.StoredKeys
