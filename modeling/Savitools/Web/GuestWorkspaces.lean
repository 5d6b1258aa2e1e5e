import Mathlib.Logic.Function.Basic
import Savitools.Transitions.Runs
import Savitools.Web.WorkspaceFormat

namespace Savitools.Web.GuestWorkspaces

open Strings.CodeUnits Json.Numbers Json.Values Transitions.Runs Web.WorkspaceFormat

structure WorkspaceSummary where
  id : Text
  name : Text
  updatedAt : Text
deriving DecidableEq

structure WorkspaceState where
  composerState : List (Text × Value Number)
  operations : List (Value Number)

/-- The items of the browser's storage, by their keys; those of lists and of data have different prefixes. -/
structure Storage where
  lists : Text → Option (List WorkspaceSummary)
  data : Text → Option WorkspaceState

/-- Which of the two writes of a call come through. -/
structure Writes where
  data : Bool
  list : Bool

def safeSetItem {α : Type} (key : Text) (value : α) (success : Bool) (items : Text → Option α) : Text → Option α :=
  if success then Function.update items key (some value) else items

def safeRemoveItem {α : Type} (key : Text) (success : Bool) (items : Text → Option α) : Text → Option α :=
  if success then Function.update items key none else items

def guestWorkspaceListKey (tool : Text) : Text := text "savitools:guest:workspaces:" ++ tool

def guestWorkspaceDataKey (tool id : Text) : Text := text "savitools:guest:workspace:" ++ tool ++ unit ':' :: id

section Helpers

variable (tool : Text)

def readGuestWorkspaceList (storage : Storage) : List WorkspaceSummary :=
  (storage.lists (guestWorkspaceListKey tool)).getD []

def writeGuestWorkspaceList (workspaces : List WorkspaceSummary) (success : Bool) (storage : Storage) : Storage :=
  { storage with lists := safeSetItem (guestWorkspaceListKey tool) workspaces success storage.lists }

def readGuestWorkspaceData (id : Text) (storage : Storage) : Option WorkspaceState :=
  storage.data (guestWorkspaceDataKey tool id)

def writeGuestWorkspaceData (id : Text) (state : WorkspaceState) (success : Bool) (storage : Storage) : Storage :=
  { storage with data := safeSetItem (guestWorkspaceDataKey tool id) state success storage.data }

def removeGuestWorkspaceData (id : Text) (success : Bool) (storage : Storage) : Storage :=
  { storage with data := safeRemoveItem (guestWorkspaceDataKey tool id) success storage.data }

theorem dataKey_inj {id other : Text} : guestWorkspaceDataKey tool id = guestWorkspaceDataKey tool other ↔ id = other := by
  simp [guestWorkspaceDataKey]

theorem listKey_ne_dataKey (other id : Text) : guestWorkspaceListKey tool ≠ guestWorkspaceDataKey other id := by
  intro h
  have hlist : (guestWorkspaceListKey tool).take 26 = text "savitools:guest:workspaces" := rfl
  have hdata : (guestWorkspaceDataKey other id).take 26 = text "savitools:guest:workspace:" := rfl
  rw [h, hdata] at hlist
  exact absurd hlist (by decide)

variable {tool} {storage : Storage}

@[simp] theorem readList_writeList (workspaces : List WorkspaceSummary) (success : Bool) :
    readGuestWorkspaceList tool (writeGuestWorkspaceList tool workspaces success storage) =
      if success then workspaces else readGuestWorkspaceList tool storage := by
  cases success <;> simp [readGuestWorkspaceList, writeGuestWorkspaceList, safeSetItem]

@[simp] theorem readList_writeData (id : Text) (state : WorkspaceState) (success : Bool) :
    readGuestWorkspaceList tool (writeGuestWorkspaceData tool id state success storage) =
      readGuestWorkspaceList tool storage := rfl

@[simp] theorem readList_removeData (id : Text) (success : Bool) :
    readGuestWorkspaceList tool (removeGuestWorkspaceData tool id success storage) =
      readGuestWorkspaceList tool storage := rfl

@[simp] theorem readData_writeList (id : Text) (workspaces : List WorkspaceSummary) (success : Bool) :
    readGuestWorkspaceData tool id (writeGuestWorkspaceList tool workspaces success storage) =
      readGuestWorkspaceData tool id storage := rfl

theorem readData_writeData (id other : Text) (state : WorkspaceState) (success : Bool) :
    readGuestWorkspaceData tool other (writeGuestWorkspaceData tool id state success storage) =
      if success = true ∧ other = id then some state else readGuestWorkspaceData tool other storage := by
  cases success with
  | false => simp [readGuestWorkspaceData, writeGuestWorkspaceData, safeSetItem]
  | true => simp [readGuestWorkspaceData, writeGuestWorkspaceData, safeSetItem, Function.update_apply, dataKey_inj]

theorem readData_removeData {id other : Text} (h : other ≠ id) (success : Bool) :
    readGuestWorkspaceData tool other (removeGuestWorkspaceData tool id success storage) =
      readGuestWorkspaceData tool other storage := by
  cases success with
  | false => rfl
  | true => simp [readGuestWorkspaceData, removeGuestWorkspaceData, safeRemoveItem, dataKey_inj, h]

end Helpers

/-- What a call came to: whether its data was written, if it was to write any, and how its promise was settled. -/
structure Report where
  dataWritten : Option Bool
  outcome : Except WorkspaceFormatError (Option WorkspaceSummary)

structure Manager where
  storage : Storage
  workspaces : List WorkspaceSummary
  reports : List Report := []

/-- A call of the manager, as its last render has it. New ids and the time come from outside. -/
inductive Call
  | loadWorkspaces
  | saveCurrentWorkspace (name : Text) (state : WorkspaceState) (generated now : Text) (writes : Writes)
  | renameWorkspace (id newName now : Text) (listWritten : Bool)
  | deleteWorkspace (id : Text) (removed listWritten : Bool)
  | duplicateWorkspace (id generated now : Text) (writes : Writes)
  | importWorkspace (json generated now : Text) (writes : Writes)

section Calls

variable (tool : Text)

/-- `workspaces.map((w) => (w.id === id ? updated : w))` -/
def replaced (id : Text) (updated : WorkspaceSummary) (workspaces : List WorkspaceSummary) : List WorkspaceSummary :=
  workspaces.map fun w => if w.id = id then updated else w

/-- The data of a new workspace is written, and the list with it at its end. -/
def added (m : Manager) (created : WorkspaceSummary) (state : WorkspaceState) (writes : Writes)
    (value : Option WorkspaceSummary) : Manager :=
  let newList := m.workspaces ++ [created]
  { storage := writeGuestWorkspaceList tool newList writes.list
      (writeGuestWorkspaceData tool created.id state writes.data m.storage)
    workspaces := newList
    reports := m.reports ++ [⟨some writes.data, .ok value⟩] }

def saveCurrentWorkspace (m : Manager) (name : Text) (state : WorkspaceState) (generated now : Text) (writes : Writes) :
    Manager :=
  match m.workspaces.find? fun w => w.name = name with
  | some existing =>
      let updated := { existing with updatedAt := now }
      { storage := writeGuestWorkspaceList tool (replaced existing.id updated m.workspaces) writes.list
          (writeGuestWorkspaceData tool existing.id state writes.data m.storage)
        workspaces := replaced existing.id updated m.workspaces
        reports := m.reports ++ [⟨some writes.data, .ok (some updated)⟩] }
  | none => added tool m ⟨generated, name, now⟩ state writes (some ⟨generated, name, now⟩)

def returned (m : Manager) : Manager := { m with reports := m.reports ++ [⟨none, .ok none⟩] }

def renameWorkspace (m : Manager) (id newName now : Text) (listWritten : Bool) : Manager :=
  match m.workspaces.find? fun w => w.id = id with
  | none => returned m
  | some ws =>
      let newList := replaced id { ws with name := newName, updatedAt := now } m.workspaces
      { storage := writeGuestWorkspaceList tool newList listWritten m.storage
        workspaces := newList
        reports := m.reports ++ [⟨none, .ok none⟩] }

def deleteWorkspace (m : Manager) (id : Text) (removed listWritten : Bool) : Manager :=
  let newList := m.workspaces.filter fun w => w.id ≠ id
  { storage := writeGuestWorkspaceList tool newList listWritten (removeGuestWorkspaceData tool id removed m.storage)
    workspaces := newList
    reports := m.reports ++ [⟨none, .ok none⟩] }

def duplicateWorkspace (m : Manager) (id generated now : Text) (writes : Writes) : Manager :=
  match m.workspaces.find? fun w => w.id = id, readGuestWorkspaceData tool id m.storage with
  | some ws, some data => added tool m ⟨generated, ws.name ++ text " (Copy)", now⟩ data writes none
  | _, _ => returned m

def importWorkspace (m : Manager) (json generated now : Text) (writes : Writes) : Manager :=
  match parseWorkspaceFile json with
  | .error error => { m with reports := m.reports ++ [⟨none, .error error⟩] }
  | .ok parsed =>
      let name := (parsed.name.filter (· ≠ [])).getD (text "Imported Workspace")
      added tool m ⟨generated, name, now⟩ ⟨parsed.composerState, parsed.operations⟩ writes (some ⟨generated, name, now⟩)

/-- The manager of a guest, whose list is loaded from the storage. -/
def opened (storage : Storage) : Manager := { storage := storage, workspaces := readGuestWorkspaceList tool storage }

def step : Step Manager Call := fun m call =>
  some (match call with
    | .loadWorkspaces => { m with workspaces := readGuestWorkspaceList tool m.storage }
    | .saveCurrentWorkspace name state generated now writes => saveCurrentWorkspace tool m name state generated now writes
    | .renameWorkspace id newName now listWritten => renameWorkspace tool m id newName now listWritten
    | .deleteWorkspace id removed listWritten => deleteWorkspace tool m id removed listWritten
    | .duplicateWorkspace id generated now writes => duplicateWorkspace tool m id generated now writes
    | .importWorkspace json generated now writes => importWorkspace tool m json generated now writes)

/-- A call whose data was not written does not report success. -/
def Report.Truthful (report : Report) : Prop := report.dataWritten = some false → report.outcome.isOk = false

/-- Each workspace of the list has its data. -/
def Stored (storage : Storage) : Prop :=
  ∀ w ∈ readGuestWorkspaceList tool storage, (readGuestWorkspaceData tool w.id storage).isSome = true

structure Consistent (m : Manager) : Prop where
  stored : Stored tool m.storage
  truthful : ∀ report ∈ m.reports, report.Truthful
  same : m.workspaces = readGuestWorkspaceList tool m.storage

/-- No data write of the call fails, and a list write does only where it would not change the list. -/
def Kept (m : Manager) : Call → Prop
  | .loadWorkspaces => True
  | .saveCurrentWorkspace name _ _ now writes => writes.data = true ∧ (writes.list = true ∨
      ∃ existing ∈ m.workspaces.find? fun w => w.name = name,
        ∀ w ∈ m.workspaces, w.id = existing.id → w = { existing with updatedAt := now })
  | .renameWorkspace id newName now listWritten => listWritten = true ∨
      ∀ ws ∈ m.workspaces.find? fun w => w.id = id,
        ∀ w ∈ m.workspaces, w.id = id → w = { ws with name := newName, updatedAt := now }
  | .deleteWorkspace id _ listWritten => listWritten = true ∨ ∀ w ∈ m.workspaces, w.id ≠ id
  | .duplicateWorkspace id _ _ writes => (∃ w ∈ m.workspaces, w.id = id) → writes.data = true ∧ writes.list = true
  | .importWorkspace json _ _ writes => (parseWorkspaceFile json).isOk = true → writes.data = true ∧ writes.list = true

end Calls

theorem replaced_eq_self {id : Text} {updated : WorkspaceSummary} {workspaces : List WorkspaceSummary} :
    replaced id updated workspaces = workspaces ↔ ∀ w ∈ workspaces, w.id = id → w = updated := by
  rw [replaced]
  induction workspaces with
  | nil => simp
  | cons w ws ih =>
      rw [List.map_cons, List.cons.injEq, ih, List.forall_mem_cons]
      refine and_congr_left fun _ => ?_
      split
      next h => exact ⟨fun heq _ => heq.symm, fun heq => (heq h).symm⟩
      next h => exact iff_of_true rfl fun hid => absurd hid h

/-- An updated workspace keeps its id. -/
theorem exists_of_mem_replaced {id : Text} {updated w : WorkspaceSummary} {workspaces : List WorkspaceSummary}
    (h : w ∈ replaced id updated workspaces) (hid : updated.id = id) : ∃ v ∈ workspaces, v.id = w.id := by
  obtain ⟨v, hv, rfl⟩ := List.mem_map.mp h
  refine ⟨v, hv, ?_⟩
  split
  next hvid => exact hvid.trans hid.symm
  next => rfl

section Steps

variable {tool : Text} {m t : Manager}

/-- The step lemma of all calls but a load: the report is to be true, and the list that the storage has that of the manager. -/
theorem Consistent.next_iff (hm : Consistent tool m) (report : Report) (listWritten : Bool)
    (hreports : t.reports = m.reports ++ [report])
    (hlist : readGuestWorkspaceList tool t.storage = if listWritten then t.workspaces else readGuestWorkspaceList tool m.storage)
    (hstored : report.Truthful → ∀ w ∈ t.workspaces, (readGuestWorkspaceData tool w.id t.storage).isSome = true) :
    Consistent tool t ↔ report.Truthful ∧ (listWritten = true ∨ t.workspaces = m.workspaces) := by
  have hsame : t.workspaces = readGuestWorkspaceList tool t.storage ↔ listWritten = true ∨ t.workspaces = m.workspaces := by
    rw [hlist, hm.same]
    cases listWritten <;> simp
  constructor
  · intro ht
    refine ⟨ht.truthful report ?_, hsame.mp ht.same⟩
    rw [hreports]
    exact List.mem_append_right _ (List.mem_singleton_self _)
  · rintro ⟨htruthful, hwritten⟩
    have heq := hsame.mpr hwritten
    refine ⟨fun w hw => hstored htruthful w (heq ▸ hw), fun other hother => ?_, heq⟩
    rw [hreports] at hother
    rcases List.mem_append.mp hother with hbefore | hlast
    · exact hm.truthful other hbefore
    · exact List.mem_singleton.mp hlast ▸ htruthful

theorem truthful_ok (written : Bool) (value : Option WorkspaceSummary) :
    Report.Truthful ⟨some written, .ok value⟩ ↔ written = true := by
  cases written <;> simp [Report.Truthful, Except.isOk, Except.toBool]

theorem Consistent.stored_workspaces (hm : Consistent tool m) :
    ∀ w ∈ m.workspaces, (readGuestWorkspaceData tool w.id m.storage).isSome = true :=
  hm.same ▸ hm.stored

theorem Consistent.added_iff (hm : Consistent tool m) (created : WorkspaceSummary) (state : WorkspaceState)
    (writes : Writes) (value : Option WorkspaceSummary) :
    Consistent tool (added tool m created state writes value) ↔ writes.data = true ∧ writes.list = true := by
  rw [hm.next_iff ⟨some writes.data, .ok value⟩ writes.list rfl (readList_writeList _ writes.list), truthful_ok]
  · refine and_congr_right fun _ => or_iff_left fun hlength => ?_
    simpa [added] using congrArg List.length hlength
  · intro hwritten w hw
    rw [truthful_ok] at hwritten
    simp only [added, readData_writeList, readData_writeData, hwritten, true_and]
    split
    next => rfl
    next hne =>
      rcases List.mem_append.mp hw with hw | hw
      · exact hm.stored_workspaces w hw
      · exact absurd (congrArg WorkspaceSummary.id (List.mem_singleton.mp hw)) hne

theorem Consistent.returned (hm : Consistent tool m) {report : Report} (h : report.dataWritten = none) :
    Consistent tool { m with reports := m.reports ++ [report] } := by
  refine (hm.next_iff (t := { m with reports := m.reports ++ [report] }) report false rfl rfl fun _ => hm.stored_workspaces).mpr ⟨?_, .inr rfl⟩
  intro hfailed
  cases h.symm.trans hfailed

theorem Consistent.save_iff (hm : Consistent tool m) (name : Text) (state : WorkspaceState) (generated now : Text)
    (writes : Writes) : Consistent tool (saveCurrentWorkspace tool m name state generated now writes) ↔
      Kept m (.saveCurrentWorkspace name state generated now writes) := by
  rw [saveCurrentWorkspace, Kept]
  cases hfound : m.workspaces.find? fun w => w.name = name with
  | none => simp [hm.added_iff]
  | some existing =>
      rw [hm.next_iff ⟨some writes.data, .ok (some { existing with updatedAt := now })⟩ writes.list rfl
        (readList_writeList _ writes.list), truthful_ok, replaced_eq_self]
      · simp
      · intro hwritten w hw
        rw [truthful_ok] at hwritten
        obtain ⟨v, hv, hid⟩ := exists_of_mem_replaced hw rfl
        simp only [readData_writeList, readData_writeData, hwritten, true_and]
        split
        next => rfl
        next => exact hid ▸ hm.stored_workspaces v hv

theorem Consistent.rename_iff (hm : Consistent tool m) (id newName now : Text) (listWritten : Bool) :
    Consistent tool (renameWorkspace tool m id newName now listWritten) ↔
      Kept m (.renameWorkspace id newName now listWritten) := by
  rw [renameWorkspace, Kept]
  cases hfound : m.workspaces.find? fun w => w.id = id with
  | none => exact iff_of_true (hm.returned rfl) (.inr (by simp))
  | some ws =>
      have hid : ws.id = id := by simpa using List.find?_some hfound
      rw [hm.next_iff ⟨none, .ok none⟩ listWritten rfl (readList_writeList _ listWritten), replaced_eq_self]
      · simp [Report.Truthful]
      · intro _ w hw
        obtain ⟨v, hv, hvid⟩ := exists_of_mem_replaced hw hid
        exact hvid ▸ hm.stored_workspaces v hv

theorem Consistent.delete_iff (hm : Consistent tool m) (id : Text) (removed listWritten : Bool) :
    Consistent tool (deleteWorkspace tool m id removed listWritten) ↔ Kept m (.deleteWorkspace id removed listWritten) := by
  rw [deleteWorkspace, Kept, hm.next_iff ⟨none, .ok none⟩ listWritten rfl (readList_writeList _ listWritten),
    List.filter_eq_self]
  · simp [Report.Truthful]
  · intro _ w hw
    obtain ⟨hmem, hne⟩ := List.mem_filter.mp hw
    rw [readData_writeList, readData_removeData (by simpa using hne)]
    exact hm.stored_workspaces w hmem

theorem Consistent.duplicate_iff (hm : Consistent tool m) (id generated now : Text) (writes : Writes) :
    Consistent tool (duplicateWorkspace tool m id generated now writes) ↔
      Kept m (.duplicateWorkspace id generated now writes) := by
  rw [duplicateWorkspace, Kept]
  cases hfound : m.workspaces.find? fun w => w.id = id with
  | none =>
      refine iff_of_true (hm.returned rfl) ?_
      rintro ⟨w, hw, hid⟩
      exact absurd hid (by simpa using List.find?_eq_none.mp hfound w hw)
  | some ws =>
      have hid : ws.id = id := by simpa using List.find?_some hfound
      have hmem := List.mem_of_find?_eq_some hfound
      obtain ⟨data, hdata⟩ := Option.isSome_iff_exists.mp (hm.stored_workspaces ws hmem)
      rw [hid] at hdata
      simp only [hdata, hm.added_iff]
      exact ⟨fun h _ => h, fun h => h ⟨ws, hmem, hid⟩⟩

theorem Consistent.import_iff (hm : Consistent tool m) (json generated now : Text) (writes : Writes) :
    Consistent tool (importWorkspace tool m json generated now writes) ↔
      Kept m (.importWorkspace json generated now writes) := by
  rw [importWorkspace, Kept]
  cases parseWorkspaceFile json with
  | error error => exact iff_of_true (hm.returned rfl) fun h => absurd h Bool.false_ne_true
  | ok parsed => simp [hm.added_iff, Except.isOk, Except.toBool]

/-- One call keeps the manager consistent exactly when its writes are. -/
theorem step_consistent_iff (hm : Consistent tool m) {call : Call} (ht : step tool m call = some t) :
    Consistent tool t ↔ Kept m call := by
  cases ht
  cases call with
  | loadWorkspaces => exact iff_of_true ⟨hm.stored, hm.truthful, rfl⟩ trivial
  | saveCurrentWorkspace name state generated now writes => exact hm.save_iff name state generated now writes
  | renameWorkspace id newName now listWritten => exact hm.rename_iff id newName now listWritten
  | deleteWorkspace id removed listWritten => exact hm.delete_iff id removed listWritten
  | duplicateWorkspace id generated now writes => exact hm.duplicate_iff id generated now writes
  | importWorkspace json generated now writes => exact hm.import_iff json generated now writes

end Steps

theorem consistent_opened {tool : Text} {storage : Storage} (h : Stored tool storage) : Consistent tool (opened tool storage) :=
  ⟨h, List.forall_mem_nil _, rfl⟩

/-- The manager is consistent in every state of a run exactly when the writes of every call are kept. -/
theorem consistent_iff {tool : Text} {storage : Storage} (h : Stored tool storage) (calls : List Call) :
    Throughout (step tool) (Consistent tool) (opened tool storage) calls ↔
      Guarded (step tool) Kept (opened tool storage) calls := by
  have hall : Preserves (step tool) always fun _ => True := fun _ _ _ _ _ _ => trivial
  exact throughout_iff_guarded_of_inv hall (fun _ _ _ _ hm ht => step_consistent_iff hm ht) trivial (consistent_opened h) calls

def noStorage : Storage := ⟨fun _ => none, fun _ => none⟩

theorem stored_noStorage (tool : Text) : Stored tool noStorage := List.forall_mem_nil _

def sampleState : WorkspaceState := ⟨[], []⟩

/-- A workspace is saved, copied and renamed, and what it was copied from is deleted; the last list write fails. -/
def sampleCalls : List Call :=
  [.saveCurrentWorkspace (text "swap") sampleState (text "a") (text "t1") ⟨true, true⟩,
    .duplicateWorkspace (text "a") (text "b") (text "t2") ⟨true, true⟩,
    .renameWorkspace (text "b") (text "path") (text "t3") true, .deleteWorkspace (text "a") true true,
    .deleteWorkspace (text "a") true false]

instance decidableKept (m : Manager) : ∀ call, Decidable (Kept m call)
  | .loadWorkspaces => inferInstanceAs (Decidable True)
  | .saveCurrentWorkspace name _ _ now writes => inferInstanceAs (Decidable (writes.data = true ∧ (writes.list = true ∨
      ∃ existing ∈ m.workspaces.find? fun w => w.name = name,
        ∀ w ∈ m.workspaces, w.id = existing.id → w = { existing with updatedAt := now })))
  | .renameWorkspace id newName now listWritten => inferInstanceAs (Decidable (listWritten = true ∨
      ∀ ws ∈ m.workspaces.find? fun w => w.id = id,
        ∀ w ∈ m.workspaces, w.id = id → w = { ws with name := newName, updatedAt := now }))
  | .deleteWorkspace id _ listWritten => inferInstanceAs (Decidable (listWritten = true ∨ ∀ w ∈ m.workspaces, w.id ≠ id))
  | .duplicateWorkspace id _ _ writes =>
      inferInstanceAs (Decidable ((∃ w ∈ m.workspaces, w.id = id) → writes.data = true ∧ writes.list = true))
  | .importWorkspace json _ _ writes =>
      inferInstanceAs (Decidable ((parseWorkspaceFile json).isOk = true → writes.data = true ∧ writes.list = true))

theorem sample_consistent_calls :
    Throughout (step (text "composer")) (Consistent (text "composer")) (opened (text "composer") noStorage) sampleCalls :=
  (consistent_iff (stored_noStorage _) sampleCalls).mpr (by decide)

/-- A workspace whose data exceeds the quota is reported as saved. -/
theorem not_consistent_calls : ¬∀ (tool : Text) (storage : Storage), Stored tool storage → ∀ calls,
    Throughout (step tool) (Consistent tool) (opened tool storage) calls := by
  intro h
  have hrun := h [] noStorage (stored_noStorage _) [.saveCurrentWorkspace [] sampleState [] [] ⟨false, true⟩]
  have htruthful := (hrun.2 _ rfl).truthful _ (List.mem_append_right _ (List.mem_singleton_self _)) rfl
  cases htruthful

end Savitools.Web.GuestWorkspaces
