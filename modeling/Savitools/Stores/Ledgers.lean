import Mathlib.Data.List.Basic

namespace Stores.Ledgers

variable {ρ ε : Type*}

/-- Every event of a trace, the latest first, is due to what was before it. -/
def Justified (due : List ε → ε → Prop) : List ε → Prop
  | [] => True
  | event :: past => due past event ∧ Justified due past

theorem Justified.due_of_mem {due : List ε → ε → Prop} {trace : List ε} {event : ε} (h : Justified due trace)
    (hmem : event ∈ trace) : ∃ past, past ⊆ trace ∧ due past event := by
  induction trace with
  | nil => cases hmem
  | cons last trace ih =>
      rcases List.mem_cons.mp hmem with rfl | hmem
      · exact ⟨trace, List.subset_cons_self _ _, h.1⟩
      · obtain ⟨past, hpast, hdue⟩ := ih h.2 hmem
        exact ⟨past, List.subset_cons_of_subset _ hpast, hdue⟩

theorem Justified.append {due : List ε → ε → Prop} {more past : List ε} (h : Justified due past)
    (hdue : ∀ event ∈ more, ∀ between, due (between ++ past) event) : Justified due (more ++ past) := by
  induction more with
  | nil => exact h
  | cons event more ih =>
      obtain ⟨hevent, hmore⟩ := List.forall_mem_cons.mp hdue
      exact ⟨hevent more, ih hmore⟩

/-- Which row an event creates or deletes, and when a row is as an event says that it was created. -/
structure Entries (ρ ε : Type*) where
  key : ρ → Nat
  creates : ε → Option Nat
  deletes : ε → Option Nat
  Fits : ρ → ε → Prop

/-- A table whose rows are those that were created and not deleted since. -/
structure Ledger (entries : Entries ρ ε) (rows : List ρ) (trace : List ε) (nextId : Nat) : Prop where
  made : ∀ row ∈ rows, ∃ event ∈ trace, entries.creates event = some (entries.key row) ∧ entries.Fits row event
  standing : ∀ row ∈ rows, ∀ event ∈ trace, entries.deletes event ≠ some (entries.key row)
  complete : ∀ event ∈ trace, ∀ id, entries.creates event = some id →
    (∃ deletion ∈ trace, entries.deletes deletion = some id) ∨ ∃ row ∈ rows, entries.key row = id ∧ entries.Fits row event
  fresh : ∀ event ∈ trace, ∀ id, entries.creates event = some id ∨ entries.deletes event = some id → id < nextId

namespace Ledger

variable {entries : Entries ρ ε} {rows : List ρ} {trace : List ε} {nextId : Nat} {event : ε}

theorem nil : Ledger entries [] [] nextId :=
  ⟨List.forall_mem_nil _, List.forall_mem_nil _, List.forall_mem_nil _, List.forall_mem_nil _⟩

theorem next (h : Ledger entries rows trace nextId) : Ledger entries rows trace (nextId + 1) :=
  { h with fresh := fun event hevent id hid => Nat.lt_succ_of_lt (h.fresh event hevent id hid) }

theorem key_lt (h : Ledger entries rows trace nextId) {row : ρ} (hrow : row ∈ rows) : entries.key row < nextId := by
  obtain ⟨event, hevent, hcreates, -⟩ := h.made row hrow
  exact h.fresh event hevent _ (.inl hcreates)

/-- An event that is about no row of the table. -/
theorem note (h : Ledger entries rows trace nextId) (hcreates : entries.creates event = none)
    (hdeletes : entries.deletes event = none) : Ledger entries rows (event :: trace) nextId where
  made row hrow := by
    obtain ⟨creation, hcreation, hmade⟩ := h.made row hrow
    exact ⟨creation, List.mem_cons_of_mem _ hcreation, hmade⟩
  standing row hrow := by
    refine List.forall_mem_cons.mpr ⟨?_, h.standing row hrow⟩
    rw [hdeletes]
    exact nofun
  complete := by
    refine List.forall_mem_cons.mpr ⟨fun id hid => ?_, fun creation hcreation id hid => ?_⟩
    · cases hcreates.symm.trans hid
    · exact (h.complete creation hcreation id hid).imp_left fun ⟨deletion, hdeletion, hgone⟩ =>
        ⟨deletion, List.mem_cons_of_mem _ hdeletion, hgone⟩
  fresh := by
    refine List.forall_mem_cons.mpr ⟨fun id hid => ?_, h.fresh⟩
    rw [hcreates, hdeletes] at hid
    rcases hid with hid | hid <;> cases hid

theorem insert (h : Ledger entries rows trace nextId) {row : ρ} (hkey : entries.key row = nextId)
    (hcreates : entries.creates event = some nextId) (hdeletes : entries.deletes event = none) (hfits : entries.Fits row event) :
    Ledger entries (rows ++ [row]) (event :: trace) (nextId + 1) where
  made := by
    refine List.forall_mem_append.mpr ⟨fun old hold => ?_, List.forall_mem_singleton.mpr ?_⟩
    · obtain ⟨creation, hcreation, hmade⟩ := h.made old hold
      exact ⟨creation, List.mem_cons_of_mem _ hcreation, hmade⟩
    · exact ⟨event, List.mem_cons_self, hkey ▸ hcreates, hfits⟩
  standing := by
    refine List.forall_mem_append.mpr ⟨fun old hold => ?_, List.forall_mem_singleton.mpr ?_⟩
    · refine List.forall_mem_cons.mpr ⟨?_, h.standing old hold⟩
      rw [hdeletes]
      exact nofun
    · refine List.forall_mem_cons.mpr ⟨?_, fun deletion hdeletion hgone => ?_⟩
      · rw [hdeletes]
        exact nofun
      · exact absurd (h.fresh deletion hdeletion _ (.inr hgone)) (hkey ▸ Nat.lt_irrefl _)
  complete := by
    refine List.forall_mem_cons.mpr ⟨fun id hid => ?_, fun creation hcreation id hid => ?_⟩
    · rw [hcreates, Option.some.injEq] at hid
      exact .inr ⟨row, List.mem_append_right _ (List.mem_singleton_self _), hkey.trans hid, hfits⟩
    · refine (h.complete creation hcreation id hid).imp ?_ ?_
      · exact fun ⟨deletion, hdeletion, hgone⟩ => ⟨deletion, List.mem_cons_of_mem _ hdeletion, hgone⟩
      · exact fun ⟨old, hold, hmade⟩ => ⟨old, List.mem_append_left _ hold, hmade⟩
  fresh := by
    refine List.forall_mem_cons.mpr ⟨fun id hid => ?_, h.next.fresh⟩
    rw [hcreates, hdeletes, Option.some.injEq] at hid
    rcases hid with rfl | hid
    · exact Nat.lt_succ_self _
    · cases hid

/-- The deletion of rows that there are, or were, with an event for each. -/
theorem delete (h : Ledger entries rows trace nextId) {ids : List Nat} {record : Nat → ε} {left : List ρ}
    (hids : ∀ id ∈ ids, id < nextId) (hcreates : ∀ id, entries.creates (record id) = none)
    (hdeletes : ∀ id, entries.deletes (record id) = some id)
    (hleft : ∀ row, row ∈ left ↔ row ∈ rows ∧ entries.key row ∉ ids) :
    Ledger entries left (ids.map record ++ trace) nextId where
  made row hrow := by
    obtain ⟨creation, hcreation, hmade⟩ := h.made row ((hleft row).mp hrow).1
    exact ⟨creation, List.mem_append_right _ hcreation, hmade⟩
  standing row hrow := by
    obtain ⟨hold, hkey⟩ := (hleft row).mp hrow
    refine List.forall_mem_append.mpr ⟨List.forall_mem_map.mpr fun id hid => ?_, h.standing row hold⟩
    rw [hdeletes, Ne, Option.some.injEq]
    exact fun heq => hkey (heq ▸ hid)
  complete := by
    refine List.forall_mem_append.mpr ⟨List.forall_mem_map.mpr fun id _ other hother => ?_, fun creation hcreation other hother => ?_⟩
    · cases (hcreates id).symm.trans hother
    · rcases h.complete creation hcreation other hother with ⟨deletion, hdeletion, hgone⟩ | ⟨row, hrow, hkey, hfits⟩
      · exact .inl ⟨deletion, List.mem_append_right _ hdeletion, hgone⟩
      · by_cases hother : other ∈ ids
        · exact .inl ⟨record other, List.mem_append_left _ (List.mem_map_of_mem hother), hdeletes other⟩
        · exact .inr ⟨row, (hleft row).mpr ⟨hrow, hkey.symm ▸ hother⟩, hkey, hfits⟩
  fresh := by
    refine List.forall_mem_append.mpr ⟨List.forall_mem_map.mpr fun id hid other hother => ?_, h.fresh⟩
    rw [hcreates, hdeletes, Option.some.injEq] at hother
    rcases hother with hother | rfl
    · cases hother
    · exact hids id hid

end Ledger

end Stores.Ledgers
