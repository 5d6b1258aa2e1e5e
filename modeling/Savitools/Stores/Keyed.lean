import Mathlib.Data.List.Nodup
import Savitools.Stores.Table

namespace Stores.Keyed

open Table

variable {ρ κ : Type*}

/-- The rows of a table with a primary key, or the entries of a map in their order. -/
structure KeyedRows (key : ρ → κ) where
  rows : List ρ
  nodup : (rows.map key).Nodup

variable {key : ρ → κ}

theorem map_update {p : ρ → Bool} {f : ρ → ρ} (hf : ∀ r, p r = true → key (f r) = key r) (rows : List ρ) :
    (update p f rows).map key = rows.map key := by
  rw [update, List.map_map]
  apply List.map_congr_left
  intro r _
  cases hp : p r with
  | true => simp [hp, hf r hp]
  | false => simp [hp]

def KeyedRows.insert (table : KeyedRows key) (row : ρ) (h : key row ∉ table.rows.map key) : KeyedRows key :=
  ⟨table.rows ++ [row], by
    rw [List.map_append]
    refine List.nodup_append.mpr ⟨table.nodup, List.nodup_singleton _, ?_⟩
    rintro a ha b hb rfl
    exact h (List.mem_singleton.mp hb ▸ ha)⟩

theorem KeyedRows.eq_of_key {table : KeyedRows key} {r q : ρ} (hr : r ∈ table.rows) (hq : q ∈ table.rows)
    (h : key r = key q) : r = q :=
  List.inj_on_of_nodup_map table.nodup hr hq h

variable [DecidableEq κ]

/-- `UPDATE ... SET f WHERE key IN (keys)`, for an `f` that does not write the key. -/
def KeyedRows.updateKeys (table : KeyedRows key) (keys : List κ) (f : ρ → ρ)
    (hf : ∀ r, key (f r) = key r) : KeyedRows key :=
  ⟨update (fun r => key r ∈ keys) f table.rows, by
    rw [map_update (fun r _ => hf r)]
    exact table.nodup⟩

theorem KeyedRows.mem_updateKeys {table : KeyedRows key} {keys : List κ} {f : ρ → ρ}
    (hf : ∀ r, key (f r) = key r) {r : ρ} :
    r ∈ (table.updateKeys keys f hf).rows ↔ ∃ q ∈ table.rows, r = if key q ∈ keys then f q else q := by
  simp [KeyedRows.updateKeys, mem_update]

@[simp] theorem KeyedRows.keys_updateKeys (table : KeyedRows key) (keys : List κ) (f : ρ → ρ)
    (hf : ∀ r, key (f r) = key r) : (table.updateKeys keys f hf).rows.map key = table.rows.map key :=
  map_update (fun r _ => hf r) table.rows

def KeyedRows.get? (table : KeyedRows key) (k : κ) : Option ρ := table.rows.find? (fun r => key r = k)

theorem KeyedRows.get?_eq_some {table : KeyedRows key} {k : κ} {r : ρ} :
    table.get? k = some r ↔ r ∈ table.rows ∧ key r = k := by
  constructor
  · intro h
    exact ⟨List.mem_of_find?_eq_some h, by simpa using List.find?_some h⟩
  · rintro ⟨hr, rfl⟩
    obtain ⟨q, hq⟩ : ∃ q, table.get? (key r) = some q :=
      Option.isSome_iff_exists.mp (List.find?_isSome.mpr ⟨r, hr, by simp⟩)
    have hkey : key q = key r := by simpa using List.find?_some hq
    rw [hq, eq_of_key (List.mem_of_find?_eq_some hq) hr hkey]

def KeyedRows.put (table : KeyedRows key) (row : ρ) : KeyedRows key :=
  if h : key row ∈ table.rows.map key then
    ⟨update (fun r => key r = key row) (fun _ => row) table.rows, by
      rw [map_update (fun r hr => (decide_eq_true_iff.mp hr).symm)]
      exact table.nodup⟩
  else table.insert row h

theorem KeyedRows.mem_put {table : KeyedRows key} {row r : ρ} :
    r ∈ (table.put row).rows ↔ r = row ∨ r ∈ table.rows ∧ key r ≠ key row := by
  rw [put]
  split
  next h =>
    rw [mem_update]
    constructor
    · rintro ⟨q, hq, rfl⟩
      split
      next => exact .inl rfl
      next hne => exact .inr ⟨hq, by simpa using hne⟩
    · rintro (rfl | ⟨hr, hne⟩)
      · obtain ⟨q, hq, hkey⟩ := List.mem_map.mp h
        exact ⟨q, hq, (if_pos (by simpa using hkey)).symm⟩
      · exact ⟨r, hr, (if_neg (by simpa using hne)).symm⟩
  next h =>
    rw [insert, List.mem_append, List.mem_singleton, or_comm]
    refine or_congr_right (and_iff_left_of_imp fun hr heq => h ?_).symm
    exact heq ▸ List.mem_map_of_mem hr

theorem KeyedRows.get?_put_self (table : KeyedRows key) (row : ρ) : (table.put row).get? (key row) = some row :=
  get?_eq_some.mpr ⟨mem_put.mpr (.inl rfl), rfl⟩

theorem KeyedRows.get?_put_of_ne (table : KeyedRows key) {row : ρ} {k : κ} (hne : k ≠ key row) :
    (table.put row).get? k = table.get? k := by
  apply Option.ext
  intro r
  rw [get?_eq_some, get?_eq_some, mem_put]
  constructor
  · rintro ⟨rfl | ⟨hmem, -⟩, rfl⟩
    · exact absurd rfl hne
    · exact ⟨hmem, rfl⟩
  · rintro ⟨hmem, rfl⟩
    exact ⟨.inr ⟨hmem, hne⟩, rfl⟩

theorem KeyedRows.put_of_get?_eq_none {table : KeyedRows key} {row : ρ}
    (h : table.get? (key row) = none) : (table.put row).rows = table.rows ++ [row] := by
  have hnew : key row ∉ table.rows.map key := by
    intro hmem
    obtain ⟨r, hr, hkey⟩ := List.mem_map.mp hmem
    rw [get?_eq_some.mpr ⟨hr, hkey⟩] at h
    cases h
  rw [put, dif_neg hnew, insert]

def KeyedRows.delete (table : KeyedRows key) (k : κ) : KeyedRows key :=
  ⟨Table.delete (fun r => key r = k) table.rows,
    table.nodup.sublist (List.Sublist.map key List.filter_sublist)⟩

theorem KeyedRows.mem_delete {table : KeyedRows key} {k : κ} {r : ρ} :
    r ∈ (table.delete k).rows ↔ r ∈ table.rows ∧ key r ≠ k := by
  simp [KeyedRows.delete, Table.mem_delete]

theorem KeyedRows.get?_delete_self (table : KeyedRows key) (k : κ) : (table.delete k).get? k = none := by
  rw [Option.eq_none_iff_forall_ne_some]
  intro r hr
  obtain ⟨hmem, hkey⟩ := get?_eq_some.mp hr
  exact (mem_delete.mp hmem).2 hkey

theorem KeyedRows.get?_delete_of_ne (table : KeyedRows key) {k j : κ} (hne : j ≠ k) :
    (table.delete k).get? j = table.get? j := by
  apply Option.ext
  intro r
  rw [get?_eq_some, get?_eq_some, mem_delete]
  constructor
  · exact fun h => ⟨h.1.1, h.2⟩
  · rintro ⟨hmem, rfl⟩
    exact ⟨⟨hmem, hne⟩, rfl⟩

theorem KeyedRows.rows_put_delete (table : KeyedRows key) (row : ρ) :
    ((table.delete (key row)).put row).rows = (table.delete (key row)).rows ++ [row] :=
  put_of_get?_eq_none (get?_delete_self _ _)

omit [DecidableEq κ] in
/-- The rows of a table that a deletion of the others leaves, in their order. -/
theorem KeyedRows.nodup_of_sublist (table : KeyedRows key) {rows : List ρ} (h : rows.Sublist table.rows) :
    (rows.map key).Nodup :=
  table.nodup.sublist (h.map key)

theorem KeyedRows.countP_delete {table : KeyedRows key} {r : ρ} (hr : r ∈ table.rows) (p : ρ → Bool) :
    (table.delete (key r)).rows.countP p + (if p r then 1 else 0) = table.rows.countP p := by
  obtain ⟨rows, hnodup⟩ := table
  simp only [KeyedRows.delete, Table.delete]
  induction rows with
  | nil => cases hr
  | cons q rows ih =>
      rw [List.map_cons, List.nodup_cons] at hnodup
      rcases List.mem_cons.mp hr with rfl | hr
      · have hrest : rows.filter (fun q => !decide (key q = key r)) = rows := by
          refine List.filter_eq_self.mpr ?_
          intro q hq
          have hne : key q ≠ key r := fun h => hnodup.1 (h ▸ List.mem_map_of_mem hq)
          simp [hne]
        simp [hrest, List.countP_cons]
      · have hne : key q ≠ key r := fun h => hnodup.1 (h ▸ List.mem_map_of_mem hr)
        have hi := ih hnodup.2 hr
        simp only [List.filter_cons, hne, decide_false, Bool.not_false, if_true, List.countP_cons]
        omega

end Stores.Keyed
