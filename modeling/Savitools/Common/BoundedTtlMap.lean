import Mathlib.Algebra.GroupWithZero.Nat
import Mathlib.Data.List.Perm.Subperm
import Mathlib.Order.Lattice
import Savitools.Stores.Keyed

namespace Savitools.Common

open Stores.Keyed

variable {K V T : Type*}

/-- The options that the constructor accepts; it throws a `RangeError` on others. -/
structure BoundedTtlMapOptions (T : Type*) [Zero T] [LT T] where
  maxEntries : Nat
  ttlMs : T
  maxEntries_pos : 0 < maxEntries
  ttlMs_pos : 0 < ttlMs

namespace BoundedTtlMap

structure Entry (K V T : Type*) where
  key : K
  value : V
  expiresAt : T

/-- A JavaScript `Map`: its entries in the order in which their keys were set. -/
abbrev Entries (K V T : Type*) := KeyedRows (Entry.key (K := K) (V := V) (T := T))

/-- `entries.delete(oldest)` until the size fits: the oldest key is the first one. -/
def trimRows (maxEntries : Nat) : List (Entry K V T) → List (Entry K V T)
  | [] => []
  | e :: rest => if maxEntries < (e :: rest).length then trimRows maxEntries rest else e :: rest

theorem trimRows_eq_drop (n : Nat) (rows : List (Entry K V T)) :
    trimRows n rows = rows.drop (rows.length - n) := by
  induction rows with
  | nil => simp [trimRows]
  | cons e rest ih =>
      rw [trimRows]
      split
      next h =>
        rw [ih, List.length_cons, Nat.succ_sub (by simpa [Nat.lt_succ_iff] using h), List.drop_succ_cons]
      next h => rw [Nat.sub_eq_zero_of_le (by omega), List.drop_zero]

theorem trimRows_suffix (n : Nat) (rows : List (Entry K V T)) : trimRows n rows <:+ rows := by
  rw [trimRows_eq_drop]
  exact List.drop_suffix _ _

theorem length_trimRows_le (n : Nat) (rows : List (Entry K V T)) : (trimRows n rows).length ≤ n := by
  rw [trimRows_eq_drop, List.length_drop]
  omega

theorem length_move [DecidableEq K] {entries : Entries K V T} {entry : Entry K V T} (h : entry ∈ entries.rows) :
    ((entries.delete entry.key).put entry).rows.length = entries.rows.length := by
  have hcount := KeyedRows.countP_delete h (fun _ => true)
  simp only [List.countP_true, if_true] at hcount
  rw [KeyedRows.rows_put_delete, List.length_append, List.length_singleton, hcount]

end BoundedTtlMap

structure BoundedTtlMap (K V : Type*) {T : Type*} [Zero T] [LT T] (o : BoundedTtlMapOptions T) where
  entries : BoundedTtlMap.Entries K V T
  bounded : entries.rows.length ≤ o.maxEntries

namespace BoundedTtlMap

variable [DecidableEq K] [Zero T] [LinearOrder T] {o : BoundedTtlMapOptions T}

def empty : BoundedTtlMap K V o := ⟨⟨[], List.nodup_nil⟩, Nat.zero_le _⟩

def size (map : BoundedTtlMap K V o) : Nat := map.entries.rows.length

/-- What every removal of entries comes to. -/
def keep (map : BoundedTtlMap K V o) (rows : List (Entry K V T)) (h : rows.Sublist map.entries.rows) :
    BoundedTtlMap K V o :=
  ⟨⟨rows, map.entries.nodup_of_sublist h⟩, h.length_le.trans map.bounded⟩

def delete (map : BoundedTtlMap K V o) (k : K) : BoundedTtlMap K V o :=
  map.keep (map.entries.delete k).rows List.filter_sublist

def clear (_ : BoundedTtlMap K V o) : BoundedTtlMap K V o := empty

def get (map : BoundedTtlMap K V o) (k : K) (now : T) : Option V × BoundedTtlMap K V o :=
  match hget : map.entries.get? k with
  | none => (none, map)
  | some entry =>
      if entry.expiresAt ≤ now then (none, map.delete k)
      else
        -- Reading is use: the key moves to the most recently used position.
        (some entry.value, ⟨(map.entries.delete entry.key).put entry, by
          rw [length_move (KeyedRows.get?_eq_some.mp hget).1]
          exact map.bounded⟩)

def has (map : BoundedTtlMap K V o) (k : K) (now : T) : Bool × BoundedTtlMap K V o :=
  ((map.get k now).1.isSome, (map.get k now).2)

def trim (entries : Entries K V T) : BoundedTtlMap K V o :=
  ⟨⟨trimRows o.maxEntries entries.rows, entries.nodup_of_sublist (trimRows_suffix _ _).sublist⟩,
    length_trimRows_le _ _⟩

def set [Add T] (map : BoundedTtlMap K V o) (k : K) (v : V) (now : T) : BoundedTtlMap K V o :=
  trim ((map.entries.delete k).put ⟨k, v, now + o.ttlMs⟩)

/-- Live keys, oldest first: expired entries are skipped, not removed. -/
def keys (map : BoundedTtlMap K V o) (now : T) : List K :=
  (map.entries.rows.filter (fun e => now < e.expiresAt)).map Entry.key

def sweep (map : BoundedTtlMap K V o) (now : T) : Nat × BoundedTtlMap K V o :=
  (map.entries.rows.countP (fun e => e.expiresAt ≤ now),
    map.keep (Stores.Table.delete (fun e => e.expiresAt ≤ now) map.entries.rows) List.filter_sublist)

theorem mem_delete {map : BoundedTtlMap K V o} {k : K} {e : Entry K V T} :
    e ∈ (map.delete k).entries.rows ↔ e ∈ map.entries.rows ∧ e.key ≠ k :=
  KeyedRows.mem_delete

omit [DecidableEq K] in
theorem mem_sweep {map : BoundedTtlMap K V o} {now : T} {e : Entry K V T} :
    e ∈ (map.sweep now).2.entries.rows ↔ e ∈ map.entries.rows ∧ now < e.expiresAt := by
  simp [sweep, keep, Stores.Table.mem_delete]

/-- All that a read can do. -/
theorem get_cases (map : BoundedTtlMap K V o) (k : K) (now : T) :
    (map.get k now = (none, map) ∧ k ∉ map.entries.rows.map Entry.key) ∨
      ∃ e ∈ map.entries.rows, e.key = k ∧
        ((e.expiresAt ≤ now ∧ map.get k now = (none, map.delete k)) ∨
          (now < e.expiresAt ∧ (map.get k now).1 = some e.value ∧
            (map.get k now).2.entries.rows = (map.delete k).entries.rows ++ [e])) := by
  unfold get
  split
  next hget =>
    refine .inl ⟨rfl, ?_⟩
    intro hk
    obtain ⟨e, he, hkey⟩ := List.mem_map.mp hk
    rw [KeyedRows.get?_eq_some.mpr ⟨he, hkey⟩] at hget
    cases hget
  next entry hget =>
    obtain ⟨hmem, rfl⟩ := KeyedRows.get?_eq_some.mp hget
    refine .inr ⟨entry, hmem, rfl, ?_⟩
    split
    next hexp => exact .inl ⟨hexp, rfl⟩
    next hexp => exact .inr ⟨not_le.mp hexp, rfl, KeyedRows.rows_put_delete _ _⟩

theorem set_rows [Add T] (map : BoundedTtlMap K V o) (k : K) (v : V) (now : T) :
    (map.set k v now).entries.rows =
      trimRows o.maxEntries ((map.delete k).entries.rows ++ [⟨k, v, now + o.ttlMs⟩]) :=
  congrArg (trimRows o.maxEntries) (KeyedRows.rows_put_delete map.entries ⟨k, v, now + o.ttlMs⟩)

theorem get_eq_some {map : BoundedTtlMap K V o} {k : K} {now : T} {v : V} :
    (map.get k now).1 = some v ↔ ∃ e ∈ map.entries.rows, e.key = k ∧ now < e.expiresAt ∧ e.value = v := by
  rcases map.get_cases k now with ⟨hget, hk⟩ | ⟨e, he, rfl, ⟨hexp, hget⟩ | ⟨hexp, hget, -⟩⟩
  · rw [hget]
    constructor
    · rintro ⟨⟩
    · rintro ⟨e, he, rfl, -, -⟩
      exact absurd (List.mem_map_of_mem he) hk
  · rw [hget]
    constructor
    · rintro ⟨⟩
    · rintro ⟨q, hq, hkey, hlive, -⟩
      rw [KeyedRows.eq_of_key hq he hkey] at hlive
      exact absurd hexp (not_le.mpr hlive)
  · rw [hget]
    constructor
    · intro hv
      exact ⟨e, he, rfl, hexp, Option.some.inj hv⟩
    · rintro ⟨q, hq, hkey, -, rfl⟩
      rw [KeyedRows.eq_of_key hq he hkey]

theorem mem_keys {map : BoundedTtlMap K V o} {k : K} {now : T} :
    k ∈ map.keys now ↔ (map.has k now).1 = true := by
  simp only [keys, has, List.mem_map, List.mem_filter, decide_eq_true_eq, Option.isSome_iff_exists, get_eq_some]
  constructor
  · rintro ⟨e, ⟨he, hlive⟩, rfl⟩
    exact ⟨e.value, e, he, rfl, hlive, rfl⟩
  · rintro ⟨v, e, he, rfl, hlive, -⟩
    exact ⟨e, ⟨he, hlive⟩, rfl⟩

theorem delete_subperm (map : BoundedTtlMap K V o) (k : K) :
    (map.delete k).entries.rows.Subperm map.entries.rows :=
  List.Sublist.subperm List.filter_sublist

theorem subperm_delete {map other : BoundedTtlMap K V o} (h : map.entries.rows.Subperm other.entries.rows) (k : K) :
    (map.delete k).entries.rows.Subperm (other.delete k).entries.rows :=
  h.filter _

theorem mem_of_mem_get {map : BoundedTtlMap K V o} {k : K} {now : T} {e : Entry K V T}
    (h : e ∈ (map.get k now).2.entries.rows) : e ∈ map.entries.rows := by
  rcases map.get_cases k now with ⟨hget, -⟩ | ⟨q, hq, rfl, ⟨-, hget⟩ | ⟨-, -, hrows⟩⟩
  · rwa [hget] at h
  · rw [hget] at h
    exact (mem_delete.mp h).1
  · rw [hrows, List.mem_append, List.mem_singleton] at h
    rcases h with h | rfl
    · exact (mem_delete.mp h).1
    · exact hq

theorem get_subperm (map : BoundedTtlMap K V o) (k : K) (now : T) :
    (map.get k now).2.entries.rows.Subperm map.entries.rows :=
  List.Nodup.subperm (map.get k now).2.entries.nodup.of_map (fun _ => mem_of_mem_get)

theorem set_subperm [Add T] (map : BoundedTtlMap K V o) (k : K) (v : V) (now : T) :
    (map.set k v now).entries.rows.Subperm (map.entries.rows ++ [⟨k, v, now + o.ttlMs⟩]) := by
  rw [set_rows]
  exact (trimRows_suffix _ _).sublist.subperm.trans ((delete_subperm map k).append (List.Subperm.refl _))

theorem mem_of_mem_set [Add T] {map : BoundedTtlMap K V o} {k : K} {v : V} {now : T} {e : Entry K V T}
    (h : e ∈ (map.set k v now).entries.rows) :
    e = ⟨k, v, now + o.ttlMs⟩ ∨ e ∈ map.entries.rows ∧ e.key ≠ k := by
  rw [set_rows] at h
  rcases List.mem_append.mp ((trimRows_suffix _ _).subset h) with h | h
  · exact .inr (mem_delete.mp h)
  · exact .inl (List.mem_singleton.mp h)

end BoundedTtlMap

end Savitools.Common
