import Savitools.Caches.Recency
import Savitools.Common.BoundedTtlMap
import Savitools.Transitions.Runs

namespace Savitools.Common.LruCache

open Caches.Recency Transitions.Runs Stores.Keyed

variable {K V T : Type*} [DecidableEq K] [Add T] [Zero T] [LinearOrder T] {o : BoundedTtlMapOptions T}

/-- A map in use, with the clock its methods read and the log of its uses. -/
structure State (K V : Type*) {T : Type*} [Zero T] [LT T] (o : BoundedTtlMapOptions T) where
  map : BoundedTtlMap K V o
  now : T
  log : Log K V T

inductive Act (K V T : Type*)
  | set (k : K) (v : V)
  | get (k : K)
  | has (k : K)
  | delete (k : K)
  | clear
  | sweep
  | advance (now : T)

def readLog (k : K) (answer : Option V) (log : Log K V T) : Log K V T :=
  if answer.isSome then .read k :: log else log

def step : Step (State K V o) (Act K V T)
  | ⟨map, now, log⟩, .set k v => some ⟨map.set k v now, now, .stored k v now :: log⟩
  | ⟨map, now, log⟩, .get k => some ⟨(map.get k now).2, now, readLog k (map.get k now).1 log⟩
  | ⟨map, now, log⟩, .has k => some ⟨(map.has k now).2, now, if (map.has k now).1 then .read k :: log else log⟩
  | ⟨map, now, log⟩, .delete k => some ⟨map.delete k, now, .deleted k :: log⟩
  | ⟨map, now, log⟩, .clear => some ⟨map.clear, now, .cleared :: log⟩
  | ⟨map, now, log⟩, .sweep => some ⟨(map.sweep now).2, now, log⟩
  | ⟨map, now, log⟩, .advance t => if now ≤ t then some ⟨map, t, log⟩ else none

def init (start : T) : State K V o := ⟨.empty, start, []⟩

structure Inv (rows : List (BoundedTtlMap.Entry K V T)) (o : BoundedTtlMapOptions T) (now : T) (log : Log K V T) :
    Prop where
  stored : ∀ e ∈ rows, ∃ t, lastStored e.key log = some (e.value, t) ∧ e.expiresAt = t + o.ttlMs
  recent : Recent log (rows.map BoundedTtlMap.Entry.key)
  missing : ∀ k v t, lastStored k log = some (v, t) → now < t + o.ttlMs →
    k ∈ rows.map BoundedTtlMap.Entry.key ∨ o.maxEntries ≤ distinctSince k log

variable {rows others : List (BoundedTtlMap.Entry K V T)} {now : T} {log : Log K V T} {k : K}

/-- Entries may go once they have expired. -/
theorem Inv.expire (h : Inv rows o now log) (hsub : others.Sublist rows)
    (hkeep : ∀ e ∈ rows, now < e.expiresAt → e ∈ others) : Inv others o now log where
  stored e he := h.stored e (hsub.subset he)
  recent := h.recent.sublist (hsub.map _)
  missing k v t hlast hlive := by
    rcases h.missing k v t hlast hlive with hk | hn
    · obtain ⟨e, he, rfl⟩ := List.mem_map.mp hk
      obtain ⟨t', hlast', hexp⟩ := h.stored e he
      rw [hlast', Option.some.injEq, Prod.mk.injEq] at hlast
      rw [← hlast.2, ← hexp] at hlive
      exact .inl (List.mem_map_of_mem (hkeep e he hlive))
    · exact .inr hn

theorem Inv.advance (h : Inv rows o now log) {t : T} (ht : now ≤ t) : Inv rows o t log where
  stored := h.stored
  recent := h.recent
  missing k v s hlast hlive := h.missing k v s hlast (ht.trans_lt hlive)

theorem Inv.delete (h : Inv rows o now log) (hsub : others.Sublist rows)
    (hmem : ∀ e, e ∈ others ↔ e ∈ rows ∧ e.key ≠ k) : Inv others o now (.deleted k :: log) where
  stored e he := by
    obtain ⟨hrow, hne⟩ := (hmem e).mp he
    simpa [lastStored, Ne.symm hne] using h.stored e hrow
  recent := (h.recent.sublist (hsub.map _)).cons (fun _ _ => by simp [Event.touched])
  missing j v t hlast hlive := by
    by_cases hjk : k = j
    · simp [lastStored, hjk] at hlast
    · rw [lastStored, if_neg hjk] at hlast
      rcases h.missing j v t hlast hlive with hj | hn
      · obtain ⟨e, he, rfl⟩ := List.mem_map.mp hj
        exact .inl (List.mem_map_of_mem ((hmem e).mpr ⟨he, Ne.symm hjk⟩))
      · exact .inr hn

/-- A use of the key, as a read or with a new value, makes it the most recent one. -/
theorem Inv.touch (h : Inv rows o now log) (hsub : others.Sublist rows)
    (hmem : ∀ e, e ∈ others ↔ e ∈ rows ∧ e.key ≠ k) {event : Event K V T} (ht : event.touched = some k)
    (hlog : ∀ j, j ≠ k → lastStored j (event :: log) = lastStored j log)
    {e : BoundedTtlMap.Entry K V T} (hek : e.key = k)
    (he : ∃ t, lastStored k (event :: log) = some (e.value, t) ∧ e.expiresAt = t + o.ttlMs) :
    Inv (others ++ [e]) o now (event :: log) where
  stored q hq := by
    rcases List.mem_append.mp hq with hq | hq
    · obtain ⟨hrow, hne⟩ := (hmem q).mp hq
      rw [hlog q.key hne]
      exact h.stored q hrow
    · rw [List.mem_singleton.mp hq, hek]
      exact he
  recent := by
    rw [List.map_append, List.map_singleton, hek]
    refine (h.recent.sublist (hsub.map _)).touch ht ?_
    intro hk
    obtain ⟨q, hq, hqk⟩ := List.mem_map.mp hk
    exact ((hmem q).mp hq).2 hqk
  missing j v t hlast hlive := by
    by_cases hjk : j = k
    · subst hjk
      exact .inl (by simp [hek])
    · rw [hlog j hjk] at hlast
      rcases h.missing j v t hlast hlive with hj | hn
      · obtain ⟨q, hq, rfl⟩ := List.mem_map.mp hj
        exact .inl (List.mem_map_of_mem (List.mem_append_left _ ((hmem q).mpr ⟨hq, hjk⟩)))
      · refine .inr (hn.trans (distinctSince_le ?_))
        rw [ht]
        exact fun heq => hjk (Option.some.inj heq).symm

/-- Whatever `trim` drops has seen `maxEntries` other keys used since. -/
theorem Inv.trim (h : Inv rows o now log) (hnodup : (rows.map BoundedTtlMap.Entry.key).Nodup) :
    Inv (BoundedTtlMap.trimRows o.maxEntries rows) o now log where
  stored e he := h.stored e ((BoundedTtlMap.trimRows_suffix _ _).subset he)
  recent := h.recent.sublist ((BoundedTtlMap.trimRows_suffix _ _).sublist.map _)
  missing k v t hlast hlive := by
    rcases h.missing k v t hlast hlive with hk | hn
    · rw [BoundedTtlMap.trimRows_eq_drop]
      set n := rows.length - o.maxEntries with hn
      have hsplit := List.take_append_drop n rows
      rw [← hsplit, List.map_append, List.mem_append] at hk
      rcases hk with hold | hkept
      · have hpos : 0 < n := by
          by_contra hzero
          simp [Nat.eq_zero_of_not_pos hzero] at hold
        have hrecent := h.recent
        rw [← hsplit, List.map_append] at hrecent hnodup
        have hle := hrecent.le_distinctSince (List.nodup_append.mp hnodup).2.1 hold
        rw [List.length_map, List.length_drop] at hle
        exact .inr (by omega)
      · exact .inl hkept
    · exact .inr hn

theorem inv_get (map : BoundedTtlMap K V o) (h : Inv map.entries.rows o now log) :
    Inv (map.get k now).2.entries.rows o now (readLog k (map.get k now).1 log) := by
  rcases map.get_cases k now with ⟨hget, -⟩ | ⟨e, he, rfl, ⟨hexp, hget⟩ | ⟨hlive, hval, hrows⟩⟩
  · rw [hget]
    exact h
  · rw [hget]
    refine h.expire List.filter_sublist ?_
    intro q hq hlive
    refine BoundedTtlMap.mem_delete.mpr ⟨hq, ?_⟩
    intro hkey
    rw [KeyedRows.eq_of_key hq he hkey] at hlive
    exact absurd hexp (not_le.mpr hlive)
  · rw [hrows, hval]
    exact h.touch List.filter_sublist (fun _ => BoundedTtlMap.mem_delete) rfl (fun _ _ => rfl) rfl (h.stored e he)

theorem inv_set (map : BoundedTtlMap K V o) (v : V) (h : Inv map.entries.rows o now log) :
    Inv (map.set k v now).entries.rows o now (.stored k v now :: log) := by
  rw [BoundedTtlMap.set_rows]
  refine Inv.trim (h.touch List.filter_sublist (fun _ => BoundedTtlMap.mem_delete) rfl ?_ rfl ?_) ?_
  · intro j hj
    simp [lastStored, Ne.symm hj]
  · exact ⟨now, by simp [lastStored]⟩
  · have hnodup := ((map.entries.delete k).put ⟨k, v, now + o.ttlMs⟩).nodup
    rwa [KeyedRows.rows_put_delete map.entries ⟨k, v, now + o.ttlMs⟩] at hnodup

theorem preserves_inv :
    Preserves step always (fun s : State K V o => Inv s.map.entries.rows o s.now s.log) := by
  rintro ⟨map, now, log⟩ a t h - hstep
  cases a with
  | set k v => cases hstep; exact inv_set map v h
  | get k => cases hstep; exact inv_get map h
  | has k => cases hstep; exact inv_get map h
  | delete k => cases hstep; exact h.delete List.filter_sublist (fun _ => BoundedTtlMap.mem_delete)
  | clear =>
      cases hstep
      exact ⟨fun e he => absurd he List.not_mem_nil, List.Pairwise.nil, fun _ _ _ hlast => by cases hlast⟩
  | sweep =>
      cases hstep
      exact h.expire List.filter_sublist (fun e he hlive => BoundedTtlMap.mem_sweep.mpr ⟨he, hlive⟩)
  | advance t =>
      simp only [step, Option.ite_none_right_eq_some, Option.some.injEq] at hstep
      obtain ⟨hle, rfl⟩ := hstep
      exact h.advance hle

theorem lru_of_inv {map : BoundedTtlMap K V o} (h : Inv map.entries.rows o now log) :
    Lru o.maxEntries o.ttlMs log now (fun k => (map.get k now).1) where
  sound k v hget := by
    obtain ⟨e, he, rfl, hlive, rfl⟩ := BoundedTtlMap.get_eq_some.mp hget
    obtain ⟨t, hlast, hexp⟩ := h.stored e he
    exact ⟨t, hlast, hexp ▸ hlive⟩
  complete k v t hlast hlive hfew := by
    rcases h.missing k v t hlast hlive with hk | hmany
    · obtain ⟨e, he, rfl⟩ := List.mem_map.mp hk
      obtain ⟨t', hlast', hexp⟩ := h.stored e he
      rw [hlast', Option.some.injEq, Prod.mk.injEq] at hlast
      exact BoundedTtlMap.get_eq_some.mpr ⟨e, he, rfl, by rwa [hexp, hlast.2], hlast.1⟩
    · exact absurd hfew (not_lt.mpr hmany)

/-- In every state of a map in use, its size is bounded and its reads are those of an
LRU cache with expiry. -/
theorem refines_lru (start : T) (acts : List (Act K V T)) (s : State K V o)
    (h : run step (init start) acts = some s) :
    s.map.size ≤ o.maxEntries ∧ Lru o.maxEntries o.ttlMs s.log s.now (fun k => (s.map.get k s.now).1) := by
  refine ⟨s.map.bounded, lru_of_inv (preserves_inv.run_always ?_ h)⟩
  exact ⟨fun e he => absurd he List.not_mem_nil, List.Pairwise.nil, fun _ _ _ hlast => by cases hlast⟩

def twoEntries : BoundedTtlMapOptions Nat := ⟨2, 10, by decide, by decide⟩

theorem refines_lru_evicted : ∃ s : State String Nat twoEntries,
    run step (init 0) [.set "a" 1, .set "b" 2, .get "a", .advance 5, .set "c" 3] = some s ∧
      (s.map.size ≤ 2 ∧ Lru 2 10 s.log s.now (fun k => (s.map.get k s.now).1)) ∧
      (s.map.get "a" s.now).1 = some 1 ∧ (s.map.get "b" s.now).1 = none := by
  obtain ⟨s, hs, hreads⟩ := exists_of_run_any step (init 0 : State String Nat twoEntries)
    [.set "a" 1, .set "b" 2, .get "a", .advance 5, .set "c" 3]
    (fun s => (s.map.get "a" s.now).1 = some 1 ∧ (s.map.get "b" s.now).1 = none) (by decide)
  exact ⟨s, hs, refines_lru 0 _ s hs, of_decide_eq_true hreads⟩

end Savitools.Common.LruCache
