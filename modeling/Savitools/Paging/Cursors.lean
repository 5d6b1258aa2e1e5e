import Mathlib.Data.List.Nodup
import Mathlib.Tactic.Ring

namespace Paging.Chunks

variable {α : Type*}

/-- Reads pages of `size` items, the last of which may be smaller, until there are enough of them or a page is not
full. -/
def readChunks (find : Nat → Nat → List α) (size limit page read : Nat) : List α :=
  if read < limit then
    let take := min size (limit - read)
    let items := find page take
    if items = [] then []
    else if items.length < take then items
    else items ++ readChunks find size limit (page + 1) (read + items.length)
  else []
termination_by limit - read
decreasing_by
  have hitems : 0 < (find page (min size (limit - read))).length := List.length_pos_of_ne_nil ‹¬items = []›
  omega

/-- The page of a list that is found by its number and size. -/
def offsetPage (rows : List α) (page take : Nat) : List α := (rows.drop ((page - 1) * take)).take take

theorem readChunks_done {find : Nat → Nat → List α} {size limit page read : Nat} (h : limit ≤ read) :
    readChunks find size limit page read = [] := by
  rw [readChunks, if_neg h.not_gt]

section Offsets

variable {rows : List α} {size limit k : Nat}

theorem take_short {n : Nat} (h : rows.length - k < n) : (rows.drop k).take n = rows.drop k := by
  refine List.take_of_length_le ?_
  rw [List.length_drop]
  omega

/-- The chunks that are as large as the others continue where those stop. -/
theorem readChunks_full (hsize : 0 < size) (hfull : (k + 1) * size ≤ limit) :
    readChunks (offsetPage rows) size limit (k + 1) (k * size) =
      if rows.length < (k + 1) * size then rows.drop (k * size)
      else (rows.drop (k * size)).take size ++ readChunks (offsetPage rows) size limit (k + 2) ((k + 1) * size) := by
  have hsucc : (k + 1) * size = k * size + size := Nat.succ_mul k size
  have hread : k * size < limit := by omega
  have htake : min size (limit - k * size) = size := by omega
  have hpage : offsetPage rows (k + 1) size = (rows.drop (k * size)).take size := rfl
  rw [readChunks, if_pos hread]
  simp only [htake, hpage]
  by_cases hshort : rows.length < (k + 1) * size
  · rw [if_pos hshort, take_short (by omega)]
    split
    next hempty => exact hempty.symm
    next => rw [if_pos (by rw [List.length_drop]; omega)]
  · have hlength : ((rows.drop (k * size)).take size).length = size := by
      rw [List.length_take, List.length_drop]
      omega
    have hne : (rows.drop (k * size)).take size ≠ [] := List.ne_nil_of_length_pos (by omega)
    rw [if_neg hshort, if_neg hne, hlength, if_neg (Nat.lt_irrefl size), ← hsucc]

/-- The last chunk is looked for at an offset of its own size. -/
theorem readChunks_last (hread : k * size ≤ limit) (hlast : limit < (k + 1) * size) :
    readChunks (offsetPage rows) size limit (k + 1) (k * size) =
      (rows.drop (k * (limit - k * size))).take (limit - k * size) := by
  have hsucc : (k + 1) * size = k * size + size := Nat.succ_mul k size
  have htake : min size (limit - k * size) = limit - k * size := by omega
  have hpage : offsetPage rows (k + 1) (limit - k * size) =
      (rows.drop (k * (limit - k * size))).take (limit - k * size) := rfl
  rw [readChunks]
  split
  next =>
    simp only [htake, hpage]
    split
    next hempty => exact hempty.symm
    next =>
      split
      next => rfl
      next hlength =>
        rw [readChunks_done (by omega), List.append_nil]
  next hdone =>
    have hnone : limit - k * size = 0 := by omega
    rw [hnone, List.take_zero]

/-- What is read from the k-th chunk on, when those in front of it are full. -/
theorem readChunks_from (hsize : 0 < size) (hk : k ≤ limit / size) (hrows : k * size ≤ rows.length) :
    readChunks (offsetPage rows) size limit (k + 1) (k * size) =
      (rows.drop (k * size)).take ((limit / size - k) * size) ++
        if rows.length < limit / size * size then []
        else (rows.drop (limit / size * (limit % size))).take (limit % size) := by
  induction hcount : limit / size - k generalizing k with
  | zero =>
      obtain rfl : k = limit / size := by omega
      have hmod : limit - limit / size * size = limit % size := by
        have hdiv := Nat.div_add_mod' limit size
        omega
      have hlast : limit < (limit / size + 1) * size := by
        rw [Nat.succ_mul]
        exact Nat.lt_div_mul_add hsize
      rw [readChunks_last (Nat.div_mul_le_self limit size) hlast, hmod, if_neg hrows.not_gt, Nat.zero_mul, List.take_zero,
        List.nil_append]
  | succ n ih =>
      have hnext : k + 1 ≤ limit / size := by omega
      have hlimit : (k + 1) * size ≤ limit := (Nat.mul_le_mul_right size hnext).trans (Nat.div_mul_le_self limit size)
      have hall : (k + 1) * size ≤ limit / size * size := Nat.mul_le_mul_right size hnext
      have hsucc : (k + 1) * size = k * size + size := Nat.succ_mul k size
      rw [readChunks_full hsize hlimit]
      by_cases hshort : rows.length < (k + 1) * size
      · have hmany : size ≤ (n + 1) * size := Nat.le_mul_of_pos_left size (Nat.succ_pos n)
        rw [if_pos hshort, if_pos (hshort.trans_le hall), List.append_nil, take_short (by omega)]
      · have hrest := ih hnext (not_lt.mp hshort) (by omega)
        have hcut : (rows.drop (k * size)).take ((n + 1) * size) =
            (rows.drop (k * size)).take size ++ (rows.drop ((k + 1) * size)).take (n * size) := by
          rw [Nat.succ_mul n, Nat.add_comm, List.take_add, List.drop_drop, ← hsucc]
        rw [if_neg hshort, hcut, List.append_assoc, ← hrest]

/-- What is read in all: the full chunks, and then a last one at the wrong place. -/
theorem readChunks_offset (hsize : 0 < size) :
    readChunks (offsetPage rows) size limit 1 0 = rows.take (limit / size * size) ++
      if rows.length < limit / size * size then []
      else (rows.drop (limit / size * (limit % size))).take (limit % size) := by
  have hfirst := @readChunks_from α rows size limit 0 hsize (Nat.zero_le _) (by omega)
  rwa [Nat.zero_mul, List.drop_zero, Nat.sub_zero] at hfirst

/-- A chunk at a later offset is another one. -/
theorem chunk_ne {i j n : Nat} (hnodup : rows.Nodup) (hij : i < j) (hi : i < rows.length) (hn : 0 < n) :
    (rows.drop i).take n ≠ (rows.drop j).take n := by
  intro heq
  have hhead := congrArg List.head? heq
  rw [List.head?_take, List.head?_take, if_neg hn.ne', if_neg hn.ne', List.head?_drop, List.head?_drop,
    List.getElem?_eq_getElem hi] at hhead
  obtain ⟨hj, hsame⟩ := List.getElem?_eq_some_iff.mp hhead.symm
  have hindex := (List.Nodup.getElem_inj_iff hnodup).mp hsame
  omega

/-- The chunks are the first rows exactly when the last one is as large as the others or the only one, or is never
looked for. -/
theorem readChunks_offset_iff (hsize : 0 < size) (hnodup : rows.Nodup) :
    readChunks (offsetPage rows) size limit 1 0 = rows.take limit ↔
      limit < size ∨ size ∣ limit ∨ rows.length < limit / size * size := by
  have hdiv := Nat.div_add_mod' limit size
  have hcut : rows.take limit =
      rows.take (limit / size * size) ++ (rows.drop (limit / size * size)).take (limit % size) := by
    rw [← List.take_add, hdiv]
  rw [readChunks_offset hsize, hcut, List.append_cancel_left_eq]
  rcases Nat.eq_zero_or_pos (limit % size) with hmod | hmod
  · refine iff_of_true ?_ (.inr (.inl (Nat.dvd_of_mod_eq_zero hmod)))
    rw [hmod, List.take_zero, List.take_zero, ite_self]
  · have hnot : ¬size ∣ limit := fun hdvd => hmod.ne' (Nat.mod_eq_zero_of_dvd hdvd)
    by_cases hshort : rows.length < limit / size * size
    · refine iff_of_true ?_ (.inr (.inr hshort))
      rw [if_pos hshort, List.drop_of_length_le hshort.le, List.take_nil]
    · rw [if_neg hshort]
      rcases Nat.eq_zero_or_pos (limit / size) with hzero | hpos
      · refine iff_of_true ?_ (.inl ((Nat.div_eq_zero_iff_lt hsize).mp hzero))
        rw [hzero, Nat.zero_mul, Nat.zero_mul]
      · have hearlier : limit / size * (limit % size) < limit / size * size :=
          Nat.mul_lt_mul_of_pos_left (Nat.mod_lt limit hsize) hpos
        refine iff_of_false (chunk_ne hnodup hearlier (by omega) hmod) ?_
        have hlarge : ¬limit < size := fun hlt => hpos.ne' (Nat.div_eq_of_lt hlt)
        tauto

end Offsets

end Paging.Chunks

namespace Paging.Cursors

variable {α β τ : Type*} [DecidableEq τ]

/-- What comes after the item with the cursor's token; everything without a cursor. -/
def after (token : α → τ) (cursor : Option τ) (items : List α) : List α :=
  match cursor with
  | none => items
  | some c => (items.dropWhile (fun a => token a ≠ c)).tail

structure Page (β τ : Type*) where
  items : List β
  next : Option τ

/-- Reads pages until one has no next cursor, at most `fuel` of them; a page that cannot be
read ends in `none`. -/
def follow (fetch : Option τ → Option (Page β τ)) : Nat → Option τ → Option (List β)
  | 0, _ => none
  | fuel + 1, cursor =>
      match fetch cursor with
      | none => none
      | some page =>
          match page.next with
          | none => some page.items
          | some c => (follow fetch fuel (some c)).map (page.items ++ ·)

/-- A page covers a first part of what remains: it has the results of that part, and the
next cursor is the token of its last item, or there are no more results. -/
structure Covers (token : α → τ) (g : α → Option β) (remaining done rest : List α) (page : Page β τ) : Prop where
  split : remaining = done ++ rest
  items : page.items = done.filterMap g
  finished : page.next = none → rest.filterMap g = []
  resumable : ∀ c, page.next = some c → ∃ a, done.getLast? = some a ∧ c = token a

theorem after_token {token : α → τ} {front rest : List α} {a : α} (hnodup : ((front ++ a :: rest).map token).Nodup) :
    after token (some (token a)) (front ++ a :: rest) = rest := by
  have hfront : ∀ b ∈ front, decide (token b ≠ token a) = true := by
    intro b hb
    rw [List.map_append, List.map_cons] at hnodup
    have hne := (List.nodup_append.mp hnodup).2.2 _ (List.mem_map_of_mem hb) _ List.mem_cons_self
    exact decide_eq_true hne
  rw [after, List.dropWhile_append_of_pos hfront, List.dropWhile_cons_of_neg (by simp), List.tail_cons]

/-- The token of the last item of a first part of what remains continues with the rest. -/
theorem after_last {token : α → τ} {all done rest : List α} {cursor : Option τ} {a : α}
    (hnodup : (all.map token).Nodup) (hsuffix : after token cursor all <:+ all)
    (hsplit : after token cursor all = done ++ rest) (hlast : done.getLast? = some a) :
    after token (some (token a)) all = rest ∧ token a ∈ all.map token ∧ rest <:+ all := by
  obtain ⟨front, rfl⟩ := List.getLast?_eq_some_iff.mp hlast
  obtain ⟨before, hbefore⟩ := hsuffix
  have hall : all = (before ++ front) ++ a :: rest := by
    rw [← hbefore, hsplit]
    simp
  rw [hall] at hnodup ⊢
  exact ⟨after_token hnodup, List.mem_map_of_mem (List.mem_append_right _ List.mem_cons_self),
    before ++ front ++ [a], by simp⟩

/-- Following the cursors of pages that each cover a first part of what remains gives
all results in order, once there is fuel for every item. -/
theorem follow_eq {token : α → τ} {g : α → Option β} {fetch : Option τ → Option (Page β τ)} {all : List α}
    (hnodup : (all.map token).Nodup)
    (hfetch : ∀ cursor, (∀ c, cursor = some c → c ∈ all.map token) → after token cursor all <:+ all →
      ∃ page done rest, fetch cursor = some page ∧ Covers token g (after token cursor all) done rest page)
    (fuel : Nat) (cursor : Option τ) (hcursor : ∀ c, cursor = some c → c ∈ all.map token)
    (hfuel : (after token cursor all).length < fuel) (hsuffix : after token cursor all <:+ all) :
    follow fetch fuel cursor = some ((after token cursor all).filterMap g) := by
  induction fuel generalizing cursor with
  | zero => omega
  | succ fuel ih =>
      obtain ⟨page, done, rest, hpage, hcovers⟩ := hfetch cursor hcursor hsuffix
      simp only [follow, hpage]
      split
      next hnext =>
        rw [hcovers.items, hcovers.split, List.filterMap_append, hcovers.finished hnext, List.append_nil]
      next c hnext =>
        obtain ⟨a, hlast, rfl⟩ := hcovers.resumable c hnext
        obtain ⟨hafter, hmem, hrest⟩ := after_last hnodup hsuffix hcovers.split hlast
        have hlength := congrArg List.length hcovers.split
        rw [List.length_append] at hlength
        have hdone : 0 < done.length := List.length_pos_of_mem (List.mem_of_getLast? hlast)
        have hi := ih (some (token a)) (by rintro c ⟨⟩; exact hmem) (by rw [hafter]; omega) (hafter ▸ hrest)
        simp only [hi, hafter, hcovers.items, hcovers.split, List.filterMap_append, Option.map_some]

end Paging.Cursors
