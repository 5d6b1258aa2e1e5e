import Mathlib.Data.List.Basic

namespace Stores.Table

variable {α : Type*}

/-- `UPDATE ... SET f WHERE p`, as one atomic statement. -/
def update (p : α → Bool) (f : α → α) (rows : List α) : List α :=
  rows.map (fun r => if p r then f r else r)

/-- The row count that the database reports for an update. -/
def affected (p : α → Bool) (rows : List α) : Nat := rows.countP p

def delete (p : α → Bool) (rows : List α) : List α := rows.filter (fun r => !p r)

theorem mem_update {p : α → Bool} {f : α → α} {rows : List α} {r : α} :
    r ∈ update p f rows ↔ ∃ q ∈ rows, r = if p q then f q else q := by
  simp only [update, List.mem_map, eq_comm]

theorem mem_delete {p : α → Bool} {rows : List α} {r : α} :
    r ∈ delete p rows ↔ r ∈ rows ∧ p r = false := by
  simp [delete]

theorem countP_delete_add (p q : α → Bool) (rows : List α) :
    (delete p rows).countP q + rows.countP (fun r => p r && q r) = rows.countP q := by
  induction rows with
  | nil => rfl
  | cons r rows ih =>
      simp only [delete] at ih ⊢
      cases hp : p r with
      | true =>
          simp only [List.filter_cons, hp, Bool.not_true, Bool.false_eq_true, if_false, List.countP_cons,
            Bool.true_and]
          omega
      | false =>
          simp only [List.filter_cons, hp, Bool.not_false, if_true, List.countP_cons, Bool.false_and,
            Bool.false_eq_true, if_false]
          omega

theorem countP_delete_le (p q : α → Bool) (rows : List α) :
    (delete p rows).countP q ≤ rows.countP q :=
  countP_delete_add p q rows ▸ Nat.le_add_right _ _

theorem countP_delete_lt {p q : α → Bool} {rows : List α} {r : α} (hr : r ∈ rows) (hp : p r = true)
    (hq : q r = true) : (delete p rows).countP q < rows.countP q := by
  have hadd := countP_delete_add p q rows
  have hpos : 0 < rows.countP (fun r => p r && q r) := List.countP_pos_iff.mpr ⟨r, hr, by simp [hp, hq]⟩
  omega

theorem countP_update_of_cleared {p q : α → Bool} {f : α → α} {rows : List α}
    (hclear : ∀ r ∈ rows, p r = true → q (f r) = false) :
    (update p f rows).countP q + rows.countP (fun r => p r && q r) = rows.countP q := by
  induction rows with
  | nil => rfl
  | cons r rows ih =>
      have hr := hclear r List.mem_cons_self
      have htail := ih (fun r' hr' => hclear r' (List.mem_cons_of_mem _ hr'))
      simp only [update, List.map_cons, List.countP_cons] at htail ⊢
      cases hp : p r with
      | false => simp only [Bool.false_and, Bool.false_eq_true, if_false]; omega
      | true =>
          have hf := hr hp
          simp only [if_true, hf, Bool.true_and, Bool.false_eq_true, if_false]
          omega

theorem countP_update_le {p q : α → Bool} {f : α → α} {rows : List α}
    (hclear : ∀ r ∈ rows, p r = true → q (f r) = false) :
    (update p f rows).countP q ≤ rows.countP q :=
  countP_update_of_cleared hclear ▸ Nat.le_add_right _ _

theorem countP_set_add {p : α → Bool} {rows : List α} {i : Nat} {a b : α} (h : rows[i]? = some a) :
    (rows.set i b).countP p + (if p a then 1 else 0) = rows.countP p + (if p b then 1 else 0) := by
  induction rows generalizing i with
  | nil => simp at h
  | cons r rows ih =>
      cases i with
      | zero =>
          simp only [List.getElem?_cons_zero, Option.some.injEq] at h
          subst h
          simp only [List.set_cons_zero, List.countP_cons]
          omega
      | succ i =>
          have hi := ih (by simpa using h)
          simp only [List.set_cons_succ, List.countP_cons]
          omega

theorem countP_eraseIdx_add {p : α → Bool} {rows : List α} {i : Nat} {a : α} (h : rows[i]? = some a) :
    (rows.eraseIdx i).countP p + (if p a then 1 else 0) = rows.countP p := by
  induction rows generalizing i with
  | nil => simp at h
  | cons r rows ih =>
      cases i with
      | zero =>
          simp only [List.getElem?_cons_zero, Option.some.injEq] at h
          subst h
          simp only [List.eraseIdx_cons_zero, List.countP_cons]
      | succ i =>
          have hi := ih (by simpa using h)
          simp only [List.eraseIdx_cons_succ, List.countP_cons]
          omega

theorem mem_set_or {rows : List α} {i : Nat} {a b : α} (h : a ∈ rows.set i b) (c : α) :
    a = b ∨ a ∈ rows.set i c := by
  induction rows generalizing i with
  | nil => exact absurd h List.not_mem_nil
  | cons r rows ih =>
      cases i with
      | zero => exact (List.mem_cons.mp h).imp_right (List.mem_cons_of_mem c)
      | succ i =>
          rcases List.mem_cons.mp h with rfl | h
          · exact .inr List.mem_cons_self
          · exact (ih h).imp_right (List.mem_cons_of_mem r)

end Stores.Table
