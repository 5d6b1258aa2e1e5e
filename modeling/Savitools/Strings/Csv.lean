import Mathlib.Data.List.Basic

namespace Strings.Csv

variable {α : Type}

/-- The signs that separate and quote, none of which is another. -/
structure Marks (α : Type) where
  quote : α
  comma : α
  lineEnd : α
  carriageReturn : α
  quote_ne_comma : quote ≠ comma
  quote_ne_lineEnd : quote ≠ lineEnd
  comma_ne_lineEnd : comma ≠ lineEnd

variable {m : Marks α}

/-- What stands for itself in a field without quotes. -/
structure Marks.Plain (m : Marks α) (u : α) : Prop where
  quote : u ≠ m.quote
  comma : u ≠ m.comma
  lineEnd : u ≠ m.lineEnd
  carriageReturn : u ≠ m.carriageReturn

/-- What stands between quotes, and the text that it means: two quotes are one. -/
inductive Escaped (m : Marks α) : List α → List α → Prop
  | nil : Escaped m [] []
  | sign {u : α} {s t : List α} (hu : u ≠ m.quote) (hs : Escaped m s t) : Escaped m (u :: s) (u :: t)
  | pair {s t : List α} (hs : Escaped m s t) : Escaped m (m.quote :: m.quote :: s) (m.quote :: t)

inductive Field (m : Marks α) : List α → List α → Prop
  | plain {t : List α} (ht : ∀ u ∈ t, m.Plain u) : Field m t t
  | escaped {s t : List α} (hs : Escaped m s t) : Field m (m.quote :: (s ++ [m.quote])) t

inductive Record (m : Marks α) : List α → List (List α) → Prop
  | last {s t : List α} (hs : Field m s t) : Record m s [t]
  | more {s t r : List α} {ts : List (List α)} (hs : Field m s t) (hr : Record m r ts) :
      Record m (s ++ m.comma :: r) (t :: ts)

/-- A file is records, one at least, each with its line end. -/
inductive File (m : Marks α) : List α → List (List (List α)) → Prop
  | last {s : List α} {ts : List (List α)} (hs : Record m s ts) : File m (s ++ [m.lineEnd]) [ts]
  | more {s r : List α} {ts : List (List α)} {rest : List (List (List α))} (hs : Record m s ts) (hr : File m r rest) :
      File m (s ++ m.lineEnd :: r) (ts :: rest)

/-- Signs that come after a field. -/
def Marks.Ends (m : Marks α) (u : α) : Prop := u = m.comma ∨ u = m.lineEnd

theorem Marks.Ends.ne_quote {u : α} (hu : m.Ends u) : u ≠ m.quote := by
  rcases hu with rfl | rfl
  · exact m.quote_ne_comma.symm
  · exact m.quote_ne_lineEnd.symm

theorem Marks.Plain.not_ends {u : α} (hu : m.Plain u) : ¬m.Ends u := not_or.mpr ⟨hu.comma, hu.lineEnd⟩

/-- The quote that closes an escaped field is the first one without another behind it. -/
theorem Escaped.unique {s s' t t' : List α} {u u' : α} {r r' : List α} (hs : Escaped m s t) (hs' : Escaped m s' t')
    (hu : u ≠ m.quote) (hu' : u' ≠ m.quote) (heq : s ++ m.quote :: u :: r = s' ++ m.quote :: u' :: r') :
    s = s' ∧ t = t' ∧ u :: r = u' :: r' := by
  induction hs generalizing s' t' with
  | nil =>
      cases hs' with
      | nil => exact ⟨rfl, rfl, (List.cons.inj heq).2⟩
      | sign hne => exact absurd (List.cons.inj heq).1.symm hne
      | pair => exact absurd (List.cons.inj (List.cons.inj heq).2).1 hu
  | sign hne _ ih =>
      cases hs' with
      | nil => exact absurd (List.cons.inj heq).1 hne
      | sign _ hs' =>
          obtain ⟨rfl, htail⟩ := List.cons.inj heq
          obtain ⟨rfl, rfl, hrest⟩ := ih hs' htail
          exact ⟨rfl, rfl, hrest⟩
      | pair => exact absurd (List.cons.inj heq).1 hne
  | pair _ ih =>
      cases hs' with
      | nil => exact absurd (List.cons.inj (List.cons.inj heq).2).1.symm hu'
      | sign hne => exact absurd (List.cons.inj heq).1.symm hne
      | pair hs' =>
          obtain ⟨rfl, rfl, hrest⟩ := ih hs' (List.cons.inj (List.cons.inj heq).2).2
          exact ⟨rfl, rfl, hrest⟩

theorem plain_unique {s s' : List α} {u u' : α} {r r' : List α} (hs : ∀ v ∈ s, m.Plain v) (hs' : ∀ v ∈ s', m.Plain v)
    (hu : m.Ends u) (hu' : m.Ends u') (heq : s ++ u :: r = s' ++ u' :: r') : s = s' ∧ u :: r = u' :: r' := by
  induction s generalizing s' with
  | nil =>
      cases s' with
      | nil => exact ⟨rfl, heq⟩
      | cons v s' => exact absurd ((List.cons.inj heq).1 ▸ hu) (hs' v List.mem_cons_self).not_ends
  | cons v s ih =>
      cases s' with
      | nil => exact absurd ((List.cons.inj heq).1 ▸ hu') (hs v List.mem_cons_self).not_ends
      | cons v' s' =>
          obtain ⟨rfl, htail⟩ := List.cons.inj heq
          obtain ⟨rfl, hrest⟩ := ih (List.forall_mem_cons.mp hs).2 (List.forall_mem_cons.mp hs').2 htail
          exact ⟨rfl, hrest⟩

/-- A plain text with what ends it does not start with a quote. -/
theorem plain_ne_quote {s : List α} {u : α} {r r' : List α} (hs : ∀ v ∈ s, m.Plain v) (hu : m.Ends u) :
    s ++ u :: r ≠ m.quote :: r' := by
  cases s with
  | nil => exact fun heq => hu.ne_quote (List.cons.inj heq).1
  | cons v s => exact fun heq => (hs v List.mem_cons_self).quote (List.cons.inj heq).1

/-- A field ends before the first comma or line end outside quotes. -/
theorem Field.unique {s s' t t' : List α} {u u' : α} {r r' : List α} (hs : Field m s t) (hs' : Field m s' t')
    (hu : m.Ends u) (hu' : m.Ends u') (heq : s ++ u :: r = s' ++ u' :: r') : s = s' ∧ t = t' ∧ u :: r = u' :: r' := by
  cases hs with
  | plain ht =>
      cases hs' with
      | plain ht' =>
          obtain ⟨rfl, hrest⟩ := plain_unique ht ht' hu hu' heq
          exact ⟨rfl, rfl, hrest⟩
      | escaped hs' => exact absurd heq (plain_ne_quote ht hu)
  | escaped hs =>
      cases hs' with
      | plain ht' => exact absurd heq.symm (plain_ne_quote ht' hu')
      | escaped hs' =>
          rw [List.cons_append, List.cons_append, List.append_assoc, List.append_assoc, List.singleton_append,
            List.singleton_append] at heq
          obtain ⟨rfl, rfl, hrest⟩ := hs.unique hs' hu.ne_quote hu'.ne_quote (List.cons.inj heq).2
          exact ⟨rfl, rfl, hrest⟩

theorem Record.unique {s s' : List α} {ts ts' : List (List α)} {r r' : List α} (hs : Record m s ts) (hs' : Record m s' ts')
    (heq : s ++ m.lineEnd :: r = s' ++ m.lineEnd :: r') : s = s' ∧ ts = ts' ∧ r = r' := by
  have hcomma : m.Ends m.comma := .inl rfl
  have hlineEnd : m.Ends m.lineEnd := .inr rfl
  induction hs generalizing s' ts' with
  | last hs =>
      cases hs' with
      | last hs' =>
          obtain ⟨rfl, rfl, hrest⟩ := hs.unique hs' hlineEnd hlineEnd heq
          exact ⟨rfl, rfl, (List.cons.inj hrest).2⟩
      | more hs' =>
          rw [List.append_assoc, List.cons_append] at heq
          obtain ⟨-, -, hrest⟩ := hs.unique hs' hlineEnd hcomma heq
          exact absurd (List.cons.inj hrest).1.symm m.comma_ne_lineEnd
  | more hs _ ih =>
      rw [List.append_assoc, List.cons_append] at heq
      cases hs' with
      | last hs' =>
          obtain ⟨-, -, hrest⟩ := hs.unique hs' hcomma hlineEnd heq
          exact absurd (List.cons.inj hrest).1 m.comma_ne_lineEnd
      | more hs' hr' =>
          rw [List.append_assoc, List.cons_append] at heq
          obtain ⟨rfl, rfl, hrest⟩ := hs.unique hs' hcomma hcomma heq
          obtain ⟨rfl, rfl, hrest⟩ := ih hr' (List.cons.inj hrest).2
          exact ⟨rfl, rfl, hrest⟩

theorem File.ne_nil {s : List α} {records : List (List (List α))} (hs : File m s records) : s ≠ [] := by
  cases hs with
  | last => exact List.append_ne_nil_of_right_ne_nil _ (List.cons_ne_nil _ _)
  | more => exact List.append_ne_nil_of_right_ne_nil _ (List.cons_ne_nil _ _)

/-- No text is two files. -/
theorem File.unique {s : List α} {records records' : List (List (List α))} (hs : File m s records)
    (hs' : File m s records') : records = records' := by
  suffices h : ∀ {s'}, File m s' records' → s = s' → records = records' from h hs' rfl
  clear hs'
  intro s' hs' heq
  induction hs generalizing s' records' with
  | last hs =>
      cases hs' with
      | last hs' =>
          obtain ⟨-, rfl, -⟩ := hs.unique hs' heq
          rfl
      | more hs' hr' =>
          obtain ⟨-, -, hrest⟩ := hs.unique hs' heq
          exact absurd hrest.symm hr'.ne_nil
  | more hs hr ih =>
      cases hs' with
      | last hs' =>
          obtain ⟨-, -, hrest⟩ := hs.unique hs' heq
          exact absurd hrest hr.ne_nil
      | more hs' hr' =>
          obtain ⟨-, rfl, hrest⟩ := hs.unique hs' heq
          exact congrArg _ (ih hr' hrest)

section Writing

variable [DecidableEq α]

/-- Each quote twice. -/
def doubled (m : Marks α) (t : List α) : List α := t.flatMap fun u => if u = m.quote then [m.quote, m.quote] else [u]

theorem escaped_doubled (t : List α) : Escaped m (doubled m t) t := by
  induction t with
  | nil => exact .nil
  | cons u t ih =>
      rw [doubled, List.flatMap_cons]
      split
      next hu =>
        subst hu
        exact .pair ih
      next hu => exact .sign hu ih

end Writing

/-- Fields with commas between them are a record. -/
theorem record_intercalate {s t : List α} {ss ts : List (List α)} (hs : Field m s t) (hss : List.Forall₂ (Field m) ss ts) :
    Record m ([m.comma].intercalate (s :: ss)) (t :: ts) := by
  induction hss generalizing s t with
  | nil =>
      rw [List.intercalate_singleton]
      exact .last hs
  | cons hfield _ ih =>
      rw [List.intercalate_cons_cons, List.append_assoc, List.singleton_append]
      exact .more hs (ih hfield)

/-- Records with line ends between them and one at the end are a file. -/
theorem file_intercalate {s : List α} {ts : List (List α)} {ss : List (List α)} {records : List (List (List α))}
    (hs : Record m s ts) (hss : List.Forall₂ (Record m) ss records) :
    File m ([m.lineEnd].intercalate (s :: ss) ++ [m.lineEnd]) (ts :: records) := by
  induction hss generalizing s ts with
  | nil =>
      rw [List.intercalate_singleton]
      exact .last hs
  | cons hrecord _ ih =>
      rw [List.intercalate_cons_cons, List.append_assoc, List.append_assoc, List.singleton_append]
      exact .more hs (ih hrecord)

end Strings.Csv
