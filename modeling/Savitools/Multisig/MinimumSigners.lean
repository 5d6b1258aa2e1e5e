import Savitools.Multisig.Weights

namespace Savitools.Multisig.MinimumSigners

open Strings.CodeUnits Stores.Entries Searches.Covers Weights

variable {localeCompare : Text → Text → Int}

theorem sumWeights_eq (signers : List MultisigSignerInput) : sumWeights signers = total (·.weight) signers := by
  have hfold (n : Int) : signers.foldl (fun sum signer => sum + signer.weight) n = n + total (·.weight) signers := by
    induction signers generalizing n with
    | nil => exact (Int.add_zero n).symm
    | cons signer signers ih => rw [List.foldl_cons, ih, total_cons, Int.add_assoc]
  rw [sumWeights, hfold, Int.zero_add]

theorem sortTexts_perm (ts : List Text) : (sortTexts ts).Perm ts := List.perm_insertionSort _ ts

theorem length_le_of_compare {left right : List Text} (h : compareSolutions localeCompare left right < 0) :
    left.length ≤ right.length := by
  rw [compareSolutions] at h
  split at h
  next => omega
  next heq => exact (not_not.mp heq).le

theorem length_le_of_not_compare {left right : List Text} (h : ¬compareSolutions localeCompare left right < 0) :
    right.length ≤ left.length := by
  rw [compareSolutions] at h
  split at h
  next => omega
  next heq => exact (not_not.mp heq).ge

section Table

variable {limit : Int} {signer : MultisigSignerInput} {best : List (Int × List Text)} {entry : Int × List Text}

theorem addSolution_origin {e : Int × List Text} (h : e ∈ addSolution localeCompare limit signer best entry) :
    e ∈ best ∨ e.1 = entry.1 + signer.weight ∧ e.2.Perm (signer.key :: entry.2) := by
  have hput (hmem : e ∈ put (entry.1 + signer.weight) (sortTexts (entry.2 ++ [signer.key])) best) :
      e ∈ best ∨ e.1 = entry.1 + signer.weight ∧ e.2.Perm (signer.key :: entry.2) := by
    rcases mem_of_mem_put hmem with rfl | hold
    · exact .inr ⟨rfl, (sortTexts_perm _).trans List.perm_append_comm⟩
    · exact .inl hold
  simp only [addSolution] at h
  split at h
  next => exact .inl h
  next =>
    split at h
    next => exact hput h
    next =>
      split at h
      next => exact hput h
      next => exact .inl h

/-- What a solution adds is not longer than what it takes the place of. -/
theorem addSolution_keeps (entry : Int × List Text) {n : Int} {keys : List Text} (h : best.lookup n = some keys) :
    ∃ now, (addSolution localeCompare limit signer best entry).lookup n = some now ∧ now.length ≤ keys.length := by
  simp only [addSolution]
  split
  next => exact ⟨keys, h, le_rfl⟩
  next =>
    split
    next hnone =>
      refine ⟨keys, ?_, le_rfl⟩
      rw [lookup_put, if_neg, h]
      rintro hn
      rw [← beq_iff_eq.mp hn, h] at hnone
      cases hnone
    next incumbent hincumbent =>
      split
      next hbetter =>
        rw [lookup_put]
        split
        next hn =>
          rw [← beq_iff_eq.mp hn, h] at hincumbent
          cases hincumbent
          exact ⟨_, rfl, length_le_of_compare hbetter⟩
        next => exact ⟨keys, h, le_rfl⟩
      next => exact ⟨keys, h, le_rfl⟩

theorem addSolution_adds (localeCompare : Text → Text → Int) (best : List (Int × List Text)) (h : entry.1 + signer.weight ≤ limit) :
    ∃ now, (addSolution localeCompare limit signer best entry).lookup (entry.1 + signer.weight) = some now ∧
      now.length ≤ entry.2.length + 1 := by
  have hlength : (sortTexts (entry.2 ++ [signer.key])).length = entry.2.length + 1 := by
    rw [(sortTexts_perm _).length_eq, List.length_append, List.length_singleton]
  simp only [addSolution, if_neg (not_lt.mpr h)]
  split
  next => exact ⟨_, by rw [lookup_put, if_pos (beq_self_eq_true _)], hlength.le⟩
  next incumbent hincumbent =>
    split
    next => exact ⟨_, by rw [lookup_put, if_pos (beq_self_eq_true _)], hlength.le⟩
    next hnot => exact ⟨incumbent, hincumbent, hlength ▸ length_le_of_not_compare hnot⟩

theorem foldl_addSolution_keeps (entries : List (Int × List Text)) {n : Int} {keys : List Text} (h : best.lookup n = some keys) :
    ∃ now, (entries.foldl (addSolution localeCompare limit signer) best).lookup n = some now ∧
      now.length ≤ keys.length := by
  induction entries generalizing best keys with
  | nil => exact ⟨keys, h, le_rfl⟩
  | cons entry entries ih =>
      obtain ⟨next, hnext, hle⟩ := addSolution_keeps entry h
      obtain ⟨now, hnow, hshort⟩ := ih hnext
      exact ⟨now, hnow, hshort.trans hle⟩

theorem foldl_addSolution_origin {entries : List (Int × List Text)} {e : Int × List Text}
    (h : e ∈ entries.foldl (addSolution localeCompare limit signer) best) :
    e ∈ best ∨ ∃ old ∈ entries, e.1 = old.1 + signer.weight ∧ e.2.Perm (signer.key :: old.2) := by
  induction entries generalizing best with
  | nil => exact .inl h
  | cons entry entries ih =>
      rcases ih h with hmem | ⟨old, hold, hrest⟩
      · exact (addSolution_origin hmem).imp_right fun hnew => ⟨entry, List.mem_cons_self, hnew⟩
      · exact .inr ⟨old, List.mem_cons_of_mem _ hold, hrest⟩

theorem foldl_addSolution_adds {entries : List (Int × List Text)} (hentry : entry ∈ entries)
    (h : entry.1 + signer.weight ≤ limit) :
    ∃ now, (entries.foldl (addSolution localeCompare limit signer) best).lookup (entry.1 + signer.weight) = some now ∧
      now.length ≤ entry.2.length + 1 := by
  induction entries generalizing best with
  | nil => cases hentry
  | cons first entries ih =>
      rcases List.mem_cons.mp hentry with rfl | hentry
      · obtain ⟨next, hnext, hle⟩ := addSolution_adds localeCompare best h
        obtain ⟨now, hnow, hshort⟩ := foldl_addSolution_keeps entries hnext
        exact ⟨now, hnow, hshort.trans hle⟩
      · exact ih hentry

theorem grown_addSolution :
    Grown limit signer.weight signer.key best (best.foldl (addSolution localeCompare limit signer) best) where
  origin _ he := foldl_addSolution_origin he
  keeps _ _ h := foldl_addSolution_keeps _ h
  adds _ _ h hlimit := foldl_addSolution_adds (mem_of_lookup h) hlimit

theorem solved_addSigner {done : List MultisigSignerInput} (h : Solved (·.weight) (·.key) done best)
    (hlimit : ∀ chosen : List MultisigSignerInput, chosen.Subperm (signer :: done) → total (·.weight) chosen ≤ limit) :
    Solved (·.weight) (·.key) (signer :: done) (addSigner localeCompare limit best signer) := by
  rw [addSigner]
  split
  next hzero => exact h.weightless hzero
  next => exact h.grown grown_addSolution hlimit

theorem solved_foldl {done signers : List MultisigSignerInput} (h : Solved (·.weight) (·.key) done best)
    (hlimit : ∀ chosen : List MultisigSignerInput, chosen.Subperm (signers.reverse ++ done) → total (·.weight) chosen ≤ limit) :
    Solved (·.weight) (·.key) (signers.reverse ++ done) (signers.foldl (addSigner localeCompare limit) best) := by
  induction signers generalizing done best with
  | nil => exact h
  | cons signer signers ih =>
      rw [List.reverse_cons, List.append_assoc, List.singleton_append] at hlimit ⊢
      refine ih (solved_addSigner h fun chosen hchosen => hlimit chosen (hchosen.trans ?_)) hlimit
      exact (List.sublist_append_right _ _).subperm

end Table

/-- What the last loop leaves is as short as any entry that weighs enough. -/
theorem betterOf_spec (localeCompare : Text → Text → Int) (deficit : Int) (entries : List (Int × List Text))
    (start : Option (Int × List Text)) :
    (entries.foldl (betterOf localeCompare deficit) start = none ↔ start = none ∧ ∀ e ∈ entries, e.1 < deficit) ∧
      ∀ winner, entries.foldl (betterOf localeCompare deficit) start = some winner →
        (start = some winner ∨ winner ∈ entries ∧ deficit ≤ winner.1) ∧
          (∀ s, start = some s → winner.2.length ≤ s.2.length) ∧
            ∀ e ∈ entries, deficit ≤ e.1 → winner.2.length ≤ e.2.length := by
  induction entries generalizing start with
  | nil =>
      refine ⟨by simp, fun winner h => ⟨.inl h, fun s hs => ?_, List.forall_mem_nil _⟩⟩
      obtain rfl := Option.some.inj (hs.symm.trans h)
      exact le_rfl
  | cons entry entries ih =>
      rw [List.foldl_cons]
      obtain ⟨hnone, hsome⟩ := ih (betterOf localeCompare deficit start entry)
      by_cases hlow : entry.1 < deficit
      · have hskip : betterOf localeCompare deficit start entry = start := if_pos hlow
        rw [hskip] at hnone hsome ⊢
        refine ⟨?_, fun winner h => ?_⟩
        · rw [hnone, List.forall_mem_cons]
          tauto
        · obtain ⟨horigin, hstart, hshort⟩ := hsome winner h
          refine ⟨horigin.imp_right (And.imp_left (List.mem_cons_of_mem _)), hstart, ?_⟩
          exact List.forall_mem_cons.mpr ⟨fun hge => absurd hlow (not_lt.mpr hge), hshort⟩
      · obtain ⟨best, hbest, horigin, hle, hentry⟩ : ∃ best, betterOf localeCompare deficit start entry = some best ∧
            (best = entry ∨ start = some best) ∧ (∀ s, start = some s → best.2.length ≤ s.2.length) ∧
              best.2.length ≤ entry.2.length := by
          simp only [betterOf, if_neg hlow]
          cases start with
          | none => exact ⟨entry, rfl, .inl rfl, nofun, le_rfl⟩
          | some s =>
              obtain ⟨w, keys⟩ := s
              dsimp only
              split
              next hbetter =>
                refine ⟨entry, rfl, .inl rfl, fun s hs => ?_, le_rfl⟩
                obtain rfl := Option.some.inj hs
                rw [Bool.or_eq_true, decide_eq_true_eq, Bool.and_eq_true, decide_eq_true_eq] at hbetter
                exact hbetter.elim length_le_of_compare fun h => h.1.le
              next hworse =>
                refine ⟨(w, keys), rfl, .inr rfl, fun s hs => ?_, ?_⟩
                · obtain rfl := Option.some.inj hs
                  exact le_rfl
                · rw [Bool.or_eq_true, decide_eq_true_eq, not_or] at hworse
                  exact length_le_of_not_compare hworse.1
        rw [hbest] at hnone hsome ⊢
        refine ⟨?_, fun winner h => ?_⟩
        · rw [hnone, List.forall_mem_cons]
          exact iff_of_false (fun h => by cases h.1) fun h => hlow h.2.1
        · obtain ⟨hwinner, hstart, hshort⟩ := hsome winner h
          have hleast := hstart best rfl
          refine ⟨?_, fun s hs => hleast.trans (hle s hs), List.forall_mem_cons.mpr ⟨fun _ => hleast.trans hentry, hshort⟩⟩
          rcases hwinner with hwinner | ⟨hmem, hreaches⟩
          · obtain rfl := Option.some.inj hwinner
            rcases horigin with rfl | horigin
            · exact .inr ⟨List.mem_cons_self, not_lt.mp hlow⟩
            · exact .inl horigin
          · exact .inr ⟨List.mem_cons_of_mem _ hmem, hreaches⟩

section Solving

variable (localeCompare : Text → Text → Int) {signers : List MultisigSignerInput} (hweights : ∀ signer ∈ signers, 0 ≤ signer.weight) (deficit : Int)

include hweights

/-- The table behind the search holds a solution for every weight that some of the signers have. -/
theorem solved_sorted :
    Solved (·.weight) (·.key) signers
      ((signers.insertionSort fun left right => compareSigners localeCompare left right ≤ 0).foldl
        (addSigner localeCompare (sumWeights signers)) [(0, [])]) := by
  have hperm : ((signers.insertionSort fun left right => compareSigners localeCompare left right ≤ 0).reverse ++ []).Perm signers := by
    rw [List.append_nil]
    exact (List.reverse_perm _).trans (List.perm_insertionSort _ _)
  refine (solved_foldl .start fun chosen hchosen => ?_).perm hperm
  rw [sumWeights_eq]
  exact total_le hweights (hchosen.trans hperm.subperm)

/-- The search gives up exactly when all the signers together weigh too little. Otherwise it names the keys of a
selection that weighs enough and has as few signers as any that does. -/
theorem solveMinimumSigners_fewest :
    match solveMinimumSigners localeCompare signers deficit with
    | none => 0 < deficit ∧ total (·.weight) signers < deficit
    | some keys => ∃ chosen, Fewest (·.weight) deficit signers chosen ∧ keys.Perm (chosen.map (·.key)) := by
  rw [solveMinimumSigners]
  by_cases hdeficit : deficit ≤ 0
  · rw [if_pos hdeficit]
    exact ⟨[], .nil hdeficit, .refl _⟩
  · rw [if_neg hdeficit]
    by_cases htotal : sumWeights signers < deficit
    · rw [if_pos htotal]
      rw [sumWeights_eq] at htotal
      exact ⟨not_le.mp hdeficit, htotal⟩
    · rw [if_neg htotal]
      dsimp only
      have hsolved := solved_sorted localeCompare hweights
      generalize ((signers.insertionSort fun left right => compareSigners localeCompare left right ≤ 0).foldl
        (addSigner localeCompare (sumWeights signers)) [(0, [])]) = best at hsolved ⊢
      obtain ⟨hnone, hsome⟩ := betterOf_spec localeCompare deficit best none
      cases hwinner : best.foldl (betterOf localeCompare deficit) none with
      | none =>
          obtain ⟨keys, hkeys, -⟩ := hsolved.complete signers (.refl _)
          have hlow := (hnone.mp hwinner).2 _ (mem_of_lookup hkeys)
          rw [sumWeights_eq] at htotal
          exact absurd hlow htotal
      | some winner =>
          obtain ⟨horigin, -, hshort⟩ := hsome winner hwinner
          obtain ⟨hmem, hreaches⟩ := horigin.resolve_left nofun
          exact hsolved.fewest hmem hreaches hshort

end Solving

/-- Strings in the order of their code units. -/
def byUnits (left right : Text) : Int := if left = right then 0 else if leUnits left right then -1 else 1

def sampleSigners : List MultisigSignerInput :=
  [⟨text "GA", 1, false, false⟩, ⟨text "GB", 1, false, false⟩, ⟨text "GC", 2, false, false⟩, ⟨text "GD", 0, false, true⟩]

theorem heaviest_suffices :
    solveMinimumSigners byUnits sampleSigners 2 = some [text "GC"] ∧
      ∃ chosen, Fewest (·.weight) 2 sampleSigners chosen ∧ [text "GC"].Perm (chosen.map (·.key)) := by
  have hsolve : solveMinimumSigners byUnits sampleSigners 2 = some [text "GC"] := by decide
  have hfewest := solveMinimumSigners_fewest byUnits (by decide : ∀ signer ∈ sampleSigners, 0 ≤ signer.weight) 2
  rw [hsolve] at hfewest
  exact ⟨hsolve, hfewest⟩

end Savitools.Multisig.MinimumSigners
