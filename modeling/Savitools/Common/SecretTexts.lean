import Savitools.Common.Redaction
import Savitools.Strings.Decimals

namespace Savitools.Common.SecretTexts

open Strings.CodeUnits Strings.Decimals Strings.Replace Json.Values Redaction RedactedValues

/-- A text without a token and without a secret seed. What counts as a token is left open, as long
as it has the shape of one. -/
def Discreet (IsToken : Text → Prop) (t : Text) : Prop := Free IsToken t ∧ Free IsSeed t

/-- A word too short for a seed and with too few dots for a token. -/
def plainWord (word : Text) : Bool := word.count (unit '.') < 2 && word.length < 56

def plainWords (t : Text) : Bool := (split (unit ' ') t).all plainWord

variable {N : Type} {IsToken : Text → Prop}

theorem two_le_count_of_isJwt {t : Text} (ht : IsJwt t) : 2 ≤ t.count (unit '.') := by
  obtain ⟨header, payload, signature, -, -, -, rfl⟩ := ht
  simp only [List.count_append, List.count_cons_self]
  omega

theorem not_mem_space_of_isJwt {w : Text} (hw : IsJwt w) : unit ' ' ∉ w := by
  obtain ⟨header, payload, signature, hheader, hpayload, hsignature, rfl⟩ := hw
  have hspace : unit ' ' ≠ unit '.' := by decide
  simp [hheader.not_mem (u := unit ' ') (by decide), hpayload.not_mem (u := unit ' ') (by decide),
    hsignature.not_mem (u := unit ' ') (by decide), hspace]

theorem not_mem_space_of_isSeed {w : Text} (hw : IsSeed w) : unit ' ' ∉ w := by
  obtain ⟨rest, -, hunits, rfl⟩ := hw
  intro hm
  rcases List.mem_cons.mp hm with h | h
  · exact absurd h (by decide)
  · exact absurd (hunits _ h) (by decide)

theorem seed_avoids (w : Text) (hw : IsSeed w) : w ≠ [] ∧ unit ' ' ∉ w :=
  ⟨(avoids_seed w hw).1, not_mem_space_of_isSeed hw⟩

theorem Discreet.of_isInfix {s t : Text} (ht : Discreet IsToken t) (h : s <:+: t) : Discreet IsToken s :=
  ⟨ht.1.of_isInfix h, ht.2.of_isInfix h⟩

theorem seed_free_of_plainWords {t : Text} (ht : plainWords t = true) : Free IsSeed t := by
  have hjoin : join (unit ' ') (split (unit ' ') t) = t := List.intercalate_splitOn _
  rw [← hjoin]
  refine free_intercalate seed_avoids fun word hword => ?_
  have hplain := List.all_eq_true.mp ht word hword
  rw [plainWord, Bool.and_eq_true, decide_eq_true_eq, decide_eq_true_eq] at hplain
  exact free_of_length length_of_isSeed hplain.2

section

variable (hshape : ∀ t, IsToken t → IsJwt t)
include hshape

theorem token_avoids (w : Text) (hw : IsToken w) : w ≠ [] ∧ unit ' ' ∉ w :=
  ⟨(avoids_jwt w (hshape w hw)).1, not_mem_space_of_isJwt (hshape w hw)⟩

theorem token_free_of_count {t : Text} (ht : t.count (unit '.') < 2) : Free IsToken t := by
  intro w hw hp
  have htwo := two_le_count_of_isJwt (hshape w hp)
  have hle : w.count (unit '.') ≤ t.count (unit '.') := hw.sublist.count_le _
  omega

theorem token_free_of_plainWords {t : Text} (ht : plainWords t = true) : Free IsToken t := by
  have hjoin : join (unit ' ') (split (unit ' ') t) = t := List.intercalate_splitOn _
  rw [← hjoin]
  refine free_intercalate (token_avoids hshape) fun word hword => ?_
  have hplain := List.all_eq_true.mp ht word hword
  rw [plainWord, Bool.and_eq_true, decide_eq_true_eq, decide_eq_true_eq] at hplain
  exact token_free_of_count hshape hplain.1

theorem discreet_of_clean {t : Text} (ht : Clean t) : Discreet IsToken t :=
  ⟨fun w hw hp => ht.1 w hw (hshape w hp), ht.2⟩

theorem discreet_of_plainWords {t : Text} (ht : plainWords t = true) : Discreet IsToken t :=
  ⟨token_free_of_plainWords hshape ht, seed_free_of_plainWords ht⟩

theorem discreet_space_iff {s t : Text} :
    Discreet IsToken (s ++ unit ' ' :: t) ↔ Discreet IsToken s ∧ Discreet IsToken t := by
  simp only [Discreet, free_append_cons_iff (token_avoids hshape), free_append_cons_iff seed_avoids]
  exact and_and_and_comm

theorem discreet_label_iff {label t : Text} (hlabel : plainWords label = true) (hspace : label.getLast? = some (unit ' ')) :
    Discreet IsToken (label ++ t) ↔ Discreet IsToken t :=
  and_congr (free_label_iff (token_avoids hshape) (token_free_of_plainWords hshape hlabel) hspace)
    (free_label_iff seed_avoids (seed_free_of_plainWords hlabel) hspace)

theorem discreet_number (n : Nat) (unitName : Text) (hname : unit '.' ∉ unitName ∧ unit 'S' ∉ unitName) :
    Discreet IsToken (ofNat n ++ unitName) := by
  have hnot : ∀ u, isDigit u = false → u ∉ unitName → u ∉ ofNat n ++ unitName := by
    intro u hu hunit hm
    rcases List.mem_append.mp hm with h | h
    · rw [isDigit_of_mem_ofNat h] at hu
      cases hu
    · exact hunit h
  have hseed : ∀ w, IsSeed w → unit 'S' ∈ w := by
    rintro w ⟨rest, -, -, rfl⟩
    exact List.mem_cons_self
  exact ⟨free_of_mem (fun w hw => dot_mem_of_isJwt w (hshape w hw)) (hnot _ (by decide) hname.1),
    free_of_mem hseed (hnot _ (by decide) hname.2)⟩

theorem discreet_redacted (value : Value N) : ∀ t ∈ strings (redactValue none value), Discreet IsToken t :=
  fun t ht => discreet_of_clean hshape (clean_redactValue none value t ht)

end

def tokenHeader : Text := text "eyJhbGciOiJFZERTQSJ9"

def tokenPayload : Text := text "eyJzdWIiOiJHQTRTIn0"

/-- A token, of which the third part stands for the signature. -/
def anchorToken : Text := tokenHeader ++ unit '.' :: (tokenPayload ++ unit '.' :: text "c2lnbmF0dXJl")

theorem isJwt_anchorToken : IsJwt anchorToken := by
  have hsegment {t : Text} (hne : t ≠ []) (hall : t.all isJwtUnit = true) : IsSegment t :=
    ⟨hne, fun u hu => List.all_eq_true.mp hall u hu⟩
  exact ⟨tokenHeader, tokenPayload, text "c2lnbmF0dXJl", hsegment (by decide) (by decide), hsegment (by decide) (by decide),
    hsegment (by decide) (by decide), rfl⟩

end Savitools.Common.SecretTexts
