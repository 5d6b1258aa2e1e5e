import Savitools.Net.Urls
import Savitools.Sep24.Sessions
import Savitools.Transitions.Folds

namespace Savitools.Sep24.TimelineLeaks

open Strings.CodeUnits Strings.Decimals Strings.Replace Transitions.Folds Net.Urls Net.PlainUrls Json.Numbers Json.Values Json.Conversions Common.Exceptions
open Common.Redaction Common.RedactedValues Common.SecretTexts AnchorToml SafeTargets Timelines Sessions

variable {Url : Type} {urls : Urls Url} {beyondAscii : Text → Text} {timeout : Nat} {IsToken : Text → Prop}

/-- The error that an anchor sends for a poll. -/
def anchorErrorTexts (httpStatus : Nat) (data : Value Number) : List Text :=
  match classifyPoll httpStatus data with
  | .anchorError error => [stringOf error]
  | _ => []

/-- The texts of a poll that come through unredacted: its URL, the names in the answer, and an error in it. -/
def pollTexts (endpoint : Text) (httpStatus : Nat) (data : Value Number) : List Text :=
  endpoint :: (keptNames (some data) ++ anchorErrorTexts httpStatus data)

theorem keptNames_of_member {name : Text} {value inner : Value Number} (h : member name value = some inner)
    (hname : ¬isSensitiveHint (some name) = true) (hproto : name ≠ text "__proto__") :
    keptNames (some inner) ⊆ keptNames (some value) := names_redactValue_of_member h hname hproto

theorem keptNames_str (t : Text) : keptNames (some (Value.str t : Value Number)) = [] := by
  have hnone : ¬isSensitiveHint none = true := Bool.false_ne_true
  rw [keptNames, Option.elim_some, redactValue_of_not_sensitive hnone (.str t)]
  rfl

theorem fieldNames_redactFields {fields : List (Text × Value Number)} {t : Text}
    (ht : t ∈ fieldNames (redactFields fields)) :
    ∃ field ∈ fields, t = field.1 ∨ t ∈ keptNames (some field.2) := by
  induction fields with
  | nil => cases ht
  | cons field fields ih =>
      obtain ⟨k, v⟩ := field
      have hrest (h : t ∈ fieldNames (redactFields fields)) :
          ∃ field ∈ (k, v) :: fields, t = field.1 ∨ t ∈ keptNames (some field.2) := by
        obtain ⟨field, hmem, hfield⟩ := ih h
        exact ⟨field, List.mem_cons_of_mem _ hmem, hfield⟩
      rw [redactFields] at ht
      split at ht
      · exact hrest ht
      · rw [fieldNames, List.cons_append, List.mem_cons, List.mem_append] at ht
        rcases ht with rfl | hvalue | hothers
        · exact ⟨_, List.mem_cons_self, .inl rfl⟩
        · by_cases hhint : isSensitiveHint (some k) = true
          · rw [redactValue_of_sensitive hhint] at hvalue
            cases hvalue
          · rw [redactValue_hint hhint] at hvalue
            exact ⟨_, List.mem_cons_self, .inr hvalue⟩
        · exact hrest hothers

/-- An object of members under plain names shows only the names within them. -/
theorem discreet_definedMembers (hshape : ∀ t, IsToken t → IsJwt t) {members : List (Text × Option (Value Number))}
    (hplain : (members.map (·.1)).all plainWords = true)
    (hvalues : ∀ found ∈ members, ∀ value, found.2 = some value → ∀ t ∈ keptNames (some value), Discreet IsToken t) :
    ∀ t ∈ keptNames (some (definedMembers members)), Discreet IsToken t := by
  intro t ht
  have hnone : ¬isSensitiveHint none = true := Bool.false_ne_true
  rw [keptNames, Option.elim_some, definedMembers, redactValue_of_not_sensitive hnone (.obj _)] at ht
  obtain ⟨field, hfield, hcase⟩ := fieldNames_redactFields ht
  obtain ⟨found, hfound, hsome⟩ := List.mem_filterMap.mp hfield
  obtain ⟨value, hvalue, rfl⟩ := Option.map_eq_some_iff.mp hsome
  rcases hcase with rfl | hmem
  · exact discreet_of_plainWords hshape (List.all_eq_true.mp hplain _ (List.mem_map_of_mem hfound))
  · exact hvalues found hfound value hvalue t hmem

theorem member_of_truthyMember {name : Text} {value inner : Value Number} (h : truthyMember name value = some inner) :
    member name value = some inner := (Option.filter_eq_some_iff.mp h).1

theorem classifyPoll_transaction {httpStatus : Nat} {data transaction : Value Number}
    (h : classifyPoll httpStatus data = .transaction transaction) : member (text "transaction") data = some transaction := by
  rw [classifyPoll] at h
  split at h
  · cases h
  · split at h
    · cases h
    · split at h
      · cases h
      · cases herror : truthyMember (text "error") data with
        | some error =>
            rw [herror] at h
            cases h
        | none =>
            cases htransaction : truthyMember (text "transaction") data with
            | none =>
                rw [herror, htransaction] at h
                cases h
            | some found =>
                rw [herror, htransaction] at h
                cases h
                exact member_of_truthyMember htransaction

theorem not_mem_keptNames_str (value : Option Text) {found : Value Number} (h : value.map Value.str = some found) (t : Text) :
    t ∉ keptNames (some found) := by
  obtain ⟨s, -, rfl⟩ := Option.map_eq_some_iff.mp h
  rw [keptNames_str]
  exact List.not_mem_nil

section Entries

variable (hshape : ∀ t, IsToken t → IsJwt t)

include hshape

theorem discreetEntry_iff (entry : TimelineEntry Number) :
    DiscreetEntry IsToken (record entry) ↔
      (∀ t ∈ entry.method, Discreet IsToken t) ∧ (∀ t ∈ entry.url, Discreet IsToken t) ∧
        (∀ t ∈ entry.message, Discreet IsToken t) ∧ (∀ t ∈ keptNames entry.request, Discreet IsToken t) ∧
        (∀ t ∈ keptNames entry.response, Discreet IsToken t) ∧ ∀ t ∈ keptNames entry.details, Discreet IsToken t := by
  rw [discreetEntry_record hshape, rawTexts]
  simp only [List.forall_mem_append, Option.mem_toList, Option.mem_def, and_assoc]

theorem discreetEntry_discovery (domain transferServer : Text) (sep10Endpoint : Option Text) :
    DiscreetEntry IsToken (record (discoveryEntry domain transferServer sep10Endpoint)) ↔
      Discreet IsToken (stellarTomlUrl domain) := by
  have hmethod : Discreet IsToken (text "GET") := discreet_of_plainWords hshape (by decide)
  have hmessage : Discreet IsToken (text "Discovered SEP-24 transfer server from stellar.toml") :=
    discreet_of_plainWords hshape (by decide)
  have hresponse : ∀ t ∈ keptNames (discoveryEntry domain transferServer sep10Endpoint).response, Discreet IsToken t := by
    refine discreet_definedMembers hshape (show [text "TRANSFER_SERVER_SEP0024", text "WEB_AUTH_ENDPOINT"].all plainWords = true by decide) ?_
    intro found hfound value hvalue t ht
    rcases List.mem_cons.mp hfound with rfl | hfound
    · exact absurd ht (not_mem_keptNames_str (some transferServer) hvalue t)
    · rw [List.mem_singleton.mp hfound] at hvalue
      exact absurd ht (not_mem_keptNames_str sep10Endpoint hvalue t)
  rw [discreetEntry_iff hshape]
  simp only [discoveryEntry, Option.mem_def, Option.some.injEq, forall_eq', hmethod, hmessage, true_and]
  constructor
  · exact fun h => h.1
  · exact fun h => ⟨h, List.forall_mem_nil _, hresponse, List.forall_mem_nil _⟩

/-- The entry of a new transaction shows its URL and the names in the request and in its answer. -/
theorem discreetEntry_interactive {endpoint : Text} {status : Nat} {body : Fields} {data transaction id : Value Number}
    (htransaction : member (text "transaction") data = some transaction)
    (hid : member (text "id") transaction = some id) :
    DiscreetEntry IsToken (record (interactiveEntry endpoint status body data transaction id)) ↔
      Discreet IsToken endpoint ∧ (∀ t ∈ keptNames (some (.obj body)), Discreet IsToken t) ∧
        ∀ t ∈ keptNames (some data), Discreet IsToken t := by
  have hmethod : Discreet IsToken (text "POST") := discreet_of_plainWords hshape (by decide)
  have hmessage : ∀ t ∈ (interactiveEntry endpoint status body data transaction id).message, Discreet IsToken t := by
    intro t ht
    rw [← Option.some.inj ht]
    split <;> exact discreet_of_plainWords hshape (by decide)
  have hinner : keptNames (some transaction) ⊆ keptNames (some data) :=
    keptNames_of_member htransaction (by decide) (by decide)
  have hdetails (hdata : ∀ t ∈ keptNames (some data), Discreet IsToken t) :
      ∀ t ∈ keptNames (interactiveEntry endpoint status body data transaction id).details, Discreet IsToken t := by
    refine discreet_definedMembers hshape (show [text "transactionId", text "interactiveUrl", text "moreInfoUrl", text "status"].all plainWords = true by decide) ?_
    intro found hfound value hvalue t ht
    simp only [List.mem_cons, List.not_mem_nil, or_false] at hfound
    rcases hfound with rfl | rfl | rfl | rfl
    · cases hvalue
      exact hdata t (hinner (keptNames_of_member hid (by decide) (by decide) ht))
    · exact absurd ht (not_mem_keptNames_str _ hvalue t)
    · exact hdata t (hinner (keptNames_of_member hvalue (by decide) (by decide) ht))
    · exact hdata t (hinner (keptNames_of_member hvalue (by decide) (by decide) ht))
  rw [discreetEntry_iff hshape]
  constructor
  · rintro ⟨-, hurl, -, hrequest, hresponse, -⟩
    exact ⟨hurl endpoint rfl, hrequest, hresponse⟩
  · rintro ⟨hurl, hrequest, hresponse⟩
    refine ⟨?_, ?_, hmessage, hrequest, hresponse, hdetails hresponse⟩
    · intro t ht
      rw [← Option.some.inj ht]
      exact hmethod
    · intro t ht
      rw [← Option.some.inj ht]
      exact hurl

theorem discreet_pollMessage (httpStatus : Nat) (data : Value Number) :
    Discreet IsToken (pollMessage httpStatus (classifyPoll httpStatus data)) ↔
      ∀ t ∈ anchorErrorTexts httpStatus data, Discreet IsToken t := by
  rw [anchorErrorTexts]
  cases classifyPoll httpStatus data with
  | unauthorized =>
      rw [pollMessage]
      exact iff_of_true (discreet_of_plainWords hshape (by decide)) (List.forall_mem_nil _)
  | failed =>
      refine iff_of_true ?_ (List.forall_mem_nil _)
      rw [pollMessage, List.append_assoc, discreet_label_iff hshape (by decide) (by decide)]
      exact discreet_number hshape _ _ (by decide)
  | notJson =>
      rw [pollMessage]
      exact iff_of_true (discreet_of_plainWords hshape (by decide)) (List.forall_mem_nil _)
  | anchorError error =>
      rw [pollMessage, discreet_label_iff hshape (by decide) (by decide)]
      exact List.forall_mem_singleton.symm
  | noTransaction =>
      rw [pollMessage]
      exact iff_of_true (discreet_of_plainWords hshape (by decide)) (List.forall_mem_nil _)
  | transaction transaction =>
      refine iff_of_true ?_ (List.forall_mem_nil _)
      rw [pollMessage]
      cases normalizeStatus (member (text "status") transaction) <;> exact discreet_of_plainWords hshape (by decide)

theorem discreet_pollDetails {httpStatus : Nat} {data : Value Number}
    (hdata : ∀ t ∈ keptNames (some data), Discreet IsToken t) :
    ∀ t ∈ keptNames (pollDetails (classifyPoll httpStatus data)), Discreet IsToken t := by
  cases hanswer : classifyPoll httpStatus data with
  | transaction transaction =>
      have hinner : keptNames (some transaction) ⊆ keptNames (some data) :=
        keptNames_of_member (classifyPoll_transaction hanswer) (by decide) (by decide)
      refine discreet_definedMembers hshape (show [text "requiredInfo", text "moreInfoUrl", text "message", text "statusEta"].all plainWords = true by decide) ?_
      intro found hfound value hvalue t ht
      simp only [List.mem_cons, List.not_mem_nil, or_false] at hfound
      rcases hfound with rfl | rfl | rfl | rfl
      · obtain ⟨info, hinfo, hfields⟩ := Option.bind_eq_some_iff.mp hvalue
        have hfieldNames := keptNames_of_member hfields (by decide) (by decide) ht
        exact hdata t (hinner (keptNames_of_member hinfo (by decide) (by decide) hfieldNames))
      · exact hdata t (hinner (keptNames_of_member hvalue (by decide) (by decide) ht))
      · exact hdata t (hinner (keptNames_of_member hvalue (by decide) (by decide) ht))
      · exact hdata t (hinner (keptNames_of_member hvalue (by decide) (by decide) ht))
  | _ => exact List.forall_mem_nil _

theorem discreetEntry_poll (endpoint : Text) (httpStatus : Nat) (data : Value Number) :
    DiscreetEntry IsToken (record (pollEntry endpoint httpStatus data)) ↔
      ∀ t ∈ pollTexts endpoint httpStatus data, Discreet IsToken t := by
  have hmethod : Discreet IsToken (text "GET") := discreet_of_plainWords hshape (by decide)
  have hmessage := discreet_pollMessage hshape httpStatus data
  rw [discreetEntry_iff hshape, pollTexts, List.forall_mem_cons, List.forall_mem_append, ← hmessage]
  constructor
  · rintro ⟨-, hurl, hshown, -, hresponse, -⟩
    exact ⟨hurl endpoint rfl, hresponse, hshown _ rfl⟩
  · rintro ⟨hurl, hresponse, hshown⟩
    refine ⟨?_, ?_, ?_, List.forall_mem_nil _, hresponse, discreet_pollDetails hshape hresponse⟩
    · intro t ht
      rw [← Option.some.inj ht]
      exact hmethod
    · intro t ht
      rw [← Option.some.inj ht]
      exact hurl
    · intro t ht
      rw [← Option.some.inj ht]
      exact hshown

end Entries

section Steps

variable (hshape : ∀ t, IsToken t → IsJwt t)

include hshape

end Steps

end Savitools.Sep24.TimelineLeaks
