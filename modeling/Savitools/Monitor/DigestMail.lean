import Savitools.Monitor.Digest

namespace Savitools.Monitor.DigestMail

open Transitions.Runs Monitor.Types

/-- What the call of the mail provider comes to: the message is taken, the client answers with an
object that carries an error, or it throws. -/
inductive SendResult
  | accepted
  | refused (message : String)
  | thrown (message : String)
deriving DecidableEq

/-- The answer is awaited; what it carries is not looked at. -/
def sendDigestEmail : SendResult → Except String Unit
  | .accepted | .refused _ => .ok ()
  | .thrown message => .error message

/-- The flushes, with the answers that each got from the provider and the alerts that each has marked
delivered, which no step reads. -/
structure State where
  digest : Digest.State
  mails : List (Nat × SendResult) := []
  marked : List (Nat × Nat) := []

inductive Act
  | digest (act : Digest.Act)
  | mail (flushId : Nat) (result : SendResult)
deriving DecidableEq

/-- The alerts that an update marks delivered, with the flush that issued it. -/
def marks (s : Digest.State) : Digest.Act → List (Nat × Nat)
  | .serve flushId (.update outcome) =>
      match s.flushes[flushId]?.map Digest.Flush.phase with
      | some (.marking ids _) => if outcome = .rejected then [] else ids.map fun id => (id, flushId)
      | _ => []
  | _ => []

/-- The call of the provider is an act of its own. -/
def step : Step State Act
  | s, .mail flushId result =>
      (Digest.step s.digest (.serve flushId (.email (sendDigestEmail result).isOk))).map fun digest =>
        { s with digest := digest, mails := (flushId, result) :: s.mails }
  | _, .digest (.serve _ (.email _)) => none
  | s, .digest act =>
      (Digest.step s.digest act).map fun digest => { s with digest := digest, marked := marks s.digest act ++ s.marked }

end Savitools.Monitor.DigestMail

namespace Savitools.Monitor.MailedDigests

open Transitions.Runs Stores.Keyed Monitor.Types Digest DigestOwnership DigestMail

/-- The alert can be claimed, at once or when the lease of its claim has expired. -/
def Claimable (alert : AlertEvent) : Prop := ∃ expiredThreshold, candidate [alert.watchId] expiredThreshold alert = true

/-- A flush has marked its alerts delivered only where the provider has accepted its message, and an alert
that no flush has marked can be claimed. -/
structure Honest (s : DigestMail.State) : Prop where
  accepted : ∀ alertId flushId result, (alertId, flushId) ∈ s.marked → (flushId, result) ∈ s.mails → result = .accepted
  claimable : ∀ alert ∈ s.digest.alerts.rows, Claimable alert ∨ ∃ flushId, (alert.id, flushId) ∈ s.marked

/-- A flush whose call was answered with an error does not get the update through that comes next. -/
def Unrefused (s : DigestMail.State) : DigestMail.Act → Prop
  | .digest (.serve flushId (.update outcome)) => outcome ≠ .rejected → ∀ flush ∈ s.digest.flushes[flushId]?,
      ∀ id ids now, flush.phase = .marking (id :: ids) now → ∀ message, (flushId, .refused message) ∉ s.mails
  | _ => True

/-- The flush has not yet heard from the provider. -/
def unsent : Phase → Bool
  | .findingWatches | .claiming _ _ | .preparing _ | .sending _ => true
  | _ => false

theorem claimable_held {alert : AlertEvent} (h : alert.deliveryStatus = .held) : Claimable alert :=
  ⟨0, by simp [candidate, h]⟩

theorem claimable_claimed {alert : AlertEvent} {claimedAt : Nat} (h : alert.deliveryStatus = .claimed)
    (hat : alert.claimedAt = some claimedAt) : Claimable alert :=
  ⟨claimedAt + 1, by simp [candidate, h, hat]⟩

/-- What the statement of a flush can make of its phase: only the call of the provider leaves the part
before it, and what is marked has been prepared without a message or sent. -/
structure Moves (served : Served) (before after : Phase) : Prop where
  unsent : unsent after = true → unsent before = true ∧ ∀ ids, before ≠ .sending ids
  marking : ∀ ids now, after = .marking ids now → before = .preparing ids ∨ before = .sending ids ∧ served = .email true

theorem moves_before {served : Served} {before after : Phase} (hunsent : unsent before = true)
    (hbefore : ∀ ids, before ≠ .sending ids) (hafter : ∀ ids now, after ≠ .marking ids now) : Moves served before after :=
  ⟨fun _ => ⟨hunsent, hbefore⟩, fun ids now h => absurd h (hafter ids now)⟩

theorem moves_past {served : Served} {before after : Phase} (hsent : unsent after = false)
    (hafter : ∀ ids now, after ≠ .marking ids now) : Moves served before after :=
  ⟨fun h => absurd (hsent.symm.trans h) Bool.false_ne_true, fun ids now h => absurd h (hafter ids now)⟩

theorem stepFlush_moves {s t : Digest.State} {f : Nat} {flush : Flush} {served : Served}
    (h : stepFlush s f flush flush.phase served = some t) :
    ∃ phase, t.flushes = s.flushes.set f { flush with phase := phase } ∧ Moves served flush.phase phase := by
  cases hp : flush.phase with
  | findingWatches =>
      rw [hp] at h
      cases served <;> simp only [stepFlush, Option.some.injEq, reduceCtorEq] at h
      subst h
      refine ⟨_, rfl, moves_before rfl (by simp) fun ids now hmarking => ?_⟩
      split at hmarking <;> cases hmarking
  | claiming watchIds expiredThreshold =>
      rw [hp] at h
      cases served with
      | claim locked outcome =>
          cases outcome <;> simp only [stepFlush, Option.some.injEq] at h <;> subst h
          · refine ⟨_, rfl, moves_before rfl (by simp) fun ids now hmarking => ?_⟩
            split at hmarking
            next => cases hmarking
            next => split at hmarking <;> cases hmarking
          · exact ⟨_, rfl, moves_past rfl (by simp)⟩
          · exact ⟨_, rfl, moves_past rfl (by simp)⟩
      | _ => cases h
  | preparing claimed =>
      rw [hp] at h
      cases served with
      | prepared prepared =>
          cases prepared <;> simp only [stepFlush, Option.some.injEq] at h <;> subst h
          · exact ⟨_, rfl, moves_past rfl (by simp)⟩
          · exact ⟨_, rfl, moves_past rfl (by simp)⟩
          · exact ⟨_, rfl, moves_before rfl (by simp) (by simp)⟩
          · refine ⟨_, rfl, fun h => absurd h (by simp [unsent]), fun ids now hmarking => ?_⟩
            cases hmarking
            exact .inl rfl
      | _ => cases h
  | sending claimed =>
      rw [hp] at h
      cases served with
      | email sent =>
          cases sent <;> simp only [stepFlush, Option.some.injEq] at h <;> subst h
          · exact ⟨_, rfl, moves_past rfl (by simp)⟩
          · refine ⟨_, rfl, fun h => absurd h (by simp [unsent]), fun ids now hmarking => ?_⟩
            cases hmarking
            exact .inr ⟨rfl, rfl⟩
      | _ => cases h
  | marking claimed now =>
      rw [hp] at h
      cases served with
      | update outcome =>
          cases outcome <;> simp only [stepFlush, Option.some.injEq] at h <;> subst h <;>
            exact ⟨_, rfl, moves_past rfl (by simp)⟩
      | _ => cases h
  | recording claimed =>
      rw [hp] at h
      cases served with
      | update outcome =>
          cases outcome <;> simp only [stepFlush, Option.some.injEq] at h <;> subst h <;>
            exact ⟨_, rfl, moves_past rfl (by simp)⟩
      | _ => cases h
  | releasing claimed =>
      rw [hp] at h
      cases served with
      | update outcome =>
          cases outcome <;> simp only [stepFlush, Option.some.injEq] at h <;> subst h <;>
            exact ⟨_, rfl, moves_past rfl (by simp)⟩
      | _ => cases h
  | done | failed => rw [hp] at h; cases served <;> cases h

theorem claimable_row {now workerId flushId : Nat} {alert : AlertEvent} : Claimable (claimedRow now workerId flushId alert) :=
  claimable_claimed rfl rfl

/-- A row that a statement leaves is claimable, or was there before, or is marked by it. -/
theorem rows_of_effect {s t : Digest.State} {f : Nat} {flush : Flush} {served : Served} (h : Effect s f flush served t) :
    ∀ alert ∈ t.alerts.rows, Claimable alert ∨ alert ∈ s.alerts.rows ∨
      ∃ ids now outcome, flush.phase = .marking ids now ∧ served = .update outcome ∧ outcome ≠ .rejected ∧ alert.id ∈ ids := by
  intro alert halert
  cases h with
  | move served phase _ => exact .inr (.inl halert)
  | claim watchIds expiredThreshold locked outcome phase _ _ =>
      obtain ⟨row, hrow, rfl⟩ := mem_claimAlerts.mp halert
      split
      next => exact .inl claimable_row
      next => exact .inr (.inl hrow)
  | mark outcome ids now phase hphase hreached _ =>
      obtain ⟨row, hrow, rfl⟩ := mem_markDelivered.mp halert
      split
      next hid => exact .inr (.inr ⟨ids, now, outcome, hphase, rfl, hreached, hid⟩)
      next => exact .inr (.inl hrow)
  | release outcome ids _ _ =>
      obtain ⟨row, hrow, rfl⟩ := mem_releaseClaim.mp halert
      split
      next => exact .inl (claimable_held rfl)
      next => exact .inr (.inl hrow)

/-- What a run keeps: a flush hears from the provider once, and marks nothing when the call has thrown. -/
structure Heard (s : DigestMail.State) : Prop where
  silent : ∀ f, (∀ flush ∈ s.digest.flushes[f]?, unsent flush.phase = true) →
    (∀ result, (f, result) ∉ s.mails) ∧ ∀ id, (id, f) ∉ s.marked
  sent : ∀ f, ∀ flush ∈ s.digest.flushes[f]?, ∀ ids now, flush.phase = .marking ids now →
    ∀ result, (f, result) ∈ s.mails → (sendDigestEmail result).isOk = true
  marked : ∀ id f result, (id, f) ∈ s.marked → (f, result) ∈ s.mails → (sendDigestEmail result).isOk = true
  claimable : ∀ alert ∈ s.digest.alerts.rows, Claimable alert ∨ ∃ f, (alert.id, f) ∈ s.marked

theorem getElem?_moved {flushes : List Flush} {f g : Nat} {other moved : Flush}
    (h : other ∈ (flushes.set f moved)[g]?) : (g = f ∧ other = moved) ∨ (g ≠ f ∧ other ∈ flushes[g]?) := by
  rw [Option.mem_def, List.getElem?_set] at h
  split at h
  next hfg =>
    split at h
    next => exact .inl ⟨hfg.symm, (Option.some.inj h).symm⟩
    next => cases h
  next hfg => exact .inr ⟨fun hgf => hfg hgf.symm, h⟩

/-- Before a flush moves to a phase without an answer, its own was one too. -/
theorem unsent_before {s t : Digest.State} {f : Nat} {flush : Flush} {served : Served} {phase : Phase}
    (hflush : s.flushes[f]? = some flush) (hset : t.flushes = s.flushes.set f { flush with phase := phase })
    (hmoves : Moves served flush.phase phase) {g : Nat} (h : ∀ other ∈ t.flushes[g]?, unsent other.phase = true) :
    (∀ other ∈ s.flushes[g]?, unsent other.phase = true) ∧ (g = f → ∀ ids, flush.phase ≠ .sending ids) := by
  rw [hset] at h
  by_cases hg : g = f
  · subst hg
    have hlt : g < s.flushes.length := (List.getElem?_eq_some_iff.mp hflush).1
    have hunsent := hmoves.unsent (h { flush with phase := phase } (by simp [hlt]))
    refine ⟨fun other hother => ?_, fun _ => hunsent.2⟩
    obtain rfl := Option.some.inj (hflush.symm.trans hother)
    exact hunsent.1
  · refine ⟨fun other hother => h other ?_, fun hgf => absurd hgf hg⟩
    rwa [List.getElem?_set_ne (Ne.symm hg)]

theorem mail_served {s t : DigestMail.State} {f : Nat} {result : SendResult} (h : DigestMail.step s (.mail f result) = some t) :
    ∃ flush ids, s.digest.flushes[f]? = some flush ∧ flush.phase = .sending ids ∧
      stepFlush s.digest f flush flush.phase (.email (sendDigestEmail result).isOk) = some t.digest ∧
      t.mails = (f, result) :: s.mails ∧ t.marked = s.marked := by
  obtain ⟨digest, hstep, rfl⟩ := Option.map_eq_some_iff.mp h
  obtain ⟨flush, hflush, hserved⟩ := Option.bind_eq_some_iff.mp hstep
  refine ⟨flush, ?_⟩
  cases hp : flush.phase with
  | sending ids => exact ⟨ids, hflush, rfl, hp ▸ hserved, rfl, rfl⟩
  | _ => rw [hp] at hserved; cases hserved

theorem Heard.silent_sending {s : DigestMail.State} {f : Nat} {flush : Flush} {ids : List Nat} (hs : Heard s)
    (hflush : s.digest.flushes[f]? = some flush) (hsending : flush.phase = .sending ids) :
    (∀ result, (f, result) ∉ s.mails) ∧ ∀ id, (id, f) ∉ s.marked := by
  refine hs.silent f fun other hother => ?_
  obtain rfl := Option.some.inj (hflush.symm.trans hother)
  rw [hsending]
  rfl

theorem Heard.mail {s t : DigestMail.State} {f : Nat} {result : SendResult} (hs : Heard s)
    (h : DigestMail.step s (.mail f result) = some t) : Heard t := by
  obtain ⟨flush, ids, hflush, hsending, hserved, hmails, hmarked⟩ := mail_served h
  obtain ⟨phase, hset, hmoves⟩ := stepFlush_moves hserved
  have hsilent := hs.silent_sending hflush hsending
  refine ⟨fun g hg => ?_, fun g other hother ids' now hmarking result' hmem => ?_, fun id g result' hid hmem => ?_, ?_⟩
  · obtain ⟨hunsent, hnot⟩ := unsent_before hflush hset hmoves hg
    have hne : g ≠ f := fun hgf => hnot hgf ids hsending
    obtain ⟨hmailsOf, hmarkedOf⟩ := hs.silent g hunsent
    refine ⟨fun result' hmem => ?_, hmarked ▸ hmarkedOf⟩
    rcases List.mem_cons.mp (hmails ▸ hmem) with heq | hmem
    · exact hne (Prod.mk.inj heq).1
    · exact hmailsOf result' hmem
  · rcases getElem?_moved (hset ▸ hother) with ⟨rfl, rfl⟩ | ⟨hne, hother⟩
    · rcases List.mem_cons.mp (hmails ▸ hmem) with heq | hmem
      · obtain rfl := (Prod.mk.inj heq).2
        rcases hmoves.marking ids' now hmarking with hpreparing | ⟨-, hserved⟩
        · rw [hsending] at hpreparing
          cases hpreparing
        · exact Served.email.inj hserved
      · exact absurd hmem (hsilent.1 result')
    · rcases List.mem_cons.mp (hmails ▸ hmem) with heq | hmem
      · exact absurd (Prod.mk.inj heq).1 hne
      · exact hs.sent g other hother ids' now hmarking result' hmem
  · rcases List.mem_cons.mp (hmails ▸ hmem) with heq | hmem
    · exact absurd ((Prod.mk.inj heq).1 ▸ hmarked ▸ hid) (hsilent.2 id)
    · exact hs.marked id g result' (hmarked ▸ hid) hmem
  · intro alert halert
    rcases rows_of_effect (stepFlush_effect hserved) alert halert with hclaimable | hrow | ⟨_, _, _, hphase, -⟩
    · exact .inl hclaimable
    · exact hmarked ▸ hs.claimable alert hrow
    · rw [hsending] at hphase
      cases hphase

theorem mem_marks {s : Digest.State} {f id g : Nat} {flush : Flush} {served : Served} (hflush : s.flushes[f]? = some flush) :
    (id, g) ∈ marks s (.serve f served) ↔ g = f ∧ ∃ ids now outcome, flush.phase = .marking ids now ∧
      served = .update outcome ∧ outcome ≠ .rejected ∧ id ∈ ids := by
  cases served with
  | update outcome =>
      simp only [marks, hflush, Option.map_some]
      cases flush.phase with
      | marking ids now =>
          simp only [Served.update.injEq, Phase.marking.injEq]
          split <;> simp_all [eq_comm, and_comm]
      | _ => simp
  | _ => simp [marks]

theorem Heard.serve {s t : DigestMail.State} {f : Nat} {served : Served} (hs : Heard s) (hemail : ∀ sent, served ≠ .email sent)
    (h : Digest.step s.digest (.serve f served) = some t.digest) (hmails : t.mails = s.mails)
    (hmarked : t.marked = marks s.digest (.serve f served) ++ s.marked) : Heard t := by
  obtain ⟨flush, hflush, hserved⟩ := Option.bind_eq_some_iff.mp h
  obtain ⟨phase, hset, hmoves⟩ := stepFlush_moves hserved
  have hnew {id g : Nat} : (id, g) ∈ t.marked ↔ (g = f ∧ ∃ ids now outcome, flush.phase = .marking ids now ∧
      served = .update outcome ∧ outcome ≠ .rejected ∧ id ∈ ids) ∨ (id, g) ∈ s.marked := by
    rw [hmarked, List.mem_append, mem_marks hflush]
  refine ⟨fun g hg => ?_, fun g other hother ids now hmarking result hmem => ?_, fun id g result hid hmem => ?_, ?_⟩
  · obtain ⟨hmailsOf, hmarkedOf⟩ := hs.silent g (unsent_before hflush hset hmoves hg).1
    refine ⟨hmails ▸ hmailsOf, fun id hid => ?_⟩
    rcases hnew.mp hid with ⟨rfl, ids, now, outcome, hphase, -⟩ | hid
    · have hunsent := (unsent_before hflush hset hmoves hg).1 flush hflush
      rw [hphase] at hunsent
      cases hunsent
    · exact hmarkedOf id hid
  · rw [hmails] at hmem
    rcases getElem?_moved (hset ▸ hother) with ⟨rfl, rfl⟩ | ⟨-, hother⟩
    · rcases hmoves.marking ids now hmarking with hpreparing | ⟨-, hsent⟩
      · have hsilent := hs.silent g fun other hother => by
          obtain rfl := Option.some.inj (hflush.symm.trans hother)
          rw [hpreparing]
          rfl
        exact absurd hmem (hsilent.1 result)
      · exact absurd hsent (hemail true)
    · exact hs.sent g other hother ids now hmarking result hmem
  · rw [hmails] at hmem
    rcases hnew.mp hid with ⟨rfl, ids, now, outcome, hphase, -⟩ | hid
    · exact hs.sent g flush hflush ids now hphase result hmem
    · exact hs.marked id g result hid hmem
  · intro alert halert
    rcases rows_of_effect (stepFlush_effect hserved) alert halert with hclaimable | hrow | hmark
    · exact .inl hclaimable
    · exact (hs.claimable alert hrow).imp_right fun ⟨g, hg⟩ => ⟨g, hnew.mpr (.inr hg)⟩
    · exact .inr ⟨f, hnew.mpr (.inl ⟨rfl, hmark⟩)⟩

/-- The flushes and their answers are as before, up to flushes that have just begun. -/
theorem Heard.begun {s t : DigestMail.State} (hs : Heard s) (hmails : t.mails = s.mails) (hmarked : t.marked = s.marked)
    (hflushes : ∃ begun : List Flush, t.digest.flushes = s.digest.flushes ++ begun ∧
      ∀ flush ∈ begun, flush.phase = .findingWatches)
    (hrows : ∀ alert ∈ t.digest.alerts.rows, Claimable alert ∨ alert ∈ s.digest.alerts.rows) : Heard t := by
  obtain ⟨begun, hflushes, hbegun⟩ := hflushes
  refine ⟨fun f hf => ?_, fun f flush hflush ids now hmarking => ?_, ?_, fun alert halert => ?_⟩
  · rw [hmails, hmarked]
    refine hs.silent f fun flush hflush => hf flush ?_
    rw [hflushes, Option.mem_def, List.getElem?_append_left (List.getElem?_eq_some_iff.mp hflush).1]
    exact hflush
  · rw [hmails]
    rw [hflushes, Option.mem_def, List.getElem?_append] at hflush
    split at hflush
    next => exact hs.sent f flush hflush ids now hmarking
    next =>
      have hphase := hbegun flush (List.mem_of_getElem? hflush)
      rw [hmarking] at hphase
      cases hphase
  · rw [hmails, hmarked]
    exact hs.marked
  · rw [hmarked]
    exact (hrows alert halert).elim .inl (hs.claimable alert)

theorem heard_preserved : Preserves DigestMail.step always Heard := by
  intro s a t hs _ h
  cases a with
  | mail f result => exact hs.mail h
  | digest act =>
      cases act with
      | clock now =>
          cases h
          exact hs.begun rfl rfl ⟨[], (List.append_nil _).symm, by simp⟩ fun alert halert => .inr halert
      | hold alertId watchId =>
          obtain ⟨digest, hheld, rfl⟩ := Option.map_eq_some_iff.mp h
          simp only [Digest.step, holdAlert] at hheld
          split at hheld
          next hnew =>
            cases hheld
            refine hs.begun rfl rfl ⟨[], (List.append_nil _).symm, by simp⟩ fun alert halert => ?_
            rcases List.mem_append.mp halert with hold | hnew
            · exact .inr hold
            · rw [List.mem_singleton.mp hnew]
              exact .inl (claimable_held rfl)
          next => cases hheld
      | flush workerId userId =>
          cases h
          exact hs.begun rfl rfl ⟨[⟨workerId, userId, .findingWatches⟩], rfl, by simp⟩ fun alert halert => .inr halert
      | serve f served =>
          cases served with
          | email sent => cases h
          | _ =>
              obtain ⟨digest, hserved, rfl⟩ := Option.map_eq_some_iff.mp h
              exact hs.serve (by simp) hserved rfl rfl

theorem accepted_iff {result : SendResult} :
    result = .accepted ↔ (sendDigestEmail result).isOk = true ∧ ∀ message, result ≠ .refused message := by
  cases result <;> simp [sendDigestEmail, Except.isOk, Except.toBool]

theorem digest_served {s t : DigestMail.State} {act : Digest.Act} (h : DigestMail.step s (.digest act) = some t) :
    Digest.step s.digest act = some t.digest ∧ t.mails = s.mails ∧ t.marked = marks s.digest act ++ s.marked := by
  cases act with
  | serve f served =>
      cases served with
      | email sent => cases h
      | _ =>
          obtain ⟨digest, hserved, rfl⟩ := Option.map_eq_some_iff.mp h
          exact ⟨hserved, rfl, rfl⟩
  | hold alertId watchId =>
      obtain ⟨digest, hserved, rfl⟩ := Option.map_eq_some_iff.mp h
      exact ⟨hserved, rfl, rfl⟩
  | clock _ | flush _ _ =>
      cases h
      exact ⟨rfl, rfl, rfl⟩

theorem marks_eq_nil {s : Digest.State} {act : Digest.Act} (h : ∀ f outcome, act ≠ .serve f (.update outcome)) :
    marks s act = [] := by
  cases act with
  | serve f served =>
      cases served with
      | update outcome => exact absurd rfl (h f outcome)
      | _ => rfl
  | _ => rfl

theorem unrefused_iff {s : DigestMail.State} {act : Digest.Act} {t : Digest.State} (h : Digest.step s.digest act = some t) :
    Unrefused s (.digest act) ↔ ∀ entry ∈ marks s.digest act, ∀ message, (entry.2, .refused message) ∉ s.mails := by
  by_cases hact : ∀ f outcome, act ≠ .serve f (.update outcome)
  · refine iff_of_true ?_ (by simp [marks_eq_nil hact])
    unfold Unrefused
    split
    next f outcome heq => exact absurd (Act.digest.inj heq) (hact f outcome)
    next => trivial
  · push Not at hact
    obtain ⟨f, outcome, rfl⟩ := hact
    obtain ⟨flush, hflush, -⟩ := Option.bind_eq_some_iff.mp h
    constructor
    · rintro hunrefused ⟨id, g⟩ hentry
      obtain ⟨rfl, ids, now, _, hphase, heq, hreached, hid⟩ := (mem_marks hflush).mp hentry
      obtain rfl := Served.update.inj heq
      cases ids with
      | nil => cases hid
      | cons first rest => exact hunrefused hreached flush hflush first rest now hphase
    · intro hall hreached other hother id ids now hphase
      exact hall (id, f) ((mem_marks hother).mpr ⟨rfl, id :: ids, now, outcome, hphase, rfl, hreached, List.mem_cons_self⟩)

/-- The next state is honest exactly if the act does not serve the update of a refused flush. -/
theorem honest_iff {s t : DigestMail.State} {a : DigestMail.Act} (hs : Heard s) (hp : Honest s)
    (h : DigestMail.step s a = some t) : Honest t ↔ Unrefused s a := by
  have ht : Heard t := heard_preserved s a t hs trivial h
  cases a with
  | mail f result =>
      -- a flush that has just heard from the provider has marked nothing
      obtain ⟨flush, ids, hflush, hsending, -, hmails, hmarked⟩ := mail_served h
      have hsilent := hs.silent_sending hflush hsending
      refine iff_of_true ⟨fun id g result' hid hmem => ?_, ht.claimable⟩ trivial
      rw [hmarked] at hid
      rw [hmails] at hmem
      rcases List.mem_cons.mp hmem with heq | hmem
      · exact absurd ((Prod.mk.inj heq).1 ▸ hid) (hsilent.2 id)
      · exact hp.accepted id g result' hid hmem
  | digest act =>
      obtain ⟨hserved, hmails, hmarked⟩ := digest_served h
      rw [unrefused_iff hserved]
      constructor
      · intro hhonest entry hentry message hrefused
        have hmem : (entry.1, entry.2) ∈ t.marked := hmarked ▸ List.mem_append_left _ hentry
        exact absurd (hhonest.accepted _ _ _ hmem (hmails ▸ hrefused)) (by simp)
      · intro hunrefused
        refine ⟨fun id g result hid hmem => ?_, ht.claimable⟩
        rcases List.mem_append.mp (hmarked ▸ hid) with hnew | hold
        · refine accepted_iff.mpr ⟨ht.marked id g result hid hmem, fun message hrefused => ?_⟩
          subst hrefused
          exact hunrefused (id, g) hnew message (hmails ▸ hmem)
        · exact hp.accepted id g result hold (hmails ▸ hmem)

/-- The monitor before its first alert. -/
def start (watches : List Watch) : DigestMail.State :=
  ⟨{ watches := watches, alerts := ⟨[], List.nodup_nil⟩ }, [], []⟩

theorem delivered_digests_accepted_iff (watches : List Watch) (acts : List DigestMail.Act) :
    Throughout DigestMail.step Honest (start watches) acts ↔ Guarded DigestMail.step Unrefused (start watches) acts := by
  have hheard : Heard (start watches) := by
    refine ⟨fun f _ => ⟨by simp [start], by simp [start]⟩, ?_, ?_, ?_⟩ <;> simp [start]
  have hhonest : Honest (start watches) := by
    refine ⟨?_, ?_⟩ <;> simp [start]
  exact throughout_iff_guarded_of_inv heard_preserved (fun s a t hs hp h => honest_iff hs hp h) hheard hhonest acts

/-- One alert is held, a digest claims it, the provider answers with an error object. -/
def refusedDigest : List DigestMail.Act :=
  [.digest (.hold 1 7), .digest (.flush 0 3), .digest (.serve 0 .watches), .digest (.serve 0 (.claim [] .answered)),
    .digest (.serve 0 (.prepared .withEmail)), .mail 0 (.refused "rate limited"), .digest (.serve 0 (.update .answered))]

theorem refused_digest_delivered : ¬ Throughout DigestMail.step Honest (start [⟨7, 3⟩]) refusedDigest := by
  intro hall
  obtain ⟨t, hrun, hfinal⟩ := exists_of_run_any DigestMail.step (start [⟨7, 3⟩]) refusedDigest
    (fun t => decide ((1, 0) ∈ t.marked ∧ (0, .refused "rate limited") ∈ t.mails)) (by decide)
  obtain ⟨hmarked, hmails⟩ := of_decide_eq_true hfinal
  exact absurd ((hall.last hrun).accepted 1 0 _ hmarked hmails) (by decide)

end Savitools.Monitor.MailedDigests
