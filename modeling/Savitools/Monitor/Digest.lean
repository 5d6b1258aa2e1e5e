import Savitools.Monitor.Types
import Savitools.Stores.Keyed
import Savitools.Transitions.Runs

namespace Savitools.Monitor.Digest

open Transitions.Runs Stores.Keyed Monitor.Types

def defaultClaimTimeoutMs : Nat := 5 * 60 * 1000

structure AlertEvent where
  id : Nat
  watchId : Nat
  deliveryStatus : DeliveryStatus
  deliveredAt : Option Nat := none
  claimedAt : Option Nat := none
  claimedBy : Option Nat := none
  claimKey : Option Nat := none
deriving DecidableEq

structure Watch where
  id : Nat
  userId : Nat

/-- The statement that a flush waits for, with the ids of the alerts it has claimed.
The clock is read before a statement is issued, so the value rides along. -/
inductive Phase
  | findingWatches
  | claiming (watchIds : List Nat) (expiredThreshold : Nat)
  | preparing (claimed : List Nat)
  | sending (claimed : List Nat)
  | marking (claimed : List Nat) (now : Nat)
  | recording (claimed : List Nat)
  | releasing (claimed : List Nat)
  | done
  | failed
deriving DecidableEq

/-- One call of `flushDigestForUser`. Its position in the list of flushes is its
`flushId`, a fresh value. -/
structure Flush where
  workerId : Nat
  userId : Nat
  phase : Phase := .findingWatches
deriving DecidableEq

/-- The lists `delivered` (alerts) and `takenOver` (flushes) are history: no step
reads them. -/
structure State where
  now : Nat := 0
  watches : List Watch := []
  alerts : KeyedRows AlertEvent.id
  flushes : List Flush := []
  delivered : List Nat := []
  takenOver : List Nat := []

/-- Between the claim and the `try` the flush reads the preferences and the user;
inside it emits the digest, and sends it by e-mail where that is configured. -/
inductive Prepared
  | thrown
  | emitFails
  | withEmail
  | withoutEmail
deriving DecidableEq

inductive Served
  | watches
  | claim (locked : List Nat) (outcome : Outcome)
  | prepared (prepared : Prepared)
  | email (sent : Bool)
  | update (outcome : Outcome)
deriving DecidableEq

inductive Act
  | clock (now : Nat)
  | hold (alertId watchId : Nat)
  | flush (workerId userId : Nat)
  | serve (flushId : Nat) (served : Served)
deriving DecidableEq

def State.setPhase (s : State) (flushId : Nat) (flush : Flush) (phase : Phase) : State :=
  { s with flushes := s.flushes.set flushId { flush with phase := phase } }

/-- The `WHERE` of the claim: held, or claimed by a worker whose lease has expired. -/
def candidate (watchIds : List Nat) (expiredThreshold : Nat) (alert : AlertEvent) : Bool :=
  watchIds.contains alert.watchId && (alert.deliveryStatus = .held ||
    (alert.deliveryStatus = .claimed && alert.claimedAt.any (fun claimedAt => claimedAt < expiredThreshold)))

def claimedRow (now workerId flushId : Nat) (alert : AlertEvent) : AlertEvent :=
  { alert with
    deliveryStatus := .claimed
    claimedAt := some now
    claimedBy := some workerId
    claimKey := some flushId }

def deliveredRow (now : Nat) (alert : AlertEvent) : AlertEvent :=
  { alert with
    deliveryStatus := .delivered
    deliveredAt := some now
    claimedAt := none
    claimedBy := none
    claimKey := none }

def releasedRow (alert : AlertEvent) : AlertEvent :=
  { alert with deliveryStatus := .held, claimedAt := none, claimedBy := none, claimKey := none }

theorem claimedRow_id (now workerId flushId : Nat) (alert : AlertEvent) :
    (claimedRow now workerId flushId alert).id = alert.id := rfl

theorem deliveredRow_id (now : Nat) (alert : AlertEvent) : (deliveredRow now alert).id = alert.id := rfl

theorem releasedRow_id (alert : AlertEvent) : (releasedRow alert).id = alert.id := rfl

/-- The ids that a claim takes: rows that another statement has locked are skipped. -/
def selected (s : State) (watchIds : List Nat) (expiredThreshold : Nat) (locked : List Nat) : List Nat :=
  (s.alerts.rows.filter (fun alert =>
    candidate watchIds expiredThreshold alert && !locked.contains alert.id)).map AlertEvent.id

def losers (s : State) (ids : List Nat) : List Nat :=
  (s.alerts.rows.filter (fun alert => ids.contains alert.id)).filterMap AlertEvent.claimKey

def claimAlerts (s : State) (flushId workerId : Nat) (ids : List Nat) : State :=
  { s with
    alerts := s.alerts.updateKeys ids (claimedRow s.now workerId flushId)
      (claimedRow_id s.now workerId flushId)
    takenOver := losers s ids ++ s.takenOver }

/-- The two updates below name the alerts by their ids alone. -/
def markDelivered (s : State) (now : Nat) (ids : List Nat) : State :=
  { s with
    alerts := s.alerts.updateKeys ids (deliveredRow now) (deliveredRow_id now)
    delivered := ids ++ s.delivered }

def releaseClaim (s : State) (ids : List Nat) : State :=
  { s with alerts := s.alerts.updateKeys ids releasedRow releasedRow_id }

def holdAlert (s : State) (alertId watchId : Nat) : Option State :=
  if h : alertId ∉ s.alerts.rows.map AlertEvent.id then
    some { s with alerts := s.alerts.insert ⟨alertId, watchId, .held, none, none, none, none⟩ h }
  else none

def stepFlush (s : State) (flushId : Nat) (flush : Flush) : Phase → Served → Option State
  | .findingWatches, .watches =>
      let watchIds := (s.watches.filter (fun watch => watch.userId = flush.userId)).map Watch.id
      some (s.setPhase flushId flush
        (if watchIds = [] then .done else .claiming watchIds (s.now - defaultClaimTimeoutMs)))
  | .claiming _ _, .claim _ .rejected => some (s.setPhase flushId flush .failed)
  | .claiming watchIds expiredThreshold, .claim locked outcome =>
      let ids := selected s watchIds expiredThreshold locked
      some ((claimAlerts s flushId flush.workerId ids).setPhase flushId flush
        (if outcome = .lost then .failed else if ids = [] then .done else .preparing ids))
  | .preparing _, .prepared .thrown => some (s.setPhase flushId flush .failed)
  | .preparing ids, .prepared .emitFails => some (s.setPhase flushId flush (.releasing ids))
  | .preparing ids, .prepared .withEmail => some (s.setPhase flushId flush (.sending ids))
  | .preparing ids, .prepared .withoutEmail => some (s.setPhase flushId flush (.marking ids s.now))
  | .sending ids, .email sent =>
      some (s.setPhase flushId flush (if sent then .marking ids s.now else .releasing ids))
  | .marking ids _, .update .rejected => some (s.setPhase flushId flush (.releasing ids))
  | .marking ids now, .update outcome =>
      some ((markDelivered s now ids).setPhase flushId flush
        (if outcome = .lost then .releasing ids else .recording ids))
  | .recording ids, .update outcome =>
      some (s.setPhase flushId flush (if outcome = .answered then .done else .releasing ids))
  | .releasing _, .update .rejected => some (s.setPhase flushId flush .failed)
  | .releasing ids, .update _ => some ((releaseClaim s ids).setPhase flushId flush .failed)
  | _, _ => none

def step : Step State Act
  | s, .clock now => some { s with now := now }
  | s, .hold alertId watchId => holdAlert s alertId watchId
  | s, .flush workerId userId => some { s with flushes := s.flushes ++ [⟨workerId, userId, .findingWatches⟩] }
  | s, .serve flushId served =>
      s.flushes[flushId]?.bind (fun flush => stepFlush s flushId flush flush.phase served)

theorem mem_claimAlerts {s : State} {flushId workerId : Nat} {ids : List Nat} {alert : AlertEvent} :
    alert ∈ (claimAlerts s flushId workerId ids).alerts.rows ↔ ∃ row ∈ s.alerts.rows,
      alert = if row.id ∈ ids then claimedRow s.now workerId flushId row else row :=
  KeyedRows.mem_updateKeys (claimedRow_id s.now workerId flushId)

theorem mem_markDelivered {s : State} {now : Nat} {ids : List Nat} {alert : AlertEvent} :
    alert ∈ (markDelivered s now ids).alerts.rows ↔
      ∃ row ∈ s.alerts.rows, alert = if row.id ∈ ids then deliveredRow now row else row :=
  KeyedRows.mem_updateKeys (deliveredRow_id now)

theorem mem_releaseClaim {s : State} {ids : List Nat} {alert : AlertEvent} :
    alert ∈ (releaseClaim s ids).alerts.rows ↔
      ∃ row ∈ s.alerts.rows, alert = if row.id ∈ ids then releasedRow row else row :=
  KeyedRows.mem_updateKeys releasedRow_id

end Savitools.Monitor.Digest

namespace Savitools.Monitor.DigestOwnership

open Stores.Keyed Monitor.Types Digest

def claimed : Phase → List Nat
  | .preparing ids | .sending ids | .marking ids _ | .recording ids | .releasing ids => ids
  | .findingWatches | .claiming _ _ | .done | .failed => []

def StaysDelivered (s : State) : Prop :=
  ∀ alert ∈ s.alerts.rows, alert.id ∈ s.delivered →
    alert.deliveryStatus ≠ .held ∧ alert.deliveryStatus ≠ .claimed

/-- A flush that nobody has taken over owns its alerts until it marks them. -/
structure Owned (s : State) : Prop where
  delivered : StaysDelivered s
  owned : ∀ f, ∀ flush ∈ s.flushes[f]?, f ∉ s.takenOver → ∀ alert ∈ s.alerts.rows,
    alert.id ∈ claimed flush.phase → alert.id ∈ s.delivered ∨ alert.claimKey = some f
  known : ∀ flush ∈ s.flushes, ∀ id ∈ claimed flush.phase, id ∈ s.alerts.rows.map AlertEvent.id
  deliveredKnown : ∀ id ∈ s.delivered, id ∈ s.alerts.rows.map AlertEvent.id

/-- What the statement of a flush can do to the state. -/
inductive Effect (s : State) (f : Nat) (flush : Flush) : Served → State → Prop
  | move (served : Served) (phase : Phase) (hclaimed : claimed phase ⊆ claimed flush.phase) :
      Effect s f flush served (s.setPhase f flush phase)
  | claim (watchIds : List Nat) (expiredThreshold : Nat) (locked : List Nat) (outcome : Outcome)
      (phase : Phase) (hphase : flush.phase = .claiming watchIds expiredThreshold)
      (hclaimed : claimed phase ⊆ selected s watchIds expiredThreshold locked) :
      Effect s f flush (.claim locked outcome)
        ((claimAlerts s f flush.workerId (selected s watchIds expiredThreshold locked)).setPhase f flush phase)
  | mark (outcome : Outcome) (ids : List Nat) (now : Nat) (phase : Phase)
      (hphase : flush.phase = .marking ids now) (hreached : outcome ≠ .rejected)
      (hclaimed : claimed phase ⊆ ids) :
      Effect s f flush (.update outcome) ((markDelivered s now ids).setPhase f flush phase)
  | release (outcome : Outcome) (ids : List Nat) (hphase : flush.phase = .releasing ids)
      (hreached : outcome ≠ .rejected) :
      Effect s f flush (.update outcome) ((releaseClaim s ids).setPhase f flush .failed)

theorem stepFlush_effect {s t : State} {f : Nat} {flush : Flush} {served : Served}
    (h : stepFlush s f flush flush.phase served = some t) : Effect s f flush served t := by
  have hmove (phase : Phase) (hclaimed : claimed phase ⊆ claimed flush.phase)
      (ht : s.setPhase f flush phase = t) : Effect s f flush served t :=
    ht ▸ .move served phase hclaimed
  cases hp : flush.phase with
  | findingWatches =>
      rw [hp] at h
      cases served <;> simp only [stepFlush, Option.some.injEq, reduceCtorEq] at h
      refine hmove _ ?_ h
      split <;> simp [claimed]
  | claiming watchIds expiredThreshold =>
      rw [hp] at h
      cases served with
      | claim locked outcome =>
          have hclaim (phase : Phase) (hclaimed : claimed phase ⊆ _) :=
            @Effect.claim s f flush watchIds expiredThreshold locked outcome phase hp hclaimed
          cases outcome <;> simp only [stepFlush, Option.some.injEq] at h
          · subst h
            refine hclaim _ ?_
            split
            next => exact absurd ‹_› (by decide)
            next => split <;> simp [claimed]
          · exact hmove .failed (by simp [claimed]) h
          · subst h
            exact hclaim _ (by simp [claimed])
      | _ => cases h
  | preparing ids =>
      rw [hp] at h
      cases served with
      | prepared prepared =>
          cases prepared <;> simp only [stepFlush, Option.some.injEq] at h <;>
            exact hmove _ (by simp [claimed, hp]) h
      | _ => cases h
  | sending ids =>
      rw [hp] at h
      cases served with
      | email sent =>
          simp only [stepFlush, Option.some.injEq] at h
          refine hmove _ ?_ h
          split <;> simp [claimed, hp]
      | _ => cases h
  | marking ids now =>
      rw [hp] at h
      cases served with
      | update outcome =>
          cases outcome <;> simp only [stepFlush, Option.some.injEq] at h
          · subst h
            exact .mark _ ids now _ hp (by decide) (by simp [claimed])
          · exact hmove _ (by simp [claimed, hp]) h
          · subst h
            exact .mark _ ids now _ hp (by decide) (by simp [claimed])
      | _ => cases h
  | recording ids =>
      rw [hp] at h
      cases served with
      | update outcome =>
          simp only [stepFlush, Option.some.injEq] at h
          refine hmove _ ?_ h
          split <;> simp [claimed, hp]
      | _ => cases h
  | releasing ids =>
      rw [hp] at h
      cases served with
      | update outcome =>
          cases outcome <;> simp only [stepFlush, Option.some.injEq] at h
          · subst h; exact .release _ ids hp (by decide)
          · exact hmove _ (by simp [claimed]) h
          · subst h; exact .release _ ids hp (by decide)
      | _ => cases h
  | done | failed => rw [hp] at h; cases served <;> cases h

theorem mem_setPhase {s : State} {f g : Nat} {flush other : Flush} {phase : Phase}
    (h : other ∈ (s.setPhase f flush phase).flushes[g]?) :
    (g = f ∧ other.phase = phase) ∨ (g ≠ f ∧ other ∈ s.flushes[g]?) := by
  simp only [State.setPhase, Option.mem_def, List.getElem?_set] at h
  split at h
  next hfg =>
    split at h
    next => exact .inl ⟨hfg.symm, by cases h; rfl⟩
    next => cases h
  next hfg => exact .inr ⟨fun hgf => hfg hgf.symm, h⟩

theorem claimed_setPhase {s : State} {f : Nat} {flush other : Flush} {phase : Phase} {id : Nat}
    (h : other ∈ (s.setPhase f flush phase).flushes) (hid : id ∈ claimed other.phase) :
    id ∈ claimed phase ∨ other ∈ s.flushes := by
  rcases List.mem_or_eq_of_mem_set h with h | rfl
  · exact .inr h
  · exact .inl hid

theorem mem_selected {s : State} {watchIds : List Nat} {expiredThreshold : Nat} {locked : List Nat}
    {alert : AlertEvent} (ha : alert ∈ s.alerts.rows)
    (h : alert.id ∈ selected s watchIds expiredThreshold locked) :
    alert.deliveryStatus = .held ∨ alert.deliveryStatus = .claimed := by
  obtain ⟨row, hrow, hid⟩ := List.mem_map.mp h
  obtain ⟨hrow, hcand⟩ := List.mem_filter.mp hrow
  obtain rfl := KeyedRows.eq_of_key hrow ha hid
  simp only [candidate, Bool.and_eq_true, Bool.or_eq_true, decide_eq_true_eq] at hcand
  rcases hcand.1.2 with hheld | hclaimed
  · exact .inl hheld
  · exact .inr hclaimed.1

theorem mem_losers {s : State} {ids : List Nat} {alert : AlertEvent} {g : Nat}
    (ha : alert ∈ s.alerts.rows) (hid : alert.id ∈ ids) (hg : alert.claimKey = some g) :
    g ∈ losers s ids :=
  List.mem_filterMap.mpr ⟨alert, List.mem_filter.mpr ⟨ha, by simpa using hid⟩, hg⟩

theorem owned_move {s : State} {f : Nat} {flush : Flush} {phase : Phase} (hs : Owned s)
    (hf : flush ∈ s.flushes[f]?) (hclaimed : claimed phase ⊆ claimed flush.phase) :
    Owned (s.setPhase f flush phase) where
  delivered := hs.delivered
  owned g other hother hg alert ha hid := by
    rcases mem_setPhase hother with ⟨rfl, hphase⟩ | ⟨-, hold⟩
    · exact hs.owned g flush hf hg alert ha (hclaimed (hphase ▸ hid))
    · exact hs.owned g other hold hg alert ha hid
  known other hother id hid := by
    rcases claimed_setPhase hother hid with hid | hold
    · exact hs.known flush (List.mem_of_getElem? hf) id (hclaimed hid)
    · exact hs.known other hold id hid
  deliveredKnown := hs.deliveredKnown

theorem selected_sub (s : State) (watchIds : List Nat) (expiredThreshold : Nat) (locked : List Nat) :
    selected s watchIds expiredThreshold locked ⊆ s.alerts.rows.map AlertEvent.id :=
  List.map_subset _ (List.filter_subset_self _)

theorem owned_claim {s : State} {f : Nat} {flush : Flush} {phase : Phase} {watchIds : List Nat}
    {expiredThreshold : Nat} {locked : List Nat} (hs : Owned s)
    (hclaimed : claimed phase ⊆ selected s watchIds expiredThreshold locked) :
    Owned ((claimAlerts s f flush.workerId (selected s watchIds expiredThreshold locked)).setPhase
      f flush phase) := by
  have hsub := selected_sub s watchIds expiredThreshold locked
  have hsel : ∀ q ∈ s.alerts.rows, q.id ∈ selected s watchIds expiredThreshold locked →
      q.deliveryStatus = .held ∨ q.deliveryStatus = .claimed := fun q hq h => mem_selected hq h
  generalize selected s watchIds expiredThreshold locked = ids at hclaimed hsub hsel ⊢
  have hnot : ∀ q ∈ s.alerts.rows, q.id ∈ s.delivered → q.id ∉ ids := by
    intro q hq hdel hid
    obtain ⟨hheld, hclaim⟩ := hs.delivered q hq hdel
    rcases hsel q hq hid with h | h
    · exact hheld h
    · exact hclaim h
  constructor
  · intro alert ha hid
    obtain ⟨q, hq, rfl⟩ := mem_claimAlerts.mp ha
    by_cases hids : q.id ∈ ids
    · simp only [hids, if_true] at hid
      exact absurd hids (hnot q hq hid)
    · simp only [hids, if_false] at hid ⊢
      exact hs.delivered q hq hid
  · intro g other hother hg alert ha hid
    simp only [State.setPhase, claimAlerts, List.mem_append, not_or] at hg
    obtain ⟨q, hq, rfl⟩ := mem_claimAlerts.mp ha
    by_cases hids : q.id ∈ ids
    · simp only [hids, if_true, claimedRow_id] at hid ⊢
      rcases mem_setPhase hother with ⟨rfl, -⟩ | ⟨-, hold⟩
      · exact .inr rfl
      · rcases hs.owned g other hold hg.2 q hq hid with hdel | hkey
        · exact .inl hdel
        · exact absurd (mem_losers hq hids hkey) hg.1
    · simp only [hids, if_false] at hid ⊢
      rcases mem_setPhase hother with ⟨-, hphase⟩ | ⟨-, hold⟩
      · exact absurd (hclaimed (hphase ▸ hid)) hids
      · exact hs.owned g other hold hg.2 q hq hid
  · intro other hother id hid
    simp only [State.setPhase, claimAlerts, KeyedRows.keys_updateKeys]
    rcases claimed_setPhase hother hid with hid | hold
    · exact hsub (hclaimed hid)
    · exact hs.known other hold id hid
  · simpa only [State.setPhase, claimAlerts, KeyedRows.keys_updateKeys] using hs.deliveredKnown

theorem owned_mark {s : State} {f now : Nat} {flush : Flush} {phase : Phase} {ids : List Nat}
    (hs : Owned s) (hf : flush ∈ s.flushes[f]?) (hphase : flush.phase = .marking ids now)
    (hclaimed : claimed phase ⊆ ids) :
    Owned ((markDelivered s now ids).setPhase f flush phase) := by
  have hsub : ∀ id ∈ ids, id ∈ s.alerts.rows.map AlertEvent.id := by
    have hknown := hs.known flush (List.mem_of_getElem? hf)
    rwa [hphase] at hknown
  constructor
  · intro alert ha hid
    obtain ⟨q, hq, rfl⟩ := mem_markDelivered.mp ha
    by_cases hids : q.id ∈ ids
    · simp [hids, deliveredRow]
    · simp only [hids, if_false, State.setPhase, markDelivered,
        List.mem_append, false_or] at hid ⊢
      exact hs.delivered q hq hid
  · intro g other hother hg alert ha hid
    obtain ⟨q, hq, rfl⟩ := mem_markDelivered.mp ha
    by_cases hids : q.id ∈ ids
    · refine .inl (List.mem_append_left _ ?_)
      simp only [hids, if_true, deliveredRow_id]
    · simp only [hids, if_false] at hid ⊢
      rcases mem_setPhase hother with ⟨-, hphase'⟩ | ⟨-, hold⟩
      · exact absurd (hclaimed (hphase' ▸ hid)) hids
      · rcases hs.owned g other hold hg q hq hid with hdel | hkey
        · exact .inl (List.mem_append_right _ hdel)
        · exact .inr hkey
  · intro other hother id hid
    simp only [State.setPhase, markDelivered, KeyedRows.keys_updateKeys]
    rcases claimed_setPhase hother hid with hid | hold
    · exact hsub id (hclaimed hid)
    · exact hs.known other hold id hid
  · intro id hid
    simp only [State.setPhase, markDelivered, KeyedRows.keys_updateKeys]
    rcases List.mem_append.mp hid with hid | hid
    · exact hsub id hid
    · exact hs.deliveredKnown id hid

theorem owned_release {s : State} {f : Nat} {flush : Flush} {ids : List Nat} (hs : Owned s)
    (hown : ∀ alert ∈ s.alerts.rows, alert.id ∈ ids → alert.id ∉ s.delivered ∧ alert.claimKey = some f) :
    Owned ((releaseClaim s ids).setPhase f flush .failed) := by
  constructor
  · intro alert ha hid
    obtain ⟨q, hq, rfl⟩ := mem_releaseClaim.mp ha
    by_cases hids : q.id ∈ ids
    · simp only [hids, if_true, releasedRow_id] at hid
      exact absurd hid (hown q hq hids).1
    · simp only [hids, if_false] at hid ⊢
      exact hs.delivered q hq hid
  · intro g other hother hg alert ha hid
    obtain ⟨q, hq, rfl⟩ := mem_releaseClaim.mp ha
    rcases mem_setPhase hother with ⟨-, hphase⟩ | ⟨hgf, hold⟩
    · rw [hphase] at hid; cases hid
    · by_cases hids : q.id ∈ ids
      · -- a released alert had the releasing flush as its only owner
        simp only [hids, if_true, releasedRow_id] at hid
        obtain ⟨hdel, hkey⟩ := hown q hq hids
        rcases hs.owned g other hold hg q hq hid with h | h
        · exact absurd h hdel
        · exact absurd (Option.some.inj (h.symm.trans hkey)) hgf
      · simp only [hids, if_false] at hid ⊢
        exact hs.owned g other hold hg q hq hid
  · intro other hother id hid
    simp only [State.setPhase, releaseClaim, KeyedRows.keys_updateKeys]
    rcases claimed_setPhase hother hid with hid | hold
    · cases hid
    · exact hs.known other hold id hid
  · simpa only [State.setPhase, releaseClaim, KeyedRows.keys_updateKeys] using hs.deliveredKnown

theorem owned_hold {s t : State} {alertId watchId : Nat} (hs : Owned s)
    (h : holdAlert s alertId watchId = some t) : Owned t := by
  simp only [holdAlert] at h
  split at h
  next hnew =>
    cases h
    have hold {id : Nat} (hid : id ∈ s.alerts.rows.map AlertEvent.id) (row : AlertEvent) :
        id ∈ (s.alerts.rows ++ [row]).map AlertEvent.id := by
      rw [List.map_append]
      exact List.mem_append_left _ hid
    refine ⟨?_, ?_, ?_, ?_⟩
    · intro alert ha hid
      rcases List.mem_append.mp ha with ha | ha
      · exact hs.delivered alert ha hid
      · rw [List.mem_singleton.mp ha] at hid
        exact absurd (hs.deliveredKnown _ hid) hnew
    · intro g other hother hg alert ha hid
      rcases List.mem_append.mp ha with ha | ha
      · exact hs.owned g other hother hg alert ha hid
      · rw [List.mem_singleton.mp ha] at hid
        exact absurd (hs.known other (List.mem_of_getElem? hother) _ hid) hnew
    · exact fun other hother id hid => hold (hs.known other hother id hid) _
    · exact fun id hid => hold (hs.deliveredKnown id hid) _
  next => cases h

theorem owned_flush {s : State} {workerId userId : Nat} (hs : Owned s) :
    Owned { s with flushes := s.flushes ++ [⟨workerId, userId, .findingWatches⟩] } where
  delivered := hs.delivered
  owned g other hother hg alert ha hid := by
    simp only [Option.mem_def, List.getElem?_append] at hother
    split at hother
    next => exact hs.owned g other hother hg alert ha hid
    next =>
      have hnew := List.mem_singleton.mp (List.mem_of_getElem? hother)
      rw [hnew] at hid
      cases hid
  known other hother id hid := by
    rcases List.mem_append.mp hother with hold | hnew
    · exact hs.known other hold id hid
    · rw [List.mem_singleton.mp hnew] at hid
      cases hid
  deliveredKnown := hs.deliveredKnown

end Savitools.Monitor.DigestOwnership

namespace Savitools.Monitor.DigestClaims

open Transitions.Runs Stores.Keyed Monitor.Types Digest DigestOwnership

def writesAlerts : Phase → Bool
  | .marking _ _ | .releasing _ => true
  | _ => false

/-- The condition on the mark and the release of a flush: when the statement
reaches the database, no other flush has taken over one of its alerts, and none
of them has been marked delivered before. -/
def Undisturbed (s : State) : Act → Prop
  | .serve f (.update outcome) =>
      ∀ flush ∈ s.flushes[f]?, writesAlerts flush.phase = true → outcome ≠ .rejected →
        f ∉ s.takenOver ∧ ∀ id ∈ claimed flush.phase, id ∉ s.delivered
  | _ => True

/-- A step of a flush changes no claimed alert that carries another claim key by now. -/
def KeepsForeign (s t : State) : Act → Prop
  | .serve f _ => ∀ flush ∈ s.flushes[f]?, ∀ alert ∈ s.alerts.rows, alert.id ∈ claimed flush.phase →
      alert.claimKey ≠ some f → alert ∈ t.alerts.rows
  | _ => True

def ClaimSafe (s : State) (a : Act) : Prop :=
  ∀ t ∈ step s a, StaysDelivered t ∧ KeepsForeign s t a

theorem own_alerts {s : State} {f : Nat} {flush : Flush} {outcome : Outcome} (hs : Owned s)
    (hg : Undisturbed s (.serve f (.update outcome))) (hf : flush ∈ s.flushes[f]?)
    (hwrites : writesAlerts flush.phase = true) (hreached : outcome ≠ .rejected)
    {alert : AlertEvent} (ha : alert ∈ s.alerts.rows) (hid : alert.id ∈ claimed flush.phase) :
    alert.id ∉ s.delivered ∧ alert.claimKey = some f := by
  obtain ⟨hf', hdel⟩ := hg flush hf hwrites hreached
  refine ⟨hdel _ hid, ?_⟩
  rcases hs.owned f flush hf hf' alert ha hid with h | h
  · exact absurd h (hdel _ hid)
  · exact h

theorem owned_effect {s t : State} {f : Nat} {flush : Flush} {served : Served} (hs : Owned s)
    (hf : flush ∈ s.flushes[f]?) (hg : Undisturbed s (.serve f served))
    (h : Effect s f flush served t) : Owned t ∧ KeepsForeign s t (.serve f served) := by
  have hflush {other : Flush} (hother : other ∈ s.flushes[f]?) : other = flush :=
    Option.mem_unique hother hf
  cases h with
  | move served phase hclaimed => exact ⟨owned_move hs hf hclaimed, fun _ _ _ ha _ _ => ha⟩
  | claim watchIds expiredThreshold locked outcome phase hphase hclaimed =>
      refine ⟨owned_claim hs hclaimed, ?_⟩
      intro other hother alert ha hid
      rw [hflush hother, hphase] at hid
      cases hid
  | mark outcome ids now phase hphase hreached hclaimed =>
      have hown := @own_alerts s f flush outcome hs hg hf (by simp [hphase, writesAlerts]) hreached
      refine ⟨owned_mark hs hf hphase hclaimed, ?_⟩
      intro other hother alert ha hid hkey
      rw [hflush hother] at hid
      exact absurd (hown ha hid).2 hkey
  | release outcome ids hphase hreached =>
      have hown := @own_alerts s f flush outcome hs hg hf (by simp [hphase, writesAlerts]) hreached
      refine ⟨owned_release hs (fun alert ha hid => hown ha (by rwa [hphase])), ?_⟩
      intro other hother alert ha hid hkey
      rw [hflush hother] at hid
      exact absurd (hown ha hid).2 hkey

theorem owned_step {s t : State} {a : Act} (hs : Owned s) (hg : Undisturbed s a)
    (h : step s a = some t) : Owned t ∧ KeepsForeign s t a := by
  cases a with
  | clock now => cases h; exact ⟨⟨hs.delivered, hs.owned, hs.known, hs.deliveredKnown⟩, trivial⟩
  | hold alertId watchId => exact ⟨owned_hold hs h, trivial⟩
  | flush workerId userId => cases h; exact ⟨owned_flush hs, trivial⟩
  | serve f served =>
      obtain ⟨flush, hf, h⟩ := Option.bind_eq_some_iff.mp h
      exact owned_effect hs hf hg (stepFlush_effect h)

def initial (watches : List Watch) (alerts : KeyedRows AlertEvent.id) : State :=
  { watches := watches, alerts := alerts }

theorem owned_initial (watches : List Watch) (alerts : KeyedRows AlertEvent.id) :
    Owned (initial watches alerts) where
  delivered _ _ hid := by cases hid
  owned _ _ hf := by cases hf
  known _ hf := by cases hf
  deliveredKnown _ hid := by cases hid

/-- In every run in which no mark or release comes after a takeover or a mark of
the same alerts, no step moves a delivered alert back or changes an alert of
another claim. -/
theorem claimSafe_run (watches : List Watch) (alerts : KeyedRows AlertEvent.id) (acts : List Act)
    (hg : Guarded step Undisturbed (initial watches alerts) acts) :
    Guarded step ClaimSafe (initial watches alerts) acts := by
  have hkept : Preserves step Undisturbed Owned := fun _ _ _ hs hg h => (owned_step hs hg h).1
  refine hkept.guarded ?_ (owned_initial watches alerts) hg
  intro s a hs hguard t ht
  obtain ⟨hown, hforeign⟩ := owned_step hs hguard ht
  exact ⟨hown.delivered, hforeign⟩

instance (s : State) (a : Act) : Decidable (Undisturbed s a) :=
  match a with
  | .serve f (.update outcome) => inferInstanceAs (Decidable (∀ flush ∈ s.flushes[f]?,
      writesAlerts flush.phase = true → outcome ≠ .rejected →
        f ∉ s.takenOver ∧ ∀ id ∈ claimed flush.phase, id ∉ s.delivered))
  | .serve _ .watches | .serve _ (.claim _ _) | .serve _ (.prepared _) | .serve _ (.email _) | .clock _
  | .hold _ _ | .flush _ _ => isTrue trivial

def oneHeld : State := initial [⟨1, 1⟩] ⟨[⟨7, 1, .held, none, none, none, none⟩], by decide⟩

def twoFlushes : List Act :=
  [.flush 0 1, .flush 1 1, .serve 0 .watches, .serve 1 .watches, .serve 0 (.claim [] .answered),
    .serve 1 (.claim [] .answered), .serve 0 (.prepared .withEmail), .serve 0 (.email true),
    .serve 0 (.update .answered), .serve 0 (.update .answered)]

theorem claimSafe_twoFlushes :
    (run step oneHeld twoFlushes).any (fun s => s.delivered = [7]) = true ∧
      Guarded step ClaimSafe oneHeld twoFlushes :=
  ⟨by decide, claimSafe_run _ _ twoFlushes (by decide)⟩

/-- The e-mail of the first flush outlives its lease: the second flush takes the
alert over and delivers it, and then the first one fails and releases it. -/
def lateRelease : List Act :=
  [.clock 1, .flush 0 1, .serve 0 .watches, .serve 0 (.claim [] .answered),
    .serve 0 (.prepared .withEmail), .clock 300002, .flush 1 1, .serve 1 .watches,
    .serve 1 (.claim [] .answered), .serve 1 (.prepared .withoutEmail), .serve 1 (.update .answered),
    .serve 0 (.email false)]

theorem not_claimSafe :
    ∃ s, run step oneHeld lateRelease = some s ∧ s.delivered = [7] ∧
      ¬ ClaimSafe s (.serve 0 (.update .answered)) := by
  obtain ⟨s, hr, hp⟩ := exists_of_run_any step oneHeld lateRelease
    (fun s => s.delivered = [7] && (step s (.serve 0 (.update .answered))).any (fun t =>
      t.alerts.rows.any (fun alert => t.delivered.contains alert.id && alert.deliveryStatus = .held)))
    (by decide)
  simp only [Bool.and_eq_true, decide_eq_true_eq, Option.any_eq_true, List.any_eq_true,
    List.contains_iff_mem] at hp
  obtain ⟨hdel, t, ht, alert, ha, hid, hheld⟩ := hp
  exact ⟨s, hr, hdel, fun hsafe => ((hsafe t ht).1 alert ha hid).1 hheld⟩

end Savitools.Monitor.DigestClaims
