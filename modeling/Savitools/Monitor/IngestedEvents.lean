import Savitools.Monitor.Ingestion
import Savitools.Transitions.Holdings

namespace Savitools.Monitor.IngestedEvents

open Strings.CodeUnits Transitions.Runs Transitions.Holdings
open Monitor.Types AlertRules AlertEvaluator Watches Ingestion

variable {localeCompare : Text → Text → Int} {toLowerCase : Text → Text} {dateParse : Text → Int}

def slot (row : WatchEvent) : Nat × EventSource × Text := (row.watchId, row.source, row.pagingToken)

def alertSlot (row : AlertEvent) : Nat × Nat × Nat := (row.watchId, row.ruleId, row.watchEventId)

/-- The time in the row of a watch is that of its latest event. -/
structure Latest (events : List WatchEvent) (row : WatchRow) : Prop where
  above : ∀ event ∈ events, event.watchId = row.id → ∃ time, row.lastEventAt = some time ∧ event.occurredAt ≤ time
  reached : ∀ time, row.lastEventAt = some time → ∃ event ∈ events, event.watchId = row.id ∧ event.occurredAt = time

/-- What holds of the tables after every transaction. -/
structure Sound (db : Database) : Prop where
  eventIds : (db.events.map WatchEvent.id).Nodup
  slots : (db.events.map slot).Nodup
  alertSlots : (db.alerts.map alertSlot).Nodup
  watched : ∀ event ∈ db.events, ∃ row ∈ db.watches, row.id = event.watchId
  owned : ∀ alert ∈ db.alerts, ∃ event ∈ db.events, event.id = alert.watchEventId ∧ event.watchId = alert.watchId
  freshEvents : ∀ event ∈ db.events, event.id < db.nextId
  freshAlerts : ∀ alert ∈ db.alerts, alert.id < db.nextId
  latest : ∀ row ∈ db.watches, Latest db.events row

section Alerts

variable {object : WatchObject} {watchEventId : Nat}

/-- The alerts that the loop over some rules has inserted behind those of a table. -/
structure Inserted (object : WatchObject) (watchEventId : Nat) (before : Database) (rules : List Nat)
    (found : Database × List AlertEvent) : Prop where
  db : found.1 = { before with alerts := before.alerts ++ found.2, nextId := before.nextId + found.2.length }
  ids : found.2.map AlertEvent.id = List.range' before.nextId found.2.length
  owner : ∀ alert ∈ found.2, alert.watchId = object.watch.id ∧ alert.watchEventId = watchEventId
  rulesNodup : (found.2.map AlertEvent.ruleId).Nodup
  mem_rules : ∀ rule, rule ∈ found.2.map AlertEvent.ruleId ↔ rule ∈ rules

theorem Inserted.start (before : Database) : Inserted object watchEventId before [] (before, []) :=
  ⟨by rw [List.append_nil]; rfl, rfl, List.forall_mem_nil _, List.nodup_nil, fun _ => Iff.rfl⟩

theorem Inserted.insertAlert {before : Database} {rules : List Nat} {found : Database × List AlertEvent}
    (h : Inserted object watchEventId before rules found) (hnone : ∀ alert ∈ before.alerts, alert.watchEventId ≠ watchEventId)
    (toLowerCase : Text → Text) (event : NormalizedMonitorEvent) (rule : AlertRuleDefinition) :
    Inserted object watchEventId before
      (rules ++ if matchesEvent toLowerCase rule object.watch.publicKey event then [rule.id] else [])
      (Ingestion.insertAlert toLowerCase object event watchEventId found rule) := by
  obtain ⟨db, alerts⟩ := found
  obtain ⟨hdb, hids, howner, hnodup, hrules⟩ := h
  dsimp only at hdb hids howner hnodup hrules
  have hany : (db.alerts.any fun alert => alert.watchId = object.watch.id && alert.ruleId = rule.id &&
      alert.watchEventId = watchEventId) = true ↔ rule.id ∈ alerts.map AlertEvent.ruleId := by
    rw [hdb, List.any_append, Bool.or_eq_true, List.any_eq_true, List.any_eq_true, List.mem_map]
    simp only [Bool.and_eq_true, decide_eq_true_eq]
    constructor
    · rintro (⟨alert, halert, ⟨-, -⟩, hevent⟩ | ⟨alert, halert, ⟨-, hrule⟩, -⟩)
      · exact absurd hevent (hnone alert halert)
      · exact ⟨alert, halert, hrule⟩
    · rintro ⟨alert, halert, hrule⟩
      exact .inr ⟨alert, halert, ⟨(howner alert halert).1, hrule⟩, (howner alert halert).2⟩
  simp only [Ingestion.insertAlert]
  by_cases hmatch : matchesEvent toLowerCase rule object.watch.publicKey event = true
  · rw [if_pos hmatch, if_neg (by simp [hmatch])]
    by_cases hthere : rule.id ∈ alerts.map AlertEvent.ruleId
    · rw [if_pos (hany.mpr hthere)]
      refine ⟨hdb, hids, howner, hnodup, fun other => ?_⟩
      rw [List.mem_append, List.mem_singleton, ← hrules]
      exact (or_iff_left_of_imp fun h => h ▸ hthere).symm
    · rw [if_neg fun h => hthere (hany.mp h)]
      refine ⟨?_, ?_, ?_, ?_, fun other => ?_⟩
      · simp [hdb, Nat.add_assoc]
      · simp [hids, hdb, List.range'_concat]
      · intro alert halert
        rcases List.mem_append.mp halert with halert | halert
        · exact howner alert halert
        · rw [List.mem_singleton.mp halert]
          exact ⟨rfl, rfl⟩
      · rw [List.map_append]
        refine List.nodup_append.mpr ⟨hnodup, List.nodup_singleton _, ?_⟩
        rintro a ha b hb rfl
        have hrule : a = rule.id := List.mem_singleton.mp hb
        exact hthere (hrule ▸ ha)
      · rw [List.map_append, List.mem_append, hrules, List.mem_append]
        rfl
  · rw [if_neg hmatch, if_pos (by simp [hmatch]), List.append_nil]
    exact ⟨hdb, hids, howner, hnodup, hrules⟩

theorem inserted_foldl (toLowerCase : Text → Text) (event : NormalizedMonitorEvent) (rules : List AlertRuleDefinition)
    {before : Database} {done : List Nat} {found : Database × List AlertEvent} (h : Inserted object watchEventId before done found)
    (hnone : ∀ alert ∈ before.alerts, alert.watchEventId ≠ watchEventId) :
    Inserted object watchEventId before
      (done ++ (rules.filter fun rule => matchesEvent toLowerCase rule object.watch.publicKey event).map (·.id))
      (rules.foldl (Ingestion.insertAlert toLowerCase object event watchEventId) found) := by
  induction rules generalizing done found with
  | nil => rwa [List.filter_nil, List.map_nil, List.append_nil]
  | cons rule rules ih =>
      have hnext := ih (h.insertAlert hnone toLowerCase event rule)
      rw [List.append_assoc] at hnext
      rw [List.foldl_cons, List.filter_cons]
      by_cases hmatch : matchesEvent toLowerCase rule object.watch.publicKey event = true
      · rwa [if_pos hmatch] at hnext ⊢
      · rwa [if_neg hmatch] at hnext ⊢

end Alerts

/-- What a transaction that inserts an event does to the tables. -/
structure Persisted (toLowerCase : Text → Text) (object : WatchObject) (event : NormalizedMonitorEvent) (db after : Database)
    (row : WatchEvent) (raised : List AlertEvent) : Prop where
  id_eq : row.id = db.nextId
  new : slot row ∉ db.events.map slot
  watch : ∃ watch ∈ db.watches, watch.id = row.watchId
  events : after.events = db.events ++ [row]
  alerts : after.alerts = db.alerts ++ raised
  nextId : after.nextId = db.nextId + 1 + raised.length
  watches : after.watches = db.watches.map fun watch =>
    if watch.id = row.watchId then { watch with lastEventAt := later watch.lastEventAt row.occurredAt } else watch
  ids : raised.map AlertEvent.id = List.range' (db.nextId + 1) raised.length
  owner : ∀ alert ∈ raised, alert.watchId = row.watchId ∧ alert.watchEventId = row.id
  rulesNodup : (raised.map AlertEvent.ruleId).Nodup
  mem_rules : ∀ rule, rule ∈ raised.map AlertEvent.ruleId ↔ rule ∈ matching toLowerCase object event

theorem persisted_insert {db : Database} {object : WatchObject} {event : NormalizedMonitorEvent} {row : WatchEvent}
    (hsound : Sound db) (hid : row.id = db.nextId) (howner : row.watchId = object.watch.id) (hnew : slot row ∉ db.events.map slot)
    (hwatch : ∃ watch ∈ db.watches, watch.id = row.watchId) {found : Database × List AlertEvent}
    (hfound : object.watch.alertRules.foldl (insertAlert toLowerCase object event row.id) (insertWatchEvent db row, []) = found) :
    Persisted toLowerCase object event db found.1 row found.2 := by
  have hnone : ∀ alert ∈ (insertWatchEvent db row).alerts, alert.watchEventId ≠ row.id := by
    intro alert halert heq
    obtain ⟨owner, howner, hevent, -⟩ := hsound.owned alert halert
    have hless := hsound.freshEvents owner howner
    omega
  have hstart : Inserted object row.id (insertWatchEvent db row) [] (insertWatchEvent db row, []) := Inserted.start _
  have hall := inserted_foldl toLowerCase event object.watch.alertRules hstart hnone
  rw [hfound, List.nil_append] at hall
  exact {
    id_eq := hid
    new := hnew
    watch := hwatch
    events := by rw [hall.db]; rfl
    alerts := by rw [hall.db]; rfl
    nextId := by rw [hall.db]; rfl
    watches := by rw [hall.db]; rfl
    ids := hall.ids
    owner := fun alert halert => ⟨(hall.owner alert halert).1.trans howner.symm, (hall.owner alert halert).2⟩
    rulesNodup := hall.rulesNodup
    mem_rules := hall.mem_rules }

theorem persistForWatch_inserted {db after : Database} {object : WatchObject} {event : NormalizedMonitorEvent}
    {row : WatchEvent} {raised : List AlertEvent} (hsound : Sound db)
    (h : persistForWatch toLowerCase dateParse db object event = .inserted after row raised) :
    Persisted toLowerCase object event db after row raised := by
  simp only [persistForWatch] at h
  split at h
  next => cases h
  next hduplicate =>
    split at h
    next => cases h
    next hwatch =>
      rw [Insertion.inserted.injEq] at h
      obtain ⟨rfl, rfl, rfl⟩ := h
      refine persisted_insert hsound rfl rfl (fun hslot => hduplicate ?_) ?_ rfl
      · obtain ⟨other, hother, hsame⟩ := List.mem_map.mp hslot
        obtain ⟨hid, hrest⟩ := Prod.mk.inj hsame
        obtain ⟨hsource, htoken⟩ := Prod.mk.inj hrest
        exact List.any_eq_true.mpr ⟨other, hother, by simp [hid, hsource, htoken]⟩
      · simpa using hwatch

section Rows

variable {db after : Database} {object : WatchObject} {event : NormalizedMonitorEvent} {row : WatchEvent}
  {raised : List AlertEvent}

theorem later_spec (last : Option Int) (occurredAt : Int) :
    ∃ time, later last occurredAt = some time ∧ occurredAt ≤ time ∧ (∀ before, last = some before → before ≤ time) ∧
      (time = occurredAt ∨ last = some time) := by
  cases last with
  | none => exact ⟨occurredAt, rfl, le_rfl, nofun, .inl rfl⟩
  | some before =>
      rw [later, Option.all_some]
      by_cases hless : before < occurredAt
      · exact ⟨occurredAt, if_pos (decide_eq_true hless), le_rfl, fun _ h => Option.some.inj h ▸ hless.le, .inl rfl⟩
      · exact ⟨before, if_neg (by simpa using hless), not_lt.mp hless, fun _ h => (Option.some.inj h).ge, .inr rfl⟩

theorem Latest.insert {events : List WatchEvent} {watch : WatchRow} (h : Latest events watch) (row : WatchEvent) :
    Latest (events ++ [row])
      (if watch.id = row.watchId then { watch with lastEventAt := later watch.lastEventAt row.occurredAt } else watch) := by
  by_cases hid : watch.id = row.watchId
  · rw [if_pos hid]
    obtain ⟨time, hlater, hle, hbefore, horigin⟩ := later_spec watch.lastEventAt row.occurredAt
    constructor
    · intro event hevent hwatch
      refine ⟨time, hlater, ?_⟩
      rcases List.mem_append.mp hevent with hold | hnew
      · obtain ⟨last, hlast, habove⟩ := h.above event hold hwatch
        exact habove.trans (hbefore last hlast)
      · rwa [List.mem_singleton.mp hnew]
    · intro other hother
      obtain rfl := Option.some.inj (hlater.symm.trans hother)
      rcases horigin with rfl | hlast
      · exact ⟨row, List.mem_append_right _ List.mem_cons_self, hid.symm, rfl⟩
      · obtain ⟨event, hevent, hrest⟩ := h.reached _ hlast
        exact ⟨event, List.mem_append_left _ hevent, hrest⟩
  · rw [if_neg hid]
    constructor
    · intro event hevent hwatch
      rcases List.mem_append.mp hevent with hold | hnew
      · exact h.above event hold hwatch
      · rw [List.mem_singleton.mp hnew] at hwatch
        exact absurd hwatch.symm hid
    · intro time htime
      obtain ⟨event, hevent, hrest⟩ := h.reached time htime
      exact ⟨event, List.mem_append_left _ hevent, hrest⟩

theorem id_touched (watch : WatchRow) (row : WatchEvent) :
    (if watch.id = row.watchId then { watch with lastEventAt := later watch.lastEventAt row.occurredAt } else watch).id =
      watch.id := by
  split <;> rfl

variable (hsound : Sound db) (h : Persisted toLowerCase object event db after row raised)

include hsound h

theorem persisted_alertSlots : (after.alerts.map alertSlot).Nodup := by
  rw [h.alerts, List.map_append]
  refine List.nodup_append.mpr ⟨hsound.alertSlots, ?_, ?_⟩
  · have hrules : ((raised.map alertSlot).map fun place => place.2.1).Nodup := by
      rw [List.map_map]
      exact h.rulesNodup
    exact hrules.of_map
  · rintro place hold other hnew rfl
    obtain ⟨old, holdAlert, rfl⟩ := List.mem_map.mp hold
    obtain ⟨alert, halert, hsame⟩ := List.mem_map.mp hnew
    obtain ⟨owner, howner, hevent, -⟩ := hsound.owned old holdAlert
    have hless := hsound.freshEvents owner howner
    have hid := (h.owner alert halert).2.trans h.id_eq
    have hplace : alert.watchEventId = old.watchEventId := congrArg (fun place => place.2.2) hsame
    omega

theorem Sound.persisted : Sound after where
  eventIds := by
    rw [h.events, List.map_append]
    refine List.nodup_append.mpr ⟨hsound.eventIds, List.nodup_singleton _, ?_⟩
    rintro id hold other hnew rfl
    obtain ⟨old, holdEvent, rfl⟩ := List.mem_map.mp hold
    have hless := hsound.freshEvents old holdEvent
    have hid : old.id = row.id := List.mem_singleton.mp hnew
    have hrow := h.id_eq
    omega
  slots := by
    rw [h.events, List.map_append]
    refine List.nodup_append.mpr ⟨hsound.slots, List.nodup_singleton _, ?_⟩
    rintro place hold other hnew rfl
    have hplace : place = slot row := List.mem_singleton.mp hnew
    exact h.new (hplace ▸ hold)
  alertSlots := persisted_alertSlots hsound h
  watched := by
    have hkept (watchId : Nat) (hwatch : ∃ watch ∈ db.watches, watch.id = watchId) : ∃ watch ∈ after.watches, watch.id = watchId := by
      obtain ⟨watch, hwatch, rfl⟩ := hwatch
      rw [h.watches]
      exact ⟨_, List.mem_map_of_mem hwatch, id_touched watch row⟩
    intro event hevent
    rw [h.events] at hevent
    rcases List.mem_append.mp hevent with hold | hnew
    · exact hkept _ (hsound.watched event hold)
    · rw [List.mem_singleton.mp hnew]
      exact hkept _ h.watch
  owned := by
    intro alert halert
    rw [h.alerts] at halert
    rw [h.events]
    rcases List.mem_append.mp halert with hold | hnew
    · obtain ⟨event, hevent, hrest⟩ := hsound.owned alert hold
      exact ⟨event, List.mem_append_left _ hevent, hrest⟩
    · exact ⟨row, List.mem_append_right _ List.mem_cons_self, (h.owner alert hnew).2.symm, (h.owner alert hnew).1.symm⟩
  freshEvents := by
    intro event hevent
    rw [h.events] at hevent
    have hnext := h.nextId
    rcases List.mem_append.mp hevent with hold | hnew
    · have hless := hsound.freshEvents event hold
      omega
    · have hid := h.id_eq
      rw [List.mem_singleton.mp hnew]
      omega
  freshAlerts := by
    intro alert halert
    rw [h.alerts] at halert
    have hnext := h.nextId
    rcases List.mem_append.mp halert with hold | hnew
    · have hless := hsound.freshAlerts alert hold
      omega
    · have hid : alert.id ∈ raised.map AlertEvent.id := List.mem_map_of_mem hnew
      rw [h.ids, List.mem_range'_1] at hid
      omega
  latest := by
    intro watch hwatch
    rw [h.watches] at hwatch
    obtain ⟨old, hold, rfl⟩ := List.mem_map.mp hwatch
    rw [h.events]
    exact (hsound.latest old hold).insert row

end Rows

/-- The alerts of an event are one for each of the rules that matched it. -/
def RaisedFor (db : Database) (watchEventId : Nat) (rules : List Nat) : Prop :=
  ∀ rule, (∃ alert ∈ db.alerts, alert.watchEventId = watchEventId ∧ alert.ruleId = rule) ↔ rule ∈ rules

/-- The event that a call has stored and not yet sent to the user. -/
def eventInHand (call : Call) : List Nat :=
  match call.phase with
  | .emitting _ watchEvent _ _ => [watchEvent.id]
  | _ => []

/-- The alerts that a call has raised and not yet enqueued. -/
def alertsInHand (call : Call) : List Nat :=
  match call.phase with
  | .emitting _ _ alertEvents _ => alertEvents.map AlertEvent.id
  | .enqueuing alertEvent alertEvents _ => alertEvent :: alertEvents
  | _ => []

@[simp] theorem alertsInHand_enqueueNext (event : NormalizedMonitorEvent) (alertEvents todo : List Nat) :
    alertsInHand ⟨event, enqueueNext alertEvents todo⟩ = alertEvents := by
  cases alertEvents <;> rfl

@[simp] theorem eventInHand_enqueueNext (event : NormalizedMonitorEvent) (alertEvents todo : List Nat) :
    eventInHand ⟨event, enqueueNext alertEvents todo⟩ = [] := by
  cases alertEvents <;> rfl

/-- The tables, and the history of what was stored in them and raised. -/
structure Recorded (db : Database) (stored : List (Nat × List Nat)) (raised : List Nat) : Prop where
  sound : Sound db
  storedNodup : (stored.map (·.1)).Nodup
  raisedNodup : raised.Nodup
  freshStored : ∀ entry ∈ stored, entry.1 < db.nextId
  freshRaised : ∀ alert ∈ raised, alert < db.nextId
  matched : ∀ row ∈ db.events, ∃ rules, (row.id, rules) ∈ stored ∧ RaisedFor db row.id rules

structure Invariant (s : State) : Prop where
  recorded : Recorded s.db s.stored s.raised
  eventsHeld : ∀ id, (s.stored.map (·.1)).count id =
    (s.emitted.map (·.2)).count id + s.unreported.count id + held eventInHand s.calls id
  alertsHeld : ∀ id, s.raised.count id = s.jobs.count id + s.unqueued.count id + held alertsInHand s.calls id

theorem invariant_start (objects : Nat → WatchObject) (registry : Text → List Nat) : Invariant (start objects registry) where
  recorded :=
    { sound :=
        ⟨List.nodup_nil, List.nodup_nil, List.nodup_nil, List.forall_mem_nil _, List.forall_mem_nil _,
          List.forall_mem_nil _, List.forall_mem_nil _, List.forall_mem_nil _⟩
      storedNodup := List.nodup_nil
      raisedNodup := List.nodup_nil
      freshStored := List.forall_mem_nil _
      freshRaised := List.forall_mem_nil _
      matched := List.forall_mem_nil _ }
  eventsHeld _ := rfl
  alertsHeld _ := rfl

section History

variable {db after : Database} {stored : List (Nat × List Nat)} {raised : List Nat}

theorem Recorded.createWatch (h : Recorded db stored raised) {id : Nat} (hnew : ∀ row ∈ db.watches, row.id ≠ id) :
    Recorded { db with watches := db.watches ++ [⟨id, none⟩] } stored raised :=
  { h with
    sound := { h.sound with
      watched := by
        intro event hevent
        obtain ⟨row, hrow, hid⟩ := h.sound.watched event hevent
        exact ⟨row, List.mem_append_left _ hrow, hid⟩
      latest := by
        intro row hrow
        rcases List.mem_append.mp hrow with hold | hcreated
        · exact h.sound.latest row hold
        · rw [List.mem_singleton.mp hcreated]
          refine ⟨fun event hevent hid => ?_, nofun⟩
          obtain ⟨watch, hwatch, hsame⟩ := h.sound.watched event hevent
          exact absurd (hsame.trans hid) (hnew watch hwatch) } }

theorem Sound.deleteWatch (h : Sound db) (id : Nat) :
    Sound { db with
      watches := db.watches.filter fun row => row.id ≠ id
      events := db.events.filter fun row => row.watchId ≠ id
      alerts := db.alerts.filter fun row => row.watchId ≠ id } where
  eventIds := h.eventIds.sublist ((List.filter_sublist).map _)
  slots := h.slots.sublist ((List.filter_sublist).map _)
  alertSlots := h.alertSlots.sublist ((List.filter_sublist).map _)
  watched := by
    intro event hevent
    obtain ⟨hevent, hother⟩ := List.mem_filter.mp hevent
    obtain ⟨row, hrow, hid⟩ := h.watched event hevent
    exact ⟨row, List.mem_filter.mpr ⟨hrow, by rwa [hid]⟩, hid⟩
  owned := by
    intro alert halert
    obtain ⟨halert, hother⟩ := List.mem_filter.mp halert
    obtain ⟨event, hevent, hid, hwatch⟩ := h.owned alert halert
    exact ⟨event, List.mem_filter.mpr ⟨hevent, by rwa [hwatch]⟩, hid, hwatch⟩
  freshEvents event hevent := h.freshEvents event (List.mem_of_mem_filter hevent)
  freshAlerts alert halert := h.freshAlerts alert (List.mem_of_mem_filter halert)
  latest := by
    intro row hrow
    obtain ⟨hrow, hother⟩ := List.mem_filter.mp hrow
    obtain ⟨habove, hreached⟩ := h.latest row hrow
    refine ⟨fun event hevent => habove event (List.mem_of_mem_filter hevent), fun time htime => ?_⟩
    obtain ⟨event, hevent, hwatch, hat⟩ := hreached time htime
    exact ⟨event, List.mem_filter.mpr ⟨hevent, by rwa [hwatch]⟩, hwatch, hat⟩

/-- The rows of a watch go with it, and those of the others stay together. -/
theorem Recorded.deleteWatch (h : Recorded db stored raised) (id : Nat) :
    Recorded { db with
      watches := db.watches.filter fun row => row.id ≠ id
      events := db.events.filter fun row => row.watchId ≠ id
      alerts := db.alerts.filter fun row => row.watchId ≠ id } stored raised :=
  { h with
    sound := h.sound.deleteWatch id
    matched := by
      intro row hrow
      obtain ⟨hrow, hother⟩ := List.mem_filter.mp hrow
      obtain ⟨rules, hstored, hraised⟩ := h.matched row hrow
      refine ⟨rules, hstored, fun rule => (Iff.trans ?_ (hraised rule))⟩
      constructor
      · rintro ⟨alert, halert, hrest⟩
        exact ⟨alert, List.mem_of_mem_filter halert, hrest⟩
      · rintro ⟨alert, halert, hid, hrule⟩
        obtain ⟨event, hevent, hsame, hwatch⟩ := h.sound.owned alert halert
        have hrowEvent : event = row := List.inj_on_of_nodup_map h.sound.eventIds hevent hrow (hsame.trans hid)
        rw [hrowEvent] at hwatch
        exact ⟨alert, List.mem_filter.mpr ⟨halert, by rwa [← hwatch]⟩, hid, hrule⟩ }

variable {object : WatchObject} {event : NormalizedMonitorEvent} {row : WatchEvent} {alerts : List AlertEvent}

theorem nodup_append_fresh {ids new : List Nat} (next : Nat) (hids : ids.Nodup) (hold : ∀ id ∈ ids, id < next)
    (hnew : new.Nodup) (hfresh : ∀ id ∈ new, next ≤ id) : (ids ++ new).Nodup := by
  refine List.nodup_append.mpr ⟨hids, hnew, ?_⟩
  rintro id hid other hother rfl
  exact absurd (hold id hid) (not_lt.mpr (hfresh id hother))

/-- What a commit leaves in the tables is what matched, and it adds to the history. -/
theorem Recorded.persisted (h : Recorded db stored raised) (hnew : Persisted toLowerCase object event db after row alerts) :
    Recorded after (stored ++ [(row.id, matching toLowerCase object event)]) (raised ++ alerts.map AlertEvent.id) where
  sound := h.sound.persisted hnew
  storedNodup := by
    rw [List.map_append]
    refine nodup_append_fresh db.nextId h.storedNodup (fun id hid => ?_) (List.nodup_singleton _) fun id hid => ?_
    · obtain ⟨entry, hentry, rfl⟩ := List.mem_map.mp hid
      exact h.freshStored entry hentry
    · exact ((List.mem_singleton.mp hid).trans hnew.id_eq).ge
  raisedNodup := by
    rw [hnew.ids]
    refine nodup_append_fresh db.nextId h.raisedNodup h.freshRaised List.nodup_range' fun id hid => ?_
    have hrange := List.mem_range'_1.mp hid
    omega
  freshStored := by
    have hnext := hnew.nextId
    intro entry hentry
    rcases List.mem_append.mp hentry with hold | hadded
    · have hless := h.freshStored entry hold
      omega
    · rw [List.mem_singleton.mp hadded]
      have hid := hnew.id_eq
      dsimp only
      omega
  freshRaised := by
    have hnext := hnew.nextId
    intro alert halert
    rcases List.mem_append.mp halert with hold | hadded
    · have hless := h.freshRaised alert hold
      omega
    · rw [hnew.ids, List.mem_range'_1] at hadded
      omega
  matched := by
    intro other hother
    rw [hnew.events] at hother
    have hsplit (id rule : Nat) : (∃ alert ∈ after.alerts, alert.watchEventId = id ∧ alert.ruleId = rule) ↔
        (∃ alert ∈ db.alerts, alert.watchEventId = id ∧ alert.ruleId = rule) ∨
          ∃ alert ∈ alerts, alert.watchEventId = id ∧ alert.ruleId = rule := by
      rw [hnew.alerts]
      simp only [List.mem_append, or_and_right, exists_or]
    rcases List.mem_append.mp hother with hold | hadded
    · obtain ⟨rules, hstored, hraised⟩ := h.matched other hold
      refine ⟨rules, List.mem_append_left _ hstored, fun rule => (hsplit _ rule).trans ?_⟩
      rw [hraised rule]
      refine or_iff_left ?_
      rintro ⟨alert, halert, hid, -⟩
      have hless := h.sound.freshEvents other hold
      have hrow := (hnew.owner alert halert).2.trans hnew.id_eq
      omega
    · rw [List.mem_singleton.mp hadded]
      refine ⟨_, List.mem_append_right _ List.mem_cons_self, fun rule => (hsplit _ rule).trans ?_⟩
      rw [← hnew.mem_rules rule, List.mem_map]
      constructor
      · rintro (⟨alert, halert, hid, -⟩ | ⟨alert, halert, -, hrule⟩)
        · obtain ⟨owner, howner, hevent, -⟩ := h.sound.owned alert halert
          have hless := h.sound.freshEvents owner howner
          have hrow := hnew.id_eq
          omega
        · exact ⟨alert, halert, hrule⟩
      · rintro ⟨alert, halert, hrule⟩
        exact .inr ⟨alert, halert, (hnew.owner alert halert).2, hrule⟩

end History

section Steps

variable {s t : State} {i : Nat} {call next : Call}

/-- When one call goes on, what it does not hold any more has gone where it is counted. -/
theorem Invariant.advance (h : Invariant s) (hcall : s.calls[i]? = some call) (hcalls : t.calls = s.calls.set i next)
    (hrecorded : Recorded t.db t.stored t.raised)
    (hevents : ∀ id, (t.stored.map (·.1)).count id + (s.emitted.map (·.2)).count id + s.unreported.count id +
      (eventInHand call).count id =
        (s.stored.map (·.1)).count id + (t.emitted.map (·.2)).count id + t.unreported.count id + (eventInHand next).count id)
    (halerts : ∀ id, t.raised.count id + s.jobs.count id + s.unqueued.count id + (alertsInHand call).count id =
      s.raised.count id + t.jobs.count id + t.unqueued.count id + (alertsInHand next).count id) : Invariant t := by
  refine ⟨hrecorded, fun id => ?_, fun id => ?_⟩
  · have hset := held_set eventInHand hcall next id
    have hbefore := h.eventsHeld id
    have hbalance := hevents id
    rw [hcalls]
    omega
  · have hset := held_set alertsInHand hcall next id
    have hbefore := h.alertsHeld id
    have hbalance := halerts id
    rw [hcalls]
    omega

theorem invariant_persist (h : Invariant s) (hcall : s.calls[i]? = some call) {ref : Nat} {todo : List Nat} {outcome : Outcome}
    (hphase : call.phase = .persisting (ref :: todo))
    (hstep : stepPersist toLowerCase dateParse s i call ref todo outcome = some t) : Invariant t := by
  have hevent : eventInHand call = [] := by rw [eventInHand, hphase]
  have halert : alertsInHand call = [] := by rw [alertsInHand, hphase]
  simp only [stepPersist] at hstep
  split at hstep
  next =>
    obtain rfl := Option.some.inj hstep
    refine h.advance hcall rfl h.recorded (fun id => ?_) fun id => ?_
    · rw [hevent]; rfl
    · rw [halert]; rfl
  next => cases hstep
  next =>
    obtain rfl := Option.some.inj hstep
    refine h.advance hcall rfl h.recorded (fun id => ?_) fun id => ?_
    · rw [hevent]; rfl
    · rw [halert]; rfl
  next =>
    obtain rfl := Option.some.inj hstep
    refine h.advance hcall rfl h.recorded (fun id => ?_) fun id => ?_
    · rw [hevent]; rfl
    · rw [halert]; rfl
  next db row alerts hpersist =>
    have hnew := persistForWatch_inserted h.recorded.sound hpersist
    obtain rfl := Option.some.inj hstep
    refine h.advance hcall rfl (h.recorded.persisted hnew) (fun id => ?_) fun id => ?_
    · rw [hevent]
      simp [State.setCall, State.record, eventInHand, List.count_append]
      omega
    · rw [halert]
      simp [State.setCall, State.record, alertsInHand, List.count_append]
      omega
  next db row alerts hpersist =>
    have hnew := persistForWatch_inserted h.recorded.sound hpersist
    obtain rfl := Option.some.inj hstep
    refine h.advance hcall rfl (h.recorded.persisted hnew) (fun id => ?_) fun id => ?_
    · rw [hevent]
      simp [State.setCall, State.record, State.drop, eventInHand, List.count_append]
      omega
    · rw [halert]
      simp [State.setCall, State.record, State.drop, alertsInHand, List.count_append]
      omega

theorem invariant_emit (h : Invariant s) (hcall : s.calls[i]? = some call) {ref : Nat} {row : WatchEvent}
    {alerts : List AlertEvent} {todo : List Nat} (hphase : call.phase = .emitting ref row alerts todo) (ok : Bool)
    (hstep : stepCall toLowerCase dateParse s i call call.phase (.emit i ok) = some t) : Invariant t := by
  have hevent : eventInHand call = [row.id] := by rw [eventInHand, hphase]
  have halert : alertsInHand call = alerts.map AlertEvent.id := by rw [alertsInHand, hphase]
  rw [hphase] at hstep
  cases ok with
  | true =>
      obtain rfl := Option.some.inj hstep
      refine h.advance hcall rfl h.recorded (fun id => ?_) fun id => ?_
      · rw [hevent, eventInHand_enqueueNext]
        simp [State.setCall, List.count_append]
        omega
      · rw [halert, alertsInHand_enqueueNext]
        rfl
  | false =>
      obtain rfl := Option.some.inj hstep
      refine h.advance hcall rfl h.recorded (fun id => ?_) fun id => ?_
      · rw [hevent]
        simp [State.setCall, State.drop, eventInHand, List.count_append]
        omega
      · rw [halert]
        simp [State.setCall, State.drop, alertsInHand, List.count_append]
        omega

theorem invariant_enqueue (h : Invariant s) (hcall : s.calls[i]? = some call) {alert : Nat} {alerts todo : List Nat}
    (hphase : call.phase = .enqueuing alert alerts todo) (added : Bool)
    (hstep : stepCall toLowerCase dateParse s i call call.phase (.enqueue i added) = some t) : Invariant t := by
  have hevent : eventInHand call = [] := by rw [eventInHand, hphase]
  have halert : alertsInHand call = alert :: alerts := by rw [alertsInHand, hphase]
  rw [hphase] at hstep
  cases added with
  | true =>
      obtain rfl := Option.some.inj hstep
      refine h.advance hcall rfl h.recorded (fun id => ?_) fun id => ?_
      · rw [hevent, eventInHand_enqueueNext]
        rfl
      · rw [halert, alertsInHand_enqueueNext, List.count_cons]
        simp [State.setCall, List.count_append, List.count_cons]
        omega
  | false =>
      obtain rfl := Option.some.inj hstep
      refine h.advance hcall rfl h.recorded (fun id => ?_) fun id => ?_
      · rw [hevent, eventInHand_enqueueNext]
        simp [State.setCall, State.drop]
      · rw [halert, alertsInHand_enqueueNext, List.count_cons]
        simp [State.setCall, State.drop, List.count_append, List.count_cons]
        omega

/-- A call goes on by the act that its phase waits for. -/
theorem invariant_call (h : Invariant s) (hcall : s.calls[i]? = some call) {a : Act}
    (ha : (∃ outcome, a = .persist i outcome) ∨ (∃ ok, a = .emit i ok) ∨ ∃ added, a = .enqueue i added)
    (hstep : stepCall toLowerCase dateParse s i call call.phase a = some t) : Invariant t := by
  rcases ha with ⟨outcome, rfl⟩ | ⟨ok, rfl⟩ | ⟨added, rfl⟩
  · cases hphase : call.phase with
    | persisting todo =>
        rw [hphase] at hstep
        cases todo with
        | nil => cases hstep
        | cons ref todo => exact invariant_persist h hcall hphase hstep
    | emitting ref row alerts todo => rw [hphase] at hstep; cases hstep
    | enqueuing alert alerts todo => rw [hphase] at hstep; cases hstep
    | failed => rw [hphase] at hstep; cases hstep
  · cases hphase : call.phase with
    | emitting ref row alerts todo => exact invariant_emit h hcall hphase ok hstep
    | persisting todo => rw [hphase] at hstep; cases todo <;> cases hstep
    | enqueuing alert alerts todo => rw [hphase] at hstep; cases hstep
    | failed => rw [hphase] at hstep; cases hstep
  · cases hphase : call.phase with
    | enqueuing alert alerts todo => exact invariant_enqueue h hcall hphase added hstep
    | persisting todo => rw [hphase] at hstep; cases todo <;> cases hstep
    | emitting ref row alerts todo => rw [hphase] at hstep; cases hstep
    | failed => rw [hphase] at hstep; cases hstep

theorem invariant_step : Preserves (step localeCompare toLowerCase dateParse) always Invariant := by
  intro s a t h _ hstep
  cases a with
  | ingest key event =>
      obtain rfl := Option.some.inj hstep
      refine ⟨h.recorded, fun id => ?_, fun id => ?_⟩
      · rw [held_append, held_singleton]
        exact h.eventsHeld id
      · rw [held_append, held_singleton]
        exact h.alertsHeld id
  | change ref object =>
      obtain rfl := Option.some.inj hstep
      exact ⟨h.recorded, h.eventsHeld, h.alertsHeld⟩
  | register key refs =>
      obtain rfl := Option.some.inj hstep
      exact ⟨h.recorded, h.eventsHeld, h.alertsHeld⟩
  | createWatch id =>
      rw [step] at hstep
      split at hstep
      next => cases hstep
      next hnew =>
        obtain rfl := Option.some.inj hstep
        refine ⟨h.recorded.createWatch fun row hrow heq => hnew ?_, h.eventsHeld, h.alertsHeld⟩
        exact List.any_eq_true.mpr ⟨row, hrow, decide_eq_true heq⟩
  | deleteWatch id =>
      obtain rfl := Option.some.inj hstep
      exact ⟨h.recorded.deleteWatch id, h.eventsHeld, h.alertsHeld⟩
  | persist i outcome =>
      obtain ⟨call, hcall, hnext⟩ := Option.bind_eq_some_iff.mp hstep
      exact invariant_call h hcall (.inl ⟨outcome, rfl⟩) hnext
  | emit i ok =>
      obtain ⟨call, hcall, hnext⟩ := Option.bind_eq_some_iff.mp hstep
      exact invariant_call h hcall (.inr (.inl ⟨ok, rfl⟩)) hnext
  | enqueue i added =>
      obtain ⟨call, hcall, hnext⟩ := Option.bind_eq_some_iff.mp hstep
      exact invariant_call h hcall (.inr (.inr ⟨added, rfl⟩)) hnext

end Steps

end Savitools.Monitor.IngestedEvents
