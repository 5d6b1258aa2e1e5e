import Savitools.Dates.IsoTexts
import Savitools.Json.Conversions
import Savitools.Stores.Groups
import Mathlib.Algebra.Order.Group.Int

namespace Savitools.Monitor.DigestGroups

open Strings.CodeUnits Json.Numbers Json.Values Json.Conversions Dates.IsoTexts Stores.Entries Stores.Groups

structure AlertRuleDefinition where
  id : Text
  type : Text

/-- What a digest reads of a watch. -/
structure Watch where
  label : Option Text
  publicKey : Text
  alertRules : List AlertRuleDefinition
  alertState : List (Text × Bool)

structure AlertEvent where
  id : Text
  watchId : Text
  ruleId : Text
  watch : Option Watch
  payload : Option (List (Text × Value Number))
  createdAt : Option Int

structure DigestAlertEntry where
  id : Text
  ruleId : Text
  ruleType : Value Number
  watchId : Text
  watchLabel : Text
  createdAt : Text
  isUnresolved : Bool
  isRefiring : Bool
  summary : Text
  payload : List (Text × Value Number)

structure DigestRuleGroup where
  ruleId : Text
  ruleType : Value Number
  totalAlerts : Nat
  unresolvedCount : Nat
  refiringCount : Nat
  alerts : List DigestAlertEntry
  truncatedCount : Nat

structure DigestWatchGroup where
  watchId : Text
  watchLabel : Text
  publicKey : Text
  rules : List DigestRuleGroup
  totalAlerts : Nat

structure DigestPayload where
  flushId : Text
  timestamp : Text
  timezone : Text
  totalAlerts : Nat
  displayedAlerts : Nat
  summarizedCount : Nat
  groups : List DigestWatchGroup

def truthy (v : Value Number) : Bool := v.truthy fun n => n == .finite 0

/-- `payload?.[name]` -/
def payloadMember (alert : AlertEvent) (name : Text) : Option (Value Number) := alert.payload.bind (·.lookup name)

def flagged (alert : AlertEvent) (names : List Text) : Bool := names.any fun name => (payloadMember alert name).any truthy

/-- `ruleDef?.type || payload?.type || 'alert'` -/
def ruleTypeOf (alert : AlertEvent) : Value Number :=
  let ruleDef := alert.watch.bind fun watch => watch.alertRules.find? fun r => r.id = alert.ruleId
  let defined := (ruleDef.map fun r => Value.str r.type).filter truthy
  (defined.or ((payloadMember alert (text "type")).filter truthy)).getD (.str (text "alert"))

/-- `watch?.label || watch?.publicKey || watchId` -/
def labelOf (watch : Option Watch) (watchId : Text) : Text :=
  let label := (watch.bind Watch.label).filter (· ≠ [])
  (label.or ((watch.map Watch.publicKey).filter (· ≠ []))).getD watchId

/-- `p[name] ?? fallback` in a text -/
def shown (p : List (Text × Value Number)) (names : List Text) (fallback : Text) : Text :=
  let present (name : Text) : Option Text := match p.lookup name with
    | none | some .null => none
    | some v => some (stringOf v)
  (names.findSome? present).getD fallback

def buildAlertSummary (alert : AlertEvent) (ruleType : Value Number) (isUnresolved isRefiring : Bool) : Text :=
  let mark :=
    if isRefiring then [text "[Re-firing]"] else if isUnresolved then [text "[Unresolved]"] else []
  let p := alert.payload.getD []
  let isOneOf (types : List Text) : Bool := types.any fun t => ruleType.strictEqText t
  let told :=
    if isOneOf [text "balance_below", text "balance_above"] then
      text "Balance " ++ shown p [text "observedValue"] (text "unknown") ++ unit ' ' :: shown p [text "asset"] (text "XLM") ++
        text " (threshold: " ++ shown p [text "threshold"] (text "?") ++ text ")"
    else if isOneOf [text "amount_received_gte", text "asset_received"] then
      text "Received " ++ shown p [text "amount", text "receivedAmount"] [] ++ unit ' ' :: shown p [text "asset"] []
    else if isOneOf [text "tx_failed", text "failed_contract_call"] then
      text "Failed transaction: " ++ shown p [text "transactionHash"] alert.id
    else text "Rule " ++ stringOf ruleType ++ text " triggered"
  trim (join (unit ' ') (mark ++ [told]))

structure WatchEntry where
  watch : Option Watch
  rules : List (Text × List DigestAlertEntry)

/-- The two collections that the loop over the alerts fills. -/
structure Collection where
  watchMap : List (Text × WatchEntry) := []
  seenRuleIds : List Text := []

def ruleKey (alert : AlertEvent) : Text := alert.watchId ++ unit ':' :: alert.ruleId

/-- The entry of an alert; the clock stands still while a digest is made. -/
def digestEntry (now : Int) (seenRuleIds : List Text) (alert : AlertEvent) : DigestAlertEntry :=
  let ruleType := ruleTypeOf alert
  let isStateRule :=
    [text "balance_above", text "balance_below", text "transaction_count"].any fun t => ruleType.strictEqText t
  let isCurrentlyActive := ((alert.watch.bind fun watch => watch.alertState.lookup alert.ruleId).getD false)
  let isUnresolved := isCurrentlyActive || flagged alert [text "unresolved", text "isUnresolved"]
  let isRefiring := flagged alert [text "refiring", text "isRefiring"] ||
    (isStateRule && seenRuleIds.contains (ruleKey alert) && isCurrentlyActive)
  { id := alert.id
    ruleId := alert.ruleId
    ruleType := ruleType
    watchId := alert.watchId
    watchLabel := labelOf alert.watch alert.watchId
    createdAt := toISOString (alert.createdAt.getD now)
    isUnresolved := isUnresolved
    isRefiring := isRefiring
    summary := buildAlertSummary alert ruleType isUnresolved isRefiring
    payload := alert.payload.getD [] }

def watchEntryOf (collection : Collection) (alert : AlertEvent) : WatchEntry :=
  (collection.watchMap.lookup alert.watchId).getD ⟨alert.watch, []⟩

def addAlert (now : Int) (collection : Collection) (alert : AlertEvent) : Collection :=
  let watchEntry := watchEntryOf collection alert
  let entry := digestEntry now collection.seenRuleIds alert
  { watchMap := put alert.watchId { watchEntry with rules := push alert.ruleId entry watchEntry.rules } collection.watchMap
    seenRuleIds := ruleKey alert :: collection.seenRuleIds }

def collect (now : Int) (alerts : List AlertEvent) : Collection := alerts.foldl (addAlert now) {}

def ruleGroup (maxAlerts : Int) (displayedCount : Nat) (rule : Text × List DigestAlertEntry) : DigestRuleGroup :=
  let availableSlots := (max 0 (maxAlerts - displayedCount)).toNat
  let displayed := rule.2.take availableSlots
  { ruleId := rule.1
    ruleType := ((displayed.head?.map DigestAlertEntry.ruleType).filter truthy).getD (.str (text "alert"))
    totalAlerts := rule.2.length
    unresolvedCount := rule.2.countP DigestAlertEntry.isUnresolved
    refiringCount := rule.2.countP DigestAlertEntry.isRefiring
    alerts := displayed
    truncatedCount := rule.2.length - displayed.length }

/-- The inner loop, with the number of alerts displayed so far. -/
def ruleGroups (maxAlerts : Int) : Nat → List (Text × List DigestAlertEntry) → List DigestRuleGroup × Nat
  | displayedCount, [] => ([], displayedCount)
  | displayedCount, rule :: rules =>
      let group := ruleGroup maxAlerts displayedCount rule
      let (groups, after) := ruleGroups maxAlerts (displayedCount + group.alerts.length) rules
      (group :: groups, after)

/-- The outer loop. -/
def watchGroups (maxAlerts : Int) : Nat → List (Text × WatchEntry) → List DigestWatchGroup × Nat
  | displayedCount, [] => ([], displayedCount)
  | displayedCount, (watchId, entry) :: entries =>
      let (rules, between) := ruleGroups maxAlerts displayedCount entry.rules
      let (groups, after) := watchGroups maxAlerts between entries
      ({ watchId := watchId
         watchLabel := labelOf entry.watch watchId
         publicKey := (entry.watch.map Watch.publicKey).getD []
         rules := rules
         totalAlerts := (entry.rules.map (·.2.length)).sum } :: groups, after)

def groupAlerts (alerts : List AlertEvent) (maxAlerts : Int) (timezone flushId : Text) (now : Int) : DigestPayload :=
  let (groups, displayedCount) := watchGroups maxAlerts 0 (collect now alerts).watchMap
  { flushId := flushId
    timestamp := toISOString now
    timezone := timezone
    totalAlerts := alerts.length
    displayedAlerts := displayedCount
    summarizedCount := alerts.length - displayedCount
    groups := groups }

end Savitools.Monitor.DigestGroups

namespace Savitools.Monitor.DigestCounts

open Strings.CodeUnits Stores.Entries Stores.Groups DigestGroups

/-- The alerts of one watch and rule. -/
def inGroup (alerts : List AlertEvent) (watchId ruleId : Text) : List AlertEvent :=
  alerts.filter fun alert => alert.watchId = watchId ∧ alert.ruleId = ruleId

def entriesOf (now : Int) : List Text → List AlertEvent → List DigestAlertEntry
  | _, [] => []
  | seen, alert :: alerts => digestEntry now seen alert :: entriesOf now (ruleKey alert :: seen) alerts

def ofWatch (entries : List DigestAlertEntry) (watchId : Text) : List DigestAlertEntry :=
  entries.filter fun entry => entry.watchId == watchId

theorem length_entriesOf (now : Int) (alerts : List AlertEvent) : ∀ seen, (entriesOf now seen alerts).length = alerts.length := by
  induction alerts with
  | nil => exact fun _ => rfl
  | cons alert alerts ih => exact fun seen => congrArg Nat.succ (ih _)

/-- The entries of a watch and rule are those of its alerts, in their order. -/
theorem ids_entriesOf (now : Int) (watchId ruleId : Text) (alerts : List AlertEvent) : ∀ seen,
    ((ofWatch (entriesOf now seen alerts) watchId).filter fun entry => entry.ruleId == ruleId).map DigestAlertEntry.id =
      (inGroup alerts watchId ruleId).map AlertEvent.id := by
  induction alerts with
  | nil => exact fun _ => rfl
  | cons alert alerts ih =>
      intro seen
      have hrest := ih (ruleKey alert :: seen)
      simp only [ofWatch, inGroup, entriesOf, List.filter_filter, List.filter_cons, digestEntry] at hrest ⊢
      by_cases hwatch : alert.watchId = watchId
      · by_cases hrule : alert.ruleId = ruleId
        · simpa [hwatch, hrule] using hrest
        · simpa [hwatch, hrule] using hrest
      · simpa [hwatch] using hrest

theorem exists_entry (now : Int) {alert : AlertEvent} {alerts : List AlertEvent} : ∀ {seen : List Text}, alert ∈ alerts →
    ∃ entry ∈ entriesOf now seen alerts, entry.watchId = alert.watchId ∧ entry.ruleId = alert.ruleId := by
  induction alerts with
  | nil => exact nofun
  | cons first alerts ih =>
      intro seen h
      rcases List.mem_cons.mp h with rfl | h
      · exact ⟨_, List.mem_cons_self, rfl, rfl⟩
      · obtain ⟨entry, hentry, hkeys⟩ := ih h
        exact ⟨entry, List.mem_cons_of_mem _ hentry, hkeys⟩

/-- What the loop over the alerts keeps: under every watch that was seen, its entries are grouped by their rules. -/
structure Collected (watchMap : List (Text × WatchEntry)) (entries : List DigestAlertEntry) : Prop where
  nodup : (watchMap.map (·.1)).Nodup
  rules : ∀ w ∈ watchMap, Grouped DigestAlertEntry.ruleId (ofWatch entries w.1) w.2.rules
  covers : ∀ entry ∈ entries, entry.watchId ∈ watchMap.map (·.1)

theorem ofWatch_concat (entries : List DigestAlertEntry) (entry : DigestAlertEntry) (watchId : Text) :
    ofWatch (entries ++ [entry]) watchId =
      if entry.watchId = watchId then ofWatch entries watchId ++ [entry] else ofWatch entries watchId := by
  rw [ofWatch, List.filter_append, List.filter_singleton, ← ofWatch]
  by_cases hwatch : entry.watchId = watchId
  · simp [hwatch]
  · simp [hwatch, beq_false_of_ne hwatch]

theorem Collected.rules_watchEntryOf {collection : Collection} {entries : List DigestAlertEntry}
    (h : Collected collection.watchMap entries) (alert : AlertEvent) :
    Grouped DigestAlertEntry.ruleId (ofWatch entries alert.watchId) (watchEntryOf collection alert).rules := by
  rw [watchEntryOf]
  cases hfound : collection.watchMap.lookup alert.watchId with
  | some entry => exact h.rules _ (mem_of_lookup hfound)
  | none =>
      have hnone : ofWatch entries alert.watchId = [] := by
        refine List.filter_eq_nil_iff.mpr fun entry hentry hwatch => ?_
        have hmem := h.covers entry hentry
        rw [eq_of_beq hwatch, ← lookup_isSome_iff, hfound] at hmem
        cases hmem
      rw [hnone]
      exact grouped_nil _

theorem Collected.addAlert {collection : Collection} {entries : List DigestAlertEntry}
    (h : Collected collection.watchMap entries) (now : Int) (alert : AlertEvent) :
    Collected (addAlert now collection alert).watchMap (entries ++ [digestEntry now collection.seenRuleIds alert]) where
  nodup := nodup_put h.nodup
  rules := by
    rintro ⟨watchId, entry⟩ hw
    rw [ofWatch_concat]
    rcases mem_put h.nodup (show _ ∈ put _ _ collection.watchMap from hw) with ⟨rfl, rfl⟩ | ⟨hne, hw⟩
    · exact (if_pos rfl).symm ▸ (h.rules_watchEntryOf alert).push (digestEntry now collection.seenRuleIds alert)
    · exact (if_neg (Ne.symm hne)).symm ▸ h.rules _ hw
  covers entry hentry := by
    rw [DigestGroups.addAlert, mem_keys_put]
    rcases List.mem_append.mp hentry with hentry | hentry
    · exact .inr (h.covers entry hentry)
    · obtain rfl := List.mem_singleton.mp hentry
      exact .inl rfl

theorem Collected.foldl {now : Int} {alerts : List AlertEvent} : ∀ {collection : Collection} {entries : List DigestAlertEntry},
    Collected collection.watchMap entries → Collected (alerts.foldl (DigestGroups.addAlert now) collection).watchMap
      (entries ++ entriesOf now collection.seenRuleIds alerts) := by
  induction alerts with
  | nil =>
      intro collection entries h
      rw [entriesOf, List.append_nil]
      exact h
  | cons alert alerts ih =>
      intro collection entries h
      have hnext := ih (h.addAlert now alert)
      rwa [List.append_assoc] at hnext

theorem collected (now : Int) (alerts : List AlertEvent) :
    Collected (collect now alerts).watchMap (entriesOf now [] alerts) := by
  have hempty : Collected ({} : Collection).watchMap [] := ⟨List.nodup_nil, nofun, nofun⟩
  exact hempty.foldl

/-- Every entry is under one of the watches. -/
theorem Collected.sum_length {watchMap : List (Text × WatchEntry)} {entries : List DigestAlertEntry}
    (h : Collected watchMap entries) :
    (watchMap.map fun w => (w.2.rules.map (·.2.length)).sum).sum = entries.length := by
  have hwatches : Grouped DigestAlertEntry.watchId entries (watchMap.map fun w => (w.1, ofWatch entries w.1)) := {
    nodup := by
      rw [List.map_map]
      exact h.nodup
    group := fun g hg => by
      obtain ⟨w, -, rfl⟩ := List.mem_map.mp hg
      rfl
    covers := fun entry hentry => by
      rw [List.map_map]
      exact h.covers entry hentry }
  rw [← hwatches.sum_length, List.map_map]
  exact congrArg List.sum (List.map_congr_left fun w hw => (h.rules w hw).sum_length)

/-- A group of the digest shows the first entries of its rule, and counts the others. -/
structure Shows (rule : Text × List DigestAlertEntry) (group : DigestRuleGroup) : Prop where
  ruleId : group.ruleId = rule.1
  total : group.totalAlerts = rule.2.length
  alerts : group.alerts = rule.2.take group.alerts.length
  truncated : group.alerts.length + group.truncatedCount = rule.2.length

def displayedIn (groups : List DigestRuleGroup) : Nat := (groups.map (·.alerts.length)).sum

def truncatedIn (groups : List DigestRuleGroup) : Nat := (groups.map DigestRuleGroup.truncatedCount).sum

theorem shows_ruleGroup (maxAlerts : Int) (displayedCount : Nat) (rule : Text × List DigestAlertEntry) :
    Shows rule (ruleGroup maxAlerts displayedCount rule) where
  ruleId := rfl
  total := rfl
  alerts := by simp [ruleGroup]
  truncated := by
    simp only [ruleGroup, List.length_take]
    omega

theorem displayed_ruleGroup (maxAlerts : Int) (displayedCount : Nat) (rule : Text × List DigestAlertEntry) :
    ((displayedCount + (ruleGroup maxAlerts displayedCount rule).alerts.length : Nat) : Int) ≤
      max (displayedCount : Int) maxAlerts := by
  simp only [ruleGroup, List.length_take]
  omega

theorem ruleGroups_spec (maxAlerts : Int) (rules : List (Text × List DigestAlertEntry)) : ∀ displayedCount,
    List.Forall₂ Shows rules (ruleGroups maxAlerts displayedCount rules).1 ∧
      (ruleGroups maxAlerts displayedCount rules).2 =
        displayedCount + displayedIn (ruleGroups maxAlerts displayedCount rules).1 ∧
      ((ruleGroups maxAlerts displayedCount rules).2 : Int) ≤ max (displayedCount : Int) maxAlerts := by
  induction rules with
  | nil => exact fun displayedCount => ⟨.nil, rfl, le_max_left _ _⟩
  | cons rule rules ih =>
      intro displayedCount
      obtain ⟨hshows, hafter, hbound⟩ := ih (displayedCount + (ruleGroup maxAlerts displayedCount rule).alerts.length)
      have hfirst := displayed_ruleGroup maxAlerts displayedCount rule
      simp only [ruleGroups, displayedIn, List.map_cons, List.sum_cons] at hafter ⊢
      refine ⟨.cons (shows_ruleGroup maxAlerts displayedCount rule) hshows, ?_, ?_⟩
      · rw [hafter, Nat.add_assoc]
      · exact hbound.trans (max_le hfirst (le_max_right _ _))

structure ShowsWatch (w : Text × WatchEntry) (group : DigestWatchGroup) : Prop where
  watchId : group.watchId = w.1
  total : group.totalAlerts = (w.2.rules.map (·.2.length)).sum
  rules : List.Forall₂ Shows w.2.rules group.rules

theorem watchGroups_spec (maxAlerts : Int) (entries : List (Text × WatchEntry)) : ∀ displayedCount,
    List.Forall₂ ShowsWatch entries (watchGroups maxAlerts displayedCount entries).1 ∧
      (watchGroups maxAlerts displayedCount entries).2 =
        displayedCount + ((watchGroups maxAlerts displayedCount entries).1.map fun g => displayedIn g.rules).sum ∧
      ((watchGroups maxAlerts displayedCount entries).2 : Int) ≤ max (displayedCount : Int) maxAlerts := by
  induction entries with
  | nil => exact fun displayedCount => ⟨.nil, rfl, le_max_left _ _⟩
  | cons w entries ih =>
      intro displayedCount
      obtain ⟨hrules, hbetween, hfirst⟩ := ruleGroups_spec maxAlerts w.2.rules displayedCount
      obtain ⟨hshows, hafter, hbound⟩ := ih (ruleGroups maxAlerts displayedCount w.2.rules).2
      simp only [watchGroups, List.map_cons, List.sum_cons] at hafter ⊢
      refine ⟨.cons ⟨rfl, rfl, hrules⟩ hshows, ?_, ?_⟩
      · rw [hafter, hbetween, Nat.add_assoc]
      · exact hbound.trans (max_le hfirst (le_max_right _ _))

/-- In a group every alert is displayed or counted as truncated. -/
theorem displayed_add_truncated {rules : List (Text × List DigestAlertEntry)} {groups : List DigestRuleGroup}
    (h : List.Forall₂ Shows rules groups) :
    displayedIn groups + truncatedIn groups = (rules.map (·.2.length)).sum := by
  induction h with
  | nil => rfl
  | cons hshows _ ih =>
      have hrule := hshows.truncated
      simp only [displayedIn, truncatedIn, List.map_cons, List.sum_cons] at ih ⊢
      omega

theorem sums_of_shows {entries : List (Text × WatchEntry)} {groups : List DigestWatchGroup}
    (h : List.Forall₂ ShowsWatch entries groups) :
    (groups.map fun g => displayedIn g.rules).sum + (groups.map fun g => truncatedIn g.rules).sum =
        (groups.map DigestWatchGroup.totalAlerts).sum ∧
      (groups.map DigestWatchGroup.totalAlerts).sum = (entries.map fun w => (w.2.rules.map (·.2.length)).sum).sum := by
  induction h with
  | nil => exact ⟨rfl, rfl⟩
  | cons hshows _ ih =>
      have hgroup := displayed_add_truncated hshows.rules
      have htotal := hshows.total
      simp only [List.map_cons, List.sum_cons]
      omega

/-- Every alert is in one group, which shows the first of its alerts in their order; what is not
displayed is summarised, in the groups and altogether. -/
structure Conserves (alerts : List AlertEvent) (maxAlerts : Int) (digest : DigestPayload) : Prop where
  watches : (digest.groups.map DigestWatchGroup.watchId).Nodup
  rules : ∀ g ∈ digest.groups, (g.rules.map DigestRuleGroup.ruleId).Nodup
  placed : ∀ alert ∈ alerts, ∃ g ∈ digest.groups, g.watchId = alert.watchId ∧ ∃ r ∈ g.rules, r.ruleId = alert.ruleId
  inOrder : ∀ g ∈ digest.groups, ∀ r ∈ g.rules, ∃ entries : List DigestAlertEntry,
    entries.map DigestAlertEntry.id = (inGroup alerts g.watchId r.ruleId).map AlertEvent.id ∧
      r.totalAlerts = entries.length ∧ r.alerts = entries.take r.alerts.length
  bounded : (digest.displayedAlerts : Int) ≤ max 0 maxAlerts
  displayed : (digest.groups.map fun g => displayedIn g.rules).sum = digest.displayedAlerts
  truncated : (digest.groups.map fun g => truncatedIn g.rules).sum = digest.summarizedCount
  totals : (digest.groups.map DigestWatchGroup.totalAlerts).sum = digest.totalAlerts
  total : digest.totalAlerts = alerts.length
  summarized : digest.displayedAlerts + digest.summarizedCount = digest.totalAlerts

theorem exists_left {α β : Type} {R : α → β → Prop} {xs : List α} {ys : List β} {y : β} (h : List.Forall₂ R xs ys)
    (hy : y ∈ ys) : ∃ x ∈ xs, R x y := by
  induction h with
  | nil => cases hy
  | @cons first _ xs _ hfirst _ ih =>
      rcases List.mem_cons.mp hy with rfl | hy
      · exact ⟨first, List.mem_cons_self, hfirst⟩
      · obtain ⟨x, hx, hr⟩ := ih hy
        exact ⟨x, List.mem_cons_of_mem _ hx, hr⟩

theorem exists_right {α β : Type} {R : α → β → Prop} {xs : List α} {ys : List β} {x : α} (h : List.Forall₂ R xs ys)
    (hx : x ∈ xs) : ∃ y ∈ ys, R x y :=
  exists_left h.flip hx

theorem watchIds_of_shows {entries : List (Text × WatchEntry)} {groups : List DigestWatchGroup}
    (h : List.Forall₂ ShowsWatch entries groups) : groups.map DigestWatchGroup.watchId = entries.map (·.1) := by
  induction h with
  | nil => rfl
  | cons hshows _ ih => rw [List.map_cons, List.map_cons, ih, hshows.watchId]

theorem ruleIds_of_shows {rules : List (Text × List DigestAlertEntry)} {groups : List DigestRuleGroup}
    (h : List.Forall₂ Shows rules groups) : groups.map DigestRuleGroup.ruleId = rules.map (·.1) := by
  induction h with
  | nil => rfl
  | cons hshows _ ih => rw [List.map_cons, List.map_cons, ih, hshows.ruleId]

/-- Digest grouping conserves alerts. -/
theorem groupAlerts_conserves (alerts : List AlertEvent) (maxAlerts : Int) (timezone flushId : Text) (now : Int) :
    Conserves alerts maxAlerts (groupAlerts alerts maxAlerts timezone flushId now) := by
  have hcollected := collected now alerts
  obtain ⟨hshows, hdisplayed, hbound⟩ := watchGroups_spec maxAlerts (collect now alerts).watchMap 0
  obtain ⟨hsplit, htotals⟩ := sums_of_shows hshows
  rw [hcollected.sum_length, length_entriesOf] at htotals
  rw [Nat.zero_add] at hdisplayed
  have hids := watchIds_of_shows hshows
  refine {
    watches := hids ▸ hcollected.nodup
    rules := fun g hg => ?_
    placed := fun alert halert => ?_
    inOrder := fun g hg r hr => ?_
    bounded := hbound
    displayed := hdisplayed.symm
    truncated := ?_
    totals := htotals
    total := rfl
    summarized := ?_ }
  · obtain ⟨w, hw, hgroup⟩ := exists_left hshows hg
    rw [ruleIds_of_shows hgroup.rules]
    exact (hcollected.rules w hw).nodup
  · obtain ⟨entry, hentry, hwatch, hrule⟩ := exists_entry now halert
    obtain ⟨w, hw, hkey⟩ := List.mem_map.mp (hcollected.covers entry hentry)
    obtain ⟨g, hg, hgroup⟩ := exists_right hshows hw
    have hof : entry ∈ ofWatch (entriesOf now [] alerts) w.1 := List.mem_filter.mpr ⟨hentry, by simp [hkey]⟩
    obtain ⟨rule, hmem, hrulekey⟩ := List.mem_map.mp ((hcollected.rules w hw).covers entry hof)
    obtain ⟨r, hr, hshown⟩ := exists_right hgroup.rules hmem
    exact ⟨g, hg, hgroup.watchId.trans (hkey.trans hwatch), r, hr, hshown.ruleId.trans (hrulekey.trans hrule)⟩
  · obtain ⟨w, hw, hgroup⟩ := exists_left hshows hg
    obtain ⟨rule, hmem, hshown⟩ := exists_left hgroup.rules hr
    refine ⟨rule.2, ?_, hshown.total, hshown.alerts⟩
    rw [(hcollected.rules w hw).group rule hmem, hgroup.watchId, hshown.ruleId]
    exact ids_entriesOf now w.1 rule.1 alerts []
  · simp only [groupAlerts]
    omega
  · simp only [groupAlerts]
    omega

end Savitools.Monitor.DigestCounts
