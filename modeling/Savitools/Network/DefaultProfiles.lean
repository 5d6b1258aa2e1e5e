import Savitools.Stores.Keyed
import Savitools.Transitions.Runs
import Savitools.Web.NetworkProfileFormat

namespace Savitools.Network.DefaultProfiles

open Strings.CodeUnits Stores.Table Stores.Keyed Transitions.Runs Web.NetworkProfileFormat

/-- The columns of `network_profiles` but for its key and the two dates. -/
structure Columns where
  ownerId : Nat
  name : Text
  horizonUrl : Text
  networkPassphrase : Text
  friendbotUrl : Option Text
  isDefault : Bool
deriving DecidableEq

structure NetworkProfile extends Columns where
  id : Nat
deriving DecidableEq

/-- What is saved; without a key it is inserted. -/
structure Entity extends Columns where
  id : Option Nat
deriving DecidableEq

abbrev Profiles := KeyedRows NetworkProfile.id

structure CreateInput where
  name : Text
  horizonUrl : Text
  networkPassphrase : Text
  friendbotUrl : Option Text
  isDefault : Option Bool
deriving DecidableEq

/-- The URL of the friendbot may be `null`, which is not the same as left out. -/
structure UpdateInput where
  name : Option Text
  horizonUrl : Option Text
  networkPassphrase : Option Text
  friendbotUrl : Option (Option Text)
  isDefault : Option Bool
deriving DecidableEq

inductive Change
  | updateNetworkProfile (input : UpdateInput)
  | setDefaultNetworkProfile
deriving DecidableEq

inductive Request
  | createNetworkProfile (input : CreateInput)
  | change (id : Nat) (change : Change)
deriving DecidableEq

/-- The await points of a call, each with what it goes on with: the profile is found, the passphrase of
its Horizon is asked for, the defaults of the owner are cleared, and the profile is saved. -/
inductive Phase
  | finding (id : Nat) (change : Change)
  | asserting (horizonUrl networkPassphrase : Text) (clears : Bool) (entity : Entity)
  | clearing (entity : Entity)
  | saving (entity : Entity)
  | returned (profile : NetworkProfile)
  | failed
deriving DecidableEq

/-- The profiles that the call's own update took the default from are history: no step reads them. -/
structure Call where
  ownerId : Nat
  phase : Phase
  cleared : List Nat := []
deriving DecidableEq

structure State where
  profiles : Profiles
  calls : List Call := []

/-- An await is answered, or it rejects. -/
inductive Act
  | call (ownerId : Nat) (request : Request)
  | resume (call : Nat)
  | reject (call : Nat)
deriving DecidableEq

/-- `if (input.isDefault)`, and then the save. -/
def proceed (clears : Bool) (entity : Entity) : Phase := if clears then .clearing entity else .saving entity

def createNetworkProfile (ownerId : Nat) (input : CreateInput) : Phase :=
  let horizonUrl := withoutSlashes (trim input.horizonUrl)
  .asserting horizonUrl input.networkPassphrase (input.isDefault.getD false)
    { ownerId := ownerId
      name := input.name
      horizonUrl := horizonUrl
      networkPassphrase := input.networkPassphrase
      friendbotUrl := input.friendbotUrl
      isDefault := input.isDefault.getD false
      id := none }

def updateNetworkProfile (profile : NetworkProfile) (input : UpdateInput) : Phase :=
  let nextHorizonUrl :=
    if input.horizonUrl.getD [] = [] then profile.horizonUrl else withoutSlashes (trim (input.horizonUrl.getD []))
  let nextPassphrase := input.networkPassphrase.getD profile.networkPassphrase
  let clears := input.isDefault.getD false
  let entity : Entity :=
    { ownerId := profile.ownerId
      name := input.name.getD profile.name
      horizonUrl := nextHorizonUrl
      networkPassphrase := nextPassphrase
      friendbotUrl := input.friendbotUrl.getD profile.friendbotUrl
      isDefault := input.isDefault.getD profile.isDefault
      id := some profile.id }
  if input.horizonUrl.getD [] ≠ [] ∨ input.networkPassphrase.getD [] ≠ [] then
    .asserting nextHorizonUrl nextPassphrase clears entity
  else proceed clears entity

def setDefaultNetworkProfile (profile : NetworkProfile) : Phase :=
  .clearing { profile.toColumns with isDefault := true, id := some profile.id }

def loaded (profile : NetworkProfile) : Change → Phase
  | .updateNetworkProfile input => updateNetworkProfile profile input
  | .setDefaultNetworkProfile => setDefaultNetworkProfile profile

def getNetworkProfile (profiles : Profiles) (ownerId id : Nat) : Option NetworkProfile :=
  (profiles.get? id).filter fun profile => profile.ownerId = ownerId

def notDefault (profile : NetworkProfile) : NetworkProfile := { profile with isDefault := false }

/-- `update({ ownerId }, { isDefault: false })` -/
def clearDefaults (profiles : Profiles) (ownerId : Nat) : Profiles :=
  ⟨update (fun profile => profile.ownerId = ownerId) notDefault profiles.rows, by
    rw [map_update (f := notDefault) fun _ _ => rfl]
    exact profiles.nodup⟩

/-- The defaults of an owner. -/
def defaultsOf (profiles : Profiles) (ownerId : Nat) : List Nat :=
  (profiles.rows.filter fun profile => profile.ownerId = ownerId ∧ profile.isDefault).map NetworkProfile.id

/-- Another profile of the owner has the name. -/
def conflicts (profiles : Profiles) (entity : Entity) : Bool :=
  profiles.rows.any fun profile =>
    profile.ownerId = entity.ownerId ∧ profile.name = entity.name ∧ some profile.id ≠ entity.id

/-- A key that no profile has. -/
def freshId (profiles : Profiles) : Nat := (profiles.rows.map NetworkProfile.id).foldr max 0 + 1

/-- The row that a save writes. -/
def saved (profiles : Profiles) (entity : Entity) : NetworkProfile :=
  { entity.toColumns with id := entity.id.getD (freshId profiles) }

def State.callAt (s : State) (call : Nat) (c : Call) : State := { s with calls := s.calls.set call c }

def resume (s : State) (call : Nat) (c : Call) : Phase → Option State
  | .finding id change =>
      some (s.callAt call { c with
        phase := ((getNetworkProfile s.profiles c.ownerId id).map fun profile => loaded profile change).getD .failed })
  | .asserting _ _ clears entity => some (s.callAt call { c with phase := proceed clears entity })
  | .clearing entity =>
      some ({ s with profiles := clearDefaults s.profiles c.ownerId }.callAt call
        { c with phase := .saving entity, cleared := defaultsOf s.profiles c.ownerId })
  | .saving entity =>
      if conflicts s.profiles entity then some (s.callAt call { c with phase := .failed })
      else
        some ({ s with profiles := s.profiles.put (saved s.profiles entity) }.callAt call
          { c with phase := .returned (saved s.profiles entity) })
  | .returned _ | .failed => none

def reject (s : State) (call : Nat) (c : Call) : Phase → Option State
  | .returned _ | .failed => none
  | _ => some (s.callAt call { c with phase := .failed })

def begin (ownerId : Nat) : Request → Phase
  | .createNetworkProfile input => createNetworkProfile ownerId input
  | .change id change => .finding id change

def step : Step State Act
  | s, .call ownerId request => some { s with calls := s.calls ++ [{ ownerId := ownerId, phase := begin ownerId request }] }
  | s, .resume call => s.calls[call]?.bind fun c => resume s call c c.phase
  | s, .reject call => s.calls[call]?.bind fun c => reject s call c c.phase

def AtMostOne (profiles : Profiles) : Prop :=
  ∀ profile ∈ profiles.rows, ∀ other ∈ profiles.rows, profile.ownerId = other.ownerId →
    profile.isDefault = true → other.isDefault = true → profile = other

/-- No call that has failed has taken the default from a profile. -/
def FailsCleanly (s : State) : Prop := ∀ c ∈ s.calls, c.phase = .failed → c.cleared = []

def Phase.Ended : Phase → Prop
  | .returned _ | .failed => True
  | _ => False

instance : DecidablePred Phase.Ended := fun phase => by
  cases phase <;> unfold Phase.Ended <;> infer_instance

def Quiescent (s : State) : Prop := ∀ c ∈ s.calls, c.phase.Ended

/-- An owner has at most one default whenever no call is in flight, and a call that fails takes none away. -/
def Consistent (s : State) : Prop := (Quiescent s → AtMostOne s.profiles) ∧ FailsCleanly s

/-- The entity is not to be the default, or no other profile of its owner is it. -/
def Only (profiles : Profiles) (entity : Entity) : Prop :=
  entity.isDefault = true → ∀ profile ∈ profiles.rows, profile.ownerId = entity.ownerId →
    profile.isDefault = true → some profile.id = entity.id

def SavesSafely (profiles : Profiles) (cleared : List Nat) : Phase → Prop
  | .saving entity => if conflicts profiles entity then cleared = [] else Only profiles entity
  | _ => True

/-- A save does not fail once its call has cleared a default, and one that makes a profile the default comes
while no other profile of the owner is it. -/
def Safe (s : State) : Act → Prop
  | .call _ _ => True
  | .resume call => ∀ c ∈ s.calls[call]?, SavesSafely s.profiles c.cleared c.phase
  | .reject call => ∀ c ∈ s.calls[call]?, c.cleared = []

theorem mem_put {profiles : Profiles} {row profile : NetworkProfile} :
    profile ∈ (profiles.put row).rows ↔ profile = row ∨ profile ∈ profiles.rows ∧ profile.id ≠ row.id := by
  rw [KeyedRows.put]
  split
  next h =>
    simp only [mem_update, decide_eq_true_eq]
    constructor
    · rintro ⟨q, hq, rfl⟩
      by_cases hkey : q.id = row.id
      · exact .inl (if_pos hkey)
      · rw [if_neg hkey]
        exact .inr ⟨hq, hkey⟩
    · rintro (rfl | ⟨hmem, hkey⟩)
      · obtain ⟨q, hq, hkey⟩ := List.mem_map.mp h
        exact ⟨q, hq, (if_pos hkey).symm⟩
      · exact ⟨profile, hmem, (if_neg hkey).symm⟩
  next h =>
    rw [KeyedRows.insert, List.mem_append, List.mem_singleton, or_comm]
    refine or_congr_right ⟨fun hmem => ⟨hmem, fun hkey => h ?_⟩, And.left⟩
    exact hkey ▸ List.mem_map_of_mem hmem

theorem id_lt_freshId {profiles : Profiles} {profile : NetworkProfile} (h : profile ∈ profiles.rows) :
    profile.id < freshId profiles := by
  have hle (ids : List Nat) {id : Nat} (hid : id ∈ ids) : id ≤ ids.foldr max 0 := by
    induction ids with
    | nil => cases hid
    | cons first ids ih =>
        rw [List.foldr_cons]
        rcases List.mem_cons.mp hid with rfl | hid
        · exact Nat.le_max_left _ _
        · exact (ih hid).trans (Nat.le_max_right _ _)
  exact Nat.lt_succ_of_le (hle _ (List.mem_map_of_mem h))

theorem id_saved_iff {profiles : Profiles} {entity : Entity} {profile : NetworkProfile} (h : profile ∈ profiles.rows) :
    profile.id = (saved profiles entity).id ↔ some profile.id = entity.id := by
  rw [saved]
  cases hid : entity.id with
  | none => exact iff_of_false (Nat.ne_of_lt (id_lt_freshId h)) (Option.some_ne_none _)
  | some id => simp

theorem AtMostOne.put_iff {profiles : Profiles} (h : AtMostOne profiles) (entity : Entity) :
    AtMostOne (profiles.put (saved profiles entity)) ↔ Only profiles entity := by
  constructor
  · intro hput hdefault profile hmem howner hother
    by_contra hid
    have hne := mt (id_saved_iff hmem).mp hid
    have heq := hput profile (mem_put.mpr (.inr ⟨hmem, hne⟩)) _ (mem_put.mpr (.inl rfl)) howner hother hdefault
    exact hne (congrArg NetworkProfile.id heq)
  · intro honly profile hprofile other hother howner hdefault hdefault'
    rcases mem_put.mp hprofile with rfl | ⟨hmem, hne⟩
    · rcases mem_put.mp hother with rfl | ⟨hmem', hne'⟩
      · rfl
      · exact absurd ((id_saved_iff hmem').mpr (honly hdefault other hmem' howner.symm hdefault')) hne'
    · rcases mem_put.mp hother with rfl | ⟨hmem', hne'⟩
      · exact absurd ((id_saved_iff hmem).mpr (honly hdefault' profile hmem howner hdefault)) hne
      · exact h profile hmem other hmem' howner hdefault hdefault'

theorem mem_clearDefaults {profiles : Profiles} {ownerId : Nat} {profile : NetworkProfile} :
    profile ∈ (clearDefaults profiles ownerId).rows ∧ profile.isDefault = true ↔
      profile ∈ profiles.rows ∧ profile.isDefault = true ∧ profile.ownerId ≠ ownerId := by
  simp only [clearDefaults, mem_update, decide_eq_true_eq]
  constructor
  · rintro ⟨⟨q, hq, rfl⟩, hdefault⟩
    by_cases howner : q.ownerId = ownerId
    · rw [if_pos howner] at hdefault
      cases hdefault
    · rw [if_neg howner] at hdefault ⊢
      exact ⟨hq, hdefault, howner⟩
  · rintro ⟨hmem, hdefault, howner⟩
    exact ⟨⟨profile, hmem, (if_neg howner).symm⟩, hdefault⟩

theorem AtMostOne.clearDefaults {profiles : Profiles} (h : AtMostOne profiles) (ownerId : Nat) :
    AtMostOne (clearDefaults profiles ownerId) := by
  intro profile hprofile other hother howner hdefault hdefault'
  exact h profile (mem_clearDefaults.mp ⟨hprofile, hdefault⟩).1 other (mem_clearDefaults.mp ⟨hother, hdefault'⟩).1 howner
    hdefault hdefault'

theorem FailsCleanly.callAt_iff {s : State} (hs : FailsCleanly s) {call : Nat} {c d : Call} (hc : s.calls[call]? = some c) :
    FailsCleanly (s.callAt call d) ↔ (d.phase = .failed → d.cleared = []) := by
  obtain ⟨hlt, -⟩ := List.getElem?_eq_some_iff.mp hc
  constructor
  · intro h
    exact h d (List.mem_set hlt d)
  · intro h e he
    rcases List.mem_or_eq_of_mem_set he with he | rfl
    · exact hs e he
    · exact h

/-- Before its save a call has cleared nothing. -/
def Unwritten : Phase → Prop
  | .finding _ _ | .asserting _ _ _ _ | .clearing _ => True
  | _ => False

def Fresh (s : State) : Prop := ∀ c ∈ s.calls, Unwritten c.phase → c.cleared = []

theorem Fresh.callAt {s : State} (hs : Fresh s) (call : Nat) {c : Call} (hc : Unwritten c.phase → c.cleared = []) :
    Fresh (s.callAt call c) := by
  intro d hd
  rcases List.mem_or_eq_of_mem_set hd with hd | rfl
  · exact hs d hd
  · exact hc

/-- What one step does, other than begin a call. -/
theorem fresh_preserved : Preserves step always Fresh := by
  intro s act t hs _ ht
  cases act with
  | call ownerId request =>
      cases ht
      intro c hc
      rcases List.mem_append.mp hc with hc | hc
      · exact hs c hc
      · obtain rfl := List.mem_singleton.mp hc
        exact fun _ => rfl
  | resume call =>
      obtain ⟨c, hc, ht⟩ := Option.bind_eq_some_iff.mp ht
      have hcleared := hs c (List.mem_of_getElem? hc)
      cases hphase : c.phase with
      | finding id change =>
          rw [hphase] at ht hcleared
          cases ht
          exact hs.callAt call fun _ => hcleared trivial
      | asserting url passphrase clears entity =>
          rw [hphase] at ht hcleared
          cases ht
          exact hs.callAt call fun _ => hcleared trivial
      | clearing entity =>
          rw [hphase] at ht
          cases ht
          have hwritten : Fresh { s with profiles := clearDefaults s.profiles c.ownerId } := hs
          exact hwritten.callAt call False.elim
      | saving entity =>
          rw [hphase, resume] at ht
          split at ht
          next =>
            cases ht
            exact hs.callAt call False.elim
          next =>
            cases ht
            have hwritten : Fresh { s with profiles := s.profiles.put (saved s.profiles entity) } := hs
            exact hwritten.callAt call False.elim
      | returned profile =>
          rw [hphase] at ht
          cases ht
      | failed =>
          rw [hphase] at ht
          cases ht
  | reject call =>
      obtain ⟨c, hc, ht⟩ := Option.bind_eq_some_iff.mp ht
      rw [reject.eq_def] at ht
      split at ht
      next => cases ht
      next => cases ht
      next =>
        cases ht
        exact hs.callAt call False.elim

/-- A step leaves a state as it should be exactly when it meets the condition. -/
theorem step_safe_iff (s : State) (act : Act) (t : State) (hfresh : Fresh s)
    (hs : AtMostOne s.profiles ∧ FailsCleanly s) (ht : step s act = some t) :
    AtMostOne t.profiles ∧ FailsCleanly t ↔ Safe s act := by
  obtain ⟨hone, hclean⟩ := hs
  cases act with
  | call ownerId request =>
      cases ht
      refine iff_of_true ⟨hone, fun c hc => ?_⟩ trivial
      rcases List.mem_append.mp hc with hc | hc
      · exact hclean c hc
      · obtain rfl := List.mem_singleton.mp hc
        exact fun _ => rfl
  | resume call =>
      obtain ⟨c, hc, ht⟩ := Option.bind_eq_some_iff.mp ht
      have hcleared := hfresh c (List.mem_of_getElem? hc)
      simp only [Safe, hc, Option.mem_some_iff, forall_eq']
      cases hphase : c.phase with
      | finding id change =>
          rw [hphase] at ht hcleared
          cases ht
          refine iff_of_true ⟨hone, (hclean.callAt_iff hc).mpr fun _ => hcleared trivial⟩ trivial
      | asserting url passphrase clears entity =>
          rw [hphase] at ht hcleared
          cases ht
          refine iff_of_true ⟨hone, (hclean.callAt_iff hc).mpr fun _ => hcleared trivial⟩ trivial
      | clearing entity =>
          rw [hphase] at ht
          cases ht
          have hclean' : FailsCleanly { s with profiles := clearDefaults s.profiles c.ownerId } := hclean
          refine iff_of_true ⟨hone.clearDefaults _, (hclean'.callAt_iff hc).mpr fun h => ?_⟩ trivial
          cases h
      | saving entity =>
          rw [hphase, resume] at ht
          rw [SavesSafely]
          split at ht
          next hconflicts =>
            cases ht
            rw [if_pos hconflicts, hclean.callAt_iff hc]
            exact ⟨fun h => h.2 rfl, fun h => ⟨hone, fun _ => h⟩⟩
          next hconflicts =>
            cases ht
            rw [if_neg hconflicts, ← hone.put_iff]
            have hclean' : FailsCleanly { s with profiles := s.profiles.put (saved s.profiles entity) } := hclean
            refine ⟨And.left, fun h => ⟨h, (hclean'.callAt_iff hc).mpr fun h => ?_⟩⟩
            cases h
      | returned profile =>
          rw [hphase] at ht
          cases ht
      | failed =>
          rw [hphase] at ht
          cases ht
  | reject call =>
      obtain ⟨c, hc, ht⟩ := Option.bind_eq_some_iff.mp ht
      simp only [Safe, hc, Option.mem_some_iff, forall_eq']
      have hfailed : t = s.callAt call { c with phase := .failed } := by
        rw [reject.eq_def] at ht
        split at ht
        next => cases ht
        next => cases ht
        next => exact (Option.some.inj ht).symm
      rw [hfailed]
      exact ⟨fun h => (hclean.callAt_iff hc (d := { c with phase := .failed })).mp h.2 rfl, fun h => ⟨hone, (hclean.callAt_iff hc).mpr fun _ => h⟩⟩

/-- In every state of a run each owner has at most one default, and no call that has failed has taken one
away, exactly when every step meets the condition. -/
theorem defaults_iff {profiles : Profiles} (hone : AtMostOne profiles) (acts : List Act) :
    Throughout step (fun s => AtMostOne s.profiles ∧ FailsCleanly s) { profiles := profiles } acts ↔
      Guarded step Safe { profiles := profiles } acts := by
  have hempty (s : State) (hs : s.calls = []) : Fresh s ∧ FailsCleanly s := by
    constructor <;> intro c hc <;> rw [hs] at hc <;> cases hc
  obtain ⟨hfresh, hclean⟩ := hempty { profiles := profiles } rfl
  exact throughout_iff_guarded_of_inv fresh_preserved step_safe_iff hfresh ⟨hone, hclean⟩ acts

def ComesThrough (profiles : Profiles) : Phase → Bool
  | .saving entity => !conflicts profiles entity
  | _ => true

/-- A call begins when no other is in flight, and no save fails. -/
def Alone (s : State) : Act → Prop
  | .call _ _ => Quiescent s
  | .resume call => ∀ c ∈ s.calls[call]?, ComesThrough s.profiles c.phase = true
  | .reject call => ∀ c ∈ s.calls[call]?, c.cleared = []

instance decidableAlone (s : State) : ∀ act, Decidable (Alone s act)
  | .call _ _ => inferInstanceAs (Decidable (∀ c ∈ s.calls, c.phase.Ended))
  | .resume call => inferInstanceAs (Decidable (∀ c ∈ s.calls[call]?, ComesThrough s.profiles c.phase = true))
  | .reject call => inferInstanceAs (Decidable (∀ c ∈ s.calls[call]?, c.cleared = []))

/-- The entity is that of a profile of the owner, and unless a clearing is to come it may be saved. -/
def Ready (profiles : Profiles) (ownerId : Nat) : Phase → Prop
  | .finding _ _ | .returned _ | .failed => True
  | .clearing entity => entity.ownerId = ownerId
  | .asserting _ _ clears entity => entity.ownerId = ownerId ∧ (clears = false → Only profiles entity)
  | .saving entity => entity.ownerId = ownerId ∧ Only profiles entity

structure Serial (s : State) : Prop where
  one : AtMostOne s.profiles
  single : ∀ (i : Nat) (c : Call), s.calls[i]? = some c → ¬c.phase.Ended →
    ∀ (j : Nat) (d : Call), s.calls[j]? = some d → j ≠ i → d.phase.Ended
  ready : ∀ c ∈ s.calls, Ready s.profiles c.ownerId c.phase

theorem ready_of_ended {profiles : Profiles} {ownerId : Nat} {phase : Phase} (h : phase.Ended) :
    Ready profiles ownerId phase := by
  cases phase with
  | returned profile => trivial
  | failed => trivial
  | _ => exact h.elim

theorem ready_proceed {profiles : Profiles} {ownerId : Nat} {clears : Bool} {entity : Entity}
    (howner : entity.ownerId = ownerId) (honly : clears = false → Only profiles entity) :
    Ready profiles ownerId (proceed clears entity) := by
  cases clears with
  | false => exact ⟨howner, honly rfl⟩
  | true => exact howner

theorem ready_begin {profiles : Profiles} {ownerId : Nat} (request : Request) :
    Ready profiles ownerId (begin ownerId request) := by
  cases request with
  | createNetworkProfile input =>
      refine ⟨rfl, fun hclears hdefault => ?_⟩
      exact absurd (hclears.symm.trans hdefault) Bool.false_ne_true
  | change id change => trivial

theorem ready_loaded {profiles : Profiles} (hone : AtMostOne profiles) {ownerId id : Nat} {profile : NetworkProfile}
    (h : getNetworkProfile profiles ownerId id = some profile) (change : Change) :
    Ready profiles ownerId (loaded profile change) := by
  obtain ⟨hget, howner⟩ := Option.filter_eq_some_iff.mp h
  have hmem := (KeyedRows.get?_eq_some.mp hget).1
  have howner : profile.ownerId = ownerId := by simpa using howner
  cases change with
  | setDefaultNetworkProfile => exact howner
  | updateNetworkProfile input =>
      have honly (clears : Bool) (hclears : clears = input.isDefault.getD false) {entity : Entity}
          (hid : entity.id = some profile.id) (howner' : entity.ownerId = profile.ownerId)
          (hdefault : entity.isDefault = input.isDefault.getD profile.isDefault) :
          clears = false → Only profiles entity := by
        intro hkept hsaved other hother hsame hdefault'
        have hcarried : profile.isDefault = true := by
          rw [hdefault] at hsaved
          rw [hclears] at hkept
          cases hinput : input.isDefault with
          | none => simpa [hinput] using hsaved
          | some b =>
              rw [hinput] at hsaved hkept
              exact absurd (hkept.symm.trans hsaved) Bool.false_ne_true
        rw [hid, hone other hother profile hmem (hsame.trans howner') hdefault' hcarried]
      rw [loaded, updateNetworkProfile]
      split
      next => exact ⟨howner, honly _ rfl rfl rfl rfl⟩
      next => exact ready_proceed howner (honly _ rfl rfl rfl rfl)

theorem Serial.callAt {s : State} (hs : Serial s) {call : Nat} {c d : Call} (hc : s.calls[call]? = some c)
    (hflight : ¬c.phase.Ended) {profiles : Profiles} (hone : AtMostOne profiles)
    (hd : Ready profiles d.ownerId d.phase) : Serial ({ s with profiles := profiles }.callAt call d) := by
  have hothers := hs.single call c hc hflight
  obtain ⟨hlt, -⟩ := List.getElem?_eq_some_iff.mp hc
  have hget {i : Nat} {e : Call} (he : ({ s with profiles := profiles }.callAt call d).calls[i]? = some e) :
      i = call ∧ e = d ∨ i ≠ call ∧ e.phase.Ended := by
    rw [State.callAt, List.getElem?_set] at he
    by_cases hi : call = i
    · rw [if_pos hi, if_pos (hi ▸ hlt)] at he
      exact .inl ⟨hi.symm, (Option.some.inj he).symm⟩
    · rw [if_neg hi] at he
      exact .inr ⟨Ne.symm hi, hothers i e he (Ne.symm hi)⟩
  refine ⟨hone, fun i e he hflies j f hf hne => ?_, fun e he => ?_⟩
  · rcases hget he with ⟨rfl, -⟩ | ⟨-, hended⟩
    · rcases hget hf with ⟨hj, -⟩ | ⟨-, hended⟩
      · exact absurd hj hne
      · exact hended
    · exact absurd hended hflies
  · obtain ⟨i, hi⟩ := List.getElem?_of_mem he
    rcases hget hi with ⟨-, rfl⟩ | ⟨-, hended⟩
    · exact hd
    · exact ready_of_ended hended

theorem serial_preserved : Preserves step Alone Serial := by
  intro s act t hs halone ht
  cases act with
  | call ownerId request =>
      cases ht
      refine ⟨hs.one, fun i c hc hflight j d hd hne => ?_, fun c hc => ?_⟩
      · have hold {k : Nat} {e : Call} (he : (s.calls ++ [⟨ownerId, begin ownerId request, []⟩])[k]? = some e)
            (hk : k ≠ s.calls.length) : e.phase.Ended := by
          have hlt : k < s.calls.length := by
            have hlength := (List.getElem?_eq_some_iff.mp he).1
            rw [List.length_append, List.length_singleton] at hlength
            omega
          rw [List.getElem?_append_left hlt] at he
          exact halone e (List.mem_of_getElem? he)
        by_cases hi : i = s.calls.length
        · exact hold hd (hi ▸ hne)
        · exact absurd (hold hc hi) hflight
      · rcases List.mem_append.mp hc with hc | hc
        · exact hs.ready c hc
        · obtain rfl := List.mem_singleton.mp hc
          exact ready_begin request
  | resume call =>
      obtain ⟨c, hc, ht⟩ := Option.bind_eq_some_iff.mp ht
      have hready := hs.ready c (List.mem_of_getElem? hc)
      cases hphase : c.phase with
      | finding id change =>
          rw [hphase] at ht
          cases ht
          refine hs.callAt hc (by rw [hphase]; exact fun h => h) hs.one ?_
          cases hfound : getNetworkProfile s.profiles c.ownerId id with
          | none => trivial
          | some profile => exact ready_loaded hs.one hfound change
      | asserting url passphrase clears entity =>
          rw [hphase] at ht hready
          cases ht
          exact hs.callAt hc (by rw [hphase]; exact fun h => h) hs.one (ready_proceed hready.1 hready.2)
      | clearing entity =>
          rw [hphase] at ht hready
          cases ht
          refine hs.callAt hc (by rw [hphase]; exact fun h => h) (hs.one.clearDefaults _) ⟨hready, ?_⟩
          intro _ profile hmem howner hdefault
          exact absurd (howner.trans hready) (mem_clearDefaults.mp ⟨hmem, hdefault⟩).2.2
      | saving entity =>
          have hthrough := halone c hc
          rw [hphase, ComesThrough, Bool.not_eq_true'] at hthrough
          rw [hphase, resume, if_neg (by rw [hthrough]; exact Bool.false_ne_true)] at ht
          rw [hphase] at hready
          cases ht
          exact hs.callAt hc (by rw [hphase]; exact fun h => h) ((hs.one.put_iff entity).mpr hready.2) trivial
      | returned profile =>
          rw [hphase] at ht
          cases ht
      | failed =>
          rw [hphase] at ht
          cases ht
  | reject call =>
      obtain ⟨c, hc, ht⟩ := Option.bind_eq_some_iff.mp ht
      rw [reject.eq_def] at ht
      split at ht
      next => cases ht
      next => cases ht
      next hreturned hfailed =>
        cases ht
        refine hs.callAt hc (fun hended => ?_) hs.one trivial
        cases hphase : c.phase with
        | returned profile => exact hreturned profile hphase
        | failed => exact hfailed hphase
        | _ =>
            rw [hphase] at hended
            exact hended

/-- Calls that are made one after another meet the condition as long as no save fails. -/
theorem alone_safe {profiles : Profiles} (hone : AtMostOne profiles) {acts : List Act}
    (h : Guarded step Alone { profiles := profiles } acts) : Guarded step Safe { profiles := profiles } acts := by
  have hstart : Serial { profiles := profiles } :=
    ⟨hone, fun i c hc => by simp at hc, fun c hc => by cases hc⟩
  refine serial_preserved.guarded (fun s act hs halone => ?_) hstart h
  cases act with
  | call ownerId request => trivial
  | resume call =>
      intro c hc
      have hready := hs.ready c (List.mem_of_getElem? hc)
      have hthrough := halone c hc
      cases hphase : c.phase with
      | saving entity =>
          rw [hphase] at hready hthrough
          rw [ComesThrough, Bool.not_eq_true'] at hthrough
          rw [SavesSafely, hthrough, if_neg Bool.false_ne_true]
          exact hready.2
      | _ => trivial
  | reject call => exact halone

/-- In a run whose steps all meet the condition an owner has at most one default whenever no call is in flight, and no
call that has failed has taken one away; and it is exactly in these runs that this holds while calls are in flight too. -/
theorem defaults_consistent {profiles : Profiles} (hone : AtMostOne profiles) (acts : List Act) :
    (Guarded step Safe { profiles := profiles } acts → Throughout step Consistent { profiles := profiles } acts) ∧
      (Throughout step (fun s => AtMostOne s.profiles ∧ FailsCleanly s) { profiles := profiles } acts ↔
        Guarded step Safe { profiles := profiles } acts) := by
  have hiff := defaults_iff hone acts
  exact ⟨fun h => (hiff.mpr h).imp fun s hs => ⟨fun _ => hs.1, hs.2⟩, hiff⟩

/-- Two profiles of one owner, of which the first is the default. -/
def sampleProfiles : Profiles :=
  ⟨[{ ownerId := 7, name := text "main", horizonUrl := text "https://h.org", networkPassphrase := text "P",
      friendbotUrl := none, isDefault := true, id := 1 },
    { ownerId := 7, name := text "spare", horizonUrl := text "https://h.org", networkPassphrase := text "P",
      friendbotUrl := none, isDefault := false, id := 2 }], by simp⟩

theorem atMostOne_sample : AtMostOne sampleProfiles := by
  simp [AtMostOne, sampleProfiles]

def setsDefault (id : Nat) : Act := .call 7 (.change id .setDefaultNetworkProfile)

def createsDefault (name : Text) : Act :=
  .call 7 (.createNetworkProfile
    { name := name
      horizonUrl := text "https://h.org/"
      networkPassphrase := text "P"
      friendbotUrl := none
      isDefault := some true })

/-- The default is moved to the second profile, and a new one is made the default after that. -/
theorem sample_consistent : Throughout step Consistent { profiles := sampleProfiles }
    [setsDefault 2, .resume 0, .resume 0, .resume 0, createsDefault (text "new"), .resume 1, .resume 1, .resume 1] := by
  exact (defaults_consistent atMostOne_sample _).1 (alone_safe atMostOne_sample (by decide))

/-- Two calls that clear before either saves leave two defaults; and a call whose name is taken fails after
it has cleared the default. -/
theorem not_consistent :
    (¬∀ (profiles : Profiles) (acts : List Act) (s : State), AtMostOne profiles →
      run step { profiles := profiles } acts = some s → Quiescent s → AtMostOne s.profiles) ∧
    ¬∀ (profiles : Profiles) (acts : List Act) (s : State), AtMostOne profiles →
      run step { profiles := profiles } acts = some s → FailsCleanly s := by
  constructor
  · intro h
    obtain ⟨s, hr, hp⟩ := exists_of_run_any step { profiles := sampleProfiles }
      [setsDefault 1, setsDefault 2, .resume 0, .resume 0, .resume 1, .resume 1, .resume 0, .resume 1]
      (fun s => decide (∀ c ∈ s.calls, c.phase.Ended) &&
        s.profiles.rows.any (fun profile => profile.id = 1 ∧ profile.ownerId = 7 ∧ profile.isDefault) &&
        s.profiles.rows.any fun profile => profile.id = 2 ∧ profile.ownerId = 7 ∧ profile.isDefault) (by decide)
    simp only [Bool.and_eq_true, decide_eq_true_eq, List.any_eq_true] at hp
    obtain ⟨⟨hquiet, first, hfirst, hid, howner, hdefault⟩, second, hsecond, hid', howner', hdefault'⟩ := hp
    have heq := h _ _ s atMostOne_sample hr hquiet first hfirst second hsecond (howner.trans howner'.symm) hdefault hdefault'
    rw [heq, hid'] at hid
    cases hid
  · intro h
    obtain ⟨s, hr, hp⟩ := exists_of_run_any step { profiles := sampleProfiles }
      [createsDefault (text "main"), .resume 0, .resume 0, .resume 0]
      (fun s => s.calls.any fun c => decide (c.phase = .failed ∧ c.cleared = [1])) (by decide)
    obtain ⟨c, hc, hfailed⟩ := List.any_eq_true.mp hp
    obtain ⟨hphase, hcleared⟩ := of_decide_eq_true hfailed
    have hnone := h _ _ s atMostOne_sample hr c hc hphase
    rw [hcleared] at hnone
    cases hnone

end Savitools.Network.DefaultProfiles
