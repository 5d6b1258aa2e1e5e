import Savitools.Strings.CodeUnits
import Savitools.Transitions.Runs

namespace Savitools.Workspaces.ShareLinks

open Strings.CodeUnits Transitions.Runs

/-- The columns of a workspace that the calls on it read or write. Share tokens are drawn from a
supply of unused values. -/
structure Workspace (D : Type) where
  name : Option Text
  data : D
  shareToken : Option Nat
  shareExpiresAt : Option Nat
deriving DecidableEq

inductive Change (D : Type)
  | updateWorkspaceData (data : D)
  | renameWorkspace (name : Text)
  | shareWorkspace (expiresInDays : Nat)
  | unshareWorkspace
deriving DecidableEq

/-- The await points of a call: it loads the row, asks for another workspace of the new name if it
is a rename, and saves. -/
inductive Phase (D : Type)
  | started
  | naming (workspace : Workspace D)
  | saving (workspace : Workspace D)
  | ended
deriving DecidableEq

structure Call (D : Type) where
  change : Change D
  phase : Phase D
deriving DecidableEq

/-- The row of one workspace and the calls on it. The other rows of the table enter only by what the
question for a name gives. -/
structure State (D : Type) where
  row : Workspace D
  calls : List (Call D) := []
  fresh : Nat := 0
deriving DecidableEq

/-- An await is answered at some time of the clock, and the question for a name with yes or no; or
it rejects, as when the row is not found or the save violates a constraint. -/
inductive Act (D : Type)
  | call (change : Change D)
  | resume (call : Nat) (now : Nat) (taken : Bool)
  | fail (call : Nat)
deriving DecidableEq

variable {D : Type}

/-- What `createWorkspace` saves. -/
def created (name : Text) (data : D) : State D where
  row := { name := some name, data := data, shareToken := none, shareExpiresAt := none }

def State.callAt (s : State D) (call : Nat) (change : Change D) (phase : Phase D) : State D :=
  { s with calls := s.calls.set call ⟨change, phase⟩ }

/-- The row is loaded, and the call goes on to its next await. -/
def load (s : State D) (call now : Nat) : Change D → State D
  | .updateWorkspaceData data => s.callAt call (.updateWorkspaceData data) (.saving { s.row with data := data })
  | .renameWorkspace name =>
      s.callAt call (.renameWorkspace name) (if s.row.name = some (trim name) then .ended else .naming s.row)
  | .shareWorkspace expiresInDays =>
      { s with fresh := s.fresh + 1 }.callAt call (.shareWorkspace expiresInDays) (.saving { s.row with
        shareToken := some s.fresh
        shareExpiresAt := some (now + expiresInDays * 24 * 60 * 60 * 1000) })
  | .unshareWorkspace =>
      s.callAt call .unshareWorkspace (.saving { s.row with shareToken := none, shareExpiresAt := none })

def resume (s : State D) (call now : Nat) (taken : Bool) (change : Change D) : Phase D → Option (State D)
  | .started => some (load s call now change)
  | .naming workspace =>
      match change with
      | .renameWorkspace name =>
          some (s.callAt call change (if taken then .ended else .saving { workspace with name := some (trim name) }))
      | _ => none
  -- The save is of the whole row.
  | .saving workspace => some ({ s with row := workspace }.callAt call change .ended)
  | .ended => none

variable [DecidableEq D]

def step : Step (State D) (Act D)
  | s, .call change => some { s with calls := s.calls ++ [⟨change, .started⟩] }
  | s, .resume call now taken => s.calls[call]?.bind (fun c => resume s call now taken c.change c.phase)
  | s, .fail call => s.calls[call]?.bind (fun c => if c.phase = .ended then none else some (s.callAt call c.change .ended))

/-- The workspace when the token is its own and has not expired. What is handed out has its data
sanitized besides. -/
def getSharedWorkspace (row : Workspace D) (now token : Nat) : Option (Workspace D) :=
  if row.shareToken = some token ∧ ¬row.shareExpiresAt.any (· < now) then some row else none

end Savitools.Workspaces.ShareLinks

namespace Savitools.Workspaces.RevokedLinks

open Strings.CodeUnits Transitions.Runs ShareLinks

variable {D : Type}

/-- The token that the save of a call, when it comes, writes into the row. -/
def Call.held (call : Call D) : Option Nat :=
  match call.phase with
  | .naming workspace | .saving workspace => workspace.shareToken
  | .started | .ended => none

/-- No call can bring the token back. -/
structure Dead (token : Nat) (s : State D) : Prop where
  issued : token < s.fresh
  row : s.row.shareToken ≠ some token
  calls : ∀ call ∈ s.calls, Call.held call ≠ some token

/-- The call is about to save the row without its link. -/
def Unshares (s : State D) (call : Nat) : Prop :=
  ∃ workspace, s.calls[call]? = some ⟨.unshareWorkspace, .saving workspace⟩

/-- In no run from the state the token gives the workspace again. -/
def StaysRevoked [DecidableEq D] (token : Nat) (s : State D) : Prop :=
  ∀ acts t, run step s acts = some t → ∀ now, getSharedWorkspace t.row now token = none

theorem getSharedWorkspace_eq_none {row : Workspace D} {now token : Nat} (h : row.shareToken ≠ some token) :
    getSharedWorkspace row now token = none :=
  if_neg fun hfound => h hfound.1

theorem Dead.callAt {token : Nat} {s : State D} (hs : Dead token s) (call : Nat) (change : Change D) {phase : Phase D}
    (hheld : Call.held ⟨change, phase⟩ ≠ some token) : Dead token (s.callAt call change phase) := by
  refine ⟨hs.issued, hs.row, fun c hc => ?_⟩
  rcases List.mem_or_eq_of_mem_set hc with hc | rfl
  · exact hs.calls c hc
  · exact hheld

theorem Dead.load {token : Nat} {s : State D} (hs : Dead token s) (call now : Nat) (change : Change D) :
    Dead token (load s call now change) := by
  cases change with
  | updateWorkspaceData data => exact hs.callAt call _ hs.row
  | renameWorkspace name =>
      refine hs.callAt call _ ?_
      split
      · exact nofun
      · exact hs.row
  | shareWorkspace expiresInDays =>
      have hdrawn : Dead token { s with fresh := s.fresh + 1 } := ⟨Nat.lt_succ_of_lt hs.issued, hs.row, hs.calls⟩
      -- the token that is drawn is none of those issued before
      exact hdrawn.callAt call _ fun h => absurd (Option.some.inj h) (Nat.ne_of_gt hs.issued)
  | unshareWorkspace => exact hs.callAt call _ nofun

theorem Dead.resume {token : Nat} {s t : State D} (hs : Dead token s) {call now : Nat} {taken : Bool} {c : Call D}
    (hc : c ∈ s.calls) (ht : resume s call now taken c.change c.phase = some t) : Dead token t := by
  have hheld := hs.calls c hc
  obtain ⟨change, phase⟩ := c
  cases phase with
  | started =>
      cases ht
      exact hs.load call now change
  | naming workspace =>
      cases change with
      | renameWorkspace name =>
          cases ht
          refine hs.callAt call _ ?_
          split
          · exact nofun
          · exact hheld
      | _ => cases ht
  | saving workspace =>
      cases ht
      have hsaved : Dead token { s with row := workspace } := ⟨hs.issued, hheld, hs.calls⟩
      exact hsaved.callAt call change nofun
  | ended => cases ht

/-- Only a rename asks for a name, and what an unshare saves has no link. -/
def Call.Fits (call : Call D) : Prop :=
  match call.change, call.phase with
  | .renameWorkspace _, .naming _ => True
  | _, .naming _ => False
  | .unshareWorkspace, .saving workspace => workspace.shareToken = none
  | _, _ => True

def Fitting (s : State D) : Prop := ∀ call ∈ s.calls, Call.Fits call

theorem Fitting.callAt {s : State D} (hs : Fitting s) (call : Nat) {change : Change D} {phase : Phase D}
    (hfits : Call.Fits ⟨change, phase⟩) : Fitting (s.callAt call change phase) := fun c hc => by
  rcases List.mem_or_eq_of_mem_set hc with hc | rfl
  · exact hs c hc
  · exact hfits

theorem fits_ended (change : Change D) : Call.Fits ⟨change, .ended⟩ := by
  cases change <;> trivial

theorem Fitting.resume {s t : State D} (hs : Fitting s) {call now : Nat} {taken : Bool} {change : Change D}
    {phase : Phase D} (ht : resume s call now taken change phase = some t) : Fitting t := by
  cases phase with
  | started =>
      cases ht
      cases change with
      | updateWorkspaceData data => exact hs.callAt call trivial
      | renameWorkspace name =>
          refine hs.callAt call ?_
          split <;> trivial
      | shareWorkspace expiresInDays =>
          have hdrawn : Fitting { s with fresh := s.fresh + 1 } := hs
          exact hdrawn.callAt call trivial
      | unshareWorkspace => exact hs.callAt call rfl
  | naming workspace =>
      cases change with
      | renameWorkspace name =>
          cases ht
          refine hs.callAt call ?_
          split <;> trivial
      | _ => cases ht
  | saving workspace =>
      cases ht
      have hsaved : Fitting { s with row := workspace } := hs
      exact hsaved.callAt call (fits_ended change)
  | ended => cases ht

variable [DecidableEq D]

theorem fitting_preserved : Preserves step always (Fitting (D := D)) := by
  intro s act t hs _ ht
  cases act with
  | call change =>
      cases ht
      intro c hc
      rcases List.mem_append.mp hc with hc | hc
      · exact hs c hc
      · rw [List.mem_singleton.mp hc]
        cases change <;> trivial
  | resume call now taken =>
      obtain ⟨c, -, ht⟩ := Option.bind_eq_some_iff.mp ht
      exact hs.resume ht
  | fail call =>
      obtain ⟨c, -, ht⟩ := Option.bind_eq_some_iff.mp ht
      split at ht
      next => cases ht
      next =>
        cases ht
        exact hs.callAt call (fits_ended c.change)

theorem dead_preserved (token : Nat) : Preserves step always (Dead (D := D) token) := by
  intro s act t hs _ ht
  cases act with
  | call change =>
      cases ht
      refine ⟨hs.issued, hs.row, fun c hc => ?_⟩
      rcases List.mem_append.mp hc with hc | hc
      · exact hs.calls c hc
      · rw [List.mem_singleton.mp hc]
        exact nofun
  | resume call now taken =>
      obtain ⟨c, hc, ht⟩ := Option.bind_eq_some_iff.mp ht
      exact hs.resume (List.mem_of_getElem? hc) ht
  | fail call =>
      obtain ⟨c, hc, ht⟩ := Option.bind_eq_some_iff.mp ht
      split at ht
      next => cases ht
      next =>
        cases ht
        exact hs.callAt call c.change nofun

theorem Dead.staysRevoked {token : Nat} {s : State D} (hs : Dead token s) : StaysRevoked token s := fun _ _ hr _ =>
  getSharedWorkspace_eq_none ((dead_preserved token).run_always hs hr).row

/-- What a save writes can be had by the token that it writes. -/
theorem not_staysRevoked_of_saving {token call : Nat} {s : State D} {change : Change D} {workspace : Workspace D}
    (hcall : s.calls[call]? = some ⟨change, .saving workspace⟩) (htoken : workspace.shareToken = some token) :
    ¬StaysRevoked token s := by
  intro hrevoked
  have hsaved : run step s [.resume call 0 false] = some ({ s with row := workspace }.callAt call change .ended) := by
    rw [run, step, hcall]
    rfl
  have hnone := hrevoked _ _ hsaved 0
  rw [getSharedWorkspace, if_pos ⟨htoken, by cases h : workspace.shareExpiresAt <;> simp [State.callAt, h]⟩] at hnone
  cases hnone

theorem StaysRevoked.after {token : Nat} {s t : State D} {act : Act D} (h : StaysRevoked token s)
    (ht : step s act = some t) : StaysRevoked token t := fun acts u hu =>
  h (act :: acts) u (run_cons.mpr ⟨t, ht, hu⟩)

/-- A rename whose name is free goes on to save what it loaded, so each call that holds the token can
bring it back. -/
theorem not_staysRevoked_of_held {token call : Nat} {s : State D} (hs : Fitting s) {c : Call D}
    (hcall : s.calls[call]? = some c) (hheld : Call.held c = some token) : ¬StaysRevoked token s := by
  obtain ⟨change, phase⟩ := c
  cases phase with
  | started => cases hheld
  | naming workspace =>
      have hfits := hs _ (List.mem_of_getElem? hcall)
      cases change with
      | renameWorkspace name =>
          intro hrevoked
          have hstep : step s (.resume call 0 false) =
              some (s.callAt call (.renameWorkspace name) (.saving { workspace with name := some (trim name) })) := by
            rw [step, hcall]
            rfl
          have hsaving : (s.callAt call (.renameWorkspace name)
              (.saving { workspace with name := some (trim name) })).calls[call]? =
                some ⟨.renameWorkspace name, .saving { workspace with name := some (trim name) }⟩ :=
            List.getElem?_set_self (List.getElem?_eq_some_iff.mp hcall).1
          exact not_staysRevoked_of_saving hsaving hheld (hrevoked.after hstep)
      | _ => exact hfits.elim
  | saving workspace => exact not_staysRevoked_of_saving hcall hheld
  | ended => cases hheld

/-- Once an unshare has saved, no token issued before gives the workspace again, exactly when no
other call has the workspace loaded with that token and is still to save it. -/
theorem unshared_staysRevoked_iff (name : Text) (data : D) (acts : List (Act D)) (s t : State D) (call now : Nat)
    (taken : Bool) (token : Nat) (hr : run step (created name data) acts = some s) (hunshares : Unshares s call)
    (ht : step s (.resume call now taken) = some t) (hissued : token < s.fresh) :
    StaysRevoked token t ↔ ∀ c ∈ s.calls, Call.held c ≠ some token := by
  have hfitting : Fitting s := fitting_preserved.run_always (s := created name data) (fun _ hc => nomatch hc) hr
  obtain ⟨workspace, hcall⟩ := hunshares
  have hunlinked : workspace.shareToken = none := hfitting _ (List.mem_of_getElem? hcall)
  have hsaved : t = { s with row := workspace }.callAt call .unshareWorkspace .ended := by
    rw [step, hcall] at ht
    exact (Option.some.inj ht).symm
  constructor
  · intro hrevoked c hc hheld
    obtain ⟨other, hother⟩ := List.getElem?_of_mem hc
    have hne : call ≠ other := by
      rintro rfl
      rw [hcall] at hother
      cases hother
      exact absurd (hunlinked.symm.trans hheld) nofun
    have hstill : t.calls[other]? = some c := by
      rw [hsaved, State.callAt, List.getElem?_set_ne hne, hother]
    exact not_staysRevoked_of_held (fitting_preserved s _ t hfitting trivial ht) hstill hheld hrevoked
  · intro hfree
    have hdead : Dead token { s with row := workspace } := ⟨hissued, fun h => absurd (hunlinked.symm.trans h) nofun, hfree⟩
    rw [hsaved]
    have hended : Call.held (D := D) ⟨.unshareWorkspace, .ended⟩ ≠ some token := nofun
    exact (hdead.callAt call _ hended).staysRevoked

/-- The workspace is shared and unshared, with what runs between the load and the save of the unshare. -/
def unshareAround (between : List (Act Nat)) : List (Act Nat) :=
  [.call (.shareWorkspace 7), .resume 0 0 false, .resume 0 0 false, .call (.updateWorkspaceData 1),
    .call .unshareWorkspace, .resume 2 0 false] ++ between

theorem quiet_unshare_staysRevoked :
    ∃ s t, run step (created (text "A") 0) (unshareAround []) = some s ∧ step s (.resume 2 0 false) = some t ∧
      0 < s.fresh ∧ StaysRevoked 0 t := by
  obtain ⟨s, hr, hp⟩ := exists_of_run_any step (created (text "A") 0) (unshareAround [])
    (fun s => s.calls[2]? = some ⟨.unshareWorkspace, .saving ⟨some (text "A"), 0, none, none⟩⟩ && 0 < s.fresh &&
      (step s (.resume 2 0 false)).isSome && s.calls.all (fun c => Call.held c != some 0)) (by decide)
  simp only [Bool.and_eq_true, decide_eq_true_eq, List.all_eq_true, bne_iff_ne] at hp
  obtain ⟨⟨⟨hunshares, hissued⟩, hsome⟩, hfree⟩ := hp
  obtain ⟨t, ht⟩ := Option.isSome_iff_exists.mp hsome
  exact ⟨s, t, hr, ht, hissued, (unshared_staysRevoked_iff _ _ _ s t 2 0 false 0 hr ⟨_, hunshares⟩ ht hissued).mpr hfree⟩

/-- An update loads the row before the unshare saves and saves it after. -/
theorem not_unshared_staysRevoked : ¬∀ (name : Text) (data : Nat) (acts : List (Act Nat)) (s t : State Nat)
    (call now : Nat) (taken : Bool) (token : Nat), run step (created name data) acts = some s → Unshares s call →
      step s (.resume call now taken) = some t → token < s.fresh → StaysRevoked token t := by
  intro h
  obtain ⟨s, hr, hp⟩ := exists_of_run_any step (created (text "A") 0) (unshareAround [.resume 1 0 false])
    (fun s => s.calls[2]? = some ⟨.unshareWorkspace, .saving ⟨some (text "A"), 0, none, none⟩⟩ && 0 < s.fresh &&
      (run step s [.resume 2 0 false, .resume 1 0 false]).any fun u => (getSharedWorkspace u.row 0 0).isSome)
    (by decide)
  simp only [Bool.and_eq_true, decide_eq_true_eq] at hp
  obtain ⟨⟨hunshares, hissued⟩, hback⟩ := hp
  obtain ⟨u, hu, hshared⟩ := exists_of_run_any _ _ _ _ hback
  obtain ⟨t, ht, hu⟩ := run_cons.mp hu
  have hnone := h (text "A") 0 _ s t 2 0 false 0 hr ⟨_, hunshares⟩ ht hissued _ u hu 0
  rw [hnone] at hshared
  cases hshared

end Savitools.Workspaces.RevokedLinks
