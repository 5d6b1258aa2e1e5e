import Savitools.Auth.Sessions

namespace Savitools.Auth.Rotation

open Transitions.Runs Stores.Table Sessions SessionEffects

variable {Hash : Type} {hashToken : Nat → Hash}

/-- A token as `issueSession` made it, in a family that has been opened. -/
structure Genuine (hashToken : Nat → Hash) (s : State Hash) (r : RefreshToken Hash) : Prop where
  hash : r.tokenHash = hashToken r.id
  id : r.id < s.fresh
  family : (r.userId, r.familyId) ∈ s.opened

structure Sound (hashToken : Nat → Hash) (s : State Hash) : Prop where
  tokens : ∀ r ∈ s.tokens, Genuine hashToken s r
  ids : ∀ r ∈ s.tokens, ∀ q ∈ s.tokens, r.id = q.id → SameToken r q
  stored : ∀ refresh ∈ s.refreshes, ∀ q, stored? refresh.phase = some q →
    Genuine hashToken s q ∧ q.tokenHash = hashToken refresh.rawRefreshToken ∧
      ∀ r ∈ s.tokens, r.id = q.id → SameToken r q
  opened : ∀ u f, (u, f) ∈ s.opened → f < s.fresh
  owner : ∀ u v f, (u, f) ∈ s.opened → (v, f) ∈ s.opened → u = v

theorem mem_opened {s t : State Hash} (h : Effect hashToken s t) {e : Nat × Nat} (he : e ∈ s.opened) :
    e ∈ t.opened := by
  rcases h.opened with hold | ⟨-, u, hnew⟩
  · rwa [hold]
  · rw [hnew]; exact List.mem_append_left _ he

theorem genuine_mono {s t : State Hash} (h : Effect hashToken s t) {r : RefreshToken Hash}
    (hr : Genuine hashToken s r) : Genuine hashToken t r :=
  ⟨hr.hash, Nat.lt_of_lt_of_le hr.id h.fresh_le, mem_opened h hr.family⟩

theorem genuine_same {s : State Hash} {r q : RefreshToken Hash} (h : SameToken r q)
    (hq : Genuine hashToken s q) : Genuine hashToken s r := by
  obtain ⟨hid, hhash, huser, hfamily⟩ := h
  exact ⟨by rw [hhash, hid]; exact hq.hash, by rw [hid]; exact hq.id, by rw [huser, hfamily]; exact hq.family⟩

theorem genuine_row {s t : State Hash} (hs : Sound hashToken s) (h : Effect hashToken s t)
    {r : RefreshToken Hash} (hr : r ∈ t.tokens) : Genuine hashToken t r := by
  rcases h.row hr with ⟨q, hq, hsame, -⟩ | ⟨hnew, hfresh, horigin⟩
  · exact genuine_same hsame (genuine_mono h (hs.tokens q hq))
  · refine ⟨by rw [hnew.id]; exact hnew.hash, by rw [hnew.id, hfresh]; exact Nat.lt_succ_self _, ?_⟩
    rcases horigin with ⟨refresh, hmem, q, hphase, huser, hfamily⟩ | ⟨-, hopened⟩
    · have hq := (hs.stored refresh hmem q (by rw [hphase]; rfl)).1
      rw [huser, hfamily]
      exact mem_opened h hq.family
    · rw [hopened]; exact List.mem_append_right _ (List.mem_singleton_self _)

theorem same_row {s t : State Hash} (h : Effect hashToken s t) {q : RefreshToken Hash}
    (hid : q.id < s.fresh) (hsame : ∀ r ∈ s.tokens, r.id = q.id → SameToken r q)
    {r : RefreshToken Hash} (hr : r ∈ t.tokens) (hrq : r.id = q.id) : SameToken r q := by
  rcases h.row hr with ⟨p, hp, hrp, -⟩ | ⟨hnew, -, -⟩
  · exact hrp.trans (hsame p hp (hrp.1.symm.trans hrq))
  · have := hnew.id; omega

theorem sound_effect {s t : State Hash} (hs : Sound hashToken s) (h : Effect hashToken s t) :
    Sound hashToken t where
  tokens r hr := genuine_row hs h hr
  ids r hr q hq hrq := by
    rcases h.row hq with ⟨p, hp, hqp, -⟩ | ⟨hnewq, hfresh, -⟩
    · have hsame := same_row h (hs.tokens p hp).id (fun r' hr' => hs.ids r' hr' p hp) hr (hrq.trans hqp.1)
      exact hsame.trans hqp.symm
    · rcases h.row hr with ⟨p, hp, hrp, -⟩ | ⟨hnewr, -, -⟩
      · have hp' := (hs.tokens p hp).id
        have := hnewq.id
        have := hrp.1
        omega
      · -- both are the row inserted by this step
        cases h with
        | retire t hf => omega
        | win => simp [consume, State.refreshAt] at hfresh
        | succeed | fresh =>
            rcases List.mem_append.mp hr with hr | hr
            · have := (hs.tokens r hr).id
              have := hnewr.id
              omega
            · rcases List.mem_append.mp hq with hq | hq
              · have := (hs.tokens q hq).id
                have := hnewq.id
                omega
              · rw [List.mem_singleton.mp hr, List.mem_singleton.mp hq]
                exact .refl _
  stored refresh hrefresh q hq := by
    rcases h.stored hrefresh hq with ⟨old, hold, hraw, hqold⟩ | ⟨hread, hhash⟩
    · obtain ⟨hg, hhash, hsame⟩ := hs.stored old hold q hqold
      exact ⟨genuine_mono h hg, hraw ▸ hhash, fun r hr hrq => same_row h hg.id hsame hr hrq⟩
    · have hg := hs.tokens q hread
      exact ⟨genuine_mono h hg, hhash,
        fun r hr hrq => same_row h hg.id (fun r' hr' => hs.ids r' hr' q hread) hr hrq⟩
  opened u f hf := by
    rcases h.opened with hold | ⟨hfresh, v, hnew⟩
    · exact Nat.lt_of_lt_of_le (hs.opened u f (hold ▸ hf)) h.fresh_le
    · rw [hnew] at hf
      rcases List.mem_append.mp hf with hf | hf
      · exact Nat.lt_of_lt_of_le (hs.opened u f hf) h.fresh_le
      · have := List.mem_singleton.mp hf
        simp only [Prod.mk.injEq] at this
        omega
  owner u v f hu hv := by
    rcases h.opened with hold | ⟨-, w, hnew⟩
    · exact hs.owner u v f (hold ▸ hu) (hold ▸ hv)
    · rw [hnew, List.mem_append, List.mem_singleton, Prod.mk.injEq] at hu hv
      rcases hu with hu | ⟨rfl, hfu⟩ <;> rcases hv with hv | ⟨rfl, hfv⟩
      · exact hs.owner u v f hu hv
      · have := hs.opened u f hu; omega
      · have := hs.opened v f hv; omega
      · rfl

theorem sound_initial (users : List (User Hash)) : Sound hashToken (initial users) where
  tokens _ hr := by cases hr
  ids _ hr := by cases hr
  stored _ hr := by cases hr
  opened _ _ he := by cases he
  owner _ _ _ he := by cases he

/-- Active tokens of a family, and calls that still owe it a successor. -/
def liveCount (f : Nat) (s : State Hash) : Nat :=
  s.tokens.countP (activeIn f) + s.refreshes.countP (wonIn f)

theorem winners_calls {s : State Hash} {refreshes : List (Refresh Hash)}
    (h : Calls hashToken s refreshes) (f : Nat) :
    refreshes.countP (wonIn f) ≤ s.refreshes.countP (wonIn f) := by
  cases h with
  | same => exact Nat.le_refl _
  | start raw => simp [List.countP_append, wonIn]
  | settle call raw phase phase' hcall hlost =>
      have hset := countP_set_add (p := wonIn f) (b := (⟨raw, phase'⟩ : Refresh Hash)) hcall
      rw [hlost f] at hset
      simp only [Bool.false_eq_true, if_false] at hset
      omega

/-- Winning takes exactly one active token from the family of the stored token. -/
theorem active_win {s : State Hash} {stored : RefreshToken Hash} (now f : Nat)
    (hone : affected (unconsumed stored) s.tokens = 1)
    (hsame : ∀ r ∈ s.tokens, r.id = stored.id → SameToken r stored) :
    (update (unconsumed stored) (revoke now) s.tokens).countP (activeIn f) +
      (if stored.familyId = f then 1 else 0) = s.tokens.countP (activeIn f) := by
  have hclear : ∀ r ∈ s.tokens, unconsumed stored r = true → activeIn f (revoke now r) = false :=
    fun r _ _ => by simp [activeIn, not_active_revoke]
  rw [← countP_update_of_cleared hclear]
  congr 1
  by_cases hf : stored.familyId = f
  · rw [if_pos hf, ← hone]
    refine List.countP_congr ?_
    intro r hr
    simp only [Bool.and_eq_true, unconsumed, activeIn, decide_eq_true_eq]
    constructor
    · rintro ⟨hid, ha⟩
      exact ⟨⟨hid, ha⟩, ha, (hsame r hr hid).2.2.2.trans hf⟩
    · exact fun h => h.1
  · rw [if_neg hf, eq_comm, List.countP_eq_zero]
    intro r hr
    simp only [Bool.and_eq_true, unconsumed, activeIn, decide_eq_true_eq]
    rintro ⟨⟨hid, -⟩, -, hfamily⟩
    exact hf ((hsame r hr hid).2.2.2.symm.trans hfamily)

theorem liveCount_effect {s t : State Hash} (hs : Sound hashToken s) (h : Effect hashToken s t)
    (hle : ∀ f, liveCount f s ≤ 1) (f : Nat) : liveCount f t ≤ 1 := by
  have hf := hle f
  simp only [liveCount] at hf ⊢
  cases h with
  | retire t hfresh hopened hconsumed htokens hcalls =>
      have htok := htokens.count f
      have hcall := winners_calls hcalls f
      omega
  | win call raw stored hcall hone =>
      have hsame := (hs.stored _ (List.mem_of_getElem? hcall) stored rfl).2.2
      have htok := active_win s.now f hone hsame
      have hset := countP_set_add (p := wonIn f)
        (b := (⟨raw, .claimed stored (affected (unconsumed stored) s.tokens)⟩ : Refresh Hash)) hcall
      simp only [wonIn, hone, decide_true, Bool.true_and, decide_eq_true_eq, Bool.false_eq_true,
        if_false, Nat.add_zero] at hset
      simp only [consume, State.refreshAt, hone]
      omega
  | succeed call raw stored hcall =>
      have hset := countP_set_add (p := wonIn f) (b := (⟨raw, .session s.fresh⟩ : Refresh Hash)) hcall
      simp only [wonIn, decide_true, Bool.true_and, decide_eq_true_eq, Bool.false_eq_true,
        if_false, Nat.add_zero] at hset
      simp only [State.refreshAt, issueSession, List.countP_append, List.countP_singleton, activeIn,
        RefreshToken.active, Option.isNone_none, Option.getD_some, Bool.true_and, decide_eq_true_eq]
      omega
  | fresh userId =>
      simp only [openSession, issueSession, List.countP_append, List.countP_singleton, activeIn,
        RefreshToken.active, Option.isNone_none, Option.getD_none, Bool.true_and, decide_eq_true_eq]
      by_cases hnew : s.fresh = f
      · -- nothing can belong to a family that is only being opened
        have htok : s.tokens.countP (activeIn f) = 0 := by
          rw [List.countP_eq_zero]
          intro r hr ha
          have hlt := hs.opened _ _ (hs.tokens r hr).family
          simp only [activeIn, Bool.and_eq_true, decide_eq_true_eq] at ha
          omega
        have hcall : s.refreshes.countP (wonIn f) = 0 := by
          rw [List.countP_eq_zero]
          intro refresh hr hw
          simp only [wonIn] at hw
          split at hw
          next stored claim hphase =>
            have hg := (hs.stored refresh hr stored (by rw [hphase]; rfl)).1
            have hlt := hs.opened _ _ hg.family
            simp only [Bool.and_eq_true, decide_eq_true_eq] at hw
            omega
          next => cases hw
        rw [if_pos hnew]
        omega
      · rw [if_neg hnew]
        exact hf

/-- Tokens that some refresh call has consumed: each once, and dead ever since. -/
structure Spent (s : State Hash) : Prop where
  nodup : s.consumed.Nodup
  old : ∀ raw ∈ s.consumed, raw < s.fresh
  dead : ∀ raw ∈ s.consumed, ∀ r ∈ s.tokens, r.id = raw → r.active = false

theorem raw_eq_id (hinj : Function.Injective hashToken) {s : State Hash} (hs : Sound hashToken s)
    {refresh : Refresh Hash} (hr : refresh ∈ s.refreshes) {q : RefreshToken Hash}
    (hq : stored? refresh.phase = some q) : refresh.rawRefreshToken = q.id := by
  obtain ⟨hg, hhash, -⟩ := hs.stored refresh hr q hq
  exact hinj (hhash.symm.trans hg.hash)

theorem dead_effect {s t : State Hash} (h : Effect hashToken s t) (hs : Spent s) :
    ∀ raw ∈ s.consumed, ∀ r ∈ t.tokens, r.id = raw → r.active = false := by
  intro raw hraw r hr hid
  rcases h.row hr with ⟨q, hq, hsame, hactive⟩ | ⟨hnew, -, -⟩
  · have hdead := hs.dead raw hraw q hq (hsame.1.symm.trans hid)
    cases ha : r.active with
    | false => rfl
    | true => rw [hactive ha] at hdead; cases hdead
  · have := hs.old raw hraw
    have := hnew.id
    omega

theorem spent_win (hinj : Function.Injective hashToken) {s : State Hash} (hs : Sound hashToken s)
    (hp : Spent s) {call raw : Nat} {stored : RefreshToken Hash}
    (hcall : s.refreshes[call]? = some ⟨raw, .found (some stored)⟩)
    (hone : affected (unconsumed stored) s.tokens = 1) : Spent (consume s call raw stored) := by
  have hmem := List.mem_of_getElem? hcall
  have hraw : raw = stored.id := raw_eq_id hinj hs hmem rfl
  have hcons : (consume s call raw stored).consumed = raw :: s.consumed := by
    simp [consume, State.refreshAt, hone]
  obtain ⟨r, hr, hwon⟩ : ∃ r ∈ s.tokens, unconsumed stored r = true :=
    List.countP_pos_iff.mp (by unfold affected at hone; omega)
  simp only [unconsumed, Bool.and_eq_true, decide_eq_true_eq] at hwon
  refine ⟨?_, ?_, ?_⟩
  · rw [hcons, List.nodup_cons]
    refine ⟨?_, hp.nodup⟩
    intro hold
    have hdead := hp.dead raw hold r hr (hwon.1.trans hraw.symm)
    rw [hwon.2] at hdead
    cases hdead
  · intro raw' hraw'
    rw [hcons] at hraw'
    rcases List.mem_cons.mp hraw' with rfl | hold
    · exact hraw ▸ (hs.stored _ hmem stored rfl).1.id
    · exact hp.old raw' hold
  · intro raw' hraw' r' hr' hid
    rw [hcons] at hraw'
    rcases List.mem_cons.mp hraw' with rfl | hold
    · obtain ⟨q, hq, rfl⟩ := mem_update.mp hr'
      cases hhit : unconsumed stored q with
      | true => simp [not_active_revoke]
      | false =>
          simp only [hhit, Bool.false_eq_true, if_false] at hid ⊢
          cases ha : q.active with
          | false => rfl
          | true => simp [unconsumed, ha, hid, hraw] at hhit
    · have heffect : Effect hashToken s (consume s call raw stored) := .win call raw stored hcall hone
      exact dead_effect heffect hp raw' hold r' hr' hid

theorem spent_effect (hinj : Function.Injective hashToken) {s t : State Hash}
    (hs : Sound hashToken s) (h : Effect hashToken s t) (hp : Spent s) : Spent t := by
  have hdead := dead_effect h hp
  have hold := fun raw hraw => Nat.lt_of_lt_of_le (hp.old raw hraw) h.fresh_le
  cases h with
  | retire t hfresh hopened hconsumed =>
      exact ⟨hconsumed ▸ hp.nodup, hconsumed ▸ hold, hconsumed ▸ hdead⟩
  | win call raw stored hcall hone => exact spent_win hinj hs hp hcall hone
  | succeed | fresh => exact ⟨hp.nodup, hold, hdead⟩

variable [DecidableEq Hash]

structure Rotating (hashToken : Nat → Hash) (s : State Hash) : Prop where
  sound : Sound hashToken s
  live : ∀ f, liveCount f s ≤ 1
  spent : Function.Injective hashToken → Spent s

theorem rotating_preserved : Preserves (step hashToken) always (Rotating hashToken) := by
  intro s a t hs _ h
  have heffect := step_effect h
  exact ⟨sound_effect hs.sound heffect, liveCount_effect hs.sound heffect hs.live,
    fun hinj => spent_effect hinj hs.sound heffect (hs.spent hinj)⟩

omit [DecidableEq Hash] in
theorem rotating_initial (users : List (User Hash)) : Rotating hashToken (initial users) where
  sound := sound_initial users
  live _ := Nat.zero_le _
  spent _ := ⟨List.nodup_nil, fun _ h => (by cases h), fun _ h => (by cases h)⟩

/-- In every interleaving a refresh token is consumed at most once, and a family
has at most one active token or one winner that still owes the successor. -/
theorem rotation_safe (hinj : Function.Injective hashToken) (users : List (User Hash))
    (acts : List Act) (s : State Hash) (hr : run (step hashToken) (initial users) acts = some s) :
    s.consumed.Nodup ∧
      ∀ f, s.tokens.countP (activeIn f) + s.refreshes.countP (wonIn f) ≤ 1 := by
  have h := rotating_preserved.run_always (rotating_initial users) hr
  exact ⟨(h.spent hinj).nodup, h.live⟩

def alice : User Nat := ⟨1, some "secret", some 100, some 1800000⟩

/-- Two refreshes race for the first token; the winner's successor is refreshed in turn. -/
def race : List Act :=
  [.openSession 1, .refresh 0, .refresh 0, .resumeRefresh 0, .resumeRefresh 1, .resumeRefresh 1,
    .resumeRefresh 0, .resumeRefresh 1, .refresh 1, .resumeRefresh 2, .resumeRefresh 2]

theorem rotation_safe_race :
    ∃ s, run (step id) (initial [alice]) race = some s ∧ s.consumed = [1, 0] ∧ s.consumed.Nodup ∧
      ∀ f, s.tokens.countP (activeIn f) + s.refreshes.countP (wonIn f) ≤ 1 := by
  obtain ⟨s, hr, hp⟩ := exists_of_run_any (step id) (initial [alice]) race
    (fun s => s.consumed = [1, 0]) (by decide)
  exact ⟨s, hr, by simpa using hp, rotation_safe Function.injective_id [alice] race s hr⟩

end Savitools.Auth.Rotation

namespace Savitools.Auth.Revocation

open Transitions.Runs Stores.Table Sessions SessionEffects Rotation

variable {Hash : Type} {hashToken : Nat → Hash}

/-- No active token in an opened family and no call that could still add one. -/
structure FamilyDead (f : Nat) (s : State Hash) : Prop where
  opened : f < s.fresh
  tokens : ∀ r ∈ s.tokens, r.familyId = f → r.active = false
  winners : ∀ refresh ∈ s.refreshes, wonIn f refresh = false

theorem dead_row {s t : State Hash} {f : Nat} (h : Effect hashToken s t) (hd : FamilyDead f s)
    {r : RefreshToken Hash} (hr : r ∈ t.tokens) (hf : r.familyId = f) : r.active = false := by
  rcases h.row hr with ⟨q, hq, hsame, hactive⟩ | ⟨-, -, horigin⟩
  · have hdead := hd.tokens q hq (hsame.2.2.2.symm.trans hf)
    cases ha : r.active with
    | false => rfl
    | true => rw [hactive ha] at hdead; cases hdead
  · rcases horigin with ⟨refresh, hmem, stored, hphase, -, hfamily⟩ | ⟨hnew, -⟩
    · have hlost := hd.winners refresh hmem
      simp [wonIn, hphase, ← hfamily, hf] at hlost
    · have := hd.opened
      omega

theorem dead_winner {s t : State Hash} {f : Nat} (hs : Sound hashToken s) (h : Effect hashToken s t)
    (hd : FamilyDead f s) {refresh : Refresh Hash} (hr : refresh ∈ t.refreshes) :
    wonIn f refresh = false := by
  cases h with
  | retire t hfresh hopened hconsumed htokens hcalls =>
      generalize t.refreshes = refreshes at hcalls hr
      cases hcalls with
      | same => exact hd.winners refresh hr
      | start raw =>
          rcases List.mem_append.mp hr with hr | hr
          · exact hd.winners refresh hr
          · rw [List.mem_singleton.mp hr]; rfl
      | settle call raw phase phase' hcall hlost =>
          rcases List.mem_or_eq_of_mem_set hr with hr | rfl
          · exact hd.winners refresh hr
          · exact hlost f
  | win call raw stored hcall hone =>
      rcases List.mem_or_eq_of_mem_set hr with hr | rfl
      · exact hd.winners refresh hr
      · -- the consumed row would have been an active token of the dead family
        have hsame := (hs.stored _ (List.mem_of_getElem? hcall) stored rfl).2.2
        obtain ⟨r, hr, hwon⟩ : ∃ r ∈ s.tokens, unconsumed stored r = true :=
          List.countP_pos_iff.mp (by unfold affected at hone; omega)
        simp only [unconsumed, Bool.and_eq_true, decide_eq_true_eq] at hwon
        by_cases hf : stored.familyId = f
        · have hdead := hd.tokens r hr ((hsame r hr hwon.1).2.2.2.trans hf)
          rw [hwon.2] at hdead
          cases hdead
        · simp [wonIn, hf]
  | succeed call raw stored hcall =>
      rcases List.mem_or_eq_of_mem_set hr with hr | rfl
      · exact hd.winners refresh hr
      · rfl
  | fresh userId => exact hd.winners refresh hr

theorem dead_step {s t : State Hash} {f : Nat} (hs : Sound hashToken s) (h : Effect hashToken s t)
    (hd : FamilyDead f s) : FamilyDead f t where
  opened := Nat.lt_of_lt_of_le hd.opened h.fresh_le
  tokens _ hr hf := dead_row h hd hr hf
  winners _ hr := dead_winner hs h hd hr

theorem wonIn_iff {f : Nat} {refresh : Refresh Hash} :
    wonIn f refresh = true ↔ ∃ stored, refresh.phase = .claimed stored 1 ∧ stored.familyId = f := by
  simp only [wonIn]
  split
  next stored claim hphase => simp [hphase]
  next hphase =>
    refine ⟨fun h => (by cases h), ?_⟩
    rintro ⟨stored, h, -⟩
    exact absurd h (hphase stored 1)

def revokesFamily (s : State Hash) (call : Nat) : Option Nat :=
  match (s.refreshes[call]?).map Refresh.phase with
  | some (.reread stored latest) =>
      if withinGrace s.now latest then none else some stored.familyId
  | _ => none

def revokesUser (s : State Hash) (call : Nat) : Option Nat :=
  match (s.resets[call]?).map Reset.phase with
  | some (.saved userId) => some userId
  | _ => none

variable [DecidableEq Hash]

def FamilyStaysDead (hashToken : Nat → Hash) (t : State Hash) (f : Nat) : Prop :=
  ∀ later u, run (step hashToken) t later = some u →
    ∀ r ∈ u.tokens, r.familyId = f → r.active = false

theorem dead_run {t : State Hash} {f : Nat} (hs : Sound hashToken t) (hd : FamilyDead f t) :
    FamilyStaysDead hashToken t f := by
  intro later u hu
  have hkept : Preserves (step hashToken) always (fun s => Sound hashToken s ∧ FamilyDead f s) := by
    intro s a t h _ hstep
    have heffect := step_effect hstep
    exact ⟨sound_effect h.1 heffect, dead_step h.1 heffect h.2⟩
  exact (hkept.run_always ⟨hs, hd⟩ hu).2.tokens

/-- A winner in flight saves its successor whatever has been revoked meanwhile. -/
theorem winner_revives {t : State Hash} {f : Nat} {refresh : Refresh Hash}
    (hr : refresh ∈ t.refreshes) (hwon : wonIn f refresh = true) : ¬ FamilyStaysDead hashToken t f := by
  intro hdead
  obtain ⟨stored, hphase, hf⟩ := wonIn_iff.mp hwon
  obtain ⟨call, hcall⟩ := List.mem_iff_getElem?.mp hr
  have hstep : step hashToken t (.resumeRefresh call) =
      some ((issueSession hashToken t stored.userId (some stored.familyId)).refreshAt call
        ⟨refresh.rawRefreshToken, .session t.fresh⟩) := by
    simp [step, hcall, hphase, resumeRefresh]
  have hrun := hdead [.resumeRefresh call] _ (run_cons.mpr ⟨_, hstep, rfl⟩)
  have hnew := hrun _ (List.mem_append_right _ (List.mem_singleton_self _)) hf
  cases hnew

def holdsActive (f : Nat) (s : State Hash) : Bool := s.tokens.any (activeIn f)

theorem not_dead_of_run {s : State Hash} {a : Act} {later : List Act} {f : Nat}
    (h : (run (step hashToken) s (a :: later)).any (holdsActive f) = true) :
    ∃ t, step hashToken s a = some t ∧ ¬ FamilyStaysDead hashToken t f := by
  obtain ⟨u, hu, hlive⟩ := (Option.any_eq_true _ _).mp h
  obtain ⟨t, ht, hu⟩ := run_cons.mp hu
  refine ⟨t, ht, fun hdead => ?_⟩
  obtain ⟨r, hr, hactive⟩ := List.any_eq_true.mp hlive
  simp only [activeIn, Bool.and_eq_true, decide_eq_true_eq] at hactive
  exact Bool.false_ne_true ((hdead later u hu r hr hactive.2).symm.trans hactive.1)

theorem revoked_state {s t : State Hash} {call f : Nat} (hrev : revokesFamily s call = some f)
    (ht : step hashToken s (.resumeRefresh call) = some t) :
    ∃ raw stored latest, s.refreshes[call]? = some ⟨raw, .reread stored latest⟩ ∧
      stored.familyId = f ∧ t = (revokeFamily s f).refreshAt call ⟨raw, .unauthorized⟩ := by
  simp only [revokesFamily] at hrev
  split at hrev
  next stored latest hphase =>
    obtain ⟨⟨raw, phase⟩, hcall, rfl⟩ := Option.map_eq_some_iff.mp hphase
    split at hrev
    next => cases hrev
    next hgrace =>
      cases hrev
      simp only [step, hcall, Option.bind_some, resumeRefresh, if_neg hgrace] at ht
      exact ⟨raw, stored, latest, hcall, rfl, (Option.some.inj ht).symm⟩
  next => cases hrev

/-- After the reuse of a consumed token has revoked its family, the family stays
dead in all later states exactly when no call of the family stands between its
won update and the insert of its successor at that moment. -/
theorem revoked_family_stays_dead_iff (users : List (User Hash)) (acts : List Act)
    (s t : State Hash) (call f : Nat) (hr : run (step hashToken) (initial users) acts = some s)
    (hrev : revokesFamily s call = some f) (ht : step hashToken s (.resumeRefresh call) = some t) :
    FamilyStaysDead hashToken t f ↔ ∀ refresh ∈ s.refreshes, wonIn f refresh = false := by
  have hs : Sound hashToken s := (rotating_preserved.run_always (rotating_initial users) hr).sound
  have hst := sound_effect hs (step_effect ht)
  obtain ⟨raw, stored, latest, hcall, hf, rfl⟩ := revoked_state hrev ht
  have hopened : f < s.fresh := by
    have hg := (hs.stored _ (List.mem_of_getElem? hcall) stored rfl).1
    exact hf ▸ hs.opened _ _ hg.family
  constructor
  · intro hdead refresh hmem
    by_contra hwon
    obtain ⟨i, hi⟩ := List.mem_iff_getElem?.mp hmem
    -- the winner is another call than the one that revokes
    have hne : call ≠ i := by
      rintro rfl
      rw [hcall, Option.some.injEq] at hi
      subst hi
      exact hwon rfl
    have hmem' : refresh ∈ (s.refreshes.set call ⟨raw, .unauthorized⟩) :=
      List.mem_iff_getElem?.mpr ⟨i, by rw [List.getElem?_set_ne hne, hi]⟩
    exact winner_revives hmem' (by simpa using hwon) hdead
  · intro hlost
    refine dead_run hst ⟨hopened, ?_, ?_⟩
    · intro r hr hrf
      obtain ⟨q, -, rfl⟩ := mem_update.mp hr
      by_cases hq : q.familyId = f
      · simp [hq, not_active_revoke]
      · simp [hq] at hrf
    · intro refresh hmem
      rcases List.mem_or_eq_of_mem_set hmem with hmem | rfl
      · exact hlost refresh hmem
      · rfl

def reuse : List Act :=
  [.openSession 1, .refresh 0, .resumeRefresh 0, .resumeRefresh 0, .resumeRefresh 0, .clock 20000,
    .refresh 0, .resumeRefresh 1, .resumeRefresh 1, .resumeRefresh 1]

theorem revoked_family_stays_dead_reuse :
    ∃ s t, run (step id) (initial [alice]) reuse = some s ∧ step id s (.resumeRefresh 1) = some t ∧
      FamilyStaysDead id t 0 := by
  obtain ⟨s, hr, hp⟩ := exists_of_run_any (step id) (initial [alice]) reuse
    (fun s => revokesFamily s 1 = some 0 && (step id s (.resumeRefresh 1)).isSome &&
      s.refreshes.all (fun refresh => !wonIn 0 refresh)) (by decide)
  simp only [Bool.and_eq_true, decide_eq_true_eq, List.all_eq_true, Bool.not_eq_true'] at hp
  obtain ⟨⟨hrev, hsome⟩, hlost⟩ := hp
  obtain ⟨t, ht⟩ := Option.isSome_iff_exists.mp hsome
  exact ⟨s, t, hr, ht, (revoked_family_stays_dead_iff [alice] reuse s t 1 0 hr hrev ht).mpr hlost⟩

/-- A refresh wins, another call finds the token consumed after the grace period
and revokes the family, and only then does the winner save its successor. -/
def lateSuccessor : List Act :=
  [.openSession 1, .refresh 0, .resumeRefresh 0, .resumeRefresh 0, .resumeRefresh 0, .clock 20000,
    .refresh 1, .resumeRefresh 1, .resumeRefresh 1, .refresh 0, .resumeRefresh 2, .resumeRefresh 2,
    .resumeRefresh 2]

theorem not_revoked_family_stays_dead :
    ∃ s t, run (step id) (initial [alice]) lateSuccessor = some s ∧ revokesFamily s 2 = some 0 ∧
      step id s (.resumeRefresh 2) = some t ∧ ¬ FamilyStaysDead id t 0 := by
  obtain ⟨s, hr, hp⟩ := exists_of_run_any (step id) (initial [alice]) lateSuccessor
    (fun s => revokesFamily s 2 = some 0 &&
      (run (step id) s [.resumeRefresh 2, .resumeRefresh 1]).any (holdsActive 0)) (by decide)
  simp only [Bool.and_eq_true, decide_eq_true_eq] at hp
  obtain ⟨t, ht, hlive⟩ := not_dead_of_run hp.2
  exact ⟨s, t, hr, hp.1, ht, hlive⟩

theorem reset_state {s t : State Hash} {call userId : Nat} {newHash : String}
    (hrev : revokesUser s call = some userId)
    (ht : step hashToken s (.resumeReset call newHash) = some t) :
    t.tokens = (revokeUser s userId).tokens ∧ t.refreshes = s.refreshes ∧ t.fresh = s.fresh := by
  simp only [revokesUser] at hrev
  split at hrev
  next userId' hphase =>
    obtain ⟨⟨token, phase⟩, hcall, rfl⟩ := Option.map_eq_some_iff.mp hphase
    cases hrev
    simp only [step, hcall, Option.bind_some, resumeReset, Option.some.injEq] at ht
    subst ht
    exact ⟨rfl, rfl, rfl⟩
  next => cases hrev

/-- A completed password reset has ended every session opened before it, in all
later states, exactly when no refresh call of the user stands between its won
update and the insert of its successor at that moment. -/
theorem reset_ends_sessions_iff (users : List (User Hash)) (acts : List Act) (s t : State Hash)
    (call userId : Nat) (newHash : String) (hr : run (step hashToken) (initial users) acts = some s)
    (hrev : revokesUser s call = some userId)
    (ht : step hashToken s (.resumeReset call newHash) = some t) :
    (∀ f, (userId, f) ∈ s.opened → FamilyStaysDead hashToken t f) ↔
      ∀ refresh ∈ s.refreshes, ∀ f, (userId, f) ∈ s.opened → wonIn f refresh = false := by
  have hs : Sound hashToken s := (rotating_preserved.run_always (rotating_initial users) hr).sound
  have hst := sound_effect hs (step_effect ht)
  obtain ⟨htokens, hrefreshes, hfresh⟩ := reset_state hrev ht
  constructor
  · intro hdead refresh hmem f hf
    by_contra hwon
    exact winner_revives (hrefreshes ▸ hmem) (by simpa using hwon) (hdead f hf)
  · intro hlost f hf
    refine dead_run hst ⟨hfresh ▸ hs.opened userId f hf, ?_, ?_⟩
    · intro r hr hrf
      rw [htokens] at hr
      obtain ⟨q, hq, rfl⟩ := mem_update.mp hr
      by_cases hhit : (q.userId = userId && q.active) = true
      · simp [hhit, not_active_revoke]
      · -- a row of the family belongs to the user, so it was no longer active
        rw [if_neg hhit] at hrf ⊢
        have hfamily := (hs.tokens q hq).family
        have huser := hs.owner _ _ _ (hrf ▸ hfamily) hf
        simpa [huser] using hhit
    · exact fun refresh hmem => hlost refresh (hrefreshes ▸ hmem) f hf

/-- One refresh is between its update and its insert while the reset runs. -/
def resetDuring (raw : Nat) : List Act :=
  [.openSession 1, .refresh raw, .resumeRefresh 0, .resumeRefresh 0, .resetPassword 100,
    .resumeReset 0 "new", .resumeReset 0 "new"]

/-- The refresh in flight presents a token nobody issued, so it owes no successor. -/
theorem reset_ends_sessions_unknown :
    ∃ s t, run (step id) (initial [alice]) (resetDuring 7) = some s ∧ (1, 0) ∈ s.opened ∧
      step id s (.resumeReset 0 "new") = some t ∧
      ∀ f, (1, f) ∈ s.opened → FamilyStaysDead id t f := by
  obtain ⟨s, hr, hp⟩ := exists_of_run_any (step id) (initial [alice]) (resetDuring 7)
    (fun s => revokesUser s 0 = some 1 && (step id s (.resumeReset 0 "new")).isSome &&
      s.opened = [(1, 0)] && s.refreshes.all (fun refresh => !wonIn 0 refresh)) (by decide)
  simp only [Bool.and_eq_true, decide_eq_true_eq, List.all_eq_true, Bool.not_eq_true'] at hp
  obtain ⟨⟨⟨hrev, hsome⟩, hopened⟩, hlost⟩ := hp
  obtain ⟨t, ht⟩ := Option.isSome_iff_exists.mp hsome
  have hiff := reset_ends_sessions_iff [alice] (resetDuring 7) s t 0 1 "new" hr hrev ht
  refine ⟨s, t, hr, by simp [hopened], ht, hiff.mpr ?_⟩
  intro refresh hmem f hf
  rw [hopened, List.mem_singleton, Prod.mk.injEq] at hf
  exact hf.2 ▸ hlost refresh hmem

theorem not_reset_ends_sessions :
    ∃ s t, run (step id) (initial [alice]) (resetDuring 0) = some s ∧ (1, 0) ∈ s.opened ∧
      revokesUser s 0 = some 1 ∧ step id s (.resumeReset 0 "new") = some t ∧
      ¬ FamilyStaysDead id t 0 := by
  obtain ⟨s, hr, hp⟩ := exists_of_run_any (step id) (initial [alice]) (resetDuring 0)
    (fun s => revokesUser s 0 = some 1 && s.opened = [(1, 0)] &&
      (run (step id) s [.resumeReset 0 "new", .resumeRefresh 0]).any (holdsActive 0)) (by decide)
  simp only [Bool.and_eq_true, decide_eq_true_eq] at hp
  obtain ⟨t, ht, hlive⟩ := not_dead_of_run hp.2
  exact ⟨s, t, hr, by simp [hp.1.2], hp.1.1, ht, hlive⟩

end Savitools.Auth.Revocation
