import Savitools.Common.Exceptions
import Savitools.Dates.Arcs
import Savitools.Json.Conversions
import Savitools.Transitions.Runs

namespace Savitools.Monitor.QuietHours

open Strings.CodeUnits Strings.Decimals Json.Conversions Transitions.Runs Dates.Arcs Common.Exceptions

inductive PartType
  | hour
  | minute
  | literal
deriving DecidableEq

/-- What `Intl.DateTimeFormat` makes of a time zone, and of a time there by the hour and the minute. -/
structure Intl where
  isValidTimezone : Text → Bool
  formatToParts : Int → Text → List (PartType × Text)

/-- `parseInt(t, 10)` of a text without a sign, where `none` is `NaN`. -/
def parseInt (t : Text) : Option Nat :=
  match (trimStart t).takeWhile isDigit with
  | [] => none
  | digits => some (digitsValue digits)

/-- `^([01]\d|2[0-3]):([0-5]\d)$`, with the two groups. -/
def hoursAndMinutes : Text → Option (Text × Text)
  | [a, b, colon, c, d] =>
      if (between '0' '1' a && isDigit b || a == unit '2' && between '0' '3' b) && colon == unit ':' &&
          between '0' '5' c && isDigit d then
        some ([a, b], [c, d])
      else none
  | _ => none

def parseTimeMinutes (timeStr : Text) : Except Text Nat :=
  match hoursAndMinutes (trim timeStr) with
  | none => .error (text "Invalid time format \"" ++ timeStr ++ text "\", expected \"HH:mm\" in 24-hour format")
  | some (hours, minutes) => .ok (digitsValue hours * 60 + digitsValue minutes)

def getLocalMinutesInTimezone (intl : Intl) (date : Int) (timezone : Text) : Option Nat :=
  let (hours, minutes) := (intl.formatToParts date timezone).foldl
    (fun (hours, minutes) (type, value) =>
      match type with
      | .hour => (if parseInt value = some 24 then some 0 else parseInt value, minutes)
      | .minute => (hours, parseInt value)
      | .literal => (hours, minutes))
    (some 0, some 0)
  hours.bind fun hours => minutes.map fun minutes => hours * 60 + minutes

def isWithinQuietHours (intl : Intl) (date : Int) (timezone start endTime : Text) : Except Text Bool := do
  let timezone := if !intl.isValidTimezone timezone then text "UTC" else timezone
  let startMin ← parseTimeMinutes start
  let endMin ← parseTimeMinutes endTime
  if startMin = endMin then return false
  let currentMin := getLocalMinutesInTimezone intl date timezone
  if startMin < endMin then return currentMin.any fun current => startMin ≤ current && current < endMin
  return currentMin.any fun current => startMin ≤ current || current < endMin

structure UserDigestPreferences where
  digestEnabled : Bool
  digestIntervalMinutes : Int
  timezone : Text
  quietHoursEnabled : Bool
  quietHoursStart : Text
  quietHoursEnd : Text
  maxDigestAlerts : Int

structure UpdateDigestPreferencesDto where
  digestEnabled : Option Bool := none
  digestIntervalMinutes : Option Int := none
  timezone : Option Text := none
  quietHoursEnabled : Option Bool := none
  quietHoursStart : Option Text := none
  quietHoursEnd : Option Text := none
  maxDigestAlerts : Option Int := none

/-- A row, or an entity that has no id yet. -/
structure MonitorDigestPreference where
  id : Option Nat
  userId : Nat
  preferences : UserDigestPreferences

/-- A call of `updatePreferences` that has its entity and has yet to save it. -/
structure State where
  rows : List MonitorDigestPreference := []
  calls : List MonitorDigestPreference := []
  nextId : Nat := 0

def defaultPreferences : UserDigestPreferences where
  digestEnabled := false
  digestIntervalMinutes := 60
  timezone := text "UTC"
  quietHoursEnabled := false
  quietHoursStart := text "22:00"
  quietHoursEnd := text "08:00"
  maxDigestAlerts := 25

def findOne (s : State) (userId : Nat) : Option MonitorDigestPreference := s.rows.find? fun row => row.userId = userId

def getPreferences (s : State) (userId : Nat) : UserDigestPreferences :=
  ((findOne s userId).map MonitorDigestPreference.preferences).getD defaultPreferences

/-- A text that is there and not empty. -/
def given : Option Text → Option Text
  | some [] => none
  | value => value

/-- A check of a field, which is made if there is anything in it. -/
def checkField (value : Option Text) (accepts : Text → Bool) (message : Text → Text) : Except Text Unit :=
  match given value with
  | none => .ok ()
  | some t => if accepts t then .ok () else .error (message t)

def checkDto (intl : Intl) (dto : UpdateDigestPreferencesDto) : Except Text Unit := do
  checkField dto.timezone intl.isValidTimezone fun zone => text "Invalid IANA timezone: \"" ++ zone ++ text "\""
  checkField dto.quietHoursStart (fun start => (hoursAndMinutes start).isSome)
    fun _ => text "quietHoursStart must be in HH:mm 24-hour format"
  checkField dto.quietHoursEnd (fun endTime => (hoursAndMinutes endTime).isSome)
    fun _ => text "quietHoursEnd must be in HH:mm 24-hour format"

/-- What is given takes the place of what was there. -/
def assign (dto : UpdateDigestPreferencesDto) (pref : UserDigestPreferences) : UserDigestPreferences where
  digestEnabled := dto.digestEnabled.getD pref.digestEnabled
  digestIntervalMinutes := dto.digestIntervalMinutes.getD pref.digestIntervalMinutes
  timezone := dto.timezone.getD pref.timezone
  quietHoursEnabled := dto.quietHoursEnabled.getD pref.quietHoursEnabled
  quietHoursStart := dto.quietHoursStart.getD pref.quietHoursStart
  quietHoursEnd := dto.quietHoursEnd.getD pref.quietHoursEnd
  maxDigestAlerts := dto.maxDigestAlerts.getD pref.maxDigestAlerts

/-- The entity that `updatePreferences` saves; a new one has the defaults where nothing is given. -/
def prepare (s : State) (userId : Nat) (dto : UpdateDigestPreferencesDto) : MonitorDigestPreference :=
  match findOne s userId with
  | none => ⟨none, userId, assign dto defaultPreferences⟩
  | some pref => { pref with preferences := assign dto pref.preferences }

/-- `shouldHoldAlert`, once the preferences are there. -/
def holdsAlert (intl : Intl) (pref : UserDigestPreferences) (now : Int) : Except Text Bool :=
  if pref.digestEnabled then .ok true
  else if pref.quietHoursEnabled then
    isWithinQuietHours intl now pref.timezone pref.quietHoursStart pref.quietHoursEnd
  else .ok false

def shouldHoldAlert (intl : Intl) (s : State) (userId : Nat) (now : Int) : Except Text Bool :=
  holdsAlert intl (getPreferences s userId) now

inductive Act
  | update (userId : Nat) (dto : UpdateDigestPreferencesDto)
  | save (call : Nat)

/-- A second row for a user is refused by the unique index. -/
def save (s : State) (entity : MonitorDigestPreference) : State :=
  match entity.id with
  | none =>
      if s.rows.any fun row => row.userId = entity.userId then s
      else { s with rows := s.rows ++ [{ entity with id := some s.nextId }], nextId := s.nextId + 1 }
  | some id => { s with rows := s.rows.map fun row => if row.id = some id then entity else row }

def step (intl : Intl) (s : State) : Act → Option State
  | .update userId dto =>
      match checkDto intl dto with
      | .error _ => none
      | .ok _ => some { s with calls := s.calls ++ [prepare s userId dto] }
  | .save call => do
      let entity ← s.calls[call]?
      some (save { s with calls := s.calls.eraseIdx call } entity)

/-- What `Intl` does with a time zone that it takes: `UTC` is one, the empty text is none, and each of them has a time. -/
structure Clock (intl : Intl) : Prop where
  utc : intl.isValidTimezone (text "UTC") = true
  empty : intl.isValidTimezone [] = false
  parts : ∀ date zone, intl.isValidTimezone zone = true → ∃ hours minutes hour minute,
    intl.formatToParts date zone = [(.hour, hours), (.literal, text ":"), (.minute, minutes)] ∧
      parseInt hours = some hour ∧ parseInt minutes = some minute ∧ hour ≤ 24 ∧ minute < 60

theorem Clock.minutes {intl : Intl} (h : Clock intl) (date : Int) {zone : Text} (hzone : intl.isValidTimezone zone = true) :
    ∃ current, getLocalMinutesInTimezone intl date zone = some current ∧ current < 1440 := by
  obtain ⟨hours, minutes, hour, minute, hparts, hhour, hminute, hless, hsixty⟩ := h.parts date zone hzone
  simp only [getLocalMinutesInTimezone, hparts, List.foldl_cons, List.foldl_nil, hhour, hminute, Option.some.injEq]
  split
  · exact ⟨0 * 60 + minute, rfl, by omega⟩
  · exact ⟨hour * 60 + minute, rfl, by omega⟩

section Times

variable {t hours minutes : Text} {u v : UInt16}

theorem exists_digit_le {hi : Char} {k : Nat} (hhi : (unit hi).toNat = 48 + k) (hk : k < 10)
    (h : between '0' hi u = true) : ∃ d ≤ k, u = unit '0' + d.toUInt16 := by
  simp only [between, Bool.and_eq_true, decide_eq_true_eq, UInt16.le_iff_toNat_le, hhi] at h
  have hdigit : isDigit u = true := by
    simp only [isDigit, between, Bool.and_eq_true, decide_eq_true_eq, UInt16.le_iff_toNat_le]
    exact ⟨h.1, h.2.trans (show 48 + k ≤ 57 by omega)⟩
  obtain ⟨d, hd, rfl⟩ := exists_digit hdigit
  refine ⟨d, ?_, rfl⟩
  have hle := h.2
  have hvalue : ∀ d < 10, (unit '0' + d.toUInt16).toNat = 48 + d := by decide
  rw [hvalue d hd] at hle
  omega

theorem digitsValue_pair {i j : Nat} (hi : i < 10) (hj : j < 10) :
    digitsValue [unit '0' + i.toUInt16, unit '0' + j.toUInt16] = 10 * i + j := by
  have hvalue : ∀ d < 10, (unit '0' + d.toUInt16 - unit '0').toNat = d := by decide
  rw [digitsValue, List.foldl_cons, List.foldl_cons, List.foldl_nil, hvalue i hi, hvalue j hj, Nat.mul_zero, Nat.zero_add]

/-- The hour of a time that is accepted. -/
theorem digitsValue_hours (h : between '0' '1' u = true ∧ isDigit v = true ∨ u = unit '2' ∧ between '0' '3' v = true) :
    digitsValue [u, v] < 24 ∧ isSpace u = false ∧ isSpace v = false := by
  rcases h with ⟨hu, hv⟩ | ⟨rfl, hv⟩
  · obtain ⟨i, hi, rfl⟩ := @exists_digit_le u '1' 1 rfl (by omega) hu
    obtain ⟨j, hj, rfl⟩ := exists_digit hv
    rw [digitsValue_pair (by omega) hj]
    exact ⟨by omega, (digit_facts i (by omega)).1, (digit_facts j hj).1⟩
  · obtain ⟨j, hj, rfl⟩ := @exists_digit_le v '3' 3 rfl (by omega) hv
    rw [show unit '2' = unit '0' + (2 : Nat).toUInt16 from rfl, digitsValue_pair (by omega) (by omega)]
    exact ⟨by omega, (digit_facts 2 (by omega)).1, (digit_facts j (by omega)).1⟩

theorem digitsValue_minutes (hu : between '0' '5' u = true) (hv : isDigit v = true) :
    digitsValue [u, v] < 60 ∧ isSpace u = false ∧ isSpace v = false := by
  obtain ⟨i, hi, rfl⟩ := @exists_digit_le u '5' 5 rfl (by omega) hu
  obtain ⟨j, hj, rfl⟩ := exists_digit hv
  rw [digitsValue_pair (by omega) hj]
  exact ⟨by omega, (digit_facts i (by omega)).1, (digit_facts j hj).1⟩

/-- A time that is accepted is within the day, and there are no blanks around it. -/
theorem hoursAndMinutes_spec (h : hoursAndMinutes t = some (hours, minutes)) :
    trim t = t ∧ digitsValue hours < 24 ∧ digitsValue minutes < 60 := by
  unfold hoursAndMinutes at h
  split at h
  next a b colon c d =>
    split at h
    next haccepted =>
      simp only [Bool.and_eq_true, Bool.or_eq_true, beq_iff_eq] at haccepted
      obtain ⟨⟨⟨hab, rfl⟩, hc⟩, hd⟩ := haccepted
      obtain ⟨rfl, rfl⟩ := Prod.mk.inj (Option.some.inj h)
      obtain ⟨hhours, ha, hb⟩ := digitsValue_hours hab
      obtain ⟨hminutes, hc, hd⟩ := digitsValue_minutes hc hd
      refine ⟨trim_eq_self ?_, hhours, hminutes⟩
      simp [ha, hb, hc, hd]
      decide
    next => cases h
  next => cases h

theorem parseTimeMinutes_nil : ∃ message, parseTimeMinutes [] = .error message := ⟨_, rfl⟩

end Times

theorem exists_minutes {t : Text} (h : t = [] ∨ (hoursAndMinutes t).isSome = true) (hne : t ≠ []) :
    ∃ time, parseTimeMinutes t = .ok time ∧ time < 1440 := by
  obtain ⟨⟨hours, minutes⟩, hparts⟩ := Option.isSome_iff_exists.mp (h.resolve_left hne)
  obtain ⟨htrim, hhours, hminutes⟩ := hoursAndMinutes_spec hparts
  refine ⟨digitsValue hours * 60 + digitsValue minutes, ?_, by omega⟩
  rw [parseTimeMinutes, htrim, hparts]

/-- What the checks let into a row. -/
structure Accepted (intl : Intl) (pref : UserDigestPreferences) : Prop where
  timezone : pref.timezone = [] ∨ intl.isValidTimezone pref.timezone = true
  start : pref.quietHoursStart = [] ∨ (hoursAndMinutes pref.quietHoursStart).isSome = true
  endTime : pref.quietHoursEnd = [] ∨ (hoursAndMinutes pref.quietHoursEnd).isSome = true

theorem accepted_default {intl : Intl} (h : Clock intl) : Accepted intl defaultPreferences :=
  ⟨.inr h.utc, .inr (by decide), .inr (by decide)⟩

theorem checkField_eq_ok {value : Option Text} {accepts : Text → Bool} {message : Text → Text} {old : Text}
    (h : checkField value accepts message = .ok ()) (hold : old = [] ∨ accepts old = true) :
    value.getD old = [] ∨ accepts (value.getD old) = true := by
  cases hvalue : value with
  | none => exact hold
  | some t =>
      cases t with
      | nil => exact .inl rfl
      | cons u t =>
          rw [hvalue, checkField, given] at h
          · exact .inr (by simpa using h)
          · exact nofun

theorem Accepted.assign {intl : Intl} {pref : UserDigestPreferences} {dto : UpdateDigestPreferencesDto}
    (h : Accepted intl pref) (hdto : checkDto intl dto = .ok ()) : Accepted intl (assign dto pref) := by
  obtain ⟨⟨⟩, hzone, hrest⟩ := bind_eq_ok.mp hdto
  obtain ⟨⟨⟩, hstart, hend⟩ := bind_eq_ok.mp hrest
  exact ⟨checkField_eq_ok hzone h.timezone, checkField_eq_ok hstart h.start, checkField_eq_ok hend h.endTime⟩

structure Invariant (intl : Intl) (s : State) : Prop where
  rows : ∀ row ∈ s.rows, Accepted intl row.preferences
  calls : ∀ entity ∈ s.calls, Accepted intl entity.preferences

section Steps

variable {intl : Intl} {s : State}

theorem Invariant.getPreferences (h : Invariant intl s) (hclock : Clock intl) (userId : Nat) :
    Accepted intl (getPreferences s userId) := by
  rw [QuietHours.getPreferences]
  cases hfind : findOne s userId with
  | none => exact accepted_default hclock
  | some row => exact h.rows row (List.mem_of_find?_eq_some hfind)

theorem Invariant.prepare (h : Invariant intl s) (hclock : Clock intl) (userId : Nat) {dto : UpdateDigestPreferencesDto}
    (hdto : checkDto intl dto = .ok ()) : Accepted intl (prepare s userId dto).preferences := by
  rw [QuietHours.prepare]
  cases hfind : findOne s userId with
  | none => exact (accepted_default hclock).assign hdto
  | some row => exact (h.rows row (List.mem_of_find?_eq_some hfind)).assign hdto

theorem Invariant.save (h : Invariant intl s) {entity : MonitorDigestPreference} (hentity : Accepted intl entity.preferences) :
    Invariant intl (save s entity) := by
  rw [QuietHours.save]
  split
  · split
    · exact h
    · refine ⟨fun row hrow => ?_, h.calls⟩
      rcases List.mem_append.mp hrow with hold | hnew
      · exact h.rows row hold
      · rw [List.mem_singleton.mp hnew]
        exact hentity
  · refine ⟨fun row hrow => ?_, h.calls⟩
    obtain ⟨old, hold, rfl⟩ := List.mem_map.mp hrow
    split
    · exact hentity
    · exact h.rows old hold

theorem invariant_step (hclock : Clock intl) : Preserves (step intl) always (Invariant intl) := by
  intro s a t h _ hstep
  cases a with
  | update userId dto =>
      rw [step] at hstep
      split at hstep
      next => cases hstep
      next hdto =>
        obtain rfl := Option.some.inj hstep
        refine ⟨h.rows, fun entity hentity => ?_⟩
        rcases List.mem_append.mp hentity with hold | hnew
        · exact h.calls entity hold
        · rw [List.mem_singleton.mp hnew]
          exact h.prepare hclock userId hdto
  | save call =>
      obtain ⟨entity, hcall, hsave⟩ := Option.bind_eq_some_iff.mp hstep
      obtain rfl := Option.some.inj hsave
      have hrest : Invariant intl { s with calls := s.calls.eraseIdx call } :=
        ⟨h.rows, fun other hother => h.calls other (List.mem_of_mem_eraseIdx hother)⟩
      exact hrest.save (h.calls entity (List.mem_of_getElem? hcall))

end Steps

/-- What is answered is right for the preferences: an alert is held for a digest, and in the hours that go around the
day from the start on and stop in front of the end. It throws if one of these was given as the empty text. -/
structure Holds (intl : Intl) (pref : UserDigestPreferences) (now : Int) (answer : Except Text Bool) : Prop where
  throws : (∃ message, answer = .error message) ↔
    pref.digestEnabled = false ∧ pref.quietHoursEnabled = true ∧ (pref.quietHoursStart = [] ∨ pref.quietHoursEnd = [])
  holds : answer = .ok true ↔ pref.digestEnabled = true ∨ pref.quietHoursEnabled = true ∧
    ∃ start endTime current, parseTimeMinutes pref.quietHoursStart = .ok start ∧
      parseTimeMinutes pref.quietHoursEnd = .ok endTime ∧
      getLocalMinutesInTimezone intl now (if pref.timezone = [] then text "UTC" else pref.timezone) = some current ∧
      ahead 1440 start current < ahead 1440 start endTime

section Answers

variable {intl : Intl} {now : Int} {zone startText endText : Text} {startMin endMin current : Nat}

theorem isWithinQuietHours_eq (hstart : parseTimeMinutes startText = .ok startMin) (hend : parseTimeMinutes endText = .ok endMin)
    (hstartMin : startMin < 1440) (hendMin : endMin < 1440) (hcurrent : current < 1440)
    (hlocal : getLocalMinutesInTimezone intl now (if !intl.isValidTimezone zone then text "UTC" else zone) = some current) :
    isWithinQuietHours intl now zone startText endText =
      .ok (decide (ahead 1440 startMin current < ahead 1440 startMin endMin)) := by
  have hbody : isWithinQuietHours intl now zone startText endText =
      if startMin = endMin then .ok false
      else if startMin < endMin then .ok (decide (startMin ≤ current) && decide (current < endMin))
      else .ok (decide (startMin ≤ current) || decide (current < endMin)) := by
    rw [isWithinQuietHours, hstart, hend]
    dsimp only [bind, Except.bind, pure, Except.pure]
    rw [hlocal]
    rfl
  rw [hbody]
  rcases Nat.lt_trichotomy startMin endMin with hlt | rfl | hgt
  · rw [if_neg hlt.ne, if_pos hlt, ← Bool.decide_and]
    exact congrArg Except.ok (decide_eq_decide.mpr (ahead_lt_of_lt hendMin hcurrent hlt).symm)
  · rw [if_pos rfl, decide_eq_false (not_ahead_lt_self hstartMin)]
  · rw [if_neg hgt.ne', if_neg hgt.not_gt, ← Bool.decide_or]
    exact congrArg Except.ok (decide_eq_decide.mpr (ahead_lt_of_gt hstartMin hcurrent hgt).symm)

theorem isWithinQuietHours_throws (h : startText = [] ∨ endText = []) :
    ∃ message, isWithinQuietHours intl now zone startText endText = .error message := by
  rw [isWithinQuietHours]
  cases hstart : parseTimeMinutes startText with
  | error message => exact ⟨message, rfl⟩
  | ok startMin =>
      rcases h with rfl | rfl
      · cases hstart
      · exact ⟨_, rfl⟩

theorem zone_eq {pref : UserDigestPreferences} (hpref : Accepted intl pref) (hclock : Clock intl) :
    (if !intl.isValidTimezone pref.timezone then text "UTC" else pref.timezone) =
      if pref.timezone = [] then text "UTC" else pref.timezone := by
  by_cases hzone : pref.timezone = []
  · rw [if_pos hzone, hzone, hclock.empty]
    rfl
  · rw [if_neg hzone, hpref.timezone.resolve_left hzone]
    rfl

theorem exists_current {pref : UserDigestPreferences} (hpref : Accepted intl pref) (hclock : Clock intl) (now : Int) :
    ∃ current, getLocalMinutesInTimezone intl now (if pref.timezone = [] then text "UTC" else pref.timezone) = some current ∧
      current < 1440 := by
  by_cases hzone : pref.timezone = []
  · rw [if_pos hzone]
    exact hclock.minutes now hclock.utc
  · rw [if_neg hzone]
    exact hclock.minutes now (hpref.timezone.resolve_left hzone)

end Answers

theorem holds_of_accepted {intl : Intl} {pref : UserDigestPreferences} (hclock : Clock intl) (hpref : Accepted intl pref)
    (now : Int) : Holds intl pref now (holdsAlert intl pref now) := by
  rw [holdsAlert]
  cases hdigest : pref.digestEnabled with
  | true => exact ⟨by simp [hdigest], by simp [hdigest]⟩
  | false =>
      cases hquiet : pref.quietHoursEnabled with
      | false => exact ⟨by simp [hdigest, hquiet], by simp [hdigest, hquiet]⟩
      | true =>
          rw [if_neg Bool.false_ne_true, if_pos rfl]
          by_cases hempty : pref.quietHoursStart = [] ∨ pref.quietHoursEnd = []
          · obtain ⟨message, hthrows⟩ := @isWithinQuietHours_throws intl now pref.timezone _ _ hempty
            rw [hthrows]
            refine ⟨iff_of_true ⟨message, rfl⟩ ⟨hdigest, hquiet, hempty⟩, iff_of_false nofun ?_⟩
            rintro (hon | ⟨-, start, endTime, current, hstart, hend, -⟩)
            · exact Bool.false_ne_true (hdigest.symm.trans hon)
            · rcases hempty with hnone | hnone
              · rw [hnone] at hstart
                cases hstart
              · rw [hnone] at hend
                cases hend
          · obtain ⟨hstartSome, hendSome⟩ := not_or.mp hempty
            obtain ⟨startMin, hstart, hstartMin⟩ := exists_minutes hpref.start hstartSome
            obtain ⟨endMin, hend, hendMin⟩ := exists_minutes hpref.endTime hendSome
            obtain ⟨current, hlocal, hcurrent⟩ := exists_current hpref hclock now
            rw [isWithinQuietHours_eq hstart hend hstartMin hendMin hcurrent ((zone_eq hpref hclock).symm ▸ hlocal)]
            refine ⟨iff_of_false nofun fun h => hempty h.2.2, ?_⟩
            rw [Except.ok.injEq, decide_eq_true_eq]
            constructor
            · exact fun h => .inr ⟨hquiet, startMin, endMin, current, hstart, hend, hlocal, h⟩
            · rintro (hon | ⟨-, start, endTime, minute, hstarts, hends, hminute, h⟩)
              · exact absurd (hdigest.symm.trans hon) Bool.false_ne_true
              · rw [hstart, Except.ok.injEq] at hstarts
                rw [hend, Except.ok.injEq] at hends
                rw [hlocal, Option.some.injEq] at hminute
                rwa [hstarts, hends, hminute]

theorem holding_exact {intl : Intl} (hclock : Clock intl) (acts : List Act) :
    Throughout (step intl) (fun s => ∀ userId now,
      Holds intl (getPreferences s userId) now (shouldHoldAlert intl s userId now)) {} acts :=
  (invariant_step hclock).throughout
    (fun _ h userId now => holds_of_accepted hclock (h.getPreferences hclock userId) now)
    ⟨List.forall_mem_nil _, List.forall_mem_nil _⟩ (guarded_always (step intl) _ acts)

/-- Times in `UTC`, from milliseconds. -/
def utcOnly : Intl where
  isValidTimezone zone := zone == text "UTC"
  formatToParts date _ :=
    [(.hour, ofNat (date / 3600000 % 24).toNat), (.literal, text ":"), (.minute, ofNat (date / 60000 % 60).toNat)]

theorem parseInt_ofNat (n : Nat) : parseInt (ofNat n) = some n := by
  obtain ⟨u, rest, hcons⟩ := List.exists_cons_of_ne_nil (ofNat_ne_nil n)
  have hblank : trimStart (ofNat n) = ofNat n := by
    have hspace : isSpace u = false := isSpace_ofNat u (hcons ▸ List.mem_cons_self)
    rw [hcons, trimStart, List.dropWhile_cons_of_neg (by simp [hspace])]
  have hdigits : (ofNat n).takeWhile isDigit = u :: rest := by
    rw [← hcons]
    exact List.takeWhile_eq_self_iff.mpr (digits_ofNat n)
  rw [parseInt, hblank, hdigits]
  exact congrArg some ((congrArg digitsValue hcons).symm.trans (digitsValue_ofNat n))

theorem clock_utcOnly : Clock utcOnly where
  utc := by decide
  empty := by decide
  parts date _ _ := ⟨_, _, _, _, rfl, parseInt_ofNat _, parseInt_ofNat _, by omega, by omega⟩

/-- Quiet hours over midnight, and then without an end. -/
def nightThenNoEnd : List Act :=
  [.update 7 { quietHoursEnabled := some true }, .save 0, .update 7 { quietHoursEnd := some [] }, .save 0]

theorem holding_nightThenNoEnd : Throughout (step utcOnly) (fun s => ∀ userId now,
    Holds utcOnly (getPreferences s userId) now (shouldHoldAlert utcOnly s userId now)) {} nightThenNoEnd :=
  holding_exact clock_utcOnly nightThenNoEnd

end Savitools.Monitor.QuietHours
