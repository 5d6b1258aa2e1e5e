import Savitools.Common.SecretTexts
import Savitools.Federation.AnchorFlow
import Savitools.Net.Urls

namespace Savitools.Federation.TimelineSecrets

open Strings.CodeUnits Strings.Decimals Strings.Replace Net.Urls Net.PlainUrls Json.Numbers Json.Values Json.Reading Common.Exceptions
open Common.SsrfGuard Common.Redaction Common.RedactedValues Common.SecretTexts Domains Fetching StellarToml Diagnostics AnchorFlow

def entryTexts (entry : Sep24TimelineEntry) : List Text :=
  entry.request.elim [] (fun request => [request.1, request.2]) ++
    entry.response.elim [] (fun response => names response.2 ++ strings response.2) ++ [entry.message]

variable {Url N : Type} {IsToken : Text → Prop} (hshape : ∀ t, IsToken t → IsJwt t)

variable (IsToken) in
def DiscreetEntry (entry : Sep24TimelineEntry) : Prop := ∀ t ∈ entryTexts entry, Discreet IsToken t

theorem discreetEntry_iff {entry : Sep24TimelineEntry} :
    DiscreetEntry IsToken entry ↔
      (∀ request ∈ entry.request, Discreet IsToken request.1 ∧ Discreet IsToken request.2) ∧
        (∀ response ∈ entry.response, (∀ t ∈ names response.2, Discreet IsToken t) ∧
          ∀ t ∈ strings response.2, Discreet IsToken t) ∧ Discreet IsToken entry.message := by
  obtain ⟨stage, request, response, message, diagnostic⟩ := entry
  rw [DiscreetEntry, entryTexts, List.forall_mem_append, List.forall_mem_append, List.forall_mem_singleton, and_assoc]
  refine and_congr ?_ (and_congr_left fun _ => ?_)
  · cases request <;> simp
  · cases response with
    | none => simp
    | some response => simp [or_imp, forall_and]

/-- The texts of an answer to a poll that are recorded as they are: the message of a failure, the
start of what is no JSON, and otherwise the names of the members, with the error or the state. -/
def pollTexts : Except Exception (Response × Text) → List Text
  | .error error => [error.message]
  | .ok (res, raw) =>
      match parse raw with
      | none => [raw.take 512]
      | some parsed =>
          names (redactValue none parsed) ++
            (if res.ok then (statusOf parsed).toList else (textMember (text "error") parsed).toList)

/-- After an answer with a state that is not the last, polling goes on. -/
def goesOn : Except Exception (Response × Text) → Bool
  | .error _ => false
  | .ok (res, raw) =>
      res.ok && (parse raw).any fun parsed =>
        (statusOf parsed).any fun status => status != [] && !SEP24_TERMINAL_STATES.contains status

include hshape

theorem discreetEntry_discovery (server : Text) (webAuthEndpoint : Option Text) :
    DiscreetEntry IsToken (discoveryEntry server webAuthEndpoint) ↔
      Discreet IsToken server ∧ ∀ endpoint ∈ webAuthEndpoint, Discreet IsToken endpoint := by
  have hfixed : ∀ t ∈ [text "transferServerSep0024", text "webAuthEndpoint", text "Discovered SEP-24 transfer server"],
      Discreet IsToken t := fun t ht =>
    discreet_of_plainWords hshape (List.all_eq_true.mp (by decide :
      [text "transferServerSep0024", text "webAuthEndpoint", text "Discovered SEP-24 transfer server"].all plainWords = true) t ht)
  cases webAuthEndpoint <;>
    simp_all [DiscreetEntry, entryTexts, discoveryEntry, names, fieldNames, strings, fieldStrings]

theorem discreetEntry_authentication (jwt : Option Text) : DiscreetEntry IsToken (authenticationEntry jwt) := by
  rw [authenticationEntry]
  split
  · exact List.forall_mem_singleton.mpr (discreet_of_plainWords hshape (by decide))
  · exact List.forall_mem_singleton.mpr (discreet_of_plainWords hshape (by decide))

theorem discreetEntry_redirect {urls : Urls Url} {interactiveUrl : Text} {parsed : Url}
    (hparse : urls.parse interactiveUrl = some parsed) (anchorOrigin : Text) :
    DiscreetEntry IsToken (redirectEntry urls interactiveUrl (urls.origin parsed) anchorOrigin) ↔
      Discreet IsToken (redactUrl urls interactiveUrl) ∧ Discreet IsToken anchorOrigin := by
  have hmethod : Discreet IsToken (text "GET") := discreet_of_plainWords hshape (by decide)
  have horigin (h : Discreet IsToken (redactUrl urls interactiveUrl)) : Discreet IsToken (urls.origin parsed) := by
    refine h.of_isInfix ?_
    rw [redactUrl, hparse]
    exact (List.prefix_append _ _).isInfix
  have hmessage : Discreet IsToken (text "Interactive URL origin " ++ urls.origin parsed ++
      text " differs from anchor origin " ++ anchorOrigin) ↔
      Discreet IsToken (urls.origin parsed) ∧ Discreet IsToken anchorOrigin := by
    have hmiddle : text " differs from anchor origin " = unit ' ' :: text "differs from anchor origin " := rfl
    rw [List.append_assoc, List.append_assoc, hmiddle, discreet_label_iff hshape (by decide) (by decide),
      List.cons_append, discreet_space_iff hshape, discreet_label_iff hshape (by decide) (by decide)]
  have hmatches : Discreet IsToken (text "Interactive URL origin matches anchor origin") :=
    discreet_of_plainWords hshape (by decide)
  rw [discreetEntry_iff, redirectEntry]
  simp only [Option.mem_def, Option.some.injEq, forall_eq', reduceCtorEq, false_implies, implies_true, true_and, hmethod]
  refine and_congr_right fun hurl => ?_
  split
  next => rw [hmessage, and_iff_right (horigin hurl)]
  next heq =>
    rw [← not_not.mp heq]
    exact iff_of_true hmatches (horigin hurl)

theorem discreetEntry_interactive (urls : Urls Url) (endpoint : Text) (interactive : Interactive) :
    DiscreetEntry IsToken (interactiveEntry urls endpoint interactive) ↔
      Discreet IsToken (redactUrl urls endpoint) ∧
        ∀ t ∈ names (redactValue none interactive.json), Discreet IsToken t := by
  have hmethod : Discreet IsToken (text "POST") := discreet_of_plainWords hshape (by decide)
  have hmessage : Discreet IsToken (text "Interactive transaction created; open the URL in a sandbox tab") :=
    discreet_of_plainWords hshape (by decide)
  rw [discreetEntry_iff, interactiveEntry]
  simp only [Option.mem_def, Option.some.injEq, forall_eq', hmethod, hmessage, true_and, and_true]
  exact and_congr_right fun _ => and_iff_left (discreet_redacted hshape interactive.json)

/-- An answer that is JSON: of the error or the state the whole is shown, of the rest only names. -/
theorem discreetEntry_answer {url : Text} {res : Response} {raw : Text} {parsed : Value Number}
    (hparse : parse raw = some parsed) (known : Known) :
    DiscreetEntry IsToken (recordAnswer (text "GET", url) res parsed known).1 ↔
      Discreet IsToken url ∧ ∀ t ∈ pollTexts (.ok (res, raw)), Discreet IsToken t := by
  have hmethod : Discreet IsToken (text "GET") := discreet_of_plainWords hshape (by decide)
  have hbody := discreet_redacted hshape parsed
  rw [discreetEntry_iff]
  simp only [pollTexts, hparse, List.forall_mem_append, recordAnswer]
  cases hok : res.ok with
  | false =>
      have hstatus : Discreet IsToken (text "HTTP " ++ ofNat res.status) := by
        rw [discreet_label_iff hshape (by decide) (by decide)]
        simpa using discreet_number hshape res.status [] (by decide)
      rw [if_pos rfl, if_neg Bool.false_ne_true, discreet_label_iff hshape (by decide) (by decide), anchorErrorOf]
      cases textMember (text "error") parsed with
      | none => simpa [hmethod, hstatus] using fun _ _ => hbody
      | some error => simpa [hmethod] using fun _ _ _ => hbody
  | true =>
      have hunknown : Discreet IsToken (text "Status response did not include a recognized status field") :=
        discreet_of_plainWords hshape (by decide)
      have hempty : Discreet IsToken [] := discreet_of_plainWords hshape (by decide)
      rw [if_neg Bool.false_ne_true.symm, if_pos rfl]
      cases statusOf parsed with
      | none => simpa [hmethod, hunknown] using fun _ _ => hbody
      | some status =>
          by_cases hne : status = []
          · have hfilter : (some ([] : Text)).filter (· ≠ []) = none := rfl
            subst hne
            simp only [hfilter]
            simpa [hmethod, hunknown, hempty] using fun _ _ => hbody
          · have hfilter : (some status).filter (· ≠ []) = some status := by simp [Option.filter, hne]
            have hmessage : Discreet IsToken (text "Transaction status: " ++ status) ↔ Discreet IsToken status :=
              discreet_label_iff hshape (by decide) (by decide)
            simp only [hfilter]
            simpa [hmethod, hmessage] using fun _ _ _ => hbody

theorem discreetEntry_poll (urls : Urls Url) (network : Network) (pollUrl : Text) (known : Known) :
    DiscreetEntry IsToken (pollOnce urls network pollUrl known).1 ↔
      Discreet IsToken (redactUrl urls pollUrl) ∧
        ∀ t ∈ pollTexts (pollAnswer urls network pollUrl), Discreet IsToken t := by
  have hmethod : Discreet IsToken (text "GET") := discreet_of_plainWords hshape (by decide)
  rw [pollOnce]
  cases pollAnswer urls network pollUrl with
  | error error =>
      rw [discreetEntry_iff]
      simp [failedPoll, pollTexts, hmethod]
  | ok answer =>
      obtain ⟨res, raw⟩ := answer
      cases hparse : parse raw with
      | none =>
          have hmessage : Discreet IsToken (text "Anchor returned a non-JSON status response") :=
            discreet_of_plainWords hshape (by decide)
          rw [discreetEntry_iff]
          simp [pollTexts, hparse, names, strings, hmethod, hmessage]
      | some parsed =>
          cases parsed with
          | null =>
              have hmessage : Discreet IsToken (nullMember (if res.ok then text "more_info_url" else text "error")).message := by
                cases res.ok <;> exact discreet_of_plainWords hshape (by decide)
              have hstatus : statusOf (Value.null : Value Number) = none := rfl
              have herror : textMember (text "error") (Value.null : Value Number) = none := rfl
              simp only [hparse]
              rw [discreetEntry_iff]
              simp [failedPoll, pollTexts, hparse, redactValue_of_not_sensitive, isSensitiveHint, names, hstatus, herror,
                hmethod, hmessage]
          | _ =>
              simp only [hparse]
              exact discreetEntry_answer hshape hparse known

omit hshape

variable (IsToken) in
/-- Of the polls that are reached no text is recorded that gives a secret away. -/
def DiscreetRounds (urls : Urls Url) (statusEndpoint id : Text) : List Round → Prop
  | [] => True
  | round :: rounds =>
      (round.cancelled || round.expired) = false → ∀ pollUrl, appendQuery urls statusEndpoint [(text "id", id)] = .ok pollUrl →
        (Discreet IsToken (redactUrl urls pollUrl) ∧
          ∀ t ∈ pollTexts (pollAnswer urls round.network pollUrl), Discreet IsToken t) ∧
        (goesOn (pollAnswer urls round.network pollUrl) = true → DiscreetRounds urls statusEndpoint id rounds)

/-- A terminal state is one of the list. -/
def Settled (known : Known) : Prop :=
  known.terminal = true → ∃ status ∈ SEP24_TERMINAL_STATES, known.finalStatus = some status

/-- What a recorded answer does to what is known: only a state can end in a terminal one. -/
theorem recordAnswer_step {request : Text × Text} {res : Response} {raw : Text} {parsed : Value Number} {known : Known}
    (hparse : parse raw = some parsed) (hknown : Settled known) :
    (recordAnswer request res parsed known).2.2 = goesOn (.ok (res, raw)) ∧
      Settled (recordAnswer request res parsed known).2.1 := by
  rw [recordAnswer, goesOn, hparse]
  cases res.ok with
  | false => exact ⟨rfl, hknown⟩
  | true =>
      rw [if_neg nofun, Option.any_some]
      cases statusOf parsed with
      | none => exact ⟨rfl, hknown⟩
      | some status =>
          by_cases hne : status = []
          · subst hne
            exact ⟨rfl, hknown⟩
          · have hfilter : (some status).filter (· ≠ []) = some status := by simp [Option.filter, hne]
            simp only [hfilter]
            refine ⟨by simp [hne], fun hterminal => ⟨status, ?_, rfl⟩⟩
            exact List.contains_iff_mem.mp hterminal

theorem pollOnce_step (urls : Urls Url) (network : Network) (pollUrl : Text) {known : Known} (hknown : Settled known) :
    (pollOnce urls network pollUrl known).2.2 = goesOn (pollAnswer urls network pollUrl) ∧
      Settled (pollOnce urls network pollUrl known).2.1 := by
  rw [pollOnce]
  cases pollAnswer urls network pollUrl with
  | error error => exact ⟨rfl, hknown⟩
  | ok answer =>
      obtain ⟨res, raw⟩ := answer
      cases hparse : parse raw with
      | none =>
          simp only [goesOn, hparse]
          exact ⟨(Bool.and_false _).symm, hknown⟩
      | some parsed =>
          cases parsed with
          | null =>
              simp only [goesOn, hparse]
              exact ⟨(Bool.and_false _).symm, hknown⟩
          | _ =>
              simp only [hparse]
              exact recordAnswer_step hparse hknown

include hshape

/-- The entries of the loop are as discreet as the answers that it gets to. -/
theorem pollLoop_discreet {urls : Urls Url} {pollTimeoutMs : Nat} {statusEndpoint id : Text} {rounds : List Round}
    {known last : Known} {entries : List Sep24TimelineEntry} (hknown : Settled known)
    (h : pollLoop urls pollTimeoutMs statusEndpoint id rounds known = some (.ok (entries, last))) :
    ((∀ entry ∈ entries, DiscreetEntry IsToken entry) ↔ DiscreetRounds IsToken urls statusEndpoint id rounds) ∧
      Settled last := by
  induction rounds generalizing known entries with
  | nil => cases h
  | cons round rounds ih =>
      rw [pollLoop] at h
      rw [DiscreetRounds]
      split at h
      next hcancelled =>
        cases h
        refine ⟨iff_of_true ?_ (by simp [hcancelled]), hknown⟩
        exact List.forall_mem_singleton.mpr (List.forall_mem_singleton.mpr (discreet_of_plainWords hshape (by decide)))
      next hcancelled =>
        split at h
        next hexpired =>
          cases h
          refine ⟨iff_of_true ?_ (by simp [hexpired]), hknown⟩
          refine List.forall_mem_singleton.mpr (List.forall_mem_singleton.mpr ?_)
          rw [List.append_assoc]
          exact (discreet_label_iff hshape (by decide) (by decide)).mpr (discreet_number hshape _ _ (by decide))
        next hexpired =>
          have hruns : (round.cancelled || round.expired) = false := by simp [hcancelled, hexpired]
          cases hurl : appendQuery urls statusEndpoint [(text "id", id)] with
          | error error =>
              rw [hurl] at h
              cases h
          | ok pollUrl =>
              obtain ⟨hgoes, hsettled⟩ := pollOnce_step urls round.network pollUrl hknown
              have hentry := discreetEntry_poll hshape urls round.network pollUrl known
              simp only [hruns, forall_const, Except.ok.injEq, forall_eq']
              rw [← hentry]
              rcases hpoll : pollOnce urls round.network pollUrl known with ⟨entry, learnt, goes⟩
              simp only [hurl, hpoll] at h hgoes hsettled ⊢
              subst hgoes
              cases hon : goesOn (pollAnswer urls round.network pollUrl) with
              | false =>
                  rw [hon, if_neg nofun] at h
                  cases h
                  refine ⟨?_, hsettled⟩
                  rw [List.forall_mem_singleton]
                  exact (and_iff_left nofun).symm
              | true =>
                  rw [hon, if_pos rfl] at h
                  obtain ⟨result, hloop, hresult⟩ := Option.map_eq_some_iff.mp h
                  cases result with
                  | error error => cases hresult
                  | ok rest =>
                      obtain ⟨later, last'⟩ := rest
                      cases hresult
                      obtain ⟨hrest, hlast⟩ := ih hsettled hloop
                      refine ⟨?_, hlast⟩
                      rw [List.forall_mem_cons, hrest]
                      exact and_congr_right fun _ => ⟨fun hrounds _ => hrounds, fun hrounds => hrounds rfl⟩

theorem pollStage_discreet {urls : Urls Url} {pollTimeoutMs : Nat} {server : Text} {id : Option Text} {rounds : List Round}
    {last : Known} {entries : List Sep24TimelineEntry}
    (h : pollStage urls pollTimeoutMs server id rounds = some (.ok (entries, last))) :
    ((∀ entry ∈ entries, DiscreetEntry IsToken entry) ↔
      ∀ id', id.filter (· ≠ []) = some id' → DiscreetRounds IsToken urls (statusEndpoint server) id' rounds) ∧ Settled last := by
  rw [pollStage] at h
  cases hid : id.filter (· ≠ []) with
  | none =>
      simp only [hid] at h
      cases h
      refine ⟨iff_of_true ?_ nofun, fun hstart => absurd hstart Bool.false_ne_true⟩
      exact List.forall_mem_singleton.mpr (List.forall_mem_singleton.mpr (discreet_of_plainWords hshape (by decide)))
  | some id' =>
      simp only [hid] at h
      obtain ⟨hentries, hlast⟩ := pollLoop_discreet hshape (fun hstart => absurd hstart Bool.false_ne_true) h
      exact ⟨hentries.trans (by simp), hlast⟩

theorem discreetEntry_terminal {known : Known} (h : Settled known) :
    ∀ entry ∈ terminalEntries known, DiscreetEntry IsToken entry := by
  rw [terminalEntries]
  split
  next hterminal =>
    obtain ⟨status, hstatus, hfinal⟩ := h hterminal
    refine List.forall_mem_singleton.mpr (List.forall_mem_singleton.mpr ?_)
    rw [hfinal, Option.getD_some, discreet_label_iff hshape (by decide) (by decide)]
    exact discreet_of_plainWords hshape (List.all_eq_true.mp (by decide : SEP24_TERMINAL_STATES.all plainWords = true) _ hstatus)
  next => exact List.forall_mem_nil _

omit hshape

variable (IsToken) in
/-- What the anchor gives that is recorded as it is gives no secret away: its servers, the origin and
path of its URLs, the names in its answers, and of the answers to polls errors and states. -/
def DiscreetAnchor (source : TomlSource Url N) (calls : AnchorCalls) (params : Sep24DebuggerParams) : Prop :=
  ∀ server webAuthEndpoint interactive,
    discoverAnchor source (normalizeDomain source.beyondAscii params.domain) = .ok (server, webAuthEndpoint) →
    createInteractive source.urls calls (interactiveEndpoint server params.flow) = .ok interactive →
      (Discreet IsToken server ∧ ∀ endpoint ∈ webAuthEndpoint, Discreet IsToken endpoint) ∧
      (Discreet IsToken (redactUrl source.urls interactive.url) ∧
        ∀ anchor, source.urls.parse server = some anchor → Discreet IsToken (source.urls.origin anchor)) ∧
      (Discreet IsToken (redactUrl source.urls (interactiveEndpoint server params.flow)) ∧
        ∀ t ∈ names (redactValue none interactive.json), Discreet IsToken t) ∧
      ∀ id, interactive.id.filter (· ≠ []) = some id →
        DiscreetRounds IsToken source.urls (statusEndpoint server) id calls.rounds

include hshape

omit hshape

theorem observeRedirect_ok {urls : Urls Url} {lookup : Text → Option (List Text)} {server interactiveUrl : Text}
    {origins : Text × Text} (h : observeRedirect urls lookup server interactiveUrl = .ok origins) :
    ∃ parsed anchor, urls.parse interactiveUrl = some parsed ∧ urls.parse server = some anchor ∧
      origins = (urls.origin parsed, urls.origin anchor) := by
  rw [observeRedirect, assertSafeNavigationUrl] at h
  cases hparse : urls.parse interactiveUrl with
  | none =>
      simp only [hparse] at h
      cases h
  | some parsed =>
      simp only [hparse] at h
      split at h
      next => cases h
      next =>
        cases hguard : assertPublicHostname lookup (urls.hostname parsed) with
        | error error =>
            rw [hguard] at h
            cases h
        | ok _ =>
            cases hanchor : urls.parse server with
            | none =>
                rw [hguard, hanchor] at h
                cases h
            | some anchor =>
                rw [hguard, hanchor] at h
                cases h
                exact ⟨parsed, anchor, rfl, rfl, rfl⟩

/-- A timeline comes back when every stage before the polls has gone through. -/
theorem timeline_of_debug {source : TomlSource Url N} {calls : AnchorCalls} {params : Sep24DebuggerParams}
    {result : Sep24DebuggerResult} (h : debugSep24InteractiveFlow source calls params = some (.ok result)) :
    ∃ server webAuthEndpoint interactive parsed anchor polls known,
      discoverAnchor source (normalizeDomain source.beyondAscii params.domain) = .ok (server, webAuthEndpoint) ∧
      createInteractive source.urls calls (interactiveEndpoint server params.flow) = .ok interactive ∧
      source.urls.parse interactive.url = some parsed ∧ source.urls.parse server = some anchor ∧
      pollStage source.urls params.pollTimeoutMs server interactive.id calls.rounds = some (.ok (polls, known)) ∧
      result.timeline =
        [discoveryEntry server webAuthEndpoint, authenticationEntry params.jwt,
          redirectEntry source.urls interactive.url (source.urls.origin parsed) (source.urls.origin anchor),
          interactiveEntry source.urls (interactiveEndpoint server params.flow) interactive] ++ polls ++
          terminalEntries known := by
  rw [debugSep24InteractiveFlow] at h
  cases hcheck : checkParams params (normalizeDomain source.beyondAscii params.domain) with
  | error error =>
      simp only [hcheck] at h
      cases h
  | ok _ =>
      cases hdiscover : discoverAnchor source (normalizeDomain source.beyondAscii params.domain) with
      | error error =>
          simp only [hcheck, hdiscover, Except.bind] at h
          cases h
      | ok discovered =>
          obtain ⟨server, webAuthEndpoint⟩ := discovered
          simp only [hcheck, hdiscover, Except.bind] at h
          cases hcreate : createInteractive source.urls calls (interactiveEndpoint server params.flow) with
          | error error =>
              simp only [hcreate] at h
              cases h
          | ok interactive =>
              simp only [hcreate] at h
              cases hobserve : observeRedirect source.urls calls.navigation server interactive.url with
              | error error =>
                  simp only [hobserve] at h
                  cases h
              | ok origins =>
                  obtain ⟨parsed, anchor, hparsed, hanchor, rfl⟩ := observeRedirect_ok hobserve
                  simp only [hobserve] at h
                  obtain ⟨polled, hpolled, hresult⟩ := Option.map_eq_some_iff.mp h
                  cases polled with
                  | error error => cases hresult
                  | ok polled =>
                      obtain ⟨polls, known⟩ := polled
                      cases hresult
                      exact ⟨server, webAuthEndpoint, interactive, parsed, anchor, polls, known, rfl, hcreate, hparsed,
                        hanchor, hpolled, rfl⟩

include hshape

/-- No text of a timeline gives a secret away exactly when none does that is recorded without
redaction. -/
theorem timeline_discreet_iff {source : TomlSource Url N} {calls : AnchorCalls} {params : Sep24DebuggerParams}
    {result : Sep24DebuggerResult} (h : debugSep24InteractiveFlow source calls params = some (.ok result)) :
    (∀ entry ∈ result.timeline, DiscreetEntry IsToken entry) ↔ DiscreetAnchor IsToken source calls params := by
  obtain ⟨server, webAuthEndpoint, interactive, parsed, anchor, polls, known, hdiscover, hcreate, hparsed, hanchor, hpolled,
    htimeline⟩ := timeline_of_debug h
  obtain ⟨hpolls, hsettled⟩ := pollStage_discreet hshape hpolled
  have hauthentication := discreetEntry_authentication hshape params.jwt
  have hterminal := discreetEntry_terminal hshape hsettled
  rw [htimeline, List.forall_mem_append, List.forall_mem_append, hpolls, and_iff_left hterminal, DiscreetAnchor]
  simp only [List.forall_mem_cons, hauthentication, true_and,
    discreetEntry_discovery hshape, discreetEntry_redirect hshape hparsed, discreetEntry_interactive hshape, and_assoc]
  constructor
  · rintro hall server' webAuthEndpoint' interactive' hdiscover' hcreate'
    obtain ⟨rfl, rfl⟩ := Prod.mk.inj (Except.ok.inj (hdiscover.symm.trans hdiscover'))
    obtain rfl := Except.ok.inj (hcreate.symm.trans hcreate')
    simpa [hanchor] using hall
  · intro hall
    simpa [hanchor] using hall server webAuthEndpoint interactive hdiscover hcreate

omit hshape

/-- The calls of a run that creates a transaction and gets one answer for its state. -/
def onePoll (body : Text) : AnchorCalls where
  probe := answering ⟨405, none, .ok []⟩
  post := answering ⟨200, none, .ok (text "\x7b\"url\":\"https://a.io/i\",\"id\":\"7\"\x7d")⟩
  navigation _ := some [text "93.184.216.34"]
  rounds := [⟨false, false, answering ⟨200, none, .ok body⟩⟩]

def depositParams : Sep24DebuggerParams :=
  ⟨text "a.io", text "deposit", text "USDC", unit 'G' :: List.replicate 55 (unit 'A'), none, none, none, 120000⟩

def anchorToml : TomlSource PlainUrl Nat :=
  knownToml plainUrls [(text "TRANSFER_SERVER_SEP0024", .str (text "https://a.io/s"))]

def timelineTexts : Option (Except Exception Sep24DebuggerResult) → List Text
  | some (.ok result) => result.timeline.flatMap entryTexts
  | _ => []

theorem exists_result {run : Option (Except Exception Sep24DebuggerResult)} (h : (timelineTexts run).isEmpty = false) :
    ∃ result, run = some (.ok result) ∧ timelineTexts run = result.timeline.flatMap entryTexts := by
  rcases run with - | error | result
  · cases h
  · cases h
  · exact ⟨result, rfl, rfl⟩

theorem completed_discreetAnchor : ∃ result,
    debugSep24InteractiveFlow anchorToml (onePoll (text "\x7b\"status\":\"completed\"\x7d")) depositParams = some (.ok result) ∧
      DiscreetAnchor IsJwt anchorToml (onePoll (text "\x7b\"status\":\"completed\"\x7d")) depositParams := by
  obtain ⟨result, hresult, htexts⟩ := exists_result (by decide +kernel :
    (timelineTexts (debugSep24InteractiveFlow anchorToml (onePoll (text "\x7b\"status\":\"completed\"\x7d")) depositParams)).isEmpty =
      false)
  have hplain : (timelineTexts (debugSep24InteractiveFlow anchorToml (onePoll (text "\x7b\"status\":\"completed\"\x7d"))
      depositParams)).all plainWords = true := by decide +kernel
  refine ⟨result, hresult, (timeline_discreet_iff (fun _ h => h) hresult).mp fun entry hentry t ht => ?_⟩
  rw [htexts] at hplain
  exact discreet_of_plainWords (fun _ h => h) (List.all_eq_true.mp hplain t (List.mem_flatMap_of_mem hentry ht))

/-- An anchor that answers a poll with the bare token puts it into the timeline. -/
theorem not_timeline_discreet : ¬∀ (Url N : Type) (source : TomlSource Url N) (calls : AnchorCalls)
    (params : Sep24DebuggerParams) (result : Sep24DebuggerResult),
    debugSep24InteractiveFlow source calls params = some (.ok result) →
      ∀ entry ∈ result.timeline, DiscreetEntry IsJwt entry := by
  intro h
  have hshown : (timelineTexts (debugSep24InteractiveFlow anchorToml (onePoll anchorToken) depositParams)).contains
      anchorToken = true := by decide +kernel
  obtain ⟨result, hresult, htexts⟩ :=
    exists_result (List.isEmpty_eq_false_iff_exists_mem.mpr ⟨_, List.contains_iff_mem.mp hshown⟩)
  rw [htexts, List.contains_iff_mem] at hshown
  obtain ⟨entry, hentry, hmem⟩ := List.mem_flatMap.mp hshown
  exact (h _ _ anchorToml _ _ result hresult entry hentry anchorToken hmem).1 anchorToken List.infix_rfl isJwt_anchorToken

end Savitools.Federation.TimelineSecrets
