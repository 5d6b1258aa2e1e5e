import Savitools.Common.Redaction
import Savitools.Federation.Diagnostics
import Savitools.Net.Urls

namespace Savitools.Federation.QueryLeaks

open Strings.CodeUnits Net.Urls Net.PlainUrls Json.Values Common.Exceptions Common.RedactedValues Domains Fetching StellarToml Diagnostics

def stageTexts (stage : DiagnosticStage) : List Text := fieldStrings stage.details ++ stage.redirectChain

/-- The texts of a report; the names of its stages and failures are fixed. -/
def reportTexts (report : FederationDiagnosticsReport) : List Text :=
  report.domain :: report.serverUrl.toList ++ report.stages.flatMap stageTexts

variable {Url N : Type}

def NoQueries (urls : Urls Url) (report : FederationDiagnosticsReport) : Prop :=
  ∀ t ∈ reportTexts report, ¬CarriesQuery urls t

/-- What the discovery ends in has no query to show: the message of an error, unless it starts as a
URL and is cut, or a server that is no URL. -/
def DiscoversNoQuery (source : TomlSource Url N) (domain : Text) : Prop :=
  match fetchTomlRecord source domain with
  | .error error => startsAsWeb error.message = true ∨ ¬CarriesQuery source.urls error.message
  | .ok toml =>
      ∀ server, federationServer toml = some server →
        source.urls.parse server = none ∧ ¬CarriesQuery source.urls server

/-- A detail that shows no query after the redaction: a value that starts as a URL is cut, unless it is
the server. -/
def Plain (urls : Urls Url) (detail : Text × Value Nat) : Prop :=
  ∃ value, detail.2 = .str value ∧
    (detail.1 ≠ text "serverUrl" ∧ startsAsWeb value = true ∨ ¬CarriesQuery urls value)

section

variable {urls : Urls Url} (hurls : Documented urls)
include hurls

theorem not_carriesQuery_redactUrl (url : Text) : ¬CarriesQuery urls (redactUrl urls url) := by
  rw [redactUrl]
  split
  next parsed _ => exact not_carriesQuery hurls (hurls.mark_not_mem parsed)
  next => exact not_carriesQuery hurls (by decide)

theorem not_carriesQuery_of_isDomain {domain : Text} (hdomain : isDomain domain = true) : ¬CarriesQuery urls domain :=
  not_carriesQuery hurls fun hm => absurd (isDomainUnit_of_isDomain hdomain _ hm) (by decide)

theorem not_carriesQuery_redactDetails {details : List (Text × Value Nat)} (hdetails : ∀ detail ∈ details, Plain urls detail) :
    ∀ t ∈ fieldStrings (details.map (redactDetail urls)), ¬CarriesQuery urls t := by
  induction details with
  | nil => exact List.forall_mem_nil _
  | cons detail details ih =>
      obtain ⟨⟨value, hvalue, hplain⟩, hrest⟩ := List.forall_mem_cons.mp hdetails
      obtain ⟨key, shown⟩ := detail
      subst hvalue
      rw [List.map_cons, redactDetail, fieldStrings, strings, List.singleton_append]
      refine List.forall_mem_cons.mpr ⟨?_, ih hrest⟩
      split
      next => exact not_carriesQuery_redactUrl hurls value
      next hraw =>
        refine hplain.resolve_left fun ⟨hkey, hweb⟩ => hraw ?_
        rw [hweb, Bool.true_and]
        exact bne_iff_ne.mpr hkey

theorem plain_message {message : Text} (h : startsAsWeb message = true ∨ ¬CarriesQuery urls message) :
    Plain urls (messageDetail message) :=
  ⟨message, rfl, h.imp_left fun hweb => ⟨(by decide : text "message" ≠ text "serverUrl"), hweb⟩⟩

theorem not_carriesQuery_tomlUrl {domain : Text} (hdomain : isDomain domain = true) :
    ¬CarriesQuery urls (tomlUrl domain) := by
  refine not_carriesQuery hurls fun hm => ?_
  rcases List.mem_append.mp hm with hm | hm
  · rcases List.mem_append.mp hm with hm | hm
    · exact absurd hm (by decide)
    · exact absurd (isDomainUnit_of_isDomain hdomain _ hm) (by decide)
  · exact absurd hm (by decide)

theorem noQueries_earlyReport {domain : Text} {stages : List DiagnosticStage} {failure : DiagnosticFailureKind}
    (hdomain : isDomain domain = true)
    (hstages : ∀ stage ∈ stages, stage.redirectChain = [] ∧ ∀ detail ∈ stage.details, Plain urls detail) :
    NoQueries urls (redactReport urls (earlyReport domain stages failure)) := by
  refine List.forall_mem_cons.mpr ⟨not_carriesQuery_of_isDomain hurls hdomain, fun t ht => ?_⟩
  obtain ⟨stage, hstage, ht⟩ := List.mem_flatMap.mp ht
  obtain ⟨stage, hmem, rfl⟩ := List.mem_map.mp hstage
  obtain ⟨hchain, hdetails⟩ := hstages stage hmem
  rw [stageTexts, redactStage, hchain, List.append_nil] at ht
  exact not_carriesQuery_redactDetails hurls hdetails t ht

/-- The first target of the probe stands in the redirect chain with its query. -/
theorem carriesQuery_chain {server : Text} {target : Url} (hparse : urls.parse server = some target)
    (network : Network) (domain : Text) : ∃ t ∈ (reachStage urls network server domain).1.redirectChain, CarriesQuery urls t := by
  let probed := setParams urls [(text "q", probeQuery domain), (text "type", text "name")] target
  obtain ⟨again, hagain, hsearch⟩ := hurls.parse_href probed
  have hquery : urls.search again ≠ [] := by
    rw [hsearch]
    refine search_setParams hurls (List.cons_ne_nil _ _) ?_ target
    exact List.forall_mem_cons.mpr ⟨(by decide : text "q" ≠ []), List.forall_mem_singleton.mpr (by decide : text "type" ≠ [])⟩
  refine ⟨urls.href again, ?_, carriesQuery_href hurls hquery⟩
  have hchain : (reachStage urls network server domain).1.redirectChain =
      (fetchWithTimeout urls network (urls.href probed)).1 := by
    simp only [reachStage, lookupRequest, appendQuery, hparse]
    rcases fetchWithTimeout urls network (urls.href probed) with ⟨chain, error | res⟩ <;> rfl
  rw [hchain]
  exact chain_fetchWithTimeout hagain

end

theorem probedReport_of_not_url {urls : Urls Url} {readJson : JsonReader N} {probes : Probes} {domain server : Text}
    {toml : Table N} (hparse : urls.parse server = none) :
    probedReport urls readJson probes domain server toml =
      .ok (redactReport urls (earlyReport domain
        [tomlStage true none [(text "tomlUrl", .str (tomlUrl domain)), (text "federationServer", .str server)],
          ⟨.http, false, some (classifyError invalidUrl), [(text "serverUrl", .str server), messageDetail invalidUrl.message],
            []⟩] (classifyError invalidUrl))) := by
  simp only [probedReport, reachStage, lookupRequest, appendQuery, hparse]
  rfl

/-- Whatever the probes meet, the redirect chain stands in the report as it is. -/
theorem chain_probedReport {urls : Urls Url} {readJson : JsonReader N} {probes : Probes} {domain server : Text}
    {toml : Table N} {report : FederationDiagnosticsReport}
    (h : probedReport urls readJson probes domain server toml = .ok report) {t : Text}
    (ht : t ∈ (reachStage urls probes.reach server domain).1.redirectChain) : t ∈ reportTexts report := by
  have hstage {stages : List DiagnosticStage} (hmem : (reachStage urls probes.reach server domain).1 ∈ stages) :
      t ∈ (stages.map (redactStage urls)).flatMap stageTexts :=
    List.mem_flatMap.mpr ⟨_, List.mem_map_of_mem hmem, List.mem_append_right _ ht⟩
  rw [probedReport] at h
  rcases hreach : reachStage urls probes.reach server domain with ⟨reach, error | res⟩
  · simp only [hreach] at h hstage
    cases h
    exact List.mem_append_right _ (hstage (List.mem_cons_of_mem _ (List.mem_singleton_self _)))
  · simp only [hreach] at h hstage
    cases hforward : forwardStage urls probes.forward server domain with
    | error error =>
        rw [hforward] at h
        cases h
    | ok forward =>
        cases hreverse : reverseStage urls readJson probes.reverse server toml with
        | error error =>
            rw [hforward, hreverse] at h
            cases h
        | ok reverse =>
            rw [hforward, hreverse] at h
            cases h
            exact List.mem_append_right _ (hstage (List.mem_cons_of_mem _ List.mem_cons_self))

theorem exists_probedReport {urls : Urls Url} (readJson : JsonReader N) (probes : Probes) (domain server : Text)
    (toml : Table N) : ∃ report, probedReport urls readJson probes domain server toml = .ok report := by
  cases hparse : urls.parse server with
  | none => exact ⟨_, probedReport_of_not_url hparse⟩
  | some target =>
      have hrequest (q type : Text) : ∃ detail, requestDetail urls server q type = .ok detail := by
        simp only [requestDetail, appendQuery, hparse]
        exact ⟨_, rfl⟩
      have hforward : ∃ forward, forwardStage urls probes.forward server domain = .ok forward := by
        obtain ⟨request, hrequest⟩ := hrequest (text "savitools-probe*" ++ domain) (text "name")
        rw [forwardStage, hrequest]
        exact ⟨_, rfl⟩
      have hreverse : ∃ reverse, reverseStage urls readJson probes.reverse server toml = .ok reverse := by
        rw [reverseStage]
        cases reverseKey toml with
        | none => exact ⟨_, rfl⟩
        | some key =>
            obtain ⟨request, hrequest⟩ := hrequest key (text "id")
            simp only [hrequest]
            exact ⟨_, rfl⟩
      obtain ⟨forward, hforward⟩ := hforward
      obtain ⟨reverse, hreverse⟩ := hreverse
      rw [probedReport, hforward, hreverse]
      rcases reachStage urls probes.reach server domain with ⟨reach, error | res⟩ <;> exact ⟨_, rfl⟩

/-- Every domain gets a report, whatever the requests meet. -/
theorem exists_report (source : TomlSource Url N) (readJson : JsonReader N) (probes : Probes) (domain : Text)
    (hdomain : isDomain (normalizeDomain source.beyondAscii domain) = true) :
    ∃ report, getServerDiagnostics source readJson probes domain = .ok report := by
  simp only [getServerDiagnostics, hdomain, Bool.true_eq_false, if_false]
  cases fetchTomlRecord source (normalizeDomain source.beyondAscii domain) with
  | error error => exact ⟨_, rfl⟩
  | ok toml =>
      cases hserver : federationServer toml with
      | none =>
          simp only [hserver]
          exact ⟨_, rfl⟩
      | some server =>
          simp only [hserver]
          exact exists_probedReport readJson probes _ server toml

/-- No query stands in a report exactly when the discovery ends in none; as soon as the document
names a server by a URL, the probe of it shows its own query. -/
theorem noQueries_iff {source : TomlSource Url N} (hurls : Documented source.urls) {readJson : JsonReader N}
    {probes : Probes} {domain : Text} {report : FederationDiagnosticsReport}
    (h : getServerDiagnostics source readJson probes domain = .ok report) :
    NoQueries source.urls report ↔ DiscoversNoQuery source (normalizeDomain source.beyondAscii domain) := by
  rw [getServerDiagnostics] at h
  split at h
  next => cases h
  next hvalid =>
    have hdomain := Bool.of_not_eq_false hvalid
    have htoml := not_carriesQuery_tomlUrl hurls hdomain
    rw [DiscoversNoQuery]
    cases hfetch : fetchTomlRecord source (normalizeDomain source.beyondAscii domain) with
    | error error =>
        simp only [hfetch] at h ⊢
        cases h
        refine ⟨fun hclean => ?_, fun hmessage => ?_⟩
        · rw [or_iff_not_imp_left]
          intro hraw
          refine hclean error.message ?_
          simp [reportTexts, redactReport, earlyReport, redactStage, tomlStage, messageDetail, redactDetail, stageTexts,
            fieldStrings, strings, hraw]
        · refine noQueries_earlyReport hurls hdomain (List.forall_mem_singleton.mpr ⟨rfl, ?_⟩)
          exact List.forall_mem_singleton.mpr (plain_message hurls hmessage)
    | ok toml =>
        simp only [hfetch] at h ⊢
        cases hserver : federationServer toml with
        | none =>
            simp only [hserver] at h
            cases h
            refine ⟨fun _ _ hnone => (nomatch hnone), fun _ => ?_⟩
            refine noQueries_earlyReport hurls hdomain (List.forall_mem_singleton.mpr ⟨rfl, ?_⟩)
            exact List.forall_mem_cons.mpr ⟨⟨_, rfl, .inr htoml⟩,
              List.forall_mem_singleton.mpr (plain_message hurls (.inr (not_carriesQuery hurls (by decide))))⟩
        | some server =>
            simp only [hserver] at h
            cases hparse : source.urls.parse server with
            | none =>
                rw [probedReport_of_not_url hparse] at h
                cases h
                refine ⟨fun hclean other hother => ?_, fun hnone => ?_⟩
                · obtain rfl := Option.some.inj hother
                  refine ⟨hparse, hclean server ?_⟩
                  simp [reportTexts, redactReport, earlyReport, redactStage, redactDetail, stageTexts, fieldStrings, strings]
                · have hserver := (hnone server rfl).2
                  have hinvalid : ¬CarriesQuery source.urls invalidUrl.message := not_carriesQuery hurls (by decide)
                  refine noQueries_earlyReport hurls hdomain (List.forall_mem_cons.mpr
                    ⟨⟨rfl, ?_⟩, List.forall_mem_singleton.mpr ⟨rfl, ?_⟩⟩)
                  · exact List.forall_mem_cons.mpr
                      ⟨⟨_, rfl, .inr htoml⟩, List.forall_mem_singleton.mpr ⟨_, rfl, .inr hserver⟩⟩
                  · exact List.forall_mem_cons.mpr
                      ⟨⟨_, rfl, .inr hserver⟩, List.forall_mem_singleton.mpr (plain_message hurls (.inr hinvalid))⟩
            | some target =>
                obtain ⟨t, ht, hquery⟩ := carriesQuery_chain hurls hparse probes.reach
                  (normalizeDomain source.beyondAscii domain)
                refine ⟨fun hclean => absurd hquery (hclean t (chain_probedReport h ht)), fun hnone => ?_⟩
                obtain ⟨hnot, -⟩ := hnone server rfl
                rw [hparse] at hnot
                cases hnot

def unknownUser : Network := answering ⟨404, none, .ok []⟩

theorem serverless_noQueries : ∃ report,
    getServerDiagnostics (knownToml plainUrls ([] : Table Nat)) (fun _ => .ok .null) ⟨unknownUser, unknownUser, unknownUser⟩ (text "a.io") =
      .ok report ∧ NoQueries plainUrls report := by
  obtain ⟨report, hreport⟩ := exists_report (knownToml plainUrls ([] : Table Nat)) (fun _ => .ok .null) ⟨unknownUser, unknownUser, unknownUser⟩
    (text "a.io") (by decide)
  exact ⟨report, hreport, (@noQueries_iff _ _ (knownToml plainUrls ([] : Table Nat)) documented_plainUrls _ _ _ _ hreport).mpr nofun⟩

/-- The probe of a server that is named by a URL shows its query, with the address that is looked up. -/
theorem not_noQueries : ¬∀ (Url N : Type) (source : TomlSource Url N), Documented source.urls →
    ∀ (readJson : JsonReader N) (probes : Probes) (domain : Text) (report : FederationDiagnosticsReport),
      getServerDiagnostics source readJson probes domain = .ok report → NoQueries source.urls report := by
  intro h
  let toml : Table Nat := [(text "FEDERATION_SERVER", .str (text "https://a.io/f"))]
  let probes : Probes := ⟨unknownUser, unknownUser, unknownUser⟩
  obtain ⟨report, hreport⟩ := exists_report (knownToml plainUrls toml) (fun _ => .ok .null) probes (text "a.io") (by decide)
  have hprobed : probedReport plainUrls (fun _ => .ok .null) probes (text "a.io") (text "https://a.io/f") toml = .ok report := hreport
  have hparse : (plainUrls.parse (text "https://a.io/f")).isSome = true := by decide
  obtain ⟨target, hparse⟩ := Option.isSome_iff_exists.mp hparse
  obtain ⟨t, ht, hquery⟩ := carriesQuery_chain documented_plainUrls hparse unknownUser (text "a.io")
  exact h _ _ (knownToml plainUrls toml) documented_plainUrls _ probes _ report hreport t (chain_probedReport hprobed ht) hquery

end Savitools.Federation.QueryLeaks
