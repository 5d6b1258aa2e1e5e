import Savitools.Common.SecretTexts
import Savitools.Sep10.TokenExchange

namespace Savitools.Sep10.TokenLeaks

open Strings.CodeUnits Strings.Replace Json.Numbers Json.Values Json.Conversions Common.RedactedValues Common.SecretTexts
open Endpoints TokenExchange

def Shows (w : Text) (texts : List Text) : Prop := ∃ t ∈ texts, w <:+: t

/-- The names and strings of a value. -/
def valueTexts (value : Value Number) : List Text := names value ++ strings value

def headerTexts (headers : List (Text × Text)) : List Text := headers.flatMap fun header => [header.1, header.2]

def diagnosticsTexts (d : HttpDiagnostics) : List Text :=
  [d.method, d.url, d.transaction, d.statusText] ++ headerTexts d.requestHeaders ++ headerTexts d.responseHeaders ++
    d.body.elim [] valueTexts

def claimTexts (claims : List (Text × Value Number)) : List Text := claims.flatMap fun claim => claim.1 :: valueTexts claim.2

/-- What leaves the exchange, returned or thrown. -/
def outcomeTexts : Except ExchangeException ExchangeResult → List Text
  | .ok result =>
      result.redactionNotice :: result.token.toList ++ result.decodedClaims.elim [] claimTexts ++
        diagnosticsTexts result.httpDiagnostics
  | .error (.diagnosed message d notice) => message :: notice :: diagnosticsTexts d
  | .error (.plain message) => [message]

def responseTexts (response : AxiosResponse) : List Text :=
  response.statusText :: response.headers.flatMap (fun header => [header.1, stringOf header.2]) ++ valueTexts response.data

/-- The answer that has come, also with a failure. -/
def received : Except RequestFailure AxiosResponse → Option AxiosResponse
  | .ok response => some response
  | .error (.axios _ _ response) => response
  | .error (.other _) => none

/-- The endpoint that is posted to. -/
def postedEndpoint (anchor : Anchor) (domain : Text) : Option Text :=
  match anchor.get (stellarTomlUrl domain) with
  | .error _ => none
  | .ok response => (endpointOf response.data).toOption

def answers (anchor : Anchor) (domain : Text) : List AxiosResponse :=
  (received (anchor.get (stellarTomlUrl domain))).toList ++
    ((postedEndpoint anchor domain).bind fun endpoint => received (anchor.post endpoint)).toList

variable (beyondAscii : Text → Text)

/-- Of a sensitive header the name only. -/
def passedHeaders (headers : List (Text × Value Number)) : List Text :=
  headers.flatMap fun header =>
    if isSensitiveHeader beyondAscii header.1 then [header.1] else [header.1, stringOf header.2]

def passedResponse (response : AxiosResponse) : List Text :=
  response.statusText :: passedHeaders beyondAscii response.headers ++ valueTexts response.data

def passedFailure : RequestFailure → List Text
  | .axios message config response =>
      message :: config.elim [] (fun config => config.url :: passedHeaders beyondAscii config.headers) ++
        response.elim [] (passedResponse beyondAscii)
  | .other message => [message]

/-- The claims of the token in an answer. -/
def tokenClaims (data : Value Number) : List (Text × Value Number) :=
  (((member (text "token") data).filter (Value.truthy isZero)).bind decodedClaims).getD []

def passedAnswer (endpoint : Text) (response : AxiosResponse) : List Text :=
  match response.data with
  | .null => []
  | data =>
      endpoint :: passedResponse beyondAscii response ++ (tokenClaims data).flatMap (fun claim => valueTexts claim.2)

/-- What is passed on as it is: all of an answer but the values of sensitive headers. Of the
document only the endpoint is, and with a failure what is known of it. -/
def passedOn (anchor : Anchor) (domain : Text) : List Text :=
  match anchor.get (stellarTomlUrl domain) with
  | .error failure => passedFailure beyondAscii failure
  | .ok tomlResponse =>
      match endpointOf tomlResponse.data with
      | .error _ => []
      | .ok endpoint =>
          match anchor.post endpoint with
          | .error failure => passedFailure beyondAscii failure
          | .ok response => passedAnswer beyondAscii endpoint response

/-- No token of an answer leaves the exchange. -/
def KeepsTokens (anchor : Anchor) (domain : Text) : Prop :=
  ∀ w, IsJwt w → (∃ response ∈ answers anchor domain, Shows w (responseTexts response)) →
    ¬Shows w (outcomeTexts (exchangeToken beyondAscii anchor domain))

section

variable {beyondAscii}

theorem shows_cons {w t : Text} {texts : List Text} : Shows w (t :: texts) ↔ w <:+: t ∨ Shows w texts := by
  simp [Shows]

theorem shows_append {w : Text} {texts others : List Text} : Shows w (texts ++ others) ↔ Shows w texts ∨ Shows w others := by
  simp [Shows, or_and_right, exists_or]

theorem not_shows_nil {w : Text} : ¬Shows w [] := by simp [Shows]

variable {w : Text} (hw : IsJwt w)
include hw

/-- A token as the one thing that is looked for. -/
theorem not_infix_of_plainWords {t : Text} (ht : plainWords t = true) : ¬w <:+: t := by
  have hshape : ∀ t, t = w → IsJwt t := fun _ h => h ▸ hw
  exact fun hinfix => token_free_of_plainWords hshape ht w hinfix rfl

theorem infix_label_iff {label t : Text} (hlabel : plainWords label = true) (hspace : label.getLast? = some (unit ' ')) :
    w <:+: label ++ t ↔ w <:+: t := by
  have hshape : ∀ t, t = w → IsJwt t := fun _ h => h ▸ hw
  have hiff := free_label_iff (t := t) (token_avoids hshape) (token_free_of_plainWords hshape hlabel) hspace
  have hfree (s : Text) : Free (· = w) s ↔ ¬w <:+: s :=
    ⟨fun h hinfix => h w hinfix rfl, fun h v hv hp => h (hp ▸ hv)⟩
  rw [hfree, hfree] at hiff
  exact not_iff_not.mp hiff

theorem shows_redactedHeaders (headers : List (Text × Value Number)) :
    Shows w (headerTexts (redactSensitiveHeaders beyondAscii headers)) ↔ Shows w (passedHeaders beyondAscii headers) := by
  induction headers with
  | nil => rfl
  | cons header headers ih =>
      have hhead : headerTexts (redactSensitiveHeaders beyondAscii (header :: headers)) =
          [header.1, if isSensitiveHeader beyondAscii header.1 then text "[REDACTED]" else stringOf header.2] ++
            headerTexts (redactSensitiveHeaders beyondAscii headers) := rfl
      have hpassed : passedHeaders beyondAscii (header :: headers) =
          (if isSensitiveHeader beyondAscii header.1 then [header.1] else [header.1, stringOf header.2]) ++
            passedHeaders beyondAscii headers := rfl
      have hredacted : ¬w <:+: text "[REDACTED]" := not_infix_of_plainWords hw (by decide)
      rw [hhead, hpassed, shows_append, shows_append, ih]
      refine or_congr_left ?_
      split
      next => simp only [shows_cons, hredacted, false_or]
      next => rfl

theorem shows_failure (failure : RequestFailure) :
    Shows w (outcomeTexts (.error (exchangeException beyondAscii failure))) ↔ Shows w (passedFailure beyondAscii failure) := by
  have hlabel (message : Text) : w <:+: text "Token exchange failed: " ++ message ↔ w <:+: message :=
    infix_label_iff hw (by decide) (by decide)
  cases failure with
  | other message => simp only [exchangeException, outcomeTexts, passedFailure, shows_cons, hlabel]
  | axios message config response =>
      have hnotice : ¬w <:+: text "Sensitive data has been redacted for security" := not_infix_of_plainWords hw (by decide)
      have hmethod : ¬w <:+: text "POST" := not_infix_of_plainWords hw (by decide)
      have hxdr : ¬w <:+: redactedXdr := not_infix_of_plainWords hw (by decide)
      have herror : ¬w <:+: text "Network Error" := not_infix_of_plainWords hw (by decide)
      have hempty : ¬w <:+: [] := not_infix_of_plainWords hw (by decide)
      have hconfig : Shows w (config.elim [] fun config => config.url :: passedHeaders beyondAscii config.headers) ↔
          w <:+: config.elim [] AxiosConfig.url ∨ Shows w (passedHeaders beyondAscii (config.elim [] AxiosConfig.headers)) := by
        cases config with
        | none => exact iff_of_false not_shows_nil (not_or.mpr ⟨hempty, not_shows_nil⟩)
        | some config => exact shows_cons
      have hresponse : Shows w (response.elim [] (passedResponse beyondAscii)) ↔
          w <:+: ((response.map AxiosResponse.statusText).filter (· ≠ [])).getD (text "Network Error") ∨
            Shows w (passedHeaders beyondAscii (response.elim [] AxiosResponse.headers)) ∨
            Shows w ((response.map AxiosResponse.data).elim [] valueTexts) := by
        cases response with
        | none => exact iff_of_false not_shows_nil (not_or.mpr ⟨herror, not_or.mpr ⟨not_shows_nil, not_shows_nil⟩⟩)
        | some response =>
            have hstatus : w <:+: ((some response.statusText).filter (· ≠ [])).getD (text "Network Error") ↔
                w <:+: response.statusText := by
              by_cases hnil : response.statusText = []
              · rw [hnil]
                exact iff_of_false herror hempty
              · simp [Option.filter, hnil]
            rw [Option.map_some, hstatus]
            exact (shows_append.trans (or_congr_left shows_cons)).trans or_assoc
      simp only [exchangeException, outcomeTexts, diagnosticsTexts, passedFailure, shows_cons, shows_append, hlabel, hnotice,
        hmethod, hxdr, shows_redactedHeaders hw, not_shows_nil, false_or, or_false, hconfig, hresponse]
      exact Iff.of_eq (by ac_rfl)

theorem shows_claims {claims : List (Text × Value Number)} (hnames : ∀ claim ∈ claims, claim.1 ∈ claimNames) :
    Shows w (claimTexts claims) ↔ Shows w (claims.flatMap fun claim => valueTexts claim.2) := by
  induction claims with
  | nil => rfl
  | cons claim claims ih =>
      obtain ⟨hmem, hrest⟩ := List.forall_mem_cons.mp hnames
      have hname : ¬w <:+: claim.1 :=
        not_infix_of_plainWords hw (List.all_eq_true.mp (by decide : claimNames.all plainWords = true) _ hmem)
      rw [claimTexts, List.flatMap_cons, List.flatMap_cons, List.cons_append, shows_cons, shows_append, shows_append,
        or_iff_right hname]
      exact or_congr_right (ih hrest)

omit hw in
theorem name_of_decodedClaims {token : Value Number} {claims : List (Text × Value Number)}
    (h : decodedClaims token = some claims) : ∀ claim ∈ claims, claim.1 ∈ claimNames := by
  rw [decodedClaims] at h
  split at h
  next => cases h
  next => cases h
  next decoded _ _ =>
    cases h
    intro claim hclaim
    obtain ⟨name, hname, hmap⟩ := List.mem_filterMap.mp hclaim
    obtain ⟨value, -, rfl⟩ := Option.map_eq_some_iff.mp hmap
    exact hname

/-- Of an answer without an error all is passed on; in the place of the token stands a fixed text. -/
theorem shows_result {endpoint : Text} {response : AxiosResponse} {result : ExchangeResult}
    (h : exchangeResult beyondAscii endpoint response = .ok result) :
    Shows w (outcomeTexts (.ok result)) ↔ Shows w (passedAnswer beyondAscii endpoint response) := by
  have hnotice : ¬w <:+: text "JWT token has been redacted from response for security" :=
    not_infix_of_plainWords hw (by decide)
  have hmethod : ¬w <:+: text "POST" := not_infix_of_plainWords hw (by decide)
  have hxdr : ¬w <:+: redactedXdr := not_infix_of_plainWords hw (by decide)
  have hfixed : ¬w <:+: text "[REDACTED_FOR_SECURITY]" := not_infix_of_plainWords hw (by decide)
  have hrequest : ¬Shows w (passedHeaders beyondAscii [(text "Content-Type", .str (text "application/json"))]) := by
    rintro ⟨t, ht, hinfix⟩
    have hplain : (passedHeaders beyondAscii [(text "Content-Type", .str (text "application/json"))]).all plainWords = true := by
      rw [passedHeaders, List.flatMap_singleton]
      split <;> decide
    exact not_infix_of_plainWords hw (List.all_eq_true.mp hplain t ht) hinfix
  have hclaims (token : Option (Value Number)) : Shows w ((token.bind decodedClaims).elim [] claimTexts) ↔
      Shows w (((token.bind decodedClaims).getD []).flatMap fun claim => valueTexts claim.2) := by
    cases hdecoded : token.bind decodedClaims with
    | none => rfl
    | some claims =>
        obtain ⟨token, -, hdecoded⟩ := Option.bind_eq_some_iff.mp hdecoded
        exact shows_claims hw (name_of_decodedClaims hdecoded)
  have htoken (token : Option (Value Number)) : ¬Shows w (token.map fun _ => text "[REDACTED_FOR_SECURITY]").toList := by
    cases token with
    | none => exact not_shows_nil
    | some token => exact fun hshows => (shows_cons.mp hshows).elim hfixed not_shows_nil
  obtain ⟨status, statusText, headers, data⟩ := response
  cases data with
  | null => cases h
  | _ =>
      cases h
      simp only [passedAnswer, outcomeTexts, diagnosticsTexts, passedResponse, tokenClaims, Option.elim_some, shows_cons,
        shows_append, hnotice, hmethod, hxdr, htoken, hclaims, shows_redactedHeaders hw, hrequest, not_shows_nil, false_or,
        or_false]
      exact Iff.of_eq (by ac_rfl)

/-- What of the exchange shows a token is what is passed on as it is. -/
theorem shows_outcome_iff (anchor : Anchor) (domain : Text) :
    Shows w (outcomeTexts (exchangeToken beyondAscii anchor domain)) ↔ Shows w (passedOn beyondAscii anchor domain) := by
  rw [exchangeToken, passedOn]
  cases anchor.get (stellarTomlUrl domain) with
  | error failure => exact shows_failure hw failure
  | ok tomlResponse =>
      have hthrown {message : Text} (hmessage : plainWords message = true) :
          ¬Shows w (outcomeTexts (.error (exchangeException beyondAscii (.other message)))) := fun hshows =>
        ((shows_cons.mp ((shows_failure hw _).mp hshows)).elim (not_infix_of_plainWords hw hmessage) not_shows_nil)
      simp only
      cases hendpoint : endpointOf tomlResponse.data with
      | error message =>
          refine iff_of_false (hthrown ?_) not_shows_nil
          rw [endpointOf.eq_def] at hendpoint
          split at hendpoint
          next =>
            split at hendpoint
            next =>
              cases hendpoint
              decide
            next => cases hendpoint
          next =>
            cases hendpoint
            rw [notText.eq_def]
            split <;> decide
      | ok endpoint =>
          simp only
          cases anchor.post endpoint with
          | error failure => exact shows_failure hw failure
          | ok response =>
              simp only
              cases hresult : exchangeResult beyondAscii endpoint response with
              | ok result => exact shows_result hw hresult
              | error message =>
                  obtain ⟨status, statusText, headers, data⟩ := response
                  cases data with
                  | null =>
                      cases hresult
                      exact iff_of_false (hthrown (by decide)) not_shows_nil
                  | _ => cases hresult

end

/-- No token of an answer leaves the exchange exactly when none is in what is passed on as it is. -/
theorem keepsTokens_iff (anchor : Anchor) (domain : Text) :
    KeepsTokens beyondAscii anchor domain ↔
      ∀ w, IsJwt w → (∃ response ∈ answers anchor domain, Shows w (responseTexts response)) →
        ¬Shows w (passedOn beyondAscii anchor domain) :=
  forall_congr' fun _ => forall_congr' fun hw => imp_congr_right fun _ => not_congr (shows_outcome_iff hw anchor domain)

/-- An anchor that answers the exchange with a token. -/
def tokenAnchor : Anchor where
  get _ := .ok ⟨200, text "OK", [], .str (text "WEB_AUTH_ENDPOINT=\"https://a.io/auth\"")⟩
  post _ := .ok ⟨200, text "OK", [], .obj [(text "token", .str anchorToken)]⟩

/-- The field for the token is redacted, but not the body that it stands in. -/
theorem not_keepsTokens : ¬∀ (beyondAscii : Text → Text) (anchor : Anchor) (domain : Text),
    KeepsTokens beyondAscii anchor domain := by
  intro h
  have hreceived : ((answers tokenAnchor (text "https://a.io")).flatMap responseTexts).contains anchorToken = true := by
    decide
  have hshown : (outcomeTexts (exchangeToken id tokenAnchor (text "https://a.io"))).contains anchorToken = true := by
    decide
  obtain ⟨response, hresponse, ht⟩ := List.mem_flatMap.mp (List.contains_iff_mem.mp hreceived)
  exact h id tokenAnchor (text "https://a.io") anchorToken isJwt_anchorToken
    ⟨response, hresponse, anchorToken, ht, List.infix_rfl⟩ ⟨anchorToken, List.contains_iff_mem.mp hshown, List.infix_rfl⟩

end Savitools.Sep10.TokenLeaks
