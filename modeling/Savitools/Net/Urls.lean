import Mathlib.Data.List.TakeWhile
import Savitools.Strings.CodeUnits

namespace Net.Urls

open Strings.CodeUnits

/-- What is used of the URLs of the platform. -/
structure Urls (Url : Type) where
  /-- `new URL(t)` -/
  parse : Text → Option Url
  /-- `new URL(t, base)` -/
  resolve : Text → Url → Option Url
  /-- `searchParams.set(name, value)` -/
  setParam : Text → Text → Url → Url
  href : Url → Text
  protocol : Url → Text
  hostname : Url → Text
  origin : Url → Text
  pathname : Url → Text
  search : Url → Text

variable {Url : Type}

/-- What the standard says of queries: a URL is read back from its text with its query, to set
a parameter makes one, and outside of it there is no question mark. -/
structure Documented (urls : Urls Url) : Prop where
  parse_href : ∀ url, ∃ again, urls.parse (urls.href url) = some again ∧ urls.search again = urls.search url
  search_setParam : ∀ name value url, name ≠ [] → urls.search (urls.setParam name value url) ≠ []
  mark_of_search : ∀ t url, urls.parse t = some url → urls.search url ≠ [] → unit '?' ∈ t
  mark_not_mem : ∀ url, unit '?' ∉ urls.origin url ++ urls.pathname url

def setParams (urls : Urls Url) (params : List (Text × Text)) (url : Url) : Url :=
  params.foldl (fun url param => urls.setParam param.1 param.2 url) url

/-- A URL with a query stands in the text. -/
def CarriesQuery (urls : Urls Url) (t : Text) : Prop :=
  ∃ part, part <:+: t ∧ ∃ url, urls.parse part = some url ∧ urls.search url ≠ []

theorem not_carriesQuery {urls : Urls Url} (hurls : Documented urls) {t : Text} (ht : unit '?' ∉ t) :
    ¬CarriesQuery urls t := by
  rintro ⟨part, hpart, url, hparse, hsearch⟩
  exact ht (hpart.subset (hurls.mark_of_search part url hparse hsearch))

theorem carriesQuery_href {urls : Urls Url} (hurls : Documented urls) {url : Url} (hsearch : urls.search url ≠ []) :
    CarriesQuery urls (urls.href url) := by
  obtain ⟨again, hparse, heq⟩ := hurls.parse_href url
  exact ⟨_, List.infix_rfl, again, hparse, heq ▸ hsearch⟩

theorem search_setParams {urls : Urls Url} (hurls : Documented urls) {params : List (Text × Text)} (hne : params ≠ [])
    (hnames : ∀ param ∈ params, param.1 ≠ []) (url : Url) : urls.search (setParams urls params url) ≠ [] := by
  obtain ⟨init, last, rfl⟩ := List.eq_nil_or_concat params |>.resolve_left hne
  rw [List.concat_eq_append] at hnames ⊢
  rw [setParams, List.foldl_append]
  exact hurls.search_setParam _ _ _ (hnames last (List.mem_append_right _ (List.mem_singleton_self _)))

end Net.Urls

namespace Net.PlainUrls

open Strings.CodeUnits Net.Urls

/-- Web URLs without ports and fragments, the path without its first slash. -/
structure PlainUrl where
  secure : Bool
  host : Text
  path : Text
  query : Text
  host_ne_nil : host ≠ []
  host_plain : ∀ u ∈ host, u ≠ unit '/' ∧ u ≠ unit '?'
  path_plain : unit '?' ∉ path

def protocolOf (secure : Bool) : Text := if secure then text "https:" else text "http:"

def PlainUrl.origin (url : PlainUrl) : Text := protocolOf url.secure ++ text "//" ++ url.host

def PlainUrl.search (url : PlainUrl) : Text := if url.query = [] then [] else unit '?' :: url.query

def PlainUrl.href (url : PlainUrl) : Text := url.origin ++ unit '/' :: url.path ++ url.search

/-- The part before a unit and the part after it, which is empty when there is none. -/
def cut (u : UInt16) (t : Text) : Text × Text := (t.takeWhile (· != u), (t.dropWhile (· != u)).drop 1)

theorem not_mem_cut (u : UInt16) (t : Text) : u ∉ (cut u t).1 := fun hm => by
  simpa using List.all_eq_true.mp (List.all_takeWhile (p := (· != u)) (l := t)) u hm

theorem cut_append {u : UInt16} {t : Text} (ht : u ∉ t) (rest : Text) : cut u (t ++ u :: rest) = (t, rest) := by
  have hall : ∀ v ∈ t, (v != u) = true := fun v hv => bne_iff_ne.mpr fun h => ht (h ▸ hv)
  rw [cut, List.takeWhile_append_of_pos hall, List.dropWhile_append_of_pos hall,
    List.takeWhile_cons_of_neg (by simp), List.dropWhile_cons_of_neg (by simp), List.append_nil]
  rfl

theorem cut_of_not_mem {u : UInt16} {t : Text} (ht : u ∉ t) : cut u t = (t, []) := by
  have hall : ∀ v ∈ t, (v != u) = true := fun v hv => bne_iff_ne.mpr fun h => ht (h ▸ hv)
  rw [cut, List.takeWhile_eq_self_iff.mpr hall, List.dropWhile_eq_nil_iff.mpr hall]
  rfl

/-- What follows the scheme. -/
def parseRest (secure : Bool) (t : Text) : Option PlainUrl :=
  if h : (cut (unit '/') (cut (unit '?') t).1).1 ≠ [] then
    some
      { secure := secure
        host := (cut (unit '/') (cut (unit '?') t).1).1
        path := (cut (unit '/') (cut (unit '?') t).1).2
        query := (cut (unit '?') t).2
        host_ne_nil := h
        host_plain := fun u hu => ⟨fun hslash => not_mem_cut _ _ (hslash ▸ hu), fun hmark =>
          not_mem_cut (unit '?') t (List.takeWhile_subset _ (hmark ▸ hu))⟩
        path_plain := fun hm =>
          not_mem_cut (unit '?') t ((List.dropWhile_suffix _).subset (List.mem_of_mem_drop hm)) }
  else none

def parsePlain (t : Text) : Option PlainUrl :=
  if text "https://" <+: t then parseRest true (t.drop 8)
  else if text "http://" <+: t then parseRest false (t.drop 7)
  else none

/-- A parameter that is not yet in the query, in units that stand for themselves. -/
def addParam (name value : Text) (url : PlainUrl) : PlainUrl :=
  { url with query := (if url.query = [] then [] else url.query ++ [unit '&']) ++ name ++ unit '=' :: value }

def plainUrls : Urls PlainUrl where
  parse := parsePlain
  resolve t _ := parsePlain t
  setParam := addParam
  href := PlainUrl.href
  protocol url := protocolOf url.secure
  hostname := PlainUrl.host
  origin := PlainUrl.origin
  pathname url := unit '/' :: url.path
  search := PlainUrl.search

theorem parseRest_href (url : PlainUrl) :
    parseRest url.secure (url.host ++ unit '/' :: url.path ++ url.search) = some url := by
  have hfront : unit '?' ∉ url.host ++ unit '/' :: url.path := by
    rw [List.mem_append, List.mem_cons]
    rintro (h | h | h)
    · exact (url.host_plain _ h).2 rfl
    · exact absurd h (by decide)
    · exact url.path_plain h
  have hquery : cut (unit '?') (url.host ++ unit '/' :: url.path ++ url.search) =
      (url.host ++ unit '/' :: url.path, url.query) := by
    rw [PlainUrl.search]
    split
    next hempty => rw [List.append_nil, cut_of_not_mem hfront, hempty]
    next => exact cut_append hfront url.query
  have hpath : cut (unit '/') (url.host ++ unit '/' :: url.path) = (url.host, url.path) :=
    cut_append (fun hm => (url.host_plain _ hm).1 rfl) url.path
  simp only [parseRest, hquery, hpath]
  rw [dif_pos url.host_ne_nil]

theorem parsePlain_href (url : PlainUrl) : parsePlain url.href = some url := by
  have hrest := parseRest_href url
  rw [parsePlain, PlainUrl.href, PlainUrl.origin, protocolOf]
  cases hsecure : url.secure with
  | true =>
      have hstart : text "https:" ++ text "//" = text "https://" := by decide
      rw [hsecure] at hrest
      simp only [if_true, hstart, List.append_assoc]
      rw [if_pos (List.prefix_append _ _), ← hrest]
      exact congrArg (parseRest true) (by rw [List.append_assoc]; exact List.drop_left' (by decide))
  | false =>
      have hstart : text "http:" ++ text "//" = text "http://" := by decide
      rw [hsecure] at hrest
      simp only [Bool.false_eq_true, if_false, hstart, List.append_assoc]
      rw [if_neg, if_pos (List.prefix_append _ _), ← hrest]
      · exact congrArg (parseRest false) (by rw [List.append_assoc]; exact List.drop_left' (by decide))
      · rintro ⟨rest, h⟩
        cases h

theorem query_ne_nil {t : Text} {url : PlainUrl} (hparse : parsePlain t = some url) (hquery : url.query ≠ []) :
    unit '?' ∈ t := by
  have hrest {secure : Bool} {rest : Text} (h : parseRest secure rest = some url) : unit '?' ∈ rest := by
    rw [parseRest] at h
    split at h
    next =>
      cases h
      by_contra hm
      have hnil : (cut (unit '?') rest).2 = [] := by rw [cut_of_not_mem hm]
      exact hquery hnil
    next => cases h
  rw [parsePlain] at hparse
  split at hparse
  next => exact List.mem_of_mem_drop (hrest hparse)
  next =>
    split at hparse
    next => exact List.mem_of_mem_drop (hrest hparse)
    next => cases hparse

theorem documented_plainUrls : Documented plainUrls where
  parse_href url := ⟨url, parsePlain_href url, rfl⟩
  search_setParam name value url _ := by
    have hquery : (addParam name value url).query ≠ [] :=
      List.append_ne_nil_of_right_ne_nil _ (List.cons_ne_nil _ _)
    change (addParam name value url).search ≠ []
    rw [PlainUrl.search, if_neg hquery]
    exact List.cons_ne_nil _ _
  mark_of_search t url hparse hsearch := by
    refine query_ne_nil hparse fun hempty => hsearch ?_
    change url.search = []
    rw [PlainUrl.search, if_pos hempty]
  mark_not_mem url := by
    change unit '?' ∉ protocolOf url.secure ++ text "//" ++ url.host ++ unit '/' :: url.path
    simp only [List.mem_append, List.mem_cons]
    rintro (((h | h) | h) | h | h)
    · rw [protocolOf] at h
      cases hsecure : url.secure <;> simp only [hsecure] at h <;> exact absurd h (by decide)
    · exact absurd h (by decide)
    · exact (url.host_plain _ h).2 rfl
    · exact absurd h (by decide)
    · exact url.path_plain h

end Net.PlainUrls
