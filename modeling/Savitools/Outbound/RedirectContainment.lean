import Mathlib.Tactic.SplitIfs
import Savitools.Contracts.EventReplays
import Savitools.Federation.Fetching
import Savitools.Net.Urls
import Savitools.Playground.ProxyRequests
import Savitools.Webhook.Requests

namespace Savitools.Outbound.RedirectContainment

open Strings.CodeUnits Json.Values Net.Urls Net.PlainUrls Net.GuardedChains Transitions.Loops Common.Exceptions
open Destinations Contracts.EventReplays Webhook.Signature

/-- The stored key is sent along with every request of the proxy. -/
theorem key_sent (dto : Playground.ProxyRequests.ProxyRequestDto) (beyondAscii : Text → Text) (apiKey : Text) :
    (text "Authorization", text "Bearer " ++ apiKey) ∈
      (Playground.ProxyRequests.requestInit dto beyondAscii apiKey).headers := by
  have hset (members : List (Text × Text)) (name value : Text) :
      (name, value) ∈ Playground.ProxyRequests.setMember name value members := by
    induction members with
    | nil => exact List.mem_singleton_self _
    | cons member members ih =>
        obtain ⟨key, v⟩ := member
        rw [Playground.ProxyRequests.setMember]
        split_ifs
        · exact List.mem_cons_self
        · exact List.mem_cons_of_mem _ ih
  exact hset _ _ _

/-- Every delivery of the proxy, of the fetcher, of the sender and of a replay is contained, a delivery of a replay together
with the one check that the replay begins with; and the proxy, whose key every request carries, sends to the origin of its base
URL only. -/
theorem redirects_contained {Url : Type} (urls : Urls Url) :
    (∀ (peers : Peers Url Playground.ProxyRequests.RequestInit Text) (dto : Playground.ProxyRequests.ProxyRequestDto)
        (beyondAscii syntaxError : Text → Text) (apiKey baseUrl : Text),
      Contained (Playground.ProxyRequests.Passes urls peers baseUrl)
          (Playground.ProxyRequests.executeProxyRequest urls peers dto beyondAscii syntaxError apiKey baseUrl) ∧
        ∀ fuel url sent, .send url sent ∈
            (Playground.ProxyRequests.executeProxyRequest urls peers dto beyondAscii syntaxError apiKey baseUrl fuel).actions →
          ∃ base, urls.parse baseUrl = some base ∧ urls.origin url = urls.origin base) ∧
    (∀ (network : Federation.Fetching.Network) (urlStr : Text),
      Contained (Federation.FetchTraces.Passes urls network) (Federation.FetchTraces.fetchTrace urls network urlStr)) ∧
    (∀ (peers : Peers Url Webhook.Requests.RequestInit Webhook.Requests.LimitedBody) (method initialUrl : Text)
        (headers : List (Text × Text)) (body : Option Text),
      Contained (fun n url => assertSafeWebhookDestination urls (peers.lookup n) url = .ok ())
        (Webhook.Requests.performRequest urls peers method initialUrl headers body)) ∧
    ∀ (hmac : Bytes → Bytes → Digest) (replay : Replay Url) (dto : ReplayEventsDto),
      (∀ fuel, MAX_SAFE_REDIRECTS + 1 < fuel → ∃ summary, replayEvents urls hmac replay dto fuel = some summary) ∧
        ∀ destination, replayDestination urls replay dto = .ok destination → ∀ index,
          Contained (Contracts.EventReplays.Passes urls replay index)
            (fun fuel => (delivery urls hmac replay dto destination index fuel).after [.check 0 destination]) := by
  refine ⟨fun peers dto beyondAscii syntaxError apiKey baseUrl => ?_, fun network urlStr => ?_,
    fun peers method initialUrl headers body => ?_, fun hmac replay dto => ?_⟩
  · have hcontained := Playground.ProxyRequests.executeProxyRequest_contained urls peers dto beyondAscii syntaxError
      apiKey baseUrl
    refine ⟨hcontained, fun fuel url sent hsent => ?_⟩
    obtain ⟨n, base, hbase, hsafe⟩ := (hcontained.guarded fuel).passed hsent
    exact ⟨base, hbase, List.mem_singleton.mp (origin_mem_of_safe hsafe)⟩
  · exact Federation.FetchTraces.fetchTrace_contained urlStr
  · exact Webhook.Requests.performRequest_contained method initialUrl headers body
  · exact ⟨fun fuel hfuel => replayEvents_ends hfuel, fun destination h index => delivery_contained hmac h index⟩

/-- A replay of five events, each of which is answered at once. -/
def sampleReplay : Replay PlainUrl where
  destinationLookup _ := some [text "93.184.216.34"]
  randomSecret := text "00ff"
  nowSeconds _ := some (.ofInt 1700000000)
  peers _ := ⟨fun _ _ => some [text "93.184.216.34"], fun _ _ _ => .ok ⟨200, [], .ok ()⟩⟩

def sampleDto : ReplayEventsDto := ⟨text "https://a.io/h", none, List.replicate 5 (.obj [])⟩

def sampleHmac (_ _ : Bytes) : Digest := ⟨List.replicate 32 0, rfl⟩

theorem exists_destination : ∃ destination, replayDestination plainUrls sampleReplay sampleDto = .ok destination := by
  have hok : (replayDestination plainUrls sampleReplay sampleDto).toBool = true := by decide
  cases hdestination : replayDestination plainUrls sampleReplay sampleDto with
  | error error =>
      rw [hdestination] at hok
      cases hok
  | ok destination => exact ⟨destination, rfl⟩

/-- A worker that takes the first event and the last sends the second of its requests right after
the first, without a check in between. -/
theorem not_workers_guarded :
    ¬∀ (replay : Replay PlainUrl) (dto : ReplayEventsDto) (destination : PlainUrl) (indices : List Nat) (fuel : Nat),
      replayDestination plainUrls replay dto = .ok destination →
      Guarded (fun _ url => ∃ dnsLookup, assertSafeWebhookDestination plainUrls dnsLookup url = .ok ())
        (.check 0 destination :: workerActions plainUrls sampleHmac replay dto destination indices fuel) := by
  intro hall
  obtain ⟨destination, hdestination⟩ := exists_destination
  have hguarded := hall sampleReplay sampleDto destination [0, 4] 7 hdestination
  obtain ⟨first, hfirst⟩ := delivery_answered plainUrls sampleHmac sampleDto
    (fun _ => rfl : ∀ init, (sampleReplay.peers 0).fetch 0 destination init = _) rfl 6
  obtain ⟨second, hsecond⟩ := delivery_answered plainUrls sampleHmac sampleDto
    (fun _ => rfl : ∀ init, (sampleReplay.peers 4).fetch 0 destination init = _) rfl 6
  rw [workerActions, List.flatMap_cons, List.flatMap_cons, List.flatMap_nil, hfirst, hsecond] at hguarded
  exact not_guarded_twice [.check 0 destination] destination destination first second hguarded

/-- The deliveries of the sample replay. -/
theorem sample_contained : ∃ destination, replayDestination plainUrls sampleReplay sampleDto = .ok destination ∧
    Contained (Contracts.EventReplays.Passes plainUrls sampleReplay 4)
      (fun fuel => (delivery plainUrls sampleHmac sampleReplay sampleDto destination 4 fuel).after [.check 0 destination]) := by
  obtain ⟨destination, hdestination⟩ := exists_destination
  exact ⟨destination, hdestination, ((redirects_contained plainUrls).2.2.2 sampleHmac sampleReplay sampleDto).2 destination
    hdestination 4⟩

end Savitools.Outbound.RedirectContainment
