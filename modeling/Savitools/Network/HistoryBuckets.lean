import Savitools.Dates.IsoTexts
import Savitools.Json.RoundingOrder
import Savitools.Stores.Groups

namespace Savitools.Network.HistoryBuckets

open Strings.CodeUnits Json.Numbers Json.Conversions Json.Doubles Json.Roundings Json.RoundingOrder Dates.IsoTexts
open Stores.Entries Stores.Groups

/-- What the history reads of a sample; its time is in milliseconds. -/
structure NetworkSample where
  ok : Bool
  latencyMs : Option Int
  sampledAt : Int
deriving DecidableEq

structure NetworkHistoryBucket where
  timestamp : Int
  sampledAt : Text
  ok : Bool
  latencyMs : Option Number
  sampleCount : Nat
  errorCount : Nat

structure NetworkHistorySummary where
  uptimePercent : Double
  p50LatencyMs : Option Number
  p95LatencyMs : Option Number
  outageCount : Nat
  sampleCount : Nat

/-- The start of the minute. -/
def minuteOf (sample : NetworkSample) : Int := sample.sampledAt / 60000 * 60000

/-- `grouped`, in which the minutes have the order in which they came. -/
def groupSamples (samples : List NetworkSample) : List (Int × List NetworkSample) :=
  samples.foldl (fun grouped sample => push (minuteOf sample) sample grouped) []

/-- `sum + latency` -/
def addLatency (sum : Number) (latency : Int) : Number :=
  match sum with
  | .finite q => Json.Doubles.round (q + latency)
  | .infinite negative => .infinite negative

def avgLatency (latencySamples : List Int) : Option Number :=
  if 0 < latencySamples.length then
    some (roundHalfUp (overNat latencySamples.length (latencySamples.foldl addLatency (.ofInt 0))))
  else none

def bucketOf (group : Int × List NetworkSample) : NetworkHistoryBucket :=
  let okCount := (group.2.filter NetworkSample.ok).length
  { timestamp := group.1
    sampledAt := toISOString group.1
    ok := group.2.length ≤ 2 * okCount
    latencyMs := avgLatency (group.2.filterMap NetworkSample.latencyMs)
    sampleCount := group.2.length
    errorCount := group.2.length - okCount }

def bucketSamples (samples : List NetworkSample) : List NetworkHistoryBucket := (groupSamples samples).map bucketOf

/-- `0.95`, as a double. -/
def p95 : Rat := 4278419646001971 / 4503599627370496

/-- `Math.max(0, Math.min(Math.ceil(x) - 1, length - 1))` -/
def indexBelow (length : Nat) : Number → Nat
  | .finite q => (max 0 (min (⌈q⌉ - 1) ((length : Int) - 1))).toNat
  | .infinite negative => if negative then 0 else length - 1

def percentile (values : List Number) (percentile : Rat) : Option Number :=
  values[indexBelow values.length (Json.Doubles.round (values.length * percentile))]?

/-- The loop of `countOutages`, with the outages so far and whether the bucket before was down. -/
def countOutages (buckets : List NetworkHistoryBucket) : Nat :=
  (buckets.foldl (fun (outages, wasDown) bucket =>
    (if !bucket.ok && !wasDown then outages + 1 else outages, !bucket.ok)) (0, false)).1

def summarizeBuckets (buckets : List NetworkHistoryBucket) : NetworkHistorySummary :=
  if buckets.length = 0 then
    { uptimePercent := ofInt 0, p50LatencyMs := none, p95LatencyMs := none, outageCount := 0, sampleCount := 0 }
  else
    let upBuckets := (buckets.filter NetworkHistoryBucket.ok).length
    let latencies := (buckets.filterMap NetworkHistoryBucket.latencyMs).mergeSort fun a b => !exceeds a b
    { uptimePercent := toNumber (toFixed 2 (mul (div (ofInt upBuckets) (ofInt buckets.length)) (ofInt 100)))
      p50LatencyMs := percentile latencies (1 / 2)
      p95LatencyMs := percentile latencies p95
      outageCount := countOutages buckets
      sampleCount := buckets.foldl (fun sum bucket => sum + bucket.sampleCount) 0 }

/-- The runs of consecutive buckets that are down, as long as they can be: what lies between those that are up. -/
def downRuns (buckets : List NetworkHistoryBucket) : List (List NetworkHistoryBucket) :=
  (buckets.splitOnP NetworkHistoryBucket.ok).filter (!·.isEmpty)

/-- The sample falls in the minute of the bucket. -/
def FallsIn (bucket : NetworkHistoryBucket) (sample : NetworkSample) : Prop :=
  bucket.timestamp ≤ sample.sampledAt ∧ sample.sampledAt < bucket.timestamp + 60000

instance (bucket : NetworkHistoryBucket) : DecidablePred (FallsIn bucket) := fun _ => inferInstanceAs (Decidable (_ ∧ _))

/-- The buckets have the samples by their minutes. -/
structure Bucketed (samples : List NetworkSample) (buckets : List NetworkHistoryBucket) : Prop where
  increasing : (buckets.map NetworkHistoryBucket.timestamp).Pairwise (· < ·)
  counted : (buckets.map NetworkHistoryBucket.sampleCount).sum = samples.length
  failed : (buckets.map NetworkHistoryBucket.errorCount).sum = samples.countP (!·.ok)
  each : ∀ bucket ∈ buckets, 60000 ∣ bucket.timestamp ∧
    bucket.sampleCount = samples.countP (fun sample => FallsIn bucket sample) ∧
    bucket.errorCount = samples.countP (fun sample => FallsIn bucket sample ∧ !sample.ok)
  covers : ∀ sample ∈ samples, ∃ bucket ∈ buckets, FallsIn bucket sample

/-- The two percentiles are latencies of buckets, and in their order; without latencies there are none. -/
structure Summarized (samples : List NetworkSample) (buckets : List NetworkHistoryBucket)
    (summary : NetworkHistorySummary) : Prop where
  total : summary.sampleCount = samples.length
  outages : summary.outageCount = (downRuns buckets).length
  percentiles : ((∀ bucket ∈ buckets, bucket.latencyMs = none) ∧ summary.p50LatencyMs = none ∧ summary.p95LatencyMs = none) ∨
    ∃ p50 p95, summary.p50LatencyMs = some p50 ∧ summary.p95LatencyMs = some p95 ∧ exceeds p50 p95 = false ∧
      (∃ bucket ∈ buckets, bucket.latencyMs = some p50) ∧ ∃ bucket ∈ buckets, bucket.latencyMs = some p95

section Groups

theorem grouped_groupSamples (samples : List NetworkSample) : Grouped minuteOf samples (groupSamples samples) := by
  induction samples using List.reverseRecOn with
  | nil => exact grouped_nil minuteOf
  | append_singleton samples sample ih =>
      rw [groupSamples, List.foldl_append]
      exact ih.push sample

theorem minuteOf_mono {a b : NetworkSample} (h : a.sampledAt ≤ b.sampledAt) : minuteOf a ≤ minuteOf b := by
  have hdiv := Int.ediv_le_ediv (by decide : (0 : Int) < 60000) h
  rw [minuteOf, minuteOf]
  omega

/-- Of samples in the order of time, the minutes come in theirs. -/
theorem pairwise_groupSamples {samples : List NetworkSample}
    (hsorted : samples.Pairwise fun a b => a.sampledAt ≤ b.sampledAt) :
    ((groupSamples samples).map (·.1)).Pairwise (· < ·) := by
  induction samples using List.reverseRecOn with
  | nil => exact List.Pairwise.nil
  | append_singleton samples sample ih =>
      obtain ⟨hbefore, -, hlast⟩ := List.pairwise_append.mp hsorted
      have hgroups := ih hbefore
      rw [groupSamples, List.foldl_append]
      refine pairwise_keys_push hgroups fun minute hminute => ?_
      obtain ⟨earlier, hearlier, rfl⟩ := mem_keys_foldl.mp hminute
      exact minuteOf_mono (hlast earlier hearlier sample (List.mem_singleton_self _))

theorem bucket_countP {samples : List NetworkSample} {bucket : NetworkHistoryBucket} (h : bucket ∈ bucketSamples samples)
    (p : NetworkSample → Bool) : ∃ group ∈ groupSamples samples, bucketOf group = bucket ∧
      group.2.countP p = samples.countP fun sample => FallsIn bucket sample ∧ p sample := by
  obtain ⟨group, hgroup, rfl⟩ := List.mem_map.mp h
  refine ⟨group, hgroup, rfl, ?_⟩
  rw [(grouped_groupSamples samples).group group hgroup, List.countP_filter]
  refine List.countP_congr fun sample _ => ?_
  obtain ⟨earlier, -, hkey⟩ := mem_keys_foldl.mp (List.mem_map_of_mem hgroup)
  simp only [Bool.and_eq_true, beq_iff_eq, decide_eq_true_eq, FallsIn, bucketOf, ← hkey, minuteOf]
  rw [and_comm]
  refine and_congr_left fun _ => ?_
  omega

theorem errorCount_bucketOf (group : Int × List NetworkSample) : (bucketOf group).errorCount = group.2.countP (!·.ok) := by
  have hsplit := List.length_eq_countP_add_countP (l := group.2) NetworkSample.ok
  have hfailed : group.2.countP (fun sample => decide ¬sample.ok = true) = group.2.countP (!·.ok) :=
    List.countP_congr fun sample _ => by simp
  rw [hfailed] at hsplit
  simp only [bucketOf, ← List.countP_eq_length_filter]
  omega

theorem bucketed_bucketSamples {samples : List NetworkSample}
    (hsorted : samples.Pairwise fun a b => a.sampledAt ≤ b.sampledAt) : Bucketed samples (bucketSamples samples) := by
  have hgrouped := grouped_groupSamples samples
  refine ⟨?_, ?_, ?_, fun bucket hbucket => ⟨?_, ?_, ?_⟩, fun sample hsample => ?_⟩
  · rw [bucketSamples, List.map_map]
    exact pairwise_groupSamples hsorted
  · rw [bucketSamples, List.map_map]
    exact hgrouped.sum_length
  · rw [bucketSamples, List.map_map, ← Grouped.sum_countP hgrouped]
    exact congrArg List.sum (List.map_congr_left fun group _ => errorCount_bucketOf group)
  · obtain ⟨group, hgroup, rfl⟩ := List.mem_map.mp hbucket
    obtain ⟨sample, -, hkey⟩ := mem_keys_foldl.mp (List.mem_map_of_mem hgroup)
    exact ⟨sample.sampledAt / 60000, by rw [bucketOf, ← hkey, minuteOf, Int.mul_comm]⟩
  · obtain ⟨group, -, rfl, hcount⟩ := bucket_countP hbucket fun _ => true
    rw [List.countP_true] at hcount
    exact hcount.trans (List.countP_congr fun sample _ => by simp)
  · obtain ⟨group, -, rfl, hcount⟩ := bucket_countP hbucket (!·.ok)
    rw [errorCount_bucketOf, hcount]
  · obtain ⟨group, hgroup, hkey⟩ := List.mem_map.mp (hgrouped.covers sample hsample)
    refine ⟨bucketOf group, List.mem_map_of_mem hgroup, ?_⟩
    simp only [FallsIn, bucketOf, hkey, minuteOf]
    omega

end Groups

section Summaries

/-- The outages from a bucket on: one for each run, but for the first when the bucket before was down. -/
theorem foldl_outages (buckets : List NetworkHistoryBucket) (outages : Nat) (wasDown : Bool) :
    ∃ first rest, buckets.splitOnP NetworkHistoryBucket.ok = first :: rest ∧
      (buckets.foldl (fun (outages, wasDown) bucket =>
        (if !bucket.ok && !wasDown then outages + 1 else outages, !bucket.ok)) (outages, wasDown)).1 =
      outages + (if wasDown || first.isEmpty then 0 else 1) + (rest.filter (!·.isEmpty)).length := by
  induction buckets generalizing outages wasDown with
  | nil => exact ⟨[], [], rfl, by simp⟩
  | cons bucket buckets ih =>
      rw [List.splitOnP_cons_eq_if_modifyHead, List.foldl_cons]
      cases hok : bucket.ok with
      | true =>
          obtain ⟨first, rest, hsplit, houtages⟩ := ih outages false
          refine ⟨[], first :: rest, by rw [if_pos rfl, hsplit], ?_⟩
          simp only [Bool.not_true, Bool.false_and, Bool.false_eq_true, if_false, houtages]
          cases first with
          | nil => simp
          | cons => simp; omega
      | false =>
          obtain ⟨first, rest, hsplit, houtages⟩ := ih (if !wasDown then outages + 1 else outages) true
          refine ⟨bucket :: first, rest, by rw [if_neg Bool.false_ne_true, hsplit]; rfl, ?_⟩
          simp only [Bool.not_false, Bool.true_and, houtages]
          cases wasDown <;> simp

theorem countOutages_eq (buckets : List NetworkHistoryBucket) : countOutages buckets = (downRuns buckets).length := by
  obtain ⟨first, rest, hsplit, houtages⟩ := foldl_outages buckets 0 false
  rw [countOutages, houtages, downRuns, hsplit]
  cases first <;> simp
  omega

def latenciesOf (buckets : List NetworkHistoryBucket) : List Number :=
  (buckets.filterMap NetworkHistoryBucket.latencyMs).mergeSort fun a b => !exceeds a b

theorem pairwise_latenciesOf (buckets : List NetworkHistoryBucket) :
    (latenciesOf buckets).Pairwise fun a b => exceeds a b = false := by
  refine (List.pairwise_mergeSort (fun a b c hab hbc => ?_) (fun a b => ?_) _).imp fun h => ?_
  · simp only [Bool.not_eq_true'] at hab hbc ⊢
    exact exceeds_trans hab hbc
  · simpa using exceeds_total a b
  · simpa using h

theorem indexBelow_lt {length : Nat} (h : 0 < length) (x : Number) : indexBelow length x < length := by
  cases x with
  | finite q =>
      rw [indexBelow]
      omega
  | infinite negative =>
      rw [indexBelow]
      split <;> omega

theorem indexBelow_mono {length : Nat} {x y : Number} (h : exceeds x y = false) : indexBelow length x ≤ indexBelow length y := by
  cases x with
  | finite p =>
      cases y with
      | finite q =>
          have hceil := Int.ceil_mono (not_lt.mp (of_decide_eq_false h))
          simp only [indexBelow]
          omega
      | infinite negative =>
          cases negative with
          | true => cases h
          | false =>
              simp only [indexBelow, Bool.false_eq_true, if_false]
              omega
  | infinite negative =>
      cases y with
      | finite q =>
          cases negative with
          | true => exact Nat.zero_le _
          | false => cases h
      | infinite other => cases negative <;> cases other <;> simp_all [exceeds, indexBelow]

/-- Of the two percentiles of values in order, the smaller is not behind. -/
theorem percentile_le {values : List Number} (hsorted : values.Pairwise fun a b => exceeds a b = false) (hne : values ≠ []) :
    ∃ a ∈ values, ∃ b ∈ values, percentile values (1 / 2) = some a ∧ percentile values p95 = some b ∧ exceeds a b = false := by
  have hlength : 0 < values.length := List.length_pos_iff.mpr hne
  have hindex : indexBelow values.length (Json.Doubles.round (values.length * (1 / 2))) ≤
      indexBelow values.length (Json.Doubles.round (values.length * p95)) := by
    refine indexBelow_mono (exceeds_round (by positivity) ?_)
    refine mul_le_mul_of_nonneg_left ?_ (Nat.cast_nonneg _)
    rw [p95]
    norm_num
  have hlow := indexBelow_lt hlength (Json.Doubles.round (values.length * (1 / 2)))
  have hhigh := indexBelow_lt hlength (Json.Doubles.round (values.length * p95))
  refine ⟨_, List.getElem_mem hlow, _, List.getElem_mem hhigh, List.getElem?_eq_getElem hlow, List.getElem?_eq_getElem hhigh, ?_⟩
  rcases hindex.lt_or_eq with hlt | heq
  · exact List.pairwise_iff_getElem.mp hsorted _ _ hlow hhigh hlt
  · simp only [heq]
    exact exceeds_self _

theorem foldl_sampleCount (buckets : List NetworkHistoryBucket) (sum : Nat) :
    buckets.foldl (fun sum bucket => sum + bucket.sampleCount) sum =
      sum + (buckets.map NetworkHistoryBucket.sampleCount).sum := by
  induction buckets generalizing sum with
  | nil => rfl
  | cons bucket buckets ih => rw [List.foldl_cons, ih, List.map_cons, List.sum_cons, Nat.add_assoc]

theorem summarized_summarizeBuckets {samples : List NetworkSample} {buckets : List NetworkHistoryBucket}
    (h : (buckets.map NetworkHistoryBucket.sampleCount).sum = samples.length) :
    Summarized samples buckets (summarizeBuckets buckets) := by
  rw [summarizeBuckets]
  by_cases hnone : buckets.length = 0
  · obtain rfl := List.length_eq_zero_iff.mp hnone
    exact ⟨h, rfl, .inl ⟨List.forall_mem_nil _, rfl, rfl⟩⟩
  · rw [if_neg hnone]
    refine ⟨?_, countOutages_eq buckets, ?_⟩
    · rw [← h, ← Nat.zero_add (List.sum _)]
      exact foldl_sampleCount buckets 0
    · by_cases hlatencies : latenciesOf buckets = []
      · left
        have hnil : buckets.filterMap NetworkHistoryBucket.latencyMs = [] := by
          have hperm := List.mergeSort_perm (buckets.filterMap NetworkHistoryBucket.latencyMs) fun a b => !exceeds a b
          exact (hlatencies ▸ hperm : [].Perm _).symm.eq_nil
        refine ⟨List.filterMap_eq_nil_iff.mp hnil, ?_, ?_⟩
        · simp [hnil, percentile]
        · simp [hnil, percentile]
      · right
        obtain ⟨a, ha, b, hb, hp50, hp95, hle⟩ := percentile_le (pairwise_latenciesOf buckets) hlatencies
        have hmem {x : Number} (hx : x ∈ latenciesOf buckets) : ∃ bucket ∈ buckets, bucket.latencyMs = some x :=
          List.mem_filterMap.mp ((List.mergeSort_perm _ _).mem_iff.mp hx)
        exact ⟨a, b, hp50, hp95, hle, hmem ha, hmem hb⟩

end Summaries

/-- The buckets of samples in the order of time have every sample in its minute, and their summary tells of all of them. -/
theorem history_conserves {samples : List NetworkSample} (hsorted : samples.Pairwise fun a b => a.sampledAt ≤ b.sampledAt) :
    Bucketed samples (bucketSamples samples) ∧
      Summarized samples (bucketSamples samples) (summarizeBuckets (bucketSamples samples)) :=
  ⟨bucketed_bucketSamples hsorted, summarized_summarizeBuckets (bucketed_bucketSamples hsorted).counted⟩

/-- Three minutes with a gap, of which the first and the last are down. -/
def sampleHistory : List NetworkSample :=
  [⟨false, none, 1000⟩, ⟨false, some 900, 59999⟩, ⟨true, some 120, 60000⟩, ⟨false, some 80, 240000⟩]

theorem sampleHistory_conserves : Bucketed sampleHistory (bucketSamples sampleHistory) ∧
    Summarized sampleHistory (bucketSamples sampleHistory) (summarizeBuckets (bucketSamples sampleHistory)) :=
  history_conserves (by simp [sampleHistory])

end Savitools.Network.HistoryBuckets
