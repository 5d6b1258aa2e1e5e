import Mathlib.Logic.Relation
import Savitools.Transaction.GraphBounds

namespace Savitools.Transaction.GraphClasses

open Strings.CodeUnits Json.Numbers Json.Conversions Json.Doubles Stores.Keyed Graph GraphBounds

variable {h : Horizon} {limits : GraphLimits}

/-- Of every account that was loaded, the node is what the classification makes of the answer. -/
def Reflects (h : Horizon) (nodes : List GraphNode) (sent : List Request) : Prop :=
  ∀ node ∈ nodes, ∀ i account, sent[i]? = some (.account node.id) → h.loadAccount i node.id = .ok account →
    node.type = classifyNode node.id (some account) ∧ node.metadata = (newNode node.id (some account)).metadata

/-- An account that is classified as one that has not been looked up. -/
structure Blank (account : AccountSnapshot) : Prop where
  signers : account.signers = []
  balances : account.balances = []
  threshold : account.medThreshold.any (exceeds · (.ofInt 1)) = false

theorem Blank.newNode_eq {account : AccountSnapshot} (hblank : Blank account) (publicKey : Text) :
    newNode publicKey (some account) = newNode publicKey none := by
  obtain ⟨signers, balances, threshold⟩ := hblank
  have hclass : classifyNode publicKey (some account) = classifyNode publicKey none := by
    simp [classifyNode, signers, balances, threshold]
  simp only [newNode, hclass, signers, balances, Option.map_some, Option.map_none, Option.getD_some, Option.getD_none,
    List.length_nil]

theorem blank_of_newNode {publicKey : Text} {account : AccountSnapshot} (hkey : publicKey.head? = some (unit 'G'))
    (htype : (newNode publicKey none).type = classifyNode publicKey (some account))
    (hmetadata : (newNode publicKey none).metadata = (newNode publicKey (some account)).metadata) : Blank account := by
  have hsigners : 0 = account.signers.length := congrArg NodeMetadata.signerCount hmetadata
  have hbalances : 0 = account.balances.length := congrArg NodeMetadata.balanceCount hmetadata
  refine ⟨List.eq_nil_of_length_eq_zero hsigners.symm, List.eq_nil_of_length_eq_zero hbalances.symm, ?_⟩
  have hgraph : publicKey.head? ≠ some (unit 'C') := by
    rw [hkey]
    decide
  by_contra hthreshold
  have hmultisig : classifyNode publicKey (some account) = .multisig := by
    simp only [classifyNode, if_neg hgraph]
    exact if_pos (.inr (Bool.eq_true_of_not_eq_false hthreshold))
  have hplain : (newNode publicKey none).type = .account := if_neg hgraph
  rw [hplain, hmultisig] at htype
  cases htype

/-- What was there before is there still. -/
structure Extends (s t : Crawl) : Prop where
  rows : s.nodes.rows <+: t.nodes.rows
  sent : s.sent <+: t.sent

theorem Extends.refl (s : Crawl) : Extends s s := ⟨List.prefix_rfl, List.prefix_rfl⟩

theorem Extends.trans {s t u : Crawl} (hst : Extends s t) (htu : Extends t u) : Extends s u :=
  ⟨hst.rows.trans htu.rows, hst.sent.trans htu.sent⟩

theorem Extends.reflects {s t : Crawl} (hst : Extends s t) (ht : Reflects h t.nodes.rows t.sent) :
    Reflects h s.nodes.rows s.sent := by
  intro node hnode i account hi
  obtain ⟨rest, hrest⟩ := hst.sent
  refine ht node (hst.rows.subset hnode) i account ?_
  rw [← hrest, List.getElem?_append_left (List.getElem?_eq_some_iff.mp hi).1]
  exact hi

theorem buildNode_extends (publicKey : Text) (account : Option AccountSnapshot) (s : Crawl) :
    Extends s (buildNode limits publicKey account s).2 := by
  rcases @buildNode_cases limits publicKey account s with ⟨-, node, hbuild⟩ | ⟨-, -, hbuild⟩ | ⟨-, -, node, t, hbuild, -, hadded⟩
  · rw [hbuild]
    exact .refl s
  · rw [hbuild]
    exact ⟨List.prefix_rfl, List.prefix_rfl⟩
  · rw [hbuild]
    exact ⟨hadded.rows ▸ List.prefix_append _ _, hadded.sent ▸ List.prefix_rfl⟩

theorem takeRequest_sent (s : Crawl) : (takeRequest limits s).2.sent = s.sent := by
  rw [takeRequest]
  split <;> rfl

theorem takeRequest_cache (s : Crawl) : (takeRequest limits s).2.cache = s.cache := by
  rw [takeRequest]
  split <;> rfl

theorem loadAccount_extends (publicKey : Text) (s : Crawl) : Extends s (loadAccount h limits publicKey s).2 := by
  refine ⟨(loadAccount_sameGraph publicKey s).nodes ▸ List.prefix_rfl, ?_⟩
  rw [loadAccount]
  cases s.cache.lookup publicKey with
  | some account => exact List.prefix_rfl
  | none =>
      simp only
      split
      · rw [← @takeRequest_sent limits s]
        exact List.prefix_append _ _
      · rw [takeRequest_sent]

theorem addSigners_extends {signers : List HorizonSigner} : ∀ s : Crawl, Extends s (addSigners limits signers s).2 := by
  induction signers with
  | nil => exact Extends.refl
  | cons signer signers ih =>
      intro s
      rw [addSigners]
      split
      next => exact ih s
      next =>
        have hbuilt := @buildNode_extends limits signer.key none s
        rcases hbuild : buildNode limits signer.key none s with ⟨_ | node, t⟩
        · rw [hbuild] at hbuilt
          exact hbuilt
        · rw [hbuild] at hbuilt
          exact hbuilt.trans (ih t)

/-- Once an account has been looked up, whatever a visit does keeps it. -/
theorem visitAccount_extends (depth level : Int) (publicKey : Text) (s : Crawl) :
    Extends (loadAccount h limits publicKey s).2 (visitAccount h limits depth level publicKey s).2 := by
  rw [visitAccount]
  rcases loadAccount h limits publicKey s with ⟨account, t⟩
  have hbuilt := @buildNode_extends limits publicKey account t
  simp only
  rcases hbuild : buildNode limits publicKey account t with ⟨_ | node, u⟩
  · rw [hbuild] at hbuilt
    exact hbuilt
  · rw [hbuild] at hbuilt
    cases account with
    | none => exact hbuilt
    | some account =>
        simp only
        split
        next => exact hbuilt
        next =>
          have hsigners := @addSigners_extends limits account.signers u
          exact hbuilt.trans ⟨hsigners.rows, hsigners.sent⟩

theorem signersLoop_extends (depth : Int) : ∀ (fuel : Nat) (f : Frontier) (s t : Crawl),
    signersLoop h limits depth fuel f s = some t → Extends s t := by
  intro fuel
  induction fuel with
  | zero => exact fun _ _ _ hloop => nomatch hloop
  | succ fuel ih =>
      rintro ⟨visited, _ | ⟨⟨publicKey, level⟩, queue⟩⟩ s t hloop
      · obtain rfl := Option.some.inj hloop
        exact .refl s
      · have hvisit := (@loadAccount_extends h limits publicKey s).trans (visitAccount_extends depth level publicKey s)
        rw [signersLoop] at hloop
        split at hloop
        next =>
          obtain rfl := Option.some.inj hloop
          exact .refl s
        next =>
          rcases hv : visitAccount h limits depth level publicKey s with ⟨_ | keys, u⟩
          · rw [hv] at hloop hvisit
            obtain rfl := Option.some.inj hloop
            exact hvisit
          · rw [hv] at hloop hvisit
            exact hvisit.trans (ih _ u t hloop)

/-- The cache holds what was answered. -/
def Known (h : Horizon) (s : Crawl) : Prop :=
  ∀ i publicKey, s.sent[i]? = some (.account publicKey) →
    s.cache.lookup publicKey = some (h.loadAccount i publicKey).toOption

/-- The nodes of the accounts in the cache are the ones that are made of them. -/
def Faithful (s : Crawl) : Prop :=
  ∀ node ∈ s.nodes.rows, ∀ account, s.cache.lookup node.id = some (some account) → node = newNode node.id (some account)

/-- Every node was looked up, or is still to be. -/
def Awaited (todo : List Text) (s : Crawl) : Prop :=
  ∀ node ∈ s.nodes.rows, s.cache.lookup node.id = none → node.id ∈ todo

theorem reflects_of_faithful {s : Crawl} (hknown : Known h s) (hfaithful : Faithful s) :
    Reflects h s.nodes.rows s.sent := by
  intro node hnode i account hi hload
  have hcache := hknown i node.id hi
  rw [hload] at hcache
  have hnew := hfaithful node hnode account hcache
  exact ⟨congrArg GraphNode.type hnew, congrArg GraphNode.metadata hnew⟩

/-- What looking an account up does: the graph stays, and the cache gets at most that one account. -/
structure Looked (h : Horizon) (publicKey : Text) (s : Crawl) (account : Option AccountSnapshot) (t : Crawl) : Prop where
  nodes : t.nodes = s.nodes
  known : Known h s → Known h t
  own : t.cache.lookup publicKey = some account
  kept : s.cache.lookup publicKey ≠ none → t = s
  others : ∀ key, key ≠ publicKey → t.cache.lookup key = s.cache.lookup key

theorem lookup_snoc {α : Type} (cache : List (Text × α)) (publicKey key : Text) (account : α) :
    (cache ++ [(publicKey, account)]).lookup key =
      (cache.lookup key).or (if key = publicKey then some account else none) := by
  rw [List.lookup_append]
  congr 1
  by_cases heq : key = publicKey
  · rw [if_pos heq, heq, List.lookup_cons_self]
  · rw [if_neg heq, List.lookup_cons, beq_eq_false_iff_ne.mpr heq, List.lookup_nil]

/-- An account that is not in the cache is put there. -/
theorem looked_of_miss {publicKey : Text} {s t : Crawl} {account : Option AccountSnapshot}
    (hmiss : s.cache.lookup publicKey = none) (hnodes : t.nodes = s.nodes)
    (hcache : t.cache = s.cache ++ [(publicKey, account)])
    (hsent : t.sent = s.sent ∨
      t.sent = s.sent ++ [.account publicKey] ∧ account = (h.loadAccount s.sent.length publicKey).toOption) :
    Looked h publicKey s account t := by
  have hlookup (key : Text) : t.cache.lookup key = (s.cache.lookup key).or (if key = publicKey then some account else none) := by
    rw [hcache, lookup_snoc]
  have hown : t.cache.lookup publicKey = some account := by
    rw [hlookup, hmiss, if_pos rfl, Option.none_or]
  refine ⟨hnodes, fun hknown i key hi => ?_, hown, fun hhit => absurd hmiss hhit, fun key hne => ?_⟩
  · have hold (hi : s.sent[i]? = some (.account key)) :
        t.cache.lookup key = some (h.loadAccount i key).toOption := by
      rw [hlookup, hknown i key hi, Option.some_or]
    rcases hsent with hsent | ⟨hsent, haccount⟩
    · exact hold (hsent ▸ hi)
    · rw [hsent] at hi
      rcases Nat.lt_trichotomy i s.sent.length with hlt | rfl | hlt
      · exact hold ((List.getElem?_append_left hlt).symm.trans hi)
      · rw [List.getElem?_concat_length] at hi
        obtain rfl := Request.account.inj (Option.some.inj hi)
        rw [hown, haccount]
      · rw [List.getElem?_eq_none (List.length_append.trans_le hlt)] at hi
        cases hi
  · rw [hlookup, if_neg hne, Option.or_none]

theorem loadAccount_looked (publicKey : Text) (s : Crawl) :
    Looked h publicKey s (loadAccount h limits publicKey s).1 (loadAccount h limits publicKey s).2 := by
  rw [loadAccount]
  cases hlookup : s.cache.lookup publicKey with
  | some account => exact ⟨rfl, fun hknown => hknown, hlookup, fun _ => rfl, fun _ _ => rfl⟩
  | none =>
      have hnodes := (@takeRequest_sameGraph limits s).nodes
      have hcache := @takeRequest_cache limits s
      have hsent := @takeRequest_sent limits s
      simp only
      split
      next =>
        refine looked_of_miss hlookup hnodes (congrArg (· ++ _) hcache) (.inr ⟨congrArg (· ++ _) hsent, ?_⟩)
        simp only [fetchAccount, hsent]
      next => exact looked_of_miss hlookup hnodes (congrArg (· ++ _) hcache) (.inl hsent)

theorem get?_eq_none_of_not_mem {s : Crawl} {publicKey : Text} (hnew : publicKey ∉ s.ids) :
    s.nodes.get? publicKey = none := by
  refine Option.eq_none_iff_forall_ne_some.mpr fun node hget => ?_
  obtain ⟨hmem, hid⟩ := KeyedRows.get?_eq_some.mp hget
  exact hnew (List.mem_map.mpr ⟨node, hmem, hid⟩)

/-- A node that is new is the last one, and nothing else changes. -/
structure Appended (publicKey : Text) (account : Option AccountSnapshot) (s t : Crawl) : Prop where
  rows : t.nodes.rows = s.nodes.rows ++ [newNode publicKey account]
  requests : t.requests = s.requests
  truncatedBy : t.truncatedBy = s.truncatedBy
  cache : t.cache = s.cache
  sent : t.sent = s.sent

theorem buildNode_appended {s : Crawl} {publicKey : Text} (hnew : publicKey ∉ s.ids)
    (hroom : s.nodes.rows.length + 1 ≤ limits.maxNodes) (account : Option AccountSnapshot) :
    ∃ t, buildNode limits publicKey account s = (some (newNode publicKey account), t) ∧ Appended publicKey account s t := by
  refine ⟨{ s with nodes := s.nodes.put (newNode publicKey account) }, ?_, ?_, rfl, rfl, rfl, rfl⟩
  · rw [buildNode, get?_eq_none_of_not_mem hnew, hasRoomFor_of_le hroom]
    rfl
  · exact @KeyedRows.put_of_get?_eq_none _ _ _ _ s.nodes (newNode publicKey account) (get?_eq_none_of_not_mem hnew)

theorem buildNode_full {s : Crawl} {publicKey : Text} (hnew : publicKey ∉ s.ids)
    (hfull : limits.maxNodes < s.nodes.rows.length + 1) (account : Option AccountSnapshot) :
    buildNode limits publicKey account s = (none, s.truncate .nodeLimit) := by
  rw [buildNode, get?_eq_none_of_not_mem hnew]
  simp only [hasRoomFor, if_pos hfull, Bool.false_eq_true, if_false]

theorem buildNode_present {s : Crawl} {publicKey : Text} (hmem : publicKey ∈ s.ids) (account : Option AccountSnapshot) :
    ∃ node, buildNode limits publicKey account s = (some node, s) := by
  obtain ⟨node, hnode, hid⟩ := List.mem_map.mp hmem
  refine ⟨node, ?_⟩
  rw [buildNode, KeyedRows.get?_eq_some.mpr ⟨hnode, hid⟩]

/-- A graph in which all accounts were looked up before they got their nodes. -/
structure Settled (h : Horizon) (s : Crawl) : Prop where
  known : Known h s
  faithful : Faithful s
  awaited : Awaited [] s

theorem Looked.faithful {s t : Crawl} {publicKey : Text} {account : Option AccountSnapshot}
    (hlook : Looked h publicKey s account t) (hs : Faithful s)
    (hown : ∀ node ∈ s.nodes.rows, node.id = publicKey → ∀ snapshot, account = some snapshot →
      node = newNode node.id (some snapshot)) : Faithful t := by
  intro node hnode snapshot hcache
  rw [hlook.nodes] at hnode
  by_cases hid : node.id = publicKey
  · rw [hid, hlook.own] at hcache
    exact hown node hnode hid snapshot (Option.some.inj hcache)
  · rw [hlook.others node.id hid] at hcache
    exact hs node hnode snapshot hcache

theorem Looked.awaited {todo : List Text} {s t : Crawl} {publicKey : Text} {account : Option AccountSnapshot}
    (hlook : Looked h publicKey s account t) (hs : Awaited (publicKey :: todo) s) : Awaited todo t := by
  intro node hnode hcache
  rw [hlook.nodes] at hnode
  have hid : node.id ≠ publicKey := by
    intro hid
    rw [hid, hlook.own] at hcache
    cases hcache
  rw [hlook.others node.id hid] at hcache
  exact (List.mem_cons.mp (hs node hnode hcache)).resolve_left hid

theorem Looked.settled {s t : Crawl} {publicKey : Text} {account : Option AccountSnapshot}
    (hlook : Looked h publicKey s account t) (hs : Settled h s) : Settled h t := by
  by_cases hhit : s.cache.lookup publicKey = none
  · refine ⟨hlook.known hs.known, hlook.faithful hs.faithful fun node hnode hid => ?_,
      hlook.awaited fun node hnode hcache => List.mem_cons_of_mem _ (hs.awaited node hnode hcache)⟩
    exact absurd (hs.awaited node hnode (hid ▸ hhit)) List.not_mem_nil
  · exact hlook.kept hhit ▸ hs

theorem Appended.settled {s t : Crawl} {publicKey : Text} {account : Option AccountSnapshot}
    (happended : Appended publicKey account s t) (hs : Settled h s) (hcache : s.cache.lookup publicKey = some account) :
    Settled h t := by
  have hrow {node : GraphNode} (hnode : node ∈ t.nodes.rows) : node ∈ s.nodes.rows ∨ node = newNode publicKey account := by
    rw [happended.rows] at hnode
    exact (List.mem_append.mp hnode).imp_right List.mem_singleton.mp
  refine ⟨fun i key hi => ?_, fun node hnode snapshot hlookup => ?_, fun node hnode hlookup => ?_⟩
  · rw [happended.sent] at hi
    rw [happended.cache]
    exact hs.known i key hi
  · rw [happended.cache] at hlookup
    rcases hrow hnode with hnode | rfl
    · exact hs.faithful node hnode snapshot hlookup
    · obtain rfl : account = some snapshot := Option.some.inj (hcache.symm.trans hlookup)
      rfl
  · rw [happended.cache] at hlookup
    rcases hrow hnode with hnode | rfl
    · exact hs.awaited node hnode hlookup
    · cases hcache.symm.trans hlookup

theorem buildNode_settled {s : Crawl} {publicKey : Text} {account : Option AccountSnapshot} (hs : Settled h s)
    (hcache : s.cache.lookup publicKey = some account) : Settled h (buildNode limits publicKey account s).2 := by
  by_cases hmem : publicKey ∈ s.ids
  · obtain ⟨node, hbuild⟩ := @buildNode_present limits s publicKey hmem account
    rw [hbuild]
    exact hs
  · by_cases hroom : s.nodes.rows.length + 1 ≤ limits.maxNodes
    · obtain ⟨t, hbuild, happended⟩ := buildNode_appended hmem hroom account
      rw [hbuild]
      exact happended.settled hs hcache
    · rw [buildNode_full hmem (Nat.lt_of_not_le hroom)]
      exact ⟨hs.known, hs.faithful, hs.awaited⟩

theorem addAccount_settled {s : Crawl} (hs : Settled h s) (publicKey : Text) : Settled h (addAccount h limits s publicKey) := by
  have hlook := @loadAccount_looked h limits publicKey s
  exact buildNode_settled (hlook.settled hs) hlook.own

/-- The graph and the cache stay, and no account is asked for. -/
structure Quiet (s t : Crawl) : Prop where
  nodes : t.nodes = s.nodes
  cache : t.cache = s.cache
  sent : ∃ requests, t.sent = s.sent ++ requests ∧ ∀ publicKey, .account publicKey ∉ requests

theorem quiet_of_sent {s t : Crawl} (hnodes : t.nodes = s.nodes) (hcache : t.cache = s.cache) (hsent : t.sent = s.sent) :
    Quiet s t := ⟨hnodes, hcache, [], hsent.trans (List.append_nil _).symm, fun _ => List.not_mem_nil⟩

theorem Quiet.trans {s t u : Crawl} (hst : Quiet s t) (htu : Quiet t u) : Quiet s u := by
  obtain ⟨earlier, hearlier, hnone⟩ := hst.sent
  obtain ⟨later, hlater, hnone'⟩ := htu.sent
  refine ⟨htu.nodes.trans hst.nodes, htu.cache.trans hst.cache, earlier ++ later, ?_, fun publicKey hmem => ?_⟩
  · rw [hlater, hearlier, List.append_assoc]
  · exact (List.mem_append.mp hmem).elim (hnone publicKey) (hnone' publicKey)

theorem Quiet.extends {s t : Crawl} (hquiet : Quiet s t) : Extends s t := by
  obtain ⟨requests, hrequests, -⟩ := hquiet.sent
  exact ⟨hquiet.nodes ▸ List.prefix_rfl, hrequests ▸ List.prefix_append _ _⟩

theorem Quiet.settled {s t : Crawl} (hquiet : Quiet s t) (hs : Settled h s) : Settled h t := by
  obtain ⟨requests, hrequests, hnone⟩ := hquiet.sent
  refine ⟨fun i key hi => ?_, ?_, ?_⟩
  · rw [hquiet.cache]
    rw [hrequests] at hi
    rcases Nat.lt_or_ge i s.sent.length with hlt | hge
    · exact hs.known i key ((List.getElem?_append_left hlt).symm.trans hi)
    · rw [List.getElem?_append_right hge] at hi
      exact absurd (List.mem_of_getElem? hi) (hnone key)
  · rw [Faithful, hquiet.nodes, hquiet.cache]
    exact hs.faithful
  · rw [Awaited, hquiet.nodes, hquiet.cache]
    exact hs.awaited

/-- A step of a builder that looks an account up before it adds its node. -/
inductive Move (h : Horizon) (limits : GraphLimits) : Crawl → Crawl → Prop
  | quiet {s t : Crawl} (hquiet : Quiet s t) : Move h limits s t
  | add (s : Crawl) (publicKey : Text) : Move h limits s (addAccount h limits s publicKey)

abbrev Walk (h : Horizon) (limits : GraphLimits) : Crawl → Crawl → Prop := Relation.ReflTransGen (Move h limits)

theorem addAccount_extends (publicKey : Text) (s : Crawl) : Extends s (addAccount h limits s publicKey) :=
  (loadAccount_extends publicKey s).trans (buildNode_extends publicKey _ _)

theorem Walk.settled {s t : Crawl} (hwalk : Walk h limits s t) (hs : Settled h s) : Settled h t := by
  induction hwalk with
  | refl => exact hs
  | tail _ hmove ih =>
      cases hmove with
      | quiet hquiet => exact hquiet.settled ih
      | add publicKey => exact addAccount_settled ih publicKey

theorem Walk.extends {s t : Crawl} (hwalk : Walk h limits s t) : Extends s t := by
  induction hwalk with
  | refl => exact .refl s
  | tail _ hmove ih =>
      cases hmove with
      | quiet hquiet => exact ih.trans hquiet.extends
      | add publicKey => exact ih.trans (addAccount_extends publicKey _)

theorem walk_addAccounts (keys : List Text) : ∀ s : Crawl, Walk h limits s (keys.foldl (addAccount h limits) s) := by
  induction keys with
  | nil => exact fun _ => .refl
  | cons key keys ih => exact fun s => .head (.add s key) (ih _)

theorem takeRequest_quiet (s : Crawl) : Quiet s (takeRequest limits s).2 :=
  quiet_of_sent (takeRequest_sameGraph s).nodes (takeRequest_cache s) (takeRequest_sent s)

theorem hasRoomFor_quiet (s : Crawl) (current extra : Nat) : Quiet s (hasRoomFor limits s current extra).2 := by
  rw [hasRoomFor]
  split <;> exact quiet_of_sent rfl rfl rfl

theorem send_quiet (s : Crawl) {request : Request} (hrequest : ∀ publicKey, .account publicKey ≠ request) :
    Quiet s (s.send request) :=
  ⟨rfl, rfl, [request], rfl, fun publicKey hmem => hrequest publicKey (List.mem_singleton.mp hmem)⟩

theorem fetchOffers_quiet (rootAccount : Text) (s : Crawl) : Quiet s (fetchOffers h limits rootAccount s).2 := by
  have htake := @takeRequest_quiet limits s
  simp only [fetchOffers]
  split
  · exact htake.trans (send_quiet _ fun _ => Request.noConfusion)
  · exact htake

theorem addMatch_quiet (rootAccount : Text) (offer counter : PendingOffer) (m : Matches) (s : Crawl) :
    Quiet s (addMatch rootAccount offer counter m s).2 := by
  simp only [addMatch]
  split <;> exact quiet_of_sent rfl rfl rfl

theorem addCounters_quiet (rootAccount : Text) (offer : PendingOffer) {counters : List PendingOffer} :
    ∀ (m : Matches) (s : Crawl), Quiet s (addCounters limits rootAccount offer counters m s).2.2 := by
  induction counters with
  | nil => exact fun _ _ => quiet_of_sent rfl rfl rfl
  | cons counter counters ih =>
      intro m s
      rw [addCounters]
      split
      next => exact ih m s
      next =>
        split
        next => exact (addMatch_quiet rootAccount offer counter m s).trans (ih _ _)
        next =>
          have hroom := @hasRoomFor_quiet limits s (s.nodes.rows.length + m.pendingNew.length) 1
          simp only
          split
          next => exact hroom.trans ((addMatch_quiet rootAccount offer counter _ _).trans (ih _ _))
          next => exact hroom

theorem matchOffers_quiet (rootAccount : Text) {offers : List PendingOffer} :
    ∀ (m : Matches) (s : Crawl), Quiet s (matchOffers h limits rootAccount offers m s).2 := by
  induction offers with
  | nil => exact fun _ _ => quiet_of_sent rfl rfl rfl
  | cons offer offers ih =>
      intro m s
      have htake := @takeRequest_quiet limits s
      rw [matchOffers]
      rcases htaken : takeRequest limits s with ⟨_ | _, t⟩
      · rw [htaken] at htake
        exact htake
      · rw [htaken] at htake
        replace htake : Quiet s t := htake
        simp only
        cases sdkAsset h offer.selling with
        | error message => exact htake
        | ok selling =>
            cases sdkAsset h offer.buying with
            | error message => exact htake
            | ok buying =>
                have hsend : Quiet s (t.send (.counterOffers buying selling)) :=
                  htake.trans (send_quiet t fun _ => Request.noConfusion)
                simp only
                cases h.counterOffers t.sent.length buying selling with
                | error message => exact hsend.trans (ih m _)
                | ok counters =>
                    have hcounters := hsend.trans (@addCounters_quiet limits rootAccount offer counters m _)
                    simp only
                    rcases hadded : addCounters limits rootAccount offer counters m (t.send (.counterOffers buying selling)) with
                      ⟨_ | _, m', u⟩
                    · rw [hadded] at hcounters
                      exact hcounters
                    · rw [hadded] at hcounters
                      exact hcounters.trans (ih m' u)

theorem buildOffersGraph_walk (rootAccount : Text) (s : Crawl) :
    Walk h limits s (buildOffersGraph h limits rootAccount s).2 := by
  have hroot : Walk h limits s (addAccount h limits (fetchOffers h limits rootAccount s).2 rootAccount) :=
    .tail (.single (.quiet (fetchOffers_quiet rootAccount s))) (.add _ rootAccount)
  simp only [buildOffersGraph]
  generalize addAccount h limits (fetchOffers h limits rootAccount s).2 rootAccount = t at hroot
  split
  next => exact hroot
  next =>
    have hmatches := @matchOffers_quiet h limits rootAccount (fetchOffers h limits rootAccount s).1 ⟨[], []⟩ t
    rcases hmatched : matchOffers h limits rootAccount (fetchOffers h limits rootAccount s).1 ⟨[], []⟩ t with ⟨_ | m, u⟩
    · rw [hmatched] at hmatches
      exact hroot.tail (.quiet hmatches)
    · rw [hmatched] at hmatches
      exact (hroot.tail (.quiet hmatches)).trans (walk_addAccounts m.matchedSellers u)

theorem addPayments_quiet {ops : List PaymentOperation} :
    ∀ (p : Endpoints) (s : Crawl), Quiet s (addPayments limits ops p s).2 := by
  induction ops with
  | nil => exact fun _ _ => quiet_of_sent rfl rfl rfl
  | cons op ops ih =>
      intro p s
      rw [addPayments]
      cases nonEmpty op.source with
      | none => exact ih p s
      | some source =>
          cases nonEmpty op.destination with
          | none => exact ih p s
          | some target =>
              simp only
              generalize (addOnce [source] target).filter (fun key => key ∉ s.ids ∧ key ∉ p.pendingNew) = fresh
              have hroom := @hasRoomFor_quiet limits s (s.nodes.rows.length + p.pendingNew.length) fresh.length
              rcases hasked : hasRoomFor limits s (s.nodes.rows.length + p.pendingNew.length) fresh.length with ⟨_ | _, t⟩
              · rw [hasked] at hroom
                exact hroom
              · rw [hasked] at hroom
                replace hroom : Quiet s t := hroom
                have hedge : Quiet t (t.addEdges [paymentEdge op source target]) := quiet_of_sent rfl rfl rfl
                exact (hroom.trans hedge).trans (ih _ _)

theorem buildPaymentsGraph_walk (rootAccount : Text) (s : Crawl) :
    Walk h limits s (buildPaymentsGraph h limits rootAccount s) := by
  have htake := @takeRequest_quiet limits s
  rw [buildPaymentsGraph]
  rcases htaken : takeRequest limits s with ⟨_ | _, t⟩
  · rw [htaken] at htake
    exact .tail (.single (.quiet htake)) (.add t rootAccount)
  · rw [htaken] at htake
    have hsend : Quiet s (t.send (.payments rootAccount)) := htake.trans (send_quiet t fun _ => Request.noConfusion)
    have hroot : Walk h limits s (addAccount h limits (t.send (.payments rootAccount)) rootAccount) :=
      .tail (.single (.quiet hsend)) (.add _ rootAccount)
    simp only
    cases h.payments t.sent.length rootAccount with
    | error message => exact hroot
    | ok records => exact (hroot.tail (.quiet (addPayments_quiet _ _))).trans (walk_addAccounts _ _)

/-- The signers that may get nodes. -/
def signerKeys (signers : List HorizonSigner) : List Text :=
  (signers.map HorizonSigner.key).filter (·.head? = some (unit 'G'))

theorem signerKeys_cons (signer : HorizonSigner) (signers : List HorizonSigner) : signerKeys (signer :: signers) =
    if signer.key.head? = some (unit 'G') then signer.key :: signerKeys signers else signerKeys signers := by
  simp only [signerKeys, List.map_cons, List.filter_cons, decide_eq_true_eq]

/-- The root and its signers, once each and in their order. -/
def met (rootAccount : Text) (account : AccountSnapshot) : List Text :=
  (signerKeys account.signers).foldl addOnce [rootAccount]

theorem length_le_addAll (keys : List Text) : ∀ ids : List Text, ids.length ≤ (keys.foldl addOnce ids).length := by
  induction keys with
  | nil => exact fun _ => Nat.le_refl _
  | cons key keys ih =>
      intro ids
      refine Nat.le_trans ?_ (ih (addOnce ids key))
      rw [addOnce]
      split
      · exact Nat.le_refl _
      · exact List.length_append ▸ Nat.le_add_right _ _

theorem head_addAll (keys : List Text) : ∀ (first : Text) (rest : List Text),
    ∃ more, keys.foldl addOnce (first :: rest) = first :: more := by
  induction keys with
  | nil => exact fun _ rest => ⟨rest, rfl⟩
  | cons key keys ih =>
      intro first rest
      rw [List.foldl_cons, addOnce]
      split
      · exact ih first rest
      · exact ih first (rest ++ [key])

theorem mem_addAll {key : Text} (keys : List Text) : ∀ ids : List Text,
    key ∈ keys.foldl addOnce ids ↔ key ∈ ids ∨ key ∈ keys := by
  induction keys with
  | nil => exact fun ids => (or_iff_left List.not_mem_nil).symm
  | cons other keys ih =>
      intro ids
      rw [List.foldl_cons, ih, mem_addOnce, List.mem_cons, or_assoc]

/-- New nodes for accounts that have not been looked up. -/
structure Met (s t : Crawl) : Prop where
  rows : ∃ nodes, t.nodes.rows = s.nodes.rows ++ nodes ∧ ∀ node ∈ nodes, node = newNode node.id none ∧ node.id ∉ s.ids
  requests : t.requests = s.requests
  cache : t.cache = s.cache
  sent : t.sent = s.sent

theorem Met.refl (s : Crawl) : Met s s := ⟨⟨[], (List.append_nil _).symm, List.forall_mem_nil _⟩, rfl, rfl, rfl⟩

theorem Appended.ids {publicKey : Text} {account : Option AccountSnapshot} {s t : Crawl}
    (happended : Appended publicKey account s t) : t.ids = s.ids ++ [publicKey] := by
  rw [Crawl.ids, happended.rows, List.map_append, Crawl.ids]
  rfl

theorem Appended.met {publicKey : Text} {s t u : Crawl} (happended : Appended publicKey none s t)
    (hnew : publicKey ∉ s.ids) (htu : Met t u) : Met s u := by
  obtain ⟨nodes, hrows, hnodes⟩ := htu.rows
  refine ⟨⟨newNode publicKey none :: nodes, ?_, List.forall_mem_cons.mpr ⟨⟨rfl, hnew⟩, fun node hnode => ?_⟩⟩,
    htu.requests.trans happended.requests, htu.cache.trans happended.cache, htu.sent.trans happended.sent⟩
  · rw [hrows, happended.rows, List.append_assoc, List.singleton_append]
  · refine ⟨(hnodes node hnode).1, fun hmem => (hnodes node hnode).2 ?_⟩
    rw [happended.ids]
    exact List.mem_append_left _ hmem

/-- All signers get nodes when there is room for them, and a limit is hit when there is not. -/
structure SignersMet (limits : GraphLimits) (signers : List HorizonSigner) (s : Crawl) (keys : List Text) (t : Crawl) :
    Prop where
  met : Met s t
  fits : ((signerKeys signers).foldl addOnce s.ids).length ≤ limits.maxNodes →
    keys = signerKeys signers ∧ t.ids = (signerKeys signers).foldl addOnce s.ids ∧ t.truncatedBy = s.truncatedBy
  full : limits.maxNodes < ((signerKeys signers).foldl addOnce s.ids).length → t.exhausted = true

theorem truncate_exhausted (s : Crawl) (truncation : GraphTruncation) : (s.truncate truncation).exhausted = true := by
  rw [Crawl.exhausted, Crawl.truncate]
  cases s.truncatedBy <;> rfl

theorem addSigners_met {signers : List HorizonSigner} : ∀ {s : Crawl}, s.nodes.rows.length ≤ limits.maxNodes →
    SignersMet limits signers s (addSigners limits signers s).1 (addSigners limits signers s).2 := by
  induction signers with
  | nil => exact fun {s} hs => ⟨.refl s, fun _ => ⟨rfl, rfl, rfl⟩, fun hfull => absurd (List.length_map _ ▸ hfull) (Nat.not_lt_of_le hs)⟩
  | cons signer signers ih =>
      intro s hs
      rw [addSigners]
      by_cases hkey : signer.key.head? = some (unit 'G')
      · have hkeys := (signerKeys_cons signer signers).trans (if_pos hkey)
        rw [if_neg (not_not_intro hkey)]
        by_cases hmem : signer.key ∈ s.ids
        · obtain ⟨node, hbuild⟩ := @buildNode_present limits s signer.key hmem none
          have hall : (signerKeys (signer :: signers)).foldl addOnce s.ids = (signerKeys signers).foldl addOnce s.ids := by
            rw [hkeys, List.foldl_cons, addOnce, if_pos hmem]
          obtain ⟨hmet, hfits, hfull⟩ := ih hs
          rw [hbuild]
          refine ⟨hmet, fun hle => ?_, fun hlt => hfull (hall ▸ hlt)⟩
          obtain ⟨hkeys', hids, htruncated⟩ := hfits (hall ▸ hle)
          exact ⟨hkeys ▸ congrArg (signer.key :: ·) hkeys', hall ▸ hids, htruncated⟩
        · have hall : (signerKeys (signer :: signers)).foldl addOnce s.ids =
              (signerKeys signers).foldl addOnce (s.ids ++ [signer.key]) := by
            rw [hkeys, List.foldl_cons, addOnce, if_neg hmem]
          by_cases hroom : s.nodes.rows.length + 1 ≤ limits.maxNodes
          · obtain ⟨t, hbuild, happended⟩ := buildNode_appended hmem hroom none
            have hlength : t.nodes.rows.length ≤ limits.maxNodes := by
              rw [happended.rows, List.length_append]
              exact hroom
            obtain ⟨hmet, hfits, hfull⟩ := ih hlength
            rw [happended.ids, ← hall] at hfits hfull
            rw [hbuild]
            refine ⟨happended.met hmem hmet, fun hle => ?_, hfull⟩
            obtain ⟨hkeys', hids, htruncated⟩ := hfits hle
            exact ⟨hkeys ▸ congrArg (signer.key :: ·) hkeys', hids, htruncated.trans happended.truncatedBy⟩
          · have hlt := Nat.lt_of_not_le hroom
            rw [buildNode_full hmem hlt]
            refine ⟨⟨(Met.refl s).rows, rfl, rfl, rfl⟩, fun hle => ?_, fun _ => truncate_exhausted s _⟩
            have hgrown := length_le_addAll (signerKeys signers) (s.ids ++ [signer.key])
            rw [← hall, List.length_append, Crawl.ids, List.length_map, List.length_singleton] at hgrown
            exact absurd (Nat.le_trans hgrown hle) hroom
      · have hkeys := (signerKeys_cons signer signers).trans (if_neg hkey)
        obtain ⟨hmet, hfits, hfull⟩ := ih hs
        rw [if_pos hkey]
        exact ⟨hmet, hkeys ▸ hfits, hkeys ▸ hfull⟩

/-- Keys wait for the loop, in the order in which their nodes were made. -/
theorem enqueueAll_level {depth level : Int} (hlevel : level + 1 < depth + 1) (keys : List Text) :
    ∀ (first : Text) (rest : List Text),
      keys.foldl (enqueue depth level) ⟨first :: rest, rest.map (·, level + 1)⟩ =
        ⟨keys.foldl addOnce (first :: rest), (keys.foldl addOnce (first :: rest)).tail.map (·, level + 1)⟩ := by
  induction keys with
  | nil => exact fun _ _ => rfl
  | cons key keys ih =>
      intro first rest
      by_cases hmem : key ∈ first :: rest
      · have henqueue : enqueue depth level ⟨first :: rest, rest.map (·, level + 1)⟩ key =
            ⟨first :: rest, rest.map (·, level + 1)⟩ := if_neg fun hnew => hnew.1 hmem
        rw [List.foldl_cons, List.foldl_cons, henqueue, addOnce, if_pos hmem]
        exact ih first rest
      · have henqueue : enqueue depth level ⟨first :: rest, rest.map (·, level + 1)⟩ key =
            ⟨first :: (rest ++ [key]), (rest ++ [key]).map (·, level + 1)⟩ := by
          rw [enqueue, if_pos ⟨hmem, hlevel⟩, List.map_append, List.map_singleton, List.cons_append]
        rw [List.foldl_cons, List.foldl_cons, henqueue, addOnce, if_neg hmem]
        exact ih first (rest ++ [key])

/-- One of the keys is looked up within the budget, each with the next request from `first` on, and is not what its node says. -/
def Unlike (h : Horizon) (limits : GraphLimits) (first : Nat) (keys : List Text) : Prop :=
  ∃ i publicKey account, keys[i]? = some publicKey ∧ first + i < limits.maxHorizonRequests ∧
    h.loadAccount (first + i) publicKey = .ok account ∧ ¬Blank account

theorem not_unlike_nil (first : Nat) : ¬Unlike h limits first [] := by
  rintro ⟨i, publicKey, account, hi, -⟩
  cases hi

theorem unlike_cons {first : Nat} {publicKey : Text} {keys : List Text} : Unlike h limits first (publicKey :: keys) ↔
    (first < limits.maxHorizonRequests ∧ ∃ account, h.loadAccount first publicKey = .ok account ∧ ¬Blank account) ∨
      Unlike h limits (first + 1) keys := by
  constructor
  · rintro ⟨_ | i, key, account, hi, hlt, hload, hblank⟩
    · obtain rfl := Option.some.inj hi
      exact .inl ⟨hlt, account, hload, hblank⟩
    · rw [Nat.add_comm i, ← Nat.add_assoc] at hlt hload
      exact .inr ⟨i, key, account, hi, hlt, hload, hblank⟩
  · rintro (⟨hlt, account, hload, hblank⟩ | ⟨i, key, account, hi, hlt, hload, hblank⟩)
    · exact ⟨0, publicKey, account, rfl, hlt, hload, hblank⟩
    · rw [Nat.add_assoc, Nat.add_comm 1] at hlt hload
      exact ⟨i + 1, key, account, hi, hlt, hload, hblank⟩

theorem Unlike.lt {first : Nat} {keys : List Text} (hunlike : Unlike h limits first keys) :
    first < limits.maxHorizonRequests := by
  obtain ⟨i, -, -, -, hlt, -⟩ := hunlike
  omega

/-- Before the accounts in `todo` are looked up: their nodes were made of nothing. -/
structure Looking (h : Horizon) (todo : List Text) (s : Crawl) : Prop where
  known : Known h s
  faithful : Faithful s
  awaited : Awaited todo s
  unhit : s.exhausted = false
  requests : s.requests = s.sent.length
  nodup : todo.Nodup
  fresh : ∀ publicKey ∈ todo, newNode publicKey none ∈ s.nodes.rows ∧ s.cache.lookup publicKey = none ∧
    publicKey.head? = some (unit 'G')

theorem loadAccount_granted {s : Crawl} {publicKey : Text} (hmiss : s.cache.lookup publicKey = none)
    (hlt : s.requests < limits.maxHorizonRequests) : loadAccount h limits publicKey s =
      ((h.loadAccount s.sent.length publicKey).toOption,
        { s with
          requests := s.requests + 1
          sent := s.sent ++ [.account publicKey]
          cache := s.cache ++ [(publicKey, (h.loadAccount s.sent.length publicKey).toOption)] }) := by
  simp only [loadAccount, hmiss, takeRequest, if_neg (Nat.not_le_of_lt hlt), if_true, fetchAccount, Crawl.send]

theorem loadAccount_refused {s : Crawl} {publicKey : Text} (hmiss : s.cache.lookup publicKey = none)
    (hle : limits.maxHorizonRequests ≤ s.requests) : loadAccount h limits publicKey s =
      (none, { s.truncate .horizonRequestLimit with cache := s.cache ++ [(publicKey, none)] }) := by
  simp only [loadAccount, hmiss, takeRequest, if_pos hle, Bool.false_eq_true, if_false, Crawl.truncate]

theorem mem_ids_of_mem {s : Crawl} {publicKey : Text} {account : Option AccountSnapshot}
    (hmem : newNode publicKey account ∈ s.nodes.rows) : publicKey ∈ s.ids := List.mem_map.mpr ⟨_, hmem, rfl⟩

/-- Without signers to follow, a visit only looks its account up. -/
theorem visitAccount_quiet {s t : Crawl} {publicKey : Text} {account : Option AccountSnapshot} (depth level : Int)
    (hload : loadAccount h limits publicKey s = (account, t)) (hmem : publicKey ∈ t.ids)
    (hsigners : ∀ snapshot, account = some snapshot → snapshot.signers = []) :
    visitAccount h limits depth level publicKey s = (some [], t) := by
  obtain ⟨node, hbuild⟩ := @buildNode_present limits t publicKey hmem account
  rw [visitAccount, hload]
  simp only [hbuild]
  cases account with
  | none => rfl
  | some snapshot => exact if_pos (.inr (hsigners snapshot rfl))

section Visit

variable {s : Crawl} {publicKey : Text} {todo : List Text}

/-- The budget is spent: the limit is hit, and the graph stays. -/
theorem visitAccount_refused (hs : Looking h (publicKey :: todo) s) (hle : limits.maxHorizonRequests ≤ s.sent.length)
    (depth level : Int) : ∃ t, visitAccount h limits depth level publicKey s = (some [], t) ∧
      Known h t ∧ Faithful t ∧ t.exhausted = true := by
  obtain ⟨hmem, hmiss, -⟩ := hs.fresh publicKey List.mem_cons_self
  have hload := loadAccount_refused (h := h) hmiss (hs.requests ▸ hle)
  have hlook := @loadAccount_looked h limits publicKey s
  rw [hload] at hlook
  have hnone (snapshot : AccountSnapshot) (hsome : none = some snapshot) : snapshot.signers = [] :=
    absurd hsome.symm (Option.some_ne_none snapshot)
  refine ⟨_, visitAccount_quiet depth level hload (mem_ids_of_mem hmem) hnone, hlook.known hs.known,
    hlook.faithful hs.faithful fun _ _ _ snapshot hnone => absurd hnone.symm (Option.some_ne_none snapshot),
    truncate_exhausted s _⟩

/-- The account could not be loaded, or its node is what it should be. -/
theorem visitAccount_like (hs : Looking h (publicKey :: todo) s) (hlt : s.sent.length < limits.maxHorizonRequests)
    (hlike : ∀ account, h.loadAccount s.sent.length publicKey = .ok account → Blank account) (depth level : Int) :
    ∃ t, visitAccount h limits depth level publicKey s = (some [], t) ∧ Looking h todo t ∧
      t.sent.length = s.sent.length + 1 := by
  obtain ⟨hmem, hmiss, -⟩ := hs.fresh publicKey List.mem_cons_self
  have hload := loadAccount_granted (h := h) hmiss (hs.requests ▸ hlt)
  have hlook := @loadAccount_looked h limits publicKey s
  rw [hload] at hlook
  have hblank : ∀ snapshot, (h.loadAccount s.sent.length publicKey).toOption = some snapshot → Blank snapshot := by
    intro snapshot hsnapshot
    cases hanswer : h.loadAccount s.sent.length publicKey with
    | error message =>
        rw [hanswer] at hsnapshot
        cases hsnapshot
    | ok account =>
        rw [hanswer] at hsnapshot
        obtain rfl := Option.some.inj hsnapshot
        exact hlike account hanswer
  refine ⟨_, visitAccount_quiet depth level hload (mem_ids_of_mem hmem) fun snapshot hsnapshot => (hblank snapshot hsnapshot).signers,
    ⟨hlook.known hs.known, hlook.faithful hs.faithful fun node hnode hid snapshot hsnapshot => ?_,
      hlook.awaited hs.awaited, hs.unhit, ?_, (List.nodup_cons.mp hs.nodup).2, fun key hkey => ?_⟩, List.length_append⟩
  · rw [KeyedRows.eq_of_key hnode hmem hid]
    exact ((hblank snapshot hsnapshot).newNode_eq publicKey).symm
  · change s.requests + 1 = (s.sent ++ [Request.account publicKey]).length
    rw [List.length_append, hs.requests, List.length_singleton]
  · obtain ⟨hnode, hunknown, hgraph⟩ := hs.fresh key (List.mem_cons_of_mem _ hkey)
    refine ⟨hnode, ?_, hgraph⟩
    rw [hlook.others key fun heq => (List.nodup_cons.mp hs.nodup).1 (heq ▸ hkey)]
    exact hunknown

/-- A node is not what its account, now looked up, makes of it. -/
theorem visitAccount_unlike (hs : Looking h (publicKey :: todo) s) (hlt : s.sent.length < limits.maxHorizonRequests)
    {account : AccountSnapshot} (hanswer : h.loadAccount s.sent.length publicKey = .ok account) (hblank : ¬Blank account)
    (depth level : Int) : ¬Reflects h (visitAccount h limits depth level publicKey s).2.nodes.rows
      (visitAccount h limits depth level publicKey s).2.sent := by
  obtain ⟨hmem, hmiss, hgraph⟩ := hs.fresh publicKey List.mem_cons_self
  have hextends := @visitAccount_extends h limits depth level publicKey s
  rw [loadAccount_granted hmiss (hs.requests ▸ hlt)] at hextends
  intro hreflects
  obtain ⟨htype, hmetadata⟩ :=
    hextends.reflects hreflects _ hmem s.sent.length account List.getElem?_concat_length hanswer
  exact hblank (blank_of_newNode hgraph htype hmetadata)

end Visit

theorem signersLoop_exhausted {s t : Crawl} (hs : s.exhausted = true) {depth : Int} {fuel : Nat} {f : Frontier}
    (hloop : signersLoop h limits depth fuel f s = some t) : t = s := by
  cases fuel with
  | zero => cases hloop
  | succ fuel =>
      obtain ⟨visited, _ | ⟨⟨publicKey, level⟩, queue⟩⟩ := f
      · exact (Option.some.inj hloop).symm
      · rw [signersLoop, if_pos hs] at hloop
        exact (Option.some.inj hloop).symm

/-- What the builders leave of the classification: it holds unless some signer is unlike its node. -/
structure Judged (h : Horizon) (unlike : Prop) (t : Crawl) : Prop where
  wrong : unlike → ¬Reflects h t.nodes.rows t.sent
  known : ¬unlike → Known h t
  faithful : ¬unlike → Faithful t
  awaited : ¬unlike → t.exhausted = false → Awaited [] t

/-- The loop over the signers of the root, while all of them were like their nodes so far. -/
theorem signersLoop_judged (depth level : Int) {todo : List Text} : ∀ {fuel : Nat} {visited : List Text} {s t : Crawl},
    Looking h todo s → signersLoop h limits depth fuel ⟨visited, todo.map (·, level)⟩ s = some t →
      Judged h (Unlike h limits s.sent.length todo) t := by
  induction todo with
  | nil =>
      intro fuel visited s t hs hloop
      cases fuel with
      | zero => cases hloop
      | succ fuel =>
          obtain rfl := Option.some.inj hloop
          exact ⟨fun hunlike => absurd hunlike (not_unlike_nil _), fun _ => hs.known, fun _ => hs.faithful,
            fun _ _ => hs.awaited⟩
  | cons publicKey todo ih =>
      intro fuel visited s t hs hloop
      cases fuel with
      | zero => cases hloop
      | succ fuel =>
          rw [List.map_cons, signersLoop, if_neg (ne_true_of_eq_false hs.unhit)] at hloop
          by_cases hlt : s.sent.length < limits.maxHorizonRequests
          · by_cases hlike : ∀ account, h.loadAccount s.sent.length publicKey = .ok account → Blank account
            · obtain ⟨u, hvisit, hu, hlength⟩ := visitAccount_like hs hlt hlike depth level
              rw [hvisit] at hloop
              have hrest := ih hu hloop
              rw [hlength] at hrest
              have hunlike : Unlike h limits s.sent.length (publicKey :: todo) ↔ Unlike h limits (s.sent.length + 1) todo := by
                rw [unlike_cons]
                refine or_iff_right ?_
                rintro ⟨-, account, hanswer, hblank⟩
                exact hblank (hlike account hanswer)
              rw [hunlike]
              exact hrest
            · obtain ⟨account, hlike⟩ := not_forall.mp hlike
              obtain ⟨hanswer, hblank⟩ := Classical.not_imp.mp hlike
              have hunlike : Unlike h limits s.sent.length (publicKey :: todo) :=
                unlike_cons.mpr (.inl ⟨hlt, account, hanswer, hblank⟩)
              have hwrong := visitAccount_unlike hs hlt hanswer hblank depth level
              have hextends : Extends (visitAccount h limits depth level publicKey s).2 t := by
                rcases hvisit : visitAccount h limits depth level publicKey s with ⟨_ | keys, u⟩
                · rw [hvisit] at hloop
                  obtain rfl := Option.some.inj hloop
                  exact .refl u
                · rw [hvisit] at hloop
                  exact signersLoop_extends depth fuel _ u t hloop
              exact ⟨fun _ hreflects => hwrong (hextends.reflects hreflects), absurd hunlike, absurd hunlike, absurd hunlike⟩
          · obtain ⟨u, hvisit, hknown, hfaithful, hhit⟩ := visitAccount_refused hs (Nat.le_of_not_lt hlt) depth level
            rw [hvisit] at hloop
            obtain rfl := signersLoop_exhausted hhit hloop
            exact ⟨fun hunlike => absurd hunlike.lt hlt, fun _ => hknown, fun _ => hfaithful,
              fun _ hunhit => absurd hhit (ne_true_of_eq_false hunhit)⟩

/-- After the root was looked up. -/
structure Started (h : Horizon) (rootAccount : Text) (root : AccountSnapshot) (s : Crawl) : Prop where
  answer : h.loadAccount 0 rootAccount = .ok root
  requests : s.requests = 1
  cache : s.cache = [(rootAccount, some root)]
  sent : s.sent = [.account rootAccount]
  rows : s.nodes.rows = []
  unhit : s.truncatedBy = none

section Root

variable {rootAccount : Text} {root : AccountSnapshot} {s : Crawl}

theorem started_of_loadAccount (hpos : 0 < limits.maxHorizonRequests)
    (hload : loadAccount h limits rootAccount Crawl.start = (some root, s)) : Started h rootAccount root s := by
  have hstart : Crawl.start.cache.lookup rootAccount = none := rfl
  rw [loadAccount_granted hstart hpos] at hload
  obtain ⟨hanswer, rfl⟩ := Prod.mk.inj hload
  replace hanswer : (h.loadAccount 0 rootAccount).toOption = some root := hanswer
  refine ⟨?_, rfl, ?_, rfl, rfl, rfl⟩
  · cases hloaded : h.loadAccount 0 rootAccount with
    | error message =>
        rw [hloaded] at hanswer
        cases hanswer
    | ok account =>
        rw [hloaded] at hanswer
        exact congrArg Except.ok (Option.some.inj hanswer)
  · change [(rootAccount, (h.loadAccount 0 rootAccount).toOption)] = _
    rw [hanswer]

theorem Started.lookup (hs : Started h rootAccount root s) : s.cache.lookup rootAccount = some (some root) := by
  rw [hs.cache, List.lookup_cons_self]

theorem Started.settled (hs : Started h rootAccount root s) : Settled h s := by
  refine ⟨fun i publicKey hi => ?_, fun node hnode => ?_, fun node hnode => ?_⟩
  · rw [hs.sent] at hi
    obtain ⟨rfl, hrequest⟩ := Option.ite_none_right_eq_some.mp (List.getElem?_singleton.symm.trans hi)
    obtain rfl := Request.account.inj (Option.some.inj hrequest)
    rw [hs.lookup, hs.answer]
    rfl
  · exact absurd (hs.rows ▸ hnode) List.not_mem_nil
  · exact absurd (hs.rows ▸ hnode) List.not_mem_nil

/-- The root gets the first node. -/
theorem Started.build (hs : Started h rootAccount root s) (hpos : 0 < limits.maxNodes) :
    ∃ t, buildNode limits rootAccount (some root) s = (some (newNode rootAccount (some root)), t) ∧
      Appended rootAccount (some root) s t := by
  have hnew : rootAccount ∉ s.ids := by
    rw [Crawl.ids, hs.rows]
    exact List.not_mem_nil
  exact buildNode_appended hnew (hs.rows ▸ hpos) (some root)

/-- The root is known, and the nodes of its signers were made of nothing. -/
structure RootMet (h : Horizon) (rootAccount : Text) (root : AccountSnapshot) (s : Crawl) : Prop where
  known : Known h s
  requests : s.requests = s.sent.length
  cache : s.cache = [(rootAccount, some root)]
  row : ∀ node ∈ s.nodes.rows,
    node = newNode rootAccount (some root) ∨ node = newNode node.id none ∧ node.id ≠ rootAccount

theorem Started.rootMet {t u : Crawl} (hs : Started h rootAccount root s) (ht : Appended rootAccount (some root) s t)
    (hmet : Met t u) : RootMet h rootAccount root u := by
  refine ⟨fun i key hi => ?_, ?_, hmet.cache.trans (ht.cache.trans hs.cache), fun node hnode => ?_⟩
  · rw [hmet.cache]
    exact (ht.settled hs.settled hs.lookup).known i key (hmet.sent ▸ hi)
  · rw [hmet.requests, ht.requests, hs.requests, hmet.sent, ht.sent, hs.sent]
    rfl
  · obtain ⟨nodes, hrows, hnodes⟩ := hmet.rows
    rw [hrows, ht.rows, hs.rows, List.nil_append, List.singleton_append] at hnode
    rcases List.mem_cons.mp hnode with hnode | hnode
    · exact .inl hnode
    · refine .inr ⟨(hnodes node hnode).1, fun hid => (hnodes node hnode).2 ?_⟩
      rw [ht.ids, hid]
      exact List.mem_append_right _ (List.mem_singleton_self _)

theorem RootMet.lookup_root (hs : RootMet h rootAccount root s) : s.cache.lookup rootAccount = some (some root) := by
  rw [hs.cache, List.lookup_cons_self]

theorem RootMet.lookup_other (hs : RootMet h rootAccount root s) {publicKey : Text} (hne : publicKey ≠ rootAccount) :
    s.cache.lookup publicKey = none := by
  rw [hs.cache, List.lookup_cons, beq_eq_false_iff_ne.mpr hne, List.lookup_nil]

theorem RootMet.faithful (hs : RootMet h rootAccount root s) : Faithful s := by
  intro node hnode account hlookup
  rcases hs.row node hnode with rfl | ⟨-, hid⟩
  · obtain rfl := Option.some.inj (Option.some.inj (hs.lookup_root.symm.trans hlookup))
    rfl
  · rw [hs.lookup_other hid] at hlookup
    cases hlookup

/-- With room for all signers, they wait to be looked up. -/
theorem RootMet.looking (hs : RootMet h rootAccount root s) (hids : s.ids = met rootAccount root)
    (hunhit : s.exhausted = false) : Looking h (met rootAccount root).tail s := by
  obtain ⟨signers, hsigners⟩ := head_addAll (signerKeys root.signers) rootAccount []
  replace hids : s.ids = rootAccount :: signers := hids.trans hsigners
  have hnodup : (rootAccount :: signers).Nodup := hids ▸ s.nodes.nodup
  have htail : (met rootAccount root).tail = signers := congrArg List.tail hsigners
  rw [htail]
  refine ⟨hs.known, hs.faithful, fun node hnode hlookup => ?_, hunhit, hs.requests, (List.nodup_cons.mp hnodup).2,
    fun publicKey hkey => ?_⟩
  · have hmem : node.id ∈ rootAccount :: signers := hids ▸ List.mem_map_of_mem hnode
    refine (List.mem_cons.mp hmem).resolve_left fun hid => ?_
    rw [hid, hs.lookup_root] at hlookup
    cases hlookup
  · have hne : publicKey ≠ rootAccount := fun heq => (List.nodup_cons.mp hnodup).1 (heq ▸ hkey)
    have hmem : publicKey ∈ s.ids := hids ▸ List.mem_cons_of_mem _ hkey
    have hsigner : publicKey ∈ (signerKeys root.signers).foldl addOnce [rootAccount] :=
      hsigners ▸ List.mem_cons_of_mem _ hkey
    obtain ⟨node, hnode, rfl⟩ := List.mem_map.mp hmem
    refine ⟨?_, hs.lookup_other hne, ?_⟩
    · rcases hs.row node hnode with heq | ⟨heq, -⟩
      · exact absurd (congrArg GraphNode.id heq) hne
      · exact heq ▸ hnode
    · have hsigner := ((mem_addAll _ _).mp hsigner).resolve_left fun hroot => hne (List.mem_singleton.mp hroot)
      exact of_decide_eq_true (List.mem_filter.mp hsigner).2

/-- Some signer of the root is looked up whose node was made before, of nothing. -/
structure StaleSigner (h : Horizon) (limits : GraphLimits) (rootAccount : Text) (root : AccountSnapshot) (depth : Int) :
    Prop where
  depth : 0 < depth
  room : (met rootAccount root).length ≤ limits.maxNodes
  unlike : Unlike h limits 1 (met rootAccount root).tail

theorem judged_of_settled {unlike : Prop} (hlike : ¬unlike) (hs : Settled h s) : Judged h unlike s :=
  ⟨fun hunlike => absurd hunlike hlike, fun _ => hs.known, fun _ => hs.faithful, fun _ _ => hs.awaited⟩

theorem not_staleSigner {depth : Int} (hstop : depth ≤ 0 ∨ root.signers = []) :
    ¬StaleSigner h limits rootAccount root depth := by
  rintro ⟨hdepth, -, hunlike⟩
  rcases hstop with hle | hnone
  · exact absurd hdepth (Int.not_lt.mpr hle)
  · rw [met, hnone] at hunlike
    exact not_unlike_nil 1 hunlike

theorem buildSignersGraph_judged (hs : Started h rootAccount root s) (hpos : 0 < limits.maxNodes) {depth : Int} {u : Crawl}
    (hbuilt : buildSignersGraph h limits rootAccount depth s = some u) :
    Judged h (StaleSigner h limits rootAccount root depth) u := by
  obtain ⟨t, hbuild, ht⟩ := hs.build hpos
  have hsettled := ht.settled hs.settled hs.lookup
  have hload : loadAccount h limits rootAccount s = (some root, s) := by
    rw [loadAccount, hs.lookup]
  have hunhit : s.exhausted = false := congrArg Option.isSome hs.unhit
  rw [buildSignersGraph, signersLoop, if_neg (ne_true_of_eq_false hunhit), visitAccount, hload] at hbuilt
  simp only [hbuild] at hbuilt
  by_cases hstop : depth ≤ 0 ∨ root.signers = []
  · rw [if_pos hstop] at hbuilt
    obtain ⟨maxNodes, hmax⟩ := Nat.exists_eq_succ_of_ne_zero (Nat.pos_iff_ne_zero.mp hpos)
    rw [hmax] at hbuilt
    obtain rfl := Option.some.inj hbuilt
    exact judged_of_settled (not_staleSigner hstop) hsettled
  · rw [if_neg hstop] at hbuilt
    have hlength : t.nodes.rows.length ≤ limits.maxNodes := by
      rw [ht.rows, hs.rows]
      exact hpos
    have hids : t.ids = [rootAccount] := by
      rw [ht.ids, Crawl.ids, hs.rows]
      rfl
    obtain ⟨hmet, hfits, hfull⟩ := @addSigners_met limits root.signers t hlength
    rcases hadd : addSigners limits root.signers t with ⟨keys, v⟩
    rw [hadd, hids] at hfits hfull
    rw [hadd] at hmet hbuilt
    have hroot := hs.rootMet ht hmet
    by_cases hroom : (met rootAccount root).length ≤ limits.maxNodes
    · obtain ⟨rfl, hmetIds, htruncated⟩ := hfits hroom
      have hdepth : (0 : Int) + 1 < depth + 1 := by
        have := (not_or.mp hstop).1
        omega
      have hlooking : Looking h (met rootAccount root).tail
          (v.addEdges ((signerKeys root.signers).map (signsFor root rootAccount) ++ coSigners rootAccount (signerKeys root.signers))) := by
        refine RootMet.looking ⟨hroot.known, hroot.requests, hroot.cache, hroot.row⟩ hmetIds ?_
        exact congrArg Option.isSome (htruncated.trans (ht.truncatedBy.trans hs.unhit))
      have hsent : v.sent.length = 1 := by
        rw [hmet.sent, ht.sent, hs.sent]
        rfl
      simp only at hbuilt
      rw [show (⟨[rootAccount], []⟩ : Frontier) = ⟨rootAccount :: [], [].map (·, (0 : Int) + 1)⟩ from rfl,
        enqueueAll_level hdepth] at hbuilt
      obtain ⟨hwrong, hknown, hfaithful, hawaited⟩ := signersLoop_judged depth (0 + 1) hlooking hbuilt
      have hstale : StaleSigner h limits rootAccount root depth ↔ Unlike h limits v.sent.length (met rootAccount root).tail := by
        rw [hsent]
        exact ⟨StaleSigner.unlike, fun hunlike => ⟨by omega, hroom, hunlike⟩⟩
      rw [hstale]
      exact ⟨hwrong, hknown, hfaithful, hawaited⟩
    · have hhit : v.exhausted = true := hfull (Nat.lt_of_not_le hroom)
      obtain rfl := signersLoop_exhausted (s := v.addEdges _) hhit hbuilt
      exact ⟨fun hstale => absurd hstale.room hroom, fun _ => hroot.known, fun _ => hroot.faithful,
        fun _ hunhit => absurd hhit (ne_true_of_eq_false hunhit)⟩

end Root

/-- The later builders are not started once a limit is hit; they look accounts up before they add them. -/
theorem buildModes_walk {dto : GraphQueryDto} {s t : Crawl} (hbuilt : buildModes h limits dto s = some (.ok (), t)) :
    ∃ u, (if dto.mode = .signers ∨ dto.mode = .all then buildSignersGraph h limits dto.rootAccount dto.depth s else some s) =
      some u ∧ Walk h limits u t ∧ (u.exhausted = true → t = u) := by
  obtain ⟨u, hu, hrest⟩ := Option.map_eq_some_iff.mp hbuilt
  refine ⟨u, hu, ?_⟩
  by_cases hhit : u.exhausted = true
  · have hnone {p : Prop} : ¬(u.exhausted = false ∧ p) := fun hunhit => ne_true_of_eq_false hunhit.1 hhit
    simp only [if_neg hnone] at hrest
    obtain rfl := (Prod.mk.inj hrest).2
    exact ⟨.refl, fun _ => rfl⟩
  · refine ⟨?_, fun hexhausted => absurd hexhausted hhit⟩
    have hoffers : Walk h limits u (if u.exhausted = false ∧ (dto.mode = .offers ∨ dto.mode = .all) then
        buildOffersGraph h limits dto.rootAccount u else (.ok (), u)).2 := by
      split
      · exact buildOffersGraph_walk dto.rootAccount u
      · exact .refl
    simp only at hrest
    rcases hoffered : (if u.exhausted = false ∧ (dto.mode = .offers ∨ dto.mode = .all) then
        buildOffersGraph h limits dto.rootAccount u else (.ok (), u)) with ⟨message | _, v⟩
    · rw [hoffered] at hrest
      cases (Prod.mk.inj hrest).1
    · rw [hoffered] at hoffers hrest
      simp only at hrest
      split at hrest
      next =>
        obtain rfl := (Prod.mk.inj hrest).2
        exact hoffers.trans (buildPaymentsGraph_walk dto.rootAccount v)
      next =>
        obtain rfl := (Prod.mk.inj hrest).2
        exact hoffers

/-- A signer of the root gets its node before it is looked up, and what is then loaded is not what the node says. -/
def Stale (h : Horizon) (limits : GraphLimits) (dto : GraphQueryDto) : Prop :=
  (dto.mode = .signers ∨ dto.mode = .all) ∧
    ∃ root, h.loadAccount 0 dto.rootAccount = .ok root ∧ StaleSigner h limits dto.rootAccount root dto.depth

theorem stale_iff {dto : GraphQueryDto} {root : AccountSnapshot} (hroot : h.loadAccount 0 dto.rootAccount = .ok root) :
    Stale h limits dto ↔
      (dto.mode = .signers ∨ dto.mode = .all) ∧ StaleSigner h limits dto.rootAccount root dto.depth := by
  refine and_congr_right fun _ => ⟨?_, fun hstale => ⟨root, hroot, hstale⟩⟩
  rintro ⟨other, hother, hstale⟩
  obtain rfl := Except.ok.inj (hroot.symm.trans hother)
  exact hstale

theorem Judged.reflects {unlike : Prop} {u t : Crawl} (hu : Judged h unlike u) (hwalk : Walk h limits u t)
    (hstop : u.exhausted = true → t = u) : Reflects h t.nodes.rows t.sent ↔ ¬unlike := by
  constructor
  · exact fun hreflects hunlike => hu.wrong hunlike (hwalk.extends.reflects hreflects)
  · intro hlike
    cases hhit : u.exhausted with
    | true =>
        rw [hstop hhit]
        exact reflects_of_faithful (hu.known hlike) (hu.faithful hlike)
    | false =>
        have ht := hwalk.settled ⟨hu.known hlike, hu.faithful hlike, hu.awaited hlike hhit⟩
        exact reflects_of_faithful ht.known ht.faithful

/-- The nodes of a graph are what their accounts make of them, unless a signer of the root is looked up that is not blank. -/
theorem reflects_iff {config : Text → Option Setting} {dto : GraphQueryDto} {graph : GraphResult} {sent : List Request}
    (hbuilt : buildGraph h config dto = some (.ok graph, sent)) :
    Reflects h graph.nodes sent ↔ ¬Stale h (Graph.limits config) dto := by
  have hnodes : 0 < (Graph.limits config).maxNodes := positive_pos config _ (by decide)
  have hrequests : 0 < (Graph.limits config).maxHorizonRequests := positive_pos config _ (by decide)
  rcases hload : loadAccount h (Graph.limits config) dto.rootAccount Crawl.start with ⟨_ | root, s⟩
  · simp only [buildGraph, hload] at hbuilt
    cases (Prod.mk.inj (Option.some.inj hbuilt)).1
  · simp only [buildGraph, hload] at hbuilt
    obtain ⟨⟨message | _, t⟩, hmodes, hresult⟩ := Option.map_eq_some_iff.mp hbuilt
    · cases (Prod.mk.inj hresult).1
    · obtain ⟨hgraph, rfl⟩ := Prod.mk.inj hresult
      obtain rfl := Except.ok.inj hgraph
      have hs := started_of_loadAccount hrequests hload
      obtain ⟨u, hsigners, hwalk, hstop⟩ := buildModes_walk hmodes
      rw [stale_iff hs.answer]
      refine Judged.reflects ?_ hwalk hstop
      by_cases hmode : dto.mode = .signers ∨ dto.mode = .all
      · rw [if_pos hmode] at hsigners
        rw [and_iff_right hmode]
        exact buildSignersGraph_judged hs hnodes hsigners
      · rw [if_neg hmode] at hsigners
        obtain rfl := Option.some.inj hsigners
        exact judged_of_settled (fun hstale => hmode hstale.1) hs.settled

/-- A root with one signer, which has two signers itself. -/
def signedByTwo : Horizon where
  loadAccount _ publicKey :=
    .ok ⟨publicKey, if publicKey = text "GROOT" then [⟨text "GKEY", .ofInt 1⟩] else
      [⟨text "GROOT", .ofInt 1⟩, ⟨text "GKEY", .ofInt 1⟩], [], none⟩
  offersOf _ _ := .ok []
  counterOffers _ _ _ := .ok []
  payments _ _ := .ok []
  credit _ _ := .ok .native

def signersOfRoot : GraphQueryDto := ⟨text "GROOT", 1, .signers, none⟩

theorem buildGraph_signedByTwo : ∃ graph sent, buildGraph signedByTwo (fun _ => none) signersOfRoot = some (.ok graph, sent) ∧
    newNode (text "GKEY") none ∈ graph.nodes ∧ sent = [.account (text "GROOT"), .account (text "GKEY")] :=
  ⟨_, _, rfl, .tail _ (.head _), rfl⟩

/-- The node of the signer says that it is a plain account. -/
theorem not_reflects_signedByTwo : ¬∀ (h : Horizon) (config : Text → Option Setting) (dto : GraphQueryDto) (graph : GraphResult)
    (sent : List Request), buildGraph h config dto = some (.ok graph, sent) → Reflects h graph.nodes sent := by
  intro hall
  obtain ⟨graph, sent, hbuilt, hnode, rfl⟩ := buildGraph_signedByTwo
  have htype := (hall _ _ _ _ _ hbuilt _ hnode 1 _ rfl rfl).1
  revert htype
  decide

theorem reflects_iff_signedByTwo : ∃ graph sent, buildGraph signedByTwo (fun _ => none) signersOfRoot = some (.ok graph, sent) ∧
    (Reflects signedByTwo graph.nodes sent ↔ ¬Stale signedByTwo (Graph.limits fun _ => none) signersOfRoot) := by
  obtain ⟨graph, sent, hbuilt, -⟩ := buildGraph_signedByTwo
  exact ⟨graph, sent, hbuilt, reflects_iff hbuilt⟩

end Savitools.Transaction.GraphClasses
