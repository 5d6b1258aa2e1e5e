import Savitools.Transaction.Graph

namespace Savitools.Transaction.GraphBounds

open Strings.CodeUnits Json.Numbers Json.Doubles Stores.Keyed Graph

variable {h : Horizon} {limits : GraphLimits}

/-- Nothing was sent without a request taken, and no more were taken than there are. -/
structure Budgeted (limits : GraphLimits) (s : Crawl) : Prop where
  requests : s.requests ≤ limits.maxHorizonRequests
  sent : s.sent.length ≤ s.requests

/-- The graph is as it was. -/
structure SameGraph (s t : Crawl) : Prop where
  nodes : t.nodes = s.nodes
  edges : t.edges = s.edges

theorem SameGraph.ids {s t : Crawl} (hgraph : SameGraph s t) : t.ids = s.ids :=
  congrArg (fun n => n.rows.map GraphNode.id) hgraph.nodes

theorem SameGraph.trans {s t u : Crawl} (hs : SameGraph s t) (ht : SameGraph t u) : SameGraph s u :=
  ⟨ht.nodes.trans hs.nodes, ht.edges.trans hs.edges⟩

theorem takeRequest_sameGraph (s : Crawl) : SameGraph s (takeRequest limits s).2 := by
  rw [takeRequest]
  split <;> exact ⟨rfl, rfl⟩

theorem hasRoomFor_of_le {s : Crawl} {current extra : Nat} (hle : current + extra ≤ limits.maxNodes) :
    hasRoomFor limits s current extra = (true, s) := if_neg (Nat.not_lt_of_le hle)

/-- A request that has been taken may be sent. -/
structure Granted (limits : GraphLimits) (s : Crawl) : Prop where
  requests : s.requests ≤ limits.maxHorizonRequests
  sent : s.sent.length + 1 ≤ s.requests

theorem Granted.send {s : Crawl} (hs : Granted limits s) (request : Request) : Budgeted limits (s.send request) :=
  ⟨hs.requests, List.length_append.trans_le hs.sent⟩

theorem takeRequest_budgeted {s : Crawl} (hs : Budgeted limits s) : Budgeted limits (takeRequest limits s).2 := by
  rw [takeRequest]
  split
  next => exact ⟨hs.requests, hs.sent⟩
  next hlt => exact ⟨Nat.lt_of_not_le hlt, Nat.le_succ_of_le hs.sent⟩

theorem takeRequest_granted {s : Crawl} (hs : Budgeted limits s) (hgranted : (takeRequest limits s).1 = true) :
    Granted limits (takeRequest limits s).2 := by
  rw [takeRequest] at hgranted ⊢
  split at hgranted
  next => cases hgranted
  next hlt =>
    rw [if_neg hlt]
    exact ⟨Nat.lt_of_not_le hlt, Nat.succ_le_succ hs.sent⟩

theorem loadAccount_sameGraph (publicKey : Text) (s : Crawl) : SameGraph s (loadAccount h limits publicKey s).2 := by
  rw [loadAccount]
  cases s.cache.lookup publicKey with
  | some account => exact ⟨rfl, rfl⟩
  | none =>
      have htake := @takeRequest_sameGraph limits s
      simp only
      split
      · exact ⟨htake.nodes, htake.edges⟩
      · exact ⟨htake.nodes, htake.edges⟩

theorem loadAccount_budgeted {s : Crawl} (hs : Budgeted limits s) (publicKey : Text) :
    Budgeted limits (loadAccount h limits publicKey s).2 := by
  rw [loadAccount]
  cases s.cache.lookup publicKey with
  | some account => exact hs
  | none =>
      simp only
      split
      next hgranted =>
        have hsend := (takeRequest_granted hs hgranted).send (.account publicKey)
        exact ⟨hsend.requests, hsend.sent⟩
      next =>
        have htake := takeRequest_budgeted hs
        exact ⟨htake.requests, htake.sent⟩

/-- A graph whose edges end at nodes or at keys for which there is still room. -/
structure Reserved (limits : GraphLimits) (pending : List Text) (s : Crawl) : Prop where
  budgeted : Budgeted limits s
  room : s.nodes.rows.length + pending.length ≤ limits.maxNodes
  fresh : ∀ key ∈ pending, key ∉ s.ids
  edges : ∀ e ∈ s.edges, (e.source ∈ s.ids ∨ e.source ∈ pending) ∧ (e.target ∈ s.ids ∨ e.target ∈ pending)

theorem Reserved.same {pending : List Text} {s t : Crawl} (hs : Reserved limits pending s) (hgraph : SameGraph s t)
    (ht : Budgeted limits t) : Reserved limits pending t := by
  refine ⟨ht, ?_, ?_, ?_⟩
  · rw [hgraph.nodes]
    exact hs.room
  · rw [hgraph.ids]
    exact hs.fresh
  · rw [hgraph.ids, hgraph.edges]
    exact hs.edges

theorem Reserved.addEdges {pending : List Text} {s : Crawl} (hs : Reserved limits pending s) {edges : List GraphEdge}
    (hedges : ∀ e ∈ edges, (e.source ∈ s.ids ∨ e.source ∈ pending) ∧ (e.target ∈ s.ids ∨ e.target ∈ pending)) :
    Reserved limits pending (s.addEdges edges) :=
  ⟨⟨hs.budgeted.requests, hs.budgeted.sent⟩, hs.room, hs.fresh, List.forall_mem_append.mpr ⟨hs.edges, hedges⟩⟩

/-- A new node at the end. -/
structure Added (node : GraphNode) (s t : Crawl) : Prop where
  rows : t.nodes.rows = s.nodes.rows ++ [node]
  edges : t.edges = s.edges
  requests : t.requests = s.requests
  sent : t.sent = s.sent

theorem Added.ids {node : GraphNode} {s t : Crawl} (hadded : Added node s t) : t.ids = s.ids ++ [node.id] := by
  rw [Crawl.ids, hadded.rows, List.map_append, List.map_singleton, Crawl.ids]

theorem not_mem_ids {s : Crawl} {key : Text} (hget : s.nodes.get? key = none) : key ∉ s.ids := by
  intro hmem
  obtain ⟨node, hnode, hid⟩ := List.mem_map.mp hmem
  rw [KeyedRows.get?_eq_some.mpr ⟨hnode, hid⟩] at hget
  cases hget

/-- A node is there, or there is no room for it, or it is added. -/
theorem buildNode_cases (publicKey : Text) (account : Option AccountSnapshot) (s : Crawl) :
    (publicKey ∈ s.ids ∧ ∃ node, buildNode limits publicKey account s = (some node, s)) ∨
      (publicKey ∉ s.ids ∧ limits.maxNodes < s.nodes.rows.length + 1 ∧
        buildNode limits publicKey account s = (none, s.truncate .nodeLimit)) ∨
      (publicKey ∉ s.ids ∧ s.nodes.rows.length + 1 ≤ limits.maxNodes ∧ ∃ node t,
        buildNode limits publicKey account s = (some node, t) ∧ node.id = publicKey ∧ Added node s t) := by
  rw [buildNode]
  cases hget : s.nodes.get? publicKey with
  | some existing =>
      obtain ⟨hmem, hid⟩ := KeyedRows.get?_eq_some.mp hget
      exact .inl ⟨List.mem_map.mpr ⟨existing, hmem, hid⟩, existing, rfl⟩
  | none =>
      right
      by_cases hfull : limits.maxNodes < s.nodes.rows.length + 1
      · exact .inl ⟨not_mem_ids hget, hfull, by simp only [hasRoomFor, if_pos hfull, Bool.false_eq_true, if_false]⟩
      · refine .inr ⟨not_mem_ids hget, Nat.le_of_not_lt hfull, newNode publicKey account,
          { s with nodes := s.nodes.put (newNode publicKey account) }, ?_, rfl, ?_, rfl, rfl, rfl⟩
        · simp only [hasRoomFor, if_neg hfull, if_true]
        · exact @KeyedRows.put_of_get?_eq_none _ _ _ _ s.nodes (newNode publicKey account) hget

theorem Reserved.added {pending : List Text} {s t : Crawl} {node : GraphNode} (hs : Reserved limits pending s)
    (hadded : Added node s t) (hroom : node.id ∈ pending ∨ s.nodes.rows.length + pending.length < limits.maxNodes) :
    Reserved limits (pending.filter (· ≠ node.id)) t := by
  have hends {key : Text} (hkey : key ∈ s.ids ∨ key ∈ pending) : key ∈ t.ids ∨ key ∈ pending.filter (· ≠ node.id) := by
    rw [hadded.ids, List.mem_append, List.mem_singleton, List.mem_filter, decide_eq_true_eq]
    tauto
  refine ⟨⟨hadded.requests ▸ hs.budgeted.requests, ?_⟩, ?_, fun key hkey => ?_, fun e he => ?_⟩
  · rw [hadded.sent, hadded.requests]
    exact hs.budgeted.sent
  · rw [hadded.rows, List.length_append, List.length_singleton]
    have hroom' := hs.room
    have hle := List.length_filter_le (· ≠ node.id) pending
    rcases hroom with hmem | hroom
    · have hlt : (pending.filter (· ≠ node.id)).length < pending.length :=
        List.length_filter_lt_length_iff_exists.mpr ⟨node.id, hmem, by simp⟩
      omega
    · omega
  · obtain ⟨hkey, hne⟩ := List.mem_filter.mp hkey
    rw [hadded.ids, List.mem_append, List.mem_singleton]
    exact not_or.mpr ⟨hs.fresh key hkey, of_decide_eq_true hne⟩
  · rw [hadded.edges] at he
    exact ⟨hends (hs.edges e he).1, hends (hs.edges e he).2⟩

/-- What adding a node for a key that has one, or room for one, comes to. -/
structure Placed (limits : GraphLimits) (pending : List Text) (key : Text) (s t : Crawl) : Prop where
  reserved : Reserved limits (pending.filter (· ≠ key)) t
  mem : key ∈ t.ids
  grows : s.ids ⊆ t.ids

theorem filter_ne_of_mem_ids {pending : List Text} {s : Crawl} (hs : Reserved limits pending s) {key : Text}
    (hkey : key ∈ s.ids) : pending.filter (· ≠ key) = pending := by
  refine List.filter_eq_self.mpr fun other hother => decide_eq_true fun heq => ?_
  exact hs.fresh other hother (heq ▸ hkey)

theorem buildNode_placed {pending : List Text} {s : Crawl} {publicKey : Text} (hs : Reserved limits pending s)
    (hroom : publicKey ∈ s.ids ∨ publicKey ∈ pending ∨ s.nodes.rows.length + pending.length < limits.maxNodes)
    (account : Option AccountSnapshot) : Placed limits pending publicKey s (buildNode limits publicKey account s).2 := by
  rcases @buildNode_cases limits publicKey account s with
    ⟨hmem, node, hbuild⟩ | ⟨hnew, hfull, -⟩ | ⟨hnew, -, node, t, hbuild, hid, hadded⟩
  · rw [hbuild]
    refine ⟨?_, hmem, List.Subset.refl _⟩
    rw [filter_ne_of_mem_ids hs hmem]
    exact hs
  · rcases hroom with hmem | hmem | hroom
    · exact absurd hmem hnew
    · have hpos := List.length_pos_of_mem hmem
      have := hs.room
      omega
    · omega
  · rw [hbuild]
    subst hid
    exact ⟨hs.added hadded (hroom.resolve_left hnew), hadded.ids ▸ List.mem_append_right _ (List.mem_singleton_self _),
      hadded.ids ▸ List.subset_append_left _ _⟩

theorem addAccount_placed {pending : List Text} {s : Crawl} {publicKey : Text} (hs : Reserved limits pending s)
    (hroom : publicKey ∈ s.ids ∨ publicKey ∈ pending ∨ s.nodes.rows.length + pending.length < limits.maxNodes) :
    Placed limits pending publicKey s (addAccount h limits s publicKey) := by
  have hgraph := @loadAccount_sameGraph h limits publicKey s
  have hload := hs.same hgraph (loadAccount_budgeted hs.budgeted publicKey)
  have hplaced := buildNode_placed hload (hgraph.ids ▸ hgraph.nodes ▸ hroom) (loadAccount h limits publicKey s).1
  exact ⟨hplaced.reserved, hplaced.mem, hgraph.ids ▸ hplaced.grows⟩

/-- When every key has a node or room for one, all of them get nodes. -/
theorem addAccounts_reserved {keys : List Text} : ∀ {pending : List Text} {s : Crawl}, Reserved limits pending s →
    (∀ key ∈ keys, key ∈ s.ids ∨ key ∈ pending) →
      Reserved limits (pending.filter (· ∉ keys)) (keys.foldl (addAccount h limits) s) ∧
        s.ids ⊆ (keys.foldl (addAccount h limits) s).ids := by
  induction keys with
  | nil =>
      intro pending s hs _
      have hall : pending.filter (· ∉ ([] : List Text)) = pending := List.filter_eq_self.mpr fun _ _ => by simp
      rw [hall]
      exact ⟨hs, List.Subset.refl _⟩
  | cons key keys ih =>
      intro pending s hs hkeys
      obtain ⟨hkey, hkeys⟩ := List.forall_mem_cons.mp hkeys
      have hplaced := addAccount_placed (h := h) hs (or_assoc.mp (.inl hkey))
      have hothers : ∀ other ∈ keys, other ∈ (addAccount h limits s key).ids ∨ other ∈ pending.filter (· ≠ key) := by
        intro other hother
        by_cases heq : other = key
        · exact .inl (heq ▸ hplaced.mem)
        · rcases hkeys other hother with hmem | hmem
          · exact .inl (hplaced.grows hmem)
          · exact .inr (List.mem_filter.mpr ⟨hmem, decide_eq_true heq⟩)
      have hfilter : (pending.filter (· ≠ key)).filter (· ∉ keys) = pending.filter (· ∉ key :: keys) := by
        rw [List.filter_filter]
        refine List.filter_congr fun other _ => ?_
        simp only [List.mem_cons, not_or, Bool.decide_and, Bool.and_comm, decide_not]
      obtain ⟨hrest, hgrows⟩ := ih hplaced.reserved hothers
      rw [hfilter] at hrest
      exact ⟨hrest, List.Subset.trans hplaced.grows hgrows⟩

/-- A step that only adds nodes, and leaves no end of an edge without one. -/
structure Grows (limits : GraphLimits) (s t : Crawl) : Prop where
  reserved : Reserved limits [] t
  ids : s.ids ⊆ t.ids

theorem Grows.trans {s t u : Crawl} (hs : Grows limits s t) (ht : Grows limits t u) : Grows limits s u :=
  ⟨ht.reserved, List.Subset.trans hs.ids ht.ids⟩

theorem buildNode_grows {s : Crawl} (hs : Reserved limits [] s) (publicKey : Text) (account : Option AccountSnapshot) :
    Grows limits s (buildNode limits publicKey account s).2 ∧
      ((buildNode limits publicKey account s).1.isSome = true → publicKey ∈ (buildNode limits publicKey account s).2.ids) := by
  rcases @buildNode_cases limits publicKey account s with
    ⟨hmem, node, hbuild⟩ | ⟨-, -, hbuild⟩ | ⟨-, hroom, -⟩
  · rw [hbuild]
    exact ⟨⟨hs, List.Subset.refl _⟩, fun _ => hmem⟩
  · rw [hbuild]
    exact ⟨⟨hs.same ⟨rfl, rfl⟩ ⟨hs.budgeted.requests, hs.budgeted.sent⟩, List.Subset.refl _⟩, nofun⟩
  · have hplaced : Placed limits [] publicKey s (buildNode limits publicKey account s).2 :=
      buildNode_placed hs (.inr (.inr hroom)) account
    exact ⟨⟨hplaced.reserved, hplaced.grows⟩, fun _ => hplaced.mem⟩

theorem buildNode_isSome {s : Crawl} {publicKey : Text} (hroom : publicKey ∈ s.ids ∨ s.nodes.rows.length < limits.maxNodes)
    (account : Option AccountSnapshot) : (buildNode limits publicKey account s).1.isSome = true := by
  rcases @buildNode_cases limits publicKey account s with
    ⟨-, node, hbuild⟩ | ⟨hnew, hfull, -⟩ | ⟨-, -, node, t, hbuild, -⟩
  · rw [hbuild]
    rfl
  · have := hroom.resolve_left hnew
    omega
  · rw [hbuild]
    rfl

theorem addSigners_grows {signers : List HorizonSigner} : ∀ {s : Crawl}, Reserved limits [] s →
    Grows limits s (addSigners limits signers s).2 ∧
      ∀ key ∈ (addSigners limits signers s).1, key ∈ (addSigners limits signers s).2.ids := by
  induction signers with
  | nil => exact fun hs => ⟨⟨hs, List.Subset.refl _⟩, nofun⟩
  | cons signer signers ih =>
      intro s hs
      rw [addSigners]
      split
      next => exact ih hs
      next =>
        obtain ⟨hgrows, hmem⟩ := buildNode_grows hs signer.key none
        rcases hbuild : buildNode limits signer.key none s with ⟨_ | node, t⟩
        · rw [hbuild] at hgrows
          exact ⟨hgrows, nofun⟩
        · rw [hbuild] at hgrows hmem
          obtain ⟨hrest, hkeys⟩ := ih hgrows.reserved
          exact ⟨hgrows.trans hrest, List.forall_mem_cons.mpr ⟨hrest.ids (hmem rfl), hkeys⟩⟩

theorem mem_of_coSigners {publicKey : Text} {keys : List Text} {e : GraphEdge} (he : e ∈ coSigners publicKey keys) :
    e.source ∈ keys ∧ e.target ∈ keys := by
  induction keys with
  | nil => cases he
  | cons key keys ih =>
      rw [coSigners, List.mem_append, List.mem_map] at he
      rcases he with ⟨other, hother, rfl⟩ | he
      · exact ⟨List.mem_cons_self, List.mem_cons_of_mem _ hother⟩
      · exact ⟨List.mem_cons_of_mem _ (ih he).1, List.mem_cons_of_mem _ (ih he).2⟩

/-- What a visit comes to: the account and the signers to be queued have nodes. -/
theorem visitAccount_grows {s : Crawl} (hs : Reserved limits [] s) (depth level : Int) (publicKey : Text) :
    Grows limits s (visitAccount h limits depth level publicKey s).2 ∧
      ∀ keys, (visitAccount h limits depth level publicKey s).1 = some keys →
        ∀ key ∈ publicKey :: keys, key ∈ (visitAccount h limits depth level publicKey s).2.ids := by
  have hgraph := @loadAccount_sameGraph h limits publicKey s
  have hload := hs.same hgraph (loadAccount_budgeted hs.budgeted publicKey)
  rw [visitAccount]
  rcases hloaded : loadAccount h limits publicKey s with ⟨account, s₁⟩
  rw [hloaded] at hgraph hload
  replace hgraph : SameGraph s s₁ := hgraph
  obtain ⟨hbuilt, hmem⟩ := buildNode_grows hload publicKey account
  have hgrows : Grows limits s (buildNode limits publicKey account s₁).2 := ⟨hbuilt.reserved, hgraph.ids ▸ hbuilt.ids⟩
  rcases hbuild : buildNode limits publicKey account s₁ with ⟨_ | node, s₂⟩
  · rw [hbuild] at hgrows
    simp only [hbuild]
    exact ⟨hgrows, nofun⟩
  · rw [hbuild] at hgrows hmem
    replace hgrows : Grows limits s s₂ := hgrows
    replace hmem : publicKey ∈ s₂.ids := hmem rfl
    have hstop : Grows limits s s₂ ∧ ∀ keys, some [] = some keys → ∀ key ∈ publicKey :: keys, key ∈ s₂.ids := by
      refine ⟨hgrows, fun keys hkeys => ?_⟩
      obtain rfl := Option.some.inj hkeys
      exact List.forall_mem_singleton.mpr hmem
    cases account with
    | none =>
        simp only [hbuild]
        exact hstop
    | some account =>
        simp only [hbuild]
        split
        next => exact hstop
        next =>
          obtain ⟨hsigners, hkeys⟩ := @addSigners_grows limits account.signers _ hgrows.reserved
          rcases hadd : addSigners limits account.signers s₂ with ⟨keys, s₃⟩
          rw [hadd] at hsigners hkeys
          have hpublic : publicKey ∈ s₃.ids := hsigners.ids hmem
          refine ⟨⟨hsigners.reserved.addEdges fun e he => ?_, (hgrows.trans hsigners).ids⟩, fun keys' hkeys' => ?_⟩
          · rcases List.mem_append.mp he with he | he
            · obtain ⟨signer, hsigner, rfl⟩ := List.mem_map.mp he
              exact ⟨.inl (hkeys signer hsigner), .inl hpublic⟩
            · obtain ⟨hsource, htarget⟩ := mem_of_coSigners he
              exact ⟨.inl (hkeys _ hsource), .inl (hkeys _ htarget)⟩
          · obtain rfl := Option.some.inj hkeys'
            exact List.forall_mem_cons.mpr ⟨hpublic, hkeys⟩

/-- Keys are queued once each, and all that have been queued have nodes. -/
structure Waiting (s : Crawl) (f : Frontier) : Prop where
  nodup : f.visited.Nodup
  known : ∀ key ∈ f.visited, key ∈ s.ids

theorem Waiting.length_le {s : Crawl} {f : Frontier} (hf : Waiting s f) (hs : Reserved limits [] s) :
    f.visited.length ≤ limits.maxNodes := by
  have hids : s.ids.length = s.nodes.rows.length := List.length_map _
  have hle := (List.subperm_of_subset hf.nodup hf.known).length_le
  have hroom : s.nodes.rows.length + 0 ≤ limits.maxNodes := hs.room
  omega

theorem enqueue_waiting {s : Crawl} {f : Frontier} (hf : Waiting s f) (depth level : Int) {signer : Text}
    (hsigner : signer ∈ s.ids) :
    Waiting s (enqueue depth level f signer) ∧ (enqueue depth level f signer).queue.length + f.visited.length =
      f.queue.length + (enqueue depth level f signer).visited.length := by
  rw [enqueue]
  split
  next hnew =>
    refine ⟨⟨?_, List.forall_mem_append.mpr ⟨hf.known, List.forall_mem_singleton.mpr hsigner⟩⟩, ?_⟩
    · exact List.nodup_append.mpr ⟨hf.nodup, List.nodup_singleton _,
        fun a ha b hb hab => hnew.1 (List.mem_singleton.mp hb ▸ hab ▸ ha)⟩
    · simp only [List.length_append, List.length_singleton]
      omega
  next => exact ⟨hf, rfl⟩

theorem enqueueAll_waiting {s : Crawl} (depth level : Int) {keys : List Text} (hkeys : ∀ key ∈ keys, key ∈ s.ids) :
    ∀ {f : Frontier}, Waiting s f →
      Waiting s (keys.foldl (enqueue depth level) f) ∧
        (keys.foldl (enqueue depth level) f).queue.length + f.visited.length =
          f.queue.length + (keys.foldl (enqueue depth level) f).visited.length := by
  induction keys with
  | nil => exact fun hf => ⟨hf, rfl⟩
  | cons key keys ih =>
      intro f hf
      obtain ⟨hkey, hkeys⟩ := List.forall_mem_cons.mp hkeys
      obtain ⟨hone, hlength⟩ := enqueue_waiting hf depth level hkey
      obtain ⟨hall, hlengths⟩ := ih hkeys hone
      refine ⟨hall, ?_⟩
      rw [List.foldl_cons]
      omega

/-- The loop ends: each key is queued once, and there are no more than nodes. -/
theorem signersLoop_grows (depth : Int) : ∀ (fuel : Nat) (f : Frontier) (s : Crawl), Reserved limits [] s → Waiting s f →
    f.queue.length + limits.maxNodes + 1 ≤ fuel + f.visited.length →
      ∃ t, signersLoop h limits depth fuel f s = some t ∧ Grows limits s t := by
  intro fuel
  induction fuel with
  | zero =>
      intro f s hs hf hfuel
      have := hf.length_le hs
      omega
  | succ fuel ih =>
      rintro ⟨visited, queue⟩ s hs hf hfuel
      cases queue with
      | nil => exact ⟨s, rfl, hs, List.Subset.refl _⟩
      | cons head queue =>
          obtain ⟨publicKey, level⟩ := head
          rw [signersLoop]
          split
          next => exact ⟨s, rfl, hs, List.Subset.refl _⟩
          next =>
            obtain ⟨hgrows, hkeys⟩ := visitAccount_grows (h := h) hs depth level publicKey
            rcases hvisit : visitAccount h limits depth level publicKey s with ⟨_ | keys, t⟩
            · rw [hvisit] at hgrows
              exact ⟨t, rfl, hgrows⟩
            · rw [hvisit] at hgrows hkeys
              replace hgrows : Grows limits s t := hgrows
              have hkeys : ∀ key ∈ keys, key ∈ t.ids := (List.forall_mem_cons.mp (hkeys keys rfl)).2
              have hrest : Waiting t ⟨visited, queue⟩ := ⟨hf.nodup, fun key hkey => hgrows.ids (hf.known key hkey)⟩
              obtain ⟨hall, hlengths⟩ := enqueueAll_waiting depth level hkeys hrest
              obtain ⟨u, hloop, hu⟩ := ih _ t hgrows.reserved hall (by simp only [List.length_cons] at hfuel hlengths; omega)
              exact ⟨u, hloop, hgrows.trans hu⟩

/-- Before the first builder: no nodes, no edges and no limit hit. -/
structure Fresh (limits : GraphLimits) (s : Crawl) : Prop where
  budgeted : Budgeted limits s
  nodes : s.nodes.rows = []
  edges : s.edges = []
  unhit : s.exhausted = false

theorem Fresh.reserved {s : Crawl} (hs : Fresh limits s) : Reserved limits [] s := by
  refine ⟨hs.budgeted, ?_, nofun, ?_⟩
  · rw [hs.nodes]
    exact Nat.zero_le _
  · rw [hs.edges]
    exact nofun

/-- The root gets a node first. -/
theorem buildSignersGraph_grows {s : Crawl} (hs : Fresh limits s) (hpos : 0 < limits.maxNodes) (rootAccount : Text)
    (depth : Int) :
    ∃ t, buildSignersGraph h limits rootAccount depth s = some t ∧ Reserved limits [] t ∧ rootAccount ∈ t.ids := by
  obtain ⟨hgrows, hkeys⟩ := visitAccount_grows (h := h) hs.reserved depth 0 rootAccount
  have hgraph := @loadAccount_sameGraph h limits rootAccount s
  have hsome : (visitAccount h limits depth 0 rootAccount s).1.isSome = true := by
    rw [visitAccount]
    rcases hloaded : loadAccount h limits rootAccount s with ⟨account, s₁⟩
    rw [hloaded] at hgraph
    have hroom : s₁.nodes.rows.length < limits.maxNodes := by
      rw [show s₁.nodes = s.nodes from hgraph.nodes, hs.nodes]
      exact hpos
    have hbuild := @buildNode_isSome limits _ rootAccount (.inr hroom) account
    rcases hbuilt : buildNode limits rootAccount account s₁ with ⟨_ | node, s₂⟩
    · rw [hbuilt] at hbuild
      cases hbuild
    · simp only [hbuilt]
      cases account with
      | none => rfl
      | some account =>
          simp only
          split <;> rfl
  rw [buildSignersGraph, signersLoop, hs.unhit, if_neg Bool.false_ne_true]
  rcases hvisit : visitAccount h limits depth 0 rootAccount s with ⟨_ | keys, t⟩
  · rw [hvisit] at hsome
    cases hsome
  · rw [hvisit] at hgrows hkeys
    replace hgrows : Grows limits s t := hgrows
    obtain ⟨hroot, hkeys⟩ := List.forall_mem_cons.mp (hkeys keys rfl)
    have hone : Waiting t ⟨[rootAccount], []⟩ := ⟨List.nodup_singleton _, List.forall_mem_singleton.mpr hroot⟩
    obtain ⟨hall, hlengths⟩ := enqueueAll_waiting depth 0 hkeys hone
    obtain ⟨u, hloop, hu⟩ := signersLoop_grows (h := h) depth limits.maxNodes _ t hgrows.reserved hall
      (by simp only [List.length_singleton, List.length_nil] at hlengths; omega)
    exact ⟨u, hloop, hu.reserved, hu.ids hroot⟩

theorem mem_addOnce {keys : List Text} {key other : Text} : other ∈ addOnce keys key ↔ other ∈ keys ∨ other = key := by
  rw [addOnce]
  split
  next hmem => exact ⟨.inl, fun hother => hother.elim id fun heq => heq ▸ hmem⟩
  next => rw [List.mem_append, List.mem_singleton]

/-- Room is kept for more keys. -/
theorem Reserved.reserve {pending more : List Text} {s : Crawl} (hs : Reserved limits pending s)
    (hroom : s.nodes.rows.length + pending.length + more.length ≤ limits.maxNodes) (hmore : ∀ key ∈ more, key ∉ s.ids) :
    Reserved limits (pending ++ more) s := by
  refine ⟨hs.budgeted, ?_, List.forall_mem_append.mpr ⟨hs.fresh, hmore⟩, fun e he => ⟨?_, ?_⟩⟩
  · rw [List.length_append, ← Nat.add_assoc]
    exact hroom
  · exact (hs.edges e he).1.imp_right (List.mem_append_left more)
  · exact (hs.edges e he).2.imp_right (List.mem_append_left more)

/-- The keys that are to get nodes are those with a node and those for which room is kept. -/
structure Awaiting (limits : GraphLimits) (rootAccount : Text) (pending keys : List Text) (s : Crawl) : Prop where
  reserved : Reserved limits pending s
  listed : pending ⊆ keys
  known : ∀ key ∈ keys, key ∈ s.ids ∨ key ∈ pending
  root : rootAccount ∈ s.ids

theorem Awaiting.same {rootAccount : Text} {pending keys : List Text} {s t : Crawl}
    (hs : Awaiting limits rootAccount pending keys s) (hgraph : SameGraph s t) (ht : Budgeted limits t) :
    Awaiting limits rootAccount pending keys t :=
  ⟨hs.reserved.same hgraph ht, hs.listed, hgraph.ids ▸ hs.known, hgraph.ids ▸ hs.root⟩

/-- A graph without room kept, and with a node for the root. -/
structure Rooted (limits : GraphLimits) (rootAccount : Text) (s : Crawl) : Prop where
  reserved : Reserved limits [] s
  root : rootAccount ∈ s.ids

theorem Rooted.awaiting {rootAccount : Text} {s : Crawl} (hs : Rooted limits rootAccount s) :
    Awaiting limits rootAccount [] [] s :=
  ⟨hs.reserved, List.Subset.refl _, nofun, hs.root⟩

theorem Awaiting.placeAll {rootAccount : Text} {pending keys : List Text} {s : Crawl}
    (hs : Awaiting limits rootAccount pending keys s) : Rooted limits rootAccount (keys.foldl (addAccount h limits) s) := by
  obtain ⟨hplaced, hgrows⟩ := addAccounts_reserved (h := h) hs.reserved hs.known
  have hnone : pending.filter (· ∉ keys) = [] := List.filter_eq_nil_iff.mpr fun key hkey => by simp [hs.listed hkey]
  rw [hnone] at hplaced
  exact ⟨hplaced, hgrows hs.root⟩

theorem addMatch_awaiting {rootAccount : Text} {offer counter : PendingOffer} {m : Matches} {s : Crawl}
    (hs : Reserved limits m.pendingNew s) (hroot : rootAccount ∈ s.ids)
    (hlisted : ∀ key ∈ m.pendingNew, key ∈ m.matchedSellers ∨ key = counter.seller)
    (hknown : ∀ key ∈ m.matchedSellers, key ∈ s.ids ∨ key ∈ m.pendingNew)
    (hseller : counter.seller ∈ s.ids ∨ counter.seller ∈ m.pendingNew) :
    Awaiting limits rootAccount (addMatch rootAccount offer counter m s).1.pendingNew
      (addMatch rootAccount offer counter m s).1.matchedSellers (addMatch rootAccount offer counter m s).2 := by
  have hedge : ∀ e ∈ [offerMatch rootAccount offer counter],
      (e.source ∈ s.ids ∨ e.source ∈ m.pendingNew) ∧ (e.target ∈ s.ids ∨ e.target ∈ m.pendingNew) :=
    List.forall_mem_singleton.mpr ⟨hseller, .inl hroot⟩
  have hkeys : ∀ key ∈ addOnce m.matchedSellers counter.seller, key ∈ s.ids ∨ key ∈ m.pendingNew := by
    intro key hkey
    rcases mem_addOnce.mp hkey with hkey | rfl
    · exact hknown key hkey
    · exact hseller
  rw [addMatch]
  split
  · exact ⟨hs, fun key hkey => mem_addOnce.mpr (hlisted key hkey), hkeys, hroot⟩
  · exact ⟨hs.addEdges hedge, fun key hkey => mem_addOnce.mpr (hlisted key hkey), hkeys, hroot⟩

theorem addCounters_awaiting {rootAccount : Text} {offer : PendingOffer} {counters : List PendingOffer} :
    ∀ {m : Matches} {s : Crawl}, Awaiting limits rootAccount m.pendingNew m.matchedSellers s →
      Awaiting limits rootAccount (addCounters limits rootAccount offer counters m s).2.1.pendingNew
        (addCounters limits rootAccount offer counters m s).2.1.matchedSellers
        (addCounters limits rootAccount offer counters m s).2.2 := by
  induction counters with
  | nil => exact fun hs => hs
  | cons counter counters ih =>
      intro m s hs
      rw [addCounters]
      split
      next => exact ih hs
      next =>
        split
        next hseller =>
          exact ih (addMatch_awaiting hs.reserved hs.root (fun key hkey => .inl (hs.listed hkey)) hs.known hseller)
        next hseller =>
          obtain ⟨hnew, -⟩ := not_or.mp hseller
          by_cases hroom : s.nodes.rows.length + m.pendingNew.length + 1 ≤ limits.maxNodes
          · simp only [hasRoomFor_of_le hroom, if_true]
            refine ih (@addMatch_awaiting limits rootAccount offer counter
              { m with pendingNew := m.pendingNew ++ [counter.seller] } s ?_ hs.root (fun key hkey => ?_) (fun key hkey => ?_) ?_)
            · exact hs.reserved.reserve hroom (List.forall_mem_singleton.mpr hnew)
            · exact (List.mem_append.mp hkey).imp (fun hold => hs.listed hold) List.mem_singleton.mp
            · exact (hs.known key hkey).imp_right (List.mem_append_left _)
            · exact .inr (List.mem_append_right _ (List.mem_singleton_self _))
          · have hfull : hasRoomFor limits s (s.nodes.rows.length + m.pendingNew.length) 1 = (false, s.truncate .nodeLimit) :=
              if_pos (Nat.lt_of_not_le hroom)
            simp only [hfull, Bool.false_eq_true, if_false]
            exact hs.same ⟨rfl, rfl⟩ ⟨hs.reserved.budgeted.requests, hs.reserved.budgeted.sent⟩

/-- The loop over the offers stays within the budget, whether or not the SDK refuses an asset. -/
theorem matchOffers_awaiting {rootAccount : Text} {offers : List PendingOffer} :
    ∀ {m : Matches} {s : Crawl}, Awaiting limits rootAccount m.pendingNew m.matchedSellers s →
      Budgeted limits (matchOffers h limits rootAccount offers m s).2 ∧
        ∀ m', (matchOffers h limits rootAccount offers m s).1 = .ok m' →
          Awaiting limits rootAccount m'.pendingNew m'.matchedSellers (matchOffers h limits rootAccount offers m s).2 := by
  induction offers with
  | nil =>
      intro m s hs
      refine ⟨hs.reserved.budgeted, fun m' hm => ?_⟩
      obtain rfl := Except.ok.inj hm
      exact hs
  | cons offer offers ih =>
      intro m s hs
      have hgraph := @takeRequest_sameGraph limits s
      have hbudget := takeRequest_budgeted hs.reserved.budgeted
      have hgranted := takeRequest_granted hs.reserved.budgeted
      rw [matchOffers]
      rcases htake : takeRequest limits s with ⟨_ | _, t⟩
      · rw [htake] at hgraph hbudget
        refine ⟨hbudget, fun m' hm => ?_⟩
        obtain rfl := Except.ok.inj hm
        exact hs.same hgraph hbudget
      · rw [htake] at hgraph hbudget hgranted
        replace hgraph : SameGraph s t := hgraph
        replace hgranted : Granted limits t := hgranted rfl
        have hfail (message : Text) : Budgeted limits ((.error message, t) : Except Text Matches × Crawl).2 ∧
            ∀ m', ((.error message, t) : Except Text Matches × Crawl).1 = .ok m' →
              Awaiting limits rootAccount m'.pendingNew m'.matchedSellers t := ⟨hbudget, nofun⟩
        simp only
        cases hselling : sdkAsset h offer.selling with
        | error message => exact hfail message
        | ok selling =>
            cases hbuying : sdkAsset h offer.buying with
            | error message => exact hfail message
            | ok buying =>
                simp only
                have hsent : Awaiting limits rootAccount m.pendingNew m.matchedSellers
                    (t.send (.counterOffers buying selling)) := hs.same (hgraph.trans ⟨rfl, rfl⟩) (hgranted.send _)
                cases h.counterOffers t.sent.length buying selling with
                | error message => exact ih hsent
                | ok counters =>
                    have hcounters := @addCounters_awaiting limits _ offer counters _ _ hsent
                    simp only
                    rcases hadd : addCounters limits rootAccount offer counters m (t.send (.counterOffers buying selling)) with
                      ⟨_ | _, m₁, u⟩
                    · rw [hadd] at hcounters
                      refine ⟨hcounters.reserved.budgeted, fun m' hm => ?_⟩
                      obtain rfl := Except.ok.inj hm
                      exact hcounters
                    · rw [hadd] at hcounters
                      exact ih hcounters

theorem fetchOffers_sameGraph (rootAccount : Text) (s : Crawl) : SameGraph s (fetchOffers h limits rootAccount s).2 := by
  have hgraph := @takeRequest_sameGraph limits s
  simp only [fetchOffers]
  split
  · exact hgraph.trans ⟨rfl, rfl⟩
  · exact hgraph

theorem fetchOffers_budgeted {s : Crawl} (hs : Budgeted limits s) (rootAccount : Text) :
    Budgeted limits (fetchOffers h limits rootAccount s).2 := by
  simp only [fetchOffers]
  split
  next hgranted => exact (takeRequest_granted hs hgranted).send _
  next => exact takeRequest_budgeted hs

/-- The root has a node, or there is room for it. -/
structure RootRoom (limits : GraphLimits) (rootAccount : Text) (s : Crawl) : Prop where
  reserved : Reserved limits [] s
  root : rootAccount ∈ s.ids ∨ s.nodes.rows.length < limits.maxNodes

theorem Rooted.room {rootAccount : Text} {s : Crawl} (hs : Rooted limits rootAccount s) : RootRoom limits rootAccount s :=
  ⟨hs.reserved, .inl hs.root⟩

theorem RootRoom.same {rootAccount : Text} {s t : Crawl} (hs : RootRoom limits rootAccount s) (hgraph : SameGraph s t)
    (ht : Budgeted limits t) : RootRoom limits rootAccount t :=
  ⟨hs.reserved.same hgraph ht, hgraph.ids ▸ hgraph.nodes ▸ hs.root⟩

theorem addAccount_root {s : Crawl} {rootAccount : Text} (hs : RootRoom limits rootAccount s) :
    Rooted limits rootAccount (addAccount h limits s rootAccount) := by
  have hplaced := addAccount_placed (h := h) hs.reserved (hs.root.imp_right .inr)
  exact ⟨hplaced.reserved, hplaced.mem⟩

theorem buildOffersGraph_rooted {s : Crawl} {rootAccount : Text} (hs : RootRoom limits rootAccount s) :
    Budgeted limits (buildOffersGraph h limits rootAccount s).2 ∧
      ((buildOffersGraph h limits rootAccount s).1 = .ok () →
        Rooted limits rootAccount (buildOffersGraph h limits rootAccount s).2) := by
  have hfetch := hs.same (fetchOffers_sameGraph (h := h) rootAccount s) (fetchOffers_budgeted hs.reserved.budgeted rootAccount)
  have hroot := addAccount_root (h := h) hfetch
  simp only [buildOffersGraph]
  generalize addAccount h limits (fetchOffers h limits rootAccount s).2 rootAccount = t at hroot
  generalize (fetchOffers h limits rootAccount s).1 = offers
  split
  next => exact ⟨hroot.reserved.budgeted, fun _ => hroot⟩
  next =>
    obtain ⟨hbudget, hmatched⟩ := @matchOffers_awaiting h limits rootAccount offers ⟨[], []⟩ t hroot.awaiting
    rcases hmatch : matchOffers h limits rootAccount offers ⟨[], []⟩ t with ⟨_ | m, u⟩
    · rw [hmatch] at hbudget
      exact ⟨hbudget, nofun⟩
    · rw [hmatch] at hmatched
      have hall : Rooted limits rootAccount (m.matchedSellers.foldl (addAccount h limits) u) := (hmatched m rfl).placeAll
      exact ⟨hall.reserved.budgeted, fun _ => hall⟩

theorem addPayments_awaiting {rootAccount : Text} {ops : List PaymentOperation} : ∀ {p : Endpoints} {s : Crawl},
    Awaiting limits rootAccount p.pendingNew p.connected s →
      Awaiting limits rootAccount (addPayments limits ops p s).1.pendingNew (addPayments limits ops p s).1.connected
        (addPayments limits ops p s).2 := by
  induction ops with
  | nil => exact fun hs => hs
  | cons op ops ih =>
      intro p s hs
      rw [addPayments]
      cases nonEmpty op.source with
      | none => exact ih hs
      | some source =>
          cases nonEmpty op.destination with
          | none => exact ih hs
          | some target =>
              simp only
              generalize hfresh : (addOnce [source] target).filter (fun key => key ∉ s.ids ∧ key ∉ p.pendingNew) = fresh
              have hmem {key : Text} : key ∈ fresh ↔ (key = source ∨ key = target) ∧ key ∉ s.ids ∧ key ∉ p.pendingNew := by
                rw [← hfresh, List.mem_filter, mem_addOnce, List.mem_singleton, decide_eq_true_eq]
              by_cases hroom : s.nodes.rows.length + p.pendingNew.length + fresh.length ≤ limits.maxNodes
              · have hends {key : Text} (hkey : key = source ∨ key = target) : key ∈ s.ids ∨ key ∈ p.pendingNew ++ fresh := by
                  rw [List.mem_append, hmem]
                  tauto
                have hedge : ∀ e ∈ [paymentEdge op source target],
                    (e.source ∈ s.ids ∨ e.source ∈ p.pendingNew ++ fresh) ∧
                      (e.target ∈ s.ids ∨ e.target ∈ p.pendingNew ++ fresh) :=
                  List.forall_mem_singleton.mpr ⟨hends (.inl rfl), hends (.inr rfl)⟩
                have hconnected {key : Text} : key ∈ addOnce (addOnce p.connected source) target ↔
                    key ∈ p.connected ∨ key = source ∨ key = target := by
                  rw [mem_addOnce, mem_addOnce, or_assoc]
                simp only [hasRoomFor_of_le hroom]
                refine ih ⟨(hs.reserved.reserve hroom fun key hkey => (hmem.mp hkey).2.1).addEdges hedge,
                  fun key hkey => hconnected.mpr ?_, fun key hkey => ?_, hs.root⟩
                · rcases List.mem_append.mp hkey with hkey | hkey
                  · exact .inl (hs.listed hkey)
                  · exact .inr (hmem.mp hkey).1
                · rcases hconnected.mp hkey with hkey | hkey
                  · exact (hs.known key hkey).imp_right (List.mem_append_left _)
                  · exact hends hkey
              · have hfull : hasRoomFor limits s (s.nodes.rows.length + p.pendingNew.length) fresh.length =
                    (false, s.truncate .nodeLimit) := if_pos (Nat.lt_of_not_le hroom)
                simp only [hfull]
                exact hs.same ⟨rfl, rfl⟩ ⟨hs.reserved.budgeted.requests, hs.reserved.budgeted.sent⟩

theorem buildPaymentsGraph_rooted {s : Crawl} {rootAccount : Text} (hs : RootRoom limits rootAccount s) :
    Rooted limits rootAccount (buildPaymentsGraph h limits rootAccount s) := by
  have hgraph := @takeRequest_sameGraph limits s
  have hbudget := takeRequest_budgeted hs.reserved.budgeted
  have hgranted := takeRequest_granted hs.reserved.budgeted
  rw [buildPaymentsGraph]
  rcases htake : takeRequest limits s with ⟨_ | _, t⟩
  · rw [htake] at hgraph hbudget
    exact addAccount_root (hs.same hgraph hbudget)
  · rw [htake] at hgraph hgranted
    replace hgraph : SameGraph s t := hgraph
    replace hgranted : Granted limits t := hgranted rfl
    have hsent : RootRoom limits rootAccount (t.send (.payments rootAccount)) :=
      hs.same (hgraph.trans ⟨rfl, rfl⟩) (hgranted.send _)
    have hroot := addAccount_root (h := h) hsent
    simp only
    cases h.payments t.sent.length rootAccount with
    | error message => exact hroot
    | ok records => exact (@addPayments_awaiting limits rootAccount _ ⟨[], []⟩ _ hroot.awaiting).placeAll

/-- The limits are above zero. -/
theorem positiveInteger_pos {x : Double} {n : Nat} (hn : positiveInteger x = some n) : 0 < n := by
  match x with
  | none => cases hn
  | some (.infinite negative) => cases hn
  | some (.finite q) =>
      obtain ⟨⟨-, hpos⟩, hq⟩ := Option.ite_none_right_eq_some.mp hn
      have hq := Option.some.inj hq
      omega

theorem positive_pos (config : Text → Option Setting) (key : Text) {fallback : Nat} (hfallback : 0 < fallback) :
    0 < positive config key fallback := by
  rw [positive]
  cases hn : positiveInteger (settingNumber (config key)) with
  | none => exact hfallback
  | some n => exact positiveInteger_pos hn

theorem start_fresh (limits : GraphLimits) : Fresh limits Crawl.start := ⟨⟨Nat.zero_le _, Nat.le_refl _⟩, rfl, rfl, rfl⟩

/-- The root is looked up within the budget. -/
theorem loadAccount_start (hpos : 0 < limits.maxHorizonRequests) (rootAccount : Text) :
    Fresh limits (loadAccount h limits rootAccount Crawl.start).2 := by
  have hbudget := loadAccount_budgeted (h := h) (start_fresh limits).budgeted rootAccount
  have hgraph := @loadAccount_sameGraph h limits rootAccount Crawl.start
  have hunhit : (loadAccount h limits rootAccount Crawl.start).2.exhausted = false := by
    have htake : takeRequest limits Crawl.start = (true, { Crawl.start with requests := 1 }) := if_neg (Nat.not_le_of_lt hpos)
    have hlookup : Crawl.start.cache.lookup rootAccount = none := rfl
    simp only [loadAccount, hlookup, htake, if_true]
    rfl
  exact ⟨hbudget, congrArg KeyedRows.rows hgraph.nodes, hgraph.edges, hunhit⟩

theorem Fresh.room {s : Crawl} (hs : Fresh limits s) (hpos : 0 < limits.maxNodes) (rootAccount : Text) :
    RootRoom limits rootAccount s := by
  refine ⟨hs.reserved, .inr ?_⟩
  rw [hs.nodes]
  exact hpos

theorem buildModes_reserved {s : Crawl} (hs : Fresh limits s) (hpos : 0 < limits.maxNodes) (dto : GraphQueryDto) :
    ∃ outcome t, buildModes h limits dto s = some (outcome, t) ∧ Budgeted limits t ∧
      (outcome = .ok () → Reserved limits [] t) := by
  have hsigners : ∃ t, (if dto.mode = .signers ∨ dto.mode = .all then
      buildSignersGraph h limits dto.rootAccount dto.depth s else some s) = some t ∧ RootRoom limits dto.rootAccount t := by
    split
    next =>
      obtain ⟨t, ht, hreserved, hroot⟩ := buildSignersGraph_grows (h := h) hs hpos dto.rootAccount dto.depth
      exact ⟨t, ht, hreserved, .inl hroot⟩
    next => exact ⟨s, rfl, hs.room hpos dto.rootAccount⟩
  obtain ⟨t, ht, hroom⟩ := hsigners
  have hoffers : ∃ outcome u, (if t.exhausted = false ∧ (dto.mode = .offers ∨ dto.mode = .all) then
      buildOffersGraph h limits dto.rootAccount t else (.ok (), t)) = (outcome, u) ∧ Budgeted limits u ∧
        (outcome = .ok () → RootRoom limits dto.rootAccount u) := by
    split
    next =>
      obtain ⟨hbudget, hrooted⟩ := buildOffersGraph_rooted (h := h) hroom
      exact ⟨_, _, rfl, hbudget, fun hok => (hrooted hok).room⟩
    next => exact ⟨_, _, rfl, hroom.reserved.budgeted, fun _ => hroom⟩
  obtain ⟨outcome, u, hu, hbudget, hroom⟩ := hoffers
  simp only [buildModes, ht, Option.map_some, hu]
  cases outcome with
  | error message => exact ⟨_, u, rfl, hbudget, nofun⟩
  | ok _ =>
      have hroom := hroom rfl
      simp only
      split
      next =>
        have hrooted := buildPaymentsGraph_rooted (h := h) hroom
        exact ⟨_, _, rfl, hrooted.reserved.budgeted, fun _ => hrooted.reserved⟩
      next => exact ⟨_, u, rfl, hbudget, fun _ => hroom.reserved⟩

/-- A graph of bounded size whose nodes have distinct ids and whose edges end at nodes. -/
structure WellFormed (maxNodes : Nat) (graph : GraphResult) : Prop where
  size : graph.nodes.length ≤ maxNodes
  distinct : (graph.nodes.map GraphNode.id).Nodup
  ends : ∀ e ∈ graph.edges, e.source ∈ graph.nodes.map GraphNode.id ∧ e.target ∈ graph.nodes.map GraphNode.id

/-- Building a graph ends, within the budget, and what is returned is well formed. -/
theorem buildGraph_bounded (h : Horizon) (config : Text → Option Setting) (dto : GraphQueryDto) :
    ∃ outcome sent, buildGraph h config dto = some (outcome, sent) ∧
      sent.length ≤ (Graph.limits config).maxHorizonRequests ∧
      ∀ graph, outcome = .ok graph → graph.limits = Graph.limits config ∧
        WellFormed (Graph.limits config).maxNodes graph := by
  have hnodes : 0 < (Graph.limits config).maxNodes := positive_pos config _ (by decide)
  have hrequests : 0 < (Graph.limits config).maxHorizonRequests := positive_pos config _ (by decide)
  have hfresh := loadAccount_start (h := h) hrequests dto.rootAccount
  rcases hload : loadAccount h (Graph.limits config) dto.rootAccount Crawl.start with ⟨_ | account, s⟩
  · rw [hload] at hfresh
    simp only [buildGraph, hload]
    exact ⟨_, _, rfl, Nat.le_trans hfresh.budgeted.sent hfresh.budgeted.requests, nofun⟩
  · rw [hload] at hfresh
    obtain ⟨outcome, t, hmodes, hbudget, hreserved⟩ := buildModes_reserved (h := h) hfresh hnodes dto
    have hsent := Nat.le_trans hbudget.sent hbudget.requests
    simp only [buildGraph, hload, hmodes, Option.map_some]
    cases outcome with
    | error message => exact ⟨_, _, rfl, hsent, nofun⟩
    | ok _ =>
        refine ⟨_, _, rfl, hsent, fun graph hgraph => ?_⟩
        obtain rfl := Except.ok.inj hgraph
        have hreserved := hreserved rfl
        refine ⟨rfl, hreserved.room, t.nodes.nodup, fun e he => ?_⟩
        exact ⟨(hreserved.edges e he).1.resolve_right nofun, (hreserved.edges e he).2.resolve_right nofun⟩

end Savitools.Transaction.GraphBounds
