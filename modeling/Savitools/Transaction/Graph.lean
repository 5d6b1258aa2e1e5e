import Savitools.Json.Doubles
import Savitools.Stores.Keyed

namespace Savitools.Transaction.Graph

open Strings.CodeUnits Json.Numbers Json.Conversions Json.Doubles Stores.Keyed

inductive GraphMode
  | signers
  | offers
  | payments
  | all
deriving DecidableEq

inductive Network
  | mainnet
  | testnet
deriving DecidableEq

def Network.name : Network → Text
  | .mainnet => text "mainnet"
  | .testnet => text "testnet"

structure GraphQueryDto where
  rootAccount : Text
  depth : Int
  mode : GraphMode
  network : Option Network

inductive GraphNodeType
  | account
  | multisig
  | anchor
  | contract
deriving DecidableEq

structure NodeMetadata where
  publicKey : Text
  type : GraphNodeType
  signerCount : Nat
  balanceCount : Nat
deriving DecidableEq

structure GraphNode where
  id : Text
  label : Text
  type : GraphNodeType
  metadata : NodeMetadata
deriving DecidableEq

inductive GraphRelationship
  | signsFor
  | coSigner
  | offerMatch
  | payment
deriving DecidableEq

inductive EdgeMetadata
  | weight (weight : Number)
  | ofAccount (publicKey : Text)
  | offer (sellingAsset buyingAsset price : Text)
  | payment (amount : Text) (asset : Option Text) (transactionHash : Text)
deriving DecidableEq

structure GraphEdge where
  source : Text
  target : Text
  relationship : GraphRelationship
  metadata : EdgeMetadata
deriving DecidableEq

def graphMaxDepth : Nat := 3

def defaultGraphMaxNodes : Nat := 150

def defaultGraphMaxHorizonRequests : Nat := 60

inductive GraphTruncation
  | nodeLimit
  | horizonRequestLimit
deriving DecidableEq

structure GraphLimits where
  maxDepth : Nat
  maxNodes : Nat
  maxHorizonRequests : Nat
deriving DecidableEq

structure GraphResult where
  nodes : List GraphNode
  edges : List GraphEdge
  rootAccount : Text
  depth : Int
  mode : GraphMode
  nodeCount : Nat
  edgeCount : Nat
  truncated : Bool
  truncatedBy : Option GraphTruncation
  horizonRequests : Nat
  limits : GraphLimits

inductive GraphError
  | notFound (message : Text)
  | badRequest (message : Text)
deriving DecidableEq

structure HorizonSigner where
  key : Text
  weight : Number

structure BalanceLine where
  assetCode : Option Text

structure AccountSnapshot where
  publicKey : Text
  signers : List HorizonSigner
  balances : List BalanceLine
  medThreshold : Option Number

structure OfferAsset where
  type : Text
  code : Option Text
  issuer : Option Text

structure PendingOffer where
  id : Text
  seller : Text
  selling : OfferAsset
  buying : OfferAsset
  price : Text

structure PaymentOperation where
  type : Text
  source : Option Text
  destination : Option Text
  amount : Text
  assetType : Text
  assetCode : Option Text
  transactionHash : Text

inductive Asset
  | native
  | credit (code : Text) (issuer : Option Text)

/-- The requests that are sent to Horizon. -/
inductive Request
  | account (publicKey : Text)
  | offersOf (publicKey : Text)
  | counterOffers (selling buying : Asset)
  | payments (publicKey : Text)

/-- What Horizon answers, each time anew, after so many requests; of an error, the message.
`credit` is the constructor of an asset in the SDK. -/
structure Horizon where
  loadAccount : Nat → Text → Except Text AccountSnapshot
  offersOf : Nat → Text → Except Text (List PendingOffer)
  counterOffers : Nat → Asset → Asset → Except Text (List PendingOffer)
  payments : Nat → Text → Except Text (List PaymentOperation)
  credit : Text → Option Text → Except Text Asset

/-- A configured value is a text or already a number. -/
inductive Setting
  | text (t : Text)
  | number (x : Double)

/-- `Number(value)` of a value that may be missing. -/
def settingNumber : Option Setting → Double
  | none => none
  | some (.text t) => toNumber t
  | some (.number x) => x

/-- A whole number above zero. -/
def positiveInteger : Double → Option Nat
  | some (.finite q) => if q.den = 1 ∧ 0 < q.num then some q.num.toNat else none
  | _ => none

def positive (config : Text → Option Setting) (key : Text) (fallback : Nat) : Nat :=
  (positiveInteger (settingNumber (config key))).getD fallback

def limits (config : Text → Option Setting) : GraphLimits where
  maxDepth := graphMaxDepth
  maxNodes := positive config (text "GRAPH_MAX_NODES") defaultGraphMaxNodes
  maxHorizonRequests := positive config (text "GRAPH_MAX_HORIZON_REQUESTS") defaultGraphMaxHorizonRequests

/-- What the builders share: the budget, the accounts that have been looked up, the graph, and
the requests that have been sent. -/
structure Crawl where
  requests : Nat
  truncatedBy : Option GraphTruncation
  cache : List (Text × Option AccountSnapshot)
  nodes : KeyedRows GraphNode.id
  edges : List GraphEdge
  sent : List Request

def Crawl.start : Crawl := ⟨0, none, [], ⟨[], List.nodup_nil⟩, [], []⟩

def Crawl.ids (s : Crawl) : List Text := s.nodes.rows.map GraphNode.id

/-- The first limit that is hit is kept. -/
def Crawl.truncate (s : Crawl) (truncation : GraphTruncation) : Crawl :=
  { s with truncatedBy := s.truncatedBy.or (some truncation) }

def Crawl.exhausted (s : Crawl) : Bool := s.truncatedBy.isSome

def Crawl.send (s : Crawl) (request : Request) : Crawl := { s with sent := s.sent ++ [request] }

def Crawl.addEdges (s : Crawl) (edges : List GraphEdge) : Crawl := { s with edges := s.edges ++ edges }

variable (h : Horizon) (limits : GraphLimits)

def takeRequest (s : Crawl) : Bool × Crawl :=
  if limits.maxHorizonRequests ≤ s.requests then (false, s.truncate .horizonRequestLimit)
  else (true, { s with requests := s.requests + 1 })

def hasRoomFor (s : Crawl) (current extra : Nat) : Bool × Crawl :=
  if limits.maxNodes < current + extra then (false, s.truncate .nodeLimit) else (true, s)

/-- Accounts that are not found, and those whose request fails, are nothing. -/
def fetchAccount (publicKey : Text) (s : Crawl) : Option AccountSnapshot × Crawl :=
  ((h.loadAccount s.sent.length publicKey).toOption, s.send (.account publicKey))

def loadAccount (publicKey : Text) (s : Crawl) : Option AccountSnapshot × Crawl :=
  match s.cache.lookup publicKey with
  | some account => (account, s)
  | none =>
      let (granted, s) := takeRequest limits s
      let (account, s) := if granted then fetchAccount h publicKey s else (none, s)
      (account, { s with cache := s.cache ++ [(publicKey, account)] })

def classifyNode (publicKey : Text) (account : Option AccountSnapshot) : GraphNodeType :=
  if publicKey.head? = some (unit 'C') then .contract
  else
    match account with
    | none => .account
    | some account =>
        if 2 ≤ account.signers.length ∨ account.medThreshold.any (exceeds · (.ofInt 1)) then .multisig
        else if 3 ≤ (account.balances.filter fun b => b.assetCode.any (· != [])).length then .anchor
        else .account

def classifyLabel (publicKey : Text) (type : GraphNodeType) : Text :=
  if type = .contract then text "contract:" ++ publicKey.take 8 ++ text "…" else publicKey

def newNode (publicKey : Text) (account : Option AccountSnapshot) : GraphNode :=
  let type := classifyNode publicKey account
  ⟨publicKey, classifyLabel publicKey type, type,
    ⟨publicKey, type, (account.map (·.signers.length)).getD 0, (account.map (·.balances.length)).getD 0⟩⟩

def buildNode (publicKey : Text) (account : Option AccountSnapshot) (s : Crawl) : Option GraphNode × Crawl :=
  match s.nodes.get? publicKey with
  | some existing => (some existing, s)
  | none =>
      let (room, s) := hasRoomFor limits s s.nodes.rows.length 1
      if room then
        (some (newNode publicKey account), { s with nodes := s.nodes.put (newNode publicKey account) })
      else (none, s)

/-- Looks an account up and adds a node for it. -/
def addAccount (s : Crawl) (publicKey : Text) : Crawl :=
  let (account, s) := loadAccount h limits publicKey s
  (buildNode limits publicKey account s).2

/-- The signers that have a node, up to the first for which there is no room. -/
def addSigners : List HorizonSigner → Crawl → List Text × Crawl
  | [], s => ([], s)
  | signer :: signers, s =>
      if signer.key.head? ≠ some (unit 'G') then addSigners signers s
      else
        match buildNode limits signer.key none s with
        | (none, s) => ([], s)
        | (some _, s) =>
            let (keys, s) := addSigners signers s
            (signer.key :: keys, s)

def signsFor (account : AccountSnapshot) (publicKey signer : Text) : GraphEdge :=
  ⟨signer, publicKey, .signsFor,
    .weight (((account.signers.find? (·.key = signer)).map HorizonSigner.weight).getD (.ofInt 1))⟩

def coSigners (publicKey : Text) : List Text → List GraphEdge
  | [] => []
  | signer :: signers =>
      signers.map (fun other => ⟨signer, other, .coSigner, .ofAccount publicKey⟩) ++ coSigners publicKey signers

/-- The keys that have been queued, and those that wait, with their levels. -/
structure Frontier where
  visited : List Text
  queue : List (Text × Int)

def enqueue (depth level : Int) (f : Frontier) (signer : Text) : Frontier :=
  if signer ∉ f.visited ∧ level + 1 < depth + 1 then ⟨f.visited ++ [signer], f.queue ++ [(signer, level + 1)]⟩ else f

/-- The body of the loop: the signers to be queued, or nothing when the loop ends. -/
def visitAccount (depth level : Int) (publicKey : Text) (s : Crawl) : Option (List Text) × Crawl :=
  let (account, s) := loadAccount h limits publicKey s
  match buildNode limits publicKey account s with
  | (none, s) => (none, s)
  | (some _, s) =>
      match account with
      | none => (some [], s)
      | some account =>
          if depth ≤ level ∨ account.signers = [] then (some [], s)
          else
            let (keys, s) := addSigners limits account.signers s
            (some keys, s.addEdges (keys.map (signsFor account publicKey) ++ coSigners publicKey keys))

/-- The loop over the queue; nothing when it runs out of fuel. -/
def signersLoop (depth : Int) : Nat → Frontier → Crawl → Option Crawl
  | 0, _, _ => none
  | _ + 1, ⟨_, []⟩, s => some s
  | fuel + 1, ⟨visited, (publicKey, level) :: queue⟩, s =>
      if s.exhausted then some s
      else
        match visitAccount h limits depth level publicKey s with
        | (none, s) => some s
        | (some keys, s) => signersLoop depth fuel (keys.foldl (enqueue depth level) ⟨visited, queue⟩) s

def buildSignersGraph (rootAccount : Text) (depth : Int) (s : Crawl) : Option Crawl :=
  signersLoop h limits depth (limits.maxNodes + 1) ⟨[rootAccount], [(rootAccount, 0)]⟩ s

def fetchOffers (rootAccount : Text) (s : Crawl) : List PendingOffer × Crawl :=
  let (granted, s) := takeRequest limits s
  if granted then (((h.offersOf s.sent.length rootAccount).toOption).getD [], s.send (.offersOf rootAccount)) else ([], s)

def sdkAsset (asset : OfferAsset) : Except Text Asset :=
  match asset.code with
  | some (u :: code) => if asset.type = text "native" then .ok .native else h.credit (u :: code) asset.issuer
  | _ => .ok .native

def assetLabel (asset : OfferAsset) : Text :=
  match asset.code with
  | some (u :: code) =>
      if asset.type = text "native" then text "XLM"
      else
        match asset.issuer with
        | some (v :: issuer) => (u :: code) ++ unit ':' :: (v :: issuer)
        | _ => u :: code
  | _ => text "XLM"

/-- The sellers that have been matched, and those of them that have no node yet. -/
structure Matches where
  pendingNew : List Text
  matchedSellers : List Text

def addOnce (keys : List Text) (key : Text) : List Text := if key ∈ keys then keys else keys ++ [key]

def offerMatch (rootAccount : Text) (offer counter : PendingOffer) : GraphEdge :=
  ⟨counter.seller, rootAccount, .offerMatch, .offer (assetLabel offer.buying) (assetLabel offer.selling) counter.price⟩

/-- The seller and the edge of a match, unless the edge is there. -/
def addMatch (rootAccount : Text) (offer counter : PendingOffer) (m : Matches) (s : Crawl) : Matches × Crawl :=
  ({ m with matchedSellers := addOnce m.matchedSellers counter.seller },
    if s.edges.any (fun e => e.source = counter.seller ∧ e.target = rootAccount ∧ e.relationship = .offerMatch) then s
    else s.addEdges [offerMatch rootAccount offer counter])

/-- The loop over the counter-offers of one offer; it tells whether there was room for all. -/
def addCounters (rootAccount : Text) (offer : PendingOffer) : List PendingOffer → Matches → Crawl → Bool × Matches × Crawl
  | [], m, s => (true, m, s)
  | counter :: counters, m, s =>
      if counter.seller = rootAccount then addCounters rootAccount offer counters m s
      else if counter.seller ∈ s.ids ∨ counter.seller ∈ m.pendingNew then
        let (m, s) := addMatch rootAccount offer counter m s
        addCounters rootAccount offer counters m s
      else
        let (room, s) := hasRoomFor limits s (s.nodes.rows.length + m.pendingNew.length) 1
        if room then
          let (m, s) := addMatch rootAccount offer counter { m with pendingNew := m.pendingNew ++ [counter.seller] } s
          addCounters rootAccount offer counters m s
        else (false, m, s)

/-- The loop over the offers of the root. An asset that the SDK refuses is an exception. -/
def matchOffers (rootAccount : Text) : List PendingOffer → Matches → Crawl → Except Text Matches × Crawl
  | [], m, s => (.ok m, s)
  | offer :: offers, m, s =>
      match takeRequest limits s with
      | (false, s) => (.ok m, s)
      | (true, s) =>
          match sdkAsset h offer.selling, sdkAsset h offer.buying with
          | .error message, _ => (.error message, s)
          | .ok _, .error message => (.error message, s)
          | .ok selling, .ok buying =>
              let page := h.counterOffers s.sent.length buying selling
              let s := s.send (.counterOffers buying selling)
              match page with
              | .error _ => matchOffers rootAccount offers m s
              | .ok counters =>
                  match addCounters limits rootAccount offer counters m s with
                  | (true, m, s) => matchOffers rootAccount offers m s
                  | (false, m, s) => (.ok m, s)

def buildOffersGraph (rootAccount : Text) (s : Crawl) : Except Text Unit × Crawl :=
  let (offers, s) := fetchOffers h limits rootAccount s
  let s := addAccount h limits s rootAccount
  if offers = [] then (.ok (), s)
  else
    match matchOffers h limits rootAccount offers ⟨[], []⟩ s with
    | (.error message, s) => (.error message, s)
    | (.ok m, s) => (.ok (), m.matchedSellers.foldl (addAccount h limits) s)

def paymentEdge (op : PaymentOperation) (source target : Text) : GraphEdge :=
  let asset :=
    match op.assetCode with
    | some (u :: code) => some (u :: code)
    | code => if op.assetType = text "native" then some (text "XLM") else code
  ⟨source, target, .payment, .payment op.amount asset op.transactionHash⟩

/-- The keys without a node, and all keys of payments. -/
structure Endpoints where
  pendingNew : List Text
  connected : List Text

def nonEmpty : Option Text → Option Text
  | some (u :: t) => some (u :: t)
  | _ => none

def addPayments : List PaymentOperation → Endpoints → Crawl → Endpoints × Crawl
  | [], p, s => (p, s)
  | op :: ops, p, s =>
      match nonEmpty op.source, nonEmpty op.destination with
      | some source, some target =>
          let fresh := (addOnce [source] target).filter fun key => key ∉ s.ids ∧ key ∉ p.pendingNew
          match hasRoomFor limits s (s.nodes.rows.length + p.pendingNew.length) fresh.length with
          | (false, s) => (p, s)
          | (true, s) =>
              addPayments ops ⟨p.pendingNew ++ fresh, addOnce (addOnce p.connected source) target⟩
                (s.addEdges [paymentEdge op source target])
      | _, _ => addPayments ops p s

def buildPaymentsGraph (rootAccount : Text) (s : Crawl) : Crawl :=
  match takeRequest limits s with
  | (false, s) => addAccount h limits s rootAccount
  | (true, s) =>
      let page := h.payments s.sent.length rootAccount
      let s := addAccount h limits (s.send (.payments rootAccount)) rootAccount
      match page with
      | .error _ => s
      | .ok records =>
          let (p, s) := addPayments limits (records.filter (·.type = text "payment")) ⟨[], []⟩ s
          p.connected.foldl (addAccount h limits) s

/-- The builders in turn, as long as no limit has been hit. -/
def buildModes (dto : GraphQueryDto) (s : Crawl) : Option (Except Text Unit × Crawl) :=
  let afterSigners :=
    if dto.mode = .signers ∨ dto.mode = .all then buildSignersGraph h limits dto.rootAccount dto.depth s else some s
  afterSigners.map fun s =>
    let (offers, s) :=
      if s.exhausted = false ∧ (dto.mode = .offers ∨ dto.mode = .all) then buildOffersGraph h limits dto.rootAccount s
      else (.ok (), s)
    match offers with
    | .error message => (.error message, s)
    | .ok () =>
        if s.exhausted = false ∧ (dto.mode = .payments ∨ dto.mode = .all) then
          (.ok (), buildPaymentsGraph h limits dto.rootAccount s)
        else (.ok (), s)

def graphOf (dto : GraphQueryDto) (s : Crawl) : GraphResult where
  nodes := s.nodes.rows
  edges := s.edges
  rootAccount := dto.rootAccount
  depth := dto.depth
  mode := dto.mode
  nodeCount := s.nodes.rows.length
  edgeCount := s.edges.length
  truncated := s.exhausted
  truncatedBy := s.truncatedBy
  horizonRequests := s.requests
  limits := limits

/-- The outcome, and the requests that have been sent to Horizon. -/
def buildGraph (config : Text → Option Setting) (dto : GraphQueryDto) :
    Option (Except GraphError GraphResult × List Request) :=
  let limits := Graph.limits config
  match loadAccount h limits dto.rootAccount Crawl.start with
  | (none, s) =>
      some (.error (.notFound (text "Account " ++ dto.rootAccount ++ text " not found on " ++
        (dto.network.getD .testnet).name)), s.sent)
  | (some _, s) =>
      (buildModes h limits dto s).map fun
        | (.error message, s) => (.error (.badRequest (text "Graph build failed: " ++ message)), s.sent)
        | (.ok (), s) => (.ok (graphOf limits dto s), s.sent)

end Savitools.Transaction.Graph
