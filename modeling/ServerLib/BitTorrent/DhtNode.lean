import Mathlib.Data.Nat.Size
import ServerLib.BitTorrent.Bencoding
import ServerLib.Lib.HostBytes

/-! A node of the DHT: its routing table, its tokens and peers, and its handlers for queries and
responses.  The callbacks that are given the peers of a response are left out. -/

namespace ServerLib.BitTorrent

open Lib Function

/-- The 20 bytes as a number, the first one the highest. -/
abbrev DhtNodeId := BitVec 160

/-- `inet_pton` and `inet_ntop`: an address as a text, and as four bytes in memory. -/
structure Inet where
  pton : Bytes → Bytes
  ntop : Bytes → Bytes
  pton_ntop : ∀ bytes, bytes.length = 4 → pton (ntop bytes) = bytes

structure DhtCompactNode where
  id : DhtNodeId
  ip : UInt32
  port : UInt16

namespace DhtCompactNode

variable (inet : Inet) (node : DhtCompactNode)

def ipString : Bytes := inet.ntop (hostBytes 4 node.ip.toNat)

def readId : Reader DhtNodeId := fun data =>
  if data.length < 20 then none
  else some (BitVec.ofNat 160 (ofHostBytes (data.take 20).reverse), data.drop 20)

def fromCompact : Reader DhtCompactNode := do
  let id ← readId
  let ip ← readU32
  let port ← readU16
  return { id, ip, port }

def toCompact : Bytes :=
  (hostBytes 20 node.id.toNat).reverse ++ writeU32 node.ip ++ writeU16 node.port

/-- The sender of a datagram: `inet_pton` writes to the memory of the number. -/
def ofSender (ip : Bytes) (port : UInt16) (id : DhtNodeId) : DhtCompactNode :=
  { id, ip := UInt32.ofNat (ofHostBytes (inet.pton ip)), port }

theorem hostBytes_ofNat {bytes : Bytes} (h : bytes.length = 4) :
    hostBytes 4 (UInt32.ofNat (ofHostBytes bytes)).toNat = bytes := by
  have hlt := ofHostBytes_lt bytes
  have hback := hostBytes_ofHostBytes bytes
  rw [h] at hlt hback
  rwa [UInt32.toNat_ofNat_of_lt' hlt]

/-- A sender is advertised with its address read backwards. -/
theorem toCompact_ofSender (a b c d : UInt8) (port : UInt16) (id : DhtNodeId) :
    (ofSender inet (inet.ntop [a, b, c, d]) port id).toCompact =
      (hostBytes 20 id.toNat).reverse ++ [d, c, b, a] ++ writeU16 port := by
  rw [toCompact, ofSender, inet.pton_ntop _ rfl, ← reverse_hostBytes_four, hostBytes_ofNat rfl]
  rfl

/-- A node that is learned is contacted at its address read backwards. -/
theorem ipString_fromCompact (a b c d : UInt8) {id port : Bytes} (hid : id.length = 20)
    (hport : port.length = 2) :
    (fromCompact (id ++ [a, b, c, d] ++ port)).map (fun r => r.1.ipString inet) =
      some (inet.ntop [d, c, b, a]) := by
  obtain ⟨p, q, rfl⟩ := List.length_eq_two.mp hport
  have hip : a.toNat * 2 ^ 24 + b.toNat * 2 ^ 16 + c.toNat * 2 ^ 8 + d.toNat =
      ofHostBytes [d, c, b, a] := by
    simp only [ofHostBytes]
    omega
  have hid : readId (id ++ [a, b, c, d] ++ [p, q]) =
      some (BitVec.ofNat 160 (ofHostBytes id.reverse), [a, b, c, d, p, q]) := by
    simp [readId, hid]
  obtain ⟨node, hnode, hip⟩ : ∃ node, fromCompact (id ++ [a, b, c, d] ++ [p, q]) =
      some (node, []) ∧ node.ip = UInt32.ofNat (ofHostBytes [d, c, b, a]) :=
    ⟨_, bind_eq_some.mpr ⟨_, _, hid, bind_eq_some.mpr ⟨_, _, rfl, bind_eq_some.mpr
      ⟨_, _, rfl, rfl⟩⟩⟩, congrArg UInt32.ofNat hip⟩
  rw [hnode, Option.map_some, ipString, hip, hostBytes_ofNat rfl]

end DhtCompactNode

/-- The queries and responses that come in datagrams. -/
inductive DhtCall
  | pingQuery (transactionId : Bytes) (id : DhtNodeId)
  | findNodeQuery (transactionId : Bytes) (id target : DhtNodeId)
  | getPeersQuery (transactionId : Bytes) (id infoHash : DhtNodeId)
  | announcePeerQuery (transactionId : Bytes) (infoHash : DhtNodeId) (peerPort : UInt16)
      (token : Bytes)
  | findNodeResponse (id : DhtNodeId) (nodes : List DhtCompactNode)
  | getPeersResponse (id : DhtNodeId) (token : Bytes) (nodes : List DhtCompactNode)

structure DhtEvent where
  source : Bytes × UInt16
  now : Int
  call : DhtCall

structure DhtBucket where
  nodes : List DhtCompactNode := []
  replacementCache : List DhtCompactNode := []

/-- A bucket has 8 nodes at most, and so has its replacement cache. -/
def DhtBucket.add (b : DhtBucket) (node : DhtCompactNode) : DhtBucket :=
  if b.nodes.any (·.id == node.id) then
    { b with nodes := b.nodes.eraseP (·.id == node.id) ++ [node] }
  else if 8 ≤ b.nodes.length then
    let cache := b.replacementCache ++ [node]
    { b with replacementCache := if 8 < cache.length then cache.drop 1 else cache }
  else { b with nodes := b.nodes ++ [node] }

structure StoredPeer where
  ip : Bytes
  port : UInt16
  expireMs : Int

/-- The keys of `tokens` are made of an address and a port, with a colon between them. -/
structure DhtNode where
  nodeId : DhtNodeId
  buckets : Nat → DhtBucket := fun _ => {}
  nextTransactionId : UInt32 := 0
  tokens : Bytes × UInt16 → Option (Bytes × Int) := fun _ => none
  peerStore : DhtNodeId → List StoredPeer := fun _ => []

inductive DhtReply
  | response (transactionId : Bytes) (id : DhtNodeId) (entries : List (String × Bytes))
  | error (transactionId : Bytes) (code : Nat) (message : String)

namespace DhtNode

def xorDistance (a b : DhtNodeId) : DhtNodeId := a ^^^ b

def distance (target : DhtNodeId) (node : DhtCompactNode) : Nat :=
  (xorDistance node.id target).toNat

def ranked (target : DhtNodeId) (candidates : List DhtCompactNode) : List DhtCompactNode :=
  candidates.insertionSort fun a b => distance target a ≤ distance target b

def leadingZeros (id : DhtNodeId) : Nat := min (160 - id.toNat.size) 159

variable (n : DhtNode)

def bucketIndex (id : DhtNodeId) : Nat := leadingZeros (xorDistance n.nodeId id)

def updateBucket (node : DhtCompactNode) : DhtNode :=
  if node.id = 0 then n
  else
    let idx := n.bucketIndex node.id
    { n with buckets := update n.buckets idx ((n.buckets idx).add node) }

/-- The nodes in the buckets at the distance `d` from the bucket `idx`. -/
def ring (idx d : Nat) : List DhtCompactNode :=
  (if d ≤ idx then (n.buckets (idx - d)).nodes else []) ++
    if idx + d < 160 then (n.buckets (idx + d)).nodes else []

/-- The loop over `d` that adds adjacent buckets. -/
def expand (idx count : Nat) : List Nat → List DhtCompactNode → List DhtCompactNode
  | [], candidates => candidates
  | d :: ds, candidates =>
    if candidates.length < count * 2 then expand idx count ds (candidates ++ n.ring idx d)
    else candidates

def findClosestNodes (target : DhtNodeId) (count : Nat) : List DhtCompactNode :=
  let idx := n.bucketIndex target
  (ranked target (n.expand idx count (List.range' 1 159) (n.buckets idx).nodes)).take count

def compactNodes (target : DhtNodeId) : Bytes :=
  (n.findClosestNodes target 8).flatMap DhtCompactNode.toCompact

/-- The token of the next reply to `get_peers`. -/
def nextToken : Bytes := decimal n.nextTransactionId.toNat

variable (inet : Inet) (ip : Bytes) (port : UInt16) (transactionId : Bytes) (id : DhtNodeId)

def learnSender : DhtNode := n.updateBucket (.ofSender inet ip port id)

def handlePingQuery : DhtNode × DhtReply :=
  (n.learnSender inet ip port id, .response transactionId n.nodeId [])

def handleFindNodeQuery (target : DhtNodeId) : DhtNode × DhtReply :=
  let n := n.learnSender inet ip port id
  (n, .response transactionId n.nodeId [("nodes", n.compactNodes target)])

def handleGetPeersQuery (infoHash : DhtNodeId) (now : Int) : DhtNode × DhtReply :=
  let n := n.learnSender inet ip port id
  let peers := (n.peerStore infoHash).flatMap fun p => inet.pton p.ip ++ writeU16 p.port
  let nodes := n.compactNodes infoHash
  ({ n with
      nextTransactionId := n.nextTransactionId + 1
      tokens := update n.tokens (ip, port) (some (n.nextToken, now + 600000)) },
    .response transactionId n.nodeId (("token", n.nextToken) ::
      [("values", peers), ("nodes", nodes)].filter fun entry => entry.2 ≠ []))

def handleFindNodeResponse (nodes : List DhtCompactNode) : DhtNode :=
  nodes.foldl updateBucket (n.learnSender inet ip port id)

/-- The nodes are added twice. -/
def handleGetPeersResponse (token : Bytes) (nodes : List DhtCompactNode) (now : Int) : DhtNode :=
  let n := n.learnSender inet ip port id
  (nodes ++ nodes).foldl updateBucket
    { n with tokens := update n.tokens (ip, port) (some (token, now + 600000)) }

def handleAnnouncePeerQuery (infoHash : DhtNodeId) (peerPort : UInt16) (token : Bytes)
    (now : Int) : DhtNode × DhtReply :=
  if ∃ entry ∈ n.tokens (ip, port), entry.1 = token ∧ now ≤ entry.2 then
    let peer := { ip, port := peerPort, expireMs := now + 3600000 }
    ({ n with peerStore := update n.peerStore infoHash (n.peerStore infoHash ++ [peer]) },
      .response transactionId n.nodeId [])
  else
    ({ n with tokens := update n.tokens (ip, port) none },
      .error transactionId 201 "Bad announce peer token")

def handle (l : DhtEvent) : DhtNode × Option DhtReply :=
  let (ip, port) := l.source
  let answer := fun out : DhtNode × DhtReply => (out.1, some out.2)
  match l.call with
  | .pingQuery transactionId id => answer (n.handlePingQuery inet ip port transactionId id)
  | .findNodeQuery transactionId id target =>
    answer (n.handleFindNodeQuery inet ip port transactionId id target)
  | .getPeersQuery transactionId id infoHash =>
    answer (n.handleGetPeersQuery inet ip port transactionId id infoHash l.now)
  | .announcePeerQuery transactionId infoHash peerPort token =>
    answer (n.handleAnnouncePeerQuery ip port transactionId infoHash peerPort token l.now)
  | .findNodeResponse id nodes => (n.handleFindNodeResponse inet ip port id nodes, none)
  | .getPeersResponse id token nodes =>
    (n.handleGetPeersResponse inet ip port id token nodes l.now, none)

/-- The bucket of the id takes a node with this id. -/
def HasRoom : Prop :=
  id ≠ 0 ∧ ((n.buckets (n.bucketIndex id)).nodes.length < 8 ∨
    (n.buckets (n.bucketIndex id)).nodes.any (·.id == id))

end DhtNode

/-- The sender of a message, if it is put in the table. -/
def DhtCall.sender? : DhtCall → Option DhtNodeId
  | .pingQuery _ id | .findNodeQuery _ id _ | .getPeersQuery _ id _
  | .findNodeResponse id _ | .getPeersResponse id _ _ => some id
  | .announcePeerQuery _ _ _ _ => none

/-- The nodes that a response tells of. -/
def DhtCall.nodes : DhtCall → List DhtCompactNode
  | .findNodeResponse _ nodes | .getPeersResponse _ _ nodes => nodes
  | _ => []

/-- A sender is in the table with the address that it has, after each message that puts it there,
and is advertised so in the reply to its own `find_node`; a node that is learned is contacted at the
address that was advertised. -/
structure KeepsAddress (inet : Inet) (a b c d : UInt8) : Prop where
  stored : ∀ (n : DhtNode) (port : UInt16) (now : Int) (call : DhtCall) (id : DhtNodeId),
    call.sender? = some id → n.HasRoom id → (∀ node ∈ call.nodes, node.id ≠ id) →
      ∃ node ∈ ((n.handle inet ⟨(inet.ntop [a, b, c, d], port), now, call⟩).1.buckets
        (n.bucketIndex id)).nodes,
        node.toCompact = (hostBytes 20 id.toNat).reverse ++ [a, b, c, d] ++ writeU16 port
  answered : ∀ (n : DhtNode) (port : UInt16) (now : Int) (transactionId : Bytes) (id : DhtNodeId),
    n.HasRoom id → (∀ i, ∀ node ∈ (n.buckets i).nodes, node.id ≠ id) →
      ∃ later, (n.handle inet ⟨(inet.ntop [a, b, c, d], port), now,
        .findNodeQuery transactionId id id⟩).2 = some (.response transactionId n.nodeId
          [("nodes", (hostBytes 20 id.toNat).reverse ++ [a, b, c, d] ++ writeU16 port ++ later)])
  learned : ∀ id port : Bytes, id.length = 20 → port.length = 2 →
    (DhtCompactNode.fromCompact (id ++ [a, b, c, d] ++ port)).map (fun r => r.1.ipString inet) =
      some (inet.ntop [a, b, c, d])

namespace DhtNode

variable {n : DhtNode} {node : DhtCompactNode} {id : DhtNodeId}

theorem updateBucket_eq (n : DhtNode) (node : DhtCompactNode) :
    ∃ buckets, n.updateBucket node = { n with buckets } := by
  rw [updateBucket]
  split
  · exact ⟨n.buckets, rfl⟩
  · exact ⟨_, rfl⟩

/-- Only the buckets change. -/
theorem foldl_updateBucket_eq (n : DhtNode) (nodes : List DhtCompactNode) :
    ∃ buckets, nodes.foldl updateBucket n = { n with buckets } := by
  induction nodes generalizing n with
  | nil => exact ⟨n.buckets, rfl⟩
  | cons node nodes ih =>
    obtain ⟨buckets, hnode⟩ := n.updateBucket_eq node
    obtain ⟨buckets', hnodes⟩ := ih { n with buckets }
    exact ⟨buckets', by rw [List.foldl_cons, hnode, hnodes]⟩

theorem mem_add (b : DhtBucket)
    (h : b.nodes.length < 8 ∨ b.nodes.any (·.id == node.id)) : node ∈ (b.add node).nodes := by
  rw [DhtBucket.add]
  split_ifs with hknown hfull
  · simp
  · exact absurd h (not_or.mpr ⟨Nat.not_lt.mpr hfull, hknown⟩)
  · simp

theorem mem_add_of_ne {b : DhtBucket} (h : node ∈ b.nodes) (hne : node'.id ≠ node.id) :
    node ∈ (b.add node').nodes := by
  rw [DhtBucket.add]
  split_ifs
  · exact List.mem_append_left _ ((List.mem_eraseP_of_neg (by simpa using hne.symm)).mpr h)
  · exact h
  · exact List.mem_append_left _ h

theorem mem_updateBucket (h : n.HasRoom node.id) :
    node ∈ ((n.updateBucket node).buckets (n.bucketIndex node.id)).nodes := by
  rw [updateBucket, if_neg h.1]
  simpa using mem_add _ h.2

theorem mem_foldl_updateBucket {nodes : List DhtCompactNode} (h : node ∈ (n.buckets i).nodes)
    (hne : ∀ node' ∈ nodes, node'.id ≠ node.id) :
    node ∈ ((nodes.foldl updateBucket n).buckets i).nodes := by
  induction nodes generalizing n with
  | nil => exact h
  | cons node' nodes ih =>
    obtain ⟨hne, hlater⟩ := List.forall_mem_cons.mp hne
    refine ih ?_ hlater
    rw [updateBucket]
    split
    · exact h
    · by_cases hi : i = n.bucketIndex node'.id
      · subst hi
        simpa using mem_add_of_ne h hne
      · simpa [update_of_ne hi] using h

/-- The sender is in the table after each message that puts it there. -/
theorem mem_handle (hsender : l.call.sender? = some id) (hroom : n.HasRoom id)
    (hne : ∀ node ∈ l.call.nodes, node.id ≠ id) :
    .ofSender inet l.source.1 l.source.2 id ∈
      ((n.handle inet l).1.buckets (n.bucketIndex id)).nodes := by
  have hsent : .ofSender inet l.source.1 l.source.2 id ∈
      ((n.learnSender inet l.source.1 l.source.2 id).buckets (n.bucketIndex id)).nodes :=
    mem_updateBucket hroom
  obtain ⟨⟨ip, port⟩, now, call⟩ := l
  cases call with
  | announcePeerQuery => cases hsender
  | pingQuery | findNodeQuery | getPeersQuery =>
    cases hsender
    exact hsent
  | findNodeResponse _ nodes =>
    cases hsender
    exact mem_foldl_updateBucket hsent hne
  | getPeersResponse _ token nodes =>
    cases hsender
    refine mem_foldl_updateBucket (n := { n.learnSender inet ip port _ with tokens := _ }) hsent ?_
    exact List.forall_mem_append.mpr ⟨hne, hne⟩

theorem mem_of_mem_updateBucket (h : node' ∈ ((n.updateBucket node).buckets i).nodes) :
    node' = node ∨ node' ∈ (n.buckets i).nodes := by
  rw [updateBucket] at h
  split at h
  · exact .inr h
  · by_cases hi : i = n.bucketIndex node.id
    · subst hi
      simp only [update_self, DhtBucket.add] at h
      split at h
      · exact (List.mem_append.mp h).symm.imp List.mem_singleton.mp List.mem_of_mem_eraseP
      · split at h
        · exact .inr h
        · exact (List.mem_append.mp h).symm.imp_left List.mem_singleton.mp
    · simp only [update_of_ne hi] at h
      exact .inr h

theorem mem_expand {candidates : List DhtCompactNode} (ds : List Nat)
    (h : node ∈ candidates) : node ∈ n.expand idx count ds candidates := by
  induction ds generalizing candidates with
  | nil => exact h
  | cons d ds ih =>
    rw [expand]
    split
    · exact ih (List.mem_append_left _ h)
    · exact h

theorem mem_of_mem_expand {candidates : List DhtCompactNode} {ds : List Nat}
    (hcandidates : ∀ node ∈ candidates, ∃ i, node ∈ (n.buckets i).nodes)
    (h : node ∈ n.expand idx count ds candidates) : ∃ i, node ∈ (n.buckets i).nodes := by
  induction ds generalizing candidates with
  | nil => exact hcandidates node h
  | cons d ds ih =>
    rw [expand] at h
    split at h
    · refine ih (List.forall_mem_append.mpr ⟨hcandidates, fun node hring => ?_⟩) h
      rw [ring, List.mem_append] at hring
      split_ifs at hring
      · exact hring.elim (⟨_, ·⟩) (⟨_, ·⟩)
      · exact ⟨_, hring.resolve_right (List.not_mem_nil)⟩
      · exact ⟨_, hring.resolve_left (List.not_mem_nil)⟩
      · simp at hring
    · exact hcandidates node h

theorem ranked_self {candidates : List DhtCompactNode} (h : node ∈ candidates)
    (honly : ∀ node' ∈ candidates, node'.id = node.id → node' = node) :
    ∃ later, ranked node.id candidates = node :: later := by
  have hmem : ∀ node', node' ∈ ranked node.id candidates ↔ node' ∈ candidates :=
    fun _ => List.mem_insertionSort _
  have hsorted := candidates.pairwise_insertionSort fun a b =>
    distance node.id a ≤ distance node.id b
  rw [← ranked] at hsorted
  cases hranked : ranked node.id candidates with
  | nil => simp [← hmem, hranked] at h
  | cons first later =>
    rw [hranked] at hsorted hmem
    have hfirst : distance node.id first = 0 := by
      have hself : distance node.id node = 0 := by simp [distance, xorDistance]
      rcases List.mem_cons.mp ((hmem node).mpr h) with rfl | hlater
      · exact hself
      · exact Nat.le_zero.mp (hself ▸ (List.pairwise_cons.mp hsorted).1 node hlater)
    have hid : first.id = node.id :=
      BitVec.xor_eq_zero_iff.mp (BitVec.eq_of_toNat_eq (y := 0#160) hfirst)
    exact ⟨later, by rw [honly first ((hmem first).mp List.mem_cons_self) hid]⟩

/-- The node with the target's id is the first of the closest ones. -/
theorem findClosestNodes_self (hmem : node ∈ (n.buckets (n.bucketIndex node.id)).nodes)
    (honly : ∀ i, ∀ node' ∈ (n.buckets i).nodes, node'.id = node.id → node' = node) :
    ∃ later, n.findClosestNodes node.id 8 = node :: later := by
  obtain ⟨later, hranked⟩ := ranked_self (mem_expand (List.range' 1 159) hmem)
    fun node' hmem' hid => by
      obtain ⟨i, hi⟩ := mem_of_mem_expand (fun _ h => ⟨_, h⟩) hmem'
      exact honly i node' hi hid
  exact ⟨later.take 7, by rw [findClosestNodes, hranked]; rfl⟩

/-- A node that is new in the table is the first that it advertises for the id of the node. -/
theorem compactNodes_updateBucket (node : DhtCompactNode) (hroom : n.HasRoom node.id)
    (hnew : ∀ i, ∀ node' ∈ (n.buckets i).nodes, node'.id ≠ node.id) :
    (n.updateBucket node).nodeId = n.nodeId ∧
      ∃ later, (n.updateBucket node).compactNodes node.id = node.toCompact ++ later := by
  obtain ⟨buckets, hbuckets⟩ := n.updateBucket_eq node
  have hmem := mem_updateBucket hroom
  have honly : ∀ i, ∀ node' ∈ ((n.updateBucket node).buckets i).nodes, node'.id = node.id →
      node' = node := fun i node' hmem hid =>
    (mem_of_mem_updateBucket hmem).resolve_right fun hold => hnew i node' hold hid
  rw [hbuckets] at hmem honly ⊢
  obtain ⟨later, hclosest⟩ := findClosestNodes_self hmem honly
  exact ⟨rfl, later.flatMap DhtCompactNode.toCompact, by rw [compactNodes, hclosest]; rfl⟩

end DhtNode

/-- The two conventions for `ip` agree exactly on the addresses that read the same backwards. -/
theorem keepsAddress_iff (inet : Inet) (a b c d : UInt8) :
    KeepsAddress inet a b c d ↔ a = d ∧ b = c := by
  constructor
  · rintro ⟨-, -, h⟩
    have hid : (List.replicate 20 (0 : UInt8)).length = 20 := rfl
    have hport : [(0 : UInt8), 0].length = 2 := rfl
    have hsame := Option.some.inj ((h _ _ hid hport).symm.trans
      (DhtCompactNode.ipString_fromCompact inet a b c d hid hport))
    have hback := congrArg inet.pton hsame
    rw [inet.pton_ntop _ rfl, inet.pton_ntop _ rfl] at hback
    simp only [List.cons.injEq] at hback
    exact ⟨hback.1, hback.2.1⟩
  · rintro ⟨rfl, rfl⟩
    refine ⟨fun n port now call id hsender hroom hne => ?_,
      fun n port now transactionId id hroom hnew => ?_,
      fun id port hid hport => DhtCompactNode.ipString_fromCompact inet a b b a hid hport⟩
    · exact ⟨_, DhtNode.mem_handle hsender hroom hne,
        DhtCompactNode.toCompact_ofSender inet a b b a port id⟩
    · have hsender := DhtCompactNode.toCompact_ofSender inet a b b a port id
      obtain ⟨hself, later, hnodes⟩ := DhtNode.compactNodes_updateBucket
        (.ofSender inet (inet.ntop [a, b, b, a]) port id) hroom hnew
      refine ⟨later, ?_⟩
      rw [← hsender, ← hself, ← hnodes]
      rfl

/-- The address 10.0.0.1, where the text is taken for the bytes themselves. -/
theorem not_keepsAddress : ¬KeepsAddress ⟨(·), (·), fun _ _ => rfl⟩ 10 0 0 1 := by
  rintro ⟨-, -, h⟩
  exact absurd (h (List.replicate 20 0) [0, 0] rfl rfl) (by decide)

end ServerLib.BitTorrent
