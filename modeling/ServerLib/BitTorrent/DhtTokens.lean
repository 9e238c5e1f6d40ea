import ServerLib.BitTorrent.DhtNode
import ServerLib.Lib.Run

/-! The tokens of a node: which announcements are accepted, in every order of queries and
responses. -/

namespace ServerLib.BitTorrent

open Lib Function

/-- The token in the reply to a `get_peers` query. -/
def DhtReply.token? : DhtReply → Option Bytes
  | .response _ _ entries => entries.lookup "token"
  | .error _ _ _ => none

/-- A node, the tokens that it has sent to each address with their times, and the last one of them
as long as there was no announcement from the address. -/
structure DhtRun where
  node : DhtNode
  sent : Bytes × UInt16 → List (Bytes × Int) := fun _ => []
  last : Bytes × UInt16 → Option (Bytes × Int) := fun _ => none

namespace DhtRun

variable (inet : Inet) (s : DhtRun) (l : DhtEvent) (address : Bytes × UInt16)

def step : DhtRun :=
  let (node, reply) := s.node.handle inet l
  match reply.bind DhtReply.token?, l.call with
  | some token, _ =>
    { node
      sent := update s.sent l.source ((token, l.now) :: s.sent l.source)
      last := update s.last l.source (some (token, l.now)) }
  | none, .announcePeerQuery _ _ _ _ => { s with node, last := update s.last l.source none }
  | none, _ => { s with node }

/-- An announcement stores a peer only with a token that was sent to its address, and does so with
the last one; a token is good for 600000 ms. -/
def Guarded : Prop :=
  ∀ transactionId infoHash peerPort token,
    l.call = .announcePeerQuery transactionId infoHash peerPort token →
      ((s.step inet l).node.peerStore ≠ s.node.peerStore →
        ∃ t, (token, t) ∈ s.sent l.source ∧ l.now ≤ t + 600000) ∧
      ∀ t, s.last l.source = some (token, t) → l.now ≤ t + 600000 →
        (s.step inet l).node.peerStore infoHash = s.node.peerStore infoHash ++
          [{ ip := l.source.1, port := peerPort, expireMs := l.now + 3600000 }]

/-- The token that the node keeps for the address is one that was sent there. -/
structure Inv : Prop where
  sent : ∀ token expire, s.node.tokens address = some (token, expire) →
    (token, expire - 600000) ∈ s.sent address
  last : ∀ token t, s.last address = some (token, t) →
    s.node.tokens address = some (token, t + 600000)

variable {inet s l address}

theorem tokens_learnSender (n : DhtNode) (inet : Inet) (ip : Bytes) (port : UInt16)
    (id : DhtNodeId) : (n.learnSender inet ip port id).tokens = n.tokens := by
  obtain ⟨buckets, hbuckets⟩ := n.updateBucket_eq (.ofSender inet ip port id)
  rw [DhtNode.learnSender, hbuckets]

theorem tokens_foldl (n : DhtNode) (nodes : List DhtCompactNode) :
    (nodes.foldl DhtNode.updateBucket n).tokens = n.tokens := by
  obtain ⟨buckets, hbuckets⟩ := n.foldl_updateBucket_eq nodes
  rw [hbuckets]

theorem step_announce (inet : Inet) (s : DhtRun) (ip : Bytes) (port : UInt16) (now : Int)
    (transactionId : Bytes) (infoHash : DhtNodeId) (peerPort : UInt16) (token : Bytes) :
    s.step inet ⟨(ip, port), now, .announcePeerQuery transactionId infoHash peerPort token⟩ =
      { s with
        node := (s.node.handleAnnouncePeerQuery ip port transactionId infoHash peerPort token now).1
        last := update s.last (ip, port) none } := by
  have hreply : (s.node.handleAnnouncePeerQuery ip port transactionId infoHash peerPort token
      now).2.token? = none := by
    rw [DhtNode.handleAnnouncePeerQuery]
    split <;> rfl
  simp only [step, DhtNode.handle, Option.bind_some, hreply]

/-- What a call does to the tokens that are kept, and to the record of those that were sent. -/
theorem tokens_step (inet : Inet) (s : DhtRun) (l : DhtEvent) :
    match l.call with
    | .getPeersQuery _ _ _ => ∃ token,
      (s.step inet l).node.tokens = update s.node.tokens l.source (some (token, l.now + 600000)) ∧
        (s.step inet l).sent = update s.sent l.source ((token, l.now) :: s.sent l.source) ∧
        (s.step inet l).last = update s.last l.source (some (token, l.now))
    | .getPeersResponse _ token _ =>
      (s.step inet l).node.tokens = update s.node.tokens l.source (some (token, l.now + 600000)) ∧
        (s.step inet l).sent = s.sent ∧ (s.step inet l).last = s.last
    | .announcePeerQuery _ _ _ _ =>
      ((s.step inet l).node.tokens = s.node.tokens ∨
          (s.step inet l).node.tokens = update s.node.tokens l.source none) ∧
        (s.step inet l).sent = s.sent ∧ (s.step inet l).last = update s.last l.source none
    | _ => (s.step inet l).node.tokens = s.node.tokens ∧
        (s.step inet l).sent = s.sent ∧ (s.step inet l).last = s.last := by
  obtain ⟨⟨ip, port⟩, now, call⟩ := l
  cases call with
  | pingQuery transactionId id => exact ⟨tokens_learnSender _ _ _ _ _, rfl, rfl⟩
  | findNodeQuery transactionId id target => exact ⟨tokens_learnSender _ _ _ _ _, rfl, rfl⟩
  | getPeersQuery transactionId id infoHash =>
    refine ⟨(s.node.learnSender inet ip port id).nextToken, ?_, rfl, rfl⟩
    exact congrArg (update · _ _) (tokens_learnSender s.node inet ip port id)
  | announcePeerQuery transactionId infoHash peerPort token =>
    rw [step_announce]
    refine ⟨?_, rfl, rfl⟩
    rw [DhtNode.handleAnnouncePeerQuery]
    split
    · exact .inl rfl
    · exact .inr rfl
  | findNodeResponse id nodes =>
    exact ⟨(tokens_foldl _ _).trans (tokens_learnSender _ _ _ _ _), rfl, rfl⟩
  | getPeersResponse id token nodes =>
    refine ⟨(tokens_foldl _ _).trans ?_, rfl, rfl⟩
    exact congrArg (update · _ _) (tokens_learnSender s.node inet ip port id)

theorem Inv.step (h : s.Inv address)
    (hl : l.source = address → ∀ id token nodes, l.call ≠ .getPeersResponse id token nodes) :
    (s.step inet l).Inv address := by
  have hstep := tokens_step inet s l
  have hframe : (s.step inet l).node.tokens address = s.node.tokens address →
      (s.step inet l).sent address = s.sent address →
      (s.step inet l).last address = s.last address → (s.step inet l).Inv address := by
    intro htokens hsent hlast
    exact ⟨by rw [htokens, hsent]; exact h.sent, by rw [htokens, hlast]; exact h.last⟩
  by_cases hsource : l.source = address
  · subst hsource
    cases hcall : l.call with
    | getPeersQuery =>
      simp only [hcall] at hstep
      obtain ⟨token, htokens, hsent, hlast⟩ := hstep
      constructor <;> simp [htokens, hsent, hlast]
    | getPeersResponse id token nodes => exact absurd hcall (hl rfl id token nodes)
    | announcePeerQuery =>
      simp only [hcall] at hstep
      obtain ⟨htokens, hsent, hlast⟩ := hstep
      refine ⟨fun token expire => ?_, by simp [hlast]⟩
      rw [hsent]
      rcases htokens with htokens | htokens <;> rw [htokens]
      · exact h.sent token expire
      · simp
    | _ =>
      simp only [hcall] at hstep
      exact hframe (congrFun hstep.1 _) (congrFun hstep.2.1 _) (congrFun hstep.2.2 _)
  · have hne := Ne.symm hsource
    cases hcall : l.call with
    | getPeersQuery =>
      simp only [hcall] at hstep
      obtain ⟨token, htokens, hsent, hlast⟩ := hstep
      exact hframe (by simp [htokens, hne]) (by simp [hsent, hne]) (by simp [hlast, hne])
    | announcePeerQuery =>
      simp only [hcall] at hstep
      obtain ⟨htokens, hsent, hlast⟩ := hstep
      refine hframe ?_ (by rw [hsent]) (by simp [hlast, hne])
      rcases htokens with htokens | htokens <;> simp [htokens, hne]
    | _ =>
      simp only [hcall] at hstep
      exact hframe (by simp [hstep.1, hne]) (congrFun hstep.2.1 _) (congrFun hstep.2.2 _)

theorem Inv.guarded (h : s.Inv l.source) : s.Guarded inet l := by
  intro transactionId infoHash peerPort token hcall
  have hstore : (s.step inet l).node.peerStore =
      if ∃ entry ∈ s.node.tokens l.source, entry.1 = token ∧ l.now ≤ entry.2 then
        update s.node.peerStore infoHash (s.node.peerStore infoHash ++
          [{ ip := l.source.1, port := peerPort, expireMs := l.now + 3600000 }])
      else s.node.peerStore := by
    obtain ⟨⟨ip, port⟩, now, call⟩ := l
    cases hcall
    simp only [step_announce, DhtNode.handleAnnouncePeerQuery]
    split <;> rfl
  rw [hstore]
  constructor
  · intro hchanged
    obtain ⟨⟨token', expire⟩, hentry, rfl, hnow⟩ := by_contra fun hnot => hchanged (if_neg hnot)
    exact ⟨_, h.sent _ _ hentry, by omega⟩
  · intro t hlast hnow
    rw [if_pos ⟨_, h.last token t hlast, rfl, hnow⟩, update_self]

/-- Without responses from an address, the tokens for it are the ones that were sent to it. -/
theorem guarded_run (inet : Inet) (nodeId : DhtNodeId) (address : Bytes × UInt16)
    (events : List DhtEvent) (h : ∀ l ∈ events, l.source = address → ∀ id token nodes,
      l.call ≠ .getPeersResponse id token nodes) :
    Along (step inet) (fun s l => l.source = address → s.Guarded inet l)
      { node := { nodeId } } events :=
  along_of_invariant (I := fun s => s.Inv address) (fun _ _ hinv hl => hinv.step hl)
    (fun _ _ hinv _ hsource => (hsource ▸ hinv).guarded) ⟨nofun, nofun⟩
    (along_of_forall_mem h _)

/-- The token 0 is sent to one address, and a response comes from another one. -/
theorem guarded_run_announce :
    Along (step ⟨(·), (·), fun _ _ => rfl⟩) (fun s l => l.source = ([10, 0, 0, 1], 6881) →
        s.Guarded ⟨(·), (·), fun _ _ => rfl⟩ l) { node := { nodeId := 0 } }
      [⟨([10, 0, 0, 1], 6881), 0, .getPeersQuery [] 1 2⟩,
        ⟨([10, 0, 0, 2], 6881), 1, .getPeersResponse 3 [1] []⟩,
        ⟨([10, 0, 0, 1], 6881), 600000, .announcePeerQuery [] 2 80 [48]⟩] :=
  guarded_run _ 0 ([10, 0, 0, 1], 6881) _ (by simp)

/-- A node announces itself with the token that it has sent in a response. -/
theorem not_guarded_response :
    ¬Along (step ⟨(·), (·), fun _ _ => rfl⟩) (fun s l => l.source = ([10, 0, 0, 1], 6881) →
        s.Guarded ⟨(·), (·), fun _ _ => rfl⟩ l) { node := { nodeId := 0 } }
      [⟨([10, 0, 0, 1], 6881), 0, .getPeersResponse 3 [1] []⟩,
        ⟨([10, 0, 0, 1], 6881), 1, .announcePeerQuery [] 2 80 [1]⟩] := by
  rintro ⟨-, h, -⟩
  obtain ⟨t, hsent, -⟩ := (h rfl _ _ _ _ rfl).1 fun hsame => nomatch congrFun hsame 2
  cases hsent

end DhtRun

end ServerLib.BitTorrent
