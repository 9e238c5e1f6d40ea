import ServerLib.BitTorrent.PieceDownload
import ServerLib.Lib.Run

/-! The requests that a `PeerConnection` waits for: the list `pending_requests_`, and the counter
beside it. -/

namespace ServerLib.BitTorrent

open Lib

/-- The messages of a peer, with what `handle_message` compares with the requests; a number that the
payload is too short for is 0. -/
inductive PeerInput
  | piece (pieceIndex offset : Nat)
  | cancel (pieceIndex offset length : Nat)
  | rejectRequest (pieceIndex offset length : Nat)
  /-- `choke`, `have`, `request`, and all others -/
  | other (id : UInt8)
deriving DecidableEq

/-- The message is about the request. -/
def PeerInput.names (request : PieceBlockRequest) : PeerInput → Bool
  | piece pieceIndex offset => request.pieceIndex = pieceIndex ∧ request.offset = offset
  | cancel pieceIndex offset length | rejectRequest pieceIndex offset length =>
    request.pieceIndex = pieceIndex ∧ request.offset = offset ∧ request.length = length
  | other _ => false

/-- What happens at a connection that is connected.  The requests that handlers send come after the
message that they are called for.  After `on_error` and `on_close`, which set the counter to 0 and
keep the list, it is not connected. -/
inductive PeerEvent
  | sendRequest (pieceIndex offset length : Nat)
  | receive (message : PeerInput)
  /-- `take_pending_requests`, or a new connection -/
  | reset
deriving DecidableEq

structure PeerConnection where
  pendingRequests : List PieceBlockRequest := []
  pendingRequestCount : UInt32 := 0
deriving DecidableEq

namespace PeerConnection

variable (c : PeerConnection)

/-- The counter, counted down if it is positive. -/
def lessOne : UInt32 :=
  if c.pendingRequestCount > 0 then c.pendingRequestCount - 1 else c.pendingRequestCount

def handleMessage (message : PeerInput) : PeerConnection :=
  let rest := c.pendingRequests.filter fun request => !message.names request
  match message with
  | .piece _ _ =>
    { pendingRequests := rest
      pendingRequestCount :=
        if rest.length < c.pendingRequests.length then c.lessOne else c.pendingRequestCount }
  | .cancel _ _ _ =>
    if c.pendingRequests.any message.names then
      { pendingRequests := c.pendingRequests.eraseP message.names
        pendingRequestCount := c.lessOne }
    else c
  | .rejectRequest _ _ _ => { pendingRequests := rest, pendingRequestCount := c.lessOne }
  | .other _ => c

def step : PeerEvent → PeerConnection
  | .sendRequest pieceIndex offset length =>
    { pendingRequests := c.pendingRequests ++ [⟨pieceIndex, offset, length, 0⟩]
      pendingRequestCount := c.pendingRequestCount + 1 }
  | .receive message => c.handleMessage message
  | .reset => {}

end PeerConnection

/-- The event ends the wait for the request: a piece or a rejection, or all are forgotten. -/
def PeerEvent.settles (request : PieceBlockRequest) : PeerEvent → Bool
  | .sendRequest _ _ _ | .receive (.cancel _ _ _) => false
  | .receive message => message.names request
  | .reset => true

/-- The requests of a history that nothing after them settles. -/
def outstanding : List PeerEvent → List PieceBlockRequest
  | [] => []
  | .sendRequest pieceIndex offset length :: later =>
    if later.any (·.settles ⟨pieceIndex, offset, length, 0⟩) then outstanding later
    else ⟨pieceIndex, offset, length, 0⟩ :: outstanding later
  | _ :: later => outstanding later

theorem outstanding_append (history : List PeerEvent) (e : PeerEvent) :
    outstanding (history ++ [e]) =
      (outstanding history).filter (fun request => !e.settles request) ++ outstanding [e] := by
  induction history with
  | nil => rfl
  | cons e' history ih =>
    cases e' with
    | sendRequest pieceIndex offset length =>
      simp only [List.cons_append, outstanding, ih, List.any_append, List.any_cons, List.any_nil]
      cases history.any (·.settles ⟨pieceIndex, offset, length, 0⟩) <;>
        cases h : e.settles ⟨pieceIndex, offset, length, 0⟩ <;> simp [h]
    | receive | reset => exact ih

namespace PeerConnection

/-- The list holds the requests that are waited for, and the counter is its length. -/
def Tracks (c : PeerConnection) (history : List PeerEvent) : Prop :=
  c.pendingRequestCount.toNat = c.pendingRequests.length ∧ c.pendingRequests = outstanding history

/-- The counter has room, a piece is about one request at most, a rejection is about exactly one,
and a cancellation is about none. -/
def Regular (c : PeerConnection) : PeerEvent → Prop
  | .sendRequest _ _ _ => c.pendingRequests.length + 1 < 2 ^ 32
  | .receive message =>
    match message with
    | .piece _ _ => c.pendingRequests.countP (message.names ·) ≤ 1
    | .cancel _ _ _ => c.pendingRequests.countP (message.names ·) = 0
    | .rejectRequest _ _ _ => c.pendingRequests.countP (message.names ·) = 1
    | .other _ => True
  | .reset => True

variable {c : PeerConnection}

theorem toNat_lessOne : c.lessOne.toNat = c.pendingRequestCount.toNat - 1 := by
  rw [lessOne]
  split_ifs with hpos
  · have hle : (1 : UInt32) ≤ c.pendingRequestCount := UInt32.le_iff_toNat_le.mpr hpos
    rw [UInt32.toNat_sub_of_le _ _ hle]
    rfl
  · have hzero : ¬0 < c.pendingRequestCount.toNat := hpos
    omega

theorem length_filter_names (message : PeerInput) :
    (c.pendingRequests.filter fun request => !message.names request).length =
      c.pendingRequests.length - c.pendingRequests.countP (message.names ·) := by
  have h := List.length_eq_countP_add_countP (message.names ·) (l := c.pendingRequests)
  rw [← List.countP_eq_length_filter]
  simp at h ⊢
  omega

theorem step_cancel (he : c.Regular (.receive (.cancel pieceIndex offset length))) :
    c.step (.receive (.cancel pieceIndex offset length)) = c := by
  have hnone : (c.pendingRequests.any fun request =>
      PeerInput.names request (.cancel pieceIndex offset length)) = false := by
    simpa [Regular, List.countP_eq_zero] using he
  simp [step, handleMessage, hnone]

theorem pendingRequests_step {e : PeerEvent} (he : c.Regular e) :
    (c.step e).pendingRequests =
      (c.pendingRequests.filter fun request => !e.settles request) ++ outstanding [e] := by
  cases e with
  | sendRequest | reset => simp [PeerConnection.step, PeerEvent.settles, outstanding]
  | receive message =>
    cases message with
    | cancel pieceIndex offset length =>
      rw [step_cancel he]
      simp [PeerEvent.settles, outstanding]
    | piece | rejectRequest | other =>
      simp [PeerConnection.step, handleMessage, PeerEvent.settles, PeerInput.names, outstanding]

theorem Tracks.step {e : PeerEvent} (h : c.Tracks history) (he : c.Regular e) :
    (c.step e).Tracks (history ++ [e]) := by
  obtain ⟨hcount, hlist⟩ := h
  refine ⟨?_, by rw [pendingRequests_step he, outstanding_append, hlist]⟩
  cases e with
  | sendRequest pieceIndex offset length =>
    simp only [PeerConnection.step, UInt32.toNat_add, hcount, List.length_append]
    exact Nat.mod_eq_of_lt he
  | reset => rfl
  | receive message =>
    have hlength := length_filter_names (c := c) message
    have hless := toNat_lessOne (c := c)
    cases message with
    | piece pieceIndex offset =>
      simp only [Regular] at he
      simp only [PeerConnection.step, handleMessage]
      split <;> omega
    | cancel pieceIndex offset length =>
      rw [step_cancel he]
      exact hcount
    | rejectRequest pieceIndex offset length =>
      simp only [Regular] at he
      simp only [PeerConnection.step, handleMessage]
      omega
    | other => exact hcount

/-- Every state of a run of regular events holds the requests that are waited for. -/
theorem tracks_run {history : List PeerEvent} (h : Along step Regular {} history) :
    (run step {} history).Tracks history := by
  induction history using List.reverseRecOn with
  | nil => exact ⟨rfl, rfl⟩
  | append_singleton history e ih =>
    rw [along_append] at h
    rw [run_append]
    exact (ih h.1).step h.2.1

/-- A request is rejected and sent again, and a cancellation comes for another one. -/
theorem tracks_answered :
    (run step {} [.sendRequest 1 0 5, .receive (.rejectRequest 1 0 5), .sendRequest 1 0 5,
      .receive (.cancel 2 0 5)]).Tracks [.sendRequest 1 0 5, .receive (.rejectRequest 1 0 5),
      .sendRequest 1 0 5, .receive (.cancel 2 0 5)] :=
  tracks_run (by simp [Regular, PeerConnection.step, handleMessage, PeerInput.names])

/-- The peer's own cancellation takes away our request. -/
theorem not_tracks_cancelled :
    ¬(run step {} [.sendRequest 1 0 5, .receive (.cancel 1 0 5)]).Tracks
      [.sendRequest 1 0 5, .receive (.cancel 1 0 5)] := by
  unfold Tracks
  decide

end PeerConnection

end ServerLib.BitTorrent
