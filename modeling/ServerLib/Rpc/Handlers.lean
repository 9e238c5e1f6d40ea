import ServerLib.Rpc.Session

/-! Which handlers are called, and how often, over every run of a session. -/

namespace ServerLib.Rpc.System

open Lib PendingCallRegistry List

section

variable (s : System)

def called : List Nat := s.invoked.map Invocation.handler

/-- The handlers that wait, and those that were called. -/
def handlers : List Nat := s.session.pending.waiting ++ s.called

/-- A handler is called with responses that carry the number of its call. -/
def OwnOnly : Prop :=
  ∀ invocation ∈ s.invoked,
    (s.tickets.lookup invocation.handler).map Ticket.id = some invocation.response.requestId

def AtMostOnce : Prop := ∀ call ∈ s.accepted, s.called.count call ≤ 1

def ExactlyOnce : Prop := ∀ call ∈ s.accepted, s.called.count call = 1

/-- The complete frames in front of a buffer, and what stays in it.  It is dropped at a frame that
cannot be decoded. -/
inductive Frames (options : DecodeOptions) : Bytes → List DecodedFrame → Bytes → Prop
  | incomplete (h : decodeFrame buffer options = .error .needMore) : Frames options buffer [] buffer
  | dropped (h : decodeFrame buffer options = .error error) (hmore : error ≠ .needMore) :
      Frames options buffer [] []
  | frame (h : decodeFrame buffer options = .ok (frame, consumed))
      (hrest : Frames options (buffer.drop consumed) frames left) :
      Frames options buffer (frame :: frames) left

/-- The call has its number and its deadline. -/
def Ticketed (call : Nat) (P : UInt64 → Int → Prop) : Prop :=
  ∃ ticket, s.tickets.lookup call = some ticket ∧ P ticket.id ticket.deadline

/-- The event ends the call: it brings a response with the number of the call, or a send with this
number fails, or the time of the call is over. -/
def Ends (call : Nat) : Event → Prop
  | .receiveBytes data =>
    ∃ frames left, Frames s.session.decoder.options (s.session.decoder.buffer ++ data) frames left ∧
      ∃ frame ∈ frames, frame.header.kind = .response ∧
        s.Ticketed call fun id _ => id = frame.header.requestId
  | .finishSend call' sent =>
    ∃ sending, s.sending.lookup call' = some sending ∧ ¬(sending.encoded ∧ sent) ∧
      s.Ticketed call fun id _ => id = sending.id
  | .pollTimeouts now => s.Ticketed call fun _ deadline => deadline ≠ 0 ∧ deadline ≤ now
  | _ => False

end

/-- One of the events ends the call. -/
def Ended (s : System) (call : Nat) : List Event → Prop
  | [] => False
  | event :: events => s.Ends call event ∨ Ended (s.step event) call events

/-- The number of a call is not in use yet. -/
def Unused (s : System) : Event → Prop
  | .beginSend .. => s.session.pending.calls.lookup s.session.pending.freshId = none
  | _ => True

instance (s : System) : (event : Event) → Decidable (s.Unused event)
  | .beginSend .. => inferInstanceAs (Decidable (_ = _))
  | .finishSend .. => .isTrue trivial
  | .push _ => .isTrue trivial
  | .receiveBytes _ => .isTrue trivial
  | .pollTimeouts _ => .isTrue trivial
  | .setServer _ => .isTrue trivial
  | .close => .isTrue trivial

/-- From `s` to `s'` calls have left the table, and the handler of each was called. -/
structure Moves (s s' : System) : Prop where
  handlers : s'.handlers.Perm s.handlers
  calls : s'.session.pending.calls.Sublist s.session.pending.calls
  own : ∀ invocation ∈ s'.invoked, invocation ∈ s.invoked ∨
    ∃ entry ∈ s.session.pending.calls,
      entry.2.handler = invocation.handler ∧ entry.1 = invocation.response.requestId
  begun : s'.begun = s.begun
  tickets : s'.tickets = s.tickets

variable (s : System)

theorem Moves.of_eq {s s' : System} (hpending : s'.session.pending = s.session.pending := by rfl)
    (hinvoked : s'.invoked = s.invoked := by rfl) (hbegun : s'.begun = s.begun := by rfl)
    (htickets : s'.tickets = s.tickets := by rfl) : Moves s s' where
  handlers := by rw [System.handlers, System.handlers, called, called, hpending, hinvoked]
  calls := by rw [hpending]
  own _ h := .inl (hinvoked ▸ h)
  begun := hbegun
  tickets := htickets

theorem Moves.trans (h : Moves s₁ s₂) (h' : Moves s₂ s₃) : Moves s₁ s₃ where
  handlers := h'.handlers.trans h.handlers
  calls := h'.calls.trans h.calls
  own invocation hmem := by
    rcases h'.own invocation hmem with hbefore | ⟨entry, hentry, hown⟩
    · exact h.own invocation hbefore
    · exact .inr ⟨entry, h.calls.subset hentry, hown⟩
  begun := h'.begun.trans h.begun
  tickets := h'.tickets.trans h.tickets

theorem moves_answer {s : System} {answered : List Invocation × PendingCallRegistry}
    (h : Answers s.session.pending answered.2 answered.1) : Moves s (s.answer answered) where
  handlers := by
    have hperm := h.waiting.append_right (s.invoked.map Invocation.handler)
    rw [append_assoc] at hperm
    have hcalled : (s.answer answered).called = s.called ++ answered.1.map Invocation.handler :=
      map_append
    rw [handlers, hcalled]
    exact (perm_append_comm.append_left _).trans hperm
  calls := h.calls
  own invocation hmem := by
    rcases mem_append.mp hmem with hbefore | hnow
    · exact .inl hbefore
    · exact .inr (h.own invocation hnow)
  begun := rfl
  tickets := rfl

theorem moves_handleFrame (frame : DecodedFrame) : Moves s (s.handleFrame frame) := by
  rw [handleFrame]
  split
  · exact moves_answer (answers_complete _ _)
  split
  · exact .of_eq
  dsimp only
  split
  · exact .of_eq
  · split <;> exact .of_eq

theorem moves_foldl (frames : List DecodedFrame) (s : System) :
    Moves s (frames.foldl handleFrame s) := by
  induction frames generalizing s with
  | nil => exact .of_eq
  | cons frame frames ih => exact (moves_handleFrame s frame).trans (ih _)

theorem handleFrame_withDecoder (decoder : FrameStreamDecoder) (frame : DecodedFrame) :
    (s.withDecoder decoder).handleFrame frame = (s.handleFrame frame).withDecoder decoder := by
  obtain ⟨⟨server, _, _, _⟩, isOpen, _, _, _, _, _, _⟩ := s
  simp only [handleFrame, withDecoder]
  split
  · rfl
  · cases server with
    | none => rfl
    | some handle =>
      dsimp only
      cases isOpen <;> split <;> rfl

theorem foldl_withDecoder (decoder : FrameStreamDecoder) (frames : List DecodedFrame) (s : System) :
    frames.foldl handleFrame (s.withDecoder decoder) =
      (frames.foldl handleFrame s).withDecoder decoder := by
  induction frames generalizing s with
  | nil => rfl
  | cons frame frames ih => rw [foldl_cons, foldl_cons, handleFrame_withDecoder, ih]

theorem Frames.unique (h : Frames options buffer frames left)
    (h' : Frames options buffer frames' left') : frames = frames' ∧ left = left' := by
  induction h generalizing frames' left' with
  | incomplete h | dropped h =>
    cases h' with
    | incomplete h' | dropped h' | frame h' => simp_all
  | frame h _ ih =>
    cases h' with
    | incomplete h' | dropped h' => simp_all
    | frame h' hrest' =>
      cases h.symm.trans h'
      obtain ⟨rfl, rfl⟩ := ih hrest'
      exact ⟨rfl, rfl⟩

theorem receiveLoop_eq (limit : Nat) (s : System)
    (hlimit : s.session.decoder.buffer.length < limit) :
    ∃ frames left, Frames s.session.decoder.options s.session.decoder.buffer frames left ∧
      receiveLoop limit s =
        (frames.foldl handleFrame s).withDecoder { s.session.decoder with buffer := left } := by
  induction limit generalizing s with
  | zero => omega
  | succ limit ih =>
    rw [receiveLoop, FrameStreamDecoder.next]
    cases hdecode : decodeFrame s.session.decoder.buffer s.session.decoder.options with
    | error error =>
      cases error with
      | needMore => exact ⟨[], _, .incomplete hdecode, rfl⟩
      | _ => exact ⟨[], [], .dropped hdecode nofun, rfl⟩
    | ok decoded =>
      obtain ⟨frame, consumed⟩ := decoded
      obtain ⟨hleast, hconsumed⟩ := consumed_of_decodeFrame hdecode
      have hheader : 0 < headerSize := by decide
      dsimp only
      rw [handleFrame_withDecoder]
      set decoder : FrameStreamDecoder :=
        { s.session.decoder with buffer := s.session.decoder.buffer.drop consumed }
      have hshorter : decoder.buffer.length < limit := by
        rw [length_drop]
        omega
      obtain ⟨frames, left, hframes, hloop⟩ :=
        ih ((s.handleFrame frame).withDecoder decoder) hshorter
      refine ⟨frame :: frames, left, .frame hdecode hframes, ?_⟩
      rw [hloop, foldl_cons, foldl_withDecoder]
      rfl

theorem receiveBytes_eq (data : Bytes) :
    ∃ frames left,
      Frames s.session.decoder.options (s.session.decoder.buffer ++ data) frames left ∧
        s.receiveBytes data =
          (frames.foldl handleFrame s).withDecoder { s.session.decoder with buffer := left } := by
  obtain ⟨frames, left, hframes, hloop⟩ := receiveLoop_eq _
    (s.withDecoder (s.session.decoder.append data)) (Nat.lt_succ_self _)
  refine ⟨frames, left, hframes, hloop.trans ?_⟩
  rw [foldl_withDecoder]
  rfl

theorem Frames.next (h : Frames options buffer frames left) :
    (FrameStreamDecoder.mk options left).next.1 = .error .needMore := by
  induction h with
  | incomplete h => rw [FrameStreamDecoder.next, h]
  | dropped => rfl
  | frame _ _ ih => exact ih

/-- Every complete frame that is in the buffer with the new bytes is handled, one after the other,
and no other.  What stays in the buffer is no complete frame. -/
theorem next_receiveBytes (data : Bytes) :
    ∃ frames left,
      Frames s.session.decoder.options (s.session.decoder.buffer ++ data) frames left ∧
        s.receiveBytes data =
          (frames.foldl handleFrame s).withDecoder { s.session.decoder with buffer := left } ∧
        (s.receiveBytes data).session.decoder.next.1 = .error .needMore := by
  obtain ⟨frames, left, hframes, heq⟩ := s.receiveBytes_eq data
  refine ⟨frames, left, hframes, heq, ?_⟩
  rw [heq]
  exact hframes.next

theorem moves_receiveBytes (data : Bytes) : Moves s (s.receiveBytes data) := by
  obtain ⟨frames, left, -, heq⟩ := s.receiveBytes_eq data
  rw [heq]
  exact (moves_foldl frames s).trans .of_eq

theorem beginSend_cases (message : Message) (hasHandler : Bool)
    (options : CallOptions) (now : Int) :
    s.beginSend message hasHandler options now = { s with begun := s.begun + 1 } ∨
      ∃ pending call frame, call.handler = s.begun ∧
        pending.calls =
          (if (s.session.pending.calls.lookup s.session.pending.freshId).isSome then
            s.session.pending.calls
          else s.session.pending.calls ++ [(s.session.pending.freshId, call)]) ∧
        s.beginSend message hasHandler options now =
          s.started ⟨s.session.pending.freshId, call.deadline⟩ pending frame := by
  rw [beginSend]
  by_cases hopen : s.isOpen = true
  · rw [if_neg (by simpa using hopen)]
    cases hasHandler with
    | false => exact .inl rfl
    | true =>
      let call : PendingCall :=
        ⟨s.begun, deadlineOf options.timeout now, options.coroutineId⟩
      refine .inr ⟨_, call, _, rfl, ?_, if_neg (freshId_ne_zero _)⟩
      rfl
  · rw [if_pos hopen]
    exact .inl rfl

/-- What holds in every run. -/
structure Inv (s : System) : Prop where
  nodup : s.handlers.Nodup
  begun : ∀ handler ∈ s.handlers, handler < s.begun
  tickets : ∀ entry ∈ s.session.pending.calls,
    s.tickets.lookup entry.2.handler = some ⟨entry.1, entry.2.deadline⟩
  own : s.OwnOnly

/-- What holds in a run in which no number comes round that is in use. -/
structure Kept (s : System) : Prop where
  keys : (s.session.pending.calls.map Prod.fst).Nodup
  ticketed : ∀ call ticket, s.tickets.lookup call = some ticket → call ∈ s.handlers

variable {s s' : System}

theorem mem_handlers_of_call (h : entry ∈ s.session.pending.calls) : entry.2.handler ∈ s.handlers :=
  mem_append_left _ (mem_map_of_mem h)

theorem mem_handlers_of_invoked (h : invocation ∈ s.invoked) : invocation.handler ∈ s.handlers :=
  mem_append_right _ (mem_map_of_mem h)

theorem Inv.moves (h : Inv s) (hmoves : Moves s s') : Inv s' where
  nodup := hmoves.handlers.nodup_iff.mpr h.nodup
  begun handler hmem := by
    rw [hmoves.begun]
    exact h.begun handler (hmoves.handlers.mem_iff.mp hmem)
  tickets entry hmem := by
    rw [hmoves.tickets]
    exact h.tickets entry (hmoves.calls.subset hmem)
  own invocation hmem := by
    rw [hmoves.tickets]
    rcases hmoves.own invocation hmem with hbefore | ⟨entry, hentry, hhandler, hid⟩
    · exact h.own invocation hbefore
    · rw [← hhandler, ← hid, h.tickets entry hentry]
      rfl

theorem Kept.moves (h : Kept s) (hmoves : Moves s s') : Kept s' where
  keys := h.keys.sublist (hmoves.calls.map Prod.fst)
  ticketed call ticket hticket := by
    rw [hmoves.tickets] at hticket
    exact hmoves.handlers.mem_iff.mpr (h.ticketed call ticket hticket)

theorem lookup_tickets_cons (ticket : Ticket) (h : handler < s.begun) :
    ((s.begun, ticket) :: s.tickets).lookup handler = s.tickets.lookup handler := by
  have hne : (handler == s.begun) = false := by simp; omega
  rw [lookup_cons, hne]

theorem handlers_started (ticket : Ticket) (pending : PendingCallRegistry)
    (frame : Option Bytes) :
    (s.started ticket pending frame).handlers =
      pending.waiting ++ s.invoked.map Invocation.handler := rfl

theorem perm_of_created {id : UInt64} {call : PendingCall} (hcall : call.handler = s.begun)
    (hcalls : pending.calls = s.session.pending.calls ++ [(id, call)]) (ticket : Ticket)
    (frame : Option Bytes) :
    (s.started ticket pending frame).handlers.Perm (s.begun :: s.handlers) := by
  rw [handlers_started, handlers, waiting, hcalls, map_append,
    append_assoc, map_singleton, hcall]
  exact perm_middle

theorem inv_beginSend (h : Inv s) (message : Message) (hasHandler : Bool) (options : CallOptions)
    (now : Int) : Inv (s.beginSend message hasHandler options now) := by
  rcases beginSend_cases s message hasHandler options now with
    heq | ⟨pending, call, frame, hcall, hcalls, heq⟩
  · rw [heq]
    exact ⟨h.nodup, fun handler hmem => Nat.lt_succ_of_lt (h.begun handler hmem), h.tickets, h.own⟩
  · rw [heq]
    have hown : ∀ invocation ∈ s.invoked,
        (((s.begun, Ticket.mk s.session.pending.freshId call.deadline) :: s.tickets).lookup
          invocation.handler).map Ticket.id = some invocation.response.requestId := by
      intro invocation hmem
      rw [lookup_tickets_cons _ (h.begun _ (mem_handlers_of_invoked hmem))]
      exact h.own invocation hmem
    have htickets : ∀ entry ∈ s.session.pending.calls,
        ((s.begun, Ticket.mk s.session.pending.freshId call.deadline) :: s.tickets).lookup
          entry.2.handler = some ⟨entry.1, entry.2.deadline⟩ := by
      intro entry hmem
      rw [lookup_tickets_cons _ (h.begun _ (mem_handlers_of_call hmem))]
      exact h.tickets entry hmem
    split at hcalls
    -- the number is in use, and the handler is dropped
    · have hhandlers :
          (s.started ⟨s.session.pending.freshId, call.deadline⟩ pending frame).handlers =
          s.handlers := by
        rw [handlers_started, waiting, hcalls]
        rfl
      refine ⟨?_, ?_, ?_, hown⟩
      · rw [hhandlers]
        exact h.nodup
      · intro handler hmem
        rw [hhandlers] at hmem
        exact Nat.lt_succ_of_lt (h.begun handler hmem)
      · exact hcalls ▸ htickets
    · have hhandlers :=
        perm_of_created hcall hcalls ⟨s.session.pending.freshId, call.deadline⟩ frame
      refine ⟨?_, ?_, ?_, hown⟩
      · refine hhandlers.nodup_iff.mpr (nodup_cons.mpr ⟨fun hmem => ?_, h.nodup⟩)
        exact Nat.lt_irrefl _ (h.begun _ hmem)
      · intro handler hmem
        rcases mem_cons.mp (hhandlers.mem_iff.mp hmem) with rfl | hbefore
        · exact Nat.lt_succ_self _
        · exact Nat.lt_succ_of_lt (h.begun handler hbefore)
      · intro entry hmem
        change entry ∈ pending.calls at hmem
        rw [hcalls] at hmem
        rcases mem_append.mp hmem with hbefore | hnow
        · exact htickets entry hbefore
        · cases mem_singleton.mp hnow
          rw [hcall]
          exact lookup_cons_self

theorem kept_beginSend (h : Kept s) {options : CallOptions}
    (hunused : s.Unused (.beginSend message hasHandler options now)) :
    Kept (s.beginSend message hasHandler options now) := by
  rcases beginSend_cases s message hasHandler options now with
    heq | ⟨pending, call, frame, hcall, hcalls, heq⟩
  · rw [heq]
    exact ⟨h.keys, h.ticketed⟩
  · have hfree : s.session.pending.calls.lookup s.session.pending.freshId = none := hunused
    rw [hfree, if_neg (by decide)] at hcalls
    rw [heq]
    constructor
    · change (pending.calls.map Prod.fst).Nodup
      rw [hcalls, map_append, map_singleton, ← concat_eq_append, nodup_concat]
      refine ⟨fun hmem => ?_, h.keys⟩
      obtain ⟨entry, hentry, hid⟩ := mem_map.mp hmem
      have hne := lookup_eq_none_iff.mp hfree entry hentry
      simp [hid] at hne
    · intro call' ticket hticket
      refine (perm_of_created hcall hcalls _ frame).mem_iff.mpr ?_
      by_cases hsame : call' = s.begun
      · exact hsame ▸ mem_cons_self
      · have hne : (call' == s.begun) = false := by simpa using hsame
        change ((s.begun, _) :: s.tickets).lookup call' = some ticket at hticket
        rw [lookup_cons, hne] at hticket
        exact mem_cons_of_mem _ (h.ticketed call' ticket hticket)

theorem finishSend_cases (s : System) (call : Nat) (sent : Bool) :
    s.finishSend call sent = s ∧ s.sending.lookup call = none ∨
      ∃ sending, s.sending.lookup call = some sending ∧
        (sending.encoded ∧ sent ∧ s.finishSend call sent =
            { s with
              sending := s.sending.filter fun entry => entry.1 ≠ call
              accepted := call :: s.accepted } ∨
          ¬(sending.encoded ∧ sent) ∧ s.finishSend call sent =
            { s with sending := s.sending.filter fun entry => entry.1 ≠ call }.answer
              (s.session.pending.cancel sending.id "send failed")) := by
  rw [finishSend]
  cases s.sending.lookup call with
  | none => exact .inl ⟨rfl, rfl⟩
  | some sending =>
    refine .inr ⟨sending, rfl, ?_⟩
    dsimp only
    split_ifs with hsent
    · exact .inl ⟨hsent.1, hsent.2, rfl⟩
    · exact .inr ⟨hsent, rfl⟩

/-- Only the begin of a send adds to the table. -/
theorem moves_step_or_beginSend (s : System) (event : Event) :
    Moves s (s.step event) ∨
      ∃ message hasHandler options now, event = .beginSend message hasHandler options now := by
  cases event with
  | beginSend message hasHandler options now => exact .inr ⟨message, hasHandler, options, now, rfl⟩
  | finishSend call sent =>
    rw [step]
    rcases finishSend_cases s call sent with ⟨heq, -⟩ | ⟨sending, -, ⟨-, -, heq⟩ | ⟨-, heq⟩⟩
    · rw [heq]
      exact .inl .of_eq
    · rw [heq]
      exact .inl .of_eq
    · rw [heq]
      have hfiltered : Moves s { s with sending := s.sending.filter fun entry => entry.1 ≠ call } :=
        .of_eq
      exact .inl (hfiltered.trans (moves_answer (answers_cancel _ _ _)))
  | push message =>
    rw [step, push]
    split <;> exact .inl .of_eq
  | receiveBytes data => exact .inl (moves_receiveBytes s data)
  | pollTimeouts now => exact .inl (moves_answer (answers_expire _ _))
  | setServer server => exact .inl .of_eq
  | close =>
    rw [step, close]
    split <;> exact .inl .of_eq

theorem inv_step (h : Inv s) (event : Event) : Inv (s.step event) := by
  rcases moves_step_or_beginSend s event with hmoves | ⟨message, hasHandler, options, now, rfl⟩
  · exact h.moves hmoves
  · exact inv_beginSend h message hasHandler options now

theorem kept_step (h : Kept s) (event : Event) (hunused : s.Unused event) :
    Kept (s.step event) := by
  rcases moves_step_or_beginSend s event with hmoves | ⟨message, hasHandler, options, now, rfl⟩
  · exact h.moves hmoves
  · exact kept_beginSend h hunused

section Called

variable (hinv : Inv s) (hkept : Kept s)
include hinv hkept

/-- A call that was not answered yet is in the table, with its number and its deadline. -/
theorem called_or_waits_iff (call : Nat) (P : UInt64 → Int → Prop) :
    call ∈ s.called ∨ s.Ticketed call P ↔
      call ∈ s.called ∨ ∃ entry ∈ s.session.pending.calls,
        P entry.1 entry.2.deadline ∧ entry.2.handler = call := by
  constructor
  · rintro (hcalled | ⟨ticket, hticket, hP⟩)
    · exact .inl hcalled
    · rcases mem_append.mp (hkept.ticketed call ticket hticket) with hwaits | hcalled
      · obtain ⟨entry, hentry, rfl⟩ := mem_map.mp hwaits
        obtain rfl := Option.some.inj ((hinv.tickets entry hentry).symm.trans hticket)
        exact .inr ⟨entry, hentry, hP, rfl⟩
      · exact .inl hcalled
  · rintro (hcalled | ⟨entry, hentry, hP, rfl⟩)
    · exact .inl hcalled
    · exact .inr ⟨_, hinv.tickets entry hentry, hP⟩

theorem mem_called_handleFrame (frame : DecodedFrame) (call : Nat) :
    call ∈ (s.handleFrame frame).called ↔ call ∈ s.called ∨
      frame.header.kind = .response ∧ s.Ticketed call fun id _ => id = frame.header.requestId := by
  by_cases hkind : frame.header.kind = .response
  · have hcalled : (s.handleFrame frame).called =
        s.called ++ (s.session.pending.complete (toResponse frame)).1.map Invocation.handler := by
      rw [handleFrame, if_pos hkind]
      exact map_append
    rw [hcalled, mem_append, mem_complete_iff hkept.keys, and_iff_right hkind,
      called_or_waits_iff hinv hkept]
    refine or_congr_right ⟨?_, ?_⟩
    · rintro ⟨waits, hmem, rfl⟩
      exact ⟨_, hmem, rfl, rfl⟩
    · rintro ⟨⟨id, waits⟩, hmem, rfl, rfl⟩
      exact ⟨waits, hmem, rfl⟩
  · have hsame : (s.handleFrame frame).invoked = s.invoked := by
      rw [handleFrame, if_neg hkind]
      split
      · rfl
      dsimp only
      split
      · rfl
      · split <;> rfl
    rw [called, hsame, or_iff_left fun h => hkind h.1]
    rfl

end Called

theorem mem_called_foldl (hinv : Inv s) (hkept : Kept s) (frames : List DecodedFrame) (call : Nat) :
    call ∈ (frames.foldl handleFrame s).called ↔ call ∈ s.called ∨ ∃ frame ∈ frames,
      frame.header.kind = .response ∧ s.Ticketed call fun id _ => id = frame.header.requestId := by
  induction frames generalizing s with
  | nil => simp
  | cons frame frames ih =>
    have hmoves := moves_handleFrame s frame
    have hsame : ∀ P, (s.handleFrame frame).Ticketed call P ↔ s.Ticketed call P := by
      intro P
      rw [Ticketed, hmoves.tickets]
      rfl
    rw [foldl_cons, ih (hinv.moves hmoves) (hkept.moves hmoves), mem_called_handleFrame hinv hkept]
    simp only [hsame, mem_cons, or_and_right, exists_or, exists_eq_left, or_assoc]

/-- A step calls a handler exactly if it ends its call. -/
theorem mem_called_step (hinv : Inv s) (hkept : Kept s) (event : Event) (call : Nat) :
    call ∈ (s.step event).called ↔ call ∈ s.called ∨ s.Ends call event := by
  cases event with
  | beginSend message hasHandler options now =>
    have hsame : (s.beginSend message hasHandler options now).invoked = s.invoked := by
      rcases beginSend_cases s message hasHandler options now with heq | ⟨_, _, _, _, _, heq⟩
      · rw [heq]
      · rw [heq]
        rfl
    rw [step, called, hsame]
    exact (or_iff_left id).symm
  | finishSend call' sent =>
    rw [step]
    rcases finishSend_cases s call' sent with ⟨heq, hnone⟩ |
      ⟨sending, hsome, ⟨hencoded, hsent, heq⟩ | ⟨hfails, heq⟩⟩
    · rw [heq, Ends, hnone]
      simp
    · rw [heq, Ends, hsome]
      simp [called, hencoded, hsent]
    · have hcalled : (s.finishSend call' sent).called = s.called ++
          (s.session.pending.cancel sending.id "send failed").1.map Invocation.handler := by
        rw [heq]
        exact map_append
      have hends : s.Ends call (.finishSend call' sent) ↔
          s.Ticketed call fun id _ => id = sending.id := by
        rw [Ends, hsome]
        constructor
        · rintro ⟨_, hsame, -, hticket⟩
          rwa [Option.some.inj hsame]
        · exact fun hticket => ⟨sending, rfl, hfails, hticket⟩
      rw [hcalled, mem_append, mem_cancel_iff hkept.keys, hends, called_or_waits_iff hinv hkept]
      refine or_congr_right ⟨?_, ?_⟩
      · rintro ⟨waits, hmem, rfl⟩
        exact ⟨_, hmem, rfl, rfl⟩
      · rintro ⟨⟨id, waits⟩, hmem, rfl, rfl⟩
        exact ⟨waits, hmem, rfl⟩
  | push message =>
    rw [step, push]
    split <;> exact (or_iff_left id).symm
  | receiveBytes data =>
    obtain ⟨frames, left, hframes, heq⟩ := s.receiveBytes_eq data
    have hcalled : (s.receiveBytes data).called = (frames.foldl handleFrame s).called := by
      rw [heq]
      rfl
    rw [step, hcalled, mem_called_foldl hinv hkept, Ends]
    refine or_congr_right ⟨fun h => ⟨frames, left, hframes, h⟩, ?_⟩
    rintro ⟨frames', left', hframes', h⟩
    rw [(hframes.unique hframes').1]
    exact h
  | pollTimeouts now =>
    have hcalled : (s.pollTimeouts now).called =
        s.called ++ (s.session.pending.expire now).1.map Invocation.handler := map_append
    rw [step, hcalled, mem_append, mem_expire_iff, Ends, called_or_waits_iff hinv hkept]
    rfl
  | setServer server => exact (or_iff_left id).symm
  | close =>
    rw [step, close]
    split <;> exact (or_iff_left id).symm

/-- A run calls a handler exactly if one of its events ends the call. -/
theorem mem_called_run (hinv : Inv s) (hkept : Kept s) (hunused : Along step Unused s events)
    (call : Nat) :
    call ∈ (run step s events).called ↔ call ∈ s.called ∨ s.Ended call events := by
  induction events generalizing s with
  | nil => exact (or_iff_left id).symm
  | cons event events ih =>
    rw [run_cons, ih (inv_step hinv event) (kept_step hkept event hunused.1) hunused.2,
      mem_called_step hinv hkept, or_assoc]
    rfl

theorem inv_start (server : Option (Message → Response)) (encodeOptions : EncodeOptions)
    (decodeOptions : DecodeOptions) : Inv (start server encodeOptions decodeOptions) :=
  ⟨.nil, by simp [start, handlers, called, waiting], by simp [start],
    by simp [OwnOnly, start]⟩

theorem kept_start (server : Option (Message → Response)) (encodeOptions : EncodeOptions)
    (decodeOptions : DecodeOptions) : Kept (start server encodeOptions decodeOptions) :=
  ⟨.nil, by simp [start]⟩

theorem Inv.count_le_one (h : Inv s) (call : Nat) : s.called.count call ≤ 1 :=
  nodup_iff_count.mp (nodup_append.mp h.nodup).2.1 call

/-- In every run a handler is called at most once, and with its own response only.  If no number
comes round that is in use, the handlers of all calls have been called once exactly if every call
has been ended: by its response, by its timeout, or by a send that failed.  That the transport
closes is none of these. -/
theorem handlers_called (server : Option (Message → Response)) (encodeOptions : EncodeOptions)
    (decodeOptions : DecodeOptions) (events : List Event) :
    let first := start server encodeOptions decodeOptions
    let s := run step first events
    s.AtMostOnce ∧ s.OwnOnly ∧
      (Along step Unused first events →
        (s.ExactlyOnce ↔ ∀ call ∈ s.accepted, first.Ended call events)) := by
  intro first s
  have hfirst : Inv first := inv_start _ _ _
  have hinv : Inv s :=
    run_preserves (I := Inv) (fun _ event h => inv_step h event) hfirst events
  refine ⟨fun call _ => hinv.count_le_one call, hinv.own, fun hunused => ?_⟩
  refine forall₂_congr fun call _ => ?_
  have hcalled : call ∈ s.called ↔ first.Ended call events := by
    rw [mem_called_run hfirst (kept_start _ _ _) hunused]
    exact or_iff_right not_mem_nil
  have hle := hinv.count_le_one call
  rw [← hcalled, ← count_pos_iff]
  change s.called.count call = 1 ↔ _
  omega

/-- Two calls are sent; the second is answered while it is being sent, the first one twice. -/
def answeredCalls : List Event :=
  [.beginSend {} true {} 0, .finishSend 0 true, .beginSend {} true { timeout := 0 } 5,
    .receiveBytes (headerToBytes { kind := .response, requestId := 2 } 0), .finishSend 1 true,
    .receiveBytes ((headerToBytes { kind := .response, requestId := 1 } 0).take 20),
    .receiveBytes ((headerToBytes { kind := .response, requestId := 1 } 0).drop 20),
    .receiveBytes (headerToBytes { kind := .response, requestId := 1 } 0), .close]

instance (s : System) : Decidable s.ExactlyOnce := inferInstanceAs (Decidable (∀ _ ∈ _, _))

theorem exactlyOnce_answeredCalls :
    (run step (start none {} {}) answeredCalls).ExactlyOnce ∧
      ∀ call ∈ [0, 1], (start none {} {}).Ended call answeredCalls := by
  have hiff := (handlers_called none {} {} answeredCalls).2.2 (by decide +kernel)
  have hexactly : (run step (start none {} {}) answeredCalls).ExactlyOnce := by decide +kernel
  have haccepted : (run step (start none {} {}) answeredCalls).accepted = [1, 0] := by
    decide +kernel
  refine ⟨hexactly, fun call hmem => hiff.mp hexactly call ?_⟩
  rw [haccepted]
  exact mem_reverse.mp hmem

/-- The transport closes while a call without a timeout waits. -/
def unansweredCall : List Event :=
  [.beginSend {} true { timeout := 0 } 0, .finishSend 0 true, .close]

/-- The session is closed before the answer, and the handler is never called. -/
theorem not_exactlyOnce_unansweredCall :
    (run step (start none {} {}) unansweredCall).isOpen = false ∧
      (run step (start none {} {}) unansweredCall).accepted = [0] ∧
      (run step (start none {} {}) unansweredCall).called = [] ∧
      ¬ (run step (start none {} {}) unansweredCall).ExactlyOnce := by
  decide +kernel

end ServerLib.Rpc.System
