import ServerLib.Lib.Table
import ServerLib.Ssh.Channel

/-! The peer's messages for a channel: which channel they go to, and what the handlers are told.
What a handler answers comes with the message. -/

namespace ServerLib.Ssh

open Lib Function Option

inductive RequestType
  | exec | subsystem | ptyReq | shell | env | windowChange | signal | x11Req | authAgentReq
  | other (name : Text)
deriving DecidableEq

/-- The channel's own handler is told up to `onRequest`, and the session's from there on, which has
further functions in the place of `onChannelRequest` for some types. -/
inductive HandlerCall
  | onData (data : Bytes)
  | onWindowAdjust (bytesToAdd : UInt32)
  | onEof
  | onClose
  | onRequest (type : RequestType) (data : Bytes) (accepted : Bool)
  | onChannelData (data : Bytes)
  | onChannelClose
  | onExecRequest (command : Bytes)
  | onSubsystemRequest (name : Bytes)
  | openSubsystem (name : Bytes)
  | onShellRequest
  | onChannelRequest (type : RequestType) (data : Bytes)

/-- `accepts` is the answer of the channel's handler, and `grants` that of the session's. -/
structure SshChannelRequest where
  type : RequestType
  data : Bytes := []
  wantReply : Bool := false
  accepts : Bool := false
  grants : Bool := false

/-- The messages for a channel; `blocks` is what `on_eof` enqueues. -/
inductive PeerMessage
  | data (data : Bytes)
  | extendedData (data : Bytes)
  | windowAdjust (bytesToAdd : UInt32)
  | eof (blocks : List Bytes)
  | close
  | request (q : SshChannelRequest)

inductive Reply
  | message (message : ChannelMessage)
  | windowAdjust (recipient bytesToAdd : UInt32)
  | success (recipient : UInt32)
  | failure (recipient : UInt32)

/-- The messages that a channel only takes while it is open. -/
def PeerMessage.needsOpen : PeerMessage → Bool
  | .windowAdjust _ | .close => false
  | _ => true

def SshChannelRequest.reply (q : SshChannelRequest) (recipient : UInt32) (success : Bool) :
    List Reply :=
  if !q.wantReply then [] else if success then [.success recipient] else [.failure recipient]

/-- What the authorized key of a session restricts. An empty command is none. -/
structure AuthorizedKey where
  forcedCommand : Bytes := []
  noPty : Bool := false
  noX11Forwarding : Bool := false
  noAgentForwarding : Bool := false

def readString : Reader Bytes := do
  let length ← readU32
  fun rest => if rest.length < length.toNat then none
    else some (rest.take length.toNat, rest.drop length.toNat)

def defaultWindowSize : UInt32 := 2 * 1024 * 1024

structure PeerChannel extends SshChannel where
  localWindow : UInt32 := defaultWindowSize
  localMaxPacket : UInt32 := 32 * 1024
  hasHandler : Bool := false
  commandStarted : Bool := false
  ptyRequested : Bool := false
deriving DecidableEq

namespace PeerChannel

variable (key : AuthorizedKey) (subsystems : List Bytes) (c : PeerChannel)

def tell (call : HandlerCall) : List HandlerCall := if c.hasHandler then [call] else []

local instance : LawfulBEq Bytes := inferInstance

/-- The chain of `handle_channel_request`: the channel, what the handler is told, and `success`. -/
def dispatch (q : SshChannelRequest) (handled : Bool) : PeerChannel × List HandlerCall × Bool :=
  let told := HandlerCall.onChannelRequest q.type q.data
  match q.type with
  | .exec =>
    if handled then (c, [told], q.grants)
    else if c.commandStarted then (c, [], false)
    else
      match readString q.data with
      | none => ({ c with commandStarted := true }, [], false)
      | some (command, _) => ({ c with commandStarted := true },
          [.onExecRequest (if key.forcedCommand = [] then command else key.forcedCommand)],
          q.grants)
  | .subsystem =>
    if c.commandStarted then (c, [], false)
    else
      match readString q.data with
      | none => ({ c with commandStarted := true }, [], handled)
      | some (name, _) =>
        if name ∈ subsystems then
          ({ c with commandStarted := true, subsystemRequested := true, hasHandler := true },
            [.openSubsystem name], true)
        else
          ({ c with
              commandStarted := true
              subsystemRequested := c.subsystemRequested || q.grants },
            [.onSubsystemRequest name], q.grants)
  | .ptyReq =>
    if key.noPty ∨ c.commandStarted ∨ c.ptyRequested then (c, [], false)
    else ({ c with ptyRequested := true }, [told], q.grants)
  | .shell =>
    if c.commandStarted then (c, [], false)
    else ({ c with commandStarted := true }, [.onShellRequest], q.grants)
  | .env =>
    if c.commandStarted then (c, [], false)
    else if ((readString q.data).bind fun name => readString name.2).isSome then
      (c, [told], q.grants)
    else (c, [], handled)
  | .windowChange => (c, [told], true)
  | .signal => if (readString q.data).isSome then (c, [told], true) else (c, [], handled)
  | .x11Req => if key.noX11Forwarding then (c, [], false) else (c, [told], q.grants)
  | .authAgentReq => if key.noAgentForwarding then (c, [], false) else (c, [told], q.grants)
  | .other _ => (c, [told], q.grants)

def handles (q : SshChannelRequest) : Bool := c.hasHandler && q.accepts

def maybeAdjustWindow : PeerChannel × List Reply :=
  if c.localWindow < defaultWindowSize / 4 then
    ({ c with localWindow := defaultWindowSize },
      [.windowAdjust c.remoteId (defaultWindowSize - c.localWindow)])
  else (c, [])

def take (size : Nat) : PeerChannel × List Reply :=
  { c with localWindow := c.localWindow - UInt32.ofNat size }.maybeAdjustWindow

/-- What becomes of the channel, what the handlers are told, and what is sent. -/
def receive : PeerMessage → Option PeerChannel × List HandlerCall × List Reply
  | .data data =>
    if c.state ≠ .open ∨ c.localMaxPacket.toNat < data.length ∨
        c.localWindow < UInt32.ofNat data.length then (c, [], [])
    else ((c.take data.length).1, c.tell (.onData data) ++ [.onChannelData data],
      (c.take data.length).2)
  | .extendedData data =>
    if c.state ≠ .open ∨ c.localWindow < UInt32.ofNat data.length then (c, [], [])
    else ((c.take data.length).1, [], (c.take data.length).2)
  | .windowAdjust bytesToAdd =>
    (some { c with toSshChannel := c.adjustRemoteWindow bytesToAdd },
      c.tell (.onWindowAdjust bytesToAdd), [])
  | .eof blocks =>
    let answered := c.handleEof (if c.hasHandler then blocks else [])
    (some { c with toSshChannel := answered.1 }, if c.state = .open then c.tell .onEof else [],
      answered.2.map .message)
  | .close =>
    (none, c.tell .onClose ++ [.onChannelClose],
      if c.state = .closing ∨ c.state = .closed then [] else [.message (.close c.remoteId)])
  | .request q =>
    if c.state ≠ .open then (c, [], q.reply c.remoteId false)
    else
      let (after, calls, success) := c.dispatch key subsystems q (c.handles q)
      (after, c.tell (.onRequest q.type q.data q.accepts) ++ calls, q.reply c.remoteId success)

theorem receive_of_not_open {c : PeerChannel} (hstate : c.state ≠ .open)
    (hmessage : message.needsOpen) :
    (c.receive key subsystems message).1 = some c ∧
      (c.receive key subsystems message).2.1 = [] := by
  cases message with
  | windowAdjust | close => cases hmessage
  | data | extendedData | request => simp [receive, hstate]
  | eof blocks => simp [receive, hstate, SshChannel.handleEof]

end PeerChannel

structure SshConnectionManager where
  channels : AList fun _ : UInt32 => PeerChannel := ∅
  nextLocalId : UInt32 := 0
  key : AuthorizedKey := {}
  subsystems : List Bytes := []

namespace SshConnectionManager

variable (m : SshConnectionManager)

/-- The end of `handle_channel_open`, after all checks. -/
def openChannel (remoteId remoteWindow remoteMaxPacket : UInt32) (hasHandler : Bool) :
    SshConnectionManager :=
  { m with
    nextLocalId := m.nextLocalId + 1
    channels := if m.nextLocalId ∈ m.channels then m.channels
      else m.channels.insert m.nextLocalId { remoteId, remoteWindow, remoteMaxPacket, hasHandler } }

/-- The table has no order of its own: the channel found by `find_channel_by_remote` is any. -/
def resolveRecipientChannel (recipient : UInt32) : Option (UInt32 × PeerChannel) :=
  match m.channels.lookup recipient with
  | some c => some (recipient, c)
  | none => (m.channels.entries.find? (·.2.remoteId == recipient)).map fun e => (e.1, e.2)

/-- The handlers are told something for one channel, whose number stands beside it. -/
def receive (recipient : UInt32) (message : PeerMessage) :
    SshConnectionManager × (UInt32 × List HandlerCall) × List Reply :=
  match m.resolveRecipientChannel recipient with
  | none => (m, (recipient, []),
      match message with
      | .request q => q.reply recipient false
      | _ => [])
  | some (localId, c) =>
    let (after, calls, replies) := c.receive m.key m.subsystems message
    ({ m with channels := match after with
        | some after => modify m.channels localId fun _ => after
        | none => m.channels.erase localId },
      (localId, calls), replies)

/-- The channel has the recipient's number, or, if no channel has it, the peer calls it so. -/
def IsFor (recipient localId : UInt32) (c : PeerChannel) : Prop :=
  m.channels.lookup localId = some c ∧
    (localId = recipient ∨ m.channels.lookup recipient = none ∧ c.remoteId = recipient)

/-- No channel but the given one changes or has its handler called. -/
def KeepsTo (out : SshConnectionManager × (UInt32 × List HandlerCall) × List Reply)
    (localId : UInt32) : Prop :=
  (∀ id ≠ localId, out.1.channels.lookup id = m.channels.lookup id) ∧ out.2.1.1 = localId

/-- No channel changes or has its handler called. -/
def Untouched (out : SshConnectionManager × (UInt32 × List HandlerCall) × List Reply) : Prop :=
  out.1 = m ∧ out.2.1.2 = []

variable {m}

theorem isFor_of_resolve (h : m.resolveRecipientChannel recipient = some (localId, c)) :
    m.IsFor recipient localId c := by
  rw [resolveRecipientChannel] at h
  split at h
  · cases h
    exact ⟨by assumption, .inl rfl⟩
  · rename_i hnone
    obtain ⟨⟨id, c'⟩, hfind, he⟩ := map_eq_some_iff.mp h
    cases he
    exact ⟨AList.mem_lookup_iff.mpr (List.mem_of_find?_eq_some hfind),
      .inr ⟨hnone, by simpa using List.find?_some hfind⟩⟩

theorem not_isFor_of_resolve (h : m.resolveRecipientChannel recipient = none) :
    ¬m.IsFor recipient localId c := by
  rw [resolveRecipientChannel] at h
  split at h
  · cases h
  · rename_i hnone
    rintro ⟨hlookup, rfl | ⟨-, hremote⟩⟩
    · simp [hnone] at hlookup
    · have hfind := List.find?_eq_none.mp (map_eq_none_iff.mp h) ⟨localId, c⟩
        (AList.mem_lookup_iff.mp hlookup)
      simp [hremote] at hfind

theorem lookup_of_resolve (h : m.resolveRecipientChannel recipient = some (localId, c)) :
    m.channels.lookup localId = some c :=
  (isFor_of_resolve h).1

end SshConnectionManager

end ServerLib.Ssh
