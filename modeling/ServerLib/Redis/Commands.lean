import ServerLib.Redis.Understood
import ServerLib.Redis.Segments

/-! The commands of the client and the replies that each of them takes off the reader. -/

namespace ServerLib.Redis

open Lib Buffer Reply List

/-- What a command object holds of the replies it waits for: a plain command, a pipeline with the
number of packed commands and of command objects, and a transaction with the names of its
commands, the last of which is `exec`. -/
inductive Command
  | default (unpackToMap : Bool)
  | pipeline (packedCommandCount commands : Nat)
  | multi (names : List Bytes)

section Unpacking

variable (buffers : List Bytes) (converts : Bytes → Bool)

/-- The loop of `DefaultCmd::unpack` over what is left.  A failure ends it, and only a failure
that asks for more puts the reader back.  A reply takes one byte at least. -/
def unpackExtra (toMap : Bool) : Nat → Position → List RedisValue × Position
  | 0, p => ([], p)
  | fuel + 1, p =>
    if remainingBytes buffers p = 0 then ([], p)
    else
      match unpackResult buffers converts toMap p with
      | .failed e p' => ([], if asksMore e then p else p')
      | .done extra p' =>
        let later := unpackExtra toMap fuel p'
        (extra :: later.1, later.2)

/-- With other replies after it, the result is an array. -/
def withExtra (toMap : Bool) (result : RedisValue) : Unpack RedisValue := fun p =>
  let extra := unpackExtra buffers converts toMap (remainingBytes buffers p) p
  .done (if extra.1.isEmpty then result else .array (result :: extra.1)) extra.2

def unpackDefault (toMap : Bool) : Unpack RedisValue := do
  let result ← unpackResult buffers converts toMap
  withExtra buffers converts toMap result

def pipelineError : RedisValue := .error (text "ERR: pipeline unpack failed")

def pipelineFailure (e : Failure) : Failure := (e.1, some pipelineError)

def unpackPipeline (count : Nat) : Unpack RedisValue :=
  Scan.checkpoint asksMore (failure needMoreBytes) do
    let values ← (unpackMany (unpackResult buffers converts false) count).mapFailure
      pipelineFailure
    pure (.array values)

def execWithoutMulti : RedisValue := .error (text "ERR: EXEC without MULTI")

variable (name : Bytes) (idx : Nat)

def multiError : RedisValue :=
  .error (text "ERR: run multi cmd failed, cmdName: " ++ name ++ text ", idx: " ++ decimal idx)

def multiFailed : RedisValue := .error (text "ERR: run multi cmd failed")

def multiInternal : RedisValue := .error (text "ERR: internal err, run multi cmd failed")

/-- A failure of the reply for the command `name`. -/
def multiFailure (e : Failure) : Failure :=
  if asksMore e then e else (-1, some (multiError name idx))

/-- One reply, if there are bytes. -/
def unpackMultiReply : Unpack RedisValue := do
  let left ← remain buffers
  if left = 0 then Scan.fail (failure needMoreBytes)
  else (unpackResult buffers converts false).mapFailure (multiFailure name idx)

def checkStatus : RedisValue → Unpack Unit
  | .status true _ => pure ()
  | .status false _ => Scan.fail (-1, some multiFailed)
  | _ => Scan.fail (-1, some multiInternal)

def unpackStatuses : Nat → List Bytes → Unpack Unit
  | _, [] => pure ()
  | idx, name :: names => do
    let status ← unpackMultiReply buffers converts name idx
    checkStatus status
    unpackStatuses (idx + 1) names

def checkArray : RedisValue → Unpack RedisValue
  | .array values => pure (.array values)
  | _ => Scan.fail (-1, some multiInternal)

/-- The bytes are never gone after the loop with the counter short of its end, since that asks for
more. -/
def unpackMulti (names : List Bytes) : Unpack RedisValue :=
  if names = [] then Scan.fail (-1, some execWithoutMulti)
  else
    Scan.checkpoint asksMore (failure needMoreBytes) do
      unpackStatuses buffers converts 0 names
      let list ← unpackMultiReply buffers converts (names.getLastD []) names.length
      checkArray list

namespace Command

/-- `PipelineCmd::unpack` prefers the number of packed commands. -/
def pipelineCount (packedCommandCount commands : Nat) : Nat :=
  if 0 < packedCommandCount then packedCommandCount else commands

def unpack : Command → Unpack RedisValue
  | default unpackToMap => unpackDefault buffers converts unpackToMap
  | pipeline packed commands => unpackPipeline buffers converts (pipelineCount packed commands)
  | multi names => unpackMulti buffers converts names

/-- The number of replies that belong to the command.  With a transaction the server answers
`MULTI` and every queued command with a status, and `EXEC` with the results. -/
def replies : Command → Nat
  | default _ => 1
  | pipeline packed commands => pipelineCount packed commands
  | multi names => names.length + 1

end Command

end Unpacking

/-- The end of `on_read`: what has been read goes. -/
def discardRead (reader : ByteBufferReader) : ByteBufferReader :=
  if 0 < remainingBytes reader.buffers reader.position then reader.discardReadBytes else {}

theorem ahead_discardRead (h : Ahead buffers p bytes) :
    Ahead (discardRead ⟨buffers, p⟩).buffers (discardRead ⟨buffers, p⟩).position bytes := by
  rw [discardRead]
  split_ifs with hnone
  · exact h.discardReadBytes
  · rw [h.remainingBytes_eq] at hnone
    obtain rfl : bytes = [] := eq_nil_of_length_eq_zero (by omega)
    exact ahead_nil

/-- The connection of the client and its reader. -/
structure Client where
  connected : Bool := true
  reader : ByteBufferReader := {}

namespace Client

def disconnect : Client := { connected := false }

/-- `on_read` with a command that waits for its replies.  A failure that does not ask for more is a
protocol error, which ends the connection and clears the reader. -/
def onRead (converts : Bytes → Bool) (maxBuffered : Nat) (cmd : Command) (client : Client)
    (data : Bytes) : Client :=
  let reader := client.reader.addBuffer data
  if !client.connected then { client with reader := {} }
  else if 0 < maxBuffered ∧ maxBuffered < remainingBytes reader.buffers reader.position then
    { connected := false, reader }
  else
    match cmd.unpack reader.buffers converts reader.position with
    | .done _ position => { client with reader := discardRead { reader with position } }
    | .failed e position =>
      if asksMore e then { client with reader := { reader with position } } else disconnect

end Client

variable (converts : Bytes → Bool)

/-- A command takes the bytes `own` off the reader and leaves `following` to the next command, and
what it returns does not depend on `following`.  It waits while a part of `own` is missing. -/
def TakesOwn (cmd : Command) (own following : Bytes) : Prop :=
  ∀ buffers p,
    (∀ front, front <+: own → front ≠ own → Ahead buffers p front →
      cmd.unpack buffers converts p = .failed (failure needMoreBytes) p) ∧
    (Ahead buffers p (own ++ following) →
      (cmd.unpack buffers converts p).AsksMore asksMore ∨
        Ahead buffers (cmd.unpack buffers converts p).state following ∧
          ∀ buffers₀ p₀, Ahead buffers₀ p₀ own →
            (cmd.unpack buffers₀ converts p₀).verdict = (cmd.unpack buffers converts p).verdict)

/-- `on_read` with the bytes `own` of the command, and `following` after them.  A command that is
done leaves `following` to the next one, and one that fails without asking for more ends the
connection, so that there is nothing left. -/
def PassesOn (cmd : Command) (own following : Bytes) : Prop :=
  ∀ (maxBuffered : Nat) (client : Client) (data : Bytes),
    let reader := client.reader.addBuffer data
    let after := client.onRead converts maxBuffered cmd data
    client.connected = true →
    ¬(0 < maxBuffered ∧ maxBuffered < remainingBytes reader.buffers reader.position) →
    Ahead reader.buffers reader.position (own ++ following) →
      match cmd.unpack reader.buffers converts reader.position with
      | .done _ _ =>
        after.connected = true ∧ Ahead after.reader.buffers after.reader.position following
      | .failed e position =>
        after = if asksMore e then { client with reader := { reader with position } }
          else { connected := false, reader := {} }

/-- The reply can be read. -/
def Readable (toMap : Bool) (reply : Reply) : Prop :=
  reply.Framed ∧ ∃ v, outcome converts toMap reply = .value v

/-- The status of `MULTI` or of a queued command, which tells of success. -/
def Queued (reply : Reply) : Prop :=
  reply.Framed ∧ ∃ raw, outcome converts false reply = .value (.status true raw)

/-- The replies of a command can be read, and those of a transaction are what it expects.  After the
reply of a plain command there is only a part of the next one, or nothing. -/
def Apart (following : Bytes) : Command → List Reply → Prop
  | .default toMap, own =>
    (∀ reply ∈ own, Readable converts toMap reply) ∧
      ∃ next, Readable converts toMap next ∧ following <+: next.wire ∧ following ≠ next.wire
  | .pipeline _ _, own => ∀ reply ∈ own, Readable converts false reply
  | .multi names, own =>
    names ≠ [] ∧ ∃ statuses exec, own = statuses ++ [exec] ∧
      (∀ reply ∈ statuses, Queued converts reply) ∧
      exec.Framed ∧ ∃ values, outcome converts false exec = .value (.array values)

section Values

variable {converts : Bytes → Bool}

theorem takesOwn_of_value (cmd : Command)
    (hmeets : ∀ buffers n, Unpacks buffers n (cmd.unpack buffers converts) own (.value v))
    (hback : ∀ buffers p, (cmd.unpack buffers converts p).AsksMore asksMore →
      cmd.unpack buffers converts p = .failed (failure needMoreBytes) p) (following : Bytes) :
    TakesOwn converts cmd own following := by
  intro buffers p
  refine ⟨fun front hfront hne hp => ?_, fun hp => .inr ?_⟩
  · exact hback buffers p ((hmeets buffers _).early trivial hp le_rfl hfront hne)
  · obtain ⟨p', hdone, hp'⟩ := (hmeets buffers _).whole hp le_rfl
    rw [hdone]
    refine ⟨hp', fun buffers₀ p₀ hp₀ => ?_⟩
    rw [← append_nil own] at hp₀
    obtain ⟨p₀', hdone₀, -⟩ := (hmeets buffers₀ _).whole hp₀ le_rfl
    rw [hdone₀]
    rfl

theorem unpacks_readable (hframed : reply.Framed) (hvalue : outcome converts toMap reply = .value v)
    (buffers : List Bytes) (n : Nat) :
    Unpacks buffers n (unpackResult buffers converts toMap) reply.wire (.value v) := by
  rw [← hvalue]
  exact unpacks_result converts toMap hframed

theorem unpackExtra_of_asksMore (h : (unpackResult buffers converts toMap p).AsksMore asksMore)
    (fuel : Nat) : unpackExtra buffers converts toMap fuel p = ([], p) := by
  cases fuel with
  | zero => rfl
  | succ fuel =>
    rw [unpackExtra, unpackResult_of_asksMore h]
    split
    · rfl
    · rfl

theorem takesOwn_default {reply next : Reply} (hreply : Readable converts toMap reply)
    (hnext : Readable converts toMap next) (hfront : following <+: next.wire)
    (hne : following ≠ next.wire) :
    TakesOwn converts (.default toMap) reply.wire following := by
  obtain ⟨hframed, v, hvalue⟩ := hreply
  obtain ⟨hframed', v', hvalue'⟩ := hnext
  have hmeets := unpacks_readable hframed hvalue
  -- what is there of the next reply is left alone
  have hunpack : ∀ buffers p rest, rest <+: next.wire → rest ≠ next.wire →
      Ahead buffers p (reply.wire ++ rest) →
      ∃ p', unpackDefault buffers converts toMap p = .done v p' ∧ Ahead buffers p' rest := by
    intro buffers p rest hrest hpart hp
    obtain ⟨p', hdone, hp'⟩ := (hmeets buffers _).whole hp le_rfl
    have hmore := (unpacks_readable hframed' hvalue' buffers _).early trivial hp' le_rfl hrest hpart
    refine ⟨p', ?_, hp'⟩
    rw [unpackDefault, Scan.bind_of_done hdone, withExtra, unpackExtra_of_asksMore hmore]
    rfl
  intro buffers p
  refine ⟨fun front hfront hne hp => ?_, fun hp => .inr ?_⟩
  · have hmore := (hmeets buffers _).early trivial hp le_rfl hfront hne
    exact Scan.bind_of_failed (unpackResult_of_asksMore hmore) _
  · obtain ⟨p', hdone, hp'⟩ := hunpack buffers p following hfront hne hp
    rw [Command.unpack, hdone]
    refine ⟨hp', fun buffers₀ p₀ hp₀ => ?_⟩
    rw [← append_nil reply.wire] at hp₀
    obtain ⟨p₀', hdone₀, -⟩ := hunpack buffers₀ p₀ [] nil_prefix (cons_ne_nil _ _).symm hp₀
    rw [Command.unpack, hdone₀]
    rfl

theorem itemsOutcome_of_readable (h : ∀ reply ∈ own, Readable converts false reply) :
    ∃ values, itemsOutcome converts false own = .value values := by
  induction own with
  | nil => exact ⟨[], rfl⟩
  | cons reply rest ih =>
    obtain ⟨⟨-, v, hvalue⟩, hrest⟩ := forall_mem_cons.mp h
    obtain ⟨values, hvalues⟩ := ih hrest
    rw [outcome] at hvalue
    exact ⟨v :: values, by rw [itemsOutcome, hvalue, hvalues]; rfl⟩

theorem unpacks_pipeline (h : ∀ reply ∈ own, Readable converts false reply) :
    ∃ v, ∀ buffers n, Unpacks buffers n (unpackPipeline buffers converts own.length) (wires own)
      (.value v) := by
  obtain ⟨values, hvalues⟩ := itemsOutcome_of_readable h
  refine ⟨.array values, fun buffers n => ?_⟩
  have hmany : Unpacks buffers n (unpackMany (unpackResult buffers converts false) own.length)
      (wires own) (itemsOutcome converts false own) :=
    unpacks_many (fun toMap _ hreply => unpacks_result converts toMap hreply) le_rfl false
      ((framedAll_iff own).mpr fun reply hmem => (h reply hmem).1)
  rw [hvalues] at hmany
  have hsame : ∀ e, asksMore (pipelineFailure e) = asksMore e := fun _ => rfl
  exact ((hmany.mapFailure hsame).map_value RedisValue.array).checkpoint rfl

theorem unpacks_multiReply (hframed : reply.Framed)
    (hvalue : outcome converts false reply = .value v) (name : Bytes) (idx : Nat) :
    Unpacks buffers n (unpackMultiReply buffers converts name idx) reply.wire (.value v) := by
  refine unpacks_present (fun _ => rfl)
    ((unpacks_readable hframed hvalue buffers n).mapFailure (g := multiFailure name idx)
      fun e => ?_)
  rw [multiFailure]
  split_ifs with hmore
  · rfl
  · rw [Bool.not_eq_true] at hmore
    rw [hmore]
    rfl

theorem unpacks_statuses (h : ∀ reply ∈ statuses, Queued converts reply)
    (hlength : statuses.length = names.length) (idx : Nat) :
    Unpacks buffers n (unpackStatuses buffers converts idx names) (wires statuses)
      (.value ()) := by
  induction names generalizing statuses idx n with
  | nil =>
    obtain rfl : statuses = [] := eq_nil_of_length_eq_zero hlength
    exact meets_pure ()
  | cons name names ih =>
    obtain ⟨reply, rest, rfl⟩ := exists_cons_of_length_eq_add_one hlength
    obtain ⟨⟨hframed, raw, hvalue⟩, hrest⟩ := forall_mem_cons.mp h
    refine (unpacks_multiReply hframed hvalue name idx).bind_value ?_
    exact ih hrest (Nat.succ.inj hlength) (idx + 1)

theorem wires_append_singleton (statuses : List Reply) (exec : Reply) :
    wires (statuses ++ [exec]) = wires statuses ++ exec.wire := by
  induction statuses with
  | nil => simp [wires, wire]
  | cons reply rest ih => rw [cons_append, wires, wires, ih, append_assoc]

theorem unpacks_multi (hnames : names ≠ []) (h : ∀ reply ∈ statuses, Queued converts reply)
    (hlength : statuses.length = names.length) (hframed : exec.Framed)
    (hvalue : outcome converts false exec = .value (.array results)) (buffers : List Bytes)
    (n : Nat) :
    Unpacks buffers n (unpackMulti buffers converts names) (wires statuses ++ exec.wire)
      (.value (.array results)) := by
  rw [unpackMulti, if_neg hnames]
  have hall : Unpacks buffers n
      (do
        unpackStatuses buffers converts 0 names
        let list ← unpackMultiReply buffers converts (names.getLastD []) names.length
        checkArray list)
      (wires statuses ++ exec.wire) (.value (.array results)) :=
    (unpacks_statuses h hlength 0).bind_value
      ((unpacks_multiReply hframed hvalue _ _).bind_end (meets_pure _))
  exact hall.checkpoint rfl

end Values

theorem TakesOwn.passesOn {converts : Bytes → Bool} (h : TakesOwn converts cmd own following) :
    PassesOn converts cmd own following := by
  intro maxBuffered client data reader after hconnected hlimit hahead
  have htakes := (h reader.buffers reader.position).2 hahead
  cases hunpack : cmd.unpack reader.buffers converts reader.position with
  | done v position =>
    have hafter : after = { client with reader := discardRead { reader with position } } := by
      simp [after, Client.onRead, hconnected, reader, hlimit, hunpack]
    rw [hunpack] at htakes
    rcases htakes with ⟨e, s, hfailed, _⟩ | ⟨hleft, _⟩
    · cases hfailed
    · rw [hafter]
      exact ⟨hconnected, ahead_discardRead hleft⟩
  | failed e position =>
    simp [after, Client.onRead, hconnected, reader, hlimit, hunpack, Client.disconnect]

/-- Whatever the bytes are and however they are cut, a pipeline gives the same result and leaves the
same bytes. -/
theorem alike_pipeline (converts : Bytes → Bool) (count : Nat) :
    Alike buffers₁ buffers₂ (unpackPipeline buffers₁ converts count)
      (unpackPipeline buffers₂ converts count) := by
  refine Agrees.checkpoint asksMore _ ?_
  refine Agrees.bind (Agrees.mapFailure _ ?_) fun values => agrees_pure _
  exact alike_many (alike_result converts) false count

end ServerLib.Redis
