import ServerLib.Ssh.ConnectionManager

/-! A session whose authorized key carries a forced command, and what is started on its channels. -/

namespace ServerLib.Ssh

open Lib Function List

def RequestType.command (type : RequestType) : Bool := type ∈ [exec, subsystem, shell]

/-- A command is handed to a handler, or the channel's handler accepts a request for one. -/
def HandlerCall.starts : HandlerCall → Bool
  | .onExecRequest _ | .onSubsystemRequest _ | .openSubsystem _ | .onShellRequest => true
  | .onRequest type _ accepted => type.command && accepted
  | .onChannelRequest type _ => type.command
  | _ => false

def commands (calls : List HandlerCall) : List HandlerCall := calls.filter HandlerCall.starts

namespace PeerChannel

/-- The channel's handler accepts no request for a command, and a shell or a subsystem is asked for
only after a command. -/
def Confined (c : PeerChannel) : PeerMessage → Prop
  | .request q => c.state = .open →
    (q.type.command = true → c.handles q = false) ∧
    (q.type = .shell → c.commandStarted = true) ∧
    (q.type = .subsystem → c.commandStarted = true ∨ readString q.data = none)
  | _ => True

/-- No command, or the forced one on a channel that has had none. -/
def Forces (key : AuthorizedKey) (c : PeerChannel) (after : Option PeerChannel)
    (calls : List HandlerCall) : Prop :=
  (∀ c' ∈ after, c.commandStarted = true → c'.commandStarted = true) ∧
    (commands calls = [] ∨ c.commandStarted = false ∧ (∀ c' ∈ after, c'.commandStarted = true) ∧
      commands calls = [.onExecRequest key.forcedCommand])

variable (key : AuthorizedKey) (subsystems : List Bytes) {c : PeerChannel}

@[simp] theorem commands_append (calls calls' : List HandlerCall) :
    commands (calls ++ calls') = commands calls ++ commands calls' :=
  filter_append ..

@[simp] theorem commands_tell (call : HandlerCall) :
    commands (c.tell call) = if c.hasHandler && call.starts then [call] else [] := by
  cases hhandler : c.hasHandler <;> cases hstarts : call.starts <;>
    simp [tell, commands, hhandler, hstarts]

theorem dispatch_forces (hkey : key.forcedCommand ≠ []) (hopen : c.state = .open)
    (h : c.Confined (.request q)) :
    Forces key c (some (c.dispatch key subsystems q (c.handles q)).1)
      (c.dispatch key subsystems q (c.handles q)).2.1 := by
  obtain ⟨hhandler, hshell, hsubsystem⟩ := h hopen
  cases htype : q.type <;> rw [htype] at hhandler <;> simp only [dispatch, htype]
  case exec =>
    rw [hhandler rfl, if_neg Bool.false_ne_true]
    split_ifs with hstarted
    · simp [Forces, commands]
    · split
      · simp [Forces, commands]
      · simp [Forces, commands, hstarted, HandlerCall.starts]
  case subsystem =>
    rcases hsubsystem htype with hstarted | hnone
    · simp [Forces, commands, hstarted]
    · split_ifs with hstarted <;> simp [Forces, commands, hnone]
  case shell => simp [Forces, commands, hshell htype]
  all_goals
    try split_ifs
    all_goals simp [Forces, commands, HandlerCall.starts, RequestType.command]

theorem receive_forces (hkey : key.forcedCommand ≠ []) (h : c.Confined message) :
    Forces key c (c.receive key subsystems message).1 (c.receive key subsystems message).2.1 := by
  have hquiet : ∀ {after calls}, (∀ c' ∈ after, c'.commandStarted = c.commandStarted) →
      commands calls = [] → Forces key c after calls := fun hafter hcalls =>
    ⟨fun c' hc' hstarted => (hafter c' hc').trans hstarted, .inl hcalls⟩
  have htake : ∀ size, (c.take size).1.commandStarted = c.commandStarted := by
    intro size
    rw [take, maybeAdjustWindow]
    split <;> rfl
  cases message with
  | request q =>
    simp only [receive]
    split_ifs with hopen
    · exact hquiet (by simp) rfl
    have hopen := not_not.mp hopen
    have hfirst : commands (c.tell (.onRequest q.type q.data q.accepts)) = [] := by
      have hhandler := (h hopen).1
      rw [commands_tell, if_neg]
      cases hcommand : q.type.command with
      | false => simp [HandlerCall.starts, hcommand]
      | true => simpa [HandlerCall.starts, hcommand, handles] using hhandler hcommand
    have hforces := dispatch_forces key subsystems hkey hopen h
    rw [Forces, commands_append, hfirst, nil_append]
    exact hforces
  | data data =>
    simp only [receive]
    split_ifs
    · exact hquiet (by simp) rfl
    · exact hquiet (by simp [htake]) (by simp [HandlerCall.starts]; rfl)
  | extendedData data =>
    simp only [receive]
    split_ifs
    · exact hquiet (by simp) rfl
    · exact hquiet (by simp [htake]) rfl
  | windowAdjust n => exact hquiet (by simp [receive]) (by simp [receive, HandlerCall.starts])
  | eof blocks =>
    refine hquiet (by simp [receive]) ?_
    simp only [receive]
    split_ifs
    · simp [HandlerCall.starts]
    · rfl
  | close => exact hquiet (by simp [receive]) (by simp [receive, HandlerCall.starts]; rfl)

theorem receive_not_confined (h : ¬c.Confined message) :
    ∃ call ∈ commands (c.receive key subsystems message).2.1,
      call ≠ .onExecRequest key.forcedCommand := by
  cases message with
  | request q =>
    rw [Confined, Classical.not_imp] at h
    obtain ⟨hopen, h⟩ := h
    have hcalls : (c.receive key subsystems (.request q)).2.1 =
        c.tell (.onRequest q.type q.data q.accepts) ++
          (c.dispatch key subsystems q (c.handles q)).2.1 := by
      simp [receive, hopen]
    rw [hcalls, commands_append]
    rcases not_and_or.mp h with h | h
    · obtain ⟨hcommand, hhandles⟩ := Classical.not_imp.mp h
      have hhandles : c.hasHandler ∧ q.accepts := by simpa [handles] using hhandles
      refine ⟨.onRequest q.type q.data q.accepts, mem_append_left _ ?_, by simp⟩
      simp [HandlerCall.starts, hcommand, hhandles]
    rcases not_and_or.mp h with h | h
    · obtain ⟨htype, hstarted⟩ := Classical.not_imp.mp h
      refine ⟨.onShellRequest, mem_append_right _ ?_, by simp⟩
      simp [dispatch, htype, hstarted, commands, HandlerCall.starts]
    · obtain ⟨htype, h⟩ := Classical.not_imp.mp h
      obtain ⟨hstarted, hread⟩ := not_or.mp h
      obtain ⟨⟨name, rest⟩, hname⟩ := Option.ne_none_iff_exists'.mp hread
      by_cases hbuiltin : name ∈ subsystems
      · refine ⟨.openSubsystem name, mem_append_right _ ?_, by simp⟩
        simp [dispatch, htype, hstarted, hname, hbuiltin, commands, HandlerCall.starts]
      · refine ⟨.onSubsystemRequest name, mem_append_right _ ?_, by simp⟩
        simp [dispatch, htype, hstarted, hname, hbuiltin, commands, HandlerCall.starts]
  | _ => exact absurd trivial h

end PeerChannel

/-- A manager, and what the handlers have been told for each channel. -/
structure SessionRun where
  manager : SshConnectionManager
  told : UInt32 → List HandlerCall := fun _ => []

namespace SessionRun

/-- A message comes, with the number of its recipient. -/
def step (s : SessionRun) (l : UInt32 × PeerMessage) : SessionRun :=
  let (manager, (localId, calls), _) := s.manager.receive l.1 l.2
  { manager, told := update s.told localId (s.told localId ++ calls) }

/-- No command is started on a channel but the forced one, and that once at most. -/
def Obeys (s : SessionRun) : Prop :=
  ∀ id, (commands (s.told id)).Sublist [.onExecRequest s.manager.key.forcedCommand]

/-- The message is confined on the channel that it goes to. -/
def Confined (s : SessionRun) (l : UInt32 × PeerMessage) : Prop :=
  ∀ r ∈ s.manager.resolveRecipientChannel l.1, r.2.Confined l.2

/-- A channel on which a command was started knows it. -/
structure Inv (s : SessionRun) : Prop where
  key : s.manager.key.forcedCommand ≠ []
  obeys : s.Obeys
  fresh : ∀ id c, s.manager.channels.lookup id = some c → c.commandStarted = false →
    commands (s.told id) = []

variable {s : SessionRun}

theorem Inv.step (h : s.Inv) (hconfined : s.Confined l) : (s.step l).Inv := by
  simp only [SessionRun.step, SshConnectionManager.receive]
  cases hresolve : s.manager.resolveRecipientChannel l.1 with
  | none => simpa using (⟨h.key, h.obeys, h.fresh⟩ : Inv _)
  | some r =>
    obtain ⟨localId, c⟩ := r
    have hlookup := SshConnectionManager.lookup_of_resolve hresolve
    obtain ⟨hkeeps, hcommands⟩ := PeerChannel.receive_forces s.manager.key s.manager.subsystems
      h.key (hconfined _ hresolve)
    dsimp only at hkeeps hcommands ⊢
    generalize c.receive s.manager.key s.manager.subsystems l.2 = out at hkeeps hcommands ⊢
    refine ⟨h.key, fun id => ?_, fun id c' hlookup' hnot => ?_⟩ <;> by_cases hid : id = localId
    · subst hid
      rcases hcommands with hnone | ⟨hnot, -, hone⟩
      · simpa [hnone] using h.obeys id
      · simp [hone, h.fresh id c hlookup hnot]
    · simpa [hid] using h.obeys id
    · subst hid
      have hafter : c' ∈ out.1 := by
        cases hout : out.1 <;> simp_all
      rcases hcommands with hnone | ⟨-, hstarted, -⟩
      · have hold := mt (hkeeps c' hafter) (Bool.eq_false_iff.mp hnot)
        simp [hnone, h.fresh id c hlookup (Bool.eq_false_iff.mpr hold)]
      · simp [hstarted c' hafter] at hnot
    · have hsame : s.manager.channels.lookup id = some c' := by
        cases hout : out.1 <;> simp_all
      simpa [hid] using h.fresh id c' hsame hnot

theorem confined_of_obeys (h : (s.step l).Obeys) : s.Confined l := by
  rintro ⟨localId, c⟩ hresolve
  by_contra hnot
  obtain ⟨call, hmem, hne⟩ :=
    PeerChannel.receive_not_confined s.manager.key s.manager.subsystems hnot
  have hsub := (h localId).subset
  simp only [step, SshConnectionManager.receive, Option.mem_def.mp hresolve] at hsub
  exact hne (by simpa using hsub (by simpa using Or.inr hmem))

/-- In every run of a session with a forced command, no other command is started and none twice on
a channel, exactly if every message is confined. -/
theorem obeys_run_iff (m : SshConnectionManager) (messages : List (UInt32 × PeerMessage))
    (hkey : m.key.forcedCommand ≠ []) :
    Along step (fun s l => (s.step l).Obeys) { manager := m } messages ↔
      Along step Confined { manager := m } messages := by
  have hstart : Inv { manager := m } :=
    ⟨hkey, fun _ => nil_sublist _, fun _ _ _ _ => rfl⟩
  constructor
  · exact along_of_invariant (fun s l h hobeys => h.step (confined_of_obeys hobeys))
      (fun s l _ hobeys => confined_of_obeys hobeys) hstart
  · exact along_of_invariant (fun s l h => h.step) (fun s l h hc => (h.step hc).obeys) hstart

/-- A session with one channel and the forced command `ls`. -/
def forcedSession : SshConnectionManager :=
  ({ key := { forcedCommand := [0x6c, 0x73] } } : SshConnectionManager).openChannel
    0 1024 1024 false

theorem obeys_run_iff_exec :
    Along step (fun s l => (s.step l).Obeys) { manager := forcedSession }
      [(0, .request { type := .exec, data := writeU32 0 }), (0, .request { type := .shell })] :=
  (obeys_run_iff forcedSession _ nofun).mpr
    ⟨by rintro _ ⟨⟩ _; exact ⟨fun _ => rfl, nofun, nofun⟩,
      by rintro _ ⟨⟩ _; exact ⟨fun _ => rfl, fun _ => rfl, nofun⟩, trivial⟩

/-- A shell is asked for in the place of a command. -/
theorem not_obeys_shell :
    ¬Along step (fun s l => (s.step l).Obeys) { manager := forcedSession }
      [(0, .request { type := .shell })] := by
  intro h
  exact absurd ((confined_of_obeys h.1 _ rfl rfl).2.1 rfl) (by decide)

end SessionRun

end ServerLib.Ssh
