import TcpChat.Client.Atomic
import TcpChat.Server.Lifecycle
import TcpChat.Server.Names

/-! A client object from its constructor to its destructor. Whatever calls come between, and
wherever `run` fails, its members own every descriptor that it got and has not closed. -/
namespace TcpChat.ChatClient
open Machine
open ChatServer (Accounts accounts_silent accounts_append accounts_get accounts_close
  accounts_closeAll accounts_perm)

def isConnected (c : ChatClient) : Bool := c.connected
def getName (c : ChatClient) : List Byte := c.clientName

/-- The members that hold descriptors, in the order of their destructors. -/
def owned (c : ChatClient) : List Fd := c.signalfd.held ++ c.clientFd.held

def destructor (c : ChatClient) : List Event := c.signalfd.closing ++ c.clientFd.closing

theorem stopLog_eq (c : ChatClient) : c.stopLog = c.owned.map Event.close := by
  simp only [stopLog, owned, List.map_append, ScopedFileDescriptor.closing_eq]

theorem destructor_eq (c : ChatClient) : c.destructor = c.owned.map Event.close := stopLog_eq c

/-! `run`, with its events. -/

/-- How `run` ends after the name line: the line was refused, or is not through yet, or is sent. -/
inductive NameSent (c : ChatClient) (fd sfd : Nat) :
    ChatClient → List Event → Outcome Exn Unit → Prop
  | refused (e : Exn) : NameSent c fd sfd { c with signalfd := ⟨sfd⟩ } [.close fd] (.thrown e)
  | stuck : NameSent c fd sfd { c with signalfd := ⟨sfd⟩ } [] .blocked
  | done : NameSent c fd sfd { c with clientFd := ⟨fd⟩, signalfd := ⟨sfd⟩, connected := true }
      c.clientFd.closing (.returned ())

inductive RunLog (a : RunAnswers) (c : ChatClient) :
    ChatClient → List Event → Outcome Exn Unit → Prop
  | nothing (e : Exn) : RunLog a c c [] (.thrown e)
  | undone (fd : Nat) (e : Exn) (socket : a.socket = .ok fd) :
      RunLog a c c [.socket fd, .connect fd c.address.toSockaddr, .close fd] (.thrown e)
  | opened (fd sfd : Nat) (writes tail : List Event) (c' : ChatClient) (o : Outcome Exn Unit)
      (off : c.connected = false) (socket : a.socket = .ok fd) (signal : a.signalfd = .ok sfd)
      (only : OnlyWrites fd writes) (sent : NameSent c fd sfd c' tail o) :
      RunLog a c c' ([.socket fd, .connect fd c.address.toSockaddr, .signalfd sfd] ++
        c.signalfd.closing ++ writes ++ tail) o

theorem run_log (a : RunAnswers) (c : ChatClient) :
    RunLog a c (run a c).state (run a c).events (run a c).outcome := by
  cases on : c.connected with
  | true => simpa [run, on] using RunLog.nothing _
  | false =>
    cases socket : a.socket with
    | error e => simpa [run, on, createSocket, socket] using RunLog.nothing _
    | ok fd =>
      have undone := RunLog.undone (a := a) (c := c) fd
      cases joined : a.connect with
      | some e =>
        simpa [run, on, createSocket, socket, Program.unwinding, connectSocket, joined] using
          undone (.systemError (some e) "connect() failed") socket
      | none =>
        cases mask : a.sigprocmask with
        | some e =>
          simpa [run, on, createSocket, socket, Program.unwinding, connectSocket, joined,
            setupSignalFd, openSignalFd, mask] using
            undone (.systemError (some e) "failed to block signals using sigprocmask") socket
        | none =>
          cases signal : a.signalfd with
          | error e =>
            simpa [run, on, createSocket, socket, Program.unwinding, connectSocket, joined,
              setupSignalFd, openSignalFd, mask, signal] using
              undone (.systemError (some e) "failed to create signalfd") socket
          | ok sfd =>
            have opened := fun writes tail c' o only =>
              RunLog.opened (a := a) (c := c) fd sfd writes tail c' o on socket signal only
            obtain ⟨log, only, ⟨rest, -, -, eq⟩ | ⟨-, -, -, eq | ⟨errno, eq⟩⟩⟩ :=
              writeFull_spec fd c.nameLine a.write ({ c with signalfd := ⟨sfd⟩ } : ChatClient)
            · simp only [nameLine, on] at eq
              simpa [run, on, createSocket, socket, Program.unwinding, connectSocket, joined,
                setupSignalFd, openSignalFd, mask, signal, eq] using opened log _ _ _ only .done
            · simp only [nameLine, on] at eq
              simpa [run, on, createSocket, socket, Program.unwinding, connectSocket, joined,
                setupSignalFd, openSignalFd, mask, signal, eq] using opened log _ _ _ only .stuck
            · simp only [nameLine, on] at eq
              simpa [run, on, createSocket, socket, Program.unwinding, connectSocket, joined,
                setupSignalFd, openSignalFd, mask, signal, eq] using
                opened log _ _ _ only (.refused (.systemError errno "write() failed"))

/-! What a call does to what is owned. -/

/-- What the getters tell. -/
structure Tidy (c : ChatClient) : Prop where
  connected : c.isConnected = c.clientFd.valid
  signalled : c.isConnected = true → c.signalfd.valid = true
  named : Accepts c.getName

/-- The client stays tidy, and the events lead from what it owned to what it owns. -/
structure Handles (c c' : ChatClient) (log : List Event) : Prop where
  tidy : c.Tidy → c'.Tidy
  accounts : Accounts c.owned c'.owned log

theorem Handles.append {c c' c'' : ChatClient} {log more : List Event} (first : Handles c c' log)
    (second : Handles c' c'' more) : Handles c c'' (log ++ more) :=
  ⟨fun tidy => second.tidy (first.tidy tidy), accounts_append first.accounts second.accounts⟩

def Silent (e : Event) : Prop := e.gets = none ∧ e.frees = none

theorem silent_onlyWrites {fd : Fd} {log : List Event} (only : OnlyWrites fd log) :
    ∀ e ∈ log, Silent e := by
  intro e member
  rcases only e member with ⟨bytes, rfl⟩ | ⟨errno, rfl⟩
  · exact ⟨rfl, rfl⟩
  · exact ⟨rfl, rfl⟩

theorem handles_silent {c : ChatClient} {log : List Event} (silent : ∀ e ∈ log, Silent e) :
    Handles c c log := ⟨id, accounts_silent silent⟩

/-- Only the buffers change. -/
theorem handles_buffers {c : ChatClient} (r w : Buffer) {log : List Event}
    (silent : ∀ e ∈ log, Silent e) :
    Handles c { c with readBuffer := r, writeBuffer := w } log :=
  ⟨fun ⟨connected, signalled, named⟩ => ⟨connected, signalled, named⟩, accounts_silent silent⟩

theorem handles_stop (c : ChatClient) : Handles c c.stopped c.stopLog := by
  refine ⟨fun tidy => ⟨rfl, nofun, tidy.named⟩, ?_⟩
  rw [stopLog_eq]
  exact accounts_closeAll c.owned

theorem StdinPart.handles {k : Kernel} {r : Revents} {c c' : ChatClient} {log : List Event}
    {o : Outcome Exn Bool} (part : StdinPart k r c c' log o) : Handles c c' log := by
  cases part with
  | idle => exact handles_silent nofun
  | eof =>
    have read : Handles c c [.read stdinFileno []] :=
      handles_silent (by simp [Silent, Event.gets, Event.frees])
    exact read.append (handles_stop c)
  | readFailed => exact handles_silent (by simp [Silent, Event.gets, Event.frees])
  | forwarded bytes b writes _ _ _ _ only | stuck bytes b writes _ _ _ _ _ only =>
    exact handles_buffers c.readBuffer b
      (List.forall_mem_cons.mpr ⟨⟨rfl, rfl⟩, silent_onlyWrites only⟩)

theorem ServerPart.handles {k : Kernel} {r : Revents} {c c' : ChatClient} {log : List Event}
    {o : Outcome Exn Unit} (part : ServerPart k r c c' log o) : Handles c c' log := by
  cases part with
  | idle => exact handles_silent nofun
  | readFailed => exact handles_silent (by simp [Silent, Event.gets, Event.frees])
  | received bytes b =>
    refine handles_buffers b c.writeBuffer (List.forall_mem_cons.mpr ⟨⟨rfl, rfl⟩, ?_⟩)
    unfold printLog
    split
    · exact nofun
    · simp [Silent, Event.gets, Event.frees]

theorem SignalPart.handles {k : Kernel} {r : Revents} {c c' : ChatClient} {log : List Event}
    {o : Outcome Exn Control} (part : SignalPart k r c c' log o) : Handles c c' log := by
  cases part with
  | idle => exact handles_silent nofun
  | stop siginfo =>
    have read : Handles c c [.read c.signalfd.get siginfo] :=
      handles_silent (by simp [Silent, Event.gets, Event.frees])
    exact read.append (handles_stop c)
  | partly | readFailed => exact handles_silent (by simp [Silent, Event.gets, Event.frees])

theorem effect_handles {k : Kernel} {l l' : Loop} {log : List Event} (effect : Effect k l l' log) :
    Handles l.client l'.client log := by
  cases effect with
  | quiet => exact handles_silent nofun
  | stdinEnds _ _ _ _ _ stdin => exact stdin.handles
  | serverEnds _ _ _ _ _ _ _ stdin server => exact stdin.handles.append server.handles
  | through _ _ _ _ _ _ _ _ _ stdin server signal =>
    exact stdin.handles.append (server.handles.append signal.handles)

/-- The old signal descriptor goes when a new one is stored. -/
theorem accounts_closing {before rest : List Fd} (d : ScopedFileDescriptor)
    (split : before.Perm (d.held ++ rest)) : Accounts before rest d.closing := by
  rw [ScopedFileDescriptor.closing_eq]
  cases valid : d.valid with
  | true =>
    rw [ScopedFileDescriptor.held_of_valid valid] at split ⊢
    exact accounts_close split
  | false =>
    rw [ScopedFileDescriptor.held_of_invalid valid] at split ⊢
    exact accounts_perm (accounts_silent nofun) split

theorem held_ofNat (fd : Nat) : (⟨fd⟩ : ScopedFileDescriptor).held = [(fd : Fd)] := by
  simp [ScopedFileDescriptor.held, ScopedFileDescriptor.valid, ScopedFileDescriptor.get]

theorem valid_ofNat (fd : Nat) : (⟨fd⟩ : ScopedFileDescriptor).valid = true :=
  decide_eq_true (Int.natCast_nonneg fd)

/-- The new descriptors are none that is open, and differ. -/
structure New (a : RunAnswers) (table : List Fd) : Prop where
  socket : ∀ fd ∈ a.socket.toOption, (fd : Fd) ∉ table
  signal : ∀ sfd ∈ a.signalfd.toOption, (sfd : Fd) ∉ table
  differ : ∀ sfd ∈ a.signalfd.toOption, ∀ fd ∈ a.socket.toOption, sfd ≠ fd

theorem run_handles {a : RunAnswers} {c : ChatClient} (tidy : c.Tidy) (new : New a c.owned)
    (back : (run a c).outcome ≠ .blocked) : Handles c (run a c).state (run a c).events := by
  have effect := run_log a c
  generalize run a c = r at effect back
  obtain ⟨c', log, o⟩ := r
  change RunLog a c c' log o at effect
  cases effect with
  | nothing => exact handles_silent nofun
  | undone fd e socket =>
    have fresh := new.socket fd (by simp [socket, Except.toOption])
    have got := accounts_get (e := .socket fd) rfl fresh
    have connects : Accounts ((fd : Fd) :: c.owned) ((fd : Fd) :: c.owned)
        [.connect fd c.address.toSockaddr] :=
      accounts_silent (by simp [Event.gets, Event.frees])
    exact ⟨id, accounts_append got (accounts_append connects (accounts_close .rfl))⟩
  | opened fd sfd writes tail c' o off socket signal only sent =>
    have given : fd ∈ a.socket.toOption := by simp [socket, Except.toOption]
    have given' : sfd ∈ a.signalfd.toOption := by simp [signal, Except.toOption]
    have closed : c.clientFd.held = [] :=
      ScopedFileDescriptor.held_of_invalid (tidy.connected.symm.trans off)
    have before : c.owned = c.signalfd.held := by rw [owned, closed, List.append_nil]
    have differ : (sfd : Fd) ∉ (fd : Fd) :: c.owned := by
      have other := new.differ sfd given' fd given
      simpa [other] using new.signal sfd given'
    have got : Accounts c.owned ((sfd : Fd) :: (fd : Fd) :: c.owned)
        ([.socket fd] ++ ([.connect fd c.address.toSockaddr] ++ [.signalfd sfd])) :=
      accounts_append (accounts_get rfl (new.socket fd given))
        (accounts_append (accounts_silent (by simp [Event.gets, Event.frees]))
          (accounts_get rfl differ))
    have replaced : Accounts ((sfd : Fd) :: (fd : Fd) :: c.owned) [(sfd : Fd), (fd : Fd)]
        c.signalfd.closing := by
      have front : ([(sfd : Fd), (fd : Fd)] ++ c.owned).Perm
          (c.signalfd.held ++ [(sfd : Fd), (fd : Fd)]) := by
        rw [before]
        exact List.perm_append_comm
      exact accounts_closing c.signalfd front
    have all := accounts_append (accounts_append got replaced)
      (accounts_silent (silent_onlyWrites only))
    cases sent with
    | refused e =>
      refine ⟨fun _ => ⟨tidy.connected, fun on => absurd (off.symm.trans on) (by decide),
        tidy.named⟩, ?_⟩
      have after : ({ c with signalfd := ⟨sfd⟩ } : ChatClient).owned = [(sfd : Fd)] := by
        rw [owned, closed, held_ofNat, List.append_nil]
      rw [after]
      exact accounts_append all (accounts_close (List.Perm.swap _ _ _))
    | stuck => exact absurd rfl back
    | done =>
      refine ⟨fun _ => ⟨(valid_ofNat fd).symm, fun _ => valid_ofNat sfd, tidy.named⟩, ?_⟩
      have after : ({ c with clientFd := ⟨fd⟩, signalfd := ⟨sfd⟩, connected := true } :
          ChatClient).owned = [(sfd : Fd), (fd : Fd)] := by
        rw [owned, held_ofNat, held_ofNat]
        rfl
      rw [after]
      refine accounts_append all (accounts_closing c.clientFd ?_)
      rw [closed]
      exact .rfl

theorem setName_cases (name : List Byte) (c : ChatClient) :
    Accepts name ∧ setName name c = ⟨{ c with clientName := name }, [], .returned ()⟩ ∨
      ∃ e, setName name c = ⟨c, [], .thrown e⟩ := by
  by_cases accepted : Accepts name
  · obtain ⟨positive, short⟩ := (accepts_iff name).mp accepted
    have nonempty : name ≠ [] := List.length_pos_iff.mp positive
    simp [setName, nonempty, Nat.not_lt.mpr short, accepted]
  · rw [accepts_iff, List.length_pos_iff] at accepted
    by_cases empty : name = []
    · simp [setName, empty]
    · have long : name.length > maxNameLen := Nat.lt_of_not_le fun short => accepted ⟨empty, short⟩
      simp [setName, empty, long]

/-- A call comes back, and the kernel gives it new descriptors. -/
def Proper (c : ChatClient) (table : List Fd) (a : Call) : Prop :=
  ComesBack c a ∧ ∀ answers ∈ a.answers, New answers table

theorem call_handles {c : ChatClient} {a : Call} (good : c.Good) (tidy : c.Tidy)
    (proper : Proper c c.owned a) : Handles c (call c a).1 (call c a).2 := by
  cases a with
  | setName name =>
    rcases setName_cases name c with ⟨accepted, eq⟩ | ⟨e, eq⟩
    · rw [call, eq]
      exact ⟨fun tidy => ⟨tidy.connected, tidy.signalled, accepted⟩, accounts_silent (by simp)⟩
    · rw [call, eq]
      exact handles_silent (by simp)
  | run answers => exact run_handles tidy (proper.2 answers rfl) proper.1
  | stop =>
    rw [call, stop_eq]
    exact handles_stop c
  | eventLoop kernels =>
    refine (run_keeps (I := fun (l : Loop) log => l.client.Good ∧ Handles c l.client log)
      (P := fun _ _ => True) ?_ ⟨good, handles_silent (by simp)⟩
      (along_of_forall (fun _ _ => trivial) _ _)).2
    rintro l log k ⟨there, handles⟩ -
    exact ⟨good_step k there, handles.append (effect_handles (step_effect k l there))⟩

/-! Whole lives. -/

inductive Action where
  | call (a : Call)
  | destroy

/-- The object, until it is destroyed. -/
def act : Option ChatClient → Action → Option ChatClient × List Event
  | none, _ => (none, [])
  | some c, .call a =>
    let r := call c a
    (some r.1, r.2)
  | some c, .destroy => (none, c.destructor)

abbrev Holder : Type := Ledger.Holder (Option ChatClient) Fd

namespace Holder

def next : Holder → Action → Holder × List Event :=
  Ledger.Holder.next Event.gets Event.frees act

/-- The members' descriptors, of which a destroyed object has none. -/
def owned (o : Option ChatClient) : List Fd := (o.map ChatClient.owned).getD []

def Sane (h : Holder) : Action → Prop
  | .call a => ∀ c ∈ h.object, Proper c h.table a
  | .destroy => True

end Holder

structure WholeLife where
  constructor : Constructor
  actions : List Action
  built : (construct constructor {}).outcome = .returned ()
  sane : Along Holder.next Holder.Sane ⟨some (construct constructor {}).state, []⟩ actions

namespace WholeLife

def start (l : WholeLife) : Holder := ⟨some (construct l.constructor {}).state, []⟩

end WholeLife

section
open Program

theorem construct_tidy (k : Constructor) :
    Keeps (fun c => c.owned = [] ∧ c.Tidy) (fun _ => True) (construct k) := by
  have parses (ip : List Byte) :
      Keeps (fun c => c.owned = [] ∧ c.Tidy) (fun _ => True) (ofAddress ip) :=
    keeps_ofAddress ip fun _ _ h => ⟨h.1, h.2.connected, h.2.signalled, h.2.named⟩
  cases k with
  | default => exact keeps_pure _
  | address ip => exact parses ip
  | addressName ip name =>
    refine keeps_bind (parses ip) fun _ c h => ?_
    rcases setName_cases name c with ⟨accepted, eq⟩ | ⟨e, eq⟩
    · rw [eq]
      exact ⟨⟨h.1, h.2.connected, h.2.signalled, accepted⟩, nofun⟩
    · rw [eq]
      exact ⟨h, nofun⟩

end

/-- In every state of every life the object owns what is open, every other descriptor that it ever
got has been closed once, and the getters tell a valid name and whether there is a connection. -/
theorem descriptors_accounted (l : WholeLife) :
    Always Holder.next (fun h log => Ledger.Sound Event.gets Event.frees Holder.owned h log ∧
      ∀ c ∈ h.object, c.Tidy) l.start [] l.actions := by
  refine always_of_invariant
    (I := fun h log => Ledger.Kept Event.gets Event.frees Holder.owned h log ∧
      ∀ c ∈ h.object, c.Good ∧ c.Tidy)
    (fun h log both => ⟨both.1.sound, fun c here => (both.2 c here).2⟩) ?_ ?_ l.sane
  · rintro ⟨object, table⟩ log a ⟨kept, members⟩ sane
    cases object with
    | none => exact ⟨Ledger.kept_next kept (accounts_silent nofun), nofun⟩
    | some c =>
      obtain ⟨good, tidy⟩ := members c rfl
      cases a with
      | call a =>
        obtain ⟨back, new⟩ := sane c rfl
        have proper : Proper c c.owned a := by
          refine ⟨back, fun answers given => ?_⟩
          obtain ⟨socket, signal, differ⟩ := new answers given
          exact ⟨fun fd given member => socket fd given (kept.same.mem_iff.mpr member),
            fun sfd given member => signal sfd given (kept.same.mem_iff.mpr member), differ⟩
        have handles := call_handles good tidy proper
        refine ⟨Ledger.kept_next kept handles.accounts, ?_⟩
        rintro _ ⟨⟩
        exact ⟨good_call good a, handles.tidy tidy⟩
      | destroy =>
        refine ⟨Ledger.kept_next kept ?_, nofun⟩
        change Accounts c.owned [] c.destructor
        rw [destructor_eq]
        exact accounts_closeAll c.owned
  · have valid : Accepts ({} : ChatClient).getName := by decide
    obtain ⟨empty, tidy⟩ := (construct_tidy l.constructor {} ⟨rfl, rfl, nofun, valid⟩).1
    refine ⟨⟨?_, trivial, rfl⟩, ?_⟩
    · change List.Perm [] (construct l.constructor {}).state.owned
      rw [empty]
    · rintro _ ⟨⟩
      exact ⟨good_new ⟨l.constructor, [], l.built⟩, tidy⟩

instance (a : RunAnswers) (table : List Fd) : Decidable (New a table) :=
  decidable_of_iff ((∀ fd ∈ a.socket.toOption, (fd : Fd) ∉ table) ∧
      (∀ sfd ∈ a.signalfd.toOption, (sfd : Fd) ∉ table) ∧
      ∀ sfd ∈ a.signalfd.toOption, ∀ fd ∈ a.socket.toOption, sfd ≠ fd)
    ⟨fun ⟨socket, signal, differ⟩ => ⟨socket, signal, differ⟩,
      fun h => ⟨h.socket, h.signal, h.differ⟩⟩

instance (h : Holder) (a : Action) : Decidable (Holder.Sane h a) := by
  unfold Holder.Sane Proper
  cases a <;> infer_instance

/-- A name line that is refused leaves its signal descriptor to the next call. -/
def refusedLine : WholeLife where
  constructor := .default
  actions := [.call (.run { socket := .ok 3, signalfd := .ok 4, write := [.failed .ECONNRESET] }),
    .call (.run { socket := .ok 3, signalfd := .ok 5, write := [.accepted 8] }), .destroy]
  built := built_default
  sane := by decide +kernel

theorem refused_line_accounted :
    Always Holder.next (fun h log => Ledger.Sound Event.gets Event.frees Holder.owned h log ∧
      ∀ c ∈ h.object, c.Tidy) refusedLine.start [] refusedLine.actions ∧
    (Machine.run Holder.next refusedLine.start refusedLine.actions).2.filterMap Event.frees =
      [3, 4, 5, 3] :=
  ⟨descriptors_accounted refusedLine, by decide +kernel⟩

end TcpChat.ChatClient
