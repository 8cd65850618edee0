import TcpChat.Net.Descriptor
import TcpChat.Server.Run

/-! A server object over its life: `run`, `stop` and the event loop in any order, and at last the
destructor. Every descriptor it gets is owned by one of its members, or has been closed once. -/
namespace TcpChat

namespace ChatServer
open Machine

/-- The descriptors that the members hold. -/
def owned (s : ChatServer) : List Fd :=
  s.clients.flatMap (·.fd.held) ++ s.signalfd.held ++ s.listenfd.held

/-- The closes of the destructor: the members in reverse order. -/
def destructor (s : ChatServer) : List Event :=
  s.clients.flatMap (·.fd.closing) ++ s.signalfd.closing ++ s.listenfd.closing

/-- The constructors, with a port or without. -/
def constructed : Option (BitVec 16) → ChatServer
  | none => {}
  | some port => { address := { port := port } }

/-- What can happen to the object: its calls, and the steps of a loop that was entered. -/
inductive Action where
  | run (a : RunAnswers)
  | stop
  | enterLoop
  | loopStep (k : Kernel)
  | destroy

/-- The object, until it is destroyed, with where its loop stands. -/
def act : Option Loop → Action → Option Loop × List Event
  | none, _ => (none, [])
  | some l, .run a =>
    let r := run a l.server
    (some ⟨r.state, l.control⟩, r.events)
  | some l, .stop =>
    let r := stop l.server
    (some ⟨r.state, l.control⟩, r.events)
  | some l, .enterLoop => (some (eventLoop l.server), [])
  | some l, .loopStep k =>
    let next := step l k
    (some next.1, next.2)
  | some l, .destroy => (none, l.server.destructor)

/-- The object and the kernel's table of the descriptors that it was given and that are open. -/
structure Process where
  object : Option Loop
  table : List Fd

namespace Process

def start (port : Option (BitVec 16)) : Process := ⟨some ⟨constructed port, .returned⟩, []⟩

def next (p : Process) (a : Action) : Process × List Event :=
  let r := act p.object a
  (⟨r.1, Ledger.table Event.gets Event.frees p.table r.2⟩, r.2)

/-- The members' descriptors, of which a destroyed object has none. -/
def owned (p : Process) : List Fd :=
  match p.object with
  | some l => l.server.owned
  | none => []

end Process

/-- New descriptors are none that is open, and the close of an open one succeeds. -/
def Sane (p : Process) : Action → Prop
  | .run a =>
    (∀ fd ∈ a.socket.toOption, (fd : Fd) ∉ p.table) ∧
      ∀ sfd ∈ a.signalfd.toOption, (sfd : Fd) ∉ p.table ∧ ∀ fd ∈ a.socket.toOption, sfd ≠ fd
  | .loopStep k => (∀ fd ∈ k.accepted, fd ∉ p.table) ∧ k.close = none
  | _ => True

instance (p : Process) : (a : Action) → Decidable (Sane p a)
  | .run a => inferInstanceAs (Decidable
      ((∀ fd ∈ a.socket.toOption, _) ∧ ∀ sfd ∈ a.signalfd.toOption, _ ∧ ∀ fd ∈ a.socket.toOption, _))
  | .loopStep k => inferInstanceAs (Decidable ((∀ fd ∈ k.accepted, _) ∧ k.close = none))
  | .stop | .enterLoop | .destroy => inferInstanceAs (Decidable True)

structure Life where
  port : Option (BitVec 16)
  actions : List Action
  sane : Machine.Along Process.next Sane (Process.start port) actions

structure Consistent (s : ChatServer) : Prop where
  listening : s.running = s.listenfd.valid
  signalled : s.running = s.signalfd.valid
  idle : s.running = false → s.clients = []
  room : (s.clients.length : Int) ≤ s.maxClients
  valid : ∀ c ∈ s.clients, c.fd.valid = true
  capacity : s.maxClients = 62

/-- What holds whenever the object can be seen. -/
structure Sound (p : Process) (log : List Event) : Prop where
  consistent : ∀ l ∈ p.object, l.server.Consistent
  distinct : p.owned.Nodup
  opened : ∀ fd ∈ p.owned, fd ∈ p.table
  settled : Ledger.Settled Event.gets Event.frees p.owned log

/-! What an action does to what is owned. -/

/-- From a table of what was owned before, the events lead to a table of what is owned after. -/
def Accounts (before after : List Fd) (log : List Event) : Prop :=
  ∀ t : List Fd, t.Perm before → Ledger.Orderly Event.gets Event.frees t log ∧
    (Ledger.table Event.gets Event.frees t log).Perm after

theorem accounts_silent {owned : List Fd} {log : List Event}
    (silent : ∀ e ∈ log, e.gets = none ∧ e.frees = none) : Accounts owned owned log := by
  intro t same
  obtain ⟨orderly, kept⟩ := Ledger.silent_log (t := t) silent
  exact ⟨orderly, kept.symm ▸ same⟩

theorem accounts_append {before middle after : List Fd} {log more : List Event}
    (first : Accounts before middle log) (second : Accounts middle after more) :
    Accounts before after (log ++ more) := by
  intro t same
  obtain ⟨orderly, reached⟩ := first t same
  obtain ⟨orderly', reached'⟩ := second _ reached
  rw [Ledger.table_append]
  exact ⟨Ledger.orderly_append.mpr ⟨orderly, orderly'⟩, reached'⟩

theorem accounts_get {owned : List Fd} {e : Event} {fd : Fd} (gets : e.gets = some fd)
    (fresh : fd ∉ owned) : Accounts owned (fd :: owned) [e] := by
  intro t same
  have unheld : fd ∉ t := fun member => fresh (same.subset member)
  have entered : Ledger.enter Event.gets Event.frees t e = fd :: t := by
    simp only [Ledger.enter, gets]
  refine ⟨⟨by simpa only [Ledger.Proper, gets] using unheld, trivial⟩, ?_⟩
  change (Ledger.enter Event.gets Event.frees t e).Perm (fd :: owned)
  rw [entered]
  exact same.cons fd

theorem accounts_close {owned rest : List Fd} {fd : Fd} (split : owned.Perm (fd :: rest)) :
    Accounts owned rest [.close fd] := by
  intro t same
  have whole := same.trans split
  refine ⟨⟨whole.symm.subset List.mem_cons_self, trivial⟩, ?_⟩
  have erased := whole.erase fd
  rwa [List.erase_cons_head] at erased

theorem accounts_perm {before after other : List Fd} {log : List Event}
    (accounts : Accounts before after log) (same : after.Perm other) :
    Accounts before other log := fun t start =>
  ⟨(accounts t start).1, (accounts t start).2.trans same⟩

theorem accounts_closeAll (owned : List Fd) : Accounts owned [] (owned.map Event.close) := by
  intro t same
  have got : ∀ fd, (Event.close fd).gets = none := fun _ => rfl
  have freed : ∀ fd, (Event.close fd).frees = some fd := fun _ => rfl
  obtain ⟨orderly, none⟩ := Ledger.free_all got freed same
  exact ⟨orderly, List.Perm.of_eq none⟩

theorem stopLog_eq (s : ChatServer) : s.stopLog = s.owned.map Event.close := by
  simp only [stopLog, owned, List.map_append, List.map_flatMap, ScopedFileDescriptor.closing_eq]

theorem destructor_eq (s : ChatServer) : s.destructor = s.owned.map Event.close := stopLog_eq s

theorem owned_stopped (s : ChatServer) : s.stopped.owned = [] := rfl

theorem flatMap_held {clients : List ClientInfo} (valid : ∀ c ∈ clients, c.fd.valid = true) :
    clients.flatMap (·.fd.held) = clients.map (·.fd.get) := by
  induction clients with
  | nil => rfl
  | cons c rest ih =>
    have here := ScopedFileDescriptor.held_of_valid (valid c List.mem_cons_self)
    have later := ih fun d member => valid d (List.mem_cons_of_mem c member)
    rw [List.flatMap_cons, List.map_cons, here, later]
    rfl

theorem owned_eq {s : ChatServer} (valid : ∀ c ∈ s.clients, c.fd.valid = true) :
    s.owned = s.descriptors ++ s.signalfd.held ++ s.listenfd.held := by
  rw [owned, flatMap_held valid]
  rfl

/-! `run`. -/

/-- A call of `run`: nothing was got, or the socket was and is closed again, or all went well. -/
inductive RunEffect (a : RunAnswers) (s : ChatServer) : ChatServer → List Event → Prop
  | refused : RunEffect a s s []
  | undone (fd : Nat) (mid : List Event) (socket : a.socket = .ok fd)
      (silent : ∀ e ∈ mid, e.gets = none ∧ e.frees = none) :
      RunEffect a s s (.socket fd :: (mid ++ [.close fd]))
  | started (fd sfd : Nat) (off : s.running = false) (socket : a.socket = .ok fd)
      (signal : a.signalfd = .ok sfd) :
      RunEffect a s { s with listenfd := ⟨fd⟩, signalfd := ⟨sfd⟩, running := true }
        ([.socket fd, .bind fd s.address.toSockaddr, .listen fd s.backlog, .signalfd sfd] ++
          s.signalfd.closing ++ s.listenfd.closing)

theorem run_effect (a : RunAnswers) (s : ChatServer) :
    RunEffect a s (run a s).state (run a s).events := by
  cases on : s.running with
  | true => simpa [run, on] using RunEffect.refused
  | false =>
    cases socket : a.socket with
    | error e => simpa [run, on, createSocket, socket] using RunEffect.refused
    | ok fd =>
      cases option : a.setsockopt with
      | some e =>
        simpa [run, on, createSocket, socket, Program.unwinding, option] using
          RunEffect.undone fd [] socket (by simp)
      | none =>
        cases bound : a.bind with
        | some e =>
          simpa [run, on, createSocket, socket, Program.unwinding, option, bindSocket, bound] using
            RunEffect.undone fd [] socket (by simp)
        | none =>
          have binding : ∀ e ∈ [Event.bind fd s.address.toSockaddr], e.gets = none ∧ e.frees = none := by
            simp [Event.gets, Event.frees]
          cases heard : a.listen with
          | some e =>
            simpa [run, on, createSocket, socket, Program.unwinding, option, bindSocket, bound,
              listenSocket, heard] using RunEffect.undone fd _ socket binding
          | none =>
            have listening : ∀ e ∈ [Event.bind fd s.address.toSockaddr, .listen fd s.backlog],
                e.gets = none ∧ e.frees = none := by
              simp [Event.gets, Event.frees]
            cases mask : a.sigprocmask with
            | some e =>
              simpa [run, on, createSocket, socket, Program.unwinding, option, bindSocket, bound,
                listenSocket, heard, setupSignalFd, openSignalFd, mask] using
                RunEffect.undone fd _ socket listening
            | none =>
              cases signal : a.signalfd with
              | error e =>
                simpa [run, on, createSocket, socket, Program.unwinding, option, bindSocket, bound,
                  listenSocket, heard, setupSignalFd, openSignalFd, mask, signal] using
                  RunEffect.undone fd _ socket listening
              | ok sfd =>
                simpa [run, on, createSocket, socket, Program.unwinding, option, bindSocket, bound,
                  listenSocket, heard, setupSignalFd, openSignalFd, mask, signal] using
                  RunEffect.started fd sfd on socket signal

theorem consistent_of_runEffect {a : RunAnswers} {s s' : ChatServer} {log : List Event}
    (effect : RunEffect a s s' log) (consistent : s.Consistent) : s'.Consistent := by
  cases effect with
  | refused | undone => exact consistent
  | started fd sfd off =>
    have none : s.clients = [] := consistent.idle off
    have socket : (⟨fd⟩ : ScopedFileDescriptor).valid = true :=
      decide_eq_true (Int.natCast_nonneg fd)
    have signal : (⟨sfd⟩ : ScopedFileDescriptor).valid = true :=
      decide_eq_true (Int.natCast_nonneg sfd)
    exact ⟨socket.symm, signal.symm, nofun, consistent.room, consistent.valid,
      consistent.capacity⟩

theorem owned_off {s : ChatServer} (consistent : s.Consistent) (off : s.running = false) :
    s.owned = [] := by
  have signal : s.signalfd.valid = false := consistent.signalled.symm.trans off
  have listen : s.listenfd.valid = false := consistent.listening.symm.trans off
  simp [owned, consistent.idle off, ScopedFileDescriptor.held_of_invalid signal,
    ScopedFileDescriptor.held_of_invalid listen]

theorem accounts_run {a : RunAnswers} {s s' : ChatServer} {log : List Event}
    (effect : RunEffect a s s' log) (consistent : s.Consistent)
    (socket_unused : ∀ fd ∈ a.socket.toOption, (fd : Fd) ∉ s.owned)
    (signal_unused : ∀ sfd ∈ a.signalfd.toOption, ∀ fd ∈ a.socket.toOption, sfd ≠ fd) :
    Accounts s.owned s'.owned log := by
  cases effect with
  | refused => exact accounts_silent (by simp)
  | undone fd mid socket silent =>
    have unused := socket_unused fd (by simp [socket, Except.toOption])
    have got := accounts_get (e := .socket fd) rfl unused
    exact accounts_append got (accounts_append (accounts_silent silent) (accounts_close .rfl))
  | started fd sfd off socket signal =>
    have differs : (sfd : Fd) ∉ [(fd : Fd)] := by
      have other := signal_unused sfd (by simp [signal, Except.toOption]) fd
        (by simp [socket, Except.toOption])
      simpa using other
    have closed : s.signalfd.held = [] ∧ s.listenfd.held = [] := by
      have none := owned_off consistent off
      simp only [owned, List.append_eq_nil_iff] at none
      exact ⟨none.1.2, none.2⟩
    have after : ({ s with listenfd := ⟨fd⟩, signalfd := ⟨sfd⟩, running := true }).owned =
        [(sfd : Fd), (fd : Fd)] := by
      simp [owned, consistent.idle off, ScopedFileDescriptor.held, ScopedFileDescriptor.valid,
        ScopedFileDescriptor.get]
    rw [owned_off consistent off, after, ScopedFileDescriptor.closing_eq,
      ScopedFileDescriptor.closing_eq, closed.1, closed.2, List.map_nil, List.append_nil,
      List.append_nil]
    have got : Accounts [] [(fd : Fd)] [.socket fd] := accounts_get rfl List.not_mem_nil
    have listening : Accounts [(fd : Fd)] [(fd : Fd)]
        [.bind fd s.address.toSockaddr, .listen fd s.backlog] :=
      accounts_silent (by simp [Event.gets, Event.frees])
    have signalled : Accounts [(fd : Fd)] [(sfd : Fd), (fd : Fd)] [.signalfd sfd] :=
      accounts_get rfl differs
    exact accounts_append got (accounts_append listening signalled)

/-! A step of the loop. -/

theorem length_removed {s : ChatServer} {i : Nat} {c : ClientInfo}
    (found : s.clients[i]? = some c) : (removed s.clients i).length + 1 = s.clients.length := by
  have lengths := (descriptors_perm_removed found).length_eq
  simp only [descriptors, List.length_cons, List.length_map] at lengths
  exact lengths.symm

theorem consistent_removed {s : ChatServer} (consistent : s.Consistent) {i : Nat} {c : ClientInfo}
    (found : s.clients[i]? = some c) :
    ({ s with clients := removed s.clients i } : ChatServer).Consistent := by
  have fewer := length_removed found
  have room := consistent.room
  refine ⟨consistent.listening, consistent.signalled, fun off => ?_, ?_, fun d member => ?_,
    consistent.capacity⟩
  · have none : s.clients = [] := consistent.idle off
    rw [none] at found
    cases found
  · change ((removed s.clients i).length : Int) ≤ s.maxClients
    omega
  · rcases mem_removed found member with old | ⟨back, last, _, rfl⟩
    · exact consistent.valid d old
    · exact consistent.valid back (List.mem_of_getLast? last)

theorem consistent_setClient {s : ChatServer} (consistent : s.Consistent) {i : Nat}
    {c c' : ClientInfo} (found : s.clients[i]? = some c) (same : c'.fd = c.fd) :
    (s.setClient i c').Consistent := by
  refine ⟨consistent.listening, consistent.signalled, fun off => ?_, ?_, fun d member => ?_,
    consistent.capacity⟩
  · have none : s.clients = [] := consistent.idle off
    rw [none] at found
    cases found
  · rw [setClient_clients, List.length_set]
    exact consistent.room
  · rcases List.mem_or_eq_of_mem_set member with old | rfl
    · exact consistent.valid d old
    · rw [same]
      exact consistent.valid c (mem_clients found)

theorem consistent_of_effect {k : Kernel} {l l' : Loop} {more : List Event}
    (effect : Effect k l l' more) (consistent : l.server.Consistent) : l'.server.Consistent := by
  cases effect with
  | quiet | refuse | closeFailed | signalFailed | readFailed => exact consistent
  | join fd revents at_poll answer ready room on =>
    refine ⟨consistent.listening, consistent.signalled, fun off => ?_, ?_, ?_,
      consistent.capacity⟩
    · exact absurd (on.symm.trans off) (by decide)
    · simp only [List.length_append, List.length_singleton]
      omega
    · intro c member
      rcases List.mem_append.mp member with old | new
      · exact consistent.valid c old
      · obtain rfl := List.mem_singleton.mp new
        exact decide_eq_true (Int.natCast_nonneg fd)
  | stop =>
    refine ⟨rfl, rfl, fun _ => rfl, ?_, by simp [stopped], consistent.capacity⟩
    have capacity := consistent.capacity
    simp [stopped, capacity]
  | hangup _ _ _ _ _ turn | eof _ _ _ _ _ turn => exact consistent_removed consistent turn.found
  | serve _ _ _ _ _ _ _ _ _ turn _ _ _ _ served =>
    exact consistent_setClient consistent turn.found served.fd

/-- The removed client's descriptor is all that is no longer owned. -/
theorem owned_removed {s : ChatServer} (consistent : s.Consistent) {i : Nat} {c : ClientInfo}
    (found : s.clients[i]? = some c) :
    s.owned.Perm
      (c.fd.get :: ({ s with clients := removed s.clients i } : ChatServer).owned) := by
  rw [owned_eq consistent.valid, owned_eq (consistent_removed consistent found).valid]
  exact ((descriptors_perm_removed found).append_right _).append_right _

theorem owned_setClient {s : ChatServer} {i : Nat} {c c' : ClientInfo}
    (found : s.clients[i]? = some c) (same : c'.fd = c.fd) : (s.setClient i c').owned = s.owned := by
  have held : (s.clients.set i c').map (·.fd.held) = s.clients.map (·.fd.held) :=
    Slots.map_set_same found (by rw [same])
  simp only [owned, setClient_clients, List.flatMap_def, held]
  rfl

theorem owned_joined {s : ChatServer} (fd : Nat) (memory : Cells Byte bufferSize) :
    ((fd : Fd) :: s.owned).Perm
      ({ s with clients := s.clients ++ [newClient fd memory] } : ChatServer).owned := by
  have held : (newClient fd memory).fd.held = [(fd : Fd)] := by
    simp [newClient, ScopedFileDescriptor.held, ScopedFileDescriptor.valid,
      ScopedFileDescriptor.get]
  simp only [owned, List.flatMap_append, List.flatMap_singleton, held, List.append_assoc]
  exact List.perm_middle.symm

theorem accounts_of_effect {k : Kernel} {l l' : Loop} {more : List Event}
    (effect : Effect k l l' more) (consistent : l.server.Consistent)
    (unused : ∀ fd ∈ k.accepted, fd ∉ l.server.owned) (closes : k.close = none) :
    Accounts l.server.owned l'.server.owned more := by
  cases effect with
  | quiet => exact accounts_silent (by simp)
  | join fd revents at_poll answer =>
    exact accounts_perm (accounts_get rfl (unused fd (mem_accepted answer)))
      (owned_joined fd k.memory)
  | refuse fd revents at_poll answer =>
    have got := accounts_get (e := .accept fd) rfl (unused fd (mem_accepted answer))
    exact accounts_append got (accounts_close .rfl)
  | closeFailed fd e at_poll answer failed => exact absurd (closes.symm.trans failed) nofun
  | signalFailed e _ idle tried =>
    rcases tried with ⟨bytes, rfl⟩ | ⟨e, rfl⟩ <;>
      exact accounts_silent (by simp [Event.gets, Event.frees])
  | stop bytes =>
    have read : Accounts l.server.owned l.server.owned [.read l.server.signalfd.get bytes] :=
      accounts_silent (by simp [Event.gets, Event.frees])
    rw [stopLog_eq, owned_stopped]
    exact accounts_append read (accounts_closeAll l.server.owned)
  | hangup _ _ _ _ c turn => exact accounts_close (owned_removed consistent turn.found)
  | eof _ _ _ _ c turn =>
    have read : Accounts l.server.owned l.server.owned [.read c.fd.get []] :=
      accounts_silent (by simp [Event.gets, Event.frees])
    exact accounts_append read (accounts_close (owned_removed consistent turn.found))
  | readFailed => exact accounts_silent (by simp [Event.gets, Event.frees])
  | serve _ i _ _ c c' bytes tail outcome turn _ _ _ _ served relayed =>
    rw [owned_setClient turn.found served.fd]
    refine accounts_silent (List.forall_mem_cons.mpr ⟨⟨rfl, rfl⟩, ?_⟩)
    exact forall_served relayed _ ⟨rfl, rfl⟩ ⟨rfl, rfl⟩ (fun _ _ => ⟨rfl, rfl⟩)
      fun _ _ => ⟨rfl, rfl⟩

/-! Whole lives. -/

/-- What every action keeps, beside the log. -/
structure Kept (p : Process) (log : List Event) : Prop where
  good : ∀ l ∈ p.object, l.server.Good
  consistent : ∀ l ∈ p.object, l.server.Consistent
  same : p.table.Perm p.owned
  orderly : Ledger.Orderly Event.gets Event.frees [] log
  reached : Ledger.table Event.gets Event.frees [] log = p.table

theorem Kept.sound {p : Process} {log : List Event} (kept : Kept p log) : Sound p log := by
  obtain ⟨_, consistent, same, orderly, reached⟩ := kept
  have distinct : p.table.Nodup := reached ▸ Ledger.nodup_table List.nodup_nil orderly
  have settled := Ledger.settled_of_orderly orderly
  rw [reached] at settled
  exact ⟨consistent, same.nodup_iff.mp distinct, fun fd => same.mem_iff.mpr,
    Ledger.settled_of_same (fun _ => same.mem_iff) settled⟩

theorem kept_start (port : Option (BitVec 16)) : Kept (Process.start port) [] := by
  refine ⟨?_, ?_, ?_, trivial, rfl⟩
  · intro l here
    cases here
    cases port <;> exact good_of_empty rfl
  · intro l here
    cases here
    have room : ((0 : Nat) : Int) ≤ 62 := by decide
    cases port <;> exact ⟨rfl, rfl, fun _ => rfl, room, nofun, rfl⟩
  · cases port <;> exact .rfl

theorem fresh_of_unowned {l : Loop} {k : Kernel} (consistent : l.server.Consistent)
    (unused : ∀ fd ∈ k.accepted, fd ∉ l.server.owned) : Fresh l k := by
  intro fd member
  have unowned := unused fd member
  rw [owned_eq consistent.valid] at unowned
  constructor
  · rintro rfl
    cases valid : l.server.signalfd.valid with
    | true => simp [ScopedFileDescriptor.held_of_valid valid] at unowned
    | false =>
      obtain ⟨answer, _, accepted⟩ := List.mem_filterMap.mp member
      cases answer with
      | failed e => cases accepted
      | accepted n =>
        have same : (n : Int) = l.server.signalfd.fd_ := Option.some.inj accepted
        have negative : ¬ l.server.signalfd.fd_ ≥ 0 := of_decide_eq_false valid
        exact negative (same ▸ Int.natCast_nonneg n)
  · exact fun inside => unowned (List.mem_append_left _ (List.mem_append_left _ inside))

theorem good_of_runEffect {a : RunAnswers} {s s' : ChatServer} {log : List Event}
    (effect : RunEffect a s s' log) (good : s.Good) (consistent : s.Consistent) : s'.Good := by
  cases effect with
  | refused | undone => exact good
  | started fd sfd off => exact good_of_empty (consistent.idle off)

theorem good_stopped (s : ChatServer) : s.stopped.Good := good_of_empty rfl

theorem consistent_stopped {s : ChatServer} (consistent : s.Consistent) :
    s.stopped.Consistent := by
  have capacity := consistent.capacity
  exact ⟨rfl, rfl, fun _ => rfl, by simp [stopped, capacity], by simp [stopped], capacity⟩

/-- From one object to what an action leaves of it. -/
structure Acts (s : ChatServer) (o : Option Loop) (log : List Event) : Prop where
  good : ∀ l ∈ o, l.server.Good
  consistent : ∀ l ∈ o, l.server.Consistent
  accounts : Accounts s.owned (Process.owned ⟨o, []⟩) log

theorem acts_run {l : Loop} (a : RunAnswers) (good : l.server.Good)
    (consistent : l.server.Consistent)
    (socket_unused : ∀ fd ∈ a.socket.toOption, (fd : Fd) ∉ l.server.owned)
    (signal_unused : ∀ sfd ∈ a.signalfd.toOption, ∀ fd ∈ a.socket.toOption, sfd ≠ fd) :
    Acts l.server (act (some l) (.run a)).1 (act (some l) (.run a)).2 := by
  have effect := run_effect a l.server
  have accounts := accounts_run effect consistent socket_unused signal_unused
  refine ⟨?_, ?_, accounts⟩
  · rintro _ ⟨⟩
    exact good_of_runEffect effect good consistent
  · rintro _ ⟨⟩
    exact consistent_of_runEffect effect consistent

theorem acts_stop {l : Loop} (consistent : l.server.Consistent) :
    Acts l.server (act (some l) .stop).1 (act (some l) .stop).2 := by
  simp only [act, stop_eq]
  refine ⟨?_, ?_, ?_⟩
  · rintro _ ⟨⟩
    exact good_stopped l.server
  · rintro _ ⟨⟩
    exact consistent_stopped consistent
  · rw [stopLog_eq]
    exact accounts_closeAll l.server.owned

theorem acts_loopStep {l : Loop} {k : Kernel} (good : l.server.Good)
    (consistent : l.server.Consistent) (unused : ∀ fd ∈ k.accepted, fd ∉ l.server.owned)
    (closes : k.close = none) :
    Acts l.server (act (some l) (.loopStep k)).1 (act (some l) (.loopStep k)).2 := by
  have effect := step_effect k l good
  have accounts := accounts_of_effect effect consistent unused closes
  refine ⟨?_, ?_, accounts⟩
  · rintro _ ⟨⟩
    exact good_of_effect effect good (fresh_of_unowned consistent unused)
  · rintro _ ⟨⟩
    exact consistent_of_effect effect consistent

theorem acts_of_sane {l : Loop} {t : List Fd} {a : Action} (good : l.server.Good)
    (consistent : l.server.Consistent) (same : t.Perm l.server.owned)
    (sane : Sane ⟨some l, t⟩ a) : Acts l.server (act (some l) a).1 (act (some l) a).2 := by
  cases a with
  | run a =>
    obtain ⟨socket, signal⟩ := sane
    exact acts_run a good consistent (fun fd got member => socket fd got (same.mem_iff.mpr member))
      fun sfd got => (signal sfd got).2
  | stop => exact acts_stop consistent
  | enterLoop =>
    refine ⟨?_, ?_, accounts_silent nofun⟩
    · rintro _ ⟨⟩
      exact good
    · rintro _ ⟨⟩
      exact consistent
  | loopStep k =>
    obtain ⟨accepted, closes⟩ := sane
    exact acts_loopStep good consistent
      (fun fd got member => accepted fd got (same.mem_iff.mpr member)) closes
  | destroy =>
    change Acts l.server none l.server.destructor
    rw [destructor_eq]
    refine ⟨?_, ?_, accounts_closeAll l.server.owned⟩
    · rintro _ ⟨⟩
    · rintro _ ⟨⟩

theorem kept_next (p : Process) (log : List Event) (a : Action) (kept : Kept p log)
    (sane : Sane p a) : Kept (p.next a).1 (log ++ (p.next a).2) := by
  obtain ⟨object, t⟩ := p
  obtain ⟨good, consistent, same, orderly, reached⟩ := kept
  cases object with
  | none =>
    refine ⟨good, consistent, same, ?_, ?_⟩
    · simpa [Process.next, act] using orderly
    · simpa [Process.next, act, Ledger.table] using reached
  | some l =>
    have acts := acts_of_sane (good l rfl) (consistent l rfl) same sane
    obtain ⟨later, table⟩ := acts.accounts t same
    refine ⟨acts.good, acts.consistent, table, ?_, ?_⟩
    · rw [Ledger.orderly_append, reached]
      exact ⟨orderly, later⟩
    · rw [Ledger.table_append, reached]
      rfl

/-- In every state of every life the members are consistent and own what is open, and every
descriptor that was ever got is owned or has been closed once. -/
theorem life_sound (r : Life) :
    Machine.Always Process.next Sound (Process.start r.port) [] r.actions :=
  Machine.always_of_invariant (fun _ _ kept => Kept.sound kept) kept_next
    (kept_start r.port) r.sane

/-- The first `run` fails in `bind`, so the second gets the same descriptor again. -/
def secondTry : Life where
  port := some 4000
  actions := [.run { socket := .ok 3, bind := some (.other 98), signalfd := .ok 4 },
    .run { socket := .ok 3, signalfd := .ok 4 }, .enterLoop,
    .loopStep { poll := .ready fun fd => { pollin := fd = 3 }, accept := [.accepted 5] }, .destroy]
  sane := by decide +kernel

theorem second_try_sound :
    Machine.Always Process.next Sound (Process.start secondTry.port) [] secondTry.actions ∧
    (Machine.run Process.next (Process.start secondTry.port) secondTry.actions).2.filterMap
      Event.frees = [3, 5, 4, 3] :=
  ⟨life_sound secondTry, by decide +kernel⟩

end ChatServer
end TcpChat
