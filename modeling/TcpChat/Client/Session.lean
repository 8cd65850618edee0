import TcpChat.Lib.Machine
import TcpChat.Client.Step

/-! A session: `run`, then `event_loop`. What goes to the server is a function of stdin alone,
and what is printed one of the server's bytes alone. -/
namespace TcpChat

def Event.printed : Event → List Byte
  | .print text => text
  | _ => []

def readFrom (fd : Fd) (log : List Event) : List Byte := log.flatMap (Event.readFrom fd)
def printed (log : List Event) : List Byte := log.flatMap Event.printed

@[simp] theorem readFrom_append (fd : Fd) (log more : List Event) :
    readFrom fd (log ++ more) = readFrom fd log ++ readFrom fd more := List.flatMap_append
@[simp] theorem printed_append (log more : List Event) :
    printed (log ++ more) = printed log ++ printed more := List.flatMap_append
@[simp] theorem readFrom_cons (fd : Fd) (e : Event) (log : List Event) :
    readFrom fd (e :: log) = e.readFrom fd ++ readFrom fd log := rfl
@[simp] theorem printed_cons (e : Event) (log : List Event) :
    printed (e :: log) = e.printed ++ printed log := rfl
@[simp] theorem readFrom_nil (fd : Fd) : readFrom fd [] = [] := rfl
@[simp] theorem printed_nil : printed [] = [] := rfl

theorem readFrom_onlyWrites {fd : Fd} {log : List Event} (only : OnlyWrites fd log) (y : Fd) :
    readFrom y log = [] := by
  apply List.flatMap_eq_nil_iff.mpr
  intro e member
  rcases only e member with ⟨bytes, rfl⟩ | ⟨errno, rfl⟩ <;> rfl

theorem printed_onlyWrites {fd : Fd} {log : List Event} (only : OnlyWrites fd log) :
    printed log = [] := by
  apply List.flatMap_eq_nil_iff.mpr
  intro e member
  rcases only e member with ⟨bytes, rfl⟩ | ⟨errno, rfl⟩ <;> rfl

namespace ChatClient
open Machine

/-- The complete lines and the tails, in both directions. -/
structure Forwards (fd : Fd) (name : List Byte) (c : ChatClient) (log : List Event) : Prop where
  sent : sent fd log = name ++ [newline] ++ Framing.complete newline (readFrom stdinFileno log)
  printed : printed log = Framing.complete newline (readFrom fd log)
  write : c.writeBuffer.content = Framing.residue newline (readFrom stdinFileno log)
  read : c.readBuffer.content = Framing.residue newline (readFrom fd log)

/-- More events that take `input` from stdin and `incoming` from the server, and pass on the
lines that these complete. -/
structure Passes (fd : Fd) (c c' : ChatClient) (more : List Event) (input incoming : List Byte) :
    Prop where
  typed : readFrom stdinFileno more = input
  received : readFrom fd more = incoming
  sent : sent fd more = Framing.complete newline (c.writeBuffer.content ++ input)
  printed : printed more = Framing.complete newline (c.readBuffer.content ++ incoming)
  write : c'.writeBuffer.content = Framing.residue newline (c.writeBuffer.content ++ input)
  read : c'.readBuffer.content = Framing.residue newline (c.readBuffer.content ++ incoming)

theorem forwards_append {fd : Fd} {name : List Byte} {c c' : ChatClient} {log more : List Event}
    {input incoming : List Byte} (h : Forwards fd name c log)
    (passes : Passes fd c c' more input incoming) : Forwards fd name c' (log ++ more) := by
  constructor
  · rw [sent_append, h.sent, passes.sent, readFrom_append, passes.typed, h.write,
      Framing.complete_append newline (readFrom stdinFileno log), List.append_assoc]
  · rw [printed_append, h.printed, passes.printed, readFrom_append, passes.received, h.read,
      Framing.complete_append newline (readFrom fd log)]
  · rw [passes.write, h.write, readFrom_append, passes.typed, ← Framing.residue_append]
  · rw [passes.read, h.read, readFrom_append, passes.received, ← Framing.residue_append]

structure Unnoticed (fd : Fd) (log : List Event) : Prop where
  typed : readFrom stdinFileno log = []
  received : readFrom fd log = []
  sent : sent fd log = []
  printed : printed log = []

theorem forwards_of_unnoticed {fd : Fd} {name : List Byte} {c c' : ChatClient}
    {log more : List Event} (h : Forwards fd name c log) (unnoticed : Unnoticed fd more)
    (write : c'.writeBuffer = c.writeBuffer) (read : c'.readBuffer = c.readBuffer) :
    Forwards fd name c' (log ++ more) := by
  constructor
  · rw [sent_append, h.sent, unnoticed.sent, readFrom_append, unnoticed.typed, List.append_nil,
      List.append_nil]
  · rw [printed_append, h.printed, unnoticed.printed, readFrom_append, unnoticed.received,
      List.append_nil, List.append_nil]
  · rw [write, h.write, readFrom_append, unnoticed.typed, List.append_nil]
  · rw [read, h.read, readFrom_append, unnoticed.received, List.append_nil]

theorem unnoticed_closing (fd : Fd) (d : ScopedFileDescriptor) : Unnoticed fd d.closing := by
  unfold ScopedFileDescriptor.closing
  split
  · exact ⟨rfl, rfl, rfl, rfl⟩
  · exact ⟨rfl, rfl, rfl, rfl⟩

theorem unnoticed_append {fd : Fd} {log more : List Event} (h : Unnoticed fd log)
    (h' : Unnoticed fd more) : Unnoticed fd (log ++ more) := by
  constructor
  · rw [readFrom_append, h.typed, h'.typed]; rfl
  · rw [readFrom_append, h.received, h'.received]; rfl
  · rw [sent_append, h.sent, h'.sent]; rfl
  · rw [printed_append, h.printed, h'.printed]; rfl

theorem unnoticed_stopLog (fd : Fd) (c : ChatClient) : Unnoticed fd c.stopLog :=
  unnoticed_append (unnoticed_closing fd _) (unnoticed_closing fd _)

theorem unnoticed_read {fd y : Fd} {bytes : List Byte}
    (elsewhere : bytes = [] ∨ y ≠ stdinFileno ∧ y ≠ fd) : Unnoticed fd [.read y bytes] := by
  rcases elsewhere with rfl | ⟨notStdin, notServer⟩
  · constructor <;> simp [Event.readFrom, Event.sentTo, Event.printed]
  · constructor <;> simp [Event.readFrom, Event.sentTo, Event.printed, notStdin, notServer]

theorem printed_printLog (text : List Byte) : printed (printLog text) = text := by
  unfold printLog
  split
  · next empty => exact empty.symm
  · exact List.append_nil text

/-! The parts. -/

theorem StdinPart.forwards {k : Kernel} {r : Revents} {c c' : ChatClient} {more : List Event}
    {o : Outcome Exn Bool} (part : StdinPart k r c c' more o) {fd : Fd} {name : List Byte}
    {log : List Event} (h : Forwards fd name c log) (here : c.clientFd.get = fd)
    (distinct : fd ≠ stdinFileno) (writes : ¬ WriteStuck o) : Forwards fd name c' (log ++ more) := by
  cases part with
  | idle => simpa using h
  | eof =>
    exact forwards_of_unnoticed h
      (unnoticed_append (unnoticed_read (.inl rfl)) (unnoticed_stopLog fd c)) rfl rfl
  | readFailed e => exact forwards_of_unnoticed h ⟨rfl, rfl, rfl, rfl⟩ rfl rfl
  | forwarded bytes b log₁ ready answer nonempty valid only content all carried =>
    rw [here] at only all
    have quiet : c.readBuffer.content = Framing.residue newline (readFrom fd log) := h.read
    have passes : Passes fd c { c with writeBuffer := b } (.read stdinFileno bytes :: log₁) bytes
        [] := by
      refine ⟨?_, ?_, ?_, ?_, content, ?_⟩
      · simp [Event.readFrom, readFrom_onlyWrites only]
      · simp [Event.readFrom, readFrom_onlyWrites only, distinct.symm]
      · simpa [Event.sentTo] using all
      · simp [Event.printed, printed_onlyWrites only, quiet]
      · simp [quiet]
    exact forwards_append h passes
  | stuck bytes b log₁ _ ready answer nonempty valid only ends => exact absurd ends writes

theorem ServerPart.forwards {k : Kernel} {r : Revents} {c c' : ChatClient} {more : List Event}
    {o : Outcome Exn Unit} (part : ServerPart k r c c' more o) {fd : Fd} {name : List Byte}
    {log : List Event} (h : Forwards fd name c log) (here : c.clientFd.get = fd)
    (distinct : fd ≠ stdinFileno) : Forwards fd name c' (log ++ more) := by
  cases part with
  | idle => simpa using h
  | readFailed e => exact forwards_of_unnoticed h ⟨rfl, rfl, rfl, rfl⟩ rfl rfl
  | received bytes b ready answer valid content =>
    rw [here]
    have quiet : c.writeBuffer.content = Framing.residue newline (readFrom stdinFileno log) :=
      h.write
    have passes : Passes fd c { c with readBuffer := b } (.read fd bytes ::
        printLog (Framing.complete newline (c.readBuffer.content ++ bytes))) [] bytes := by
      refine ⟨?_, ?_, ?_, ?_, ?_, content⟩
      all_goals
        by_cases none : Framing.complete newline (c.readBuffer.content ++ bytes) = [] <;>
          simp [printLog, none, Event.readFrom, Event.sentTo, Event.printed, distinct, quiet]
    exact forwards_append h passes

theorem SignalPart.forwards {k : Kernel} {r : Revents} {c c' : ChatClient} {more : List Event}
    {o : Outcome Exn Control} (part : SignalPart k r c c' more o) {fd : Fd} {name : List Byte}
    {log : List Event} (h : Forwards fd name c log)
    (elsewhere : c.signalfd.get ≠ stdinFileno ∧ c.signalfd.get ≠ fd) :
    Forwards fd name c' (log ++ more) := by
  cases part with
  | idle => simpa using h
  | stop siginfo =>
    exact forwards_of_unnoticed h
      (unnoticed_append (unnoticed_read (.inr elsewhere)) (unnoticed_stopLog fd c)) rfl rfl
  | partly siginfo => exact forwards_of_unnoticed h (unnoticed_read (.inr elsewhere)) rfl rfl
  | readFailed e => exact forwards_of_unnoticed h ⟨rfl, rfl, rfl, rfl⟩ rfl rfl

theorem StdinPart.good {k : Kernel} {r : Revents} {c c' : ChatClient} {log : List Event}
    {o : Outcome Exn Bool} (part : StdinPart k r c c' log o) (good : c.Good) : c'.Good := by
  cases part with
  | forwarded bytes b writes ready answer nonempty valid => exact ⟨good.read, valid⟩
  | stuck bytes b writes o ready answer nonempty valid => exact ⟨good.read, valid⟩
  | _ => exact ⟨good.read, good.write⟩

theorem ServerPart.good {k : Kernel} {r : Revents} {c c' : ChatClient} {log : List Event}
    {o : Outcome Exn Unit} (part : ServerPart k r c c' log o) (good : c.Good) : c'.Good := by
  cases part with
  | received bytes b ready answer valid => exact ⟨valid, good.write⟩
  | _ => exact good

theorem SignalPart.good {k : Kernel} {r : Revents} {c c' : ChatClient} {log : List Event}
    {o : Outcome Exn Control} (part : SignalPart k r c c' log o) (good : c.Good) : c'.Good := by
  cases part with
  | stop => exact ⟨good.read, good.write⟩
  | _ => exact good

structure SameWires (c c' : ChatClient) : Prop where
  client : c'.clientFd = c.clientFd
  signal : c'.signalfd = c.signalfd
  connected : c'.connected = c.connected

theorem StdinPart.wires {k : Kernel} {r : Revents} {c c' : ChatClient} {log : List Event}
    {o : Outcome Exn Bool} (part : StdinPart k r c c' log o) :
    SameWires c c' ∨ c'.connected = false ∧ o = .returned false := by
  cases part with
  | eof => exact .inr ⟨rfl, rfl⟩
  | _ => exact .inl ⟨rfl, rfl, rfl⟩

theorem ServerPart.wires {k : Kernel} {r : Revents} {c c' : ChatClient} {log : List Event}
    {o : Outcome Exn Unit} (part : ServerPart k r c c' log o) : SameWires c c' := by
  cases part <;> exact ⟨rfl, rfl, rfl⟩

theorem SignalPart.wires {k : Kernel} {r : Revents} {c c' : ChatClient} {log : List Event}
    {o : Outcome Exn Control} (part : SignalPart k r c c' log o) :
    SameWires c c' ∨ c'.connected = false := by
  cases part with
  | stop => exact .inr rfl
  | _ => exact .inl ⟨rfl, rfl, rfl⟩

/-! Runs. -/

/-- No write of the client failed or is still under way. -/
def WritesReturn (control : Control) : Prop :=
  control ≠ .blocked ∧ ∀ errno, control ≠ .thrown (.systemError errno "write() failed")

theorem not_stuck_of_part {α : Type} {o : Outcome Exn α} (writes : WritesReturn (.ofPart o)) :
    ¬ WriteStuck o := by
  rintro (rfl | ⟨errno, rfl⟩)
  · exact writes.1 rfl
  · exact writes.2 errno rfl

structure Distinct (fd sfd : Fd) : Prop where
  socket : fd ≠ stdinFileno
  signal : sfd ≠ stdinFileno
  both : sfd ≠ fd

instance (fd sfd : Fd) : Decidable (Distinct fd sfd) :=
  decidable_of_iff (fd ≠ stdinFileno ∧ sfd ≠ stdinFileno ∧ sfd ≠ fd)
    ⟨fun ⟨socket, signal, both⟩ => ⟨socket, signal, both⟩, fun h => ⟨h.socket, h.signal, h.both⟩⟩

theorem connected_of_polled {l : Loop} {k : Kernel} {revents : Fd → Revents}
    (ready : polled l k = some revents) : l.client.connected = true := by
  unfold polled at ready
  split at ready
  case isTrue at_poll => exact at_poll.2
  case isFalse => cases ready

/-- What every session keeps, whatever the kernel answers. -/
structure Wired (fd sfd : Fd) (l : Loop) : Prop where
  good : l.client.Good
  wired : l.client.connected = true → l.client.clientFd.get = fd ∧ l.client.signalfd.get = sfd

theorem wired_of_same {fd sfd : Fd} {c c' : ChatClient} (same : SameWires c c')
    (wired : c.connected = true → c.clientFd.get = fd ∧ c.signalfd.get = sfd) :
    c'.connected = true → c'.clientFd.get = fd ∧ c'.signalfd.get = sfd := by
  rw [same.client, same.signal, same.connected]
  exact wired

theorem wired_of_effect {fd sfd : Fd} {k : Kernel} {l l' : Loop} {more : List Event}
    (effect : Effect k l l' more) (h : Wired fd sfd l) : Wired fd sfd l' := by
  obtain ⟨good, wired⟩ := h
  cases effect with
  | quiet => exact ⟨good, wired⟩
  | stdinEnds revents ready c₁ log₁ o stdin ends =>
    refine ⟨stdin.good good, ?_⟩
    rcases stdin.wires with same | ⟨off, _⟩
    · exact wired_of_same same wired
    · exact fun on => absurd (on.symm.trans off) (by decide)
  | serverEnds revents ready c₁ c₂ log₁ log₂ o stdin server ends =>
    have same : SameWires l.client c₁ := stdin.wires.resolve_right (by simp)
    exact ⟨server.good (stdin.good good), wired_of_same server.wires (wired_of_same same wired)⟩
  | through revents ready c₁ c₂ c₃ log₁ log₂ log₃ o stdin server signal =>
    have same : SameWires l.client c₁ := stdin.wires.resolve_right (by simp)
    refine ⟨signal.good (server.good (stdin.good good)), ?_⟩
    rcases signal.wires with kept | off
    · exact wired_of_same kept (wired_of_same server.wires (wired_of_same same wired))
    · exact fun on => absurd (on.symm.trans off) (by decide)

theorem wired_step {fd sfd : Fd} {l : Loop} (k : Kernel) (h : Wired fd sfd l) :
    Wired fd sfd (step l k).1 := wired_of_effect (step_effect k l h.good) h

theorem forwards_of_effect {fd sfd : Fd} {name : List Byte} {k : Kernel} {l l' : Loop}
    {log more : List Event} (effect : Effect k l l' more) (h : Wired fd sfd l)
    (forwards : Forwards fd name l.client log) (distinct : Distinct fd sfd)
    (writes : WritesReturn l'.control) : Forwards fd name l'.client (log ++ more) := by
  cases effect with
  | quiet control => simpa using forwards
  | stdinEnds revents ready c₁ log₁ o stdin ends =>
    obtain ⟨here, _⟩ := h.wired (connected_of_polled ready)
    exact stdin.forwards forwards here distinct.socket (not_stuck_of_part writes)
  | serverEnds revents ready c₁ c₂ log₁ log₂ o stdin server ends =>
    obtain ⟨here, _⟩ := h.wired (connected_of_polled ready)
    have same : SameWires l.client c₁ := stdin.wires.resolve_right (by simp)
    have first := stdin.forwards forwards here distinct.socket (by simp [WriteStuck])
    have second := server.forwards first (by rw [same.client]; exact here) distinct.socket
    rwa [List.append_assoc] at second
  | through revents ready c₁ c₂ c₃ log₁ log₂ log₃ o stdin server signal =>
    obtain ⟨here, watched⟩ := h.wired (connected_of_polled ready)
    have same : SameWires l.client c₁ := stdin.wires.resolve_right (by simp)
    have first := stdin.forwards forwards here distinct.socket (by simp [WriteStuck])
    have second := server.forwards first (by rw [same.client]; exact here) distinct.socket
    have at_signal : c₂.signalfd.get = sfd := by rw [server.wires.signal, same.signal]; exact watched
    have third := signal.forwards second (by rw [at_signal]; exact ⟨distinct.signal, distinct.both⟩)
    rwa [List.append_assoc, List.append_assoc] at third

/-! The start of a session. -/

/-- What `run` leaves when it returns: the name line has been sent. -/
theorem run_of_returned {a : RunAnswers} {c : ChatClient}
    (returned : (run a c).outcome = .returned ()) :
    ∃ fd sfd : Nat, a.socket = .ok fd ∧ a.signalfd = .ok sfd ∧
      (run a c).state = { c with clientFd := ⟨fd⟩, signalfd := ⟨sfd⟩, connected := true } ∧
      ∃ writes, OnlyWrites fd writes ∧ sent fd writes = c.clientName ++ [newline] ∧
        (run a c).events = [.socket fd, .connect fd c.address.toSockaddr, .signalfd sfd] ++
          c.signalfd.closing ++ writes ++ c.clientFd.closing := by
  obtain ⟨c', log, o, eq, effect⟩ := run_cases a c
  rw [eq] at returned ⊢
  cases returned
  cases effect with
  | done fd sfd writes _ _ socket signal only all =>
    exact ⟨fd, sfd, socket, signal, rfl, writes, only, all, rfl⟩

structure Constructed (c : ChatClient) : Prop where
  off : c.connected = false
  noClient : c.clientFd = {}
  noSignal : c.signalfd = {}
  read : c.readBuffer = Buffer.empty
  write : c.writeBuffer = Buffer.empty

/-- The new descriptors are none that is open: stdin is, and each other. -/
def Unused (a : RunAnswers) : Prop :=
  ∀ fd ∈ a.socket.toOption, ∀ sfd ∈ a.signalfd.toOption, Distinct fd sfd

instance (a : RunAnswers) : Decidable (Unused a) := by
  unfold Unused
  infer_instance

/-- A session of a new client: `run` returns, and then iterations of `event_loop`. -/
structure Session where
  client : ChatClient
  answers : RunAnswers
  kernels : List Kernel
  constructed : Constructed client
  returned : (run answers client).outcome = .returned ()
  unused : Unused answers

namespace Session

def start (s : Session) : Loop := eventLoop (ChatClient.run s.answers s.client).state
def runLog (s : Session) : List Event := (ChatClient.run s.answers s.client).events
def fd (s : Session) : Fd := s.start.client.clientFd.get

def final (s : Session) : Loop := (Machine.run step s.start s.kernels).1
def log (s : Session) : List Event := s.runLog ++ (Machine.run step s.start s.kernels).2

def Along (s : Session) (P : Loop → Kernel → Prop) : Prop :=
  Machine.Along step P s.start s.kernels

def Always (s : Session) (Q : Loop → List Event → Prop) : Prop :=
  Machine.Always step Q s.start s.runLog s.kernels

def WritesSucceed (s : Session) : Prop := s.Along fun l k => WritesReturn (step l k).1.control

instance (s : Session) (P : Loop → Kernel → Prop) [∀ l k, Decidable (P l k)] :
    Decidable (s.Along P) := Machine.decidableAlong step P _ _

end Session

theorem closing_default : ({} : ScopedFileDescriptor).closing = [] := by decide

theorem start_spec (s : Session) :
    ∃ sfd, Distinct s.fd sfd ∧ Wired s.fd sfd s.start ∧
      Forwards s.fd s.client.clientName s.start.client s.runLog := by
  obtain ⟨fd, sfd, socket, signal, state, writes, only, all, events⟩ :=
    run_of_returned s.returned
  have distinct : Distinct fd sfd := s.unused fd (by simp [socket, Except.toOption]) sfd
    (by simp [signal, Except.toOption])
  have here : s.fd = fd := by simp [Session.fd, Session.start, eventLoop, state,
    ScopedFileDescriptor.get]
  have client : s.start.client =
      { s.client with clientFd := ⟨fd⟩, signalfd := ⟨sfd⟩, connected := true } := state
  have log : s.runLog =
      [.socket fd, .connect fd s.client.address.toSockaddr, .signalfd sfd] ++ writes := by
    rw [Session.runLog, events, s.constructed.noSignal, s.constructed.noClient, closing_default]
    simp
  refine ⟨sfd, by rw [here]; exact distinct, ⟨⟨?_, ?_⟩, ?_⟩, ?_⟩
  · rw [client]; exact s.constructed.read ▸ Buffer.valid_empty
  · rw [client]; exact s.constructed.write ▸ Buffer.valid_empty
  · rw [here, client]
    exact fun _ => ⟨rfl, rfl⟩
  · rw [here, log, client]
    constructor
    · simp [Event.readFrom, Event.sentTo, readFrom_onlyWrites only, all]
    · simp [Event.readFrom, Event.printed, readFrom_onlyWrites only, printed_onlyWrites only]
    · simp [Event.readFrom, readFrom_onlyWrites only, s.constructed.write, Buffer.content_empty]
    · simp [Event.readFrom, readFrom_onlyWrites only, s.constructed.read, Buffer.content_empty]

/-- In every state of a session whose writes succeed: the name line and the complete lines of
stdin went to the server, the complete lines of the server were printed, and the two buffers
hold the two tails. -/
theorem session_forwards (s : Session) (writes : s.WritesSucceed) :
    s.Always fun l log => Forwards s.fd s.client.clientName l.client log := by
  obtain ⟨sfd, distinct, wired, forwards⟩ := start_spec s
  refine always_of_invariant
    (I := fun l log => Wired s.fd sfd l ∧ Forwards s.fd s.client.clientName l.client log)
    (fun _ _ live => live.2) ?_ ⟨wired, forwards⟩ writes
  intro l log k ⟨wired, forwards⟩ returns
  exact ⟨wired_step k wired,
    forwards_of_effect (step_effect k l wired.good) wired forwards distinct returns⟩

instance (control : Control) : Decidable (WritesReturn control) :=
  match control with
  | .blocked => isFalse fun h => h.1 rfl
  | .thrown (.systemError errno what) =>
    if h : what = "write() failed" then isFalse fun w => w.2 errno (by rw [h])
    else isTrue ⟨nofun, fun _ eq => h (by cases eq; rfl)⟩
  | .thrown (.logicError _) | .thrown (.runtimeError _) | .thrown (.lengthError _)
  | .thrown (.invalidArgument _) | .poll | .returned | .undefined => isTrue ⟨nofun, nofun⟩

instance (s : Session) : Decidable s.WritesSucceed := by
  unfold Session.WritesSucceed
  infer_instance

def types (bytes : List Byte) : Kernel where
  poll := .ready fun y => { pollin := y = stdinFileno }
  stdin := .ofBytes bytes
  write := [.accepted bufferSize, .accepted bufferSize]
def hears (fd : Fd) (bytes : List Byte) : Kernel where
  poll := .ready fun y => { pollin := y = fd }
  server := .ofBytes bytes

/-- A client called A, on socket 3 and signal descriptor 4. -/
def sessionOf (kernels : List Kernel) : Session where
  client := { clientName := ascii ['A'] }
  answers := { socket := .ok 3, signalfd := .ok 4, write := [.accepted bufferSize] }
  kernels := kernels
  constructed := ⟨rfl, rfl, rfl, rfl, rfl⟩
  returned := by decide +kernel
  unused := by decide

def cutLines : Session :=
  sessionOf [types (ascii ['h', 'e']), hears 3 (ascii ['o', 'h', '\n', 'o']),
    types (ascii ['y', '\n', 'y'])]

theorem cut_lines_forwarded :
    cutLines.Always (fun l log => Forwards cutLines.fd cutLines.client.clientName l.client log) ∧
    sent 3 cutLines.log = ascii ['A', '\n', 'h', 'e', 'y', '\n'] ∧
    printed cutLines.log = ascii ['o', 'h', '\n'] :=
  ⟨session_forwards cutLines (by decide +kernel), by decide +kernel, by decide +kernel⟩

end ChatClient
end TcpChat
