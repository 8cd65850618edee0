import TcpChat.Client.Address
import TcpChat.Client.Descriptors
import TcpChat.Server.Endpoint
import TcpChat.System.Screen

/-! tcpchat.cpp: the programs that `main` runs, which of them meet, and what they show. -/
namespace TcpChat
open Machine

/-- `std::isspace`, as `std::cin` uses it. -/
def isspace (c : Byte) : Bool := c = 32 ∨ 9 ≤ c ∧ c ≤ 13

/-- What `std::cin >> name` stores: the first word, and nothing if there is none. -/
def extract (input : List Byte) : List Byte :=
  (input.dropWhile isspace).takeWhile fun c => !isspace c

/-- What the parser leaves of a command line: the subcommands that were given, and the options. -/
structure CommandLine where
  server : Bool := false
  client : Bool := false
  serverPort : BitVec 16 := 9877
  clientHost : List Byte := ascii ['1', '2', '7', '.', '0', '.', '0', '.', '1']

/-- How a process stands: it returned from `main`, or died of an exception, or is still in it. -/
inductive Exit where
  | code (n : Int)
  | terminated (e : Exn)
  | running
  | undefined
  deriving DecidableEq

/-- A branch of `main`: what comes before the loop, and then the loop. Nobody catches an
exception, so then nothing is destroyed. -/
def branch {S : Type} (r : Result S Event Exn Unit) (loop : S → List Event × Exit) :
    List Event × Exit :=
  match r.outcome with
  | .returned () =>
    let (more, exit) := loop r.state
    (r.events ++ more, exit)
  | .thrown e => (r.events, .terminated e)
  | .blocked => (r.events, .running)
  | .undefined => (r.events, .undefined)

/-- All that a process gets from outside. `help` is the parser's text, and `parsed` what it makes of
the command line, or what it prints on stdout and the code it exits with. `input` is all that
`std::cin` takes from stdin: it reads ahead, and what it has beyond the word no loop gets. -/
structure Invocation where
  argc : Nat
  help : List Byte
  parsed : Except (List Byte × Int) CommandLine
  input : List Byte
  serverRun : ChatServer.RunAnswers
  serverKernels : List ChatServer.Kernel
  clientRun : ChatClient.RunAnswers
  clientKernels : List ChatClient.Kernel

namespace ChatServer

def Control.exit : Control → Exit
  | .returned => .code 0
  | .thrown e => .terminated e
  | .undefined => .undefined
  | .poll | .signal .. | .client .. | .blocked => .running

/-- The loop, and after it the destructor. -/
def looped (ks : List Kernel) (s : ChatServer) : List Event × Exit :=
  let (l, more) := Machine.run step (eventLoop s) ks
  (more ++ if l.control = .returned then l.server.destructor else [], l.control.exit)

def program (port : BitVec 16) (a : RunAnswers) (ks : List Kernel) : List Event × Exit :=
  branch (run a (constructed (some port))) (looped ks)

end ChatServer

namespace ChatClient

def Control.exit : Control → Exit
  | .returned => .code 0
  | .thrown e => .terminated e
  | .undefined => .undefined
  | .poll | .blocked => .running

def prompt : List Byte :=
  ascii ['E', 'n', 't', 'e', 'r', ' ', 'y', 'o', 'u', 'r', ' ', 'n', 'a', 'm', 'e', ':', ' ', '\n']

/-- The branch of the client, up to the loop. -/
def joining (input : List Byte) (a : RunAnswers) : Run Unit := do
  Program.emit [.print prompt]
  setName (extract input)
  run a

def looped (ks : List Kernel) (c : ChatClient) : List Event × Exit :=
  let (l, more) := Machine.run step (eventLoop c) ks
  (more ++ if l.control = .returned then l.client.destructor else [], l.control.exit)

def program (input : List Byte) (a : RunAnswers) (ks : List Kernel) : List Event × Exit :=
  branch (joining input a {}) (looped ks)

end ChatClient

/-- The events of the process, and how it stands. The option `--host` is parsed, and not used. -/
def main (i : Invocation) : List Event × Exit :=
  if i.argc = 1 then ([.print (i.help ++ [newline])], .code 0)
  else match i.parsed with
    | .error (text, code) => ([.print text], .code code)
    | .ok line =>
      if line.server then ChatServer.program line.serverPort i.serverRun i.serverKernels
      else if line.client then ChatClient.program i.input i.clientRun i.clientKernels
      else ([], .code 0)

/-! Where the programs connect to, and what they bind. -/

theorem branch_events {S : Type} {P : Event → Prop} {r : Result S Event Exn Unit}
    {loop : S → List Event × Exit} (first : ∀ e ∈ r.events, P e)
    (later : ∀ e ∈ (loop r.state).1, P e) : ∀ e ∈ (branch r loop).1, P e := by
  unfold branch
  split
  · exact List.forall_mem_append.mpr ⟨first, later⟩
  · exact first
  · exact first
  · exact first

def Unbound (e : Event) : Prop := ∀ fd sa, e ≠ .bind fd sa

namespace ChatClient

theorem unbound_onlyWrites {fd : Fd} {log : List Event} (only : OnlyWrites fd log) :
    ∀ e ∈ log, Unbound e := by
  intro e member
  rcases only e member with ⟨bytes, rfl⟩ | ⟨errno, rfl⟩
  · exact nofun
  · exact nofun

theorem unbound_closing (d : ScopedFileDescriptor) : ∀ e ∈ d.closing, Unbound e := by
  intro e member
  rw [ScopedFileDescriptor.closing_eq] at member
  obtain ⟨fd, _, rfl⟩ := List.mem_map.mp member
  exact nofun

theorem unbound_stopLog (c : ChatClient) : ∀ e ∈ c.stopLog, Unbound e :=
  List.forall_mem_append.mpr ⟨unbound_closing _, unbound_closing _⟩

theorem unbound_run (a : RunAnswers) (c : ChatClient) : ∀ e ∈ (run a c).events, Unbound e := by
  have effect := run_log a c
  generalize run a c = r at effect
  obtain ⟨c', log, o⟩ := r
  change RunLog a c c' log o at effect
  cases effect with
  | nothing => exact nofun
  | undone fd e socket => simp [Unbound]
  | opened fd sfd writes tail c' o off socket signal only sent =>
    have last : ∀ e ∈ tail, Unbound e := by
      cases sent with
      | refused => simp [Unbound]
      | stuck => exact nofun
      | done => exact unbound_closing _
    have opening : ∀ e ∈ [.socket fd, .connect fd c.address.toSockaddr, .signalfd sfd],
        Unbound e := by simp [Unbound]
    have front := List.forall_mem_append.mpr ⟨opening, unbound_closing c.signalfd⟩
    have named := List.forall_mem_append.mpr ⟨front, unbound_onlyWrites only⟩
    exact List.forall_mem_append.mpr ⟨named, last⟩

theorem unbound_of_effect {k : Kernel} {l l' : Loop} {log : List Event}
    (effect : Effect k l l' log) : ∀ e ∈ log, Unbound e := by
  have stdinPart {r : Revents} {c c' : ChatClient} {log : List Event} {o : Outcome Exn Bool}
      (part : StdinPart k r c c' log o) : ∀ e ∈ log, Unbound e := by
    cases part with
    | idle => exact nofun
    | eof => exact List.forall_mem_cons.mpr ⟨nofun, unbound_stopLog c⟩
    | readFailed => simp [Unbound]
    | forwarded _ _ _ _ _ _ _ only | stuck _ _ _ _ _ _ _ _ only =>
      exact List.forall_mem_cons.mpr ⟨nofun, unbound_onlyWrites only⟩
  have serverPart {r : Revents} {c c' : ChatClient} {log : List Event} {o : Outcome Exn Unit}
      (part : ServerPart k r c c' log o) : ∀ e ∈ log, Unbound e := by
    cases part with
    | idle => exact nofun
    | readFailed => simp [Unbound]
    | received bytes b =>
      refine List.forall_mem_cons.mpr ⟨nofun, ?_⟩
      unfold printLog
      split <;> simp [Unbound]
  cases effect with
  | quiet => exact nofun
  | stdinEnds _ _ _ _ _ stdin => exact stdinPart stdin
  | serverEnds _ _ _ _ _ _ _ stdin server =>
    exact List.forall_mem_append.mpr ⟨stdinPart stdin, serverPart server⟩
  | through _ _ _ _ _ _ _ _ _ stdin server signal =>
    refine List.forall_mem_append.mpr ⟨stdinPart stdin,
      List.forall_mem_append.mpr ⟨serverPart server, ?_⟩⟩
    cases signal with
    | idle => exact nofun
    | stop => exact List.forall_mem_cons.mpr ⟨nofun, unbound_stopLog _⟩
    | partly | readFailed => simp [Unbound]

/-- An event of a client that has the default address. -/
def Joining (e : Event) : Prop := Connecting {} e ∧ Unbound e

theorem keeps_joining (input : List Byte) (a : RunAnswers) :
    Program.Keeps (At {}) Joining (joining input a) := by
  have prompts : ∀ e ∈ [Event.print prompt], Joining e := by simp [Joining, Connecting, Unbound]
  refine Program.keeps_bind (Program.keeps_emit prompts) fun _ => ?_
  refine Program.keeps_bind (keeps_setName _ fun _ h => h) fun _ c here => ?_
  obtain ⟨there, each⟩ := keeps_run a c here
  exact ⟨there, fun e member => ⟨each e member, unbound_run a c e member⟩⟩

theorem program_joining (input : List Byte) (a : RunAnswers) (ks : List Kernel) :
    ∀ e ∈ (program input a ks).1, Joining e := by
  have valid := Buffer.valid_empty
  obtain ⟨here, first⟩ := keeps_joining input a {} ⟨rfl, valid, valid⟩
  refine branch_events first ?_
  have loop : At {} (Machine.run step (eventLoop (joining input a {}).state) ks).1.client ∧
      ∀ e ∈ (Machine.run step (eventLoop (joining input a {}).state) ks).2, Joining e := by
    refine run_keeps (I := fun (l : Loop) log => At {} l.client ∧ ∀ e ∈ log, Joining e)
      (P := fun _ _ => True) ?_ ⟨here, nofun⟩ (along_of_forall (fun _ _ => trivial) _ _)
    intro l log k ⟨there, each⟩ _
    have good : l.client.Good := ⟨there.2.1, there.2.2⟩
    have effect := step_effect k l good
    obtain ⟨same, more⟩ := effect_connecting effect {}
    have good' := good_step k good
    exact ⟨⟨same.trans there.1, good'.read, good'.write⟩, List.forall_mem_append.mpr
      ⟨each, fun e member => ⟨more e member, unbound_of_effect effect e member⟩⟩⟩
  refine List.forall_mem_append.mpr ⟨loop.2, ?_⟩
  split
  · exact fun e member => ⟨connecting_stopLog {} _ e member, unbound_stopLog _ e member⟩
  · simp

end ChatClient

namespace ChatServer

/-- The kernel gives the loop no descriptor twice. -/
def LoopFresh (port : BitVec 16) (a : RunAnswers) (ks : List Kernel) : Prop :=
  Along step Fresh (eventLoop (run a (constructed (some port))).state) ks

instance (port : BitVec 16) (a : RunAnswers) (ks : List Kernel) : Decidable (LoopFresh port a ks) :=
  decidableAlong step Fresh _ _

theorem clients_started (port : BitVec 16) (a : RunAnswers) :
    (run a (constructed (some port))).state.clients = [] := by
  have effect := run_effect a (constructed (some port))
  generalize (run a (constructed (some port))).state = s,
    (run a (constructed (some port))).events = log at effect
  cases effect with
  | refused | undone | started => rfl

theorem program_binding {port : BitVec 16} {a : RunAnswers} {ks : List Kernel}
    (fresh : LoopFresh port a ks) :
    ∀ e ∈ (program port a ks).1, Binding { port := port } e := by
  refine branch_events (keeps_run a (constructed (some port)) rfl).2 ?_
  have kept := run_keeps
    (I := fun (l : Loop) log => l.server.Good ∧ ∀ e ∈ log, Binding { port := port } e)
    (fun l _ k h new => ⟨good_step h.1 new,
      List.forall_mem_append.mpr ⟨h.2, binding_of_effect (step_effect k l h.1)⟩⟩)
    ⟨good_of_empty (clients_started port a), by simp⟩ fresh
  refine List.forall_mem_append.mpr ⟨kept.2, ?_⟩
  split
  · intro e member
    rw [destructor_eq] at member
    obtain ⟨fd, _, rfl⟩ := List.mem_map.mp member
    simp [Binding]
  · simp

end ChatServer

namespace Invocation

/-- The server loop of the process, if it has one, is given no descriptor twice. -/
def Fresh (i : Invocation) : Prop :=
  ∀ line ∈ i.parsed.toOption,
    ChatServer.LoopFresh line.serverPort i.serverRun i.serverKernels

instance (i : Invocation) : Decidable i.Fresh :=
  inferInstanceAs (Decidable (∀ line ∈ i.parsed.toOption, _))

end Invocation

/-- Whatever it is told, a process connects to the default address, and binds the port it is
told. -/
theorem main_addresses {i : Invocation} (fresh : i.Fresh) {fd : Fd} {sa : SockaddrIn} :
    (.connect fd sa ∈ (main i).1 → sa = ({} : SocketAddress).toSockaddr) ∧
    (.bind fd sa ∈ (main i).1 → ∃ line, i.parsed = .ok line ∧
      sa = ({ port := line.serverPort } : SocketAddress).toSockaddr) := by
  unfold main
  split
  · simp
  · split
    · simp
    · next line parsed =>
      split
      · have bound := ChatServer.program_binding (fresh line (by simp [parsed, Except.toOption]))
        exact ⟨fun connect => absurd rfl ((bound _ connect).2 fd sa),
          fun bind => ⟨line, parsed, (bound _ bind).1 fd sa rfl⟩⟩
      · split
        · have joins := ChatClient.program_joining i.input i.clientRun i.clientKernels
          exact ⟨fun connect => (joins _ connect).1 fd sa rfl,
            fun bind => absurd rfl ((joins _ bind).2 fd sa)⟩
        · simp

theorem port_injective {p q : BitVec 16} (same : ({ port := p } : SocketAddress).toSockaddr =
    ({ port := q } : SocketAddress).toSockaddr) : p = q := by
  have ports := congrArg (ntohs ·.sinPort) same
  exact (ntohs_htons p).symm.trans (ports.trans (ntohs_htons q))

/-- Two processes meet at port 9877, and nowhere else. -/
theorem meet_iff (c s : Invocation) (fresh : c.Fresh ∧ s.Fresh) (fd fd' : Fd) (sa sa' : SockaddrIn)
    (connect : .connect fd sa ∈ (main c).1) (bind : .bind fd' sa' ∈ (main s).1) :
    sa = sa' ↔ ∃ line, s.parsed = .ok line ∧ line.serverPort = 9877 := by
  obtain rfl := (main_addresses fresh.1).1 connect
  obtain ⟨line, parsed, rfl⟩ := (main_addresses fresh.2).2 bind
  constructor
  · intro same
    exact ⟨line, parsed, (port_injective same).symm⟩
  · rintro ⟨line', parsed', port⟩
    cases parsed.symm.trans parsed'
    rw [port]

def aClient : Invocation where
  argc := 3
  help := []
  parsed := .ok { client := true, clientHost := ascii ['1', '0', '.', '0', '.', '0', '.', '1'] }
  input := ascii ['B', '\n']
  serverRun := { socket := .ok 3, signalfd := .ok 4 }
  serverKernels := []
  clientRun := { socket := .ok 3, signalfd := .ok 4, write := [.accepted 2] }
  clientKernels := []

def aServer : Invocation :=
  { aClient with parsed := .ok { server := true, serverPort := 4000 } }

theorem aServer_not_met :
    (({} : SocketAddress).toSockaddr = ({ port := 4000 } : SocketAddress).toSockaddr) ↔
      ∃ line, aServer.parsed = .ok line ∧ line.serverPort = 9877 :=
  meet_iff aClient aServer (by decide +kernel) 3 3 _ _ (by decide +kernel) (by decide +kernel)

/-! The chat of the programs. -/

theorem not_isspace_extract (input : List Byte) : ∀ c ∈ extract input, isspace c = false := by
  intro c member
  simpa using List.mem_takeWhile_imp member

theorem ChatClient.joining_cases (input : List Byte) (a : RunAnswers) (c : ChatClient) :
    (Accepts (extract input) ∧ joining input a c =
      ⟨(run a { c with clientName := extract input }).state,
        .print prompt :: (run a { c with clientName := extract input }).events,
        (run a { c with clientName := extract input }).outcome⟩) ∨
      ∃ e, joining input a c = ⟨c, [.print prompt], .thrown e⟩ := by
  rcases setName_cases (extract input) c with ⟨accepted, eq⟩ | ⟨e, eq⟩
  · exact .inl ⟨accepted, by simp [joining, eq]⟩
  · exact .inr ⟨e, by simp [joining, eq]⟩

/-- A process that `main` brings into the client's loop, which reads what `std::cin` has left on
stdin. -/
structure Chatter where
  input : List Byte
  answers : ChatClient.RunAnswers
  joined : (ChatClient.joining input answers {}).outcome = .returned ()
  unused : ChatClient.Unused answers

namespace Chatter

def word (c : Chatter) : List Byte := extract c.input

theorem joining_eq (c : Chatter) :
    ChatClient.Accepts c.word ∧ ChatClient.joining c.input c.answers {} =
      ⟨(ChatClient.run c.answers { clientName := c.word }).state,
        .print ChatClient.prompt :: (ChatClient.run c.answers { clientName := c.word }).events,
        (ChatClient.run c.answers { clientName := c.word }).outcome⟩ := by
  rcases ChatClient.joining_cases c.input c.answers {} with joins | ⟨e, eq⟩
  · exact joins
  · have joined := c.joined
    rw [eq] at joined
    cases joined

theorem returned (c : Chatter) :
    (ChatClient.run c.answers { clientName := c.word }).outcome = .returned () := by
  have joined := c.joined
  rwa [c.joining_eq.2] at joined

theorem not_mem_word (c : Chatter) {b : Byte} (space : isspace b = true) : b ∉ c.word := by
  intro member
  rw [not_isspace_extract c.input b member] at space
  cases space

def guest (c : Chatter) : Guest where
  client := { clientName := c.word }
  answers := c.answers
  constructed := ⟨rfl, rfl, rfl, rfl, rfl⟩
  returned := c.returned
  unused := c.unused
  plain := c.not_mem_word (by decide)

/-- Its events: the prompt, those of the guest, and what the destructor closes. -/
theorem program_eq (c : Chatter) (ks : List ChatClient.Kernel) :
    ∃ closes, (ChatClient.program c.input c.answers ks).1 = .print ChatClient.prompt ::
      (c.guest.log (Machine.run ChatClient.step c.guest.session.start ks).2 ++ closes) := by
  have program : (ChatClient.program c.input c.answers ks).1 =
      (ChatClient.joining c.input c.answers {}).events ++
        (ChatClient.looped ks (ChatClient.joining c.input c.answers {}).state).1 := by
    simp only [ChatClient.program, branch, c.joined]
  rw [program, c.joining_eq.2]
  exact ⟨_, by
    simp only [ChatClient.looped, List.cons_append, Guest.log, List.append_assoc]
    rfl⟩

end Chatter

/-- A server process and client processes in one run; the server listens where clients connect. -/
structure Deployment (ι : Type) [DecidableEq ι] where
  serverRun : ChatServer.RunAnswers
  client : ι → Chatter
  acts : List (Network.Act ι)
  allowed : Machine.Along (Network.step fun i => (client i).guest)
    (Network.Allowed fun i => (client i).guest)
    (Network.start (fun i => (client i).guest)
      (ChatServer.run serverRun (ChatServer.constructed (some 9877))).state) acts

namespace Deployment

variable {ι : Type} [DecidableEq ι]

def gathering (d : Deployment ι) : Gathering ι where
  guest i := (d.client i).guest
  server := (ChatServer.run d.serverRun (ChatServer.constructed (some 9877))).state
  acts := d.acts
  empty := ChatServer.clients_started 9877 d.serverRun
  allowed := d.allowed

def chatterCalled (input : List Byte)
    (joined : (ChatClient.joining input guestAnswers {}).outcome = .returned ()) : Chatter where
  input := input
  answers := guestAnswers
  joined := joined
  unused := unused_guestAnswers

/-- A and B have their names, and the loop of B reads hi. What `std::cin` took behind the name B
is lost. -/
def talk : Deployment Bool where
  serverRun := { socket := .ok 3, signalfd := .ok 4 }
  client i := if i then chatterCalled (ascii [' ', 'A', '\n']) (by decide +kernel)
    else chatterCalled (ascii ['B', ' ', 'C', '\n']) (by decide +kernel)
  acts := Gathering.greeting.acts
  allowed := by decide +kernel

end Deployment

end TcpChat
