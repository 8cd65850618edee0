import TcpChat.Client.Session
import TcpChat.Server.Names
import TcpChat.Server.Reassembly

/-! The name handshake. The client sends its name and a line break, and the server takes the
first line of what it reads. -/
namespace TcpChat

namespace ChatClient

/-- What `run` sends over the socket it leaves. -/
def runBytes (a : RunAnswers) (c : ChatClient) : List Byte :=
  sent (run a c).state.clientFd.get (run a c).events

/-- The object that runs after `set_name`. -/
def named (name : List Byte) (c : ChatClient) : ChatClient := (setName name c).state

theorem named_eq {name : List Byte} (accepted : Accepts name) (c : ChatClient) :
    named name c = { c with clientName := name } := by
  obtain ⟨positive, short⟩ := (accepts_iff name).mp accepted
  have nonempty : name ≠ [] := List.length_pos_iff.mp positive
  simp [named, setName, nonempty, Nat.not_lt.mpr short]

theorem runBytes_eq {a : RunAnswers} {c : ChatClient}
    (returned : (run a c).outcome = .returned ()) : runBytes a c = c.clientName ++ [newline] := by
  obtain ⟨fd, sfd, socket, signal, state, writes, only, all, events⟩ := run_of_returned returned
  have quiet (d : ScopedFileDescriptor) : sent fd d.closing = [] := (unnoticed_closing fd d).sent
  simp [runBytes, state, events, quiet, all, Event.sentTo, ScopedFileDescriptor.get]

end ChatClient

namespace ChatServer
open Machine

/-! Neither what is left in the buffers nor the names have line breaks. -/

structure LineFree (s : ChatServer) : Prop where
  content : ∀ c ∈ s.clients, newline ∉ c.buffer.content
  name : ∀ c ∈ s.clients, newline ∉ c.name

theorem lineFree_step {l : Loop} {k : Kernel} (good : l.server.Good) (fresh : Fresh l k)
    (free : l.server.LineFree) : (step l k).1.server.LineFree := by
  refine ⟨fun c' member => ?_, plain_step good fresh free.name⟩
  cases step_fates good fresh [] c' member with
  | joined fd entry =>
    rw [entry]
    exact List.not_mem_nil
  | kept old => exact free.content c' old
  | moved i c back leaves found last inside entry =>
    rw [entry]
    exact free.content c (mem_clients found)
  | served c bytes old reads nonempty served =>
    rw [served.content]
    exact Framing.not_mem_residue newline _

theorem lineFree_run (r : ServerRun) : r.final.server.LineFree := by
  have kept : r.final.server.Good ∧ r.final.server.LineFree := by
    refine run_keeps (I := fun (l : Loop) _ => l.server.Good ∧ l.server.LineFree) ?_ ?_ r.fresh
    · intro l _ k ⟨good, free⟩ fresh
      exact ⟨good_step good fresh, lineFree_step good fresh free⟩
    · have empty : (eventLoop r.server).server.clients = [] := r.empty
      exact ⟨good_of_empty r.empty, by simp [empty], by simp [empty]⟩
  exact kept.2

/-- The step reads no line break from this connection. -/
def SendsNoLine (fd : Fd) (l : Loop) (k : Kernel) : Prop :=
  ∀ t ∈ reading l k, t.1.fd.get = fd → ∀ bytes ∈ t.2.toOption, newline ∉ bytes

def LandsBehindFor (fd : Fd) (l : Loop) (k : Kernel) : Prop :=
  ∀ t ∈ reading l k, t.1.fd.get = fd → LandsBehind l k

instance (fd : Fd) (l : Loop) (k : Kernel) : Decidable (SendsNoLine fd l k) := by
  unfold SendsNoLine
  infer_instance

instance (fd : Fd) (l : Loop) (k : Kernel) : Decidable (LandsBehindFor fd l k) := by
  unfold LandsBehindFor
  infer_instance

def Unrelayed (fd : Fd) (log : List Event) : Prop := ∀ name text, .relay fd name text ∉ log

theorem unrelayed_append {fd : Fd} {log more : List Event} (h : Unrelayed fd log)
    (h' : Unrelayed fd more) : Unrelayed fd (log ++ more) := by
  intro name text member
  rcases List.mem_append.mp member with m | m
  · exact h name text m
  · exact h' name text m

theorem unrelayed_of_mute {fd : Fd} {log : List Event} (mute : ∀ e ∈ log, Mute e) :
    Unrelayed fd log := by
  intro name text member
  exact mute _ member

theorem relay_of_relayed {write : Fd → List WriteAnswer} {y fd : Fd} {name text : List Byte}
    {fds : List Fd} {log : List Event} {outcome : Outcome Exn Unit}
    (relayed : Relayed write y name text fds log outcome) {name' text' : List Byte}
    (member : .relay fd name' text' ∈ log) : y = fd ∧ text ≠ [] := by
  rcases relayed_log relayed with ⟨_, rfl⟩ | ⟨nonempty, writes, inside, rfl⟩
  · cases member
  · rcases List.mem_cons.mp member with same | sent
    · cases same
      exact ⟨rfl, nonempty⟩
    · obtain ⟨_, _, ⟨_, eq⟩ | ⟨_, eq⟩⟩ := inside _ sent
      · cases eq
      · cases eq

/-- A client is served whose connection is another, or has nothing to relay. -/
theorem unrelayed_of_serve {k : Kernel} {l l' : Loop} {more : List Event} {i : Nat}
    {c c' : ClientInfo} {bytes : List Byte} {tail : List Event} {control : Control}
    {outcome : Outcome Exn Unit} (serve : Serve k l l' more i c c' bytes tail control outcome)
    {fd : Fd} (nothing : c.fd.get = fd → relayText c (landed c.buffer bytes) = []) :
    Unrelayed fd more := by
  intro name text member
  rw [serve.more] at member
  rcases List.mem_cons.mp member with impossible | later
  · cases impossible
  · rcases List.mem_append.mp later with line | relayed
    · unfold namedLog at line
      split at line
      · cases line
      · cases List.mem_singleton.mp line
    · obtain ⟨here, some⟩ := relay_of_relayed serve.relayed relayed
      exact some (nothing here)

theorem unrelayed_step {l : Loop} {k : Kernel} {fd : Fd} (good : l.server.Good)
    (free : l.server.LineFree) (noLine : SendsNoLine fd l k) (behind : LandsBehindFor fd l k) :
    Unrelayed fd (step l k).2 := by
  rcases mute_or_serve (step_effect k l good) with mute | ⟨i, c, c', bytes, tail, control, outcome, serve⟩
  · exact unrelayed_of_mute mute
  · apply unrelayed_of_serve serve
    intro here
    have absent := noLine _ serve.reads here bytes rfl
    have lands : c.buffer.content ++ bytes = landed c.buffer bytes := by
      simpa only [LandsBehind, serve.reads] using behind _ serve.reads here
    have plain : newline ∉ landed c.buffer bytes := by
      rw [← lands]
      intro member
      rcases List.mem_append.mp member with m | m
      · exact free.content c (mem_clients serve.found) m
      · exact absent m
    rw [relayText, Framing.complete_of_not_mem plain, List.drop_nil]

theorem unrelayed_run {l : Loop} {fd : Fd} {kernels : List Kernel} (good : l.server.Good)
    (free : l.server.LineFree) (fresh : Along step Fresh l kernels)
    (noLine : Along step (SendsNoLine fd) l kernels)
    (behind : Along step (LandsBehindFor fd) l kernels) :
    Unrelayed fd (Machine.run step l kernels).2 := by
  have allowed := (along_and step _ _ _ _).mpr
    ⟨fresh, (along_and step _ _ _ _).mpr ⟨noLine, behind⟩⟩
  have kept := run_keeps
    (I := fun (l : Loop) log => (l.server.Good ∧ l.server.LineFree) ∧ Unrelayed fd log)
    (fun l log k ⟨⟨good, free⟩, silent⟩ ⟨fresh, noLine, behind⟩ =>
      ⟨⟨good_step good fresh, lineFree_step good fresh free⟩,
        unrelayed_append silent (unrelayed_step good free noLine behind)⟩)
    ⟨⟨good, free⟩, fun _ _ => List.not_mem_nil⟩ allowed
  exact kept.2

end ChatServer
open ChatServer

/-- A client with an accepted name has run, and the server comes to read all its bytes at once,
into the empty buffer of an entry that has no name yet. -/
structure Handshake where
  client : ChatClient
  name : List Byte
  answers : ChatClient.RunAnswers
  run : ServerRun
  kernel : ChatServer.Kernel
  entry : ClientInfo
  accepted : ChatClient.Accepts name
  off : client.connected = false
  returned : (ChatClient.run answers (client.named name)).outcome = .returned ()
  unnamed : entry.connected = false
  empty : entry.buffer.content = []
  fresh : Fresh run.final kernel
  reads : reading run.final kernel =
    some (entry, .ok (ChatClient.runBytes answers (client.named name)))

namespace Handshake

def fd (h : Handshake) : Fd := h.entry.fd.get
def next (h : Handshake) : ChatServer.Loop × List Event := step h.run.final h.kernel

/-- The server has the client's name and nothing else of it, and has relayed nothing for it. -/
structure RoundTrips (h : Handshake) : Prop where
  named : ∃ c ∈ h.next.1.server.clients, c.fd.get = h.fd ∧ c.connected = true ∧ c.name = h.name ∧
    c.buffer.content = []
  silent : Unrelayed h.fd h.next.2

/-- What comes after the handshake, up to the first line that the client sends. -/
structure Waiting (h : Handshake) where
  kernels : List ChatServer.Kernel
  fresh : Machine.Along step Fresh h.next.1 kernels
  noLine : Machine.Along step (SendsNoLine h.fd) h.next.1 kernels

end Handshake

theorem landed_of_empty {b : Buffer} (valid : b.Valid) (empty : b.content = []) (bytes : List Byte) :
    landed b bytes = bytes := by
  have none : b.size_.toNat = 0 := by rw [Buffer.size_toNat valid, empty, List.length_nil]
  simp [landed, none, Cells.read]

theorem handshake_iff (h : Handshake) : h.RoundTrips ↔ newline ∉ h.name := by
  have good := h.run.good
  have bytes : ChatClient.runBytes h.answers (h.client.named h.name) = h.name ++ [newline] := by
    have returned := h.returned
    rw [ChatClient.named_eq h.accepted] at returned ⊢
    exact ChatClient.runBytes_eq returned
  have reads := h.reads
  rw [bytes] at reads
  have nonempty : h.name ++ [newline] ≠ [] := by simp
  obtain ⟨i, c, tail, control, outcome, serve⟩ :=
    serve_of_effect (step_effect h.kernel h.run.final good) reads nonempty
  have live := landed_of_empty (good.valid _ (mem_clients serve.found)) h.empty (h.name ++ [newline])
  have line : nameLine h.entry (landed h.entry.buffer (h.name ++ [newline])) =
      Framing.first newline (h.name ++ [newline]) := by
    rw [live, nameLine, h.unnamed]
    rfl
  have some : Framing.first newline (h.name ++ [newline]) ≠ [] := by
    intro none
    exact (Framing.first_eq_nil_iff newline _).mp none (List.mem_append_right _ List.mem_cons_self)
  have free := lineFree_run h.run
  constructor
  · intro trips
    obtain ⟨d, member, _, _, same, _⟩ := trips.named
    rw [← same]
    exact (lineFree_step good h.fresh free).name d member
  · intro plain
    have whole : Framing.first newline (h.name ++ [newline]) = h.name ++ [newline] := by
      rw [Framing.first_append_of_not_mem plain List.mem_cons_self]
      rfl
    rw [whole] at line
    have nothing : relayText h.entry (landed h.entry.buffer (h.name ++ [newline])) = [] := by
      rw [relayText, line, live, Framing.complete_concat, List.drop_length]
    refine ⟨⟨c, serve.member, by rw [serve.served.fd]; rfl, ?_, ?_, ?_⟩,
      unrelayed_of_serve serve fun _ => nothing⟩
    · rw [serve.served.connected, line]
      simp
    · rw [serve.served.name, line, if_neg nonempty]
      exact List.dropLast_concat
    · rw [serve.served.content, live]
      exact Framing.residue_eq_nil (by simp)

/-- A name comes out as it went in exactly if it has no line break in it. Until the client sends a
line nothing is relayed for it, as long as what is read of it lands behind what is buffered. -/
theorem roundTrips_iff (h : Handshake) : (h.RoundTrips ↔ newline ∉ h.name) ∧
    ∀ w : h.Waiting, newline ∉ h.name →
      Machine.Along step (LandsBehindFor h.fd) h.next.1 w.kernels →
        Unrelayed h.fd (h.next.2 ++ (Machine.run step h.next.1 w.kernels).2) := by
  refine ⟨handshake_iff h, fun w plain behind => ?_⟩
  have later := unrelayed_run (good_step h.run.good h.fresh)
    (lineFree_step h.run.good h.fresh (lineFree_run h.run)) w.fresh w.noLine behind
  exact unrelayed_append ((handshake_iff h).mpr plain).silent later

/-- The client types half a line after its name. -/
def plainName : Handshake where
  client := {}
  name := ascii ['A', 'B']
  answers := { socket := .ok 3, signalfd := .ok 4, write := [.accepted 3] }
  run :=
    { server := listening
      kernels := joins 5 ++ (delivers 5 0 (ascii ['A', 'B', '\n'])).take 2
      empty := listening_clients
      fresh := by decide +kernel }
  kernel := { poll := .failed .EINTR, read := fun _ => .ofBytes (ascii ['A', 'B', '\n']) }
  entry := newClient 5 Buffer.zeroed
  accepted := (ChatClient.accepts_iff _).mpr (by decide)
  off := rfl
  returned := by decide +kernel
  unnamed := rfl
  empty := by decide +kernel
  fresh := by decide +kernel
  reads := by decide +kernel

def halfLine : plainName.Waiting where
  kernels := delivers 5 0 (ascii ['h', 'i'])
  fresh := by decide +kernel
  noLine := by decide +kernel

theorem plain_name_round_trips : plainName.RoundTrips ∧
    Unrelayed 5 (plainName.next.2 ++ (Machine.run step plainName.next.1 halfLine.kernels).2) ∧
    received 5 (Machine.run step plainName.next.1 halfLine.kernels).2 = ascii ['h', 'i'] := by
  obtain ⟨handshake, later⟩ := roundTrips_iff plainName
  exact ⟨handshake.mpr (by decide), later halfLine (by decide) (by decide +kernel),
    by decide +kernel⟩

/-- A name of two lines: the server takes the first for the name, and the second for a line. -/
def twoLineName : Handshake where
  client := {}
  name := ascii ['A', '\n', 'B']
  answers := { socket := .ok 3, signalfd := .ok 4, write := [.accepted 4] }
  run :=
    { server := listening
      kernels := joins 5 ++ (delivers 5 0 (ascii ['A', '\n', 'B', '\n'])).take 2
      empty := listening_clients
      fresh := by decide +kernel }
  kernel := { poll := .failed .EINTR, read := fun _ => .ofBytes (ascii ['A', '\n', 'B', '\n']) }
  entry := newClient 5 Buffer.zeroed
  accepted := (ChatClient.accepts_iff _).mpr (by decide)
  off := rfl
  returned := by decide +kernel
  unnamed := rfl
  empty := by decide +kernel
  fresh := by decide +kernel
  reads := by decide +kernel

theorem two_line_name_split : ¬ twoLineName.RoundTrips ∧
    twoLineName.next.1.server.clients.map (·.name) = [ascii ['A']] ∧
    .relay 5 (ascii ['A']) (ascii ['B', '\n']) ∈ twoLineName.next.2 := by
  have relayed : .relay 5 (ascii ['A']) (ascii ['B', '\n']) ∈ twoLineName.next.2 := by
    decide +kernel
  exact ⟨fun trips => trips.silent _ _ relayed, by decide +kernel, relayed⟩

end TcpChat
