import Mathlib.Data.Fintype.Basic
import Mathlib.Logic.Function.Basic
import TcpChat.Server.Reassembly
import TcpChat.System.Wire

/-! The whole chat: one server, any number of clients, and a connection for each of them. A run
is any order of their steps, and the bytes in flight are cut anywhere. -/
namespace TcpChat

/-- A client that `run` has connected. Its name is one line, which `set_name` does not check. -/
structure Guest where
  client : ChatClient
  answers : ChatClient.RunAnswers
  constructed : ChatClient.Constructed client
  returned : (ChatClient.run answers client).outcome = .returned ()
  unused : ChatClient.Unused answers
  plain : newline ∉ client.clientName

namespace Guest

def session (g : Guest) : ChatClient.Session where
  client := g.client
  answers := g.answers
  kernels := []
  constructed := g.constructed
  returned := g.returned
  unused := g.unused

def name (g : Guest) : List Byte := g.client.clientName
def fd (g : Guest) : Fd := g.session.fd

/-- All its events: those of `run`, and the later ones. -/
def log (g : Guest) (later : List Event) : List Event := g.session.runLog ++ later

end Guest

structure Network (ι : Type) where
  server : ChatServer.Loop
  client : ι → ChatClient.Loop
  wire : ι → Wire

namespace Network
open Machine

/-- The parties: the server, and the clients. -/
abbrev Party (ι : Type) : Type := Option ι

/-- One step of a client or of the server; `next` is the connection at the head of the queue that
`accept` takes them from. -/
inductive Act (ι : Type) where
  | client (i : ι) (k : ChatClient.Kernel)
  | server (next : ι) (k : ChatServer.Kernel)

variable {ι : Type} [DecidableEq ι] (guest : ι → Guest)

def step (n : Network ι) : Act ι → Network ι × List (Party ι × Event)
  | .client i k =>
    let (loop, more) := ChatClient.step (n.client i) k
    ({ n with
        client := Function.update n.client i loop
        wire := Function.update n.wire i ((n.wire i).ownActs (guest i).fd more) },
      more.map (Prod.mk (some i)))
  | .server next k =>
    let (loop, more) := ChatServer.step n.server k
    ({ n with server := loop, wire := fun i => (n.wire i).acts (i = next) more },
      more.map (Prod.mk none))

def start (server : ChatServer) : Network ι where
  server := ChatServer.eventLoop server
  client i := (guest i).session.start
  wire i := { up := sent (guest i).fd (guest i).session.runLog }

/-- The server's step takes what the connections hold, and breaks no session: its removals fit,
and its read lands behind what is buffered. -/
structure Serves (n : Network ι) (next : ι) (k : ChatServer.Kernel) : Prop where
  fresh : ChatServer.Fresh n.server k
  queued : ∀ e ∈ (ChatServer.step n.server k).2, (∃ y, e = .accept y) → (n.wire next).link = .queued
  offered : ∀ i, (n.wire i).Offers (ChatServer.step n.server k).2
  fits : ChatServer.RemovalFits n.server k
  behind : ChatServer.LandsBehind n.server k

/-- The client's step reads what its connection holds, and its writes return. -/
structure Talks (n : Network ι) (i : ι) (k : ChatClient.Kernel) : Prop where
  offered : readFrom (guest i).fd (ChatClient.step (n.client i) k).2 <+: (n.wire i).down
  writes : ChatClient.WritesReturn (ChatClient.step (n.client i) k).1.control

def Allowed (n : Network ι) : Act ι → Prop
  | .client i k => n.Talks guest i k
  | .server next k => n.Serves next k

instance (e : Event) : Decidable (∃ y, e = .accept y) :=
  match e with
  | .accept y => isTrue ⟨y, rfl⟩
  | .socket _ | .signalfd _ | .bind .. | .listen .. | .connect .. | .close _ | .read ..
  | .readError .. | .write .. | .writeError .. | .print _ | .named .. | .relay .. =>
    isFalse (by simp)

instance [Fintype ι] (n : Network ι) (next : ι) (k : ChatServer.Kernel) :
    Decidable (n.Serves next k) :=
  decidable_of_iff (_ ∧ _ ∧ _ ∧ _ ∧ _)
    ⟨fun ⟨fresh, queued, offered, fits, behind⟩ => ⟨fresh, queued, offered, fits, behind⟩,
      fun ⟨fresh, queued, offered, fits, behind⟩ => ⟨fresh, queued, offered, fits, behind⟩⟩

instance (n : Network ι) (i : ι) (k : ChatClient.Kernel) : Decidable (n.Talks guest i k) :=
  decidable_of_iff (_ ∧ _)
    ⟨fun ⟨offered, writes⟩ => ⟨offered, writes⟩, fun ⟨offered, writes⟩ => ⟨offered, writes⟩⟩

instance [Fintype ι] (n : Network ι) (act : Act ι) : Decidable (n.Allowed guest act) :=
  match act with
  | .client i k => inferInstanceAs (Decidable (n.Talks guest i k))
  | .server next k => inferInstanceAs (Decidable (n.Serves next k))

/-! The parties' own logs after a step, and the connections after a client's. -/

theorem part_own (n : Network ι) (log : List (Party ι × Event)) (i : ι) (k : ChatClient.Kernel) :
    part (some i) (log ++ (n.step guest (.client i k)).2) =
      part (some i) log ++ (ChatClient.step (n.client i) k).2 := by
  simp [step, part_map]

theorem part_other (n : Network ι) (log : List (Party ι × Event)) (i : ι) (k : ChatClient.Kernel)
    {p : Party ι} (differ : p ≠ some i) :
    part p (log ++ (n.step guest (.client i k)).2) = part p log := by
  simp [step, part_map, differ.symm]

theorem part_served (n : Network ι) (log : List (Party ι × Event)) (next : ι)
    (k : ChatServer.Kernel) : part none (log ++ (n.step guest (.server next k)).2) =
      part none log ++ (ChatServer.step n.server k).2 := by
  simp [step, part_map]

theorem part_unserved (n : Network ι) (log : List (Party ι × Event)) (next : ι)
    (k : ChatServer.Kernel) (i : ι) :
    part (some i) (log ++ (n.step guest (.server next k)).2) = part (some i) log := by
  simp [step, part_map]

theorem link_client (n : Network ι) (i : ι) (k : ChatClient.Kernel) (j : ι) :
    ((n.step guest (.client i k)).1.wire j).link = (n.wire j).link := by
  by_cases same : j = i
  · subst same
    simp [step, Wire.ownActs]
  · simp [step, same]

/-! What every run keeps. -/

/-- A client in the middle of its session. -/
def Tied (g : Guest) (l : ChatClient.Loop) (own : List Event) : Prop :=
  ∃ sfd, ChatClient.Distinct g.fd sfd ∧ ChatClient.Wired g.fd sfd l ∧
    ChatClient.Forwards g.fd g.name l.client (g.log own)

/-- What the client sent has been received, or is still on its way. -/
structure Carried (g : Guest) (w : Wire) (own slog : List Event) : Prop where
  queued : w.link = .queued → w.up = sent g.fd (g.log own)
  accepted : ∀ y, w.link = .accepted y →
    ChatServer.received y slog ++ w.up = sent g.fd (g.log own)

structure Sound (n : Network ι) (log : List (Party ι × Event)) : Prop where
  server : ChatServer.Intact n.server (part none log)
  client : ∀ i, Tied (guest i) (n.client i) (part (some i) log)
  carried : ∀ i, Carried (guest i) (n.wire i) (part (some i) log) (part none log)
  single : ∀ i j y, (n.wire i).link = .accepted y → (n.wire j).link = .accepted y → i = j
  here : ChatServer.Returns n.server.control → ∀ y, y ∈ n.server.server.descriptors ↔
    ∃ i, (n.wire i).link = .accepted y

variable {guest}

theorem sound_start {server : ChatServer} (empty : server.clients = []) :
    Sound guest (start guest server) [] where
  server := ChatServer.intact_of_empty empty
  client i := by
    obtain ⟨sfd, distinct, wired, forwards⟩ := ChatClient.start_spec (guest i).session
    have whole : (guest i).log [] = (guest i).session.runLog := List.append_nil _
    exact ⟨sfd, distinct, wired, by rw [part_nil, whole]; exact forwards⟩
  carried i := ⟨fun _ => by simp [start, Guest.log], fun y accepted => by cases accepted⟩
  single i j y accepted := by cases accepted
  here _ y := by simp [start, ChatServer.eventLoop, ChatServer.descriptors, empty]

theorem Guest.log_append (g : Guest) (own more : List Event) :
    g.log (own ++ more) = g.log own ++ more := (List.append_assoc _ _ _).symm

theorem tied_step {g : Guest} {l : ChatClient.Loop} {own : List Event} (h : Tied g l own)
    (k : ChatClient.Kernel) (writes : ChatClient.WritesReturn (ChatClient.step l k).1.control) :
    Tied g (ChatClient.step l k).1 (own ++ (ChatClient.step l k).2) := by
  obtain ⟨sfd, distinct, wired, forwards⟩ := h
  refine ⟨sfd, distinct, ChatClient.wired_step k wired, ?_⟩
  rw [Guest.log_append]
  exact ChatClient.forwards_of_effect (ChatClient.step_effect k l wired.good) wired forwards distinct
    writes

theorem carried_own {g : Guest} {w : Wire} {own slog : List Event} (h : Carried g w own slog)
    (more : List Event) : Carried g (w.ownActs g.fd more) (own ++ more) slog := by
  constructor
  · intro queued
    have before := h.queued queued
    simp [Wire.ownActs, before, Guest.log_append]
  · intro y accepted
    have before := h.accepted y accepted
    simp [Wire.ownActs, Guest.log_append, ← before]

theorem carried_serve {g : Guest} {w : Wire} {own slog more : List Event}
    (h : Carried g w own slog)
    (admits : (∀ y, .accept y ∉ more) ∨ ∃ fd, more = [.accept fd] ∨ more = [.accept fd, .close fd])
    (unaccepted : ∀ y, w.link = .accepted y → .accept y ∉ more) (offers : w.Offers more)
    (next : Bool) : Carried g (w.acts next more) own (slog ++ more) := by
  constructor
  · intro queued
    rw [Wire.acts_still_queued admits queued]
    rw [Wire.acts_still_queued admits queued] at queued
    exact h.queued queued
  · intro y accepted
    obtain ⟨old | ⟨_, waits, accept⟩, kept⟩ := (Wire.acts_link admits next w y).mp accepted
    · have prior := h.accepted y old
      simp only [Wire.Offers, old] at offers
      obtain ⟨rest, split⟩ := offers
      rw [ChatServer.received_append slog (unaccepted y old), Wire.acts_accepted old next kept, ← prior,
        ← split, List.drop_left, List.append_assoc]
    · have single := Wire.single_accept admits accept kept
      have untouched : (w.acts next more).up = w.up := by
        rw [single]
        simp only [Wire.acts, List.foldl_cons, List.foldl_nil, Wire.act]
        split <;> rfl
      rw [untouched, single, (ChatServer.history_accept y slog).1, List.nil_append]
      exact h.queued waits

theorem sound_client {n : Network ι} {log : List (Party ι × Event)} (h : Sound guest n log) {i : ι}
    {k : ChatClient.Kernel} (talks : n.Talks guest i k) :
    Sound guest (n.step guest (.client i k)).1 (log ++ (n.step guest (.client i k)).2) := by
  constructor
  · rw [part_other guest n log i k (by simp)]
    exact h.server
  · intro j
    by_cases same : j = i
    · subst same
      rw [part_own]
      simpa [step] using tied_step (h.client j) k talks.writes
    · rw [part_other guest n log i k (by simpa using same)]
      simpa [step, same] using h.client j
  · intro j
    rw [part_other guest n log i k (p := none) (by simp)]
    by_cases same : j = i
    · subst same
      rw [part_own]
      simpa [step] using carried_own (h.carried j) (ChatClient.step (n.client j) k).2
    · rw [part_other guest n log i k (by simpa using same)]
      simpa [step, same] using h.carried j
  · intro j j' y
    rw [link_client, link_client]
    exact h.single j j' y
  · simp only [link_client]
    exact h.here

/-- What a step of the server can open: at most one connection. -/
theorem admits_step {l : ChatServer.Loop} (k : ChatServer.Kernel) (good : l.server.Good) :
    (∀ y, .accept y ∉ (ChatServer.step l k).2) ∨ ∃ fd, (ChatServer.step l k).2 = [.accept fd] ∨
      (ChatServer.step l k).2 = [.accept fd, .close fd] :=
  (ChatServer.accept_of_effect (ChatServer.step_effect k l good)).imp_right
    fun ⟨fd, _, eq⟩ => ⟨fd, eq⟩

theorem returns_before {l : ChatServer.Loop} {k : ChatServer.Kernel}
    (returns : ChatServer.Returns (ChatServer.step l k).1.control) :
    ChatServer.Returns l.control := by
  by_contra left
  rw [ChatServer.step_of_left left] at returns
  exact left returns

/-- No connection is accepted at a descriptor that another one has. -/
theorem unaccepted {n : Network ι} {log : List (Party ι × Event)} (h : Sound guest n log)
    {next : ι} {k : ChatServer.Kernel} (serves : n.Serves next k) {i : ι} {y : Fd}
    (accepted : (n.wire i).link = .accepted y) : .accept y ∉ (ChatServer.step n.server k).2 := by
  intro member
  by_cases returns : ChatServer.Returns n.server.control
  · have effect := ChatServer.step_effect k n.server h.server.good
    rcases ChatServer.accept_of_effect effect with none | ⟨fd, answer, eq⟩
    · exact none y member
    · have same : y = fd := by rcases eq with eq | eq <;> simpa [eq] using member
      exact (serves.fresh fd answer).2 (same ▸ (h.here returns y).mpr ⟨i, accepted⟩)
  · rw [ChatServer.step_of_left returns] at member
    cases member

theorem sound_server {n : Network ι} {log : List (Party ι × Event)} (h : Sound guest n log)
    {next : ι} {k : ChatServer.Kernel} (serves : n.Serves next k) :
    Sound guest (n.step guest (.server next k)).1 (log ++ (n.step guest (.server next k)).2) := by
  have good := h.server.good
  have admits := admits_step k good
  have link (i : ι) (y : Fd) := Wire.acts_link admits (decide (i = next)) (n.wire i) y
  constructor
  · rw [part_served]
    exact ChatServer.intact_step h.server serves.fresh serves.fits serves.behind
  · intro i
    rw [part_unserved]
    exact h.client i
  · intro i
    rw [part_unserved, part_served]
    exact carried_serve (h.carried i) admits (fun _ => unaccepted h serves)
      (serves.offered i) _
  · intro i j y first second
    obtain ⟨old | ⟨now, _, accept⟩, _⟩ := (link i y).mp first
    · obtain ⟨old' | ⟨_, _, accept⟩, _⟩ := (link j y).mp second
      · exact h.single i j y old old'
      · exact absurd accept (unaccepted h serves old)
    · obtain ⟨old' | ⟨now', _⟩, _⟩ := (link j y).mp second
      · exact absurd accept (unaccepted h serves old')
      · exact (of_decide_eq_true now).trans (of_decide_eq_true now').symm
  · intro returns y
    have after := ChatServer.mem_descriptors_after (ChatServer.step_effect k n.server good) good
      serves.fresh returns y
    rw [h.here (returns_before returns) y] at after
    refine after.trans ?_
    constructor
    · rintro ⟨⟨i, old⟩ | accept, kept⟩
      · exact ⟨i, (link i y).mpr ⟨.inl old, kept⟩⟩
      · have waits := serves.queued _ accept ⟨y, rfl⟩
        exact ⟨next, (link next y).mpr ⟨.inr ⟨by simp, waits, accept⟩, kept⟩⟩
    · rintro ⟨i, now⟩
      obtain ⟨old | ⟨_, _, accept⟩, kept⟩ := (link i y).mp now
      · exact ⟨.inl ⟨i, old⟩, kept⟩
      · exact ⟨.inr accept, kept⟩

theorem sound_step {n : Network ι} {log : List (Party ι × Event)} (h : Sound guest n log)
    {act : Act ι} (allowed : n.Allowed guest act) :
    Sound guest (n.step guest act).1 (log ++ (n.step guest act).2) := by
  cases act with
  | client i k => exact sound_client h allowed
  | server next k => exact sound_server h allowed

end Network
end TcpChat
