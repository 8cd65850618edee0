import TcpChat.Server.Agreement
import TcpChat.Server.Reassembly

/-! The last lines of a client that goes away. A removal at the error flags comes before the
read, and a read of nothing counts as the end of the stream, also when the buffer is full. -/
namespace TcpChat.ChatServer
open Machine

/-- The complete lines of what was received, or waits to be, have been relayed; the first one
is the name. -/
def AllRelayed (fd : Fd) (log : List Event) (waiting : List Byte) : Prop :=
  relayedText fd log =
    (Framing.complete newline (received fd log ++ waiting)).drop
      (Framing.first newline (received fd log)).length

/-- A named client that is removed leaves no complete line unrelayed, and what a step relays
reaches every other client. -/
structure LinesSaved (l : Loop) (log : List Event) (k : Kernel) : Prop where
  relayed : ∀ i ∈ leaving l k, ∀ c ∈ l.server.clients[i]?, c.connected = true →
    AllRelayed c.fd.get log (k.read c.fd.get).waiting
  reaches : Returns (step l k).1.control → ∀ y ∈ l.server.descriptors,
    sent y (step l k).2 = ((broadcasts (step l k).2).filter (·.1 ≠ y)).flatMap (·.2)

/-- At the turn of a named client of which a complete line waits, no error flag is up, and the
buffer has room for the read. -/
def NotCutOff (l : Loop) (k : Kernel) : Prop :=
  match turn l with
  | some (_, p, c) => c.connected = true → newline ∈ (k.read c.fd.get).waiting →
      p.revents.failed = false ∧ (p.revents.pollin = true → 0 < c.buffer.freeSpace)
  | none => True

instance (l : Loop) (k : Kernel) : Decidable (NotCutOff l k) := by
  unfold NotCutOff
  split <;> infer_instance

instance (fd : Fd) (log : List Event) (waiting : List Byte) :
    Decidable (AllRelayed fd log waiting) := inferInstanceAs (Decidable (_ = _))

instance (l : Loop) (log : List Event) (k : Kernel) : Decidable (LinesSaved l log k) :=
  decidable_of_iff (_ ∧ _)
    ⟨fun ⟨relayed, reaches⟩ => ⟨relayed, reaches⟩, fun ⟨relayed, reaches⟩ => ⟨relayed, reaches⟩⟩

theorem allRelayed_iff {c : ClientInfo} {log : List Event} (tracked : Tracked c log)
    (named : c.connected = true) (waiting : List Byte) :
    AllRelayed c.fd.get log waiting ↔ newline ∉ waiting := by
  have known : newline ∈ received c.fd.get log :=
    of_decide_eq_true (tracked.connected.symm.trans named)
  have short : (Framing.first newline (received c.fd.get log)).length ≤
      (Framing.complete newline (received c.fd.get log)).length := by
    rw [Framing.complete_eq_first_append known, List.length_append]
    exact Nat.le_add_right _ _
  have absent := Framing.not_mem_residue newline (received c.fd.get log)
  rw [AllRelayed, tracked.text, Framing.complete_append, List.drop_append_of_le_length short,
    List.self_eq_append_right, Framing.complete_eq_nil_iff, List.mem_append, not_or]
  exact ⟨And.right, fun none => ⟨absent, none⟩⟩

theorem linesSaved_iff {l : Loop} {k : Kernel} {log : List Event} (followed : Followed l log) :
    LinesSaved l log k ↔ NotCutOff l k := by
  have full (c : ClientInfo) (i : Nat) (found : l.server.clients[i]? = some c) :=
    allRelayed_iff (followed.tracked c (mem_clients found))
  constructor
  · rintro ⟨relayed, -⟩
    unfold NotCutOff
    split
    case h_2 => trivial
    case h_1 i p c its_turn =>
      intro named waits
      have found := turn_found its_turn
      have stays : leaving l k ≠ some i := fun leaves =>
        (full c i found named _).mp (relayed i leaves c found named) waits
      constructor
      · by_contra flags
        exact stays (by simp [leaving, its_turn, flags])
      · intro ready
        by_contra room
        have zero : c.buffer.freeSpace.toNat = 0 := by omega
        have nothing := ((k.read c.fd.get).read_eq_nil_iff c.buffer.freeSpace.toNat).mpr (.inl zero)
        exact stays (by simp [leaving, its_turn, ready, nothing])
  · intro kept
    refine ⟨fun i leaves c found named => (full c i found named _).mpr fun waits => ?_,
      fun returns y present => (delivered_step followed.good present returns log).sent⟩
    obtain ⟨p, its_turn, cause⟩ := turn_of_leaving leaves found
    simp only [NotCutOff, its_turn] at kept
    obtain ⟨calm, room⟩ := kept named waits
    rcases cause with flags | ⟨ready, nothing⟩
    · exact absurd (calm.symm.trans flags) (by decide)
    · have space := room ready
      rcases ((k.read c.fd.get).read_eq_nil_iff _).mp nothing with zero | ended
      · omega
      · rw [ended] at waits
        cases waits

/-- A run in which no removal and no read mixes up the bytes of two connections. The names may
come to other connections. -/
structure FollowedRun extends ServerRun where
  fits : toServerRun.Along ContentFits
  behind : toServerRun.Along LandsBehind

/-- The lines of the clients that go away are saved exactly where no turn cuts one off. -/
theorem lines_saved_iff (r : FollowedRun) :
    Each step LinesSaved (eventLoop r.server) [] r.kernels ↔ r.Along NotCutOff := by
  refine each_iff_along (I := Followed) ?_ ?_ (followed_of_empty r.empty)
    ((along_and step _ _ _ _).mpr ⟨r.fresh, (along_and step _ _ _ _).mpr ⟨r.fits, r.behind⟩⟩)
  · intro l log k followed _
    exact linesSaved_iff followed
  · rintro l log k followed ⟨fresh, fits, behind⟩
    exact followed_step followed fresh fits behind

def goodbye : FollowedRun where
  server := listening
  kernels := joins 5 ++ joins 6 ++ delivers 5 0 (ascii ['A', '\n']) ++
    delivers 6 1 (ascii ['B', '\n']) ++ delivers 5 0 (ascii ['b', 'y', 'e', '\n']) ++ hangsUp 5 0
  empty := listening_clients
  fresh := by decide +kernel
  fits := by decide +kernel
  behind := by decide +kernel

theorem goodbye_saved : Each step LinesSaved (eventLoop goodbye.server) [] goodbye.kernels ∧
    goodbye.final.server.descriptors = [6] ∧
    sent 6 goodbye.log = message (ascii ['A']) (ascii ['b', 'y', 'e', '\n']) :=
  ⟨(lines_saved_iff goodbye).mpr (by decide +kernel), by decide +kernel⟩

/-- A named client sends a line and is gone by the next poll, and the line is never read. -/
def lastWords : FollowedRun where
  server := listening
  kernels := joins 5 ++ joins 6 ++ delivers 6 1 (ascii ['A', '\n']) ++
    List.replicate 4
      { poll := .ready fun y => { pollin := y = 6, pollhup := y = 6 }
        read := fun _ => .ofBytes (ascii ['b', 'y', 'e', '\n']) }
  empty := listening_clients
  fresh := by decide +kernel
  fits := by decide +kernel
  behind := by decide +kernel

theorem last_words_lost :
    ¬ ∀ r : FollowedRun, Each step LinesSaved (eventLoop r.server) [] r.kernels := by
  intro all
  have lost : ¬ Each step LinesSaved (eventLoop lastWords.server) [] lastWords.kernels := by
    decide +kernel
  exact lost (all lastWords)

end TcpChat.ChatServer
