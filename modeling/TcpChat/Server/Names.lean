import TcpChat.Client.Model
import TcpChat.Server.Failures

/-! The names the server holds. They have no line breaks, but the rule for their length is
enforced by the client alone, and any peer can connect. -/
namespace TcpChat

/-- What `set_name` accepts. -/
def ChatClient.Accepts (name : List Byte) : Prop :=
  ∀ c : ChatClient, (setName name c).outcome = .returned ()

theorem ChatClient.accepts_iff (name : List Byte) :
    Accepts name ↔ 0 < name.length ∧ name.length ≤ maxNameLen := by
  rw [List.length_pos_iff]
  constructor
  · intro accepts
    have one := accepts {}
    by_cases empty : name = []
    · simp [setName, empty] at one
    · by_cases long : name.length > maxNameLen
      · simp [setName, empty, long] at one
      · exact ⟨empty, Nat.le_of_not_lt long⟩
  · intro ⟨nonempty, short⟩ c
    simp [setName, nonempty, Nat.not_lt.mpr short]

instance (name : List Byte) : Decidable (ChatClient.Accepts name) :=
  decidable_of_iff _ (ChatClient.accepts_iff name).symm

namespace ChatServer
open Machine

theorem not_mem_nameWith {c : ClientInfo} (plain : newline ∉ c.name) (live : List Byte) :
    newline ∉ nameWith c live := by
  unfold nameWith
  split
  · exact plain
  · unfold nameLine
    split
    · exact List.not_mem_nil
    · exact Framing.not_mem_first_dropLast newline live

theorem plain_step {l : Loop} {k : Kernel} (good : l.server.Good) (fresh : Fresh l k)
    (plain : ∀ c ∈ l.server.clients, newline ∉ c.name) :
    ∀ c ∈ (step l k).1.server.clients, newline ∉ c.name := by
  intro c' member
  cases step_fates good fresh [] c' member with
  | joined fd entry =>
    have unnamed : newline ∉ ascii ['N', 'o', 'N', 'a', 'm', 'e'] := by decide
    rw [entry]
    exact unnamed
  | kept old => exact plain c' old
  | moved i c back leaves found last inside entry =>
    rw [entry]
    exact plain c (mem_clients found)
  | served c bytes old reads nonempty served =>
    rw [served.name]
    exact not_mem_nameWith (plain c old) _

def ValidNames (s : ChatServer) : Prop :=
  ∀ c ∈ s.clients, c.connected = true → ChatClient.Accepts c.name ∧ newline ∉ c.name

/-- The name line a step takes, if it takes one, with the client it takes it from. -/
def nameLineTaken (l : Loop) (k : Kernel) : Option (ClientInfo × List Byte) :=
  match reading l k with
  | some (c, .ok bytes) =>
    if bytes = [] ∨ nameLine c (landed c.buffer bytes) = [] then none
    else some (c, nameLine c (landed c.buffer bytes))
  | _ => none

/-- With its line break it is 2 to 33 bytes long. -/
def NameLineFits (l : Loop) (k : Kernel) : Prop :=
  ∀ t ∈ nameLineTaken l k, 2 ≤ t.2.length ∧ t.2.length ≤ maxNameLen + 1

/-- Whose first line is no valid name is not marked connected. -/
def InvalidUnconnected (l : Loop) (k : Kernel) : Prop :=
  ∀ t ∈ nameLineTaken l k, ¬ ChatClient.Accepts t.2.dropLast →
    ∀ c ∈ (step l k).1.server.clients, c.fd.get = t.1.fd.get → c.connected = false

instance (l : Loop) (k : Kernel) : Decidable (NameLineFits l k) := by
  unfold NameLineFits
  infer_instance

theorem accepts_dropLast_iff {line : List Byte} :
    ChatClient.Accepts line.dropLast ↔ 2 ≤ line.length ∧ line.length ≤ maxNameLen + 1 := by
  rw [ChatClient.accepts_iff, List.length_dropLast]
  omega

theorem serve_of_nameLineTaken {l : Loop} {k : Kernel} (good : l.server.Good) {c : ClientInfo}
    {line : List Byte} (takes : nameLineTaken l k = some (c, line)) :
    ∃ c' ∈ (step l k).1.server.clients, c'.connected = true ∧ c'.name = line.dropLast := by
  unfold nameLineTaken at takes
  split at takes
  case h_2 => cases takes
  case h_1 d bytes reads =>
    split at takes
    case isTrue => cases takes
    case isFalse some =>
      obtain ⟨nonempty, named⟩ := not_or.mp some
      cases takes
      obtain ⟨i, c', tail, control, outcome, serve⟩ :=
        serve_of_effect (step_effect k l good) reads nonempty
      refine ⟨c', serve.member, ?_, ?_⟩
      · rw [serve.served.connected]
        simp [named]
      · rw [serve.served.name, if_neg named]

theorem nameLineTaken_of_served {l : Loop} {k : Kernel} {c : ClientInfo} {bytes : List Byte}
    (reads : reading l k = some (c, .ok bytes)) (nonempty : bytes ≠ [])
    (named : nameLine c (landed c.buffer bytes) ≠ []) :
    nameLineTaken l k = some (c, nameLine c (landed c.buffer bytes)) := by
  simp [nameLineTaken, reads, nonempty, named]

structure Named (s : ChatServer) : Prop where
  good : s.Good
  plain : ∀ c ∈ s.clients, newline ∉ c.name
  valid : ∀ c ∈ s.clients, c.connected = true → ChatClient.Accepts c.name

theorem named_step {l : Loop} {k : Kernel} (h : Named l.server) (fresh : Fresh l k)
    (fits : NameLineFits l k) : Named (step l k).1.server := by
  refine ⟨good_step h.good fresh, plain_step h.good fresh h.plain, fun c' member on => ?_⟩
  cases step_fates h.good fresh [] c' member with
  | joined fd entry =>
    rw [entry] at on
    cases on
  | kept old => exact h.valid c' old on
  | moved i c back leaves found last inside entry =>
    rw [entry] at on ⊢
    exact h.valid c (mem_clients found) on
  | served c bytes old reads nonempty served =>
    by_cases none : nameLine c (landed c.buffer bytes) = []
    · have was_on : c.connected = true := by simpa [served.connected, none] using on
      rw [served.name, if_pos none]
      exact h.valid c old was_on
    · rw [served.name, if_neg none]
      exact accepts_dropLast_iff.mpr (fits _ (nameLineTaken_of_served reads nonempty none))

theorem fits_of_validNames {l : Loop} {k : Kernel} (good : l.server.Good)
    (valid : ValidNames (step l k).1.server) : NameLineFits l k := by
  intro t takes
  obtain ⟨c', member, on, name⟩ := serve_of_nameLineTaken good takes
  have accepted := (valid c' member on).1
  rw [name] at accepted
  exact accepts_dropLast_iff.mp accepted

def emptyName : ServerRun where
  server := listening
  kernels := joins 5 ++ delivers 5 0 [newline]
  empty := listening_clients
  fresh := by decide +kernel

end ChatServer
end TcpChat
