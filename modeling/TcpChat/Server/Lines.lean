import TcpChat.Server.Removal

/-! Reads that end where a line ends. They are the reads after which nothing stays in a buffer,
so that the next read finds it empty and lands in its place. -/
namespace TcpChat.ChatServer
open Machine

/-- The step's read, if it finds anything, ends with a whole line. -/
def EndsLine (l : Loop) (k : Kernel) : Prop :=
  ∀ r ∈ reading l k, ∀ bytes ∈ r.2.toOption, bytes ≠ [] → bytes.getLast? = some newline

def Emptied (l : Loop) (_ : List Event) : Prop :=
  ∀ c ∈ l.server.clients, c.buffer.content = []

/-- Everything received has been taken as the name or relayed. -/
def PassedOn (l : Loop) (log : List Event) : Prop :=
  ∀ c ∈ l.server.clients,
    (names c.fd.get log).flatten ++ relayedText c.fd.get log = received c.fd.get log

instance (l : Loop) (k : Kernel) : Decidable (EndsLine l k) := by
  unfold EndsLine
  infer_instance

theorem landed_of_empty {b : Buffer} (valid : b.Valid) (empty : b.content = [])
    (bytes : List Byte) : landed b bytes = bytes := by
  have none : b.size_.toNat = 0 := by
    have length := Buffer.length_content valid
    rw [empty] at length
    simp [← length]
  simp [landed, none, Cells.read]

theorem residue_eq_nil_iff {bytes : List Byte} (nonempty : bytes ≠ []) :
    Framing.residue newline bytes = [] ↔ bytes.getLast? = some newline := by
  constructor
  · intro none
    have split := Framing.complete_append_residue newline bytes
    rw [none, List.append_nil] at split
    have left : Framing.complete newline bytes ≠ [] := by rwa [split]
    exact split ▸ Framing.complete_getLast? left
  · exact Framing.residue_eq_nil

/-- The server's entries with their buffers empty. -/
structure Clear (l : Loop) (log : List Event) : Prop where
  good : l.server.Good
  emptied : Emptied l log

theorem clear_of_empty {s : ChatServer} (empty : s.clients = []) : Clear (eventLoop s) [] :=
  ⟨good_of_empty empty, by simp [Emptied, eventLoop, empty]⟩

theorem content_served {l : Loop} {log : List Event} (clear : Clear l log) {c c' : ClientInfo}
    {bytes : List Byte} (member : c ∈ l.server.clients) (served : Served c c' bytes) :
    c'.buffer.content = Framing.residue newline bytes := by
  rw [served.content, landed_of_empty (clear.good.valid c member) (clear.emptied c member)]

theorem emptied_of_fate {l : Loop} {k : Kernel} {log more : List Event} {c' : ClientInfo}
    (clear : Clear l log) (ends : EndsLine l k) (fate : Fate k l log more c') :
    c'.buffer.content = [] := by
  cases fate with
  | joined fd entry =>
    subst entry
    rfl
  | kept member => exact clear.emptied c' member
  | moved i c back _ found _ _ entry =>
    subst entry
    exact clear.emptied c (mem_clients found)
  | served c bytes member reads nonempty served =>
    have whole := ends (c, .ok bytes) reads bytes rfl nonempty
    rw [content_served clear member served]
    exact Framing.residue_eq_nil whole

theorem clear_step {l : Loop} {k : Kernel} {log : List Event} (clear : Clear l log)
    (fresh : Fresh l k) (ends : EndsLine l k) : Clear (step l k).1 (log ++ (step l k).2) :=
  ⟨good_step clear.good fresh, fun c member =>
    emptied_of_fate clear ends (step_fates clear.good fresh log c member)⟩

/-- A read that does not end a line leaves something behind. -/
theorem endsLine_of_emptied {l : Loop} {k : Kernel} {log more : List Event} (clear : Clear l log)
    (after : Emptied (step l k).1 more) : EndsLine l k := by
  rintro ⟨c, answer⟩ reads bytes found nonempty
  cases answer with
  | error e => cases found
  | ok text =>
    obtain rfl : text = bytes := Option.some.inj found
    obtain ⟨i, c', tail, control, outcome, serve⟩ :=
      serve_of_effect (step_effect k l clear.good) reads nonempty
    have left := after c' serve.member
    rw [content_served clear (mem_clients serve.found) serve.served] at left
    exact (residue_eq_nil_iff nonempty).mp left

theorem landsBehind_of_clear {l : Loop} {log : List Event} (clear : Clear l log) (k : Kernel) :
    LandsBehind l k := by
  unfold LandsBehind
  split
  case h_2 => trivial
  case h_1 c bytes reads =>
    obtain ⟨i, p, its_turn, _⟩ := turn_of_reading reads
    have member := mem_clients (turn_found its_turn)
    rw [landed_of_empty (clear.good.valid c member) (clear.emptied c member),
      clear.emptied c member, List.nil_append]

theorem passedOn_of_tracked {l : Loop} {log : List Event}
    (tracked : ∀ c ∈ l.server.clients, Tracked c log) (emptied : Emptied l log) :
    PassedOn l log := by
  intro c member
  have total := reassembled_of_tracked tracked c member
  rwa [emptied c member, List.append_nil] at total

/-- The buffers are empty throughout exactly where every read ends with a whole line. There the
read position does no harm: all reads land in their place and, where the flags of the entries fit in
each removal, everything received is passed on in the step that reads it. -/
theorem emptied_iff_endsLine (r : ServerRun) :
    (r.Always Emptied ↔ r.Along EndsLine) ∧
    (r.Along EndsLine → r.Along LandsBehind ∧ (r.Along ContentFits → r.Always PassedOn)) := by
  constructor
  · exact always_iff_along (I := Clear) (fun _ _ clear => clear.emptied)
      (fun _ _ _ clear fresh ends => clear_step clear fresh ends)
      (fun _ _ _ clear _ after => endsLine_of_emptied clear after) (clear_of_empty r.empty) r.fresh
  · intro ends
    have allowed := (along_and step _ _ _ _).mpr ⟨r.fresh, ends⟩
    refine ⟨along_of_invariant (I := fun l => Clear l [])
      (fun l k clear _ => landsBehind_of_clear clear k)
      (fun l k clear both => ⟨good_step clear.good both.1, (clear_step clear both.1 both.2).emptied⟩)
      (clear_of_empty r.empty) allowed, fun fits => ?_⟩
    refine always_of_invariant (I := fun l log => Clear l log ∧ Followed l log)
      (fun l log both => passedOn_of_tracked both.2.tracked both.1.emptied) ?_
      ⟨clear_of_empty r.empty, followed_of_empty r.empty⟩
      ((along_and step _ _ _ _).mpr ⟨allowed, fits⟩)
    rintro l log k ⟨clear, followed⟩ ⟨⟨fresh, ends⟩, fits⟩
    exact ⟨clear_step clear fresh ends,
      followed_step followed fresh fits (landsBehind_of_clear clear k)⟩

/-- Three named clients, the first of which leaves; the third one speaks on, in its entry. -/
theorem first_leaves_passed_on : firstLeaves.Always Emptied ∧ firstLeaves.Always PassedOn := by
  obtain ⟨emptied, passed⟩ := emptied_iff_endsLine firstLeaves
  have ends : firstLeaves.Along EndsLine := by decide +kernel
  exact ⟨emptied.mpr ends, (passed ends).2 (by decide +kernel)⟩

example : ¬ cutRun.toServerRun.Along EndsLine := by decide +kernel

end TcpChat.ChatServer
