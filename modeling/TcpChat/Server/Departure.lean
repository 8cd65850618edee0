import TcpChat.Server.Run

/-! Why a client is removed. The poll entry at a client's turn is that client's own, so the
only removals that need no ended connection are those of a read that was asked for nothing. -/
namespace TcpChat.ChatServer
open Machine

/-- Inside a round the poll list has the loop's descriptors and the clients', in their order. -/
def Aligned (l : Loop) : Prop :=
  match l.control with
  | .signal pollfds _ | .client pollfds _ _ =>
    pollfds.map (·.fd) = l.server.listenfd.get :: l.server.signalfd.get :: l.server.descriptors
  | _ => True

theorem polled_fds (s : ChatServer) (revents : Fd → Revents) :
    (s.polled revents).map (·.fd) = s.listenfd.get :: s.signalfd.get :: s.descriptors := by
  simp [polled, pollList, descriptors]

theorem fds_joined (s : ChatServer) (revents : Fd → Revents) (fd : Fd)
    (memory : Cells Byte bufferSize) :
    (s.polled revents ++ [({ fd := fd } : PollFd)]).map (·.fd) = s.listenfd.get :: s.signalfd.get ::
      ({ s with clients := s.clients ++ [newClient fd memory] } : ChatServer).descriptors := by
  rw [List.map_append, polled_fds]
  simp [descriptors, newClient, ScopedFileDescriptor.get]

/-- A removal takes the same place out of the poll list as out of the clients. -/
theorem fds_removed {s : ChatServer} {pollfds : List PollFd} {i : Nat} {a b : Fd}
    (fds : pollfds.map (·.fd) = a :: b :: s.descriptors) (inside : i < s.clients.length) :
    (Slots.swapRemove pollfds (i + 2)).map (·.fd) =
      a :: b :: ({ s with clients := removed s.clients i } : ChatServer).descriptors := by
  have bound : i < s.descriptors.length := by simpa [descriptors] using inside
  rw [Slots.map_swapRemove, fds, Slots.swapRemove_cons _ (Nat.succ_lt_succ bound),
    Slots.swapRemove_cons _ bound]
  exact congrArg _ (congrArg _ (map_fd_removed inside).symm)

theorem aligned_removed {s : ChatServer} {pollfds : List PollFd} {i : Nat}
    (aligned : pollfds.map (·.fd) = s.listenfd.get :: s.signalfd.get :: s.descriptors)
    (inside : i < s.clients.length) (nready : Int) :
    Aligned ⟨{ s with clients := removed s.clients i },
      countDown (Slots.swapRemove pollfds (i + 2)) i nready⟩ := by
  by_cases last : nready - 1 ≤ 0
  · simp [Aligned, countDown, last]
  · simp only [Aligned, countDown, last, if_false]
    exact fds_removed aligned inside

theorem Turn.aligned {l : Loop} {pollfds : List PollFd} {i : Nat} {nready : Int} {p : PollFd}
    {c : ClientInfo} (t : Turn l pollfds i nready p c) (aligned : Aligned l) :
    pollfds.map (·.fd) = l.server.listenfd.get :: l.server.signalfd.get :: l.server.descriptors := by
  simpa only [Aligned, t.at_client] using aligned

theorem aligned_of_quiet {k : Kernel} {l : Loop} {control : Control} (goes : Quiet k l control)
    (aligned : Aligned l) : Aligned ⟨l.server, control⟩ := by
  cases goes with
  | polled at_poll revents => exact polled_fds l.server revents
  | unsignalled pollfds nready p at_signal =>
    rw [Aligned, at_signal] at aligned
    exact aligned
  | unready pollfds i nready p c turn => exact turn.aligned aligned
  | ended => exact aligned
  | _ => trivial

theorem aligned_of_effect {k : Kernel} {l l' : Loop} {more : List Event}
    (effect : Effect k l l' more) (aligned : Aligned l) : Aligned l' := by
  cases effect with
  | quiet control goes => exact aligned_of_quiet goes aligned
  | join fd revents at_poll answer ready room =>
    by_cases last : readyCount (l.server.polled revents) - 1 ≤ 0
    · simp [Aligned, last]
    · simp only [Aligned, last, if_false]
      exact fds_joined l.server revents fd k.memory
  | refuse fd revents =>
    by_cases last : readyCount (l.server.polled revents) - 1 ≤ 0
    · simp [Aligned, last]
    · simp only [Aligned, last, if_false]
      exact polled_fds l.server revents
  | hangup pollfds i nready p c turn =>
    exact aligned_removed (turn.aligned aligned) (List.getElem?_eq_some_iff.mp turn.found).1 nready
  | eof pollfds i nready p c turn =>
    exact aligned_removed (turn.aligned aligned) (List.getElem?_eq_some_iff.mp turn.found).1 nready
  | serve pollfds i nready p c c' bytes log outcome turn flags ready answer nonempty served =>
    have same : (l.server.setClient i c').descriptors = l.server.descriptors :=
      Slots.map_set_same turn.found (by rw [served.fd])
    have fds := turn.aligned aligned
    cases outcome with
    | returned u =>
      by_cases last : nready - 1 ≤ 0
      · simp [Aligned, Control.after, countDown, last]
      · simp only [Aligned, Control.after, countDown, last, if_false]
        rw [same]
        exact fds
    | _ => trivial
  | _ => trivial

theorem aligned_eventLoop (s : ChatServer) : Aligned (eventLoop s) := by
  by_cases on : s.running = true <;> simp [Aligned, eventLoop, on]

theorem turn_fd {l : Loop} (aligned : Aligned l) {i : Nat} {p : PollFd} {c : ClientInfo}
    (its_turn : turn l = some (i, p, c)) : p.fd = c.fd.get := by
  unfold turn at its_turn
  split at its_turn
  case h_2 => cases its_turn
  case h_1 pollfds j nready at_client =>
    split at its_turn
    case h_2 => cases its_turn
    case h_1 q d entry found =>
      simp only [Option.some.injEq, Prod.mk.injEq] at its_turn
      obtain ⟨rfl, rfl, rfl⟩ := its_turn
      rw [Aligned, at_client] at aligned
      have at_p : (pollfds.map (·.fd))[j + 2]? = some q.fd := by simp [entry]
      have at_c : l.server.descriptors[j]? = some d.fd.get := by simp [descriptors, found]
      rw [aligned] at at_p
      exact Option.some.inj (at_p.symm.trans at_c)

/-- The connection is over: the poll said so, it is at the end of its stream, or it was reset. -/
def Over (p : PollFd) (answer : ReadAnswer) : Prop :=
  p.revents.failed = true ∨ answer = .eof ∨ answer = .failed .ECONNRESET

/-- The entry that is tested for signals next. -/
def signalEntry (l : Loop) : Option PollFd :=
  match l.control with
  | .signal pollfds _ => pollfds[1]?
  | _ => none

/-- The poll has a signal waiting on the signal descriptor. -/
def SignalReported (l : Loop) : Prop :=
  ∃ p ∈ signalEntry l, p.fd = l.server.signalfd.get ∧ p.revents.pollin = true

/-- Whoever leaves in this step is polled in it and has an ended connection, or `stop` closes
all at a signal that the poll reported. -/
def LeavesEnded (l : Loop) (k : Kernel) : Prop :=
  ∀ c ∈ l.server.clients, c.fd.get ∉ (step l k).1.server.descriptors →
    (∃ t ∈ turn l, t.2.2 = c ∧ t.2.1.fd = c.fd.get ∧ Over t.2.1 (k.read c.fd.get)) ∨
      SignalReported l ∧ (step l k).1 = ⟨l.server.stopped, .returned⟩

/-- A client that is read has room in its buffer, unless its connection is over. -/
def HasRoom (l : Loop) (k : Kernel) : Prop :=
  ∀ t ∈ turn l, t.2.1.revents.pollin = true →
    0 < t.2.2.buffer.freeSpace ∨ Over t.2.1 (k.read t.2.2.fd.get)

instance (p : PollFd) (answer : ReadAnswer) : Decidable (Over p answer) :=
  inferInstanceAs (Decidable (_ ∨ _ ∨ _))

instance (l : Loop) : Decidable (SignalReported l) := by
  unfold SignalReported
  infer_instance

instance (l : Loop) (k : Kernel) : Decidable (LeavesEnded l k) :=
  inferInstanceAs (Decidable (∀ c ∈ l.server.clients, _ → _))

instance (l : Loop) (k : Kernel) : Decidable (HasRoom l k) := by
  unfold HasRoom
  infer_instance

theorem reported_of_signalled {l : Loop} (aligned : Aligned l)
    (signalled : ∃ pollfds nready p, l.control = .signal pollfds nready ∧
      pollfds[1]? = some p ∧ p.revents.pollin = true) : SignalReported l := by
  obtain ⟨pollfds, nready, p, at_signal, entry, pollin⟩ := signalled
  have own : p.fd = l.server.signalfd.get := by
    rw [Aligned, at_signal] at aligned
    have second : (pollfds.map (·.fd))[1]? = some p.fd := by simp [entry]
    rw [aligned] at second
    exact (Option.some.inj second).symm
  exact ⟨p, by simp [signalEntry, at_signal, entry], own, pollin⟩

theorem leavesEnded_iff_hasRoom {l : Loop} (k : Kernel) (good : l.server.Good)
    (aligned : Aligned l) : LeavesEnded l k ↔ HasRoom l k := by
  have effect := step_effect k l good
  constructor
  · rintro ended ⟨i, p, c⟩ its_turn ready
    by_cases room : 0 < c.buffer.freeSpace
    · exact .inl room
    · refine .inr (by_contra fun going => ?_)
      have flags : p.revents.failed = false := by
        cases h : p.revents.failed with
        | false => rfl
        | true => exact absurd (.inl h) going
      have nothing : (k.read c.fd.get).read c.buffer.freeSpace.toNat = .ok [] :=
        (ReadAnswer.read_eq_nil_iff _ _).mpr (.inl (by omega))
      have ready : p.revents.pollin = true := ready
      have leaves : leaving l k = some i := by
        simp [leaving, Option.mem_def.mp its_turn, flags, ready, nothing]
      obtain ⟨d, found, _, ⟨pollfds, nready, control⟩, _⟩ := removal_of_effect effect leaves
      have same : d = c := Option.some.inj (found.symm.trans (turn_found its_turn))
      subst same
      rcases ended d (mem_clients found) (gone_of_leaving effect good leaves found) with
        ⟨t, polled, _, _, lost⟩ | ⟨_, stopped⟩
      · cases Option.mem_unique polled its_turn
        exact going lost
      · rw [stopped] at control
        by_cases last : nready - 1 ≤ 0 <;> simp [countDown, last] at control
  · intro room c member left
    rcases left_of_effect effect good member left with ⟨stopped, signalled⟩ | ⟨i, leaves, found⟩
    · exact .inr ⟨reported_of_signalled aligned signalled, stopped⟩
    · obtain ⟨p, its_turn, why⟩ := turn_of_leaving leaves found
      refine .inl ⟨(i, p, c), its_turn, rfl, turn_fd aligned its_turn, ?_⟩
      rcases why with failed | ⟨ready, nothing⟩
      · exact .inl failed
      · rcases (ReadAnswer.read_eq_nil_iff _ _).mp nothing with full | eof
        · rcases room (i, p, c) its_turn ready with space | lost
          · have space : 0 < c.buffer.freeSpace := space
            omega
          · exact lost
        · exact .inr (.inl eof)

/-- The runs in which nobody is cut off are those in which no open connection is read into a
full buffer. -/
theorem leavesEnded_along_iff (r : ServerRun) : r.Along LeavesEnded ↔ r.Along HasRoom := by
  refine along_congr (I := fun l => l.server.Good ∧ Aligned l)
    (fun l k h => leavesEnded_iff_hasRoom k h.1 h.2) ?_
    ⟨good_of_empty r.empty, aligned_eventLoop r.server⟩ r.fresh
  intro l k ⟨good, aligned⟩ fresh
  exact ⟨good_step good fresh, aligned_of_effect (step_effect k l good) aligned⟩

def longLine : ServerRun where
  server := listening
  kernels := joins 5 ++ delivers 5 0 (List.replicate bufferSize 120) ++
    delivers 5 0 (ascii ['x', '\n'])
  empty := listening_clients
  fresh := by decide +kernel

theorem long_line_cut_off : ¬ ∀ r : ServerRun, r.Along LeavesEnded := by
  intro all
  have lost : ¬ longLine.Along LeavesEnded := by decide +kernel
  exact lost (all longLine)

def shortLines : ServerRun where
  server := listening
  kernels := joins 5 ++ joins 6 ++ delivers 5 0 (ascii ['A', '\n']) ++
    delivers 5 0 (ascii ['h', 'i', '\n']) ++ hangsUp 6 1
  empty := listening_clients
  fresh := by decide +kernel

theorem short_lines_kept : shortLines.Along LeavesEnded :=
  (leavesEnded_along_iff shortLines).mpr (by decide +kernel)

end TcpChat.ChatServer
