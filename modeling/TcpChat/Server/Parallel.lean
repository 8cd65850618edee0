import TcpChat.Server.Round

/-! The two vectors of a round. `pollfds` is changed beside `clients` wherever a client joins or
leaves, so that one index serves both. -/
namespace TcpChat.ChatServer
open Machine

/-- Two entries of the loop's own, and then one for each client, in their order. -/
structure Parallel (pollfds : List PollFd) (s : ChatServer) : Prop where
  size : pollfds.length = s.clients.length + 2
  entries : ∀ j c, s.clients[j]? = some c → ∃ p, pollfds[j + 2]? = some p ∧ p.fd = c.fd.get

/-- What an iteration accesses: both entries at its index, which belong to one connection, and
both last entries. -/
structure Accessible (pollfds : List PollFd) (s : ChatServer) (i : Nat) (p : PollFd)
    (c : ClientInfo) : Prop where
  entry : pollfds[i + 2]? = some p
  client : s.clients[i]? = some c
  own : p.fd = c.fd.get
  pollfdsBack : pollfds ≠ []
  clientsBack : s.clients ≠ []

/-- The entries that the round still works with. -/
def Control.pollfds : Control → List PollFd
  | .signal pollfds _ | .client pollfds _ _ => pollfds
  | _ => []

/-- An entry is filled in by `poll` for its own descriptor, or is that of a connection that was
just accepted, and from then on it is only moved. -/
def EntriesCarried (l : Loop) (k : Kernel) : Prop :=
  ∀ p ∈ (step l k).1.control.pollfds, p ∈ l.control.pollfds ∨
    l.control = .poll ∧ ∃ revents, k.poll = .ready revents ∧
      (p.revents = revents p.fd ∨ ∃ fd : Nat, .accepted fd ∈ k.accept ∧ p = { fd := fd })

/-- Where the loop stands, the vectors agree, and what it accesses next is there. -/
def VectorsAgree (l : Loop) : Prop :=
  match l.control with
  | .signal pollfds _ => Parallel pollfds l.server ∧
      ∃ p, pollfds[1]? = some p ∧ p.fd = l.server.signalfd.get
  | .client pollfds i _ => Parallel pollfds l.server ∧
      (i < l.server.clients.length → ∃ p c, Accessible pollfds l.server i p c)
  | .undefined => False
  | .poll | .returned | .thrown _ | .blocked => True

theorem parallel_iff {pollfds : List PollFd} {s : ChatServer} :
    Parallel pollfds s ↔ ∃ a b, pollfds.map (·.fd) = a :: b :: s.descriptors := by
  constructor
  · rintro ⟨size, entries⟩
    obtain ⟨p, tail, rfl⟩ := List.exists_cons_of_length_eq_add_one size
    obtain ⟨q, rest, rfl⟩ := List.exists_cons_of_length_eq_add_one (Nat.succ.inj size)
    refine ⟨p.fd, q.fd, congrArg (p.fd :: q.fd :: ·) ?_⟩
    apply List.ext_getElem
    · simpa [descriptors] using size
    · intro j _ inside
      have client := List.getElem?_eq_getElem (l := s.clients) (i := j)
        (by simpa [descriptors] using inside)
      obtain ⟨e, entry, own⟩ := entries j _ client
      have found : rest[j]? = some e := entry
      obtain ⟨_, rfl⟩ := List.getElem?_eq_some_iff.mp found
      simpa [descriptors] using own
  · rintro ⟨a, b, fds⟩
    refine ⟨length_pollfds fds, fun j c client => ?_⟩
    have mine : s.descriptors[j]? = some c.fd.get := by simp [descriptors, client]
    have listed : (pollfds.map (·.fd))[j + 2]? = some c.fd.get := by
      rw [fds]
      exact mine
    rw [List.getElem?_map] at listed
    exact Option.map_eq_some_iff.mp listed

theorem accessible_of_parallel {pollfds : List PollFd} {s : ChatServer} {i : Nat}
    (parallel : Parallel pollfds s) (inside : i < s.clients.length) :
    ∃ p c, Accessible pollfds s i p c := by
  have client := List.getElem?_eq_getElem inside
  obtain ⟨p, entry, own⟩ := parallel.entries i _ client
  refine ⟨p, s.clients[i], entry, client, own, ?_, ?_⟩
  · rintro rfl
    cases entry
  · exact List.ne_nil_of_length_pos (Nat.zero_lt_of_lt inside)

theorem vectorsAgree_of_aligned {l : Loop} (aligned : Aligned l) (defined : l.control ≠ .undefined) :
    VectorsAgree l := by
  unfold Aligned at aligned
  unfold VectorsAgree
  cases at_ : l.control with
  | undefined => exact absurd at_ defined
  | poll | returned | thrown | blocked => trivial
  | signal pollfds nready =>
    rw [at_] at aligned
    refine ⟨parallel_iff.mpr ⟨_, _, aligned⟩, ?_⟩
    have second := congrArg (fun fds : List Fd => fds[1]?) aligned
    simpa using second
  | client pollfds i nready =>
    rw [at_] at aligned
    have parallel := parallel_iff.mpr ⟨_, _, aligned⟩
    exact ⟨parallel, accessible_of_parallel parallel⟩

theorem defined_of_effect {k : Kernel} {l l' : Loop} {more : List Event}
    (effect : Effect k l l' more) (aligned : Aligned l) (defined : l.control ≠ .undefined) :
    l'.control ≠ .undefined := by
  have counted (pollfds : List PollFd) (i : Nat) (nready : Int) :
      countDown pollfds i nready ≠ .undefined := by
    unfold countDown
    split <;> simp
  have whole {pollfds : List PollFd}
      (fds : pollfds.map (·.fd) =
        l.server.listenfd.get :: l.server.signalfd.get :: l.server.descriptors) :
      pollfds.length = l.server.clients.length + 2 := length_pollfds fds
  cases effect with
  | quiet control goes =>
    cases goes with
    | noSignal pollfds nready at_signal missing =>
      rw [Aligned, at_signal] at aligned
      have short := List.getElem?_eq_none_iff.mp missing
      have long := whole aligned
      omega
    | missing pollfds i nready at_client inside missing =>
      rw [Aligned, at_client] at aligned
      have short := List.getElem?_eq_none_iff.mp missing
      have long := whole aligned
      omega
    | ended => exact defined
    | finished | interrupted | pollFailed | polled | acceptBlocked | acceptFailed | unsignalled
    | through | unready => simp
  | join | refuse =>
    dsimp only
    split <;> simp
  | closeFailed | signalFailed | stop | readFailed => simp
  | hangup pollfds i nready | eof pollfds i nready => exact counted _ i nready
  | serve pollfds i nready p c c' bytes tail outcome turn flags ready answer nonempty served relayed =>
    rcases relayed.ends with rfl | rfl | ⟨e, rfl⟩
    · exact counted pollfds (i + 1) nready
    · simp [Control.after]
    · simp [Control.after]

theorem revents_of_polled {s : ChatServer} {revents : Fd → Revents} {p : PollFd}
    (member : p ∈ s.polled revents) : p.revents = revents p.fd := by
  obtain ⟨q, _, rfl⟩ := List.mem_map.mp member
  rfl

theorem entries_of_quiet {k : Kernel} {l : Loop} {control : Control} (goes : Quiet k l control) :
    ∀ p ∈ control.pollfds, p ∈ l.control.pollfds ∨
      l.control = .poll ∧ ∃ revents, k.poll = .ready revents ∧ p.revents = revents p.fd := by
  intro p member
  cases goes with
  | polled at_poll revents answer =>
    exact .inr ⟨at_poll, revents, answer, revents_of_polled member⟩
  | unsignalled pollfds nready q at_signal =>
    rw [at_signal]
    exact .inl member
  | unready pollfds i nready q c turn =>
    rw [turn.at_client]
    exact .inl member
  | ended => exact .inl member
  | _ => cases member

theorem pollfds_countDown {pollfds : List PollFd} {i : Nat} {nready : Int} {p : PollFd}
    (member : p ∈ (countDown pollfds i nready).pollfds) : p ∈ pollfds := by
  unfold countDown at member
  split at member
  case isTrue => cases member
  case isFalse => exact member

theorem entries_of_removal {l : Loop} {pollfds : List PollFd} {i : Nat} {nready : Int}
    {q p : PollFd} {c : ClientInfo} (turn : Turn l pollfds i nready q c)
    (member : p ∈ (countDown (Slots.swapRemove pollfds (i + 2)) i nready).pollfds) :
    p ∈ l.control.pollfds := by
  have left := (Slots.mem_swapRemove turn.rest.1 p).mp (pollfds_countDown member)
  rw [turn.at_client]
  exact List.mem_of_mem_eraseIdx left

theorem entriesCarried_of_effect {l : Loop} {k : Kernel}
    (effect : Effect k l (step l k).1 (step l k).2) : EntriesCarried l k := by
  intro p member
  generalize step l k = next at effect member
  obtain ⟨l', more⟩ := next
  cases effect with
  | quiet control goes =>
    rcases entries_of_quiet goes p member with old | ⟨at_poll, revents, answer, filled⟩
    · exact .inl old
    · exact .inr ⟨at_poll, revents, answer, .inl filled⟩
  | join fd revents at_poll accepted answer =>
    dsimp only at member
    split at member
    case isTrue => cases member
    case isFalse =>
      rcases List.mem_append.mp member with polled | joined
      · exact .inr ⟨at_poll, revents, answer, .inl (revents_of_polled polled)⟩
      · exact .inr ⟨at_poll, revents, answer, .inr ⟨fd, accepted, List.mem_singleton.mp joined⟩⟩
  | refuse fd revents at_poll accepted answer =>
    dsimp only at member
    split at member
    case isTrue => cases member
    case isFalse => exact .inr ⟨at_poll, revents, answer, .inl (revents_of_polled member)⟩
  | hangup pollfds i nready q c turn => exact .inl (entries_of_removal turn member)
  | eof pollfds i nready q c turn => exact .inl (entries_of_removal turn member)
  | serve pollfds i nready q c c' bytes tail outcome turn =>
    cases outcome with
    | returned u =>
      rw [turn.at_client]
      exact .inl (pollfds_countDown member)
    | _ => cases member
  | _ => cases member

structure LoopRun where
  server : ChatServer
  good : server.Good
  kernels : List Kernel
  fresh : Along step Fresh (eventLoop server) kernels

theorem vectorsAgree_run (r : LoopRun) :
    Always step (fun l _ => VectorsAgree l) (eventLoop r.server) [] r.kernels := by
  have entered : (eventLoop r.server).control ≠ .undefined := by
    unfold eventLoop
    dsimp only
    split <;> simp
  refine always_of_invariant (I := fun l _ => l.server.Good ∧ Aligned l ∧ l.control ≠ .undefined)
    (fun l _ h => vectorsAgree_of_aligned h.2.1 h.2.2) ?_
    ⟨r.good, aligned_eventLoop r.server, entered⟩ r.fresh
  intro l _ k h fresh
  obtain ⟨good, aligned, defined⟩ := h
  have effect := step_effect k l good
  exact ⟨good_step good fresh, aligned_of_effect effect aligned,
    defined_of_effect effect aligned defined⟩

theorem entriesCarried_run (r : LoopRun) :
    Along step EntriesCarried (eventLoop r.server) r.kernels :=
  along_of_invariant (I := fun l => l.server.Good)
    (fun l k good _ => entriesCarried_of_effect (step_effect k l good))
    (fun _ _ good fresh => good_step good fresh) r.good r.fresh

/-- The vectors agree at every point of every run, and also right after a client has been taken
in or refused, and right after each removal. What is examined of an entry is what `poll` said of
its descriptor. -/
theorem vectors_agree :
    (∀ r : LoopRun, Always step (fun l _ => VectorsAgree l) (eventLoop r.server) [] r.kernels ∧
      Along step EntriesCarried (eventLoop r.server) r.kernels) ∧
    (∀ s revents k fd s' log pollfds,
      addClient k fd (s.polled revents) s = ⟨s', log, .returned pollfds⟩ → Parallel pollfds s') ∧
    ∀ s pollfds i, Parallel pollfds s → i < s.clients.length →
      Parallel (Slots.swapRemove pollfds (i + 2)) { s with clients := removed s.clients i } := by
  refine ⟨fun r => ⟨vectorsAgree_run r, entriesCarried_run r⟩, ?_, ?_⟩
  · intro s revents k fd s' log pollfds added
    rcases addClient_cases k fd (s.polled revents) s with ⟨_, eq⟩ | ⟨_, eq⟩ | ⟨e, _, _, eq⟩
    · cases added.symm.trans eq
      exact parallel_iff.mpr ⟨_, _, fds_joined s revents fd k.memory⟩
    · cases added.symm.trans eq
      exact parallel_iff.mpr ⟨_, _, polled_fds s revents⟩
    · cases added.symm.trans eq
  · intro s pollfds i parallel inside
    obtain ⟨a, b, fds⟩ := parallel_iff.mp parallel
    exact parallel_iff.mpr ⟨a, b, fds_removed fds inside⟩

/-- A round of three clients, in which a fourth one comes and the first one leaves. -/
def changing : LoopRun where
  server := mixed.server
  good := mixed.good
  kernels := mixed.first :: mixed.rest
  fresh := by decide +kernel

theorem changing_parallel :
    (Always step (fun l _ => VectorsAgree l) (eventLoop changing.server) [] changing.kernels ∧
      Along step EntriesCarried (eventLoop changing.server) changing.kernels) ∧
    (Machine.run step (eventLoop changing.server)
      (changing.kernels.take 3)).1.server.descriptors = [8, 6, 7] ∧
    Parallel (Slots.swapRemove (three.polled mixed.revents ++ [{ fd := 8 }]) 2)
      { three with clients := removed (three.clients ++ [newClient 8 mixed.first.memory]) 0 } := by
  obtain ⟨runs, joins, leaves⟩ := vectors_agree
  have joined := joins three mixed.revents mixed.first 8 _ [] _ rfl
  exact ⟨runs changing, by decide +kernel, leaves _ _ 0 joined (by decide)⟩

end TcpChat.ChatServer
