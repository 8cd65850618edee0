import TcpChat.Server.Departure
import TcpChat.Server.Failures

/-! One round of the loop, from the head of the `while` to the next time it is there. Whoever the
poll reported is read or removed in it, once, and nobody else. -/
namespace TcpChat

/-- The events that read from a connection or end it. -/
def Event.touches (fd : Fd) : Event → Bool
  | .read fd' _ | .readError fd' _ | .close fd' => fd' = fd
  | _ => false

namespace ChatServer
open Machine

def touches (fd : Fd) (log : List Event) : List Event := log.filter (Event.touches fd)

def Untouched (fd : Fd) (log : List Event) (s : ChatServer) : Prop :=
  touches fd log = [] ∧ fd ∈ s.descriptors

/-- Removed, after at most one read, which then found nothing; or read once, and still there. -/
def Handled (fd : Fd) (log : List Event) (s : ChatServer) : Prop :=
  (touches fd log = [.close fd] ∨ touches fd log = [.read fd [], .close fd]) ∧
      fd ∉ s.descriptors ∨
    (∃ bytes, bytes ≠ [] ∧ touches fd log = [.read fd bytes]) ∧ fd ∈ s.descriptors

/-- What is due to a connection by what the poll reported for it. -/
def Attended (revents : Revents) (fd : Fd) (log : List Event) (s : ChatServer) : Prop :=
  if revents.nonzero then Handled fd log s else Untouched fd log s

def Control.inRound : Control → Bool
  | .signal .. | .client .. => true
  | _ => false

/-- A call of the step fails, or its answers run out: `accept`, the `close` of a connection that
comes at capacity, the read of the client whose turn it is, or a write to a recipient. -/
inductive Refused (l : Loop) (k : Kernel) : Prop
  | accept (revents : Fd → Revents) (at_poll : l.control = .poll)
      (answer : k.poll = .ready revents)
      (listening : (revents l.server.listenfd.get).pollin = true)
      (refused : ∀ fd, (acceptSocket k.accept l.server).outcome ≠ .returned fd)
  | close (e : Errno) (at_poll : l.control = .poll)
      (full : l.server.maxClients ≤ l.server.clients.length)
      (accepted : ∃ fd, (acceptSocket k.accept l.server).outcome = .returned fd)
      (refused : k.close = some e)
  | read (c : ClientInfo) (e : Errno) (refused : reading l k = some (c, .error e))
  | write (i : Nat) (p : PollFd) (c : ClientInfo) (bytes : List Byte) (y : Fd)
      (its_turn : turn l = some (i, p, c)) (reads : reading l k = some (c, .ok bytes))
      (recipient : y ∈ l.server.recipients i)
      (refused : ¬ Healthy k.write
        (owed (nameWith c (landed c.buffer bytes)) (relayText c (landed c.buffer bytes))) y)

/-- A round with no signal pending, from any good state, with answers for as long as it can
last. -/
structure Round where
  server : ChatServer
  good : server.Good
  running : server.running = true
  first : Kernel
  rest : List Kernel
  revents : Fd → Revents
  polled : first.poll = .ready revents
  unsignalled : (revents server.signalfd.get).pollin = false
  fresh : Fresh ⟨server, .poll⟩ first
  enough : server.clients.length + 3 ≤ rest.length

namespace Round

def opening (r : Round) : Loop × List Event := step ⟨r.server, .poll⟩ r.first

def remainder (r : Round) : Loop × List Event :=
  runWhile step (fun l => l.control.inRound) r.opening.1 r.rest

def last (r : Round) : Loop := r.remainder.1
def log (r : Round) : List Event := r.opening.2 ++ r.remainder.2

/-- The poll knows nothing of a connection that was not there yet. -/
def shown (r : Round) (fd : Fd) : Revents := if fd ∈ r.server.descriptors then r.revents fd else {}

/-- No call of the steps of the round is refused. -/
def Granted (r : Round) : Prop :=
  ¬ Refused ⟨r.server, .poll⟩ r.first ∧
    AlongWhile step (fun l => l.control.inRound) (fun l k => ¬ Refused l k) r.opening.1 r.rest

structure Serves (r : Round) : Prop where
  ready : ∀ c ∈ r.server.clients, (r.revents c.fd.get).nonzero = true →
    Handled c.fd.get r.log r.last.server
  unready : ∀ c ∈ r.server.clients, (r.revents c.fd.get).nonzero = false →
    Untouched c.fd.get r.log r.last.server
  joined : ∀ fd, Event.accept fd ∈ r.log → (r.server.clients.length : Int) < r.server.maxClients →
    Untouched fd r.log r.last.server

end Round

/-! The events of one connection. -/

theorem touches_append (fd : Fd) (log more : List Event) :
    touches fd (log ++ more) = touches fd log ++ touches fd more := List.filter_append ..

theorem touches_served {write : Fd → List WriteAnswer} {fd : Fd} {name text : List Byte}
    {fds : List Fd} {tail : List Event} {outcome : Outcome Exn Unit}
    (relayed : Relayed write fd name text fds tail outcome) (line bytes : List Byte) (y : Fd) :
    touches y (.read fd bytes :: (namedLog fd line ++ tail)) =
      if fd = y then [.read fd bytes] else [] := by
  have others : ∀ e ∈ namedLog fd line ++ tail, ¬ Event.touches y e = true :=
    forall_served relayed line nofun nofun (fun _ _ => nofun) fun _ _ => nofun
  have silent : touches y (namedLog fd line ++ tail) = [] := List.filter_eq_nil_iff.mpr others
  rw [← List.singleton_append, touches_append, silent, List.append_nil]
  by_cases mine : fd = y <;> simp [touches, Event.touches, mine]

theorem accept_not_mem_served {write : Fd → List WriteAnswer} {fd : Fd} {name text : List Byte}
    {fds : List Fd} {tail : List Event} {outcome : Outcome Exn Unit}
    (relayed : Relayed write fd name text fds tail outcome) (line bytes : List Byte) (y : Fd) :
    Event.accept y ∉ Event.read fd bytes :: (namedLog fd line ++ tail) := by
  rintro (_ | ⟨_, member⟩)
  have differs : ∀ e ∈ namedLog fd line ++ tail, e ≠ .accept y :=
    forall_served relayed line nofun nofun (fun _ _ => nofun) fun _ _ => nofun
  exact differs _ member rfl

/-! One entry's turn. -/

/-- What the turn of the entry `p` does: what is due to its connection, and nothing to others. -/
structure Visit (p : PollFd) (s s' : ChatServer) (more : List Event) : Prop where
  own : Attended p.revents p.fd more s'
  others : ∀ fd, fd ≠ p.fd → touches fd more = []
  stays : ∀ fd, fd ≠ p.fd → (fd ∈ s'.descriptors ↔ fd ∈ s.descriptors)
  accepts : ∀ fd, Event.accept fd ∉ more

theorem visit_unready {s : ChatServer} {p : PollFd} (unready : p.revents.nonzero = false)
    (member : p.fd ∈ s.descriptors) : Visit p s s [] where
  own := by simpa [Attended, unready, Untouched, touches] using member
  others _ _ := rfl
  stays _ _ := Iff.rfl
  accepts _ := List.not_mem_nil

theorem visit_removed {s : ChatServer} (good : s.Good) {i : Nat} {c : ClientInfo} {p : PollFd}
    (found : s.clients[i]? = some c) (its : p.fd = c.fd.get) (ready : p.revents.nonzero = true)
    {more : List Event}
    (log : more = [.close c.fd.get] ∨ more = [.read c.fd.get [], .close c.fd.get]) :
    Visit p s { s with clients := removed s.clients i } more := by
  have gone := mem_descriptors_removed good.distinct found
  refine ⟨?_, fun fd other => ?_, fun fd other => ?_, fun fd => ?_⟩
  · have left : p.fd ∉ ({ s with clients := removed s.clients i } : ChatServer).descriptors :=
      fun still => ((gone p.fd).mp still).2 its
    rw [Attended, if_pos ready, Handled, its]
    rw [its] at left
    rcases log with rfl | rfl
    · exact .inl ⟨.inl (by simp [touches, Event.touches]), left⟩
    · exact .inl ⟨.inr (by simp [touches, Event.touches]), left⟩
  · have differs : c.fd.get ≠ fd := fun same => other (same.symm.trans its.symm)
    rcases log with rfl | rfl <;> simp [touches, Event.touches, differs]
  · rw [gone fd]
    exact and_iff_left (its ▸ other)
  · rcases log with rfl | rfl <;> simp

theorem visit_served {s : ChatServer} {i : Nat} {c c' : ClientInfo} {p : PollFd}
    (found : s.clients[i]? = some c) (its : p.fd = c.fd.get) (ready : p.revents.nonzero = true)
    (same : c'.fd = c.fd) {bytes : List Byte} (nonempty : bytes ≠ [])
    {write : Fd → List WriteAnswer} {name text : List Byte} {fds : List Fd} {tail : List Event}
    {outcome : Outcome Exn Unit}
    (relayed : Relayed write c.fd.get name text fds tail outcome) (line : List Byte) :
    Visit p s (s.setClient i c') (.read c.fd.get bytes :: (namedLog c.fd.get line ++ tail)) := by
  have kept : (s.setClient i c').descriptors = s.descriptors :=
    Slots.map_set_same found (by rw [same])
  have events := touches_served relayed line bytes
  refine ⟨?_, fun fd other => ?_, fun fd _ => by rw [kept], accept_not_mem_served relayed line bytes⟩
  · rw [Attended, if_pos ready, Handled, kept, its]
    exact .inr ⟨⟨bytes, nonempty, by rw [events, if_pos rfl]⟩, mem_descriptors (mem_clients found)⟩
  · have differs : c.fd.get ≠ fd := fun eq => other (eq.symm.trans its.symm)
    rw [events, if_neg differs]

/-- Where the loop stands after the turn of `p`, with the entries `rest` before it. -/
def GoesOn (p : PollFd) (rest : List PollFd) (nready : Int) (control : Control) : Prop :=
  ∃ pollfds i, (pollfds.drop (i + 2)).Perm rest ∧
    control = if p.revents.nonzero then countDown pollfds i nready else .client pollfds i nready

def Control.Stopped (control : Control) : Prop := (∃ e, control = .thrown e) ∨ control = .blocked

theorem nonzero_of_failed {revents : Revents} (flags : revents.failed = true) :
    revents.nonzero = true := by simp [Revents.nonzero, flags]

theorem nonzero_of_pollin {revents : Revents} (ready : revents.pollin = true) :
    revents.nonzero = true := by simp [Revents.nonzero, ready]

theorem Turn.rest {l : Loop} {pollfds : List PollFd} {i : Nat} {nready : Int} {p : PollFd}
    {c : ClientInfo} (t : Turn l pollfds i nready p c) :
    i + 2 < pollfds.length ∧ pollfds.drop (i + 2) = p :: pollfds.drop (i + 3) := by
  obtain ⟨inside, same⟩ := List.getElem?_eq_some_iff.mp t.polled
  exact ⟨inside, (List.drop_eq_getElem_cons inside).trans (by rw [same])⟩

theorem goesOn_removed {l : Loop} {pollfds : List PollFd} {i : Nat} {nready : Int} {p : PollFd}
    {c : ClientInfo} (t : Turn l pollfds i nready p c) (ready : p.revents.nonzero = true) :
    GoesOn p (pollfds.drop (i + 3)) nready
      (countDown (Slots.swapRemove pollfds (i + 2)) i nready) :=
  ⟨_, i, Slots.drop_swapRemove t.rest.1, by rw [if_pos ready]⟩

theorem length_pollfds {s : ChatServer} {pollfds : List PollFd} {a b : Fd}
    (fds : pollfds.map (·.fd) = a :: b :: s.descriptors) :
    pollfds.length = s.clients.length + 2 := by
  have lengths := congrArg List.length fds
  simpa [descriptors] using lengths

theorem stopped_after (control : Control) {outcome : Outcome Exn Unit}
    (ends : outcome = .returned () ∨ outcome = .blocked ∨ ∃ e, outcome = .thrown e)
    (cut : outcome ≠ .returned ()) : (Control.after control outcome).Stopped := by
  rcases ends with rfl | rfl | ⟨e, rfl⟩
  · exact absurd rfl cut
  · exact .inr rfl
  · exact .inl ⟨e, rfl⟩

theorem unhealthy_of_cut {write : Fd → List WriteAnswer} {fd : Fd} {name text : List Byte}
    {fds : List Fd} {tail : List Event} {outcome : Outcome Exn Unit}
    (relayed : Relayed write fd name text fds tail outcome) (cut : outcome ≠ .returned ()) :
    ∃ y ∈ fds, ¬ Healthy write (owed name text) y := by
  by_contra healthy
  simp only [not_exists, not_and, not_not] at healthy
  exact cut ((relayed_reaches_iff relayed).mpr healthy).1

theorem Turn.reads {l : Loop} {pollfds : List PollFd} {i : Nat} {nready : Int} {p : PollFd}
    {c : ClientInfo} (t : Turn l pollfds i nready p c) {k : Kernel}
    (flags : p.revents.failed = false) (ready : p.revents.pollin = true) :
    reading l k = some (c, (k.read c.fd.get).read c.buffer.freeSpace.toNat) := by
  simp [reading, t.turn_eq, flags, ready]

/-- A step from the head of the `for`: the loop stops at a refused call, the walk is at its end,
or the next entry has its turn. -/
inductive Walks (k : Kernel) (l : Loop) (pollfds : List PollFd) (i : Nat) (nready : Int)
    (l' : Loop) (more : List Event) : Prop
  | stopped (stopped : l'.control.Stopped) (refused : Refused l k)
  | through (last : pollfds.drop (i + 2) = []) (next : l' = ⟨l.server, .poll⟩) (silent : more = [])
  | turn (p : PollFd) (rest : List PollFd) (before : pollfds.drop (i + 2) = p :: rest)
      (visit : Visit p l.server l'.server more) (goes : GoesOn p rest nready l'.control)

theorem walks_of_quiet {k : Kernel} {l : Loop} {control : Control} (goes : Quiet k l control)
    (aligned : Aligned l) {pollfds : List PollFd} {i : Nat} {nready : Int}
    (at_client : l.control = .client pollfds i nready) :
    Walks k l pollfds i nready ⟨l.server, control⟩ [] := by
  have fds : pollfds.map (·.fd) =
      l.server.listenfd.get :: l.server.signalfd.get :: l.server.descriptors := by
    simpa only [Aligned, at_client] using aligned
  have length := length_pollfds fds
  cases goes with
  | finished at_poll | interrupted at_poll | pollFailed at_poll | polled at_poll
  | acceptBlocked at_poll | acceptFailed at_poll => cases at_poll.symm.trans at_client
  | unsignalled _ _ _ at_signal | noSignal _ _ at_signal => cases at_signal.symm.trans at_client
  | through _ _ _ at_client' last =>
    cases at_client'.symm.trans at_client
    exact .through (List.drop_eq_nil_of_le (by omega)) rfl rfl
  | missing _ _ _ at_client' inside missing =>
    cases at_client'.symm.trans at_client
    have outside := List.getElem?_eq_none_iff.mp missing
    omega
  | unready pollfds' i' nready' p c turn flags unready =>
    cases turn.at_client.symm.trans at_client
    have zero : p.revents.nonzero = false := by simp [Revents.nonzero, flags, unready]
    have member : p.fd ∈ l.server.descriptors :=
      turn_fd aligned turn.turn_eq ▸ mem_descriptors (mem_clients turn.found)
    exact .turn p _ turn.rest.2 (visit_unready zero member) ⟨pollfds, i + 1, .rfl, by simp [zero]⟩
  | ended left => simp [at_client] at left

theorem walks_of_effect {k : Kernel} {l l' : Loop} {more : List Event} (effect : Effect k l l' more)
    (good : l.server.Good) (aligned : Aligned l) {pollfds : List PollFd} {i : Nat} {nready : Int}
    (at_client : l.control = .client pollfds i nready) :
    Walks k l pollfds i nready l' more := by
  have here {pollfds' : List PollFd} {i' : Nat} {nready' : Int} {p : PollFd} {c : ClientInfo}
      (turn : Turn l pollfds' i' nready' p c) : pollfds' = pollfds ∧ i' = i ∧ nready' = nready := by
    simpa using turn.at_client.symm.trans at_client
  cases effect with
  | join _ _ at_poll | refuse _ _ at_poll | closeFailed _ _ at_poll =>
    cases at_poll.symm.trans at_client
  | stop _ _ signalled | signalFailed _ _ _ _ signalled =>
    obtain ⟨_, _, _, at_signal, _⟩ := signalled
    cases at_signal.symm.trans at_client
  | readFailed pollfds' i' nready' p c e turn flags pollin failed =>
    exact .stopped (.inl ⟨_, rfl⟩) (.read c e (failed ▸ turn.reads flags pollin))
  | hangup pollfds' i' nready' p c turn flags =>
    obtain ⟨rfl, rfl, rfl⟩ := here turn
    have ready := nonzero_of_failed flags
    have visit := visit_removed good turn.found (turn_fd aligned turn.turn_eq) ready (.inl rfl)
    exact .turn p _ turn.rest.2 visit (goesOn_removed turn ready)
  | eof pollfds' i' nready' p c turn flags pollin =>
    obtain ⟨rfl, rfl, rfl⟩ := here turn
    have ready := nonzero_of_pollin pollin
    have visit := visit_removed good turn.found (turn_fd aligned turn.turn_eq) ready (.inr rfl)
    exact .turn p _ turn.rest.2 visit (goesOn_removed turn ready)
  | serve pollfds' i' nready' p c c' bytes tail outcome turn flags pollin answer nonempty served
      relayed =>
    obtain ⟨rfl, rfl, rfl⟩ := here turn
    have ready := nonzero_of_pollin pollin
    have visit := visit_served turn.found (turn_fd aligned turn.turn_eq) ready served.fd nonempty
      relayed (nameLine c (landed c.buffer bytes))
    by_cases returned : outcome = .returned ()
    · subst returned
      exact .turn p _ turn.rest.2 visit ⟨pollfds', i' + 1, .rfl, by rw [if_pos ready]; rfl⟩
    · obtain ⟨y, recipient, refused⟩ := unhealthy_of_cut relayed returned
      have name : c'.name = nameWith c (landed c.buffer bytes) := served.name
      rw [name] at refused
      exact .stopped (stopped_after _ relayed.ends returned)
        (.write i' p c bytes y turn.turn_eq (answer ▸ turn.reads flags pollin) recipient refused)
  | quiet control goes => exact walks_of_quiet goes aligned at_client

theorem signal_of_effect {k : Kernel} {l l' : Loop} {more : List Event} (effect : Effect k l l' more)
    {pollfds : List PollFd} {nready : Int} {p : PollFd}
    (at_signal : l.control = .signal pollfds nready) (entry : pollfds[1]? = some p)
    (calm : p.revents.pollin = false) :
    l' = ⟨l.server, .client pollfds 0 nready⟩ ∧ more = [] := by
  cases effect with
  | join _ _ at_poll | refuse _ _ at_poll | closeFailed _ _ at_poll =>
    cases at_poll.symm.trans at_signal
  | stop _ _ signalled | signalFailed _ _ _ _ signalled =>
    obtain ⟨_, _, q, at_signal', entry', pollin⟩ := signalled
    cases at_signal'.symm.trans at_signal
    cases entry'.symm.trans entry
    exact absurd (calm.symm.trans pollin) Bool.false_ne_true
  | hangup _ _ _ _ _ turn | eof _ _ _ _ _ turn | readFailed _ _ _ _ _ _ turn
  | serve _ _ _ _ _ _ _ _ _ turn => cases turn.at_client.symm.trans at_signal
  | quiet control goes =>
    cases goes with
    | finished at_poll | interrupted at_poll | pollFailed at_poll | polled at_poll
    | acceptBlocked at_poll | acceptFailed at_poll => cases at_poll.symm.trans at_signal
    | unsignalled _ _ _ at_signal' =>
      cases at_signal'.symm.trans at_signal
      exact ⟨rfl, rfl⟩
    | noSignal _ _ at_signal' missing =>
      cases at_signal'.symm.trans at_signal
      cases missing.symm.trans entry
    | through _ _ _ at_client | missing _ _ _ at_client => cases at_client.symm.trans at_signal
    | unready _ _ _ _ _ turn => cases turn.at_client.symm.trans at_signal
    | ended left => simp [at_signal] at left

/-! The walk over the entries. -/

/-- The entries before the loop are untouched, and everyone else has had what is due. -/
structure Todo (r : Round) (todo : List PollFd) (s : ChatServer) (log : List Event) : Prop where
  distinct : (todo.map (·.fd)).Nodup
  shown : ∀ p ∈ todo, p.revents = r.shown p.fd
  untouched : ∀ p ∈ todo, Untouched p.fd log s
  finished : ∀ fd ∈ r.opening.1.server.descriptors, fd ∉ todo.map (·.fd) →
    Attended (r.shown fd) fd log s

theorem Todo.perm {r : Round} {todo todo' : List PollFd} {s : ChatServer} {log : List Event}
    (h : Todo r todo s log) (same : todo'.Perm todo) : Todo r todo' s log where
  distinct := (same.map _).nodup_iff.mpr h.distinct
  shown p member := h.shown p (same.subset member)
  untouched p member := h.untouched p (same.subset member)
  finished fd member outside := h.finished fd member fun inside =>
    outside ((same.map _).symm.subset inside)

theorem Visit.untouched {p : PollFd} {s s' : ChatServer} {log more : List Event} {fd : Fd}
    (visit : Visit p s s' more) (other : fd ≠ p.fd) (before : Untouched fd log s) :
    Untouched fd (log ++ more) s' :=
  ⟨by rw [touches_append, before.1, visit.others fd other, List.append_nil],
    (visit.stays fd other).mpr before.2⟩

theorem Visit.attended {p : PollFd} {s s' : ChatServer} {log more : List Event} {fd : Fd}
    {revents : Revents} (visit : Visit p s s' more) (other : fd ≠ p.fd) :
    Attended revents fd (log ++ more) s' ↔ Attended revents fd log s := by
  have same : touches fd (log ++ more) = touches fd log := by
    rw [touches_append, visit.others fd other, List.append_nil]
  simp only [Attended, Handled, Untouched, same, visit.stays fd other]

theorem Todo.visit {r : Round} {p : PollFd} {rest : List PollFd} {s s' : ChatServer}
    {log more : List Event} (h : Todo r (p :: rest) s log) (visit : Visit p s s' more) :
    Todo r rest s' (log ++ more) := by
  obtain ⟨distinct, shown, untouched, finished⟩ := h
  obtain ⟨alone, distinct⟩ := List.nodup_cons.mp distinct
  refine ⟨distinct, fun q member => shown q (List.mem_cons_of_mem p member), fun q member => ?_,
    fun fd member outside => ?_⟩
  · have other : q.fd ≠ p.fd := fun same => alone (List.mem_map.mpr ⟨q, member, same⟩)
    exact visit.untouched other (untouched q (List.mem_cons_of_mem p member))
  · by_cases mine : fd = p.fd
    · subst mine
      have fresh : touches p.fd log = [] := (untouched p List.mem_cons_self).1
      have own := visit.own
      rw [shown p List.mem_cons_self] at own
      simpa only [Attended, Handled, Untouched, touches_append, fresh, List.nil_append] using own
    · refine (visit.attended mine).mpr (finished fd member ?_)
      rintro (_ | ⟨_, later⟩)
      · exact mine rfl
      · exact outside later

/-- What holds when the loop is back at the head of the `while`. -/
structure Complete (r : Round) (s : ChatServer) (log : List Event) : Prop where
  attended : ∀ fd ∈ r.opening.1.server.descriptors, Attended (r.shown fd) fd log s
  accepts : ∀ fd, Event.accept fd ∈ log → Event.accept fd ∈ r.opening.2

theorem Todo.attended {r : Round} {todo : List PollFd} {s : ChatServer} {log : List Event}
    (h : Todo r todo s log) (none : ∀ p ∈ todo, p.revents.nonzero = false) :
    ∀ fd ∈ r.opening.1.server.descriptors, Attended (r.shown fd) fd log s := by
  intro fd member
  by_cases inside : fd ∈ todo.map (·.fd)
  · obtain ⟨p, before, rfl⟩ := List.mem_map.mp inside
    have zero : (r.shown p.fd).nonzero = false := h.shown p before ▸ none p before
    simpa [Attended, zero] using h.untouched p before
  · exact h.finished fd member inside

def readyLeft (todo : List PollFd) : Nat := todo.countP (·.revents.nonzero)

/-- Where the round stands, with the number of entries and signal tests before it. The count of
the poll is never less than the number of ready entries left. -/
inductive Stage (r : Round) (l : Loop) (log : List Event) : Nat → Prop
  | signal (pollfds : List PollFd) (nready : Int) (p : PollFd)
      (at_signal : l.control = .signal pollfds nready) (entry : pollfds[1]? = some p)
      (calm : p.revents.pollin = false) (todo : Todo r (pollfds.drop 2) l.server log)
      (counted : readyLeft (pollfds.drop 2) ≤ nready) :
      Stage r l log ((pollfds.drop 2).length + 1)
  | client (pollfds : List PollFd) (i : Nat) (nready : Int)
      (at_client : l.control = .client pollfds i nready)
      (todo : Todo r (pollfds.drop (i + 2)) l.server log)
      (counted : readyLeft (pollfds.drop (i + 2)) ≤ nready) :
      Stage r l log (pollfds.drop (i + 2)).length

structure Sweep (r : Round) (l : Loop) (log : List Event) (n : Nat) : Prop where
  good : l.server.Good
  aligned : Aligned l
  accepts : ∀ fd, Event.accept fd ∈ log → Event.accept fd ∈ r.opening.2
  stage : Stage r l log n

/-- The round is at its end, or goes on with less before it than `n`. -/
def Advances (r : Round) (l : Loop) (log : List Event) (n : Nat) : Prop :=
  l.control = .poll ∧ Complete r l.server log ∨ ∃ m < n, Sweep r l log m

theorem Sweep.entered {r : Round} {l : Loop} {log : List Event} {n : Nat} (h : Sweep r l log n) :
    l.control.inRound = true := by
  cases h.stage with
  | signal _ _ _ at_signal => rw [at_signal]; rfl
  | client _ _ _ at_client => rw [at_client]; rfl

theorem Control.Stopped.outside {control : Control} (stopped : control.Stopped) :
    control.inRound = false := by
  rcases stopped with ⟨e, thrown⟩ | blocked
  · rw [thrown]; rfl
  · rw [blocked]; rfl

theorem none_of_readyLeft {todo : List PollFd} {nready : Int} (counted : readyLeft todo ≤ nready)
    (low : nready ≤ 0) : ∀ p ∈ todo, p.revents.nonzero = false := by
  have zero : readyLeft todo = 0 := by omega
  simpa [readyLeft, List.countP_eq_zero] using zero

/-- The turn of one entry. -/
theorem advances_of_visit {r : Round} {l l' : Loop} {log more : List Event} {p : PollFd}
    {rest : List PollFd} {nready : Int} (good : l'.server.Good) (aligned : Aligned l')
    (accepts : ∀ fd, Event.accept fd ∈ log → Event.accept fd ∈ r.opening.2)
    (todo : Todo r (p :: rest) l.server log) (counted : readyLeft (p :: rest) ≤ nready)
    (visit : Visit p l.server l'.server more) (goes : GoesOn p rest nready l'.control) :
    Advances r l' (log ++ more) (rest.length + 1) := by
  obtain ⟨pollfds, i, same, control⟩ := goes
  have left : Todo r (pollfds.drop (i + 2)) l'.server (log ++ more) := (todo.visit visit).perm same
  have ready : readyLeft (pollfds.drop (i + 2)) = readyLeft rest := same.countP_eq _
  have accepts' : ∀ fd, Event.accept fd ∈ log ++ more → Event.accept fd ∈ r.opening.2 := by
    intro fd member
    rcases List.mem_append.mp member with old | new
    · exact accepts fd old
    · exact absurd new (visit.accepts fd)
  have shorter : (pollfds.drop (i + 2)).length < rest.length + 1 := by
    rw [same.length_eq]
    exact Nat.lt_succ_self _
  cases nonzero : p.revents.nonzero with
  | false =>
    have counted' : readyLeft (pollfds.drop (i + 2)) ≤ nready := by
      have same_count : readyLeft (p :: rest) = readyLeft rest := by simp [readyLeft, nonzero]
      omega
    rw [nonzero, if_neg Bool.false_ne_true] at control
    exact .inr ⟨_, shorter, good, aligned, accepts',
      .client pollfds i nready control left counted'⟩
  | true =>
    have counted' : readyLeft (pollfds.drop (i + 2)) ≤ nready - 1 := by
      have both : readyLeft (p :: rest) = readyLeft rest + 1 := by simp [readyLeft, nonzero]
      omega
    rw [nonzero, if_pos rfl] at control
    by_cases low : nready - 1 ≤ 0
    · rw [countDown, if_pos low] at control
      have none := none_of_readyLeft counted' low
      exact .inl ⟨control, left.attended none, accepts'⟩
    · rw [countDown, if_neg low] at control
      exact .inr ⟨_, shorter, good, aligned, accepts',
        .client pollfds i (nready - 1) control left counted'⟩

theorem sweep_step {r : Round} {l : Loop} {log : List Event} {n : Nat} (h : Sweep r l log n)
    (k : Kernel) : Advances r (step l k).1 (log ++ (step l k).2) n ∨
      (step l k).1.control.Stopped ∧ Refused l k := by
  obtain ⟨good, aligned, accepts, stage⟩ := h
  have effect := step_effect k l good
  have aligned' := aligned_of_effect effect aligned
  have good' (not_head : l.control ≠ .poll) : (step l k).1.server.Good :=
    good_of_accepting effect good fun at_poll => absurd at_poll not_head
  generalize step l k = next at *
  obtain ⟨l', more⟩ := next
  cases stage with
  | client pollfds i nready at_client todo counted =>
    have good' := good' (by simp [at_client])
    rcases walks_of_effect effect good aligned at_client with
      ⟨stopped, refused⟩ | ⟨through, rfl, rfl⟩ | ⟨p, rest, before, visit, goes⟩
    · exact .inr ⟨stopped, refused⟩
    · rw [through] at todo
      rw [List.append_nil]
      exact .inl (.inl ⟨rfl, todo.attended (by simp), accepts⟩)
    · rw [before] at todo counted ⊢
      exact .inl (advances_of_visit good' aligned' accepts todo counted visit goes)
  | signal pollfds nready p at_signal entry calm todo counted =>
    have good' := good' (by simp [at_signal])
    obtain ⟨rfl, rfl⟩ := signal_of_effect effect at_signal entry calm
    rw [List.append_nil]
    exact .inl (.inr ⟨_, Nat.lt_succ_self _, good', aligned', accepts,
      .client pollfds 0 nready rfl todo counted⟩)

/-! The step that opens a round. -/

/-- The clients' entries of the poll. -/
def Round.entries (r : Round) : List PollFd :=
  r.server.clients.map fun c => { fd := c.fd.get, revents := r.revents c.fd.get }

theorem Round.polled_eq (r : Round) : r.server.polled r.revents =
    { fd := r.server.listenfd.get, revents := r.revents r.server.listenfd.get } ::
      { fd := r.server.signalfd.get, revents := r.revents r.server.signalfd.get } :: r.entries := by
  simp [ChatServer.polled, pollList, entries]

theorem Round.entries_fds (r : Round) : r.entries.map (·.fd) = r.server.descriptors := by
  simp [entries, descriptors]

theorem Round.shown_entry {r : Round} {p : PollFd} (member : p ∈ r.entries) :
    p.revents = r.shown p.fd := by
  obtain ⟨c, inside, rfl⟩ := List.mem_map.mp member
  exact (if_pos (mem_descriptors inside)).symm

theorem Round.entry_fd {r : Round} {p : PollFd} (member : p ∈ r.entries) :
    p.fd ∈ r.server.descriptors := r.entries_fds ▸ List.mem_map_of_mem member

theorem Round.entries_counted (r : Round) :
    readyLeft r.entries ≤ readyCount (r.server.polled r.revents) := by
  simp only [readyCount, r.polled_eq, List.countP_cons, readyLeft]
  omega

theorem Round.entries_counted_listening (r : Round)
    (listening : (r.revents r.server.listenfd.get).pollin = true) :
    readyLeft r.entries ≤ readyCount (r.server.polled r.revents) - 1 := by
  simp only [readyCount, r.polled_eq, List.countP_cons, readyLeft, nonzero_of_pollin listening,
    if_true]
  omega

/-- The entry of a connection that came after the poll. -/
def unpolled (fd : Fd) : PollFd := { fd := fd }

/-- Where the walk starts: nobody has had anything. -/
theorem todo_opening {r : Round} {todo : List PollFd} {s : ChatServer} {log : List Event}
    (opened : r.opening.1.server = s) (good : s.Good) (fds : todo.map (·.fd) = s.descriptors)
    (shown : ∀ p ∈ todo, p.revents = r.shown p.fd) (silent : ∀ p ∈ todo, touches p.fd log = []) :
    Todo r todo s log where
  distinct := fds ▸ good.distinct
  shown := shown
  untouched p member := ⟨silent p member, fds ▸ List.mem_map_of_mem member⟩
  finished _ member outside := absurd (fds ▸ opened ▸ member) outside

theorem advances_of_opening {r : Round} {l : Loop} {log : List Event} {extra : List PollFd}
    {nready : Int} (good : l.server.Good) (aligned : Aligned l) (opened : r.opening.2 = log)
    (few : extra.length ≤ 1) (todo : Todo r (r.entries ++ extra) l.server log)
    (counted : readyLeft (r.entries ++ extra) ≤ nready)
    (goes : l.control = .signal (r.server.polled r.revents ++ extra) nready ∨
      l.control = .poll ∧ nready ≤ 0) : Advances r l log (r.server.clients.length + 3) := by
  have accepts : ∀ fd, Event.accept fd ∈ log → Event.accept fd ∈ r.opening.2 :=
    fun fd member => opened ▸ member
  rcases goes with at_signal | ⟨at_poll, low⟩
  · have before : (r.server.polled r.revents ++ extra).drop 2 = r.entries ++ extra := by
      rw [r.polled_eq]
      rfl
    have entry : (r.server.polled r.revents ++ extra)[1]? =
        some { fd := r.server.signalfd.get, revents := r.revents r.server.signalfd.get } := by
      rw [r.polled_eq]
      rfl
    refine .inr ⟨_, ?_, good, aligned, accepts,
      .signal _ nready _ at_signal entry r.unsignalled (before ▸ todo) (before ▸ counted)⟩
    have entries : r.entries.length = r.server.clients.length := List.length_map _
    simp only [before, List.length_append, entries]
    omega
  · have none := none_of_readyLeft counted low
    exact .inl ⟨at_poll, todo.attended none, accepts⟩

theorem silent_accept {fd y : Fd} (other : fd ≠ y) :
    touches y [.accept fd] = [] ∧ touches y [.accept fd, .close fd] = [] := by
  simp [touches, Event.touches, other]

/-- The connection that the opening accepts is not polled before the next round. -/
theorem advances_of_join {r : Round} {l : Loop} {fd : Fd} (good : l.server.Good)
    (aligned : Aligned l) (opened : r.opening = (l, [.accept fd]))
    (unused : fd ∉ r.server.descriptors)
    (joined : l.server.descriptors = r.server.descriptors ++ [fd])
    (listening : (r.revents r.server.listenfd.get).pollin = true)
    (goes : l.control = if readyCount (r.server.polled r.revents) - 1 ≤ 0 then .poll
      else .signal (r.server.polled r.revents ++ [unpolled fd])
        (readyCount (r.server.polled r.revents) - 1)) :
    Advances r l [.accept fd] (r.server.clients.length + 3) := by
  have fds : (r.entries ++ [unpolled fd]).map (·.fd) = l.server.descriptors := by
    rw [List.map_append, r.entries_fds, joined]
    rfl
  have unshown : ({} : Revents) = r.shown fd := (if_neg unused).symm
  have todo : Todo r (r.entries ++ [unpolled fd]) l.server [.accept fd] := by
    refine todo_opening (by rw [opened]) good fds (fun p member => ?_) (fun p member => ?_)
    · rcases List.mem_append.mp member with old | new
      · exact Round.shown_entry old
      · obtain rfl := List.mem_singleton.mp new
        exact unshown
    · rcases List.mem_append.mp member with old | new
      · exact (silent_accept fun eq : fd = p.fd => unused (eq ▸ Round.entry_fd old)).1
      · simp [touches, Event.touches]
  have counted : readyLeft (r.entries ++ [unpolled fd]) ≤
      readyCount (r.server.polled r.revents) - 1 := by
    have same : readyLeft (r.entries ++ [unpolled fd]) = readyLeft r.entries := by
      simp [readyLeft, unpolled, Revents.nonzero, Revents.failed]
    rw [same]
    exact r.entries_counted_listening listening
  have few : [unpolled fd].length ≤ 1 := Nat.le_refl 1
  refine advances_of_opening good aligned (by rw [opened]) few todo counted ?_
  by_cases low : readyCount (r.server.polled r.revents) - 1 ≤ 0
  · exact .inr ⟨goes.trans (if_pos low), low⟩
  · exact .inl (goes.trans (if_neg low))

theorem advances_of_same {r : Round} {l : Loop} {log : List Event} {nready : Int}
    (good : r.server.Good) (aligned : Aligned l) (opened : r.opening = (l, log))
    (same : l.server = r.server) (silent : ∀ fd ∈ r.server.descriptors, touches fd log = [])
    (counted : readyLeft r.entries ≤ nready)
    (goes : l.control = .signal (r.server.polled r.revents) nready ∨
      l.control = .poll ∧ nready ≤ 0) : Advances r l log (r.server.clients.length + 3) := by
  have todo : Todo r r.entries l.server log := by
    rw [same]
    exact todo_opening (by rw [opened, same]) good r.entries_fds (fun _ => Round.shown_entry)
      fun p member => silent p.fd (Round.entry_fd member)
  have few : ([] : List PollFd).length ≤ 1 := Nat.zero_le 1
  rw [← r.entries.append_nil] at todo counted
  rw [← (r.server.polled r.revents).append_nil] at goes
  exact advances_of_opening (same ▸ good) aligned (by rw [opened]) few todo counted goes

/-- How a round opens: it stops there, or goes on without, with a refused or with a new client. -/
inductive Opens (r : Round) : Loop → List Event → Prop
  | stopped (control : Control) (log : List Event) (stopped : control.Stopped)
      (refused : Refused ⟨r.server, .poll⟩ r.first)
      (full : ∀ fd, Event.accept fd ∈ log → r.server.maxClients ≤ r.server.clients.length) :
      Opens r ⟨r.server, control⟩ log
  | unheard : Opens r
      ⟨r.server, .signal (r.server.polled r.revents) (readyCount (r.server.polled r.revents))⟩ []
  | refused (fd : Nat) (answer : (fd : Fd) ∈ r.first.accepted)
      (listening : (r.revents r.server.listenfd.get).pollin = true)
      (full : r.server.maxClients ≤ r.server.clients.length) :
      Opens r ⟨r.server, if readyCount (r.server.polled r.revents) - 1 ≤ 0 then .poll
        else .signal (r.server.polled r.revents) (readyCount (r.server.polled r.revents) - 1)⟩
        [.accept fd, .close fd]
  | joined (fd : Nat) (answer : (fd : Fd) ∈ r.first.accepted)
      (listening : (r.revents r.server.listenfd.get).pollin = true) :
      Opens r ⟨{ r.server with clients := r.server.clients ++ [newClient fd r.first.memory] },
        if readyCount (r.server.polled r.revents) - 1 ≤ 0 then .poll
        else .signal (r.server.polled r.revents ++ [unpolled fd])
          (readyCount (r.server.polled r.revents) - 1)⟩ [.accept fd]

theorem opens_of_polled {r : Round} {next : Loop × List Event}
    (polled : PollEffect r.first ⟨r.server, .poll⟩ next) : Opens r next.1 next.2 := by
  have shown {revents : Fd → Revents} (ready : r.first.poll = .ready revents) :
      revents = r.revents := by
    simpa using ready.symm.trans r.polled
  cases polled with
  | finished off => cases off.symm.trans r.running
  | interrupted answer | failed e answer => cases answer.symm.trans r.polled
  | nobody revents ready =>
    cases shown ready
    exact .unheard
  | joined revents fd _ ready listening answer =>
    cases shown ready
    exact .joined fd (mem_accepted answer) listening
  | refused revents fd _ ready listening answer _ full =>
    cases shown ready
    exact .refused fd (mem_accepted answer) listening full
  | unclosed revents fd e _ ready listening _ accepted full failed =>
    exact .stopped _ _ (.inl ⟨_, rfl⟩) (.close e rfl full ⟨fd, accepted⟩ failed) fun _ _ => full
  | waits revents _ ready listening blocked =>
    exact .stopped _ _ (.inr rfl) (.accept revents rfl ready listening (by simp [blocked])) nofun
  | unaccepted revents e _ ready listening thrown =>
    exact .stopped _ _ (.inl ⟨_, rfl⟩) (.accept revents rfl ready listening (by simp [thrown]))
      nofun

theorem advances_of_opens {r : Round} {l : Loop} {log : List Event} (opens : Opens r l log)
    (good : l.server.Good) (aligned : Aligned l) (opened : r.opening = (l, log)) :
    Advances r l log (r.server.clients.length + 3) ∨
      l.control.Stopped ∧ Refused ⟨r.server, .poll⟩ r.first := by
  have goes {pollfds : List PollFd} {nready : Int} :
      (if nready ≤ 0 then Control.poll else .signal pollfds nready) = .signal pollfds nready ∨
        (if nready ≤ 0 then Control.poll else .signal pollfds nready) = .poll ∧ nready ≤ 0 := by
    by_cases low : nready ≤ 0 <;> simp [low]
  cases opens with
  | stopped control log stopped refused => exact .inr ⟨stopped, refused⟩
  | unheard =>
    exact .inl (advances_of_same r.good aligned opened rfl (fun _ _ => rfl) r.entries_counted
      (.inl rfl))
  | refused fd answer listening =>
    obtain ⟨_, unused⟩ := r.fresh fd answer
    exact .inl (advances_of_same r.good aligned opened rfl
      (fun y member => (silent_accept fun eq : (fd : Fd) = y => unused (eq ▸ member)).2)
      (r.entries_counted_listening listening) goes)
  | joined fd answer listening =>
    obtain ⟨_, unused⟩ := r.fresh fd answer
    have joined : (r.server.clients ++ [newClient fd r.first.memory]).map (·.fd.get) =
        r.server.descriptors ++ [(fd : Fd)] := List.map_append ..
    exact .inl (advances_of_join good aligned opened unused joined listening rfl)

theorem Round.opens (r : Round) : Opens r r.opening.1 r.opening.2 :=
  opens_of_polled (pollStep_cases r.first rfl)

/-- Wherever in the round a call is refused, it is not granted. -/
theorem Round.along (r : Round) : AlongWhile step (fun l => l.control.inRound)
    (fun l k => Refused l k → ¬ r.Granted) r.opening.1 r.rest := by
  by_cases granted : r.Granted
  · exact alongWhile_mono (fun _ _ allowed refused => absurd refused allowed) granted.2
  · exact alongWhile_of_forall (fun _ _ _ => granted) _ _

theorem Round.ends (r : Round) :
    r.last.control = .poll ∧ Complete r r.last.server r.log ∨
      r.last.control.Stopped ∧ ¬ r.Granted := by
  have effect := step_effect r.first ⟨r.server, .poll⟩ r.good
  have advances := advances_of_opens r.opens (good_of_effect effect r.good r.fresh)
    (aligned_of_effect effect trivial) rfl
  have ended (outside : r.opening.1.control.inRound = false) :
      r.last = r.opening.1 ∧ r.log = r.opening.2 := by
    have stays : r.remainder = (r.opening.1, []) := runWhile_of_outside step outside r.rest
    simp [last, log, stays]
  rcases advances with (⟨at_poll, complete⟩ | ⟨m, fewer, sweep⟩) | ⟨stopped, refused⟩
  · obtain ⟨last, log⟩ := ended (by rw [at_poll]; rfl)
    rw [last, log]
    exact .inl ⟨at_poll, complete⟩
  · refine runWhile_ends (I := Sweep r)
      (Q := fun l log => l.control = .poll ∧ Complete r l.server log ∨
        l.control.Stopped ∧ ¬ r.Granted)
      (fun _ _ _ => Sweep.entered) ?_ sweep r.along (Nat.lt_of_lt_of_le fewer r.enough)
    intro l log n k h allowed
    rcases sweep_step h k with (⟨at_poll, complete⟩ | goes_on) | ⟨stopped, refused⟩
    · exact .inl ⟨by rw [at_poll]; rfl, .inl ⟨at_poll, complete⟩⟩
    · exact .inr goes_on
    · exact .inl ⟨stopped.outside, .inr ⟨stopped, allowed refused⟩⟩
  · obtain ⟨last, log⟩ := ended stopped.outside
    rw [last]
    exact .inr ⟨stopped, fun granted => granted.1 refused⟩

theorem Round.kept_clients {r : Round} {l : Loop} {log : List Event} (opens : Opens r l log) :
    ∀ fd ∈ r.server.descriptors, fd ∈ l.server.descriptors := by
  intro fd member
  cases opens with
  | stopped | unheard | refused => exact member
  | joined => simpa [descriptors] using .inl (by simpa [descriptors] using member)

theorem Round.joined_client {r : Round} {l : Loop} {log : List Event} (opens : Opens r l log)
    {fd : Fd} (accepted : Event.accept fd ∈ log)
    (room : (r.server.clients.length : Int) < r.server.maxClients) :
    fd ∈ l.server.descriptors ∧ fd ∉ r.server.descriptors := by
  cases opens with
  | stopped _ _ _ _ full => exact absurd (full fd accepted) (by omega)
  | unheard => cases accepted
  | refused _ _ _ full => omega
  | joined n answer =>
    obtain rfl : fd = n := by simpa using accepted
    exact ⟨by simp [descriptors, newClient, ScopedFileDescriptor.get], (r.fresh n answer).2⟩

theorem Complete.serves {r : Round} (h : Complete r r.last.server r.log) : r.Serves := by
  have shown {c : ClientInfo} (member : c ∈ r.server.clients) :
      r.shown c.fd.get = r.revents c.fd.get := if_pos (mem_descriptors member)
  have attended {c : ClientInfo} (member : c ∈ r.server.clients) :=
    h.attended c.fd.get (Round.kept_clients r.opens _ (mem_descriptors member))
  refine ⟨fun c member ready => ?_, fun c member unready => ?_, fun fd accepted room => ?_⟩
  · simpa [Attended, shown member, ready] using attended member
  · simpa [Attended, shown member, unready] using attended member
  · obtain ⟨here, new⟩ := Round.joined_client r.opens (h.accepts fd accepted) room
    have unshown : r.shown fd = {} := if_neg new
    simpa [Attended, unshown, Revents.nonzero, Revents.failed] using h.attended fd here

/-- A round ends at the head of the `while`, with each ready connection handled once and no
other touched, unless a call in it is refused and the round stops there. -/
theorem round_serves (r : Round) :
    r.last.control = .poll ∧ r.Serves ∨ r.last.control.Stopped ∧ ¬ r.Granted := by
  rcases r.ends with ⟨at_head, complete⟩ | stopped
  · exact .inl ⟨at_head, complete.serves⟩
  · exact .inr stopped

def three : ChatServer :=
  { listening with clients := [5, 6, 7].map fun fd => newClient fd (Cells.fill bufferSize 0) }

theorem good_three : three.Good := by
  refine ⟨fun c member => ?_, fun c member => ?_, by decide +kernel, by decide +kernel⟩
  · obtain ⟨fd, _, rfl⟩ := List.mem_map.mp member
    exact valid_newClient fd _
  · revert c
    decide +kernel

/-- A fourth connection comes in, the first client hangs up, so that the new one is moved into
its slot, and the third has sent its name and a line. -/
def mixed : Round where
  server := three
  good := good_three
  running := rfl
  first :=
    { poll := .ready fun fd => { pollin := fd = 3 ∨ fd = 7, pollhup := fd = 5 }
      accept := [.accepted 8] }
  rest := List.replicate 6
    { poll := .failed .EINTR
      read := fun _ => .ofBytes (ascii ['A', '\n', 'h', 'i', '\n'])
      write := fun _ => [.accepted bufferSize] }
  revents fd := { pollin := fd = 3 ∨ fd = 7, pollhup := fd = 5 }
  polled := rfl
  unsignalled := by decide +kernel
  fresh := by decide +kernel
  enough := by decide +kernel

theorem mixed_served : mixed.last.control = .poll ∧ mixed.Serves ∧
    mixed.last.server.descriptors = [8, 6, 7] ∧
    [5, 6, 7, 8].map (touches · mixed.log) =
      [[.close 5], [], [.read 7 (ascii ['A', '\n', 'h', 'i', '\n'])], []] ∧
    [6, 8].map (sent · mixed.log) =
      List.replicate 2 (message (ascii ['A']) (ascii ['h', 'i', '\n'])) := by
  have at_poll : mixed.last.control = .poll := by decide +kernel
  rcases round_serves mixed with ⟨_, serves⟩ | ⟨stopped, _⟩
  · exact ⟨at_poll, serves, by decide +kernel⟩
  · rw [at_poll] at stopped
    rcases stopped with ⟨e, thrown⟩ | blocked
    · cases thrown
    · cases blocked

end ChatServer
end TcpChat
