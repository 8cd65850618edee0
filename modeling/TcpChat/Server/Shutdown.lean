import TcpChat.Server.Sessions

/-! A pending signal ends the loop wherever it stands: the round that is under way goes to its end,
and the next poll reports the signal before any client. -/
namespace TcpChat.ChatServer
open Machine

/-- A signal is pending: `poll` reports it, and all of its record can be read. -/
def Pending (s : ChatServer) (k : Kernel) : Prop :=
  (match k.poll with
    | .ready revents => (revents s.signalfd.get).pollin = true
    | .failed _ => False) ∧
  (match (k.read s.signalfd.get).read siginfoSize with
    | .ok bytes => bytes.length = siginfoSize
    | .error _ => False)

instance (s : ChatServer) (k : Kernel) : Decidable (Pending s k) := by
  unfold Pending
  refine @instDecidableAnd _ _ ?_ ?_ <;> split <;> infer_instance

theorem Pending.polled {s : ChatServer} {k : Kernel} (pending : Pending s k) :
    ∃ revents, k.poll = .ready revents ∧ (revents s.signalfd.get).pollin = true := by
  obtain ⟨reported, _⟩ := pending
  split at reported
  case h_1 revents answer => exact ⟨revents, answer, reported⟩
  case h_2 => exact reported.elim

theorem Pending.siginfo {s : ChatServer} {k : Kernel} (pending : Pending s k) :
    ∃ bytes, (k.read s.signalfd.get).read siginfoSize = .ok bytes ∧
      bytes.length = siginfoSize := by
  obtain ⟨_, whole⟩ := pending
  split at whole
  case h_1 bytes answer => exact ⟨bytes, answer, whole⟩
  case h_2 => exact whole.elim

/-- The entries and signal tests that can still come before the end of the loop. -/
def Loop.stepsLeft (l : Loop) : Nat :=
  match l.control with
  | .poll => 2
  | .signal pollfds _ =>
    if ∃ p ∈ pollfds[1]?, p.revents.pollin = true then 1 else l.server.clients.length + 4
  | .client _ i _ => l.server.clients.length - i + 3
  | _ => 0

/-- The loop is left: it has returned from a stopped server, or a system call did not let it. -/
def Left (l : Loop) : Prop :=
  l.control = .returned ∧ l.server.running = false ∨ l.control.Stopped

theorem inLoop_of_left {l : Loop} (left : Left l) : l.control.inLoop = false := by
  rcases left with ⟨returned, _⟩ | ⟨e, thrown⟩ | blocked
  · rw [returned]; rfl
  · rw [thrown]; rfl
  · rw [blocked]; rfl

/-- What one step leads to while a signal is pending. -/
def Nearer (l l' : Loop) : Prop :=
  Left l' ∨ l'.control.inLoop = true ∧ l'.stepsLeft < l.stepsLeft

/-- Both of the loop's own entries are counted when both are ready. -/
theorem readyCount_both {s : ChatServer} {revents : Fd → Revents}
    (listening : (revents s.listenfd.get).pollin = true)
    (signalled : (revents s.signalfd.get).pollin = true) :
    ¬ readyCount (s.polled revents) - 1 ≤ 0 := by
  have both : readyCount (s.polled revents) ≥ 2 := by
    simp only [readyCount, polled, pollList, List.map_cons, List.countP_cons, Revents.nonzero,
      listening, signalled, Bool.true_or, if_true]
    omega
  omega

/-- The signal test comes next, and there is a signal. -/
def Charged (l : Loop) : Prop :=
  ∃ pollfds nready p, l.control = .signal pollfds nready ∧ pollfds[1]? = some p ∧
    p.revents.pollin = true

/-- A poll that reports the signal leads to the signal test, with at most one connection accepted
or refused on the way, unless the loop is left there. -/
theorem charged_of_poll {k : Kernel} {l : Loop} (at_poll : l.control = .poll)
    (pending : Pending l.server k) :
    (Left (step l k).1 ∨ Charged (step l k).1 ∧ (step l k).1.server.signalfd = l.server.signalfd) ∧
      ∀ e ∈ (step l k).2, ∃ fd, e = .accept fd ∨ e = .close fd := by
  obtain ⟨revents, polled, signalled⟩ := pending.polled
  have same {revents' : Fd → Revents} (answer : k.poll = .ready revents') : revents' = revents := by
    simpa using answer.symm.trans polled
  have effect := pollStep_cases k at_poll
  generalize step l k = after at effect
  cases effect with
  | finished off => exact ⟨.inl (.inl ⟨rfl, off⟩), nofun⟩
  | interrupted answer => cases answer.symm.trans polled
  | failed => exact ⟨.inl (.inr (.inl ⟨_, rfl⟩)), nofun⟩
  | nobody revents' answer =>
    cases same answer
    exact ⟨.inr ⟨⟨_, _, _, rfl, rfl, signalled⟩, rfl⟩, nofun⟩
  | joined revents' fd _ answer listening =>
    cases same answer
    rw [if_neg (readyCount_both listening signalled)]
    exact ⟨.inr ⟨⟨_, _, _, rfl, rfl, signalled⟩, rfl⟩, by simp⟩
  | refused revents' fd _ answer listening =>
    cases same answer
    rw [if_neg (readyCount_both listening signalled)]
    exact ⟨.inr ⟨⟨_, _, _, rfl, rfl, signalled⟩, rfl⟩, by simp⟩
  | unclosed => exact ⟨.inl (.inr (.inl ⟨_, rfl⟩)), by simp⟩
  | waits => exact ⟨.inl (.inr (.inr rfl)), nofun⟩
  | unaccepted => exact ⟨.inl (.inr (.inl ⟨_, rfl⟩)), nofun⟩

theorem stepsLeft_charged {l : Loop} (charged : Charged l) : l.stepsLeft = 1 := by
  obtain ⟨pollfds, nready, p, at_signal, entry, signalled⟩ := charged
  simp [Loop.stepsLeft, at_signal, entry, signalled]

theorem nearer_of_poll {k : Kernel} {l : Loop} (at_poll : l.control = .poll)
    (pending : l.server.running = true → Pending l.server k) : Nearer l (step l k).1 := by
  cases on : l.server.running with
  | false =>
    have eq : stepProgram k l.control l.server = ⟨l.server, [], .returned .returned⟩ :=
      (stepProgram_poll k at_poll).trans (by simp [pollStep, on])
    rw [step_eq eq]
    exact .inl (.inl ⟨rfl, on⟩)
  | true =>
    rcases (charged_of_poll at_poll (pending on)).1 with left | ⟨charged, _⟩
    · exact .inl left
    · have before : l.stepsLeft = 2 := by simp [Loop.stepsLeft, at_poll]
      refine .inr ⟨?_, by rw [stepsLeft_charged charged, before]; exact Nat.lt_succ_self 1⟩
      obtain ⟨_, _, _, at_signal, _⟩ := charged
      rw [at_signal]
      rfl

/-- The signal test with a signal: everything is closed and the loop is left. -/
theorem step_of_signalled {k : Kernel} {l : Loop} {pollfds : List PollFd} {nready : Int}
    {p : PollFd} {bytes : List Byte} (at_signal : l.control = .signal pollfds nready)
    (entry : pollfds[1]? = some p) (signalled : p.revents.pollin = true)
    (answer : (k.read l.server.signalfd.get).read siginfoSize = .ok bytes)
    (whole : bytes.length = siginfoSize) :
    step l k = (⟨l.server.stopped, .returned⟩,
      .read l.server.signalfd.get bytes :: l.server.stopLog) := by
  have eq : stepProgram k l.control l.server = ⟨l.server.stopped,
      .read l.server.signalfd.get bytes :: l.server.stopLog, .returned .returned⟩ := by
    simp [stepProgram, at_signal, signalStep, entry, signalled, readFd, answer, whole, stop_eq]
  exact step_eq eq

theorem left_of_charged {l : Loop} (charged : Charged l) (k : Kernel) : Left (step l k).1 := by
  obtain ⟨pollfds, nready, p, at_signal, entry, signalled⟩ := charged
  cases answer : (k.read l.server.signalfd.get).read siginfoSize with
  | error e =>
    have eq : stepProgram k l.control l.server = ⟨l.server, [.readError l.server.signalfd.get e],
        .thrown (.systemError (some e) "read() failed")⟩ := by
      simp [stepProgram, at_signal, signalStep, entry, signalled, readFd, answer]
    rw [step_eq eq]
    exact .inr (.inl ⟨_, rfl⟩)
  | ok bytes =>
    by_cases whole : bytes.length = siginfoSize
    · rw [step_of_signalled at_signal entry signalled answer whole]
      exact .inl ⟨rfl, rfl⟩
    · have eq : stepProgram k l.control l.server = ⟨l.server, [.read l.server.signalfd.get bytes],
          .thrown (.runtimeError "failed to read signalfd")⟩ := by
        simp [stepProgram, at_signal, signalStep, entry, signalled, readFd, answer, whole]
      rw [step_eq eq]
      exact .inr (.inl ⟨_, rfl⟩)

theorem nearer_of_signal {k : Kernel} {l : Loop} {pollfds : List PollFd} {nready : Int}
    (good : l.server.Good) (covered : Covered l) (at_signal : l.control = .signal pollfds nready) :
    Nearer l (step l k).1 := by
  have covers : l.server.clients.length + 2 ≤ pollfds.length := by
    simpa only [Covered, at_signal] using covered
  obtain ⟨p, entry⟩ : ∃ p, pollfds[1]? = some p :=
    ⟨_, List.getElem?_eq_getElem (show 1 < pollfds.length by omega)⟩
  cases signalled : p.revents.pollin with
  | true => exact .inl (left_of_charged ⟨pollfds, nready, p, at_signal, entry, signalled⟩ k)
  | false =>
    obtain ⟨next, _⟩ := signal_of_effect (step_effect k l good) at_signal entry signalled
    rw [next]
    refine .inr ⟨rfl, ?_⟩
    simp [Loop.stepsLeft, at_signal, entry, signalled]

theorem nearer_of_countDown {l : Loop} {pollfds pollfds' : List PollFd} {i j : Nat}
    {nready : Int} {s : ChatServer} (at_client : l.control = .client pollfds i nready)
    (fewer : s.clients.length - j < l.server.clients.length - i) :
    Nearer l ⟨s, countDown pollfds' j nready⟩ := by
  by_cases last : nready - 1 ≤ 0
  · refine .inr ⟨by simp [countDown, last, Control.inLoop], ?_⟩
    simp only [Loop.stepsLeft, at_client, countDown, last, if_true]
    omega
  · refine .inr ⟨by simp [countDown, last, Control.inLoop], ?_⟩
    simp only [Loop.stepsLeft, at_client, countDown, last, if_false]
    omega

theorem nearer_of_client {k : Kernel} {l : Loop} {pollfds : List PollFd} {i : Nat} {nready : Int}
    (good : l.server.Good) (covered : Covered l)
    (at_client : l.control = .client pollfds i nready) : Nearer l (step l k).1 := by
  have here {pollfds' : List PollFd} {i' : Nat} {nready' : Int} {p : PollFd} {c : ClientInfo}
      (turn : Turn l pollfds' i' nready' p c) :
      pollfds' = pollfds ∧ i' = i ∧ nready' = nready ∧ i < l.server.clients.length := by
    obtain ⟨rfl, rfl, rfl⟩ : pollfds' = pollfds ∧ i' = i ∧ nready' = nready := by
      simpa using turn.at_client.symm.trans at_client
    exact ⟨rfl, rfl, rfl, (List.getElem?_eq_some_iff.mp turn.found).1⟩
  have effect := step_effect k l good
  generalize step l k = after at effect
  obtain ⟨l', more⟩ := after
  cases effect with
  | join _ _ at_poll | refuse _ _ at_poll | closeFailed _ _ at_poll =>
    cases at_poll.symm.trans at_client
  | stop => exact .inl (.inl ⟨rfl, rfl⟩)
  | signalFailed | readFailed => exact .inl (.inr (.inl ⟨_, rfl⟩))
  | hangup _ _ _ p c turn | eof _ _ _ p c turn =>
    obtain ⟨rfl, rfl, rfl, inside⟩ := here turn
    have fewer := length_removed turn.found
    refine nearer_of_countDown at_client ?_
    change (removed l.server.clients _).length - _ < _
    omega
  | serve pollfds' i' nready' p c c' bytes tail outcome turn _ _ _ _ _ relayed =>
    obtain ⟨rfl, rfl, rfl, inside⟩ := here turn
    by_cases returned : outcome = .returned ()
    · rw [returned]
      refine nearer_of_countDown at_client ?_
      simp only [setClient_clients, List.length_set]
      omega
    · exact .inl (.inr (stopped_after _ relayed.ends returned))
  | quiet control goes =>
    cases goes with
    | finished at_poll | interrupted at_poll | pollFailed at_poll | polled at_poll
    | acceptBlocked at_poll | acceptFailed at_poll => cases at_poll.symm.trans at_client
    | unsignalled _ _ _ at_signal | noSignal _ _ at_signal => cases at_signal.symm.trans at_client
    | through =>
      refine .inr ⟨rfl, ?_⟩
      simp only [Loop.stepsLeft, at_client]
      omega
    | missing _ _ _ at_client' inside missing =>
      cases at_client'.symm.trans at_client
      have covers : l.server.clients.length + 2 ≤ pollfds.length := by
        simpa only [Covered, at_client] using covered
      have outside := List.getElem?_eq_none_iff.mp missing
      omega
    | unready _ _ _ p c turn =>
      obtain ⟨rfl, rfl, rfl, inside⟩ := here turn
      refine .inr ⟨rfl, ?_⟩
      simp only [Loop.stepsLeft, at_client]
      omega
    | ended left => simp [at_client] at left

theorem nearer_step {k : Kernel} {l : Loop} (good : l.server.Good) (covered : Covered l)
    (entered : l.control.inLoop = true) (pending : l.server.running = true → Pending l.server k) :
    Nearer l (step l k).1 := by
  cases control : l.control with
  | poll => exact nearer_of_poll control pending
  | signal pollfds nready => exact nearer_of_signal good covered control
  | client pollfds i nready => exact nearer_of_client good covered control
  | _ =>
    rw [control] at entered
    cases entered

theorem stepsLeft_le (l : Loop) : l.stepsLeft ≤ l.server.clients.length + 4 := by
  unfold Loop.stepsLeft
  split
  · omega
  · split <;> omega
  · omega
  · exact Nat.zero_le _

/-! Whole lives that end so. -/

/-- The loop goes on while a signal is pending, until it is left. -/
def Awaited (p : Process) : Action → Prop
  | .loopStep k => Sane p (.loopStep k) ∧ ∀ l ∈ p.object, l.control.inLoop = true →
      l.server.running = true → Pending l.server k
  | _ => False

instance (p : Process) : (a : Action) → Decidable (Awaited p a)
  | .loopStep k => inferInstanceAs (Decidable (Sane p (.loopStep k) ∧ ∀ l ∈ p.object, _))
  | .run _ | .stop | .enterLoop | .destroy => inferInstanceAs (Decidable False)

/-- A life at whose end the loop is entered, and a signal comes. -/
structure Signalled extends Life where
  loop : Loop
  here : toLife.final.object = some loop
  entered : loop.control.inLoop = true
  kernels : List Kernel
  pending : Machine.Along Process.next Awaited toLife.final (kernels.map .loopStep)
  enough : loop.server.clients.length + 4 < kernels.length

namespace Signalled

def last (r : Signalled) : Process × List Event :=
  Machine.run Process.next r.toLife.final (r.kernels.map .loopStep)

theorem sane_of_awaited {p : Process} {a : Action} (awaited : Awaited p a) : Sane p a := by
  cases a with
  | loopStep k => exact awaited.1
  | _ => exact awaited.elim

theorem standing (r : Signalled) : Standing r.port r.last.1 (r.toLife.log ++ r.last.2) :=
  run_invariant (fun p log a h awaited => standing_next r.port p log a h (sane_of_awaited awaited))
    r.toLife.standing r.pending

theorem left (r : Signalled) : ∃ l, r.last.1.object = some l ∧ Left l := by
  have started : ∃ l, r.toLife.final.object = some l ∧ l.control.inLoop = true :=
    ⟨r.loop, r.here, r.entered⟩
  refine run_reaches (Q := fun p => ∃ l, p.object = some l ∧ Left l)
    (I := fun p => (∃ log, Standing r.port p log) ∧
      ∃ l, p.object = some l ∧ l.control.inLoop = true)
    (fun p => p.object.elim 0 Loop.stepsLeft) ?_ ?_ ⟨⟨_, r.toLife.standing⟩, started⟩ r.pending ?_
  · rintro ⟨object, table⟩ a ⟨l, rfl, left⟩ awaited
    cases a with
    | loopStep k =>
      refine ⟨l, ?_, left⟩
      have outside := inLoop_of_left left
      simp [Process.next, act, step_of_outside outside]
    | _ => exact awaited.elim
  · rintro ⟨object, table⟩ a ⟨⟨log, standing⟩, l, rfl, entered⟩ awaited
    have next := standing_next r.port _ log a standing (sane_of_awaited awaited)
    cases a with
    | loopStep k =>
      have near := nearer_step (standing.kept.good l rfl) (standing.covered l rfl) entered
        (awaited.2 l rfl entered)
      rcases near with left | ⟨inside, lower⟩
      · exact .inl ⟨_, rfl, left⟩
      · exact .inr ⟨⟨⟨_, next⟩, _, rfl, inside⟩, lower⟩
    | _ => exact awaited.elim
  · have bound := stepsLeft_le r.loop
    have enough := r.enough
    simp only [r.here, Option.elim_some, List.length_map]
    omega

/-- An event of the signal test, or of a connection that is accepted or closed. -/
def Aside (signal : Fd) : Event → Prop
  | .accept _ | .close _ => True
  | .read fd _ | .readError fd _ => fd = signal
  | _ => False

theorem aside_stopLog (s : ChatServer) (signal : Fd) : ∀ e ∈ s.stopLog, Aside signal e := by
  intro e member
  rw [stopLog_eq] at member
  obtain ⟨fd, _, rfl⟩ := List.mem_map.mp member
  trivial

theorem aside_of_charged {l : Loop} (charged : Charged l) (k : Kernel) :
    ∀ e ∈ (step l k).2, Aside l.server.signalfd.get e := by
  obtain ⟨pollfds, nready, p, at_signal, entry, signalled⟩ := charged
  have effect := signalStep_effect k l at_signal
  generalize step l k = after at effect
  obtain ⟨l', more⟩ := after
  cases effect with
  | stop bytes => exact List.forall_mem_cons.mpr ⟨rfl, aside_stopLog l.server _⟩
  | signalFailed e log _ tried =>
    rcases tried with ⟨bytes, rfl⟩ | ⟨e, rfl⟩ <;> simp [Aside]
  | quiet => exact nofun
  | join _ _ at_poll | refuse _ _ at_poll | closeFailed _ _ at_poll =>
    cases at_poll.symm.trans at_signal
  | hangup _ _ _ _ _ turn | eof _ _ _ _ _ turn | readFailed _ _ _ _ _ _ turn
  | serve _ _ _ _ _ _ _ _ _ turn => cases turn.at_client.symm.trans at_signal

/-- Where the loop stands from the poll on that reports the signal. -/
inductive Closing (signal : Fd) (l : Loop) : Prop
  | poll (at_poll : l.control = .poll) (on : l.server.running = true)
      (same : l.server.signalfd.get = signal)
  | charged (charged : Charged l) (same : l.server.signalfd.get = signal)
  | left (left : Left l)

theorem closing_step {signal : Fd} {l : Loop} {k : Kernel} (closing : Closing signal l)
    (pending : l.control.inLoop = true → l.server.running = true → Pending l.server k) :
    Closing signal (step l k).1 ∧ ∀ e ∈ (step l k).2, Aside signal e := by
  cases closing with
  | poll at_poll on same =>
    obtain ⟨next, events⟩ := charged_of_poll at_poll (pending (by rw [at_poll]; rfl) on)
    constructor
    · rcases next with left | ⟨charged, kept⟩
      · exact .left left
      · exact .charged charged (by rw [kept, same])
    · intro e member
      obtain ⟨fd, rfl | rfl⟩ := events e member <;> trivial
  | charged charged same =>
    exact ⟨.left (left_of_charged charged k), same ▸ aside_of_charged charged k⟩
  | left left =>
    rw [step_of_outside (inLoop_of_left left)]
    exact ⟨.left left, nofun⟩

theorem aside (r : Signalled) (at_poll : r.loop.control = .poll) (on : r.loop.server.running = true) :
    ∀ e ∈ r.last.2, Aside r.loop.server.signalfd.get e := by
  have kept : (∀ l ∈ r.last.1.object, Closing r.loop.server.signalfd.get l) ∧
      ∀ e ∈ r.last.2, Aside r.loop.server.signalfd.get e := by
    refine run_keeps (I := fun p log => (∀ l ∈ p.object, Closing r.loop.server.signalfd.get l) ∧
      ∀ e ∈ log, Aside r.loop.server.signalfd.get e) (P := Awaited) ?_ ?_ r.pending
    · rintro ⟨object, table⟩ log a ⟨closing, events⟩ awaited
      cases a with
      | loopStep k =>
        cases object with
        | none => exact ⟨by simp [Process.next, act], by simpa [Process.next, act] using events⟩
        | some l =>
          obtain ⟨next, more⟩ := closing_step (closing l rfl) (awaited.2 l rfl)
          refine ⟨?_, fun e member => (List.mem_append.mp member).elim (events e) (more e)⟩
          rintro _ ⟨⟩
          exact next
      | _ => exact awaited.elim
    · refine ⟨fun l here => ?_, by simp⟩
      obtain rfl : r.loop = l := Option.some.inj (r.here.symm.trans here)
      exact .poll at_poll on rfl
  exact kept.2

/-- Two clients are served when the signal comes in the middle of a round. -/
def interrupted : Signalled where
  port := none
  actions := [.run { socket := .ok 3, signalfd := .ok 4 }, .enterLoop] ++
    (joins 5 ++ joins 6 ++ (delivers 5 0 (ascii ['A', '\n'])).take 2).map .loopStep
  sane := by decide +kernel
  loop := ⟨{ listening with clients := [newClient 5 (Cells.fill bufferSize 0),
      newClient 6 (Cells.fill bufferSize 0)] },
    .client [{ fd := 3 }, { fd := 4 }, { fd := 5, revents := { pollin := true } }, { fd := 6 }] 0 1⟩
  here := by decide +kernel
  entered := rfl
  kernels := List.replicate 7
    { poll := .ready fun y => { pollin := y = 4 }
      read := fun y => .ofBytes (if y = 4 then List.replicate siginfoSize 0 else ascii ['A', '\n'])
      write := fun _ => [.accepted bufferSize] }
  pending := by decide +kernel
  enough := by decide +kernel

example : interrupted.last.2.filterMap Event.frees = [5, 6, 4, 3] := by decide +kernel

end Signalled
end TcpChat.ChatServer
