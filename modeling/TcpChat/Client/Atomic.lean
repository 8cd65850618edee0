import TcpChat.Net.Descriptor
import TcpChat.Client.Twins

/-! `run` that fails. The socket is held by a local owner until the end, but the signal
descriptor is stored in the member before the name line is sent, and stays there. -/
namespace TcpChat.ChatClient
open Machine

/-- A call of `run` on a client that is not connected. The kernel gives out no descriptor that
the client already holds. -/
structure Attempt where
  client : ChatClient
  answers : RunAnswers
  off : client.connected = false
  unused : ∀ sfd ∈ answers.signalfd.toOption, (sfd : Fd) ∉ client.signalfd.held

namespace Attempt

def result (t : Attempt) : Result ChatClient Event Exn Unit := run t.answers t.client

end Attempt

structure Unchanged (c c' : ChatClient) : Prop where
  connected : c'.connected = c.connected
  clientFd : c'.clientFd = c.clientFd
  signalfd : c'.signalfd = c.signalfd
  readBuffer : c'.readBuffer = c.readBuffer
  writeBuffer : c'.writeBuffer = c.writeBuffer

/-- If `run` throws, the client is as it was, and all that the call opened is closed again. -/
def Attempt.Atomic (t : Attempt) : Prop :=
  ∀ e, t.result.outcome = .thrown e →
    Unchanged t.client t.result.state ∧
      Ledger.Settled Event.gets Event.frees [] t.result.events

/-- `run` fails before it sends the name line, or none of the writes of that line is refused. -/
def NameUnrefused (c : ChatClient) (a : RunAnswers) : Prop :=
  a.failsEarly = true ∨ refused c.nameLine.length a.write = false

instance (c : ChatClient) (a : RunAnswers) : Decidable (NameUnrefused c a) :=
  inferInstanceAs (Decidable (_ ∨ _))

theorem settled_undone (fd : Nat) (sa : SockaddrIn) :
    Ledger.Settled Event.gets Event.frees [] [.socket fd, .connect fd sa, .close fd] := by
  have closed : Ledger.table Event.gets Event.frees []
      [.socket fd, .connect fd sa, .close fd] = [] := by
    simp [Ledger.table, Ledger.enter, Event.gets, Event.frees]
  have whole : Ledger.Orderly Event.gets Event.frees []
      [.socket fd, .connect fd sa, .close fd] := by
    simp [Ledger.Orderly, Ledger.Proper, Ledger.enter, Event.gets, Event.frees]
  have settled := Ledger.settled_of_orderly whole
  rwa [closed] at settled

theorem settled_nothing : Ledger.Settled Event.gets Event.frees [] [] := by
  intro before e after r split
  simp at split

theorem atomic_iff (t : Attempt) : t.Atomic ↔ NameUnrefused t.client t.answers := by
  have effect := run_effect t.answers t.client
  have unfolded : t.Atomic = ∀ e, (run t.answers t.client).outcome = .thrown e →
      Unchanged t.client (run t.answers t.client).state ∧
        Ledger.Settled Event.gets Event.frees [] (run t.answers t.client).events := rfl
  rw [unfolded]
  generalize run t.answers t.client = r at effect
  obtain ⟨c', log, o⟩ := r
  have same : Unchanged t.client t.client := ⟨rfl, rfl, rfl, rfl, rfl⟩
  cases effect with
  | connected on => exact absurd (t.off.symm.trans on) (by decide)
  | unopened e off early => exact ⟨fun _ => .inl early, fun _ _ _ => ⟨same, settled_nothing⟩⟩
  | undone fd e off early =>
    exact ⟨fun _ => .inl early, fun _ _ _ => ⟨same, settled_undone fd _⟩⟩
  | cut fd sfd log e off late signal short refusal =>
    constructor
    · intro atomic
      have kept : (⟨sfd⟩ : ScopedFileDescriptor) = t.client.signalfd := (atomic e rfl).1.signalfd
      have held : (sfd : Fd) ∈ t.client.signalfd.held := by
        rw [← kept]
        simp [ScopedFileDescriptor.held, ScopedFileDescriptor.valid, ScopedFileDescriptor.get]
      have given : sfd ∈ t.answers.signalfd.toOption := by
        rw [signal]
        rfl
      exact absurd held (t.unused sfd given)
    · rintro (early | accepted)
      · exact absurd (late.symm.trans early) (by decide)
      · exact absurd (accepted.symm.trans refusal) (by decide)
  | stuck fd sfd log off late short accepted =>
    refine ⟨fun _ => .inr accepted, fun _ e ended => ?_⟩
    cases ended
  | done fd sfd writes off late socket signal only all accepted =>
    refine ⟨fun _ => .inr accepted, fun _ e ended => ?_⟩
    cases ended

/-! Any number of calls. -/

/-- Connected or not, and the descriptors are there or not. -/
def Consistent (c : ChatClient) : Prop :=
  c.connected = c.clientFd.valid ∧ c.connected = c.signalfd.valid

theorem consistent_stopped (c : ChatClient) : c.stopped.Consistent := ⟨rfl, rfl⟩

theorem StdinPart.consistent {k : Kernel} {r : Revents} {c c' : ChatClient} {log : List Event}
    {o : Outcome Exn Bool} (part : StdinPart k r c c' log o) (h : c.Consistent) :
    c'.Consistent := by
  cases part with
  | eof => exact consistent_stopped c
  | idle | readFailed | forwarded | stuck => exact h

theorem ServerPart.consistent {k : Kernel} {r : Revents} {c c' : ChatClient} {log : List Event}
    {o : Outcome Exn Unit} (part : ServerPart k r c c' log o) (h : c.Consistent) :
    c'.Consistent := by
  cases part with
  | idle | readFailed | received => exact h

theorem SignalPart.consistent {k : Kernel} {r : Revents} {c c' : ChatClient} {log : List Event}
    {o : Outcome Exn Control} (part : SignalPart k r c c' log o) (h : c.Consistent) :
    c'.Consistent := by
  cases part with
  | stop => exact consistent_stopped c
  | idle | partly | readFailed => exact h

theorem effect_consistent {k : Kernel} {l l' : Loop} {log : List Event} (effect : Effect k l l' log)
    (h : l.client.Consistent) : l'.client.Consistent := by
  cases effect with
  | quiet => exact h
  | stdinEnds revents ready c₁ log₁ o stdin => exact stdin.consistent h
  | serverEnds revents ready c₁ c₂ log₁ log₂ o stdin server =>
    exact server.consistent (stdin.consistent h)
  | through revents ready c₁ c₂ c₃ log₁ log₂ log₃ o stdin server signal =>
    exact signal.consistent (server.consistent (stdin.consistent h))

/-- The call comes back, by returning or by throwing. -/
def ComesBack (c : ChatClient) : Call → Prop
  | .run answers => (run answers c).outcome ≠ .blocked
  | _ => True

/-- A `run` on a client that is not connected meets the condition. -/
def RunsUnrefused (c : ChatClient) : Call → Prop
  | .run answers => c.connected = true ∨ NameUnrefused c answers
  | _ => True

instance (c : ChatClient) (a : Call) : Decidable (ComesBack c a) := by
  unfold ComesBack
  cases a <;> infer_instance

instance (c : ChatClient) (a : Call) : Decidable (RunsUnrefused c a) := by
  unfold RunsUnrefused
  cases a <;> infer_instance

structure Usage where
  life : Life
  back : Along call ComesBack life.new life.calls

theorem consistent_call {c : ChatClient} (good : c.Good) (h : c.Consistent) (a : Call)
    (back : ComesBack c a) : (call c a).1.Consistent ↔ RunsUnrefused c a := by
  cases a with
  | setName name =>
    exact iff_of_true (keeps_setName (P := fun _ => True) name (fun _ h => h) c h).1 trivial
  | stop =>
    refine iff_of_true ?_ trivial
    rw [call, stop_eq]
    exact consistent_stopped c
  | eventLoop kernels =>
    refine iff_of_true ?_ trivial
    refine (run_keeps (I := fun (l : Loop) _ => l.client.Good ∧ l.client.Consistent)
      (P := fun _ _ => True) ?_ ⟨good, h⟩ (along_of_forall (fun _ _ => trivial) _ _)).2
    intro l log k kept _
    obtain ⟨there, holds⟩ := kept
    exact ⟨good_step k there, effect_consistent (step_effect k l there) holds⟩
  | run answers =>
    obtain ⟨c', log, o, eq, effect⟩ := run_cases answers c
    simp only [ComesBack, eq] at back
    simp only [call, RunsUnrefused, eq]
    cases effect with
    | connected on => exact iff_of_true h (.inl on)
    | unopened e off early | undone fd e off early => exact iff_of_true h (.inr (.inl early))
    | stuck => exact absurd rfl back
    | done fd sfd writes off late socket signal only all accepted =>
      refine iff_of_true ?_ (.inr (.inr accepted))
      simp [Consistent, ScopedFileDescriptor.valid]
    | cut fd sfd log e off late signal short refusal =>
      refine iff_of_false ?_ ?_
      · simp [Consistent, off, ScopedFileDescriptor.valid]
      · simp [NameUnrefused, off, late, refusal]

/-- A failed `run` leaves no trace, and the members agree after every call, exactly as long as
no write of a name line is refused. -/
theorem run_atomic_iff (t : Attempt) (u : Usage) :
    (t.Atomic ↔ NameUnrefused t.client t.answers) ∧
      (Always call (fun c _ => c.Consistent) u.life.new [] u.life.calls ↔
        Along call RunsUnrefused u.life.new u.life.calls) := by
  refine ⟨atomic_iff t, ?_⟩
  have consistent : u.life.new.Consistent :=
    (keeps_construct (P := fun _ => True) u.life.constructor (fun _ _ h => h) (fun _ _ h => h) {}
      ⟨rfl, rfl⟩).1
  exact always_iff_along (I := fun c _ => c.Good ∧ c.Consistent) (P := ComesBack)
    (fun c log h => h.2)
    (fun c log a h back unrefused =>
      ⟨good_call h.1 a, (consistent_call h.1 h.2 a back).mpr unrefused⟩)
    (fun c log a h back holds => (consistent_call h.1 h.2 a back).mp holds)
    ⟨good_new u.life, consistent⟩ u.back

theorem off_new : ({} : ChatClient).connected = false := rfl

/-- Nobody listens yet. -/
def earlyAttempt : Attempt where
  client := {}
  answers := { socket := .ok 3, connect := some (.other 111), signalfd := .ok 4 }
  off := off_new
  unused := by decide

/-- A client that tries again, and is run once more after its session. -/
def triesAgain : Usage where
  life := {
    constructor := .default
    calls := [.run earlyAttempt.answers,
      .run { socket := .ok 3, signalfd := .ok 4, write := [.accepted 8] },
      .eventLoop [types (ascii ['h', 'i', '\n']), types []],
      .run { socket := .ok 3, signalfd := .ok 4, write := [.accepted 8] }, .stop]
    built := built_default }
  back := by decide +kernel

theorem early_attempt_atomic : earlyAttempt.Atomic ∧
    Always call (fun c _ => c.Consistent) triesAgain.life.new [] triesAgain.life.calls := by
  obtain ⟨attempt, usage⟩ := run_atomic_iff earlyAttempt triesAgain
  exact ⟨attempt.mpr (by decide), usage.mpr (by decide +kernel)⟩

/-- The connection is reset before the name line is written. -/
def resetAttempt : Attempt where
  client := {}
  answers := { socket := .ok 3, signalfd := .ok 4, write := [.failed .ECONNRESET] }
  off := off_new
  unused := by decide

/-- The signal descriptor stays in a client that is not connected. -/
theorem signalfd_kept : ¬ resetAttempt.Atomic ∧ ¬ resetAttempt.result.state.Consistent := by
  constructor
  · intro atomic
    have kept := (atomic (.systemError (some .ECONNRESET) "write() failed") (by decide +kernel)).1
    exact absurd kept.signalfd (by decide +kernel)
  · intro consistent
    exact absurd consistent.2 (by decide +kernel)

end TcpChat.ChatClient
