import TcpChat.Server.Run

/-! The retry of `accept_socket`. It is meant for both errors of a connection that is gone before
it is accepted, but one is spelled with an `R` that no platform header has. -/
namespace TcpChat

def Errno.aborted (e : Errno) : Bool := e = .ECONNABORTED || e = .EPROTO

def AcceptAnswer.skipped (retried : Errno → Bool) : AcceptAnswer → Bool
  | .accepted _ => false
  | .failed e => retried e

/-- What a loop comes to that retries these errors and no others. -/
def firstOf (retried : Errno → Bool) (answers : List AcceptAnswer) : Outcome Exn Fd :=
  match answers.dropWhile (AcceptAnswer.skipped retried) with
  | [] => .blocked
  | .accepted fd :: _ => .returned fd
  | .failed e :: _ => .thrown (.systemError (some e) "accept() failed")

/-- No `EPROTO` among the failures of aborted connections at the front. -/
def ProtoFree (answers : List AcceptAnswer) : Prop :=
  ∀ a ∈ answers.takeWhile (AcceptAnswer.skipped Errno.aborted), a ≠ .failed .EPROTO

instance (answers : List AcceptAnswer) : Decidable (ProtoFree answers) :=
  inferInstanceAs (Decidable (∀ a ∈ _, a ≠ _))

theorem acceptSocket_first {S : Type} (answers : List AcceptAnswer) (s : S) :
    (acceptSocket answers s).outcome = firstOf (· = .ECONNABORTED) answers := by
  induction answers with
  | nil => rfl
  | cons a answers ih =>
    cases a with
    | accepted fd => rfl
    | failed e =>
      by_cases again : e = .ECONNABORTED
      · have skip : firstOf (· = .ECONNABORTED) (.failed e :: answers) =
            firstOf (· = .ECONNABORTED) answers := by
          simp [firstOf, AcceptAnswer.skipped, again]
        rw [skip, ← ih, acceptSocket, if_pos again]
      · simp [acceptSocket, firstOf, AcceptAnswer.skipped, again]

theorem firstOf_thrown {retried : Errno → Bool} {answers : List AcceptAnswer} {e : Errno}
    (thrown : firstOf retried answers = .thrown (.systemError (some e) "accept() failed")) :
    retried e = false := by
  induction answers with
  | nil => cases thrown
  | cons a answers ih =>
    cases a with
    | accepted fd => cases thrown
    | failed f =>
      cases on : retried f with
      | true =>
        apply ih
        simpa [firstOf, AcceptAnswer.skipped, on] using thrown
      | false =>
        have same : f = e := by simpa [firstOf, AcceptAnswer.skipped, on] using thrown
        rw [← same, on]

/-- The two loops part at the first `EPROTO` that they come to, and only there. -/
theorem first_cases (answers : List AcceptAnswer) :
    ProtoFree answers ∧ firstOf (· = .ECONNABORTED) answers = firstOf Errno.aborted answers ∨
      ¬ ProtoFree answers ∧ firstOf (· = .ECONNABORTED) answers =
        .thrown (.systemError (some .EPROTO) "accept() failed") := by
  induction answers with
  | nil => exact .inl ⟨by simp [ProtoFree], rfl⟩
  | cons a answers ih =>
    cases a with
    | accepted fd => exact .inl ⟨by simp [ProtoFree, AcceptAnswer.skipped], rfl⟩
    | failed e =>
      by_cases again : e = .ECONNABORTED
      · subst again
        have same : ProtoFree (.failed .ECONNABORTED :: answers) ↔ ProtoFree answers := by
          simp [ProtoFree, AcceptAnswer.skipped, Errno.aborted]
        rw [same]
        exact ih
      · by_cases proto : e = .EPROTO
        · subst proto
          exact .inr ⟨by simp [ProtoFree, AcceptAnswer.skipped, Errno.aborted], rfl⟩
        · refine .inl ⟨?_, ?_⟩
          · simp [ProtoFree, AcceptAnswer.skipped, Errno.aborted, again, proto]
          · simp [firstOf, AcceptAnswer.skipped, Errno.aborted, again, proto]

theorem first_iff_protoFree (answers : List AcceptAnswer) :
    firstOf (· = .ECONNABORTED) answers = firstOf Errno.aborted answers ↔ ProtoFree answers := by
  rcases first_cases answers with ⟨clear, same⟩ | ⟨stuck, thrown⟩
  · exact iff_of_true same clear
  · refine iff_of_false (fun same => ?_) stuck
    exact absurd (firstOf_thrown (same.symm.trans thrown)) (by decide)

theorem thrown_iff_protoFree (answers : List AcceptAnswer) :
    (∀ e : Errno, e.aborted = true → firstOf (· = .ECONNABORTED) answers ≠
      .thrown (.systemError (some e) "accept() failed")) ↔ ProtoFree answers := by
  rcases first_cases answers with ⟨clear, same⟩ | ⟨stuck, thrown⟩
  · refine iff_of_true (fun e aborted ends => ?_) clear
    have final := firstOf_thrown (same.symm.trans ends)
    exact absurd (aborted.symm.trans final) (by decide)
  · exact iff_of_false (fun none => none .EPROTO rfl thrown) stuck

namespace ChatServer
open Machine

/-- The step from the head of the `while` is not the end of the loop because a connection was
aborted. -/
def SurvivesAborts (l : Loop) (k : Kernel) : Prop :=
  l.control = .poll → ∀ e : Errno, e.aborted = true →
    (step l k).1.control ≠ .thrown (.systemError (some e) "accept() failed")

/-- Where a new connection is reported, the failures before it are none of `EPROTO`. -/
def AdmitsProtoFree (l : Loop) (k : Kernel) : Prop :=
  l.control = .poll → l.server.running = true → ∀ revents, k.poll = .ready revents →
    (revents l.server.listenfd.get).pollin = true → ProtoFree k.accept

theorem admits_iff {l : Loop} {k : Kernel} (at_poll : l.control = .poll)
    (on : l.server.running = true) {revents : Fd → Revents} (answer : k.poll = .ready revents)
    (listening : (revents l.server.listenfd.get).pollin = true) :
    AdmitsProtoFree l k ↔ ProtoFree k.accept := by
  constructor
  · intro admits
    exact admits at_poll on revents answer listening
  · intro free _ _ _ _ _
    exact free

theorem survives_iff (l : Loop) (k : Kernel) : SurvivesAborts l k ↔ AdmitsProtoFree l k := by
  by_cases at_poll : l.control = .poll
  · have here : SurvivesAborts l k ↔ ∀ e : Errno, e.aborted = true →
        (step l k).1.control ≠ .thrown (.systemError (some e) "accept() failed") := by
      simp only [SurvivesAborts, at_poll, forall_const]
    have polled := pollStep_cases k at_poll
    rw [here]
    generalize step l k = next at polled
    cases polled with
    | finished off =>
      refine iff_of_true (by simp) fun _ on => ?_
      cases off.symm.trans on
    | interrupted answer | failed e answer =>
      refine iff_of_true (by simp) fun _ _ revents ready => ?_
      cases answer.symm.trans ready
    | nobody revents answer nobody =>
      refine iff_of_true (by simp) fun _ _ revents' ready reported => ?_
      cases answer.symm.trans ready
      cases nobody.symm.trans reported
    | joined revents fd on answer listening _ accepted
    | refused revents fd on answer listening _ accepted =>
      rw [admits_iff at_poll on answer listening, ← thrown_iff_protoFree,
        ← acceptSocket_first k.accept l.server, accepted]
      refine iff_of_true (fun e _ => ?_) (by simp)
      dsimp only
      split <;> simp
    | unclosed revents fd e on answer listening _ accepted =>
      rw [admits_iff at_poll on answer listening, ← thrown_iff_protoFree,
        ← acceptSocket_first k.accept l.server, accepted]
      simp
    | waits revents on answer listening ends | unaccepted revents e on answer listening ends =>
      rw [admits_iff at_poll on answer listening, ← thrown_iff_protoFree,
        ← acceptSocket_first k.accept l.server, ends]
      simp
  · exact iff_of_true (fun here => absurd here at_poll) fun here => absurd here at_poll

/-- The connections that are gone are skipped, and never end the loop, exactly where none of them
is reported as `EPROTO`. -/
theorem accept_skips_iff (answers : List AcceptAnswer) (s : ChatServer) (kernels : List Kernel) :
    ((acceptSocket answers s).outcome = firstOf Errno.aborted answers ↔ ProtoFree answers) ∧
      (Along step SurvivesAborts (eventLoop s) kernels ↔
        Along step AdmitsProtoFree (eventLoop s) kernels) := by
  constructor
  · rw [acceptSocket_first]
    exact first_iff_protoFree answers
  · exact along_congr (I := fun _ => True) (P := fun _ _ => True) (fun l k _ => survives_iff l k)
      (fun _ _ _ _ => trivial) trivial (along_of_forall (fun _ _ => trivial) _ _)

theorem proto_not_skipped : ¬ ∀ (answers : List AcceptAnswer) (s : ChatServer),
    (acceptSocket answers s).outcome = firstOf Errno.aborted answers := by
  intro skips
  have here := skips [.failed .EPROTO, .accepted 5] {}
  exact absurd here (by decide)

end ChatServer
end TcpChat
