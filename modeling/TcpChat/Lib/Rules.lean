import TcpChat.Lib.Program
import TcpChat.Lib.Machine

/-! Rules for programs, one for each way to build them: what one run keeps, and what two runs
side by side have in common. -/
namespace TcpChat

namespace Program

variable {S T E X α β : Type}

/-! One run. -/

/-- From the states that meet `I` the program stays in them, and its events meet `P`. -/
def Keeps (I : S → Prop) (P : E → Prop) (p : Program S E X α) : Prop :=
  ∀ s, I s → I (p s).state ∧ ∀ e ∈ (p s).events, P e

section
variable {I : S → Prop} {P : E → Prop}

theorem keeps_pure (a : α) : Keeps I P (pure a : Program S E X α) := by
  intro s inside
  exact ⟨inside, by simp⟩

theorem keeps_throw (x : X) : Keeps I P (throw x : Program S E X α) := by
  intro s inside
  exact ⟨inside, by simp⟩

theorem keeps_emit {es : List E} (each : ∀ e ∈ es, P e) :
    Keeps I P (emit es : Program S E X Unit) := by
  intro s inside
  exact ⟨inside, each⟩

theorem keeps_modify {f : S → S} (stays : ∀ s, I s → I (f s)) :
    Keeps I P (modify f : Program S E X Unit) := by
  intro s inside
  exact ⟨stays s inside, by simp⟩

theorem keeps_bind {p : Program S E X α} {f : α → Program S E X β} (first : Keeps I P p)
    (rest : ∀ a, Keeps I P (f a)) : Keeps I P (p >>= f) := by
  intro s inside
  obtain ⟨inside', each⟩ := first s inside
  cases ends : (p s).outcome with
  | returned a =>
    obtain ⟨inside'', each'⟩ := rest a (p s).state inside'
    simp only [bind_apply, andThen, ends]
    refine ⟨inside'', fun e member => ?_⟩
    rcases List.mem_append.mp member with m | m
    · exact each e m
    · exact each' e m
  | thrown x | blocked | undefined =>
    simp only [bind_apply, andThen, ends]
    exact ⟨inside', each⟩

theorem keeps_get {f : S → Program S E X β} (rest : ∀ s, I s → Keeps I P (f s)) :
    Keeps I P (get >>= f) := by
  intro s inside
  exact rest s inside s inside

theorem keeps_unwinding {p : Program S E X α} {destructors : List E} (body : Keeps I P p)
    (each : ∀ e ∈ destructors, P e) : Keeps I P (unwinding p destructors) := by
  intro s inside
  obtain ⟨inside', first⟩ := body s inside
  cases ends : (p s).outcome with
  | thrown x =>
    simp only [unwinding, ends]
    refine ⟨inside', fun e member => ?_⟩
    rcases List.mem_append.mp member with m | m
    · exact first e m
    · exact each e m
  | returned a | blocked | undefined =>
    simp only [unwinding, ends]
    exact ⟨inside', first⟩

end

/-! Two runs. -/

/-- Two results that show the same events, end the same way, and leave states related by `R`,
and also by `Q` where they returned. -/
structure Agrees (shown : E → Bool) (R Q : S → S → Prop) (r r' : Result S E X α) : Prop where
  events : r.events.filter shown = r'.events.filter shown
  outcome : r.outcome = r'.outcome
  states : R r.state r'.state
  returned : ∀ a, r.outcome = .returned a → Q r.state r'.state

section
variable {shown : E → Bool} {R Q Q' : S → S → Prop}

theorem agrees_andThen {r r' : Result S E X α} {f f' : α → Program S E X β}
    (first : Agrees shown R Q r r')
    (rest : ∀ a s s', R s s' → Q s s' → Agrees shown R Q' (f a s) (f' a s')) :
    Agrees shown R Q' (andThen r f) (andThen r' f') := by
  obtain ⟨events, outcome, states, returned⟩ := first
  cases ends : r.outcome with
  | returned a =>
    have later := rest a r.state r'.state states (returned a ends)
    have ends' : r'.outcome = .returned a := outcome.symm.trans ends
    simp only [andThen, ends, ends']
    refine ⟨?_, later.outcome, later.states, later.returned⟩
    simp only [List.filter_append, events, later.events]
  | thrown x | blocked | undefined =>
    have ends' := outcome.symm.trans ends
    simp only [andThen, ends, ends']
    exact ⟨events, rfl, states, nofun⟩

theorem agrees_unwinding {p p' : Program S E X α} {s s' : S} (destructors : List E)
    (body : Agrees shown R Q (p s) (p' s')) :
    Agrees shown R Q (unwinding p destructors s) (unwinding p' destructors s') := by
  obtain ⟨events, outcome, states, returned⟩ := body
  cases ends : (p s).outcome with
  | thrown x =>
    have ends' := outcome.symm.trans ends
    simp only [unwinding, ends, ends']
    refine ⟨?_, rfl, states, nofun⟩
    simp only [List.filter_append, events]
  | returned a | blocked | undefined =>
    have ends' := outcome.symm.trans ends
    simp only [unwinding, ends, ends']
    exact ⟨events, outcome, states, returned⟩

/-- A program on a part of two states that are otherwise related. -/
theorem agrees_zoom {part : S → T} {put : T → S → S} {p : Program T E X α} {Rₜ : T → T → Prop}
    {s s' : S} (inner : Agrees shown Rₜ Rₜ (p (part s)) (p (part s')))
    (lift : ∀ t t', Rₜ t t' → R (put t s) (put t' s')) :
    Agrees shown R R (zoom part put p s) (zoom part put p s') :=
  ⟨inner.events, inner.outcome, lift _ _ inner.states, fun _ _ => lift _ _ inner.states⟩

/-- A program that neither reads nor changes the state. -/
theorem agrees_of_same {s s' : S} (related : R s s') (es : List E) (o : Outcome X α) :
    Agrees shown R R (⟨s, es, o⟩ : Result S E X α) ⟨s', es, o⟩ :=
  ⟨rfl, rfl, related, fun _ _ => related⟩

end
end Program

namespace Machine
variable {S A E : Type} {shown : E → Bool} {R : S → S → Prop} {step : S → A → S × List E}

theorem run_agrees
    (each : ∀ s s' a, R s s' → (step s a).2.filter shown = (step s' a).2.filter shown ∧
      R (step s a).1 (step s' a).1) (as : List A) {s s' : S} (related : R s s') :
    (run step s as).2.filter shown = (run step s' as).2.filter shown ∧
      R (run step s as).1 (run step s' as).1 := by
  induction as generalizing s s' with
  | nil => exact ⟨rfl, related⟩
  | cons a rest ih =>
    obtain ⟨here, next⟩ := each s s' a related
    obtain ⟨later, last⟩ := ih next
    simp only [run_cons, List.filter_append, here, later]
    exact ⟨trivial, last⟩

end Machine
end TcpChat
