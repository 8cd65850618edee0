import Mathlib.Data.List.Basic
import Mathlib.Order.RelClasses

/-! Machines that answer each input with a new state and some events.
Everything here is about every list of inputs, so it covers every run. -/
namespace TcpChat.Machine

variable {S A E : Type}

/-- The last state of a run and all its events, oldest first. -/
def run (step : S → A → S × List E) : S → List A → S × List E
  | s, [] => (s, [])
  | s, a :: rest =>
    let next := step s a
    let tail := run step next.1 rest
    (tail.1, next.2 ++ tail.2)

/-- Every step of the run meets a condition on the state before it and its input. -/
def Along (step : S → A → S × List E) (P : S → A → Prop) : S → List A → Prop
  | _, [] => True
  | s, a :: rest => P s a ∧ Along step P (step s a).1 rest

/-- The predicate holds of every state the run visits, with the events so far. -/
def Always (step : S → A → S × List E) (Q : S → List E → Prop) : S → List E → List A → Prop
  | s, log, [] => Q s log
  | s, log, a :: rest => Q s log ∧ Always step Q (step s a).1 (log ++ (step s a).2) rest

/-- Every step of the run meets a condition on the state before it, the events before it, and
its input. -/
def Each (step : S → A → S × List E) (P : S → List E → A → Prop) : S → List E → List A → Prop
  | _, _, [] => True
  | s, log, a :: rest => P s log a ∧ Each step P (step s a).1 (log ++ (step s a).2) rest

instance decidableAlong (step : S → A → S × List E) (P : S → A → Prop)
    [∀ s a, Decidable (P s a)] : ∀ s as, Decidable (Along step P s as)
  | _, [] => inferInstanceAs (Decidable True)
  | s, a :: rest =>
    have := decidableAlong step P (step s a).1 rest
    inferInstanceAs (Decidable (P s a ∧ Along step P (step s a).1 rest))

instance decidableEach (step : S → A → S × List E) (P : S → List E → A → Prop)
    [∀ s log a, Decidable (P s log a)] : ∀ s log as, Decidable (Each step P s log as)
  | _, _, [] => inferInstanceAs (Decidable True)
  | s, log, a :: rest =>
    have := decidableEach step P (step s a).1 (log ++ (step s a).2) rest
    inferInstanceAs (Decidable (P s log a ∧ Each step P (step s a).1 (log ++ (step s a).2) rest))

@[simp] theorem run_nil (step : S → A → S × List E) (s : S) : run step s [] = (s, []) := rfl

theorem run_cons (step : S → A → S × List E) (s : S) (a : A) (rest : List A) :
    run step s (a :: rest) = ((run step (step s a).1 rest).1,
      (step s a).2 ++ (run step (step s a).1 rest).2) := rfl

theorem run_append (step : S → A → S × List E) (s : S) (as bs : List A) :
    run step s (as ++ bs) = ((run step (run step s as).1 bs).1,
      (run step s as).2 ++ (run step (run step s as).1 bs).2) := by
  induction as generalizing s with
  | nil => rfl
  | cons a rest ih => simp only [List.cons_append, run_cons, ih, List.append_assoc]

theorem along_append (step : S → A → S × List E) (P : S → A → Prop) (s : S) (as bs : List A) :
    Along step P s (as ++ bs) ↔ Along step P s as ∧ Along step P (run step s as).1 bs := by
  induction as generalizing s with
  | nil => simp [Along]
  | cons a rest ih => simp only [List.cons_append, Along, run_cons, ih, and_assoc]

theorem along_and (step : S → A → S × List E) (P Q : S → A → Prop) (s : S) (as : List A) :
    Along step (fun s a => P s a ∧ Q s a) s as ↔ Along step P s as ∧ Along step Q s as := by
  induction as generalizing s with
  | nil => simp [Along]
  | cons a rest ih =>
    simp only [Along, ih]
    constructor
    · rintro ⟨⟨hp, hq⟩, tp, tq⟩; exact ⟨⟨hp, tp⟩, hq, tq⟩
    · rintro ⟨⟨hp, tp⟩, hq, tq⟩; exact ⟨⟨hp, hq⟩, tp, tq⟩

theorem along_of_forall {step : S → A → S × List E} {P : S → A → Prop} (all : ∀ s a, P s a)
    (s : S) (as : List A) : Along step P s as := by
  induction as generalizing s with
  | nil => trivial
  | cons a rest ih => exact ⟨all s a, ih (step s a).1⟩

theorem along_of_mem {step : S → A → S × List E} {P : A → Prop} {as : List A}
    (all : ∀ a ∈ as, P a) (s : S) : Along step (fun _ a => P a) s as := by
  induction as generalizing s with
  | nil => trivial
  | cons a rest ih =>
    exact ⟨all a List.mem_cons_self, ih (fun b member => all b (List.mem_cons_of_mem a member)) _⟩

theorem along_of_invariant {step : S → A → S × List E} {I : S → Prop} {P R : S → A → Prop}
    (holds : ∀ s a, I s → P s a → R s a) (preserves : ∀ s a, I s → P s a → I (step s a).1)
    {s : S} {as : List A} (initial : I s) (allowed : Along step P s as) : Along step R s as := by
  induction as generalizing s with
  | nil => trivial
  | cons a rest ih =>
    exact ⟨holds s a initial allowed.1, ih (preserves s a initial allowed.1) allowed.2⟩

theorem along_congr {step : S → A → S × List E} {I : S → Prop} {P C D : S → A → Prop}
    (same : ∀ s a, I s → (C s a ↔ D s a)) (preserves : ∀ s a, I s → P s a → I (step s a).1)
    {s : S} {as : List A} (initial : I s) (allowed : Along step P s as) :
    Along step C s as ↔ Along step D s as := by
  induction as generalizing s with
  | nil => exact Iff.rfl
  | cons a rest ih =>
    exact and_congr (same s a initial) (ih (preserves s a initial allowed.1) allowed.2)

/-- Two conditions on the steps that say the same wherever the invariant holds, which either
of them keeps. -/
theorem along_iff_along {step : S → A → S × List E} {I : S → Prop} {C D : S → A → Prop}
    (same : ∀ s a, I s → (C s a ↔ D s a)) (preserves : ∀ s a, I s → D s a → I (step s a).1)
    {s : S} {as : List A} (initial : I s) : Along step C s as ↔ Along step D s as := by
  induction as generalizing s with
  | nil => exact Iff.rfl
  | cons a rest ih =>
    constructor
    · intro ⟨here, later⟩
      have condition := (same s a initial).mp here
      exact ⟨condition, (ih (preserves s a initial condition)).mp later⟩
    · intro ⟨condition, later⟩
      exact ⟨(same s a initial).mpr condition, (ih (preserves s a initial condition)).mpr later⟩

/-- What each allowed step keeps, every allowed run keeps. -/
theorem run_invariant {step : S → A → S × List E} {I : S → List E → Prop} {P : S → A → Prop}
    (preserves : ∀ s log a, I s log → P s a → I (step s a).1 (log ++ (step s a).2))
    {s : S} {log : List E} {as : List A} (initial : I s log) (allowed : Along step P s as) :
    I (run step s as).1 (log ++ (run step s as).2) := by
  induction as generalizing s log with
  | nil => simpa using initial
  | cons a rest ih =>
    have h := ih (preserves s log a initial allowed.1) allowed.2
    simpa only [run_cons, List.append_assoc] using h

theorem run_keeps {step : S → A → S × List E} {I : S → List E → Prop} {P : S → A → Prop}
    (preserves : ∀ s log a, I s log → P s a → I (step s a).1 (log ++ (step s a).2))
    {s : S} {as : List A} (initial : I s []) (allowed : Along step P s as) :
    I (run step s as).1 (run step s as).2 := by
  simpa using run_invariant preserves initial allowed

theorem always_of_invariant {step : S → A → S × List E} {I Q : S → List E → Prop}
    {P : S → A → Prop} (holds : ∀ s log, I s log → Q s log)
    (preserves : ∀ s log a, I s log → P s a → I (step s a).1 (log ++ (step s a).2))
    {s : S} {log : List E} {as : List A} (initial : I s log) (allowed : Along step P s as) :
    Always step Q s log as := by
  induction as generalizing s log with
  | nil => exact holds s log initial
  | cons a rest ih =>
    exact ⟨holds s log initial, ih (preserves s log a initial allowed.1) allowed.2⟩

theorem always_mono {step : S → A → S × List E} {Q R : S → List E → Prop}
    (weaker : ∀ s log, Q s log → R s log) {s : S} {log : List E} {as : List A}
    (h : Always step Q s log as) : Always step R s log as := by
  induction as generalizing s log with
  | nil => exact weaker s log h
  | cons a rest ih => exact ⟨weaker s log h.1, ih h.2⟩

theorem always_head {step : S → A → S × List E} {Q : S → List E → Prop} {s : S} {log : List E}
    {as : List A} (h : Always step Q s log as) : Q s log := by
  cases as with
  | nil => exact h
  | cons a rest => exact h.1

theorem always_last {step : S → A → S × List E} {Q : S → List E → Prop} {s : S} {log : List E}
    {as : List A} (h : Always step Q s log as) :
    Q (run step s as).1 (log ++ (run step s as).2) := by
  induction as generalizing s log with
  | nil => simpa [Always] using h
  | cons a rest ih => simpa only [run_cons, List.append_assoc] using ih h.2

/-- A condition on the steps that the invariant needs, and that each step which keeps the
property meets: then a run keeps the property exactly where all its steps meet it. -/
theorem always_iff_along {step : S → A → S × List E} {I Q : S → List E → Prop}
    {P C : S → A → Prop} (holds : ∀ s log, I s log → Q s log)
    (preserves : ∀ s log a, I s log → P s a → C s a → I (step s a).1 (log ++ (step s a).2))
    (needed : ∀ s log a, I s log → P s a → Q (step s a).1 (log ++ (step s a).2) → C s a)
    {s : S} {log : List E} {as : List A} (initial : I s log) (allowed : Along step P s as) :
    Always step Q s log as ↔ Along step C s as := by
  constructor
  · intro always
    induction as generalizing s log with
    | nil => trivial
    | cons a rest ih =>
      have condition := needed s log a initial allowed.1 (always_head always.2)
      exact ⟨condition, ih (preserves s log a initial allowed.1 condition) allowed.2 always.2⟩
  · intro conditions
    exact always_of_invariant (P := fun s a => P s a ∧ C s a) holds
      (fun s log a h both => preserves s log a h both.1 both.2) initial
      ((along_and step P C s as).mpr ⟨allowed, conditions⟩)

/-- A condition that looks at the log comes to one that does not, wherever the invariant holds. -/
theorem each_iff_along {step : S → A → S × List E} {I : S → List E → Prop}
    {Q : S → List E → A → Prop} {P C : S → A → Prop}
    (same : ∀ s log a, I s log → P s a → (Q s log a ↔ C s a))
    (preserves : ∀ s log a, I s log → P s a → I (step s a).1 (log ++ (step s a).2))
    {s : S} {log : List E} {as : List A} (initial : I s log) (allowed : Along step P s as) :
    Each step Q s log as ↔ Along step C s as := by
  induction as generalizing s log with
  | nil => exact Iff.rfl
  | cons a rest ih =>
    exact and_congr (same s log a initial allowed.1)
      (ih (preserves s log a initial allowed.1) allowed.2)

/-- A run that lasts as long as the state is inside, and no longer. -/
def runWhile (step : S → A → S × List E) (inside : S → Bool) : S → List A → S × List E
  | s, [] => (s, [])
  | s, a :: rest =>
    if inside s then
      let next := step s a
      let tail := runWhile step inside next.1 rest
      (tail.1, next.2 ++ tail.2)
    else (s, [])

/-- Every step that is made inside meets a condition. -/
def AlongWhile (step : S → A → S × List E) (inside : S → Bool) (P : S → A → Prop) :
    S → List A → Prop
  | _, [] => True
  | s, a :: rest => inside s = true → P s a ∧ AlongWhile step inside P (step s a).1 rest

theorem alongWhile_mono {step : S → A → S × List E} {inside : S → Bool} {P R : S → A → Prop}
    (weaker : ∀ s a, P s a → R s a) {s : S} {as : List A} (h : AlongWhile step inside P s as) :
    AlongWhile step inside R s as := by
  induction as generalizing s with
  | nil => trivial
  | cons a rest ih =>
    intro here
    obtain ⟨first, later⟩ := h here
    exact ⟨weaker s a first, ih later⟩

theorem alongWhile_of_forall {step : S → A → S × List E} {inside : S → Bool} {P : S → A → Prop}
    (all : ∀ s a, P s a) (s : S) (as : List A) : AlongWhile step inside P s as := by
  induction as generalizing s with
  | nil => trivial
  | cons a rest ih => exact fun _ => ⟨all s a, ih _⟩

theorem runWhile_of_outside (step : S → A → S × List E) {inside : S → Bool} {s : S}
    (outside : inside s = false) (as : List A) : runWhile step inside s as = (s, []) := by
  cases as <;> simp [runWhile, outside]

/-- A number that falls with each allowed step which stays inside: with more inputs than that the
run gets outside, to what each last step leads to. -/
theorem runWhile_ends {step : S → A → S × List E} {inside : S → Bool}
    {I : S → List E → Nat → Prop} {Q : S → List E → Prop} {P : S → A → Prop}
    (entered : ∀ s log n, I s log n → inside s = true)
    (falls : ∀ s log n a, I s log n → P s a →
      (inside (step s a).1 = false ∧ Q (step s a).1 (log ++ (step s a).2)) ∨
        ∃ m < n, I (step s a).1 (log ++ (step s a).2) m)
    {s : S} {log : List E} {n : Nat} {as : List A} (initial : I s log n)
    (allowed : AlongWhile step inside P s as) (enough : n < as.length) :
    Q (runWhile step inside s as).1 (log ++ (runWhile step inside s as).2) := by
  induction as generalizing s log n with
  | nil => exact absurd enough (Nat.not_lt_zero n)
  | cons a rest ih =>
    obtain ⟨first, later⟩ := allowed (entered s log n initial)
    simp only [runWhile, entered s log n initial, if_true]
    rw [← List.append_assoc]
    rcases falls s log n a initial first with ⟨outside, reached⟩ | ⟨m, fewer, still⟩
    · rw [runWhile_of_outside step outside, List.append_nil]
      exact reached
    · exact ih still later (by simp only [List.length_cons] at enough; omega)

/-- A number that falls with each allowed step until the goal is reached, which then lasts: with
more inputs than that a run is at the goal. -/
theorem run_reaches {step : S → A → S × List E} {I Q : S → Prop} {P : S → A → Prop} (rank : S → Nat)
    (lasts : ∀ s a, Q s → P s a → Q (step s a).1)
    (falls : ∀ s a, I s → P s a → Q (step s a).1 ∨ I (step s a).1 ∧ rank (step s a).1 < rank s)
    {s : S} {as : List A} (initial : I s) (allowed : Along step P s as)
    (enough : rank s < as.length) : Q (run step s as).1 := by
  have stays : ∀ as s, Q s → Along step P s as → Q (run step s as).1 := by
    intro as
    induction as with
    | nil => exact fun _ reached _ => reached
    | cons a rest ih => exact fun s reached allowed => ih _ (lasts s a reached allowed.1) allowed.2
  induction as generalizing s with
  | nil => exact absurd enough (Nat.not_lt_zero _)
  | cons a rest ih =>
    rcases falls s a initial allowed.1 with reached | ⟨still, lower⟩
    · exact stays rest _ reached allowed.2
    · exact ih still allowed.2 (by simp only [List.length_cons] at enough; omega)

/-- A rank that some allowed run lowers wherever the goal is not reached yet: then some allowed run
reaches the goal. -/
theorem exists_run {step : S → A → S × List E} {I : S → List E → Prop} {Q : S → Prop}
    {P : S → A → Prop} {R : Type} [LT R] [WellFoundedLT R] (rank : S → R)
    (lowers : ∀ s log, I s log → ¬ Q s → ∃ as, Along step P s as ∧
      I (run step s as).1 (log ++ (run step s as).2) ∧ rank (run step s as).1 < rank s)
    {s : S} {log : List E} (initial : I s log) : ∃ as, Along step P s as ∧
      I (run step s as).1 (log ++ (run step s as).2) ∧ Q (run step s as).1 := by
  induction height : rank s using WellFoundedLT.induction generalizing s log with
  | ind r ih =>
    by_cases reached : Q s
    · exact ⟨[], trivial, by simpa using initial, reached⟩
    · obtain ⟨first, allowed, kept, lower⟩ := lowers s log initial reached
      obtain ⟨later, allowed', kept', goal⟩ := ih _ (height ▸ lower) kept rfl
      refine ⟨first ++ later, (along_append step P s first later).mpr ⟨allowed, allowed'⟩, ?_⟩
      rw [run_append, ← List.append_assoc]
      exact ⟨kept', goal⟩

/-! Histories: what a log holds since the last event of a kind. -/

def sinceLast (p : E → Bool) (log : List E) : List E :=
  log.foldl (fun acc e => if p e then [] else acc ++ [e]) []

@[simp] theorem sinceLast_nil (p : E → Bool) : sinceLast p [] = [] := rfl

theorem sinceLast_append_of_none {p : E → Bool} (log : List E) {more : List E}
    (none : ∀ e ∈ more, p e = false) : sinceLast p (log ++ more) = sinceLast p log ++ more := by
  have fold : ∀ acc : List E,
      more.foldl (fun acc e => if p e then [] else acc ++ [e]) acc = acc ++ more := by
    induction more with
    | nil => simp
    | cons e more ih =>
      intro acc
      have later := ih (fun e' member => none e' (List.mem_cons_of_mem e member)) (acc ++ [e])
      simpa [none e List.mem_cons_self] using later
  rw [sinceLast, List.foldl_append, fold]
  rfl

theorem sinceLast_append_hit {p : E → Bool} (log : List E) {e : E} (hit : p e = true) :
    sinceLast p (log ++ [e]) = [] := by
  simp [sinceLast, hit]

/-! Logs of several parties, each event under the party's label. -/

section
variable {P : Type} [DecidableEq P]

def part (p : P) (log : List (P × E)) : List E := (log.filter (·.1 = p)).map (·.2)

@[simp] theorem part_nil (p : P) : part p ([] : List (P × E)) = [] := rfl

@[simp] theorem part_append (p : P) (log more : List (P × E)) :
    part p (log ++ more) = part p log ++ part p more := by
  simp [part]

theorem part_map (p q : P) (more : List E) :
    part p (more.map (Prod.mk q)) = if q = p then more else [] := by
  by_cases same : q = p <;> simp [part, List.filter_map, Function.comp_def, same]

theorem part_single (p q : P) (e : E) : part p [(q, e)] = if q = p then [e] else [] :=
  part_map p q [e]

end

end TcpChat.Machine
