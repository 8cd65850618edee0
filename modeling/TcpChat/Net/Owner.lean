import Mathlib.Logic.Function.Basic
import TcpChat.Lib.Machine
import TcpChat.Net.Descriptor

/-! Any number of `ScopedFileDescriptor` objects. Each descriptor that is handed in has one owner
until it is closed or released, whatever is done with the objects in between. -/
namespace TcpChat.Owner
open Machine

/-- The objects that are alive, by name. -/
abbrev Store : Type := Nat → Option ScopedFileDescriptor

inductive Op where
  | construct (x : Nat) (fd : Fd)
  | moveConstruct (x y : Nat)
  | moveAssign (x y : Nat)
  | reset (x : Nat) (fd : Fd)
  | release (x : Nat)
  | destroy (x : Nat)

/-- The descriptors that an operation hands in: what is negative is none. -/
def Op.handed : Op → List Fd
  | .construct _ fd | .reset _ fd => if 0 ≤ fd then [fd] else []
  | _ => []

/-- A descriptor is handed to an object, given back by `release`, or met by a system call. -/
inductive Handling where
  | given (fd : Fd)
  | released (fd : Fd)
  | call (e : Event)

def Handling.gets : Handling → Option Fd
  | .given fd => some fd
  | _ => none

def Handling.frees : Handling → Option Fd
  | .released fd => some fd
  | .call e => e.frees
  | .given _ => none

/-- Only what is not negative is a descriptor. -/
def given (fd : Fd) : List Handling := if fd ≥ 0 then [.given fd] else []

def released (fd : Fd) : List Handling := if fd ≥ 0 then [.released fd] else []

def put (s : Store) (x : Nat) (d : ScopedFileDescriptor) : Store := Function.update s x (some d)

/-- An object moved to itself is told by its name, as the source tells it by its address. -/
def step (s : Store) : Op → Store × List Handling
  | .construct x fd => (put s x ⟨fd⟩, given fd)
  | .moveConstruct x y =>
    match s y with
    | some other =>
      let (new, left) := ScopedFileDescriptor.moveConstruct other
      (put (put s y left) x new, [])
    | none => (s, [])
  | .moveAssign x y =>
    match s x, s y with
    | some d, some other =>
      if x = y then (s, [])
      else
        let (new, left, closed) := d.moveAssign other
        (put (put s y left) x new, closed.map .call)
    | _, _ => (s, [])
  | .reset x fd =>
    match s x with
    | some d =>
      let (new, closed) := d.reset fd
      (put s x new, closed.map .call ++ given fd)
    | none => (s, [])
  | .release x =>
    match s x with
    | some d =>
      let (left, fd) := d.release
      (put s x left, released fd)
    | none => (s, [])
  | .destroy x =>
    match s x with
    | some d => (Function.update s x none, d.closing.map .call)
    | none => (s, [])

example : (run step (fun _ => none) [.construct 0 3, .moveAssign 0 0, .construct 1 4,
    .moveAssign 0 1, .release 0, .destroy 1, .destroy 0]).2 =
      [.given 3, .given 4, .call (.close 3), .released 4] := rfl

def held (s : Store) (x : Nat) : List Fd := ((s x).map (·.held)).getD []

def Holds (s : Store) (x : Nat) (fd : Fd) : Prop := fd ∈ held s x

/-- Nothing that an object holds is handed in again. -/
def Unowned (s : Store) (fd : Fd) : Prop := 0 ≤ fd → ∀ y, ¬ Holds s y fd

/-- New objects get new names, the others are alive, and descriptors come without an owner. -/
def Sane (s : Store) : Op → Prop
  | .construct x fd => s x = none ∧ Unowned s fd
  | .moveConstruct x y => s x = none ∧ s y ≠ none
  | .moveAssign x y => s x ≠ none ∧ s y ≠ none
  | .reset x fd => s x ≠ none ∧ Unowned s fd
  | .release x | .destroy x => s x ≠ none

/-- The handlings lead from what is owned before to what is owned after. -/
def Accounts (s s' : Store) (log : List Handling) : Prop :=
  ∀ t, Ledger.Owned t (Holds s) → Ledger.Orderly Handling.gets Handling.frees t log ∧
    Ledger.Owned (Ledger.table Handling.gets Handling.frees t log) (Holds s')

theorem accounts_append {s s' s'' : Store} {log more : List Handling} (first : Accounts s s' log)
    (second : Accounts s' s'' more) : Accounts s s'' (log ++ more) := by
  intro t owned
  obtain ⟨orderly, owned'⟩ := first t owned
  obtain ⟨orderly', owned''⟩ := second _ owned'
  rw [Ledger.table_append]
  exact ⟨Ledger.orderly_append.mpr ⟨orderly, orderly'⟩, owned''⟩

/-! The three things that happen to an object: it is given a descriptor, loses one, or takes over
another's. -/

section
variable {s : Store} {x y : Nat}

theorem held_update (o : Option ScopedFileDescriptor) (z : Nat) :
    held (Function.update s x o) z = if z = x then (o.map (·.held)).getD [] else held s z := by
  by_cases here : z = x
  · subst here
    simp [held]
  · simp [held, here]

theorem held_put (d : ScopedFileDescriptor) (z : Nat) :
    held (put s x d) z = if z = x then d.held else held s z := held_update (some d) z

theorem unowned_put {d : ScopedFileDescriptor} {fd : Fd} (unowned : Unowned s fd)
    (other : d.fd_ ≠ fd) : Unowned (put s x d) fd := by
  intro descriptor z holds
  rw [Holds, held_put] at holds
  split at holds
  case isTrue =>
    unfold ScopedFileDescriptor.held at holds
    split at holds
    · exact other (List.mem_singleton.mp holds).symm
    · cases holds
  case isFalse => exact unowned descriptor z holds

theorem held_cases (s : Store) (x : Nat) : held s x = [] ∨ ∃ fd, held s x = [fd] := by
  unfold held
  cases s x with
  | none => exact .inl rfl
  | some d =>
    cases valid : d.valid with
    | true => exact .inr ⟨d.get, ScopedFileDescriptor.held_of_valid valid⟩
    | false => exact .inl (ScopedFileDescriptor.held_of_invalid valid)

theorem accounts_permuted {s' : Store} (σ : Equiv.Perm Nat)
    (after : ∀ z, held s' z = held s (σ z)) : Accounts s s' [] := by
  intro t owned
  refine ⟨trivial, owned.permuted σ fun z q => ?_⟩
  rw [Holds, Holds, after]

theorem accounts_same {s' : Store} (same : ∀ z, held s' z = held s z) : Accounts s s' [] :=
  accounts_permuted (Equiv.refl Nat) same

theorem accounts_given {fd : Fd} (idle : held s x = []) (unowned : Unowned s fd) :
    Accounts s (put s x ⟨fd⟩) (given fd) := by
  have after := held_put (s := s) (x := x) ⟨fd⟩
  by_cases descriptor : 0 ≤ fd
  · have mine : (⟨fd⟩ : ScopedFileDescriptor).held = [fd] :=
      ScopedFileDescriptor.held_of_valid (decide_eq_true descriptor)
    have log : given fd = [.given fd] := if_pos descriptor
    rw [log]
    intro t owned
    have fresh : fd ∉ t := by
      intro member
      obtain ⟨y, holds⟩ := (owned.held fd).mp member
      exact unowned descriptor y holds
    refine ⟨⟨fresh, trivial⟩, owned.given fresh (x := x) fun z q => ?_⟩
    rw [Holds, after, mine]
    split
    case isTrue here =>
      subst here
      simp [Holds, idle]
    case isFalse elsewhere => simp [Holds, elsewhere]
  · have none : (⟨fd⟩ : ScopedFileDescriptor).held = [] :=
      ScopedFileDescriptor.held_of_invalid (decide_eq_false descriptor)
    have log : given fd = [] := if_neg descriptor
    rw [log]
    refine accounts_same fun z => ?_
    rw [after, none]
    split
    case isTrue here => rw [here, idle]
    case isFalse => rfl

theorem accounts_freed {o : Option ScopedFileDescriptor} {free : Fd → Handling}
    (frees : ∀ fd, (free fd).gets = none ∧ (free fd).frees = some fd)
    (emptied : (o.map (·.held)).getD [] = []) :
    Accounts s (Function.update s x o) ((held s x).map free) := by
  have after := held_update (s := s) (x := x) o
  rw [emptied] at after
  rcases held_cases s x with idle | ⟨fd, mine⟩
  · rw [idle, List.map_nil]
    refine accounts_same fun z => ?_
    rw [after]
    split
    case isTrue here => rw [here, idle]
    case isFalse => rfl
  · obtain ⟨got, freed⟩ := frees fd
    have here : Holds s x fd := by simp [Holds, mine]
    rw [mine, List.map_singleton]
    intro t owned
    have member : fd ∈ t := (owned.held fd).mpr ⟨x, here⟩
    have entered : Ledger.table Handling.gets Handling.frees t [free fd] = t.erase fd := by
      simp only [Ledger.table, List.foldl_cons, List.foldl_nil, Ledger.enter, got, freed]
    have proper : Ledger.Proper Handling.gets Handling.frees t (free fd) := by
      simpa only [Ledger.Proper, got, freed] using member
    rw [entered]
    refine ⟨⟨proper, trivial⟩, owned.freed fun z q => ?_⟩
    rw [Holds, after]
    split
    case isTrue there =>
      subst there
      simp [Holds, mine]
    case isFalse elsewhere =>
      refine (and_iff_right_of_imp fun holds => ?_).symm
      rintro rfl
      exact elsewhere (owned.unique z x q holds here)

/-- The two objects change places: the one that is moved to has nothing of its own. -/
theorem accounts_moved {d : ScopedFileDescriptor} (idle : held s x = []) (found : s y = some d) :
    Accounts s (put (put s y ⟨-1⟩) x ⟨d.fd_⟩) [] := by
  have theirs : held s y = d.held := by simp [held, found]
  refine accounts_permuted (Equiv.swap x y) fun z => ?_
  rw [held_put, held_put, Equiv.swap_apply_def]
  split
  case isTrue => exact theirs.symm
  case isFalse =>
    split
    case isTrue => exact idle.symm
    case isFalse => rfl

end

/-! The operations. -/

theorem frees_close (fd : Fd) : (Handling.call (.close fd)).gets = none ∧
    (Handling.call (.close fd)).frees = some fd := ⟨rfl, rfl⟩

theorem held_of_some {s : Store} {x : Nat} {d : ScopedFileDescriptor} (found : s x = some d) :
    held s x = d.held := by
  simp [held, found]

theorem held_of_none {s : Store} {x : Nat} (none : s x = none) : held s x = [] := by
  simp [held, none]

theorem closes_eq {s : Store} {x : Nat} {d : ScopedFileDescriptor} (found : s x = some d) :
    d.closing.map Handling.call = (held s x).map fun fd => .call (.close fd) := by
  rw [d.closing_eq, held_of_some found, List.map_map]
  rfl

theorem releases_eq {s : Store} {x : Nat} {d : ScopedFileDescriptor} (found : s x = some d) :
    released d.fd_ = (held s x).map .released := by
  rw [held_of_some found]
  cases valid : d.valid with
  | true =>
    rw [ScopedFileDescriptor.held_of_valid valid]
    exact if_pos (of_decide_eq_true valid)
  | false =>
    rw [ScopedFileDescriptor.held_of_invalid valid]
    exact if_neg (of_decide_eq_false valid)

/-- An object that is overwritten or reset is first emptied. -/
theorem accounts_emptied {s : Store} {x : Nat} {d : ScopedFileDescriptor} (found : s x = some d) :
    Accounts s (put s x ⟨-1⟩) (d.closing.map .call) ∧ held (put s x ⟨-1⟩) x = [] := by
  rw [closes_eq found]
  refine ⟨accounts_freed frees_close rfl, ?_⟩
  rw [held_put, if_pos rfl]
  rfl

theorem step_accounts {s : Store} {op : Op} (sane : Sane s op) :
    Accounts s (step s op).1 (step s op).2 := by
  cases op with
  | construct x fd => exact accounts_given (held_of_none sane.1) sane.2
  | moveConstruct x y =>
    obtain ⟨new, alive⟩ := sane
    obtain ⟨d, found⟩ := Option.ne_none_iff_exists'.mp alive
    simp only [step, found, ScopedFileDescriptor.moveConstruct]
    exact accounts_moved (held_of_none new) found
  | moveAssign x y =>
    obtain ⟨target, source⟩ := sane
    obtain ⟨d, found⟩ := Option.ne_none_iff_exists'.mp target
    obtain ⟨e, found'⟩ := Option.ne_none_iff_exists'.mp source
    by_cases self : x = y
    · subst self
      simp only [step, found, if_true]
      exact accounts_same fun _ => rfl
    · obtain ⟨emptied, idle⟩ := accounts_emptied found
      have found'' : put s x ⟨-1⟩ y = some e := by simp [put, Ne.symm self, found']
      have moved := accounts_append emptied (accounts_moved idle found'')
      have next : put (put (put s x ⟨-1⟩) y ⟨-1⟩) x ⟨e.fd_⟩ = put (put s y ⟨-1⟩) x ⟨e.fd_⟩ := by
        simp only [put, Function.update_comm (Ne.symm self), Function.update_idem]
      rw [next, List.append_nil] at moved
      simpa only [step, found, found', if_neg self, ScopedFileDescriptor.moveAssign] using moved
  | reset x fd =>
    obtain ⟨alive, unowned⟩ := sane
    obtain ⟨d, found⟩ := Option.ne_none_iff_exists'.mp alive
    obtain ⟨emptied, idle⟩ := accounts_emptied found
    have unowned' : Unowned (put s x ⟨-1⟩) fd := by
      intro descriptor
      refine unowned_put unowned ?_ descriptor
      rintro rfl
      exact absurd descriptor (by decide)
    have filled := accounts_append emptied (accounts_given idle unowned')
    have next : put (put s x ⟨-1⟩) x ⟨fd⟩ = put s x ⟨fd⟩ := Function.update_idem _ _ _
    rw [next] at filled
    simpa only [step, found, ScopedFileDescriptor.reset] using filled
  | release x =>
    obtain ⟨d, found⟩ := Option.ne_none_iff_exists'.mp sane
    simp only [step, found, ScopedFileDescriptor.release, releases_eq found]
    exact accounts_freed (fun _ => ⟨rfl, rfl⟩) rfl
  | destroy x =>
    obtain ⟨d, found⟩ := Option.ne_none_iff_exists'.mp sane
    simp only [step, found, closes_eq found]
    exact accounts_freed frees_close rfl

/-! Runs. -/

/-- Any sequence of operations, from where there are no objects. -/
structure Life where
  ops : List Op
  sane : Along step Sane (fun _ => none) ops

namespace Life

def final (l : Life) : Store := (Machine.run step (fun _ => none) l.ops).1
def log (l : Life) : List Handling := (Machine.run step (fun _ => none) l.ops).2

end Life

/-- No descriptor has two owners, and each one that was handed in is closed or released once,
while it is there, and by the time that the objects are gone. -/
structure Sound (s : Store) (log : List Handling) : Prop where
  unique : ∀ x y fd, Holds s x fd → Holds s y fd → x = y
  orderly : Ledger.Orderly Handling.gets Handling.frees [] log
  settled : (∀ x, s x = none) → Ledger.Settled Handling.gets Handling.frees [] log

/-- What the log leaves open is what the objects own. -/
structure Balanced (s : Store) (log : List Handling) : Prop where
  orderly : Ledger.Orderly Handling.gets Handling.frees [] log
  owned : Ledger.Owned (Ledger.table Handling.gets Handling.frees [] log) (Holds s)

theorem balanced_start : Balanced (fun _ => none) [] := by
  refine ⟨trivial, List.nodup_nil, fun fd => iff_of_false List.not_mem_nil ?_, ?_⟩
  · rintro ⟨x, holds⟩
    cases holds
  · intro x y fd holds
    cases holds

theorem balanced_step {s : Store} {log : List Handling} {op : Op} (h : Balanced s log)
    (sane : Sane s op) : Balanced (step s op).1 (log ++ (step s op).2) := by
  obtain ⟨orderly, owned⟩ := step_accounts sane _ h.owned
  refine ⟨Ledger.orderly_append.mpr ⟨h.orderly, orderly⟩, ?_⟩
  rw [Ledger.table_append]
  exact owned

theorem sound_of_balanced {s : Store} {log : List Handling} (h : Balanced s log) : Sound s log := by
  refine ⟨h.owned.unique, h.orderly, fun gone => ?_⟩
  refine Ledger.settled_of_same (fun fd => ?_) (Ledger.settled_of_orderly h.orderly)
  rw [h.owned.held]
  refine iff_of_false ?_ List.not_mem_nil
  rintro ⟨x, holds⟩
  rw [Holds, held_of_none (gone x)] at holds
  cases holds

theorem gets_given (fd : Fd) :
    (given fd).filterMap Handling.gets = if 0 ≤ fd then [fd] else [] := by
  unfold given
  split
  case isTrue => rfl
  case isFalse => rfl

theorem gets_calls (log : List Event) : (log.map Handling.call).filterMap Handling.gets = [] := by
  rw [List.filterMap_map]
  exact List.filterMap_eq_nil_iff.mpr fun _ _ => rfl

/-- What the log has as given is what the operation handed in. -/
theorem gets_step {s : Store} {op : Op} (sane : Sane s op) :
    (step s op).2.filterMap Handling.gets = op.handed := by
  cases op with
  | construct x fd => exact gets_given fd
  | moveConstruct x y =>
    obtain ⟨d, found⟩ := Option.ne_none_iff_exists'.mp sane.2
    simp [step, found, Op.handed]
  | moveAssign x y =>
    obtain ⟨d, found⟩ := Option.ne_none_iff_exists'.mp sane.1
    obtain ⟨e, found'⟩ := Option.ne_none_iff_exists'.mp sane.2
    simp only [step, found, found', Op.handed]
    split
    case isTrue => rfl
    case isFalse => exact gets_calls _
  | reset x fd =>
    obtain ⟨d, found⟩ := Option.ne_none_iff_exists'.mp sane.1
    simp only [step, found, Op.handed, List.filterMap_append, gets_calls, gets_given,
      List.nil_append]
  | release x =>
    obtain ⟨d, found⟩ := Option.ne_none_iff_exists'.mp sane
    simp only [step, found, ScopedFileDescriptor.release, Op.handed, releases_eq found,
      List.filterMap_map]
    exact List.filterMap_eq_nil_iff.mpr fun _ _ => rfl
  | destroy x =>
    obtain ⟨d, found⟩ := Option.ne_none_iff_exists'.mp sane
    simp only [step, found, Op.handed, gets_calls]

theorem gets_run {s : Store} {ops : List Op} (sane : Along step Sane s ops) :
    (Machine.run step s ops).2.filterMap Handling.gets = ops.flatMap Op.handed := by
  induction ops generalizing s with
  | nil => rfl
  | cons op ops ih =>
    rw [run_cons, List.filterMap_append, gets_step sane.1, ih sane.2, List.flatMap_cons]

theorem gets_or_frees (h : Handling) : h.gets = none ∨ h.frees = none := by
  cases h with
  | given fd => exact .inr rfl
  | released fd | call e => exact .inl rfl

/-- Every state of every life is sound, and in the end everything that the constructors and `reset`
were handed has been closed or released, once for each time that it was. -/
theorem owners_sound (l : Life) : Always step Sound (fun _ => none) [] l.ops ∧
    l.log.filterMap Handling.gets = l.ops.flatMap Op.handed ∧
    ((∀ x, l.final x = none) →
      (l.log.filterMap Handling.frees).Perm (l.ops.flatMap Op.handed)) := by
  have handed : l.log.filterMap Handling.gets = l.ops.flatMap Op.handed := gets_run l.sane
  refine ⟨always_of_invariant (fun _ _ => sound_of_balanced) (fun _ _ _ => balanced_step)
    balanced_start l.sane, handed, fun gone => ?_⟩
  have balanced : Balanced l.final l.log :=
    run_keeps (fun _ _ _ => balanced_step) balanced_start l.sane
  have none : Ledger.table Handling.gets Handling.frees [] l.log = [] := by
    apply List.eq_nil_iff_forall_not_mem.mpr
    intro fd member
    obtain ⟨x, holds⟩ := (balanced.owned.held fd).mp member
    rw [Holds, held_of_none (gone x)] at holds
    cases holds
  have all := Ledger.perm_of_orderly gets_or_frees balanced.orderly
  rw [none, List.nil_append, List.nil_append, handed] at all
  exact all.symm

/-- An object is moved onto itself and onto another, gives its descriptor back, and the other gets
one more. -/
def moves : Life where
  ops := [.construct 0 3, .moveAssign 0 0, .construct 1 4, .moveAssign 0 1, .release 0,
    .reset 1 5, .destroy 1, .destroy 0]
  sane := by
    have start : ∀ fd, Unowned (fun _ => none) fd := fun _ _ _ holds => nomatch holds
    have second : Unowned (put (fun _ => none) 0 ⟨3⟩) 4 := unowned_put (start 4) (by decide)
    have third : Unowned (put (put (put (put (put (fun _ => none) 0 ⟨3⟩) 1 ⟨4⟩) 1 ⟨-1⟩) 0 ⟨4⟩) 0
        ⟨-1⟩) 5 := by
      iterate 5 refine unowned_put ?_ (by decide)
      exact start 5
    exact ⟨⟨rfl, start 3⟩, ⟨nofun, nofun⟩, ⟨rfl, second⟩, ⟨nofun, nofun⟩, nofun, ⟨nofun, third⟩,
      nofun, nofun, trivial⟩

theorem moves_sound : Always step Sound (fun _ => none) [] moves.ops ∧
    moves.ops.flatMap Op.handed = [3, 4, 5] ∧
    (moves.log.filterMap Handling.frees).Perm [3, 4, 5] := by
  obtain ⟨sound, _, all⟩ := owners_sound moves
  refine ⟨sound, rfl, all fun x => ?_⟩
  by_cases first : x = 0 <;> by_cases second : x = 1 <;>
    simp [Life.final, moves, step, put, first, second, Machine.run]

end TcpChat.Owner
