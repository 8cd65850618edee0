import Mathlib.Data.List.Nodup
import Mathlib.Data.List.Perm.Basic
import Mathlib.Data.List.TakeWhile
import Mathlib.Logic.Equiv.Basic

/-! Resources that are got and freed, as a log shows it. A name that was freed can be given out
again, so one life of a resource lasts from the event that gets it to the next one that does. -/
namespace TcpChat.Ledger

variable {E R : Type} [DecidableEq R] (gets frees : E → Option R)

/-- The table of what is held, after one more event. -/
def enter (t : List R) (e : E) : List R :=
  match gets e, frees e with
  | some r, _ => r :: t
  | none, some r => t.erase r
  | none, none => t

def table (t : List R) (log : List E) : List R := log.foldl (enter gets frees) t

/-- Nothing is got that is held, and nothing freed that is not. -/
def Proper (t : List R) (e : E) : Prop :=
  match gets e, frees e with
  | some r, _ => r ∉ t
  | none, some r => r ∈ t
  | none, none => True

def Orderly (t : List R) : List E → Prop
  | [] => True
  | e :: log => Proper gets frees t e ∧ Orderly (enter gets frees t e) log

/-- The events after one that gets `r`, up to the next one. -/
def life (r : R) (after : List E) : List E := after.takeWhile fun e => gets e ≠ some r

def timesFreed (r : R) (log : List E) : Nat := log.countP fun e => gets e = none ∧ frees e = some r

/-- Whatever was got has been freed exactly once, or is owned and has not been freed. -/
def Settled (owned : List R) (log : List E) : Prop :=
  ∀ before e after r, log = before ++ e :: after → gets e = some r →
    timesFreed gets frees r (life gets r after) = 1 ∧ (life gets r after = after → r ∉ owned) ∨
      timesFreed gets frees r after = 0 ∧ life gets r after = after ∧ r ∈ owned

section
variable {gets frees}

theorem table_append (t : List R) (log more : List E) :
    table gets frees t (log ++ more) = table gets frees (table gets frees t log) more :=
  List.foldl_append

theorem orderly_append {t : List R} {log more : List E} :
    Orderly gets frees t (log ++ more) ↔
      Orderly gets frees t log ∧ Orderly gets frees (table gets frees t log) more := by
  induction log generalizing t with
  | nil => simp [Orderly, table]
  | cons e log ih => simp [Orderly, table, ih, and_assoc]

theorem nodup_enter {t : List R} {e : E} (distinct : t.Nodup) (proper : Proper gets frees t e) :
    (enter gets frees t e).Nodup := by
  cases got : gets e with
  | some r =>
    simp only [Proper, got] at proper
    simp only [enter, got]
    exact List.nodup_cons.mpr ⟨proper, distinct⟩
  | none =>
    cases freed : frees e with
    | some r =>
      simp only [enter, got, freed]
      exact distinct.erase r
    | none =>
      simp only [enter, got, freed]
      exact distinct

theorem nodup_table {t : List R} {log : List E} (distinct : t.Nodup)
    (orderly : Orderly gets frees t log) : (table gets frees t log).Nodup := by
  induction log generalizing t with
  | nil => exact distinct
  | cons e log ih => exact ih (nodup_enter distinct orderly.1) orderly.2

theorem life_cons {r : R} {e : E} (other : gets e ≠ some r) (log : List E) :
    life gets r (e :: log) = e :: life gets r log := by
  simp [life, other]

theorem timesFreed_cons {r : R} {e : E} (kept : ¬ (gets e = none ∧ frees e = some r))
    (log : List E) : timesFreed gets frees r (e :: log) = timesFreed gets frees r log :=
  List.countP_cons_of_neg (by simpa using kept)

theorem silent_log {t : List R} {log : List E}
    (silent : ∀ e ∈ log, gets e = none ∧ frees e = none) :
    Orderly gets frees t log ∧ table gets frees t log = t := by
  induction log with
  | nil => exact ⟨trivial, rfl⟩
  | cons e log ih =>
    obtain ⟨got, freed⟩ := silent e List.mem_cons_self
    obtain ⟨orderly, same⟩ := ih fun e' member => silent e' (List.mem_cons_of_mem e member)
    have here : enter gets frees t e = t := by simp only [enter, got, freed]
    refine ⟨⟨by simp only [Proper, got, freed], ?_⟩, ?_⟩
    · rw [here]
      exact orderly
    · change table gets frees (enter gets frees t e) log = t
      rw [here, same]

/-- Everything that is held is freed, in whatever order. -/
theorem free_all {free : R → E} (got : ∀ r, gets (free r) = none)
    (freed : ∀ r, frees (free r) = some r) {rs : List R} :
    ∀ {t : List R}, t.Perm rs →
      Orderly gets frees t (rs.map free) ∧ table gets frees t (rs.map free) = [] := by
  induction rs with
  | nil =>
    intro t same
    exact ⟨trivial, List.perm_nil.mp same⟩
  | cons r rs ih =>
    intro t same
    have held : r ∈ t := same.mem_iff.mpr List.mem_cons_self
    have here : enter gets frees t (free r) = t.erase r := by simp only [enter, got, freed]
    have rest : (t.erase r).Perm rs := by
      have erased := same.erase r
      rwa [List.erase_cons_head] at erased
    obtain ⟨orderly, none⟩ := ih rest
    refine ⟨⟨by simpa only [Proper, got, freed] using held, ?_⟩, ?_⟩
    · rw [here]
      exact orderly
    · change table gets frees (enter gets frees t (free r)) (rs.map free) = []
      rw [here, none]

/-- What is not held is not freed before it is got. -/
theorem unheld_life {r : R} {t : List R} {log : List E} (distinct : t.Nodup)
    (orderly : Orderly gets frees t log) (unheld : r ∉ t) :
    timesFreed gets frees r (life gets r log) = 0 ∧
      (life gets r log = log → r ∉ table gets frees t log) := by
  induction log generalizing t with
  | nil => exact ⟨rfl, fun _ => unheld⟩
  | cons e log ih =>
    obtain ⟨proper, later⟩ := orderly
    have distinct' := nodup_enter distinct proper
    by_cases again : gets e = some r
    · have cut : life gets r (e :: log) = [] := by simp [life, again]
      rw [cut]
      exact ⟨rfl, nofun⟩
    · have kept : ¬ (gets e = none ∧ frees e = some r) := by
        rintro ⟨got, freed⟩
        simp only [Proper, got, freed] at proper
        exact unheld proper
      have unheld' : r ∉ enter gets frees t e := by
        cases got : gets e with
        | some q =>
          simp only [enter, got]
          rintro (_ | ⟨_, member⟩)
          · exact again got
          · exact unheld member
        | none =>
          cases freed : frees e with
          | some q =>
            simp only [enter, got, freed]
            exact fun member => unheld (List.mem_of_mem_erase member)
          | none =>
            simp only [enter, got, freed]
            exact unheld
      obtain ⟨never, whole⟩ := ih distinct' later unheld'
      rw [life_cons again, timesFreed_cons kept]
      exact ⟨never, fun same => whole (List.cons.inj same).2⟩

/-- What is held is freed at most once before it is got again. -/
theorem held_life {r : R} {t : List R} {log : List E} (distinct : t.Nodup)
    (orderly : Orderly gets frees t log) (held : r ∈ t) :
    timesFreed gets frees r (life gets r log) = 1 ∧
        (life gets r log = log → r ∉ table gets frees t log) ∨
      timesFreed gets frees r log = 0 ∧ life gets r log = log ∧ r ∈ table gets frees t log := by
  induction log generalizing t with
  | nil => exact .inr ⟨rfl, rfl, held⟩
  | cons e log ih =>
    obtain ⟨proper, later⟩ := orderly
    have distinct' := nodup_enter distinct proper
    have other : gets e ≠ some r := by
      intro again
      simp only [Proper, again] at proper
      exact proper held
    rw [life_cons other]
    by_cases freed : gets e = none ∧ frees e = some r
    · have unheld : r ∉ enter gets frees t e := by
        simp only [enter, freed.1, freed.2]
        exact distinct.not_mem_erase
      obtain ⟨never, whole⟩ := unheld_life distinct' later unheld
      have once : timesFreed gets frees r (e :: life gets r log) = 1 :=
        (List.countP_cons_of_pos (by simpa using freed)).trans (congrArg (· + 1) never)
      exact .inl ⟨once, fun same => whole (List.cons.inj same).2⟩
    · have held' : r ∈ enter gets frees t e := by
        cases got : gets e with
        | some q =>
          simp only [enter, got]
          exact List.mem_cons_of_mem q held
        | none =>
          cases gone : frees e with
          | some q =>
            have differs : r ≠ q := fun same => freed ⟨got, same ▸ gone⟩
            simp only [enter, got, gone]
            exact (List.mem_erase_of_ne differs).mpr held
          | none =>
            simp only [enter, got, gone]
            exact held
      rw [timesFreed_cons freed, timesFreed_cons freed]
      rcases ih distinct' later held' with ⟨once, whole⟩ | ⟨never, whole, owned⟩
      · exact .inl ⟨once, fun same => whole (List.cons.inj same).2⟩
      · exact .inr ⟨never, congrArg (e :: ·) whole, owned⟩

theorem settled_of_orderly {log : List E} (orderly : Orderly gets frees [] log) :
    Settled gets frees (table gets frees [] log) log := by
  intro before e after r split got
  subst split
  obtain ⟨first, here, later⟩ := orderly_append.mp orderly
  have distinct := nodup_enter (nodup_table List.nodup_nil first) here
  have held : r ∈ enter gets frees (table gets frees [] before) e := by
    simp only [enter, got]
    exact List.mem_cons_self
  rw [table_append]
  exact held_life distinct later held

/-- What was there and what was got is what is left and what was freed. -/
theorem perm_of_orderly {t : List R} {log : List E} (either : ∀ e, gets e = none ∨ frees e = none)
    (orderly : Orderly gets frees t log) :
    (t ++ log.filterMap gets).Perm (table gets frees t log ++ log.filterMap frees) := by
  induction log generalizing t with
  | nil => exact .rfl
  | cons e log ih =>
    obtain ⟨proper, later⟩ := orderly
    have rest := ih later
    change (t ++ (e :: log).filterMap gets).Perm
      (table gets frees (enter gets frees t e) log ++ (e :: log).filterMap frees)
    cases got : gets e with
    | some r =>
      have kept : frees e = none := (either e).resolve_left (by simp [got])
      rw [List.filterMap_cons_some got, List.filterMap_cons_none kept]
      have entered : enter gets frees t e = r :: t := by simp only [enter, got]
      rw [entered] at rest ⊢
      exact List.perm_middle.trans rest
    | none =>
      rw [List.filterMap_cons_none got]
      cases freed : frees e with
      | some r =>
        have held : r ∈ t := by simpa only [Proper, got, freed] using proper
        have entered : enter gets frees t e = t.erase r := by simp only [enter, got, freed]
        rw [List.filterMap_cons_some freed]
        rw [entered] at rest ⊢
        have out : (t ++ log.filterMap gets).Perm (r :: (t.erase r ++ log.filterMap gets)) :=
          (List.perm_cons_erase held).append_right _
        exact out.trans ((rest.cons r).trans List.perm_middle.symm)
      | none =>
        have entered : enter gets frees t e = t := by simp only [enter, got, freed]
        rw [List.filterMap_cons_none freed]
        rw [entered] at rest ⊢
        exact rest

theorem settled_of_same {owned other : List R} {log : List E} (same : ∀ r, r ∈ owned ↔ r ∈ other)
    (settled : Settled gets frees owned log) : Settled gets frees other log := by
  intro before e after r split got
  rw [← same r]
  exact settled before e after r split got

end

/-! An object that holds resources, with the table of what is held. -/

structure Holder (O R : Type) where
  object : O
  table : List R

section
variable {O A : Type}

def Holder.next (act : O → A → O × List E) (h : Holder O R) (a : A) : Holder O R × List E :=
  let r := act h.object a
  (⟨r.1, Ledger.table gets frees h.table r.2⟩, r.2)

/-- The table is what the log says, and what the object says it owns. -/
structure Kept (owned : O → List R) (h : Holder O R) (log : List E) : Prop where
  same : h.table.Perm (owned h.object)
  orderly : Orderly gets frees [] log
  reached : table gets frees [] log = h.table

/-- What the object owns is distinct and held, and all else that was got has been freed once. -/
structure Sound (owned : O → List R) (h : Holder O R) (log : List E) : Prop where
  distinct : (owned h.object).Nodup
  opened : ∀ r ∈ owned h.object, r ∈ h.table
  settled : Settled gets frees (owned h.object) log

variable {gets frees} {owned : O → List R} {h : Holder O R} {log : List E}

theorem Kept.sound (kept : Kept gets frees owned h log) : Sound gets frees owned h log := by
  obtain ⟨same, orderly, reached⟩ := kept
  have distinct : h.table.Nodup := reached ▸ nodup_table List.nodup_nil orderly
  have settled := settled_of_orderly orderly
  rw [reached] at settled
  exact ⟨same.nodup_iff.mp distinct, fun r => same.mem_iff.mpr,
    settled_of_same (fun _ => same.mem_iff) settled⟩

theorem kept_next {act : O → A → O × List E} {a : A} (kept : Kept gets frees owned h log)
    (accounts : ∀ t : List R, t.Perm (owned h.object) →
      Orderly gets frees t (act h.object a).2 ∧
        (table gets frees t (act h.object a).2).Perm (owned (act h.object a).1)) :
    Kept gets frees owned (h.next gets frees act a).1 (log ++ (h.next gets frees act a).2) := by
  obtain ⟨later, same⟩ := accounts h.table kept.same
  refine ⟨same, ?_, ?_⟩
  · rw [orderly_append, kept.reached]
    exact ⟨kept.orderly, later⟩
  · rw [table_append, kept.reached]
    rfl

end

/-! Resources that have owners. -/

section
variable {N Q : Type} {t : List Q} {holds holds' : N → Q → Prop}

/-- The resources that are held, each of which has one holder. -/
structure Owned (t : List Q) (holds : N → Q → Prop) : Prop where
  distinct : t.Nodup
  held : ∀ r, r ∈ t ↔ ∃ x, holds x r
  unique : ∀ x y r, holds x r → holds y r → x = y

theorem Owned.given (owned : Owned t holds) {x : N} {r : Q} (fresh : r ∉ t)
    (after : ∀ z q, holds' z q ↔ z = x ∧ q = r ∨ holds z q) : Owned (r :: t) holds' := by
  have nobody (z : N) : ¬ holds z r := fun other => fresh ((owned.held r).mpr ⟨z, other⟩)
  refine ⟨List.nodup_cons.mpr ⟨fresh, owned.distinct⟩, fun q => ?_, fun z z' q first second => ?_⟩
  · simp only [after, exists_or, exists_and_right, exists_eq, true_and, List.mem_cons, owned.held]
  · rcases (after z q).mp first with ⟨rfl, rfl⟩ | first
    · rcases (after z' q).mp second with ⟨rfl, -⟩ | second
      · rfl
      · exact absurd second (nobody z')
    · rcases (after z' q).mp second with ⟨rfl, rfl⟩ | second
      · exact absurd first (nobody z)
      · exact owned.unique z z' q first second

theorem Owned.freed [DecidableEq Q] (owned : Owned t holds) {r : Q}
    (after : ∀ z q, holds' z q ↔ q ≠ r ∧ holds z q) : Owned (t.erase r) holds' := by
  refine ⟨owned.distinct.erase r, fun q => ?_, fun z z' q first second => ?_⟩
  · rw [owned.distinct.mem_erase_iff, owned.held]
    simp only [after, exists_and_left]
  · exact owned.unique z z' q ((after z q).mp first).2 ((after z' q).mp second).2

/-- The owners change places. -/
theorem Owned.permuted (owned : Owned t holds) (σ : Equiv.Perm N)
    (after : ∀ z q, holds' z q ↔ holds (σ z) q) : Owned t holds' := by
  refine ⟨owned.distinct, fun q => ?_, fun z z' q first second => ?_⟩
  · simp only [after, owned.held]
    exact σ.surjective.exists
  · exact σ.injective (owned.unique _ _ q ((after z q).mp first) ((after z' q).mp second))

end
end TcpChat.Ledger
