import Mathlib.Data.Set.Basic
import Mathlib.Logic.Function.Basic
import Mathlib.Logic.Relation
import TcpChat.Lib.Machine

/-! A room that members enter, speak in and leave, each of them once. What one speaks all others
inside hear at once, so there is one order of speech for all. -/
namespace TcpChat

inductive Stage where
  | outside | inside | gone
  deriving DecidableEq

structure Room (ι M : Type) where
  stage : ι → Stage := fun _ => .outside
  transcript : List (ι × M) := []
  heard : ι → List (ι × M) := fun _ => []

namespace Room
open Machine

variable {ι M : Type} [DecidableEq ι]

def enter (r : Room ι M) (i : ι) : Room ι M :=
  { r with stage := Function.update r.stage i .inside }

def speak (r : Room ι M) (i : ι) (m : M) : Room ι M where
  stage := r.stage
  transcript := r.transcript ++ [(i, m)]
  heard j := if r.stage j = .inside ∧ j ≠ i then r.heard j ++ [(i, m)] else r.heard j

open Classical in
noncomputable def leave (r : Room ι M) (group : Set ι) : Room ι M :=
  { r with stage := fun i => if i ∈ group then .gone else r.stage i }

inductive Step : Room ι M → Room ι M → Prop
  | enter (r : Room ι M) (i : ι) (outside : r.stage i = .outside) : Step r (r.enter i)
  | speak (r : Room ι M) (i : ι) (m : M) (inside : r.stage i = .inside) : Step r (r.speak i m)
  | leave (r : Room ι M) (group : Set ι) (inside : ∀ i ∈ group, r.stage i = .inside) :
      Step r (r.leave group)

abbrev Steps : Room ι M → Room ι M → Prop := Relation.ReflTransGen Step

def others (j : ι) (l : List (ι × M)) : List (ι × M) := l.filter (·.1 ≠ j)

@[simp] theorem others_append (j : ι) (l l' : List (ι × M)) :
    others j (l ++ l') = others j l ++ others j l' := List.filter_append _ _

theorem part_others {i j : ι} (differ : i ≠ j) (l : List (ι × M)) :
    part i (others j l) = part i l := by
  have both : ∀ x : ι × M, (decide (x.1 = i) && decide (x.1 ≠ j)) = decide (x.1 = i) := by
    intro x
    by_cases here : x.1 = i
    · simp [here, differ]
    · simp [here]
  simp only [part, others, List.filter_filter, both]

/-! What every run keeps. -/

/-- What a member has heard is one stretch of the transcript without the member's own words, up
to the end while the member is inside. -/
structure Window (r : Room ι M) (j : ι) : Prop where
  stretch : ∃ before during after, r.transcript = before ++ (during ++ after) ∧
    r.heard j = others j during ∧ (r.stage j = .inside → after = [])
  outside : r.stage j = .outside → r.heard j = [] ∧ part j r.transcript = []

theorem window_empty (j : ι) : Window ({} : Room ι M) j :=
  ⟨⟨[], [], [], rfl, rfl, fun _ => rfl⟩, fun _ => ⟨rfl, rfl⟩⟩

theorem window_enter {r : Room ι M} {j : ι} (h : Window r j) (i : ι)
    (outside : r.stage i = .outside) : Window (r.enter i) j := by
  by_cases here : j = i
  · subst here
    have silent := h.outside outside
    refine ⟨⟨r.transcript, [], [], by simp [enter], silent.1, fun _ => rfl⟩, fun still => ?_⟩
    simp [enter] at still
  · have same : (r.enter i).stage j = r.stage j := Function.update_of_ne here _ _
    constructor
    · rw [same]
      exact h.stretch
    · rw [same]
      exact h.outside

theorem window_speak {r : Room ι M} {j : ι} (h : Window r j) (i : ι) (m : M)
    (inside : r.stage i = .inside) : Window (r.speak i m) j := by
  obtain ⟨before, during, after, whole, heard, last⟩ := h.stretch
  refine ⟨?_, fun outside => ?_⟩
  · by_cases present : r.stage j = .inside
    · have none := last present
      subst none
      refine ⟨before, during ++ [(i, m)], [], by simp [speak, whole], ?_, fun _ => rfl⟩
      by_cases own : j = i
      · subst own
        simpa [speak, others] using heard
      · simp [speak, present, own, heard, others, Ne.symm own]
    · refine ⟨before, during, after ++ [(i, m)], by simp [speak, whole], ?_, fun now => ?_⟩
      · simp [speak, present, heard]
      · exact absurd now present
  · have before_it : r.stage j = .outside := outside
    have other : i ≠ j := by
      rintro rfl
      rw [inside] at before_it
      cases before_it
    obtain ⟨nothing, silent⟩ := h.outside before_it
    simp [speak, before_it, nothing, silent, part_single, other]

theorem window_leave {r : Room ι M} {j : ι} (h : Window r j) (group : Set ι) :
    Window (r.leave group) j := by
  obtain ⟨before, during, after, whole, heard, last⟩ := h.stretch
  by_cases member : j ∈ group
  · have left : (r.leave group).stage j = .gone := if_pos member
    constructor
    · exact ⟨before, during, after, whole, heard, fun now => by rw [left] at now; cases now⟩
    · exact fun now => by rw [left] at now; cases now
  · have same : (r.leave group).stage j = r.stage j := if_neg member
    constructor
    · rw [same]
      exact h.stretch
    · rw [same]
      exact h.outside

theorem window_step {r r' : Room ι M} (step : Step r r') {j : ι} (h : Window r j) :
    Window r' j := by
  cases step with
  | enter i outside => exact window_enter h i outside
  | speak i m inside => exact window_speak h i m inside
  | leave group => exact window_leave h group

theorem window_steps {r r' : Room ι M} (steps : Steps r r') {j : ι} (h : Window r j) :
    Window r' j := by
  induction steps with
  | refl => exact h
  | tail _ step ih => exact window_step step ih

theorem gone_step {r r' : Room ι M} (step : Step r r') {j : ι} (gone : r.stage j = .gone) :
    r'.stage j = .gone := by
  cases step with
  | enter i outside =>
    have other : j ≠ i := by
      rintro rfl
      rw [gone] at outside
      cases outside
    exact (Function.update_of_ne other _ _).trans gone
  | speak => exact gone
  | leave group =>
    by_cases member : j ∈ group
    · exact if_pos member
    · exact (if_neg member).trans gone

theorem gone_steps {r r' : Room ι M} (steps : Steps r r') {j : ι} (gone : r.stage j = .gone) :
    r'.stage j = .gone := by
  induction steps with
  | refl => exact gone
  | tail _ step ih => exact gone_step step ih

/-- A step that a member inside stays for, or leaves with. -/
theorem stay_step {r r' : Room ι M} (step : Step r r') {j : ι} (inside : r.stage j = .inside) :
    r'.stage j = .gone ∨ r'.stage j = .inside ∧ ∃ said, r'.transcript = r.transcript ++ said ∧
      r'.heard j = r.heard j ++ others j said := by
  cases step with
  | enter i outside =>
    have other : j ≠ i := by
      rintro rfl
      rw [inside] at outside
      cases outside
    exact .inr ⟨(Function.update_of_ne other _ _).trans inside, [], by simp [enter],
      by simp [enter, others]⟩
  | speak i m speaks =>
    refine .inr ⟨inside, [(i, m)], rfl, ?_⟩
    by_cases own : j = i
    · simp [speak, own, others]
    · simp [speak, inside, own, others, Ne.symm own]
  | leave group =>
    by_cases member : j ∈ group
    · exact .inl (if_pos member)
    · exact .inr ⟨(if_neg member).trans inside, [], by simp [leave],
        by simp [leave, others]⟩

/-- Who is inside from first to last hears all that the others say meanwhile. -/
theorem stay_steps {r r' : Room ι M} (steps : Steps r r') {j : ι} (first : r.stage j = .inside)
    (last : r'.stage j = .inside) : ∃ said, r'.transcript = r.transcript ++ said ∧
      r'.heard j = r.heard j ++ others j said := by
  induction steps using Relation.ReflTransGen.head_induction_on with
  | refl => exact ⟨[], by simp, by simp [others]⟩
  | head step later ih =>
    rcases stay_step step first with left | ⟨still, said, transcript, heard⟩
    · rw [gone_steps later left] at last
      cases last
    · obtain ⟨more, transcript', heard'⟩ := ih still
      exact ⟨said ++ more, by rw [transcript', transcript, List.append_assoc],
        by rw [heard', heard, others_append, List.append_assoc]⟩

theorem heard_subset {r : Room ι M} {j : ι} (h : Window r j) : r.heard j ⊆ r.transcript := by
  obtain ⟨before, during, after, whole, heard, _⟩ := h.stretch
  rw [heard, whole]
  intro m member
  exact List.mem_append_right _ (List.mem_append_left _ (List.mem_of_mem_filter member))

/-- Who comes in after another is heard by it in full, as long as both stay. -/
theorem part_heard {r r' : Room ι M} (steps : Steps r r') {i j : ι} (window : ∀ i, Window r i)
    (first : r.stage j = .inside) (last : r'.stage j = .inside) (later : r.stage i = .outside) :
    part i (r'.heard j) = part i r'.transcript := by
  have differ : i ≠ j := by
    rintro rfl
    rw [first] at later
    cases later
  obtain ⟨said, transcript, heard⟩ := stay_steps steps first last
  obtain ⟨before, during, after, whole, earlier, _⟩ := (window j).stretch
  have silent := ((window i).outside later).2
  have unheard : part i (r.heard j) = [] := by
    rw [whole, part_append, part_append] at silent
    rw [earlier, part_others differ]
    exact (List.append_eq_nil_iff.mp (List.append_eq_nil_iff.mp silent).2).1
  rw [heard, transcript, part_append, part_append, unheard, silent, part_others differ]

end Room
end TcpChat
