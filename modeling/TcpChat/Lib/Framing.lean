import Mathlib.Data.List.Basic
import Mathlib.Data.List.Infix

/-! Streams cut into frames by a delimiter, each frame ending in it.
A receiver that keeps the residue of what it has seen and appends the next
chunk loses nothing: the laws below hold for every way of cutting the stream. -/
namespace TcpChat.Framing

variable {α : Type} [DecidableEq α]

/-- The shortest prefix that ends in the delimiter, empty where there is none. -/
def first (d : α) : List α → List α
  | [] => []
  | x :: xs => if x = d then [x] else if d ∈ xs then x :: first d xs else []

/-- The longest prefix that ends in the delimiter, empty where there is none. -/
def complete (d : α) : List α → List α
  | [] => []
  | x :: xs => if d ∈ x :: xs then x :: complete d xs else []

/-- What follows the last delimiter. -/
def residue (d : α) : List α → List α
  | [] => []
  | x :: xs => if d ∈ x :: xs then residue d xs else x :: xs

/-- The complete part, frame by frame. -/
def frames (d : α) : List α → List (List α)
  | [] => []
  | x :: xs =>
    if x = d then [x] :: frames d xs
    else match frames d xs with
      | [] => []
      | f :: fs => (x :: f) :: fs

@[simp] theorem complete_nil (d : α) : complete d [] = [] := rfl
@[simp] theorem residue_nil (d : α) : residue d [] = [] := rfl
@[simp] theorem first_nil (d : α) : first d [] = [] := rfl
@[simp] theorem frames_nil (d : α) : frames d [] = [] := rfl

@[simp] theorem complete_append_residue (d : α) (xs : List α) :
    complete d xs ++ residue d xs = xs := by
  induction xs with
  | nil => rfl
  | cons x xs ih =>
    simp only [complete, residue]
    split
    · rw [List.cons_append, ih]
    · rfl

theorem not_mem_residue (d : α) (xs : List α) : d ∉ residue d xs := by
  induction xs with
  | nil => simp
  | cons x xs ih =>
    simp only [residue]
    split
    · exact ih
    · assumption

theorem complete_of_not_mem {d : α} {xs : List α} (h : d ∉ xs) : complete d xs = [] := by
  cases xs with
  | nil => rfl
  | cons x xs => simp only [complete, if_neg h]

theorem residue_of_not_mem {d : α} {xs : List α} (h : d ∉ xs) : residue d xs = xs := by
  cases xs with
  | nil => rfl
  | cons x xs => simp only [residue, if_neg h]

@[simp] theorem complete_residue (d : α) (xs : List α) : complete d (residue d xs) = [] :=
  complete_of_not_mem (not_mem_residue d xs)

@[simp] theorem residue_residue (d : α) (xs : List α) : residue d (residue d xs) = residue d xs :=
  residue_of_not_mem (not_mem_residue d xs)

theorem complete_eq_nil_iff (d : α) (xs : List α) : complete d xs = [] ↔ d ∉ xs := by
  constructor
  · intro empty member
    have whole := complete_append_residue d xs
    rw [empty, List.nil_append] at whole
    exact not_mem_residue d xs (whole.symm ▸ member)
  · exact complete_of_not_mem

theorem first_eq_nil_iff (d : α) (xs : List α) : first d xs = [] ↔ d ∉ xs := by
  cases xs with
  | nil => simp
  | cons x xs =>
    by_cases hx : x = d
    · simp [first, hx]
    · have hd : d ≠ x := fun h => hx h.symm
      by_cases hm : d ∈ xs <;> simp [first, hx, hd, hm]

/-- The incremental law: only the residue of the earlier bytes matters later. -/
theorem complete_append (d : α) (xs ys : List α) :
    complete d (xs ++ ys) = complete d xs ++ complete d (residue d xs ++ ys) := by
  induction xs with
  | nil => rfl
  | cons x xs ih =>
    by_cases h : d ∈ x :: xs
    · have longer : d ∈ x :: (xs ++ ys) := by
        rw [← List.cons_append]; exact List.mem_append_left _ h
      simp only [List.cons_append, complete, residue, if_pos h, if_pos longer, ih]
    · rw [complete_of_not_mem h, residue_of_not_mem h, List.nil_append]

theorem residue_append (d : α) (xs ys : List α) :
    residue d (xs ++ ys) = residue d (residue d xs ++ ys) := by
  induction xs with
  | nil => rfl
  | cons x xs ih =>
    by_cases h : d ∈ x :: xs
    · have longer : d ∈ x :: (xs ++ ys) := by
        rw [← List.cons_append]; exact List.mem_append_left _ h
      simp only [List.cons_append, residue, if_pos h, if_pos longer, ih]
    · rw [residue_of_not_mem h]

theorem complete_getLast? {d : α} {xs : List α} (h : complete d xs ≠ []) :
    (complete d xs).getLast? = some d := by
  induction xs with
  | nil => exact absurd rfl h
  | cons x xs ih =>
    by_cases hm : d ∈ x :: xs
    · simp only [complete, if_pos hm]
      by_cases later : complete d xs = []
      · have absent := (complete_eq_nil_iff d xs).mp later
        have head : x = d := by
          rcases List.mem_cons.mp hm with h | h
          · exact h.symm
          · exact absurd h absent
        simp [later, head]
      · rw [List.getLast?_cons, ih later]; rfl
    · exact absurd (complete_of_not_mem hm) h

theorem residue_eq_nil {d : α} {xs : List α} (ends : xs.getLast? = some d) :
    residue d xs = [] := by
  obtain ⟨q, rfl⟩ := List.getLast?_eq_some_iff.mp ends
  rw [residue_append]
  have tail : d ∈ residue d q ++ [d] := List.mem_append_right _ (List.mem_singleton_self d)
  have empty : complete d (residue d q ++ [d]) = residue d q ++ [d] := by
    generalize residue d q = r
    induction r with
    | nil => simp [complete]
    | cons x r ih => simp [complete, ih]
  have split := complete_append_residue d (residue d q ++ [d])
  rw [empty] at split
  exact List.append_cancel_left (split.trans (List.append_nil _).symm)

theorem complete_concat (d : α) (xs : List α) :
    complete d (xs ++ [d]) = xs ++ [d] := by
  have split := complete_append_residue d (xs ++ [d])
  rwa [residue_eq_nil (by simp), List.append_nil] at split

theorem complete_initial (d : α) (xs : List α) : complete d xs <+: xs :=
  ⟨residue d xs, complete_append_residue d xs⟩

/-! The first frame. -/

theorem first_append {d : α} {xs : List α} (h : d ∈ xs) (ys : List α) :
    first d (xs ++ ys) = first d xs := by
  induction xs with
  | nil => cases h
  | cons x xs ih =>
    by_cases hx : x = d
    · simp only [List.cons_append, first, if_pos hx]
    · have later : d ∈ xs := by
        rcases List.mem_cons.mp h with h | h
        · exact absurd h.symm hx
        · exact h
      simp only [List.cons_append, first, if_neg hx, if_pos later,
        if_pos (List.mem_append_left ys later), ih later]

theorem first_spec {d : α} {xs : List α} (h : d ∈ xs) :
    ∃ body rest, d ∉ body ∧ first d xs = body ++ [d] ∧ xs = body ++ d :: rest := by
  induction xs with
  | nil => cases h
  | cons x xs ih =>
    by_cases hx : x = d
    · exact ⟨[], xs, by simp, by simp [first, hx], by simp [hx]⟩
    · have later : d ∈ xs := by
        rcases List.mem_cons.mp h with h | h
        · exact absurd h.symm hx
        · exact h
      obtain ⟨body, rest, absent, hf, hxs⟩ := ih later
      refine ⟨x :: body, rest, ?_, ?_, by rw [hxs]; rfl⟩
      · intro member
        rcases List.mem_cons.mp member with h | h
        · exact hx h.symm
        · exact absent h
      · simp only [first, if_neg hx, if_pos later, hf, List.cons_append]

theorem first_append_drop {d : α} {xs : List α} (h : d ∈ xs) :
    first d xs ++ xs.drop (first d xs).length = xs := by
  obtain ⟨body, rest, _, hf, hxs⟩ := first_spec h
  rw [hf, hxs]
  simp

theorem first_append_rest (d : α) (xs : List α) :
    first d xs ++ xs.drop (first d xs).length = xs := by
  by_cases h : d ∈ xs
  · exact first_append_drop h
  · simp [(first_eq_nil_iff d xs).mpr h]

theorem take_length_first (d : α) (xs : List α) : xs.take (first d xs).length = first d xs := by
  by_cases h : d ∈ xs
  · exact (List.prefix_iff_eq_take.mp ⟨_, first_append_drop h⟩).symm
  · simp [(first_eq_nil_iff d xs).mpr h]

theorem first_getLast? {d : α} {xs : List α} (h : d ∈ xs) : (first d xs).getLast? = some d := by
  obtain ⟨body, _, _, hf, _⟩ := first_spec h
  simp [hf]

theorem not_mem_first_dropLast (d : α) (xs : List α) : d ∉ (first d xs).dropLast := by
  by_cases h : d ∈ xs
  · obtain ⟨body, _, absent, hf, _⟩ := first_spec h
    simpa [hf] using absent
  · simp [(first_eq_nil_iff d xs).mpr h]

theorem complete_eq_first_append {d : α} {xs : List α} (h : d ∈ xs) :
    complete d xs = first d xs ++ complete d (xs.drop (first d xs).length) := by
  have ends := first_getLast? h
  have whole : complete d (first d xs) = first d xs := by
    have split := complete_append_residue d (first d xs)
    rwa [residue_eq_nil ends, List.append_nil] at split
  have law := complete_append d (first d xs) (xs.drop (first d xs).length)
  rwa [first_append_drop h, whole, residue_eq_nil ends, List.nil_append] at law

theorem residue_drop_first {d : α} {xs : List α} (h : d ∈ xs) :
    residue d (xs.drop (first d xs).length) = residue d xs := by
  have law := residue_append d (first d xs) (xs.drop (first d xs).length)
  rwa [first_append_drop h, residue_eq_nil (first_getLast? h), List.nil_append, eq_comm] at law

theorem complete_drop_first (d : α) (xs : List α) :
    complete d (xs.drop (first d xs).length) = (complete d xs).drop (first d xs).length := by
  by_cases h : d ∈ xs
  · rw [complete_eq_first_append h, List.drop_left]
  · rw [(first_eq_nil_iff d xs).mpr h, List.length_nil, List.drop_zero, List.drop_zero]

theorem first_append_drop_complete (d : α) (xs : List α) :
    first d xs ++ (complete d xs).drop (first d xs).length = complete d xs := by
  by_cases h : d ∈ xs
  · rw [complete_eq_first_append h, List.drop_left]
  · rw [(first_eq_nil_iff d xs).mpr h, List.length_nil, List.drop_zero, List.nil_append]

theorem first_eq_take {d : α} {xs : List α} {i : Nat}
    (found : xs.findIdx? (· == d) = some i) : first d xs = xs.take (i + 1) := by
  induction xs generalizing i with
  | nil => cases found
  | cons x xs ih =>
    by_cases hx : x = d
    · have zero : i = 0 := by simpa [List.findIdx?_cons, hx, eq_comm] using found
      simp [first, hx, zero]
    · simp only [List.findIdx?_cons, beq_iff_eq, hx, if_false, Option.map_eq_some_iff] at found
      obtain ⟨j, hj, rfl⟩ := found
      have later : d ∈ xs := by
        obtain ⟨hlt, hd, _⟩ := List.findIdx?_eq_some_iff_getElem.mp hj
        have eq : xs[j] = d := by simpa using hd
        exact eq ▸ List.getElem_mem hlt
      simp only [first, if_neg hx, if_pos later, ih hj, List.take_succ_cons]

theorem not_mem_of_findIdx? {d : α} {xs : List α}
    (absent : xs.findIdx? (· == d) = none) : d ∉ xs := by
  intro member
  have no := List.findIdx?_eq_none_iff.mp absent d member
  simp at no

/-! The list of frames. -/

theorem frames_eq_nil_iff (d : α) (xs : List α) : frames d xs = [] ↔ d ∉ xs := by
  induction xs with
  | nil => simp
  | cons x xs ih =>
    by_cases hx : x = d
    · simp [frames, hx]
    · have hd : d ≠ x := fun h => hx h.symm
      simp only [frames, if_neg hx, List.mem_cons, hd, false_or]
      rw [← ih]
      split <;> simp_all

theorem frames_getLast? {d : α} {xs f : List α} (h : f ∈ frames d xs) : f.getLast? = some d := by
  induction xs generalizing f with
  | nil => cases h
  | cons x xs ih =>
    by_cases hx : x = d
    · simp only [frames, if_pos hx] at h
      rcases List.mem_cons.mp h with rfl | later
      · simp [hx]
      · exact ih later
    · simp only [frames, if_neg hx] at h
      cases here : frames d xs with
      | nil => simp [here] at h
      | cons g gs =>
        rw [here] at h ih
        rcases List.mem_cons.mp h with rfl | later
        · rw [List.getLast?_cons, ih List.mem_cons_self]
          rfl
        · exact ih (List.mem_cons_of_mem g later)

omit [DecidableEq α] in
theorem flatten_getLast? {d : α} {fs : List (List α)} (each : ∀ f ∈ fs, f.getLast? = some d) :
    fs.flatten = [] ∨ fs.flatten.getLast? = some d := by
  rcases List.eq_nil_or_concat fs with rfl | ⟨front, f, rfl⟩
  · exact .inl rfl
  · have last := each f (by simp)
    exact .inr (by simp [List.concat_eq_append, List.getLast?_append, last])

theorem frames_append (d : α) (xs ys : List α) :
    frames d (xs ++ ys) = frames d xs ++ frames d (residue d xs ++ ys) := by
  induction xs with
  | nil => rfl
  | cons x xs ih =>
    by_cases h : d ∈ x :: xs
    · have kept : residue d (x :: xs) = residue d xs := by simp only [residue, if_pos h]
      by_cases hx : x = d
      · simp only [List.cons_append, frames, if_pos hx, kept, ih]
      · have later : d ∈ xs := by
          rcases List.mem_cons.mp h with h | h
          · exact absurd h.symm hx
          · exact h
        have some_frame : frames d xs ≠ [] := fun none => (frames_eq_nil_iff d xs).mp none later
        obtain ⟨f, fs, hf⟩ := List.exists_cons_of_ne_nil some_frame
        simp only [List.cons_append, frames, if_neg hx, kept, ih, hf]
    · rw [(frames_eq_nil_iff d (x :: xs)).mpr h, residue_of_not_mem h, List.nil_append]

@[simp] theorem flatten_frames (d : α) (xs : List α) :
    (frames d xs).flatten = complete d xs := by
  induction xs with
  | nil => rfl
  | cons x xs ih =>
    by_cases hx : x = d
    · simp [frames, complete, hx, ih]
    · have hd : d ≠ x := fun h => hx h.symm
      by_cases hm : d ∈ xs
      · have some_frame : frames d xs ≠ [] := fun none => (frames_eq_nil_iff d xs).mp none hm
        obtain ⟨f, fs, hf⟩ := List.exists_cons_of_ne_nil some_frame
        rw [hf] at ih
        simp only [frames, if_neg hx, hf, complete, List.mem_cons, hm, or_true, if_true,
          List.flatten_cons, List.cons_append, ← ih]
      · have none := (frames_eq_nil_iff d xs).mpr hm
        simp [frames, complete, hx, hd, hm, none]

theorem frames_body {d : α} {body : List α} (absent : d ∉ body) :
    frames d (body ++ [d]) = [body ++ [d]] := by
  induction body with
  | nil => simp [frames]
  | cons b body ih =>
    have hb : b ≠ d := fun h => absent (h ▸ List.mem_cons_self)
    simp only [List.cons_append, frames, if_neg hb,
      ih (fun h => absent (List.mem_cons_of_mem b h))]

theorem frames_eq_first_cons {d : α} {xs : List α} (h : d ∈ xs) :
    frames d xs = first d xs :: frames d (xs.drop (first d xs).length) := by
  have ends := first_getLast? h
  have single : frames d (first d xs) = [first d xs] := by
    obtain ⟨body, rest, absent, hf, hxs⟩ := first_spec h
    rw [hf]
    exact frames_body absent
  have law := frames_append d (first d xs) (xs.drop (first d xs).length)
  rwa [first_append_drop h, single, residue_eq_nil ends, List.nil_append] at law

theorem length_frame_le {d : α} {xs f : List α} (h : f ∈ frames d xs) :
    f.length ≤ xs.length := by
  have sub := (List.sublist_flatten_of_mem h).length_le
  rw [flatten_frames] at sub
  exact Nat.le_trans sub (complete_initial d xs).length_le

/-! Frames of bounded length. -/

/-- Whole frames, of at most `n` elements each. -/
structure Fits (d : α) (n : Nat) (xs : List α) : Prop where
  whole : residue d xs = []
  short : ∀ f ∈ frames d xs, f.length ≤ n

theorem fits_nil (d : α) (n : Nat) : Fits d n [] := ⟨rfl, by simp⟩

theorem Fits.append {d : α} {n : Nat} {xs ys : List α} (h : Fits d n xs) (h' : Fits d n ys) :
    Fits d n (xs ++ ys) := by
  constructor
  · rw [residue_append, h.whole, List.nil_append, h'.whole]
  · intro f member
    rw [frames_append, h.whole, List.nil_append] at member
    exact (List.mem_append.mp member).elim (h.short f) (h'.short f)

theorem Fits.of_append {d : α} {n : Nat} {xs ys : List α} (h : Fits d n (xs ++ ys))
    (whole : residue d xs = []) : Fits d n ys := by
  constructor
  · have law := h.whole
    rwa [residue_append, whole, List.nil_append] at law
  · intro f member
    apply h.short f
    rw [frames_append, whole, List.nil_append]
    exact List.mem_append_right _ member

theorem Fits.frames_of_prefix {d : α} {n : Nat} {p xs : List α} (h : Fits d n xs)
    (hp : p <+: xs) : ∀ f ∈ frames d p, f.length ≤ n := by
  obtain ⟨q, rfl⟩ := hp
  intro f member
  apply h.short f
  rw [frames_append]
  exact List.mem_append_left _ member

/-- A receiver of frames of at most `n` elements never holds `n` elements of residue,
however much of the stream it has seen. -/
theorem Fits.residue_lt {d : α} {n : Nat} {p xs : List α} (h : Fits d n xs) (hp : p <+: xs)
    (positive : 0 < n) : (residue d p).length < n := by
  obtain ⟨q, rfl⟩ := hp
  by_cases empty : residue d p = []
  · simpa [empty] using positive
  · have ended : residue d (residue d p ++ q) = [] := by
      rw [← residue_append]
      exact h.whole
    have member : d ∈ residue d p ++ q := by
      apply Decidable.byContradiction
      intro absent
      rw [residue_of_not_mem absent] at ended
      exact empty (List.append_eq_nil_iff.mp ended).1
    have hf : first d (residue d p ++ q) ∈ frames d (p ++ q) := by
      rw [frames_append, frames_eq_first_cons member]
      exact List.mem_append_right _ List.mem_cons_self
    have bound := h.short _ hf
    obtain ⟨body, rest, absent, hfirst, hxs⟩ := first_spec member
    have longer : (residue d p).length ≤ body.length := by
      apply Decidable.byContradiction
      intro short
      have frame : body ++ [d] <+: residue d p ++ q := ⟨rest, by rw [hxs]; simp⟩
      have inside : body ++ [d] <+: residue d p :=
        List.prefix_of_prefix_length_le frame (List.prefix_append _ _)
          (by simp only [List.length_append, List.length_singleton]; omega)
      exact not_mem_residue d p (inside.subset (by simp))
    rw [hfirst, List.length_append, List.length_singleton] at bound
    omega

theorem first_append_of_not_mem {d : α} {pre xs : List α} (absent : d ∉ pre) (h : d ∈ xs) :
    first d (pre ++ xs) = pre ++ first d xs := by
  induction pre with
  | nil => rfl
  | cons x pre ih =>
    have hx : x ≠ d := fun eq => absent (eq ▸ List.mem_cons_self)
    have later := ih fun member => absent (List.mem_cons_of_mem x member)
    simp only [List.cons_append, first, if_neg hx, if_pos (List.mem_append_right pre h), later]

/-- A prefix without the delimiter lengthens the first frame and no other. -/
theorem fits_prefixed_iff {d : α} {n : Nat} {pre xs : List α} (absent : d ∉ pre)
    (ends : xs.getLast? = some d) (short : xs.length ≤ n) :
    Fits d n (pre ++ xs) ↔ pre.length + (first d xs).length ≤ n := by
  have member : d ∈ xs := List.mem_of_getLast? ends
  have cut : frames d (pre ++ xs) =
      (pre ++ first d xs) :: frames d (xs.drop (first d xs).length) := by
    rw [frames_eq_first_cons (List.mem_append_right pre member),
      first_append_of_not_mem absent member, List.length_append, ← List.drop_drop, List.drop_left]
  constructor
  · intro h
    have bound := h.short (pre ++ first d xs) (by rw [cut]; exact List.mem_cons_self)
    rwa [List.length_append] at bound
  · intro bound
    refine ⟨residue_eq_nil (by simp [ends]), fun f inside => ?_⟩
    rw [cut] at inside
    rcases List.mem_cons.mp inside with rfl | later
    · rwa [List.length_append]
    · have le := length_frame_le later
      rw [List.length_drop] at le
      omega

theorem fits_prefixed {d : α} {n : Nat} {pre xs : List α} (absent : d ∉ pre)
    (ends : xs.getLast? = some d) (short : ∀ f ∈ frames d xs, pre.length + f.length ≤ n) :
    Fits d n (pre ++ xs) := by
  have member : d ∈ xs := List.mem_of_getLast? ends
  have split := frames_eq_first_cons member
  refine ⟨residue_eq_nil (by simp [ends]), fun f inside => ?_⟩
  rw [frames_eq_first_cons (List.mem_append_right pre member),
    first_append_of_not_mem absent member, List.length_append, ← List.drop_drop,
    List.drop_left] at inside
  rcases List.mem_cons.mp inside with rfl | later
  · rw [List.length_append]
    exact short _ (split ▸ List.mem_cons_self)
  · have bound := short f (split ▸ List.mem_cons_of_mem _ later)
    omega

/-! The cuts by their properties. -/

/-- The element sequence of one frame: the delimiter ends it and is nowhere else in it. -/
def Frame (d : α) (l : List α) : Prop := ∃ body, d ∉ body ∧ l = body ++ [d]

structure Shortest (d : α) (xs p : List α) : Prop where
  initial : p <+: xs
  ends : p.getLast? = some d
  least : ∀ q, q <+: xs → q.getLast? = some d → p.length ≤ q.length

structure Longest (d : α) (xs p : List α) : Prop where
  initial : p <+: xs
  ends : p.getLast? = some d
  greatest : ∀ q, q <+: xs → q.getLast? = some d → q.length ≤ p.length

theorem shortest_first {d : α} {xs : List α} (h : d ∈ xs) : Shortest d xs (first d xs) := by
  obtain ⟨body, rest, absent, hf, hxs⟩ := first_spec h
  refine ⟨⟨rest, by rw [hf, hxs]; simp⟩, first_getLast? h, fun q initial ends => ?_⟩
  apply Decidable.byContradiction
  intro shorter
  have inside : q <+: body := by
    refine List.prefix_of_prefix_length_le initial ⟨d :: rest, hxs.symm⟩ ?_
    rw [hf, List.length_append, List.length_singleton] at shorter
    omega
  exact absent (inside.subset (List.mem_of_getLast? ends))

theorem longest_complete {d : α} {xs : List α} (h : d ∈ xs) : Longest d xs (complete d xs) := by
  have some : complete d xs ≠ [] := fun none => (complete_eq_nil_iff d xs).mp none h
  refine ⟨complete_initial d xs, complete_getLast? some, fun q initial ends => ?_⟩
  obtain ⟨rest, rfl⟩ := initial
  have whole : residue d q = [] := residue_eq_nil ends
  have law := complete_append_residue d q
  rw [whole, List.append_nil] at law
  rw [complete_append, law, List.length_append]
  omega

theorem residue_frame {d : α} {l : List α} (frame : Frame d l) : residue d l = [] := by
  obtain ⟨body, _, rfl⟩ := frame
  exact residue_eq_nil (by simp)

/-- A stream made of frames is cut into these frames. -/
theorem frames_flatten {d : α} {ls : List (List α)} (each : ∀ l ∈ ls, Frame d l) {tail : List α}
    (absent : d ∉ tail) :
    frames d (ls.flatten ++ tail) = ls ∧ residue d (ls.flatten ++ tail) = tail := by
  induction ls with
  | nil => exact ⟨(frames_eq_nil_iff d tail).mpr absent, residue_of_not_mem absent⟩
  | cons l ls ih =>
    obtain ⟨cut, rest⟩ := ih fun l' member => each l' (List.mem_cons_of_mem l member)
    have frame := each l List.mem_cons_self
    have whole := residue_frame frame
    obtain ⟨body, none, rfl⟩ := frame
    rw [List.flatten_cons, List.append_assoc]
    constructor
    · rw [frames_append, whole, List.nil_append, cut, frames_body none]
      rfl
    · rw [residue_append, whole, List.nil_append, rest]

/-- What ends in the delimiter and has no second one is a frame. -/
theorem frame_of_count {d : α} {l : List α} (ends : l.getLast? = some d) (single : l.count d ≤ 1) :
    Frame d l := by
  obtain ⟨body, rfl⟩ := List.getLast?_eq_some_iff.mp ends
  rw [List.count_append, List.count_singleton_self] at single
  exact ⟨body, List.count_eq_zero.mp (by omega), rfl⟩

theorem frames_mono {d : α} {xs ys : List α} (h : xs <+: ys) : frames d xs <+: frames d ys := by
  obtain ⟨rest, rfl⟩ := h
  rw [frames_append]
  exact List.prefix_append _ _

theorem frames_of_flatten {d : α} {ls : List (List α)} (each : ∀ l ∈ ls, Frame d l) :
    frames d ls.flatten = ls := by
  have cut := (frames_flatten each (List.not_mem_nil : d ∉ [])).1
  rwa [List.append_nil] at cut

@[simp] theorem residue_complete (d : α) (xs : List α) : residue d (complete d xs) = [] := by
  by_cases none : complete d xs = []
  · rw [none, residue_nil]
  · exact residue_eq_nil (complete_getLast? none)

/-- Pieces that end in the delimiter are cut each for itself. -/
theorem frames_pieces {d : α} {ls : List (List α)} (each : ∀ l ∈ ls, l.getLast? = some d) :
    frames d ls.flatten = ls.flatMap (frames d) := by
  induction ls with
  | nil => rfl
  | cons l ls ih =>
    have whole := residue_eq_nil (each l List.mem_cons_self)
    rw [List.flatten_cons, List.flatMap_cons, frames_append, whole, List.nil_append,
      ih fun l' member => each l' (List.mem_cons_of_mem l member)]

@[simp] theorem frames_complete (d : α) (xs : List α) : frames d (complete d xs) = frames d xs := by
  have none := (frames_eq_nil_iff d (residue d xs)).mpr (not_mem_residue d xs)
  by_cases empty : complete d xs = []
  · rw [empty, frames_nil, (frames_eq_nil_iff d xs).mpr ((complete_eq_nil_iff d xs).mp empty)]
  · have whole := residue_eq_nil (complete_getLast? empty)
    conv_rhs => rw [← complete_append_residue d xs, frames_append, whole, List.nil_append, none,
      List.append_nil]

theorem complete_flatten {d : α} {ls : List (List α)} (each : ∀ l ∈ ls, Frame d l) {tail : List α}
    (absent : d ∉ tail) : complete d (ls.flatten ++ tail) = ls.flatten := by
  rw [← flatten_frames, (frames_flatten each absent).1]

/-- Frames passed on in order up to a point inside one of them: `sent` went out, and `kept`
is still there, from the start of the frame that was cut. -/
def CutOff (d : α) (xs sent kept : List α) : Prop :=
  ∃ before frame after part, frames d xs = before ++ frame :: after ∧ part <+: frame ∧
    part ≠ frame ∧ sent = before.flatten ++ part ∧ kept = (frame :: after).flatten ++ residue d xs

theorem cutOff_first {d : α} {xs part : List α} (h : d ∈ xs) (initial : part <+: first d xs)
    (short : part ≠ first d xs) : CutOff d xs part xs := by
  refine ⟨[], first d xs, _, part, frames_eq_first_cons h, initial, short, rfl, ?_⟩
  rw [← frames_eq_first_cons h, flatten_frames, complete_append_residue]

theorem cutOff_later {d : α} {xs sent kept : List α} (h : d ∈ xs)
    (cut : CutOff d (xs.drop (first d xs).length) sent kept) :
    CutOff d xs (first d xs ++ sent) kept := by
  obtain ⟨before, frame, after, part, split, initial, short, hs, hk⟩ := cut
  refine ⟨first d xs :: before, frame, after, part, ?_, initial, short, ?_, ?_⟩
  · rw [frames_eq_first_cons h, split, List.cons_append]
  · rw [hs, List.flatten_cons, List.append_assoc]
  · rw [hk, residue_drop_first h]

/-! Streams that begin with a header line. -/

theorem complete_mono {d : α} {xs ys : List α} (h : xs <+: ys) :
    complete d xs <+: complete d ys := by
  obtain ⟨rest, rfl⟩ := h
  rw [complete_append]
  exact List.prefix_append _ _

@[simp] theorem complete_complete (d : α) (xs : List α) :
    complete d (complete d xs) = complete d xs := by
  by_cases none : complete d xs = []
  · rw [none, complete_nil]
  · have whole := complete_append_residue d (complete d xs)
    rwa [residue_eq_nil (complete_getLast? none), List.append_nil] at whole

theorem first_header {d : α} {header : List α} (absent : d ∉ header) (body : List α) :
    first d (header ++ d :: body) = header ++ [d] := by
  rw [first_append_of_not_mem absent List.mem_cons_self]
  simp [first]

theorem body_header {d : α} {header : List α} (absent : d ∉ header) (body : List α) :
    (complete d (header ++ d :: body)).drop (first d (header ++ d :: body)).length =
      complete d body := by
  rw [← complete_drop_first, first_header absent]
  congr 1
  simp

omit [DecidableEq α] in
/-- What has come of such a stream, once the header line is through. -/
theorem header_split {d : α} {header body xs : List α} (absent : d ∉ header)
    (initial : xs <+: header ++ d :: body) (through : d ∈ xs) :
    ∃ come, come <+: body ∧ xs = header ++ d :: come := by
  induction header generalizing xs with
  | nil =>
    rcases List.prefix_cons_iff.mp initial with rfl | ⟨come, rfl, part⟩
    · cases through
    · exact ⟨come, part, rfl⟩
  | cons b header ih =>
    rcases List.prefix_cons_iff.mp initial with rfl | ⟨rest, rfl, part⟩
    · cases through
    · have other : d ≠ b := fun same => absent (same ▸ List.mem_cons_self)
      have later : d ∈ rest := (List.mem_cons.mp through).resolve_left other
      obtain ⟨come, within, rfl⟩ :=
        ih (fun member => absent (List.mem_cons_of_mem b member)) part later
      exact ⟨come, within, rfl⟩

end TcpChat.Framing
