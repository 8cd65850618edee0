import Mathlib.Data.List.Perm.Basic
import Mathlib.Data.List.Nodup

/-! Swap-with-last removal: the slot to be removed takes the last entry and the
last slot is dropped. The order changes, the other entries do not. -/
namespace TcpChat.Slots

variable {α β : Type}

def swapRemove (xs : List α) (i : Nat) : List α :=
  match xs.getLast? with
  | none => []
  | some last => (xs.set i last).dropLast

theorem exists_concat {xs : List α} {i : Nat} (h : i < xs.length) :
    ∃ front last, xs = front ++ [last] := by
  have nonempty : xs ≠ [] := by rintro rfl; simp at h
  exact ⟨xs.dropLast, xs.getLast nonempty, (List.dropLast_append_getLast nonempty).symm⟩

theorem swapRemove_of_lt {front : List α} {last : α} {i : Nat} (h : i < front.length) :
    swapRemove (front ++ [last]) i = front.set i last := by
  simp only [swapRemove, List.getLast?_concat, List.set_append, if_pos h, List.dropLast_concat]

theorem swapRemove_last (front : List α) (last : α) :
    swapRemove (front ++ [last]) front.length = front := by
  simp [swapRemove]

theorem swapRemove_cons (x : α) {xs : List α} {i : Nat} (h : i < xs.length) :
    swapRemove (x :: xs) (i + 1) = x :: swapRemove xs i := by
  obtain ⟨front, last, rfl⟩ := exists_concat h
  by_cases hi : i < front.length
  · have inside : i + 1 < (x :: front).length := Nat.succ_lt_succ hi
    rw [swapRemove_of_lt hi, ← List.cons_append, swapRemove_of_lt inside, List.set_cons_succ]
  · have last_slot : i = front.length := by simp at h; omega
    subst last_slot
    rw [swapRemove_last]
    exact swapRemove_last (x :: front) last

theorem map_swapRemove (f : α → β) (xs : List α) (i : Nat) :
    (swapRemove xs i).map f = swapRemove (xs.map f) i := by
  cases h : xs.getLast? with
  | none => simp [swapRemove, h]
  | some last => simp [swapRemove, h, List.map_set, List.map_dropLast]

/-- Up to order, swap removal is removal. -/
theorem swapRemove_perm {xs : List α} {i : Nat} (h : i < xs.length) :
    (swapRemove xs i).Perm (xs.eraseIdx i) := by
  obtain ⟨front, last, rfl⟩ := exists_concat h
  by_cases hi : i < front.length
  · rw [swapRemove_of_lt hi, List.eraseIdx_append_of_lt_length hi]
    exact (List.set_perm_cons_eraseIdx hi last).trans (List.perm_append_singleton last _).symm
  · have last_slot : i = front.length := by simp at h; omega
    subst last_slot
    rw [swapRemove_last, List.eraseIdx_append_of_length_le (Nat.le_refl _), Nat.sub_self]
    simp

/-- A walk that removes the entry it stands at has the entries after it still before it. -/
theorem drop_swapRemove {xs : List α} {i : Nat} (h : i < xs.length) :
    ((swapRemove xs i).drop i).Perm (xs.drop (i + 1)) := by
  obtain ⟨front, last, rfl⟩ := exists_concat h
  by_cases hi : i < front.length
  · have here : (front.set i last).drop i = last :: front.drop (i + 1) := by
      rw [List.drop_eq_getElem_cons (by simpa using hi), List.getElem_set_self,
        List.drop_set_of_lt (Nat.lt_succ_self i)]
    rw [swapRemove_of_lt hi, here, List.drop_append_of_le_length hi]
    exact (List.perm_append_singleton last _).symm
  · have last_slot : i = front.length := by simp at h; omega
    subst last_slot
    rw [swapRemove_last]
    simp

theorem mem_swapRemove {xs : List α} {i : Nat} (h : i < xs.length) (y : α) :
    y ∈ swapRemove xs i ↔ y ∈ xs.eraseIdx i :=
  (swapRemove_perm h).mem_iff

theorem mem_swapRemove_iff {xs : List α} {i : Nat} (h : i < xs.length) (distinct : xs.Nodup)
    (y : α) : y ∈ swapRemove xs i ↔ y ∈ xs ∧ y ≠ xs[i] := by
  rw [mem_swapRemove h, List.mem_eraseIdx_iff_getElem]
  constructor
  · rintro ⟨j, hj, other, rfl⟩
    exact ⟨List.getElem_mem hj, fun same => other (distinct.getElem_inj_iff.mp same)⟩
  · rintro ⟨member, differs⟩
    obtain ⟨j, hj, rfl⟩ := List.getElem_of_mem member
    exact ⟨j, hj, fun same => differs (by simp [same]), rfl⟩

theorem map_set_same {f : α → β} {xs : List α} {i : Nat} {x y : α} (found : xs[i]? = some x)
    (same : f y = f x) : (xs.set i y).map f = xs.map f := by
  obtain ⟨inside, rfl⟩ := List.getElem?_eq_some_iff.mp found
  rw [List.map_set, same, ← List.getElem_map f (h := by simpa using inside), List.set_getElem_self]

end TcpChat.Slots
