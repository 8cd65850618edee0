import Mathlib.Data.List.Basic

/-! A fixed number of cells, as a C array has them. Writing never changes the
number; what would land outside is dropped. -/
namespace TcpChat

structure Cells (α : Type) (n : Nat) where
  toList : List α
  length_toList : toList.length = n
  deriving DecidableEq

namespace Cells

variable {α : Type} {n : Nat}

attribute [simp] length_toList

@[ext] theorem ext {m m' : Cells α n} (h : m.toList = m'.toList) : m = m' := by
  cases m; cases m'; cases h; rfl

def fill (n : Nat) (a : α) : Cells α n := ⟨List.replicate n a, List.length_replicate⟩

def write (m : Cells α n) (offset : Nat) (xs : List α) : Cells α n where
  toList := (m.toList.take offset ++ xs ++ m.toList.drop (offset + xs.length)).take n
  length_toList := by
    simp only [List.length_take, List.length_append, List.length_drop, m.length_toList]
    omega

def read (m : Cells α n) (offset len : Nat) : List α := (m.toList.drop offset).take len

theorem toList_write {m : Cells α n} {offset : Nat} {xs : List α}
    (fits : offset + xs.length ≤ n) :
    (m.write offset xs).toList =
      m.toList.take offset ++ xs ++ m.toList.drop (offset + xs.length) := by
  apply List.take_of_length_le
  simp only [List.length_append, List.length_take, List.length_drop, m.length_toList]
  omega

theorem take_write_behind {m : Cells α n} {k : Nat} {xs : List α} (fits : k + xs.length ≤ n) :
    (m.write k xs).toList.take (k + xs.length) = m.toList.take k ++ xs := by
  have len : (m.toList.take k ++ xs).length = k + xs.length := by
    simp only [List.length_append, List.length_take, m.length_toList]; omega
  rw [toList_write fits, ← len, List.take_left]

/-- Writing at the front shifts nothing: the first `k + |xs|` cells are then `xs` and the
`k` cells that stood behind the first `|xs|`. -/
theorem take_write_front {m : Cells α n} {k : Nat} {xs : List α} (fits : k + xs.length ≤ n) :
    (m.write 0 xs).toList.take (k + xs.length) = xs ++ m.read xs.length k := by
  rw [toList_write (by omega : 0 + xs.length ≤ n)]
  simp only [List.take_zero, List.nil_append, Nat.zero_add, read]
  rw [Nat.add_comm, List.take_length_add_append]

theorem take_move_front {m : Cells α n} {k len : Nat} (bound : k + len ≤ n) :
    (m.write 0 (m.read k len)).toList.take len = (m.toList.take (k + len)).drop k := by
  have size : (m.read k len).length = len := by
    simp only [read, List.length_take, List.length_drop, m.length_toList]; omega
  have front : (m.write 0 (m.read k len)).toList.take (0 + (m.read k len).length) =
      m.read k len ++ m.read (m.read k len).length 0 := take_write_front (by omega)
  simp only [Nat.zero_add, size] at front
  rw [front]
  simp [read, List.drop_take]

theorem write_nil (m : Cells α n) (offset : Nat) : m.write offset [] = m := by
  apply ext
  simp [write, List.take_of_length_le]

end Cells
end TcpChat
