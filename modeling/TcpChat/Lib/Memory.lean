import Mathlib.Data.BitVec

/-! Memory with addresses of `w` bits, which wrap. An address is placed by its distance from
the start of a range, so no range has to end before the last address. -/
namespace TcpChat

def Memory (w : Nat) (β : Type) : Type := BitVec w → β

namespace Memory
variable {w : Nat} {β : Type}

/-- The `n` cells from `p` on. -/
def load (m : Memory w β) (p : BitVec w) (n : Nat) : List β :=
  (List.range n).map fun i => m (p + BitVec.ofNat w i)

def store (m : Memory w β) (p : BitVec w) (bs : List β) : Memory w β := fun a =>
  (bs[(a - p).toNat]?).getD (m a)

@[simp] theorem length_load (m : Memory w β) (p : BitVec w) (n : Nat) : (m.load p n).length = n := by
  simp [load]

@[simp] theorem load_zero (m : Memory w β) (p : BitVec w) : m.load p 0 = [] := rfl

@[simp] theorem store_nil (m : Memory w β) (p : BitVec w) : m.store p [] = m := rfl

theorem load_add (m : Memory w β) (p : BitVec w) (j k : Nat) :
    m.load p (j + k) = m.load p j ++ m.load (p + BitVec.ofNat w j) k := by
  simp [load, List.range_add, BitVec.ofNat_add, BitVec.add_assoc]

theorem load_take (m : Memory w β) (p : BitVec w) (j n : Nat) :
    (m.load p n).take j = m.load p (min j n) := by
  simp [load, ← List.map_take, List.take_range]

theorem load_drop (m : Memory w β) (p : BitVec w) (j n : Nat) :
    (m.load p n).drop j = m.load (p + BitVec.ofNat w (min j n)) (n - min j n) := by
  have split := m.load_add p (min j n) (n - min j n)
  rw [Nat.add_sub_cancel' (Nat.min_le_right j n), ← load_take] at split
  exact List.append_cancel_left ((List.take_append_drop j _).trans split)

theorem store_outside (m : Memory w β) {p a : BitVec w} {bs : List β}
    (outside : bs.length ≤ (a - p).toNat) : m.store p bs a = m a := by
  rw [store, List.getElem?_eq_none outside, Option.getD_none]

theorem toNat_offset {k : Nat} (small : k < 2 ^ w) : (BitVec.ofNat w k).toNat = k := by
  rw [BitVec.toNat_ofNat, Nat.mod_eq_of_lt small]

theorem toNat_sub_offset {d : BitVec w} {k : Nat} (within : k ≤ d.toNat) :
    (d - BitVec.ofNat w k).toNat = d.toNat - k := by
  have step := toNat_offset (Nat.lt_of_le_of_lt within d.isLt)
  have le : BitVec.ofNat w k ≤ d := by
    rw [BitVec.le_def, step]
    exact within
  rw [BitVec.toNat_sub_of_le le, step]

/-- The distance from a start that has moved on by `k`: less by that, or wrapped where the start
has passed the address. -/
theorem distance_add {d : BitVec w} {k : Nat} (small : k < 2 ^ w) :
    (d - BitVec.ofNat w k).toNat = if k ≤ d.toNat then d.toNat - k else 2 ^ w - (k - d.toNat) := by
  by_cases behind : k ≤ d.toNat
  · rw [if_pos behind, toNat_sub_offset behind]
  · have step := toNat_offset small
    have lt : d < BitVec.ofNat w k := by rw [BitVec.lt_def, step]; omega
    rw [if_neg behind, BitVec.toNat_sub_of_lt lt, step]

/-- A store right behind another one, as long as it does not come round to the first. -/
theorem store_append (m : Memory w β) (p : BitVec w) {bs cs : List β}
    (fits : bs.length + cs.length ≤ 2 ^ w) :
    (m.store p bs).store (p + BitVec.ofNat w bs.length) cs = m.store p (bs ++ cs) := by
  by_cases full : bs.length = 2 ^ w
  · have none : cs = [] := List.eq_nil_of_length_eq_zero (by omega)
    rw [none, store_nil, List.append_nil]
  · funext a
    have small : bs.length < 2 ^ w := by omega
    have range := (a - p).isLt
    have later := distance_add (d := a - p) small
    rw [BitVec.sub_sub] at later
    simp only [store, later]
    by_cases behind : bs.length ≤ (a - p).toNat
    · rw [if_pos behind, List.getElem?_append_right behind, List.getElem?_eq_none behind,
        Option.getD_none]
    · have far : cs.length ≤ 2 ^ w - (bs.length - (a - p).toNat) := by omega
      rw [if_neg behind, List.getElem?_eq_none far, Option.getD_none,
        List.getElem?_append_left (Nat.lt_of_not_le behind)]

theorem load_store (m : Memory w β) (p : BitVec w) {bs : List β} (fits : bs.length ≤ 2 ^ w) :
    (m.store p bs).load p bs.length = bs := by
  apply List.ext_getElem
  · exact length_load _ _ _
  · intro i _ inside
    have near : (p + BitVec.ofNat w i - p).toNat = i := by
      rw [BitVec.add_comm, BitVec.add_sub_cancel, toNat_offset (by omega)]
    simp only [load, store, List.getElem_map, List.getElem_range, near,
      List.getElem?_eq_getElem inside, Option.getD_some]

end Memory
end TcpChat
