import TcpChat.Protocol.Objects

/-! The sizes of the buffer objects. One member function can leave the range: `increase_size`
looks at `free_space()` only, and a negative `n` passes. -/
namespace TcpChat.Buffer
open Machine

structure InRange (b : Buffer) : Prop where
  size_nonneg : 0 ≤ b.size
  size_le : b.size ≤ b.capacity
  free_nonneg : 0 ≤ b.freeSpace
  free_le : b.freeSpace ≤ b.capacity

theorem inRange_iff_valid (b : Buffer) : b.InRange ↔ b.Valid := by
  constructor
  · intro h
    exact ⟨h.size_nonneg, h.size_le⟩
  · intro ⟨lo, hi⟩
    constructor
    · exact lo
    · exact hi
    · simp only [freeSpace, capacity]; omega
    · simp only [freeSpace, capacity]; omega

/-- The calls whose `int` argument would take the size out of range. -/
def Leaves (b : Buffer) : Method → Prop
  | .append _ len => ¬ (0 ≤ len.toInt ∧ b.size + len.toInt ≤ b.capacity)
  | .increaseSize n => ¬ (0 ≤ b.size + n.toInt ∧ b.size + n.toInt ≤ b.capacity)
  | _ => False

/-- After the call every size is in range, nothing in it was undefined, and where its argument
would have left the range it threw and changed nothing. -/
structure Kept (s : List Buffer) (call : Call) : Prop where
  inRange : ∀ b ∈ (step s call).1, b.InRange
  isDefined : ∀ r ∈ (step s call).2, r.answer ≠ .undefined
  refused : ∀ i m, call = .method i m → ∀ b, s[i]? = some b → b.Leaves m →
    (step s call).1 = s ∧ ∃ x, (step s call).2 = [⟨call, .thrown x⟩]

/-- `increase_size` is not called with less than `-size()`. -/
def NotBelow (s : List Buffer) (call : Call) : Prop :=
  match call with
  | .method i (.increaseSize n) => ∀ b ∈ s[i]?, 0 ≤ b.size + n.toInt
  | _ => True

/-- One member function on a size in range. -/
structure Stays (m : Method) (b : Buffer) : Prop where
  valid : (m.run b).state.Valid
  isDefined : (m.run b).outcome ≠ .undefined
  refused : b.Leaves m → (m.run b).state = b ∧ ∃ x, (m.run b).outcome = .thrown x

theorem stays_append {b : Buffer} (valid : b.Valid) (other : Nat → Byte) (len : Int32) :
    Stays (.append other len) b := by
  by_cases fits : 0 ≤ len.toInt ∧ len.toInt ≤ b.freeSpace
  · obtain ⟨b', eq, valid', _⟩ := append_accepted valid other fits.1 fits.2
    have run : (Method.append other len).run b = ⟨b', [], .returned []⟩ := by
      simp [Method.run, eq]
    refine ⟨by rw [run]; exact valid', by rw [run]; simp, fun leaves => ?_⟩
    refine absurd ⟨fits.1, ?_⟩ leaves
    have := fits.2
    simp only [freeSpace] at this
    simp only [size]
    omega
  · have wrong : len.toInt < 0 ∨ b.freeSpace < len.toInt := by omega
    obtain ⟨x, eq⟩ := append_refused valid other wrong
    have run : (Method.append other len).run b = ⟨b, [], .thrown x⟩ := by
      simp [Method.run, eq]
    exact ⟨by rw [run]; exact valid, by rw [run]; simp, fun _ => by rw [run]; exact ⟨rfl, x, rfl⟩⟩

theorem stays_increaseSize {b : Buffer} (valid : b.Valid) {n : Int32}
    (above : 0 ≤ b.size + n.toInt) : Stays (.increaseSize n) b := by
  have same := Checked.increaseSize_eq valid above
  by_cases full : n.toInt > b.freeSpace
  · rw [increaseSize_of_gt full] at same
    have run : (Method.increaseSize n).run b = ⟨b, [], .thrown
        (.lengthError "Buffer::increase_size(): not enough free space")⟩ := by
      simp [Method.run, same]
    exact ⟨by rw [run]; exact valid, by rw [run]; simp,
      fun _ => by rw [run]; exact ⟨rfl, _, rfl⟩⟩
  · rw [increaseSize_of_le (by omega)] at same
    have run : (Method.increaseSize n).run b =
        ⟨{ b with size_ := b.size_ + n.toInt }, [], .returned []⟩ := by
      simp [Method.run, same]
    simp only [freeSpace] at full
    refine ⟨?_, by rw [run]; simp, fun leaves => ?_⟩
    · rw [run]
      simp only [capacity] at full
      exact ⟨above, by dsimp only; omega⟩
    · refine absurd ⟨above, ?_⟩ leaves
      simp only [size]
      omega

theorem stays_receive {b : Buffer} (valid : b.Valid) (bytes : List Byte) :
    Stays (.receive bytes) b := by
  by_cases fits : bytes.length ≤ b.freeSpace.toNat
  · obtain ⟨b', run, valid', _⟩ := receive_accepted valid fits
    exact ⟨by rw [run]; exact valid', by rw [run]; simp, fun h => h.elim⟩
  · obtain ⟨b', x, run, valid', _⟩ := receive_refused valid (Nat.lt_of_not_le fits)
    exact ⟨by rw [run]; exact valid', by rw [run]; simp, fun h => h.elim⟩

theorem stays_consumeOnceFd {b : Buffer} (valid : b.Valid) (fd : Fd) (delim : Byte)
    (answers : List WriteAnswer) : Stays (.consumeOnceFd fd delim answers) b := by
  by_cases found : b.findDelim delim < 0
  · have stop : ¬ b.findDelim delim ≥ 0 := by omega
    have run : (Method.consumeOnceFd fd delim answers).run b = ⟨b, [], .returned []⟩ := by
      simp [Method.run, Checked.consumeOnceFd, Checked.findDelim_eq valid, stop]
    exact ⟨by rw [run]; exact valid, by rw [run]; simp, fun h => h.elim⟩
  · have go_on : b.findDelim delim ≥ 0 := by omega
    have present : delim ∈ b.content := Decidable.byContradiction fun absent =>
      found (by rw [findDelim_neg absent]; decide)
    obtain ⟨b', dropped, valid', _⟩ := take_first_spec valid present
    obtain ⟨inside, len⟩ := Checked.line_inside found
    obtain ⟨log, _, written⟩ := writeFull_spec fd
      (b.buffer.read 0 (b.findDelim delim + 1).toNat) answers b
    rcases written with ⟨rest, _, _, returned⟩ | ⟨_, _, _, stuck | ⟨errno, stuck⟩⟩
    · have run : (Method.consumeOnceFd fd delim answers).run b = ⟨b', log, .returned []⟩ := by
        simp [Method.run, Checked.consumeOnceFd, Checked.findDelim_eq valid, go_on, len,
          Checked.load_eq inside, returned, Checked.compact_eq valid, dropped]
      exact ⟨by rw [run]; exact valid', by rw [run]; simp, fun h => h.elim⟩
    · have run : (Method.consumeOnceFd fd delim answers).run b = ⟨b, log, .blocked⟩ := by
        simp [Method.run, Checked.consumeOnceFd, Checked.findDelim_eq valid, go_on, len,
          Checked.load_eq inside, stuck]
      exact ⟨by rw [run]; exact valid, by rw [run]; simp, fun h => h.elim⟩
    · have run : (Method.consumeOnceFd fd delim answers).run b =
          ⟨b, log, .thrown (.systemError errno "write() failed")⟩ := by
        simp [Method.run, Checked.consumeOnceFd, Checked.findDelim_eq valid, go_on, len,
          Checked.load_eq inside, stuck]
      exact ⟨by rw [run]; exact valid, by rw [run]; simp, fun h => h.elim⟩

theorem stays_consumeFullFd {b : Buffer} (valid : b.Valid) (fd : Fd) (delim : Byte)
    (answers : List WriteAnswer) : Stays (.consumeFullFd fd delim answers) b := by
  have same := Checked.consumeFullFd_eq fd valid delim answers
  obtain ⟨b', log, valid', _, ends⟩ := consumeFullFd_spec fd valid delim answers
  rcases ends with ⟨rest, _, eq, _⟩ | ⟨_, _, eq | ⟨errno, eq⟩⟩
  · have run : (Method.consumeFullFd fd delim answers).run b = ⟨b', log, .returned []⟩ := by
      simp [Method.run, same, eq]
    exact ⟨by rw [run]; exact valid', by rw [run]; simp, fun h => h.elim⟩
  · have run : (Method.consumeFullFd fd delim answers).run b = ⟨b', log, .blocked⟩ := by
      simp [Method.run, same, eq]
    exact ⟨by rw [run]; exact valid', by rw [run]; simp, fun h => h.elim⟩
  · have run : (Method.consumeFullFd fd delim answers).run b =
        ⟨b', log, .thrown (.systemError errno "write() failed")⟩ := by
      simp [Method.run, same, eq]
    exact ⟨by rw [run]; exact valid', by rw [run]; simp, fun h => h.elim⟩

theorem valid_moved {other : Buffer} : ({ other with size_ := 0 } : Buffer).Valid :=
  ⟨Int.le_refl 0, by simp⟩

theorem stays {b : Buffer} (valid : b.Valid) (m : Method)
    (above : ∀ n, m = .increaseSize n → 0 ≤ b.size + n.toInt) : Stays m b := by
  cases m with
  | append other len => exact stays_append valid other len
  | increaseSize n => exact stays_increaseSize valid (above n rfl)
  | receive bytes => exact stays_receive valid bytes
  | consumeOnce delim =>
    obtain ⟨b', eq, valid', _⟩ := consumeOnce_spec valid delim
    have run : (Method.consumeOnce delim).run b = _ := (Checked.consumeOnce_eq valid delim).trans eq
    exact ⟨by rw [run]; exact valid', by rw [run]; simp, fun h => h.elim⟩
  | consumeFull delim =>
    obtain ⟨b', eq, valid', _⟩ := consumeFull_spec valid delim
    have run : (Method.consumeFull delim).run b = _ := (Checked.consumeFull_eq valid delim).trans eq
    exact ⟨by rw [run]; exact valid', by rw [run]; simp, fun h => h.elim⟩
  | consumeOnceFd fd delim answers => exact stays_consumeOnceFd valid fd delim answers
  | consumeFullFd fd delim answers => exact stays_consumeFullFd valid fd delim answers
  | clear =>
    have run : Method.clear.run b = ⟨{ b with size_ := 0 }, [], .returned []⟩ := by
      simp [Method.run, Checked.clear, Checked.setSize]
    exact ⟨by rw [run]; exact valid_moved, by rw [run]; simp, fun h => h.elim⟩

theorem valid_set {s : List Buffer} (valid : ∀ b ∈ s, b.Valid) {i : Nat} {b : Buffer}
    (new : b.Valid) : ∀ b' ∈ s.set i b, b'.Valid := by
  intro b' member
  rcases List.mem_or_eq_of_mem_set member with old | rfl
  · exact valid b' old
  · exact new

theorem valid_concat {s : List Buffer} (valid : ∀ b ∈ s, b.Valid) {b : Buffer} (new : b.Valid) :
    ∀ b' ∈ s ++ [b], b'.Valid := by
  intro b' member
  rcases List.mem_append.mp member with old | here
  · exact valid b' old
  · exact List.mem_singleton.mp here ▸ new

theorem kept_of_effect {s s' : List Buffer} {call : Call} {log : List Record}
    (effect : Effect s call s' log) (next : step s call = (s', log)) (valid : ∀ b ∈ s, b.Valid)
    (above : NotBelow s call) : Kept s call := by
  have easy (valid' : ∀ b ∈ s', b.Valid) (log' : ∀ r ∈ log, r.answer ≠ .undefined)
      (unasked : ∀ i m, call = .method i m → s[i]? = none) : Kept s call := by
    refine ⟨?_, ?_, fun i m eq b found => ?_⟩
    · rw [next]
      exact fun b member => (inRange_iff_valid b).mpr (valid' b member)
    · rw [next]
      exact log'
    · rw [unasked i m eq] at found
      cases found
  cases effect with
  | nobody call missing =>
    refine easy valid (by simp) fun i m eq => ?_
    obtain ⟨j, member, none⟩ := missing
    rw [eq, Call.objects, List.mem_singleton] at member
    rwa [member] at none
  | constructed storage =>
    exact easy (valid_concat valid ⟨Int.le_refl 0, by simp⟩) (by simp) (by simp)
  | called i m b found =>
    have one : Stays m b := by
      refine stays (valid b (List.mem_of_getElem? found)) m fun n same => ?_
      subst same
      exact above b found
    refine ⟨?_, ?_, fun j m' same b' here leaves => ?_⟩
    · rw [next]
      exact fun b' member => (inRange_iff_valid b').mpr (valid_set valid one.valid b' member)
    · rw [next]
      simpa using one.isDefined
    · cases same
      obtain rfl := Option.some.inj (found.symm.trans here)
      obtain ⟨unchanged, x, thrown⟩ := one.refused leaves
      obtain ⟨inside, rfl⟩ := List.getElem?_eq_some_iff.mp found
      rw [next, unchanged, thrown]
      exact ⟨List.set_getElem_self inside, x, rfl⟩
  | copied storage source other b found valid' =>
    exact easy (valid_concat valid valid') (by simp) (by simp)
  | moved storage source other b found valid' =>
    exact easy (valid_concat (valid_set valid valid_moved) valid') (by simp) (by simp)
  | copyAssigned target source other b distinct there found valid' =>
    exact easy (valid_set valid valid') (by simp) (by simp)
  | moveAssigned target source other b distinct there found valid' =>
    exact easy (valid_set (valid_set valid valid_moved) valid') (by simp) (by simp)
  | selfCopied | selfMoved => exact easy valid (by simp) (by simp)

/-- Below `-size()` the size is negative after the call. -/
theorem not_kept_of_below {s : List Buffer} (valid : ∀ b ∈ s, b.Valid) {i : Nat} {n : Int32}
    {b : Buffer} (found : s[i]? = some b) (below : b.size + n.toInt < 0) :
    ¬ Kept s (.method i (.increaseSize n)) := by
  intro kept
  have bounds := valid b (List.mem_of_getElem? found)
  obtain ⟨lo, hi⟩ := bounds
  simp only [size] at below
  have small := Int32.le_toInt n
  have isInt : Checked.IsInt (b.size_ + n.toInt) := ⟨by omega, by omega⟩
  have passes : ¬ n.toInt > b.freeSpace := by
    simp only [freeSpace, capacity]
    omega
  have run : (Method.increaseSize n).run b =
      ⟨{ b with size_ := b.size_ + n.toInt }, [], .returned []⟩ := by
    simp [Method.run, Checked.increaseSize, Checked.freeSpace_eq ⟨lo, hi⟩, passes, Checked.int,
      isInt, Checked.setSize]
  have inside := (List.getElem?_eq_some_iff.mp found).1
  have member : { b with size_ := b.size_ + n.toInt } ∈
      (step s (.method i (.increaseSize n))).1 := by
    simp only [step, found, run]
    exact List.mem_iff_getElem.mpr ⟨i, by simpa using inside, by simp⟩
  have negative : 0 ≤ b.size_ + n.toInt := (kept.inRange _ member).size_nonneg
  omega

theorem kept_iff_notBelow {s : List Buffer} (call : Call) (valid : ∀ b ∈ s, b.Valid) :
    Kept s call ↔ NotBelow s call := by
  constructor
  · intro kept
    cases call with
    | method i m =>
      cases m with
      | increaseSize n =>
        intro b found
        apply Decidable.byContradiction
        intro below
        exact not_kept_of_below valid found (by omega) kept
      | _ => trivial
    | _ => trivial
  · exact kept_of_effect (step_effect valid call) rfl valid

/-- For every sequence of calls: sizes stay in range, nothing is undefined, and calls that would
leave the range are refused, exactly where no `increase_size` takes more than there is. -/
theorem stays_in_range_iff (calls : List Call) :
    Along step Kept [] calls ↔ Along step NotBelow [] calls := by
  refine along_iff_along (I := fun s => ∀ b ∈ s, b.Valid) (fun s call valid =>
    kept_iff_notBelow call valid) (fun s call valid above => ?_) (by simp)
  have kept := (kept_iff_notBelow call valid).mpr above
  exact fun b member => (inRange_iff_valid b).mp (kept.inRange b member)

theorem negative_increase_accepted :
    ¬ Along step Kept [] [.construct zeroed, .method 0 (.increaseSize (-5))] := by
  intro ⟨_, kept, _⟩
  have valid : ∀ b ∈ (step [] (.construct zeroed)).1, b.Valid :=
    valid_concat (by simp) ⟨Int.le_refl 0, by simp⟩
  exact not_kept_of_below valid (b := ⟨zeroed, 0⟩) rfl (by decide) kept

end TcpChat.Buffer
