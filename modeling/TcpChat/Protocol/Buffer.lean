import TcpChat.Lib.Cells
import TcpChat.Lib.Framing
import TcpChat.Net.Io

/-! protocol_buffer.cpp: a fixed array of bytes, of which the first `size_` are live.
The member functions are programs on the buffer. -/
namespace TcpChat

def bufferSize : Nat := 1024

structure Buffer where
  buffer : Cells Byte bufferSize
  size_ : Int
  deriving DecidableEq

namespace Buffer

def content (b : Buffer) : List Byte := b.buffer.toList.take b.size_.toNat

def Valid (b : Buffer) : Prop := 0 ≤ b.size_ ∧ b.size_ ≤ bufferSize

def capacity (_ : Buffer) : Int := bufferSize
def size (b : Buffer) : Int := b.size_
def freeSpace (b : Buffer) : Int := b.capacity - b.size_
def isEmpty (b : Buffer) : Bool := b.size_ = 0
def isFull (b : Buffer) : Bool := b.size_ = b.capacity

/-- `Buffer buffer {}`: value-initialised, so the array is zeroed first. -/
def empty : Buffer := ⟨Cells.fill bufferSize 0, 0⟩

/-- Memory for a buffer, all zero. -/
def zeroed : Cells Byte bufferSize := Cells.fill bufferSize 0

/-- The move constructor, into memory that still holds `storage`: only the live bytes are
copied, and the other buffer is left empty. -/
def moveConstruct (storage : Cells Byte bufferSize) (other : Buffer) : Buffer × Buffer :=
  (⟨storage.write 0 (other.buffer.read 0 other.size_.toNat), other.size_⟩, { other with size_ := 0 })

/-- A caller's raw write through `data() + offset`. -/
def writeAt (b : Buffer) (offset : Nat) (bytes : List Byte) : Buffer :=
  { b with buffer := b.buffer.write offset bytes }

def increaseSize (n : Int) : Program Buffer Event Exn Unit := do
  let b ← Program.get
  if n > b.freeSpace then
    Program.throw (.lengthError "Buffer::increase_size(): not enough free space")
  else Program.modify fun b => { b with size_ := b.size_ + n }

def compact (len : Int) : Program Buffer Event Exn Unit := do
  let b ← Program.get
  if len < 0 then
    Program.throw (.invalidArgument "Buffer::compact(): len must be non-negative")
  else if len > b.size_ then Program.modify fun b => { b with size_ := 0 }
  else Program.modify fun b =>
    { buffer := b.buffer.write 0 (b.buffer.read len.toNat (b.size_ - len).toNat)
      size_ := b.size_ - len }

def findDelim (b : Buffer) (delim : Byte) : Int :=
  match b.content.findIdx? (· == delim) with
  | some i => i
  | none => -1

def consumeOnce (delim : Byte) : Program Buffer Event Exn (List Byte) := do
  let b ← Program.get
  if b.findDelim delim < 0 then pure []
  else do
    let len := b.findDelim delim + 1
    compact len
    pure (b.buffer.read 0 len.toNat)

/-- The `while` of `consume_full`. The fuel is more than the size, and each turn that goes on
takes at least one byte; `consumeFull_spec` shows that the loop ends by its own test. -/
def consumeFullLoop (delim : Byte) : Nat → List Byte → Program Buffer Event Exn (List Byte)
  | 0, result => pure result
  | fuel + 1, result => do
    let chunk ← consumeOnce delim
    if chunk = [] then pure result else consumeFullLoop delim fuel (result ++ chunk)

def consumeFull (delim : Byte) : Program Buffer Event Exn (List Byte) := do
  let b ← Program.get
  consumeFullLoop delim (b.size_.toNat + 1) []

/-- The `while` of `consume_full(fd, delim)`, with the kernel's answers to its writes. -/
def consumeFullFdLoop (fd : Fd) (delim : Byte) :
    Nat → List WriteAnswer → Program Buffer Event Exn (List WriteAnswer)
  | 0, answers => pure answers
  | fuel + 1, answers => do
    let b ← Program.get
    if b.findDelim delim ≥ 0 then do
      let len := b.findDelim delim + 1
      let rest ← writeFull fd (b.buffer.read 0 len.toNat) answers
      compact len
      consumeFullFdLoop fd delim fuel rest
    else pure answers

def consumeFullFd (fd : Fd) (delim : Byte) (answers : List WriteAnswer) :
    Program Buffer Event Exn (List WriteAnswer) := do
  let b ← Program.get
  consumeFullFdLoop fd delim (b.size_.toNat + 1) answers

/-! What the operations do to the live bytes. -/

theorem content_empty : empty.content = [] := rfl

theorem valid_empty : empty.Valid := ⟨by decide, by decide⟩

theorem length_content {b : Buffer} (valid : b.Valid) : (b.content.length : Int) = b.size_ := by
  simp only [content, List.length_take, Cells.length_toList]
  obtain ⟨lo, hi⟩ := valid
  omega

theorem size_toNat {b : Buffer} (valid : b.Valid) : b.size_.toNat = b.content.length := by
  have := length_content valid
  omega

theorem length_content_le (b : Buffer) : b.content.length ≤ bufferSize := by
  simp only [content, List.length_take, Cells.length_toList]
  omega

theorem freeSpace_toNat {b : Buffer} (valid : b.Valid) :
    b.freeSpace.toNat = bufferSize - b.content.length := by
  have := length_content valid
  simp only [freeSpace, capacity]
  omega

theorem freeSpace_nonneg {b : Buffer} (valid : b.Valid) : 0 ≤ b.freeSpace := by
  simp only [freeSpace, capacity]
  have := valid.2
  omega

theorem writeAt_nil (b : Buffer) (offset : Nat) : b.writeAt offset [] = b := by
  simp [writeAt, Cells.write_nil]

theorem increaseSize_of_le {b : Buffer} {n : Int} (fits : n ≤ b.freeSpace) :
    increaseSize n b = ⟨{ b with size_ := b.size_ + n }, [], .returned ()⟩ := by
  have enough : ¬ n > b.freeSpace := by omega
  simp [increaseSize, enough]

theorem increaseSize_of_gt {b : Buffer} {n : Int} (full : n > b.freeSpace) :
    increaseSize n b =
      ⟨b, [], .thrown (.lengthError "Buffer::increase_size(): not enough free space")⟩ := by
  simp [increaseSize, full]

/-- A raw write at `offset` that is then counted: the live bytes are the first
`size_ + |bytes|` of the array. -/
theorem receive_at {b : Buffer} (valid : b.Valid) (offset : Nat) {bytes : List Byte}
    (fits : bytes.length ≤ b.freeSpace.toNat) :
    ∃ b', increaseSize bytes.length (b.writeAt offset bytes) = ⟨b', [], .returned ()⟩ ∧
      b'.Valid ∧
      b'.content = (b.buffer.write offset bytes).toList.take (b.size_.toNat + bytes.length) := by
  have room := freeSpace_nonneg valid
  have enough : (bytes.length : Int) ≤ (b.writeAt offset bytes).freeSpace := by
    change (bytes.length : Int) ≤ b.freeSpace
    omega
  refine ⟨_, increaseSize_of_le enough, ?_, ?_⟩
  · obtain ⟨lo, hi⟩ := valid
    simp only [freeSpace, capacity, writeAt] at enough
    constructor
    · simp only [writeAt]; omega
    · simp only [writeAt]; omega
  · have total : (b.size_ + bytes.length).toNat = b.size_.toNat + bytes.length := by
      have := valid.1
      omega
    simp only [content, writeAt, total]

theorem receive_room {b : Buffer} (valid : b.Valid) {k : Nat} (fits : k ≤ b.freeSpace.toNat) :
    b.size_.toNat + k ≤ bufferSize := by
  have size := size_toNat valid
  have bound := length_content_le b
  rw [freeSpace_toNat valid] at fits
  omega

theorem receive_behind {b : Buffer} (valid : b.Valid) {bytes : List Byte}
    (fits : bytes.length ≤ b.freeSpace.toNat) :
    ∃ b', increaseSize bytes.length (b.writeAt b.size_.toNat bytes) = ⟨b', [], .returned ()⟩ ∧
      b'.Valid ∧ b'.content = b.content ++ bytes := by
  obtain ⟨b', eq, valid', live⟩ := receive_at valid b.size_.toNat fits
  exact ⟨b', eq, valid', live.trans (Cells.take_write_behind (receive_room valid fits))⟩

/-- Until it is counted, a write behind the live bytes is none of them. -/
theorem content_writeAt_behind {b : Buffer} (valid : b.Valid) {bytes : List Byte}
    (fits : bytes.length ≤ b.freeSpace.toNat) :
    (b.writeAt b.size_.toNat bytes).content = b.content := by
  have live := Cells.take_write_behind (m := b.buffer) (receive_room valid fits)
  have cut := congrArg (List.take b.size_.toNat) live
  rw [List.take_take, Nat.min_eq_left (Nat.le_add_right _ _)] at cut
  have size := size_toNat valid
  calc (b.writeAt b.size_.toNat bytes).content
      = (b.buffer.toList.take b.size_.toNat ++ bytes).take b.size_.toNat := cut
    _ = (b.content ++ bytes).take b.content.length :=
      congrArg (fun n => List.take n (b.content ++ bytes)) size
    _ = b.content := List.take_left

/-- The server reads to `data()`: the live bytes are then the new ones and whatever stands
behind them in the array. -/
theorem receive_front {b : Buffer} (valid : b.Valid) {bytes : List Byte}
    (fits : bytes.length ≤ b.freeSpace.toNat) :
    ∃ b', increaseSize bytes.length (b.writeAt 0 bytes) = ⟨b', [], .returned ()⟩ ∧
      b'.Valid ∧ b'.content = bytes ++ b.buffer.read bytes.length b.size_.toNat := by
  obtain ⟨b', eq, valid', live⟩ := receive_at valid 0 fits
  exact ⟨b', eq, valid', live.trans (Cells.take_write_front (receive_room valid fits))⟩

theorem findDelim_neg {b : Buffer} {delim : Byte} (absent : delim ∉ b.content) :
    b.findDelim delim = -1 := by
  have none : b.content.findIdx? (· == delim) = none := by
    rw [List.findIdx?_eq_none_iff]
    intro x member
    simpa using fun eq : x = delim => absent (eq ▸ member)
  simp only [findDelim, none]

theorem findDelim_of_mem {b : Buffer} {delim : Byte} (present : delim ∈ b.content) :
    b.findDelim delim + 1 = (Framing.first delim b.content).length := by
  cases found : b.content.findIdx? (· == delim) with
  | none => exact absurd present (Framing.not_mem_of_findIdx? found)
  | some i =>
    obtain ⟨inside, _⟩ := List.findIdx?_eq_some_iff_getElem.mp found
    simp only [findDelim, found, Framing.first_eq_take found, List.length_take]
    omega

theorem compact_spec {b : Buffer} (valid : b.Valid) {len : Nat} (bound : len ≤ b.content.length) :
    ∃ b', compact len b = ⟨b', [], .returned ()⟩ ∧ b'.Valid ∧
      b'.content = b.content.drop len := by
  have size := length_content valid
  have short : ¬ (len : Int) > b.size_ := by omega
  have positive : ¬ (len : Int) < 0 := by omega
  refine ⟨⟨b.buffer.write 0 (b.buffer.read len (b.size_ - len).toNat), b.size_ - len⟩, ?_, ?_, ?_⟩
  · simp only [compact, Program.bind_apply, Program.get_apply, Program.andThen_returned,
      Program.ite_apply, if_neg short, if_neg positive, Program.modify_apply, List.nil_append,
      Int.toNat_natCast]
  · obtain ⟨lo, hi⟩ := valid
    constructor
    · dsimp only; omega
    · dsimp only; omega
  · have inside : len + (b.size_ - len).toNat ≤ bufferSize := by
      have := valid.2
      omega
    have whole : len + (b.size_ - len).toNat = b.size_.toNat := by omega
    have moved := Cells.take_move_front (m := b.buffer) inside
    rw [whole] at moved
    exact moved

theorem read_front {b : Buffer} (valid : b.Valid) {len : Nat} (bound : len ≤ b.content.length) :
    b.buffer.read 0 len = b.content.take len := by
  rw [size_toNat valid |>.symm] at bound
  simp only [Cells.read, content, List.drop_zero, List.take_take, Nat.min_eq_left bound]

theorem length_first_le (delim : Byte) (b : Buffer) :
    (Framing.first delim b.content).length ≤ b.content.length := by
  have whole := congrArg List.length (Framing.first_append_drop_complete delim b.content)
  have bound := (Framing.complete_initial delim b.content).length_le
  rw [List.length_append] at whole
  omega

theorem take_first_spec {b : Buffer} (valid : b.Valid) {delim : Byte}
    (present : delim ∈ b.content) :
    ∃ b', compact (b.findDelim delim + 1) b = ⟨b', [], .returned ()⟩ ∧ b'.Valid ∧
      b'.content = b.content.drop (Framing.first delim b.content).length ∧
      b.buffer.read 0 (b.findDelim delim + 1).toNat = Framing.first delim b.content ∧
      ¬ b.findDelim delim < 0 := by
  have len := findDelim_of_mem present
  have bound := length_first_le delim b
  obtain ⟨b', eq, valid', live⟩ := compact_spec valid bound
  refine ⟨b', by rw [len]; exact eq, valid', live, ?_, ?_⟩
  · rw [len, Int.toNat_natCast, read_front valid bound, Framing.take_length_first]
  · have positive := List.length_pos_iff.mpr
      (fun empty => (Framing.first_eq_nil_iff delim b.content).mp empty present)
    omega

theorem consumeOnce_spec {b : Buffer} (valid : b.Valid) (delim : Byte) :
    ∃ b', consumeOnce delim b = ⟨b', [], .returned (Framing.first delim b.content)⟩ ∧
      b'.Valid ∧ b'.content = b.content.drop (Framing.first delim b.content).length := by
  by_cases present : delim ∈ b.content
  · obtain ⟨b', eq, valid', live, bytes, found⟩ := take_first_spec valid present
    refine ⟨b', ?_, valid', live⟩
    simp [consumeOnce, found, eq, bytes]
  · have none := (Framing.first_eq_nil_iff delim b.content).mpr present
    refine ⟨b, ?_, valid, by simp [none]⟩
    simp [consumeOnce, findDelim_neg present, none]

theorem consumeFullLoop_spec (delim : Byte) (fuel : Nat) :
    ∀ (b : Buffer) (result : List Byte), b.Valid → b.content.length < fuel →
    ∃ b', consumeFullLoop delim fuel result b =
        ⟨b', [], .returned (result ++ Framing.complete delim b.content)⟩ ∧
      b'.Valid ∧ b'.content = Framing.residue delim b.content := by
  induction fuel with
  | zero => intro b result _ short; omega
  | succ fuel ih =>
    intro b result valid enough
    obtain ⟨b', eq, valid', live⟩ := consumeOnce_spec valid delim
    by_cases present : delim ∈ b.content
    · have taken : Framing.first delim b.content ≠ [] :=
        fun empty => (Framing.first_eq_nil_iff delim b.content).mp empty present
      have positive := List.length_pos_iff.mpr taken
      have fewer : b'.content.length < fuel := by
        rw [live, List.length_drop]
        have := length_first_le delim b
        omega
      obtain ⟨b'', eq', valid'', live'⟩ :=
        ih b' (result ++ Framing.first delim b.content) valid' fewer
      refine ⟨b'', ?_, valid'', ?_⟩
      · simp [consumeFullLoop, eq, taken, eq', live,
          Framing.complete_eq_first_append present]
      · rw [live', live, Framing.residue_drop_first present]
    · have none := (Framing.first_eq_nil_iff delim b.content).mpr present
      refine ⟨b', ?_, valid', ?_⟩
      · simp [consumeFullLoop, eq, none, Framing.complete_of_not_mem present]
      · rw [live, none, Framing.residue_of_not_mem present]
        simp

/-- `consume_full` returns the longest prefix that ends in the delimiter and keeps the rest. -/
theorem consumeFull_spec {b : Buffer} (valid : b.Valid) (delim : Byte) :
    ∃ b', consumeFull delim b = ⟨b', [], .returned (Framing.complete delim b.content)⟩ ∧
      b'.Valid ∧ b'.content = Framing.residue delim b.content := by
  have fuel : b.content.length < b.size_.toNat + 1 := by
    rw [size_toNat valid]
    exact Nat.lt_succ_self _
  obtain ⟨b', eq, valid', live⟩ := consumeFullLoop_spec delim _ b [] valid fuel
  exact ⟨b', by simp [consumeFull, eq], valid', live⟩

/-- The same for the loop that writes each frame to a descriptor. Where a write does not go
through, the frame it was about is still in the buffer. -/
theorem consumeFullFdLoop_spec (fd : Fd) (delim : Byte) (fuel : Nat) :
    ∀ (b : Buffer) (answers : List WriteAnswer), b.Valid → b.content.length < fuel →
    ∃ b' log, b'.Valid ∧ OnlyWrites fd log ∧
      ((∃ rest, carryEach (Framing.frames delim b.content) answers = some rest ∧
          consumeFullFdLoop fd delim fuel answers b = ⟨b', log, .returned rest⟩ ∧
          sent fd log = Framing.complete delim b.content ∧
          b'.content = Framing.residue delim b.content) ∨
        (carryEach (Framing.frames delim b.content) answers = none ∧
          Framing.CutOff delim b.content (sent fd log) b'.content ∧
          (consumeFullFdLoop fd delim fuel answers b = ⟨b', log, .blocked⟩ ∨
            ∃ errno, consumeFullFdLoop fd delim fuel answers b =
              ⟨b', log, .thrown (.systemError errno "write() failed")⟩))) := by
  induction fuel with
  | zero => intro b answers _ short; omega
  | succ fuel ih =>
    intro b answers valid enough
    by_cases present : delim ∈ b.content
    · obtain ⟨b₁, eq, valid₁, live, bytes, found⟩ := take_first_spec valid present
      have go_on : b.findDelim delim ≥ 0 := by omega
      have positive := List.length_pos_iff.mpr
        (fun empty => (Framing.first_eq_nil_iff delim b.content).mp empty present)
      have fewer : b₁.content.length < fuel := by
        rw [live, List.length_drop]
        have := length_first_le delim b
        omega
      obtain ⟨log, only, written⟩ := writeFull_spec fd (Framing.first delim b.content) answers b
      have frames : carryEach (Framing.frames delim b.content) answers =
          (carry (Framing.first delim b.content).length answers).bind
            (carryEach (Framing.frames delim b₁.content)) := by
        rw [Framing.frames_eq_first_cons present, live]
        rfl
      rcases written with ⟨rest, carried, all, returned⟩ | ⟨short, part, proper, stopped⟩
      · rw [carried, Option.bind_some] at frames
        obtain ⟨b₂, log', valid₂, only', ends⟩ := ih b₁ rest valid₁ fewer
        refine ⟨b₂, log ++ log', valid₂, onlyWrites_append only only', ?_⟩
        rcases ends with ⟨rest', carried', eq', all', live'⟩ | ⟨short', cut, stopped⟩
        · refine .inl ⟨rest', frames.trans carried', ?_, ?_, ?_⟩
          · simp [consumeFullFdLoop, go_on, bytes, returned, eq, eq']
          · rw [sent_append, all, all', live, Framing.complete_eq_first_append present]
          · rw [live', live, Framing.residue_drop_first present]
        · rw [live] at cut
          have later := Framing.cutOff_later present cut
          refine .inr ⟨frames.trans short', by rwa [sent_append, all], ?_⟩
          rcases stopped with stopped | ⟨errno, stopped⟩
          · exact .inl (by simp [consumeFullFdLoop, go_on, bytes, returned, eq, stopped])
          · exact .inr ⟨errno,
              by simp [consumeFullFdLoop, go_on, bytes, returned, eq, stopped]⟩
      · rw [short, Option.bind_none] at frames
        refine ⟨b, log, valid, only, .inr ⟨frames, Framing.cutOff_first present part proper, ?_⟩⟩
        rcases stopped with stopped | ⟨errno, stopped⟩
        · exact .inl (by simp [consumeFullFdLoop, go_on, bytes, stopped])
        · exact .inr ⟨errno, by simp [consumeFullFdLoop, go_on, bytes, stopped]⟩
    · refine ⟨b, [], valid, by simp [OnlyWrites], .inl ⟨answers, ?_, ?_, ?_, ?_⟩⟩
      · rw [(Framing.frames_eq_nil_iff delim b.content).mpr present]
        rfl
      · simp [consumeFullFdLoop, findDelim_neg present]
      · rw [Framing.complete_of_not_mem present]; rfl
      · rw [Framing.residue_of_not_mem present]

theorem consumeFullFd_spec (fd : Fd) {b : Buffer} (valid : b.Valid) (delim : Byte)
    (answers : List WriteAnswer) :
    ∃ b' log, b'.Valid ∧ OnlyWrites fd log ∧
      ((∃ rest, carryEach (Framing.frames delim b.content) answers = some rest ∧
          consumeFullFd fd delim answers b = ⟨b', log, .returned rest⟩ ∧
          sent fd log = Framing.complete delim b.content ∧
          b'.content = Framing.residue delim b.content) ∨
        (carryEach (Framing.frames delim b.content) answers = none ∧
          Framing.CutOff delim b.content (sent fd log) b'.content ∧
          (consumeFullFd fd delim answers b = ⟨b', log, .blocked⟩ ∨
            ∃ errno, consumeFullFd fd delim answers b =
              ⟨b', log, .thrown (.systemError errno "write() failed")⟩))) := by
  have fuel : b.content.length < b.size_.toNat + 1 := by
    rw [size_toNat valid]
    exact Nat.lt_succ_self _
  obtain ⟨b', log, valid', only, ends⟩ := consumeFullFdLoop_spec fd delim _ b answers valid fuel
  refine ⟨b', log, valid', only, ?_⟩
  simpa [consumeFullFd] using ends

end Buffer
end TcpChat
