import TcpChat.Protocol.Buffer

/-! protocol_buffer.cpp with what C++ leaves undefined: an `int` result outside the type, and an
access outside the array. On sizes in range these functions are the plain ones, so the other
modules use those. -/
namespace TcpChat.Buffer.Checked

def IsInt (x : Int) : Prop := -2 ^ 31 ≤ x ∧ x < 2 ^ 31

/-- Cells from `offset` on. A negative length is a huge `size_t`. -/
def Inside (offset len : Int) : Prop := 0 ≤ offset ∧ 0 ≤ len ∧ offset + len ≤ bufferSize

instance (x : Int) : Decidable (IsInt x) := inferInstanceAs (Decidable (_ ∧ _))
instance (offset len : Int) : Decidable (Inside offset len) :=
  inferInstanceAs (Decidable (_ ∧ _ ∧ _))

def int (x : Int) : Program Buffer Event Exn Int :=
  if IsInt x then pure x else Program.undefined

def load (offset len : Int) : Program Buffer Event Exn (List Byte) := do
  let b ← Program.get
  if Inside offset len then pure (b.buffer.read offset.toNat len.toNat) else Program.undefined

def store (offset : Int) (bytes : List Byte) : Program Buffer Event Exn Unit :=
  if Inside offset bytes.length then Program.modify fun b => b.writeAt offset.toNat bytes
  else Program.undefined

def setSize (n : Int) : Program Buffer Event Exn Unit :=
  Program.modify fun b => { b with size_ := n }

def freeSpace : Program Buffer Event Exn Int := do
  let b ← Program.get
  int (b.capacity - b.size_)

def clear : Program Buffer Event Exn Unit := setSize 0

def increaseSize (n : Int) : Program Buffer Event Exn Unit := do
  let free ← freeSpace
  if n > free then
    Program.throw (.lengthError "Buffer::increase_size(): not enough free space")
  else do
    let b ← Program.get
    let size ← int (b.size_ + n)
    setSize size

/-- `other` is the caller's memory from the pointer on. -/
def append (other : Nat → Byte) (len : Int) : Program Buffer Event Exn Unit := do
  if len < 0 then
    Program.throw (.invalidArgument "Buffer::append(): len must be non-negative")
  else do
    let free ← freeSpace
    if len > free then
      Program.throw (.lengthError "Buffer::append(): not enough free space")
    else do
      let b ← Program.get
      store b.size_ ((List.range len.toNat).map other)
      let size ← int (b.size_ + len)
      setSize size

def compact (len : Int) : Program Buffer Event Exn Unit := do
  let b ← Program.get
  if len < 0 then
    Program.throw (.invalidArgument "Buffer::compact(): len must be non-negative")
  else if len > b.size_ then setSize 0
  else do
    let rest ← int (b.size_ - len)
    let moved ← load len rest
    store 0 moved
    setSize rest

/-- The `for` of `find_delim` from `i` on, with the turns that are left before `size_`. -/
def findDelimLoop (delim : Byte) : Nat → Int → Program Buffer Event Exn Int
  | 0, _ => pure (-1)
  | left + 1, i => do
    let cell ← load i 1
    if cell = [delim] then pure i else findDelimLoop delim left (i + 1)

def findDelim (delim : Byte) : Program Buffer Event Exn Int := do
  let b ← Program.get
  findDelimLoop delim b.size_.toNat 0

def consumeOnce (delim : Byte) : Program Buffer Event Exn (List Byte) := do
  let delimIdx ← findDelim delim
  if delimIdx < 0 then pure []
  else do
    let len ← int (delimIdx + 1)
    let result ← load 0 len
    compact len
    pure result

/-- Out of fuel is a loop that goes on; `consumeFull_eq` shows that it never comes to that. -/
def consumeFullLoop (delim : Byte) : Nat → List Byte → Program Buffer Event Exn (List Byte)
  | 0, _ => Program.block
  | fuel + 1, result => do
    let chunk ← consumeOnce delim
    if chunk = [] then pure result else consumeFullLoop delim fuel (result ++ chunk)

def consumeFull (delim : Byte) : Program Buffer Event Exn (List Byte) := do
  let b ← Program.get
  consumeFullLoop delim (b.size_.toNat + 1) []

def consumeOnceFd (fd : Fd) (delim : Byte) (answers : List WriteAnswer) :
    Program Buffer Event Exn (List WriteAnswer) := do
  let delimIdx ← findDelim delim
  if delimIdx ≥ 0 then do
    let len ← int (delimIdx + 1)
    let bytes ← load 0 len
    let rest ← writeFull fd bytes answers
    compact len
    pure rest
  else pure answers

def consumeFullFdLoop (fd : Fd) (delim : Byte) :
    Nat → List WriteAnswer → Program Buffer Event Exn (List WriteAnswer)
  | 0, _ => Program.block
  | fuel + 1, answers => do
    let delimIdx ← findDelim delim
    if delimIdx ≥ 0 then do
      let len ← int (delimIdx + 1)
      let bytes ← load 0 len
      let rest ← writeFull fd bytes answers
      compact len
      consumeFullFdLoop fd delim fuel rest
    else pure answers

def consumeFullFd (fd : Fd) (delim : Byte) (answers : List WriteAnswer) :
    Program Buffer Event Exn (List WriteAnswer) := do
  let b ← Program.get
  consumeFullFdLoop fd delim (b.size_.toNat + 1) answers

/-- What the copy and the move functions share: the live bytes of another buffer and its size. -/
def copyFrom (other : Buffer) : Program Buffer Event Exn Unit :=
  if Inside 0 other.size_ then
    Program.modify fun b => ⟨b.buffer.write 0 (other.buffer.read 0 other.size_.toNat), other.size_⟩
  else Program.undefined

/-! On sizes in range nothing is undefined. -/

theorem int_of_inside {x : Int} (lo : 0 ≤ x) (hi : x ≤ bufferSize) (b : Buffer) :
    int x b = ⟨b, [], .returned x⟩ := by
  have bound : IsInt x := by
    have : (bufferSize : Int) < 2 ^ 31 := by decide
    exact ⟨by omega, by omega⟩
  simp [int, bound]

theorem freeSpace_eq {b : Buffer} (valid : b.Valid) :
    freeSpace b = ⟨b, [], .returned b.freeSpace⟩ := by
  obtain ⟨lo, hi⟩ := valid
  have inside := int_of_inside (x := b.capacity - b.size_)
    (by simp only [capacity]; omega) (by simp only [capacity]; omega) b
  simp [freeSpace, inside, Buffer.freeSpace]

theorem load_eq {b : Buffer} {offset len : Int} (inside : Inside offset len) :
    load offset len b = ⟨b, [], .returned (b.buffer.read offset.toNat len.toNat)⟩ := by
  simp [load, inside]

theorem store_eq {b : Buffer} {offset : Int} {bytes : List Byte}
    (inside : Inside offset bytes.length) :
    store offset bytes b = ⟨b.writeAt offset.toNat bytes, [], .returned ()⟩ := by
  simp [store, inside]

theorem increaseSize_eq {b : Buffer} (valid : b.Valid) {n : Int} (above : 0 ≤ b.size_ + n) :
    increaseSize n b = Buffer.increaseSize n b := by
  by_cases full : n > b.freeSpace
  · simp [increaseSize, Buffer.increaseSize, freeSpace_eq valid, full]
  · have inside : b.size_ + n ≤ bufferSize := by
      simp only [Buffer.freeSpace, capacity] at full
      omega
    simp [increaseSize, Buffer.increaseSize, freeSpace_eq valid, full, int_of_inside above inside,
      setSize]

theorem compact_eq {b : Buffer} (valid : b.Valid) (len : Int) :
    compact len b = Buffer.compact len b := by
  obtain ⟨lo, hi⟩ := valid
  by_cases negative : len < 0
  · simp [compact, Buffer.compact, negative]
  · by_cases whole : len > b.size_
    · simp [compact, Buffer.compact, negative, whole, setSize]
    · have rest := int_of_inside (x := b.size_ - len) (by omega) (by omega) b
      have source : Inside len (b.size_ - len) := ⟨by omega, by omega, by omega⟩
      have target : Inside 0 (b.buffer.read len.toNat (b.size_ - len).toNat).length := by
        have short : (b.buffer.read len.toNat (b.size_ - len).toNat).length ≤
            (b.size_ - len).toNat := List.length_take_le _ _
        exact ⟨by omega, by omega, by omega⟩
      simp [compact, Buffer.compact, negative, whole, rest, load_eq source, store_eq target,
        setSize, writeAt]

theorem findDelimLoop_eq (delim : Byte) {b : Buffer} (valid : b.Valid) (left : Nat) :
    ∀ i : Nat, i + left = b.content.length →
      findDelimLoop delim left i b = ⟨b, [], .returned
        (((b.content.drop i).findIdx? (· == delim)).elim (-1) fun j => (i + j : Nat))⟩ := by
  induction left with
  | zero =>
    intro i last
    have nothing : b.content.drop i = [] := List.drop_of_length_le (by omega)
    simp [findDelimLoop, nothing]
  | succ left ih =>
    intro i last
    have bound := length_content_le b
    have here : i < b.content.length := by omega
    have inside : Inside i 1 := ⟨by omega, by omega, by omega⟩
    have cell : b.buffer.read i 1 = [b.content[i]] := by
      have live : i < b.size_.toNat := by rw [size_toNat valid]; exact here
      have in_array : i < b.buffer.toList.length := by rw [Cells.length_toList]; omega
      rw [Cells.read, List.drop_eq_getElem_cons in_array, List.take_succ_cons, List.take_zero]
      simp [content]
    have loaded := load_eq (b := b) inside
    rw [Int.toNat_natCast, Int.toNat_one, cell] at loaded
    rw [List.drop_eq_getElem_cons here, List.findIdx?_cons]
    by_cases hit : b.content[i] = delim
    · simp [findDelimLoop, loaded, hit]
    · have later := ih (i + 1) (by omega)
      rw [Int.natCast_succ] at later
      have next : findDelimLoop delim (left + 1) i b = findDelimLoop delim left (i + 1) b := by
        simp [findDelimLoop, loaded, hit]
      rw [next, later]
      cases (b.content.drop (i + 1)).findIdx? (· == delim) with
      | none => simp [hit]
      | some j => simp [hit]; omega

theorem findDelim_eq {b : Buffer} (valid : b.Valid) (delim : Byte) :
    findDelim delim b = ⟨b, [], .returned (b.findDelim delim)⟩ := by
  have loop := findDelimLoop_eq delim valid b.size_.toNat 0 (by rw [size_toNat valid]; omega)
  cases found : b.content.findIdx? (· == delim) with
  | none => simpa [findDelim, Buffer.findDelim, found] using loop
  | some i => simpa [findDelim, Buffer.findDelim, found] using loop

/-- The line that a consumer takes, with the accesses in range. -/
theorem line_inside {b : Buffer} {delim : Byte}
    (found : ¬ b.findDelim delim < 0) :
    Inside 0 (b.findDelim delim + 1) ∧ ∀ b' : Buffer,
      int (b.findDelim delim + 1) b' = ⟨b', [], .returned (b.findDelim delim + 1)⟩ := by
  have present : delim ∈ b.content := by
    apply Decidable.byContradiction
    intro absent
    exact found (by rw [findDelim_neg absent]; decide)
  have len := findDelim_of_mem present
  have bound := length_first_le delim b
  have whole := length_content_le b
  exact ⟨⟨by omega, by omega, by omega⟩, int_of_inside (by omega) (by omega)⟩

theorem consumeOnce_eq {b : Buffer} (valid : b.Valid) (delim : Byte) :
    consumeOnce delim b = Buffer.consumeOnce delim b := by
  by_cases found : b.findDelim delim < 0
  · simp [consumeOnce, Buffer.consumeOnce, findDelim_eq valid, found]
  · obtain ⟨inside, len⟩ := line_inside found
    simp [consumeOnce, Buffer.consumeOnce, findDelim_eq valid, found, len, load_eq inside,
      compact_eq valid]

/-- What is left after a line was taken is shorter. -/
theorem left_lt {b : Buffer} {delim : Byte} (present : delim ∈ b.content) {left : List Byte}
    (live : left = b.content.drop (Framing.first delim b.content).length) {fuel : Nat}
    (enough : b.content.length < fuel + 1) : left.length < fuel := by
  have positive := List.length_pos_iff.mpr
    (fun empty => (Framing.first_eq_nil_iff delim b.content).mp empty present)
  have whole := length_first_le delim b
  rw [live, List.length_drop]
  omega

theorem consumeFullLoop_eq (delim : Byte) (fuel : Nat) :
    ∀ (b : Buffer) (result : List Byte), b.Valid → b.content.length < fuel →
      consumeFullLoop delim fuel result b = Buffer.consumeFullLoop delim fuel result b := by
  induction fuel with
  | zero => intro b result _ short; omega
  | succ fuel ih =>
    intro b result valid enough
    obtain ⟨b', taken, valid', live⟩ := consumeOnce_spec valid delim
    by_cases present : delim ∈ b.content
    · have more : Framing.first delim b.content ≠ [] :=
        fun empty => (Framing.first_eq_nil_iff delim b.content).mp empty present
      simp [consumeFullLoop, Buffer.consumeFullLoop, consumeOnce_eq valid, taken, more,
        ih b' _ valid' (left_lt present live enough)]
    · have last := (Framing.first_eq_nil_iff delim b.content).mpr present
      simp [consumeFullLoop, Buffer.consumeFullLoop, consumeOnce_eq valid, taken, last]

theorem fuel_enough {b : Buffer} (valid : b.Valid) : b.content.length < b.size_.toNat + 1 := by
  rw [size_toNat valid]
  exact Nat.lt_succ_self _

theorem consumeFull_eq {b : Buffer} (valid : b.Valid) (delim : Byte) :
    consumeFull delim b = Buffer.consumeFull delim b := by
  simp [consumeFull, Buffer.consumeFull,
    consumeFullLoop_eq delim _ b [] valid (fuel_enough valid)]

theorem consumeFullFdLoop_eq (fd : Fd) (delim : Byte) (fuel : Nat) :
    ∀ (b : Buffer) (answers : List WriteAnswer), b.Valid → b.content.length < fuel →
      consumeFullFdLoop fd delim fuel answers b =
        Buffer.consumeFullFdLoop fd delim fuel answers b := by
  induction fuel with
  | zero => intro b answers _ short; omega
  | succ fuel ih =>
    intro b answers valid enough
    by_cases present : delim ∈ b.content
    · obtain ⟨b', dropped, valid', live, _, found⟩ := take_first_spec valid present
      have go_on : b.findDelim delim ≥ 0 := by omega
      obtain ⟨inside, len⟩ := line_inside found
      obtain ⟨log, _, written⟩ := writeFull_spec fd
        (b.buffer.read 0 (b.findDelim delim + 1).toNat) answers b
      rcases written with ⟨rest, _, _, returned⟩ | ⟨_, _, _, stuck | ⟨errno, stuck⟩⟩
      · simp [consumeFullFdLoop, Buffer.consumeFullFdLoop, findDelim_eq valid, go_on, len,
          load_eq inside, returned, compact_eq valid, dropped,
          ih b' rest valid' (left_lt present live enough)]
      · simp [consumeFullFdLoop, Buffer.consumeFullFdLoop, findDelim_eq valid, go_on, len,
          load_eq inside, stuck]
      · simp [consumeFullFdLoop, Buffer.consumeFullFdLoop, findDelim_eq valid, go_on, len,
          load_eq inside, stuck]
    · have stop : ¬ b.findDelim delim ≥ 0 := by rw [findDelim_neg present]; decide
      simp [consumeFullFdLoop, Buffer.consumeFullFdLoop, findDelim_eq valid, stop]

theorem consumeFullFd_eq (fd : Fd) {b : Buffer} (valid : b.Valid) (delim : Byte)
    (answers : List WriteAnswer) :
    consumeFullFd fd delim answers b = Buffer.consumeFullFd fd delim answers b := by
  simp [consumeFullFd, Buffer.consumeFullFd,
    consumeFullFdLoop_eq fd delim _ b answers valid (fuel_enough valid)]

end TcpChat.Buffer.Checked
