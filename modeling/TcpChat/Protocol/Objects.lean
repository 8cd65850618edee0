import TcpChat.Lib.Machine
import TcpChat.Protocol.Checked

/-! Buffer objects and the calls a program can make on them, in any order. -/
namespace TcpChat.Buffer

/-- The member functions with their arguments. `receive` is what callers of `data()` do: they
write no more than `free_space()` bytes at `data() + size()`, then call `increase_size`. -/
inductive Method where
  | append (other : Nat → Byte) (len : Int32)
  | increaseSize (n : Int32)
  | receive (bytes : List Byte)
  | consumeOnce (delim : Byte)
  | consumeFull (delim : Byte)
  | consumeOnceFd (fd : Fd) (delim : Byte) (answers : List WriteAnswer)
  | consumeFullFd (fd : Fd) (delim : Byte) (answers : List WriteAnswer)
  | clear

/-- Returns the string of the two consumers that have one. -/
def Method.run : Method → Program Buffer Event Exn (List Byte)
  | .append other len => do
    Checked.append other len.toInt
    pure []
  | .increaseSize n => do
    Checked.increaseSize n.toInt
    pure []
  | .receive bytes => do
    Program.modify fun b => b.writeAt b.size.toNat (bytes.take b.freeSpace.toNat)
    Checked.increaseSize bytes.length
    pure []
  | .consumeOnce delim => Checked.consumeOnce delim
  | .consumeFull delim => Checked.consumeFull delim
  | .consumeOnceFd fd delim answers => do
    let _ ← Checked.consumeOnceFd fd delim answers
    pure []
  | .consumeFullFd fd delim answers => do
    let _ ← Checked.consumeFullFd fd delim answers
    pure []
  | .clear => do
    Checked.clear
    pure []

/-- Objects are numbered in the order of their construction; `storage` is what the memory of a
new one holds. -/
inductive Call where
  | construct (storage : Cells Byte bufferSize)
  | method (i : Nat) (m : Method)
  | copyConstruct (storage : Cells Byte bufferSize) (source : Nat)
  | moveConstruct (storage : Cells Byte bufferSize) (source : Nat)
  | copyAssign (target source : Nat)
  | moveAssign (target source : Nat)

def Call.objects : Call → List Nat
  | .construct _ => []
  | .method i _ => [i]
  | .copyConstruct _ source | .moveConstruct _ source => [source]
  | .copyAssign target source | .moveAssign target source => [target, source]

abbrev Answer : Type := Outcome Exn (List Byte)

structure Record where
  call : Call
  answer : Answer

def copying (other : Buffer) : Program Buffer Event Exn (List Byte) := do
  Checked.copyFrom other
  pure []

/-- A call on an object that does not exist is none, and leaves no record. -/
def step (s : List Buffer) (call : Call) : List Buffer × List Record :=
  match call with
  | .construct storage => (s ++ [⟨storage, 0⟩], [⟨call, .returned []⟩])
  | .method i m =>
    match s[i]? with
    | none => (s, [])
    | some b =>
      let r := m.run b
      (s.set i r.state, [⟨call, r.outcome⟩])
  | .copyConstruct storage source =>
    match s[source]? with
    | none => (s, [])
    | some other =>
      let r := copying other ⟨storage, 0⟩
      (s ++ [r.state], [⟨call, r.outcome⟩])
  | .moveConstruct storage source =>
    match s[source]? with
    | none => (s, [])
    | some other =>
      let r := copying other ⟨storage, 0⟩
      (s.set source { other with size_ := 0 } ++ [r.state], [⟨call, r.outcome⟩])
  | .copyAssign target source =>
    match s[target]?, s[source]? with
    | some b, some other =>
      if target ≠ source then -- this != &other
        let r := copying other b
        (s.set target r.state, [⟨call, r.outcome⟩])
      else (s, [⟨call, .returned []⟩])
    | _, _ => (s, [])
  | .moveAssign target source =>
    match s[target]?, s[source]? with
    | some b, some other =>
      if target ≠ source then
        let r := copying other b
        ((s.set source { other with size_ := 0 }).set target r.state, [⟨call, r.outcome⟩])
      else (s, [⟨call, .returned []⟩])
    | _, _ => (s, [])

def contents (s : List Buffer) : List (List Byte) := s.map Buffer.content

@[simp] theorem contents_set (s : List Buffer) (i : Nat) (b : Buffer) :
    contents (s.set i b) = (contents s).set i b.content := List.map_set

@[simp] theorem contents_append (s t : List Buffer) :
    contents (s ++ t) = contents s ++ contents t := List.map_append

@[simp] theorem contents_getElem? (s : List Buffer) (i : Nat) :
    (contents s)[i]? = s[i]?.map Buffer.content := List.getElem?_map

/-! One call on a buffer whose size is in range. -/

theorem append_refused {b : Buffer} (valid : b.Valid) (other : Nat → Byte) {len : Int}
    (wrong : len < 0 ∨ b.freeSpace < len) :
    ∃ x, Checked.append other len b = ⟨b, [], .thrown x⟩ := by
  by_cases negative : len < 0
  · exact ⟨.invalidArgument "Buffer::append(): len must be non-negative",
      by simp [Checked.append, negative]⟩
  · have long : len > b.freeSpace := by omega
    exact ⟨.lengthError "Buffer::append(): not enough free space",
      by simp [Checked.append, negative, Checked.freeSpace_eq valid, long]⟩

theorem append_accepted {b : Buffer} (valid : b.Valid) (other : Nat → Byte) {len : Int}
    (positive : 0 ≤ len) (fits : len ≤ b.freeSpace) :
    ∃ b', Checked.append other len b = ⟨b', [], .returned ()⟩ ∧ b'.Valid ∧
      b'.content = b.content ++ (List.range len.toNat).map other := by
  have count : (((List.range len.toNat).map other).length : Int) = len := by
    simp only [List.length_map, List.length_range]
    omega
  have room : ((List.range len.toNat).map other).length ≤ b.freeSpace.toNat := by omega
  obtain ⟨b', counted, valid', live⟩ := receive_behind valid room
  refine ⟨b', ?_, valid', live⟩
  have negative : ¬ len < 0 := by omega
  have long : ¬ len > b.freeSpace := by omega
  obtain ⟨lo, hi⟩ := valid
  simp only [Buffer.freeSpace, capacity] at fits
  have inside : Checked.Inside b.size_ ((List.range len.toNat).map other).length := by
    rw [count]
    exact ⟨lo, positive, by omega⟩
  have grown := Checked.int_of_inside (x := b.size_ + len) (by omega) (by omega)
    (b.writeAt b.size_.toNat ((List.range len.toNat).map other))
  have same : (b.writeAt b.size_.toNat ((List.range len.toNat).map other)).freeSpace =
      b.freeSpace := rfl
  rw [count, increaseSize_of_le (by rw [same]; omega)] at counted
  simp only [Checked.append, if_neg negative, Program.bind_apply, Checked.freeSpace_eq ⟨lo, hi⟩,
    Program.andThen_returned_nil, Program.ite_apply, if_neg long, Program.get_apply,
    Checked.store_eq inside, grown, Checked.setSize, Program.modify_apply]
  exact counted

theorem receive_accepted {b : Buffer} (valid : b.Valid) {bytes : List Byte}
    (fits : bytes.length ≤ b.freeSpace.toNat) :
    ∃ b', (Method.receive bytes).run b = ⟨b', [], .returned []⟩ ∧ b'.Valid ∧
      b'.content = b.content ++ bytes := by
  obtain ⟨b', counted, valid', live⟩ := receive_behind valid fits
  have above : 0 ≤ (b.writeAt b.size_.toNat bytes).size_ + bytes.length := by
    have := valid.1
    simp only [writeAt]
    omega
  have same := Checked.increaseSize_eq (b := b.writeAt b.size_.toNat bytes) valid above
  refine ⟨b', ?_, valid', live⟩
  simp [Method.run, List.take_of_length_le fits, Buffer.size, same, counted]

theorem receive_refused {b : Buffer} (valid : b.Valid) {bytes : List Byte}
    (long : b.freeSpace.toNat < bytes.length) :
    ∃ b' x, (Method.receive bytes).run b = ⟨b', [], .thrown x⟩ ∧ b'.Valid ∧
      b'.content = b.content := by
  let part := bytes.take b.freeSpace.toNat
  have fits : part.length ≤ b.freeSpace.toNat := List.length_take_le _ _
  have kept := content_writeAt_behind valid fits
  have above : 0 ≤ (b.writeAt b.size_.toNat part).size_ + bytes.length := by
    have := valid.1
    simp only [writeAt]
    omega
  have full : (bytes.length : Int) > (b.writeAt b.size_.toNat part).freeSpace := by
    change (bytes.length : Int) > b.freeSpace
    omega
  have same := Checked.increaseSize_eq (b := b.writeAt b.size_.toNat part) valid above
  rw [increaseSize_of_gt full] at same
  refine ⟨b.writeAt b.size_.toNat part,
    .lengthError "Buffer::increase_size(): not enough free space", ?_, valid, kept⟩
  simp [Method.run, Buffer.size, part, same]

theorem copying_spec {other : Buffer} (valid : other.Valid) (b : Buffer) :
    ∃ b', copying other b = ⟨b', [], .returned []⟩ ∧ b'.Valid ∧ b'.content = other.content := by
  obtain ⟨lo, hi⟩ := valid
  have inside : Checked.Inside 0 other.size_ := ⟨by omega, lo, by omega⟩
  refine ⟨⟨b.buffer.write 0 (other.buffer.read 0 other.size_.toNat), other.size_⟩, ?_, ⟨lo, hi⟩, ?_⟩
  · simp [copying, Checked.copyFrom, inside]
  · have size : (other.buffer.read 0 other.size_.toNat).length = other.size_.toNat := by
      simp only [Cells.read, List.drop_zero, List.length_take, Cells.length_toList]
      omega
    have front : (b.buffer.write 0 (other.buffer.read 0 other.size_.toNat)).toList.take
        (0 + (other.buffer.read 0 other.size_.toNat).length) =
          b.buffer.toList.take 0 ++ other.buffer.read 0 other.size_.toNat :=
      Cells.take_write_behind (by omega)
    rw [Nat.zero_add, size, List.take_zero, List.nil_append] at front
    exact front

/-- What a call does to objects whose sizes are in range. -/
inductive Effect (s : List Buffer) : Call → List Buffer → List Record → Prop
  | nobody (call : Call) (missing : ∃ i ∈ call.objects, s[i]? = none) : Effect s call s []
  | constructed (storage : Cells Byte bufferSize) :
      Effect s (.construct storage) (s ++ [⟨storage, 0⟩]) [⟨.construct storage, .returned []⟩]
  | called (i : Nat) (m : Method) (b : Buffer) (found : s[i]? = some b) :
      Effect s (.method i m) (s.set i (m.run b).state) [⟨.method i m, (m.run b).outcome⟩]
  | copied (storage : Cells Byte bufferSize) (source : Nat) (other b : Buffer)
      (found : s[source]? = some other) (valid : b.Valid) (same : b.content = other.content) :
      Effect s (.copyConstruct storage source) (s ++ [b])
        [⟨.copyConstruct storage source, .returned []⟩]
  | moved (storage : Cells Byte bufferSize) (source : Nat) (other b : Buffer)
      (found : s[source]? = some other) (valid : b.Valid) (same : b.content = other.content) :
      Effect s (.moveConstruct storage source) (s.set source { other with size_ := 0 } ++ [b])
        [⟨.moveConstruct storage source, .returned []⟩]
  | copyAssigned (target source : Nat) (other b : Buffer) (distinct : target ≠ source)
      (there : target < s.length) (found : s[source]? = some other) (valid : b.Valid)
      (same : b.content = other.content) :
      Effect s (.copyAssign target source) (s.set target b)
        [⟨.copyAssign target source, .returned []⟩]
  | moveAssigned (target source : Nat) (other b : Buffer) (distinct : target ≠ source)
      (there : target < s.length) (found : s[source]? = some other) (valid : b.Valid)
      (same : b.content = other.content) :
      Effect s (.moveAssign target source)
        ((s.set source { other with size_ := 0 }).set target b)
        [⟨.moveAssign target source, .returned []⟩]
  | selfCopied (i : Nat) (there : i < s.length) :
      Effect s (.copyAssign i i) s [⟨.copyAssign i i, .returned []⟩]
  | selfMoved (i : Nat) (there : i < s.length) :
      Effect s (.moveAssign i i) s [⟨.moveAssign i i, .returned []⟩]

theorem step_effect {s : List Buffer} (valid : ∀ b ∈ s, b.Valid) (call : Call) :
    Effect s call (step s call).1 (step s call).2 := by
  have copying_of {source : Nat} {other : Buffer} (found : s[source]? = some other) (b : Buffer) :=
    copying_spec (valid other (List.mem_of_getElem? found)) b
  cases call with
  | construct storage => exact .constructed storage
  | method i m =>
    cases found : s[i]? with
    | none => simpa [step, found] using .nobody (.method i m) ⟨i, by simp [Call.objects], found⟩
    | some b => simpa [step, found] using .called i m b found
  | copyConstruct storage source =>
    cases found : s[source]? with
    | none => simpa [step, found] using
        .nobody (.copyConstruct storage source) ⟨source, by simp [Call.objects], found⟩
    | some other =>
      obtain ⟨b, copied, valid', same⟩ := copying_of found ⟨storage, 0⟩
      simpa [step, found, copied] using .copied storage source other b found valid' same
  | moveConstruct storage source =>
    cases found : s[source]? with
    | none => simpa [step, found] using
        .nobody (.moveConstruct storage source) ⟨source, by simp [Call.objects], found⟩
    | some other =>
      obtain ⟨b, copied, valid', same⟩ := copying_of found ⟨storage, 0⟩
      simpa [step, found, copied] using .moved storage source other b found valid' same
  | copyAssign target source =>
    cases there : s[target]? with
    | none =>
      simpa [step, there] using
        .nobody (.copyAssign target source) ⟨target, by simp [Call.objects], there⟩
    | some b =>
      have inside := (List.getElem?_eq_some_iff.mp there).1
      cases found : s[source]? with
      | none =>
        simpa [step, there, found] using
          .nobody (.copyAssign target source) ⟨source, by simp [Call.objects], found⟩
      | some other =>
        by_cases self : target = source
        · subst self
          simpa [step, found] using .selfCopied target inside
        · obtain ⟨b', copied, valid', same⟩ := copying_of found b
          simpa [step, there, found, self, copied] using
            .copyAssigned target source other b' self inside found valid' same
  | moveAssign target source =>
    cases there : s[target]? with
    | none =>
      simpa [step, there] using
        .nobody (.moveAssign target source) ⟨target, by simp [Call.objects], there⟩
    | some b =>
      have inside := (List.getElem?_eq_some_iff.mp there).1
      cases found : s[source]? with
      | none =>
        simpa [step, there, found] using
          .nobody (.moveAssign target source) ⟨source, by simp [Call.objects], found⟩
      | some other =>
        by_cases self : target = source
        · subst self
          simpa [step, found] using .selfMoved target inside
        · obtain ⟨b', copied, valid', same⟩ := copying_of found b
          simpa [step, there, found, self, copied] using
            .moveAssigned target source other b' self inside found valid' same

end TcpChat.Buffer
