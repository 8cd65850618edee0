import TcpChat.Net.WriteFull

/-! `read_full` on the same machine. Unlike the writer's, this loop takes a result of 0 as the
end of what there is, and not as an error. -/
namespace TcpChat

/-- The bytes that the reads find, one after the other. -/
def stream (answers : List ReadAnswer) : List Byte := answers.flatMap (·.waiting)

/-- The call moves bytes, or is to be made again. -/
def ReadAnswer.goesOn : ReadAnswer → Bool
  | .data .. => true
  | .eof => false
  | .failed e => e = .EINTR

/-- The reads come to this answer before they have found `n` bytes. -/
def Met (n : Nat) (a : ReadAnswer) (answers : List ReadAnswer) : Prop :=
  ∃ used rest, answers = used ++ a :: rest ∧ (∀ b ∈ used, b.goesOn = true) ∧
    (stream used).length < n

/-- The first answer that ends the loop, if one does before there are `n` bytes. -/
def stopAt : Nat → List ReadAnswer → Option ReadAnswer
  | 0, _ => none
  | _ + 1, [] => none
  | n + 1, a :: answers => if a.goesOn then stopAt (n + 1 - a.waiting.length) answers else some a

theorem met_cons {n : Nat} {a b : ReadAnswer} {answers : List ReadAnswer} (on : b.goesOn = true)
    (final : a.goesOn = false) :
    Met n a (b :: answers) ↔ Met (n - b.waiting.length) a answers := by
  constructor
  · rintro ⟨used, rest, split, each, short⟩
    cases used with
    | nil =>
      obtain ⟨rfl, -⟩ := List.cons.inj split
      exact absurd (on.symm.trans final) (by decide)
    | cons c used =>
      obtain ⟨rfl, later⟩ := List.cons.inj split
      refine ⟨used, rest, later, fun d member => each d (List.mem_cons_of_mem b member), ?_⟩
      simp only [stream, List.flatMap_cons, List.length_append] at short ⊢
      omega
  · rintro ⟨used, rest, rfl, each, short⟩
    refine ⟨b :: used, rest, rfl, List.forall_mem_cons.mpr ⟨on, each⟩, ?_⟩
    simp only [stream, List.flatMap_cons, List.length_append] at short ⊢
    omega

theorem stopAt_eq_some {n : Nat} {a : ReadAnswer} {answers : List ReadAnswer} :
    stopAt n answers = some a ↔ a.goesOn = false ∧ Met n a answers := by
  induction answers generalizing n with
  | nil =>
    have nothing : stopAt n [] = none := by cases n <;> rfl
    rw [nothing]
    refine iff_of_false nofun ?_
    rintro ⟨-, used, rest, split, -⟩
    simp at split
  | cons b answers ih =>
    cases n with
    | zero =>
      refine iff_of_false nofun ?_
      rintro ⟨-, used, rest, -, -, short⟩
      exact Nat.not_lt_zero _ short
    | succ n =>
      cases on : b.goesOn with
      | true =>
        simp only [stopAt, on, if_true, ih]
        refine and_congr_right fun final => ?_
        exact (met_cons on final).symm
      | false =>
        simp only [stopAt, on, Bool.false_eq_true, if_false, Option.some.injEq]
        constructor
        · rintro rfl
          exact ⟨on, [], answers, rfl, by simp, Nat.succ_pos n⟩
        · rintro ⟨-, used, rest, split, each, -⟩
          cases used with
          | nil => exact (List.cons.inj split).1
          | cons c used =>
            have here := each c List.mem_cons_self
            rw [← (List.cons.inj split).1, on] at here
            cases here

theorem stopAt_of_enough {used : List ReadAnswer} (each : ∀ a ∈ used, a.goesOn = true) {n : Nat}
    (enough : n ≤ (stream used).length) (rest : List ReadAnswer) :
    stopAt n (used ++ rest) = none := by
  induction used generalizing n with
  | nil =>
    have none : n = 0 := Nat.le_zero.mp enough
    simp [none, stopAt]
  | cons a used ih =>
    cases n with
    | zero => simp [stopAt]
    | succ n =>
      simp only [stream, List.flatMap_cons, List.length_append] at enough
      simp only [List.cons_append, stopAt, each a List.mem_cons_self, if_true]
      exact ih (fun b member => each b (List.mem_cons_of_mem a member))
        (by simp only [stream]; omega)

namespace Words

def read (fd : Fd) (ptr nbytes : BitVec 64) (answer : ReadAnswer) : Run CallReturn :=
  match answer.read nbytes.toNat with
  | .error e => do
    Program.emit [⟨fd, ptr, nbytes, []⟩]
    pure ⟨-1, some e⟩
  | .ok bytes => do
    Program.modify fun memory => memory.store ptr bytes
    Program.emit [⟨fd, ptr, nbytes, bytes⟩]
    pure ⟨BitVec.ofNat 64 bytes.length, none⟩

def readnLoop (fd : Fd) (n : BitVec 64) (answers : List ReadAnswer) (ptr nleft : BitVec 64) :
    Run CallReturn :=
  if 0 < nleft then
    match answers with
    | [] => Program.block
    | answer :: answers => do
      let r ← read fd ptr nleft answer
      if r.value.toInt < 0 then
        if r.errno = some .EINTR then
          readnLoop fd n answers (ptr + 0) (nleft - 0) -- and call read() again
        else pure ⟨-1, r.errno⟩
      else if r.value = 0 then pure ⟨n - nleft, none⟩ -- EOF
      else readnLoop fd n answers (ptr + r.value) (nleft - r.value)
  else pure ⟨n - nleft, none⟩

def readn (fd : Fd) (ptr n : BitVec 64) (answers : List ReadAnswer) : Run CallReturn :=
  readnLoop fd n answers ptr n

def readFull (fd : Fd) (ptr nbytes : BitVec 64) (answers : List ReadAnswer) : Run (BitVec 64) := do
  let r ← readn fd ptr nbytes answers
  if r.value.toInt < 0 then Program.throw (.systemError r.errno "read() failed")
  else pure r.value

/-! One pass of the loop, by what the call answers. -/

section
variable {fd : Fd} {n ptr nleft : BitVec 64} {answers : List ReadAnswer} {m : Ram}

theorem readnLoop_done : readnLoop fd n answers ptr 0 m = ⟨m, [], .returned ⟨n, none⟩⟩ := by
  cases answers <;> simp [readnLoop]

theorem toNat_ne_zero (more : nleft ≠ 0#64) : nleft.toNat ≠ 0 := by bv_omega

theorem readnLoop_failed {e : Errno} (more : nleft ≠ 0#64) (final : e ≠ .EINTR) :
    readnLoop fd n (.failed e :: answers) ptr nleft m =
      ⟨m, [⟨fd, ptr, nleft, []⟩], .returned ⟨-1, some e⟩⟩ := by
  simp [readnLoop, more, read, ReadAnswer.read, toNat_ne_zero more, toInt_failure, final]

theorem readnLoop_eof (more : nleft ≠ 0#64) :
    readnLoop fd n (.eof :: answers) ptr nleft m =
      ⟨m, [⟨fd, ptr, nleft, []⟩], .returned ⟨n - nleft, none⟩⟩ := by
  simp [readnLoop, more, read, ReadAnswer.read, toNat_ne_zero more]

/-- A call that was interrupted moves nothing, so it goes on like one that moved bytes. -/
theorem readnLoop_on {answer : ReadAnswer} (fits : nleft.toNat ≤ ssizeMax) (more : nleft ≠ 0#64)
    (on : answer.goesOn = true) :
    readnLoop fd n (answer :: answers) ptr nleft m =
      Program.andThen
        ⟨m.store ptr (answer.waiting.take nleft.toNat),
          [⟨fd, ptr, nleft, answer.waiting.take nleft.toNat⟩], .returned ()⟩
        fun _ => readnLoop fd n answers
          (ptr + BitVec.ofNat 64 (answer.waiting.take nleft.toNat).length)
          (nleft - BitVec.ofNat 64 (answer.waiting.take nleft.toNat).length) := by
  have left := toNat_ne_zero more
  cases answer with
  | eof => cases on
  | failed e =>
    have retry : e = .EINTR := of_decide_eq_true on
    simp [readnLoop, more, read, ReadAnswer.read, left, toInt_failure, retry, ReadAnswer.waiting]
  | data bytes nonempty =>
    have short : (bytes.take nleft.toNat).length ≤ ssizeMax :=
      Nat.le_trans (List.length_take_le _ _) fits
    have some : 0 < (bytes.take nleft.toNat).length := by
      have nonempty' := List.length_pos_iff.mpr nonempty
      rw [List.length_take]
      omega
    have counted := toInt_count short
    have forward : ¬ (((bytes.take nleft.toNat).length : Nat) : Int) < 0 := by omega
    have nonzero : BitVec.ofNat 64 (bytes.take nleft.toNat).length ≠ 0 := by
      intro zero
      have none : ((bytes.take nleft.toNat).length : Int) = 0 :=
        counted.symm.trans (congrArg BitVec.toInt zero)
      omega
    have answer : (ReadAnswer.data bytes nonempty).read nleft.toNat =
        .ok (bytes.take nleft.toNat) := by
      simp [ReadAnswer.read, left]
    rw [readnLoop, if_pos (by bv_omega)]
    simp only [read, answer, Program.bind_apply, Program.modify_apply, Program.andThen_returned,
      Program.emit_apply, Program.pure_apply, counted, if_neg forward, if_neg nonzero]
    simp [ReadAnswer.waiting]

end

/-! The whole loop. -/

/-- A stretch of the stream has been read to the range, and nothing else has changed. -/
structure Reads {α : Type} (fd : Fd) (ptr : BitVec 64) (n : Nat) (m : Ram)
    (answers : List ReadAnswer) (got : List Byte) (r : Result Ram Transfer Exn α) : Prop where
  initial : got <+: stream answers
  bound : got.length ≤ n
  state : r.state = m.store ptr got
  moved : moved r.events = got
  inside : ∀ t ∈ r.events, t.fd = fd ∧ t.Inside ptr n

/-- How the loop ends, with the count that it returns unless it failed. -/
inductive ReadnEnds (n : Nat) (answers : List ReadAnswer) (got : List Byte) (count : BitVec 64) :
    Outcome Exn CallReturn → Prop
  | whole (unstopped : stopAt n answers = none) (all : got.length = n) :
      ReadnEnds n answers got count (.returned ⟨count, none⟩)
  | eof (stopped : stopAt n answers = some .eof) (short : got.length < n) :
      ReadnEnds n answers got count (.returned ⟨count, none⟩)
  | failed (e : Errno) (stopped : stopAt n answers = some (.failed e)) :
      ReadnEnds n answers got count (.returned ⟨-1, some e⟩)
  | blocked (unstopped : stopAt n answers = none) (each : ∀ a ∈ answers, a.goesOn = true)
      (short : (stream answers).length < n) : ReadnEnds n answers got count .blocked

theorem stopAt_cons {n : Nat} {a : ReadAnswer} (some : n ≠ 0) (on : a.goesOn = true)
    (answers : List ReadAnswer) :
    stopAt n (a :: answers) = stopAt (n - a.waiting.length) answers := by
  obtain ⟨n, rfl⟩ := Nat.exists_eq_succ_of_ne_zero some
  simp [stopAt, on]

theorem readnEnds_cons {n : Nat} {a : ReadAnswer} {answers : List ReadAnswer} {got : List Byte}
    {count : BitVec 64} {o : Outcome Exn CallReturn} (some : n ≠ 0) (on : a.goesOn = true)
    (later : ReadnEnds (n - a.waiting.length) answers got count o) :
    ReadnEnds n (a :: answers) (a.waiting.take n ++ got) count o := by
  have stop := stopAt_cons some on answers
  have length : (a.waiting.take n ++ got).length = min n a.waiting.length + got.length := by
    rw [List.length_append, List.length_take]
  cases later with
  | whole unstopped all => exact .whole (stop.trans unstopped) (by omega)
  | eof stopped short => exact .eof (stop.trans stopped) (by omega)
  | failed e stopped => exact .failed e (stop.trans stopped)
  | blocked unstopped each short =>
    refine .blocked (stop.trans unstopped) (List.forall_mem_cons.mpr ⟨on, each⟩) ?_
    simp only [stream, List.flatMap_cons, List.length_append] at short ⊢
    omega

theorem reads_cons {α : Type} {fd : Fd} {ptr nleft : BitVec 64} {m : Ram} {a : ReadAnswer}
    {answers : List ReadAnswer} {got first : List Byte} {r : Result Ram Transfer Exn α}
    (taken : first = a.waiting.take nleft.toNat)
    (later : Reads fd (ptr + BitVec.ofNat 64 first.length) (nleft.toNat - first.length)
      (m.store ptr first) answers got r) :
    Reads fd ptr nleft.toNat m (a :: answers) (first ++ got)
      (⟨r.state, ⟨fd, ptr, nleft, first⟩ :: r.events, r.outcome⟩ : Result Ram Transfer Exn α) := by
  have length : first.length = min nleft.toNat a.waiting.length := by
    rw [taken, List.length_take]
  have short : first.length ≤ nleft.toNat := length ▸ Nat.min_le_left _ _
  have word := Memory.toNat_offset (Nat.lt_of_le_of_lt short nleft.isLt)
  obtain ⟨initial, bound, state, moves, inside⟩ := later
  constructor
  · rw [stream, List.flatMap_cons, taken]
    by_cases all : a.waiting.length ≤ nleft.toNat
    · rw [List.take_of_length_le all]
      exact (List.prefix_append_right_inj _).mpr initial
    · have none : got = [] := List.eq_nil_of_length_eq_zero (by omega)
      rw [none, List.append_nil]
      exact (List.take_prefix _ _).trans (List.prefix_append _ _)
  · rw [List.length_append]
    omega
  · have within : first.length + got.length ≤ 2 ^ 64 := by
      have := nleft.isLt
      omega
    rw [state, m.store_append ptr within]
  · rw [← moves]
    rfl
  · refine List.forall_mem_cons.mpr ⟨⟨rfl, inside_self fd ptr nleft first⟩, fun t member => ?_⟩
    obtain ⟨own, within⟩ := inside t member
    refine ⟨own, inside_of_later (BitVec.ofNat 64 first.length) nleft.isLt (by omega) ?_⟩
    rw [word]
    exact within

theorem reads_nothing {α : Type} {fd : Fd} {ptr : BitVec 64} {n : Nat} {m : Ram}
    (answers : List ReadAnswer) {log : List Transfer} (o : Outcome Exn α)
    (silent : ∀ t ∈ log, t.bytes = [] ∧ t.fd = fd ∧ t.Inside ptr n) :
    Reads fd ptr n m answers [] (⟨m, log, o⟩ : Result Ram Transfer Exn α) :=
  ⟨List.nil_prefix, Nat.zero_le n, rfl,
    List.flatMap_eq_nil_iff.mpr fun t member => (silent t member).1,
    fun t member => (silent t member).2⟩

/-- The loop has read what it could, and ends as it should. -/
def LoopReads (fd : Fd) (n : BitVec 64) (answers : List ReadAnswer) (ptr nleft : BitVec 64)
    (m : Ram) : Prop :=
  ∃ got, Reads fd ptr nleft.toNat m answers got (readnLoop fd n answers ptr nleft m) ∧
    ReadnEnds nleft.toNat answers got (n - (nleft - BitVec.ofNat 64 got.length))
      (readnLoop fd n answers ptr nleft m).outcome

section
variable {fd : Fd} {n ptr nleft : BitVec 64} {answers : List ReadAnswer} {m : Ram}

theorem loopReads_done : LoopReads fd n answers ptr 0 m := by
  refine ⟨[], ?_⟩
  rw [readnLoop_done]
  have unstopped : stopAt 0 answers = none := by simp [stopAt]
  exact ⟨reads_nothing answers _ (by simp), by simpa using .whole unstopped rfl⟩

theorem loopReads_blocked (more : nleft ≠ 0#64) : LoopReads fd n [] ptr nleft m := by
  have left := toNat_ne_zero more
  have waits : readnLoop fd n [] ptr nleft m = ⟨m, [], .blocked⟩ := by simp [readnLoop, more]
  have unstopped : stopAt nleft.toNat [] = none := by
    obtain ⟨k, eq⟩ := Nat.exists_eq_succ_of_ne_zero left
    rw [eq]
    rfl
  refine ⟨[], ?_⟩
  rw [waits]
  exact ⟨reads_nothing [] _ (by simp), .blocked unstopped (by simp) (Nat.pos_of_ne_zero left)⟩

theorem loopReads_ended {answer : ReadAnswer} (more : nleft ≠ 0#64)
    (final : answer.goesOn = false) : LoopReads fd n (answer :: answers) ptr nleft m := by
  have left := toNat_ne_zero more
  have once := inside_self fd ptr nleft []
  have stopped : stopAt nleft.toNat (answer :: answers) = some answer := by
    obtain ⟨k, eq⟩ := Nat.exists_eq_succ_of_ne_zero left
    simp [eq, stopAt, final]
  refine ⟨[], ?_⟩
  cases answer with
  | data => cases final
  | eof =>
    rw [readnLoop_eof more]
    exact ⟨reads_nothing _ _ (by simpa using once),
      by simpa using .eof stopped (Nat.pos_of_ne_zero left)⟩
  | failed e =>
    rw [readnLoop_failed more (of_decide_eq_false final)]
    exact ⟨reads_nothing _ _ (by simpa using once), .failed e stopped⟩

theorem loopReads_on {answer : ReadAnswer} {first : List Byte} (fits : nleft.toNat ≤ ssizeMax)
    (more : nleft ≠ 0#64) (on : answer.goesOn = true)
    (taken : first = answer.waiting.take nleft.toNat)
    (later : LoopReads fd n answers (ptr + BitVec.ofNat 64 first.length)
      (nleft - BitVec.ofNat 64 first.length) (m.store ptr first)) :
    LoopReads fd n (answer :: answers) ptr nleft m := by
  have length : first.length = min nleft.toNat answer.waiting.length := by
    rw [taken, List.length_take]
  have within : first.length ≤ nleft.toNat := length ▸ Nat.min_le_left _ _
  obtain ⟨got, reads, ends⟩ := later
  have counts : n - (nleft - BitVec.ofNat 64 first.length - BitVec.ofNat 64 got.length) =
      n - (nleft - BitVec.ofNat 64 (first ++ got).length) := by
    rw [BitVec.sub_sub, ← BitVec.ofNat_add, ← List.length_append]
  have behind : nleft.toNat - first.length = nleft.toNat - answer.waiting.length := by omega
  rw [Memory.toNat_sub_offset within] at reads ends
  rw [counts, behind] at ends
  refine ⟨first ++ got, ?_⟩
  rw [readnLoop_on fits more on, ← taken]
  exact ⟨reads_cons taken reads, taken ▸ readnEnds_cons (toNat_ne_zero more) on (taken ▸ ends)⟩

end

theorem readnLoop_spec (fd : Fd) (n : BitVec 64) (answers : List ReadAnswer)
    (ptr nleft : BitVec 64) (m : Ram) (fits : nleft.toNat ≤ ssizeMax) :
    LoopReads fd n answers ptr nleft m := by
  induction answers generalizing ptr nleft m with
  | nil =>
    by_cases last : nleft = 0#64
    · subst last
      exact loopReads_done
    · exact loopReads_blocked last
  | cons answer answers ih =>
    by_cases last : nleft = 0#64
    · subst last
      exact loopReads_done
    · cases on : answer.goesOn with
      | false => exact loopReads_ended last on
      | true =>
        refine loopReads_on fits last on rfl (ih _ _ _ ?_)
        rw [Memory.toNat_sub_offset (List.length_take_le _ _)]
        exact Nat.le_trans (Nat.sub_le _ _) fits

/-- How `read_full` ends. -/
inductive ReadFullEnds (n : Nat) (answers : List ReadAnswer) (got : List Byte) :
    Outcome Exn (BitVec 64) → Prop
  | whole (unstopped : stopAt n answers = none) (all : got.length = n) :
      ReadFullEnds n answers got (.returned (BitVec.ofNat 64 got.length))
  | eof (stopped : stopAt n answers = some .eof) (short : got.length < n) :
      ReadFullEnds n answers got (.returned (BitVec.ofNat 64 got.length))
  | failed (e : Errno) (stopped : stopAt n answers = some (.failed e)) :
      ReadFullEnds n answers got (.thrown (.systemError (some e) "read() failed"))
  | blocked (unstopped : stopAt n answers = none) (each : ∀ a ∈ answers, a.goesOn = true)
      (short : (stream answers).length < n) : ReadFullEnds n answers got .blocked

theorem readFull_spec (fd : Fd) (ptr nbytes : BitVec 64) (answers : List ReadAnswer) (m : Ram)
    (fits : nbytes.toNat ≤ ssizeMax) :
    ∃ got, Reads fd ptr nbytes.toNat m answers got (readFull fd ptr nbytes answers m) ∧
      ReadFullEnds nbytes.toNat answers got (readFull fd ptr nbytes answers m).outcome := by
  obtain ⟨got, reads, ends⟩ := readnLoop_spec fd nbytes answers ptr nbytes m fits
  have ours : readFull fd ptr nbytes answers m =
      Program.andThen (readnLoop fd nbytes answers ptr nbytes m) fun r =>
        if r.value.toInt < 0 then Program.throw (.systemError r.errno "read() failed")
        else pure r.value := rfl
  have counted : nbytes - (nbytes - BitVec.ofNat 64 got.length) = BitVec.ofNat 64 got.length :=
    sub_sub_cancel _ _
  have forward : ¬ (BitVec.ofNat 64 got.length).toInt < 0 := by
    rw [toInt_count (Nat.le_trans reads.bound fits)]
    omega
  rw [ours]
  rw [counted] at ends
  generalize readnLoop fd nbytes answers ptr nbytes m = r at reads ends
  obtain ⟨state, events, o⟩ := r
  obtain ⟨initial, bound, kept, moves, inside⟩ := reads
  refine ⟨got, ?_⟩
  cases ends with
  | whole unstopped all =>
    simpa [forward] using ⟨⟨initial, bound, kept, moves, inside⟩, .whole unstopped all⟩
  | eof stopped short =>
    simpa [forward] using ⟨⟨initial, bound, kept, moves, inside⟩, .eof stopped short⟩
  | failed e stopped =>
    simpa [toInt_failure] using ⟨⟨initial, bound, kept, moves, inside⟩, .failed e stopped⟩
  | blocked unstopped each short =>
    exact ⟨⟨initial, bound, kept, moves, inside⟩, .blocked unstopped each short⟩

end Words

/-- A call of `read_full` to a range of memory, with the answers of the kernel to its reads. -/
structure Reading where
  fd : Fd
  memory : Ram
  ptr : BitVec 64
  nbytes : BitVec 64
  answers : List ReadAnswer
  fits : nbytes.toNat ≤ ssizeMax

namespace Reading

def stream (r : Reading) : List Byte := TcpChat.stream r.answers

def result (r : Reading) : Result Ram Transfer Exn (BitVec 64) :=
  Words.readFull r.fd r.ptr r.nbytes r.answers r.memory

end Reading

/-- What `read_full` has done when it returns this count. -/
structure Collected (r : Reading) (count : BitVec 64) : Prop where
  bound : count.toNat ≤ r.nbytes.toNat
  first : r.result.state.load r.ptr count.toNat = r.stream.take count.toNat
  untouched : ∀ a, count.toNat ≤ (a - r.ptr).toNat → r.result.state a = r.memory a
  ended : count.toNat < r.nbytes.toNat → Met r.nbytes.toNat .eof r.answers

theorem collected_of_reads {r : Reading} {got : List Byte}
    (reads : Words.Reads r.fd r.ptr r.nbytes.toNat r.memory r.answers got r.result)
    (ended : got.length < r.nbytes.toNat → stopAt r.nbytes.toNat r.answers = some .eof) :
    Collected r (BitVec.ofNat 64 got.length) := by
  have small : got.length < 2 ^ 64 := Nat.lt_of_le_of_lt reads.bound r.nbytes.isLt
  have count := Memory.toNat_offset small
  constructor
  · rw [count]
    exact reads.bound
  · rw [count, reads.state, Memory.load_store _ _ (Nat.le_of_lt small)]
    exact List.prefix_iff_eq_take.mp reads.initial
  · intro a outside
    rw [count] at outside
    rw [reads.state, Memory.store_outside _ outside]
  · intro less
    rw [count] at less
    exact (stopAt_eq_some.mp (ended less)).2

namespace Reading

theorem spec (r : Reading) :
    ∃ got, Words.Reads r.fd r.ptr r.nbytes.toNat r.memory r.answers got r.result ∧
      Words.ReadFullEnds r.nbytes.toNat r.answers got r.result.outcome :=
  Words.readFull_spec r.fd r.ptr r.nbytes r.answers r.memory r.fits

theorem collected_of_returned {r : Reading} {count : BitVec 64}
    (returned : r.result.outcome = .returned count) : Collected r count := by
  obtain ⟨got, reads, ends⟩ := r.spec
  rw [returned] at ends
  cases ends with
  | whole unstopped all => exact collected_of_reads reads fun less => absurd all (Nat.ne_of_lt less)
  | eof stopped short => exact collected_of_reads reads fun _ => stopped

theorem thrown_iff (r : Reading) : (∃ e, r.result.outcome = .thrown e) ↔
    ∃ errno, errno ≠ .EINTR ∧ Met r.nbytes.toNat (.failed errno) r.answers := by
  obtain ⟨got, reads, ends⟩ := r.spec
  constructor
  · rintro ⟨e, thrown⟩
    rw [thrown] at ends
    cases ends with
    | failed errno stopped =>
      obtain ⟨final, met⟩ := stopAt_eq_some.mp stopped
      exact ⟨errno, of_decide_eq_false final, met⟩
  · rintro ⟨errno, final, met⟩
    have ending : (ReadAnswer.failed errno).goesOn = false := decide_eq_false final
    have stopped := stopAt_eq_some.mpr ⟨ending, met⟩
    generalize r.result.outcome = o at ends
    cases ends with
    | whole unstopped | blocked unstopped => cases unstopped.symm.trans stopped
    | eof stopped' => cases stopped'.symm.trans stopped
    | failed e => exact ⟨_, rfl⟩

/-- The stream begins with these bytes, and no answer that ends the loop comes before they are
there. -/
theorem returned_of_stream {r : Reading} {bytes : List Byte} (begins : bytes <+: r.stream)
    (size : bytes.length = r.nbytes.toNat) (unstopped : stopAt r.nbytes.toNat r.answers = none) :
    r.result.outcome = .returned r.nbytes ∧ r.result.state.load r.ptr r.nbytes.toNat = bytes := by
  obtain ⟨got, reads, ends⟩ := r.spec
  have enough : r.nbytes.toNat ≤ r.stream.length := size ▸ begins.length_le
  generalize ended : r.result.outcome = o at ends
  cases ends with
  | eof stopped | failed e stopped => cases unstopped.symm.trans stopped
  | blocked _ _ short => exact absurd enough (Nat.not_le_of_lt short)
  | whole _ all =>
    have count : BitVec.ofNat 64 got.length = r.nbytes := by
      rw [all, BitVec.ofNat_toNat, BitVec.setWidth_eq]
    have same : got = bytes := by
      rw [List.prefix_iff_eq_take.mp reads.initial, List.prefix_iff_eq_take.mp begins, all, size]
      rfl
    have small : got.length ≤ 2 ^ 64 := all ▸ Nat.le_of_lt r.nbytes.isLt
    refine ⟨by rw [count], ?_⟩
    rw [reads.state, ← all, Memory.load_store _ _ small, same]

end Reading

/-- It collects the stream up to the count that it returns, throws exactly at an error that is
met in time, and undoes what `write_full` did however the bytes are cut on either side. -/
theorem read_full_collects :
    (∀ r : Reading,
      (∀ count, r.result.outcome = .returned count → Collected r count) ∧
      ((∃ e, r.result.outcome = .thrown e) ↔
        ∃ errno, errno ≠ .EINTR ∧ Met r.nbytes.toNat (.failed errno) r.answers)) ∧
    ∀ (w : Writing) (r : Reading) (used rest : List ReadAnswer), r.nbytes = w.nbytes →
      (∃ unused, w.result.outcome = .returned unused) → r.answers = used ++ rest →
      (∀ a ∈ used, a.goesOn = true) → w.accepted <+: stream used →
        r.result.outcome = .returned w.nbytes ∧
          r.result.state.load r.ptr w.nbytes.toNat = w.bytes := by
  refine ⟨fun r => ⟨fun _ => Reading.collected_of_returned, r.thrown_iff⟩, ?_⟩
  rintro w r used rest size ⟨unused, returned⟩ split each sends
  have whole : r.stream = stream used ++ stream rest := by
    rw [Reading.stream, split, stream, List.flatMap_append]
    rfl
  rw [Writing.accepted_of_returned returned] at sends
  have begins : w.bytes <+: r.stream := whole ▸ sends.trans (List.prefix_append _ _)
  have long : r.nbytes.toNat ≤ (stream used).length := by
    rw [size, ← w.length_bytes]
    exact sends.length_le
  rw [← size]
  apply Reading.returned_of_stream begins
  · rw [w.length_bytes, size]
  · rw [split]
    exact stopAt_of_enough each long rest

/-- The same bytes in other pieces, and one that comes after them. -/
def threeBack : Reading where
  fd := 6
  memory := fun _ => 0
  ptr := 4096
  nbytes := 3
  answers := [.ofBytes (ascii ['A']), .failed .EINTR, .ofBytes (ascii ['B', 'C', 'D'])]
  fits := threeBytes.fits

theorem three_bytes_back :
    threeBack.result.state.load threeBack.ptr threeBytes.nbytes.toNat = threeBytes.bytes :=
  (read_full_collects.2 threeBytes threeBack threeBack.answers [] rfl ⟨[], rfl⟩ rfl (by decide)
    (by decide +kernel)).2

end TcpChat
