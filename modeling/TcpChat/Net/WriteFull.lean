import TcpChat.Lib.Memory
import TcpChat.Net.Io

/-! `write_full` on a machine with 64 bits: a pointer that moves through memory, an unsigned
count, and a signed result that is compared with the unsigned one at the end. -/
namespace TcpChat

abbrev Ram : Type := Memory 64 Byte

def ssizeMax : Nat := 2 ^ 63 - 1

/-- One call of `read` or `write`: the range it is given, and the bytes it moves. -/
structure Transfer where
  fd : Fd
  ptr : BitVec 64
  count : BitVec 64
  bytes : List Byte
  deriving DecidableEq

def moved (log : List Transfer) : List Byte := log.flatMap (·.bytes)

/-- The range lies within the `n` bytes from `ptr` on. -/
def Transfer.Inside (t : Transfer) (ptr : BitVec 64) (n : Nat) : Prop :=
  (t.ptr - ptr).toNat + t.count.toNat ≤ n

/-- What a call returns, a `ssize_t`, and the `errno` that it sets. -/
structure CallReturn where
  value : BitVec 64
  errno : Option Errno := none

namespace Words

abbrev Run (α : Type) : Type := Program Ram Transfer Exn α

def write (fd : Fd) (ptr nbytes : BitVec 64) : WriteAnswer → Run CallReturn
  | .failed e => do
    Program.emit [⟨fd, ptr, nbytes, []⟩]
    pure ⟨-1, some e⟩
  | .accepted k => do
    let memory ← Program.get
    let bytes := memory.load ptr (min k nbytes.toNat)
    Program.emit [⟨fd, ptr, nbytes, bytes⟩]
    pure ⟨BitVec.ofNat 64 bytes.length, none⟩

structure WritenReturn where
  value : BitVec 64
  errno : Option Errno
  rest : List WriteAnswer

def writenLoop (fd : Fd) (n : BitVec 64) (answers : List WriteAnswer) (ptr nleft : BitVec 64) :
    Run WritenReturn :=
  if 0 < nleft then
    match answers with
    | [] => Program.block
    | answer :: answers => do
      let r ← write fd ptr nleft answer
      if r.value.toInt ≤ 0 then
        if r.value.toInt < 0 ∧ r.errno = some .EINTR then
          writenLoop fd n answers (ptr + 0) (nleft - 0) -- and call write() again
        else pure ⟨-1, r.errno, answers⟩
      else writenLoop fd n answers (ptr + r.value) (nleft - r.value)
  else pure ⟨n, none, answers⟩

def writen (fd : Fd) (ptr n : BitVec 64) (answers : List WriteAnswer) : Run WritenReturn :=
  writenLoop fd n answers ptr n

/-- The comparison is one of unsigned words. -/
def writeFull (fd : Fd) (ptr nbytes : BitVec 64) (answers : List WriteAnswer) :
    Run (List WriteAnswer) := do
  let r ← writen fd ptr nbytes answers
  if r.value ≠ nbytes then Program.throw (.systemError r.errno "write() failed")
  else pure r.rest

/-! The loop over words does what the loop over lists does with the bytes of the range. -/

/-- An `int64` result as the word that holds it. -/
def ofReturn (r : TcpChat.WritenReturn) : WritenReturn where
  value := BitVec.ofInt 64 r.value
  errno := r.errno
  rest := r.rest

def ofOutcome : Outcome Exn TcpChat.WritenReturn → Outcome Exn WritenReturn
  | .returned r => .returned (ofReturn r)
  | .thrown e => .thrown e
  | .blocked => .blocked
  | .undefined => .undefined

/-- A call within the range, which leaves memory as it is. -/
structure Writes {α β S : Type} (fd : Fd) (ptr : BitVec 64) (n : Nat) (m : Ram)
    (r : Result Ram Transfer Exn α) (r' : Result S Event Exn β) : Prop where
  state : r.state = m
  moved : moved r.events = sent fd r'.events
  inside : ∀ t ∈ r.events, t.fd = fd ∧ t.Inside ptr n

theorem inside_of_later {t : Transfer} {ptr : BitVec 64} (step : BitVec 64) {n : Nat}
    (short : n < 2 ^ 64) (within : step.toNat ≤ n)
    (inside : t.Inside (ptr + step) (n - step.toNat)) : t.Inside ptr n := by
  unfold Transfer.Inside at *
  bv_omega

/-- A count that a call can return is the same number signed and unsigned. -/
theorem toInt_count {k : Nat} (fits : k ≤ ssizeMax) : (BitVec.ofNat 64 k).toInt = k := by
  unfold ssizeMax at fits
  have same : (BitVec.ofNat 64 k).toNat = k := Memory.toNat_offset (by omega)
  rw [BitVec.toInt_eq_toNat_of_lt (by omega), same]

/-- The result of a call that failed. -/
theorem toInt_failure : (18446744073709551615#64 : BitVec 64).toInt = -1 := by decide

theorem inside_self (fd : Fd) (ptr nleft : BitVec 64) (bytes : List Byte) :
    Transfer.Inside ⟨fd, ptr, nleft, bytes⟩ ptr nleft.toNat := by
  simp [Transfer.Inside]

/-- The calls after a first one, when that one moved what the list loop wrote. -/
theorem writes_cons {S : Type} {fd : Fd} {ptr nleft : BitVec 64} (step : BitVec 64) {m : Ram}
    {bytes : List Byte} {r : Result Ram Transfer Exn WritenReturn}
    {r' : Result S Event Exn TcpChat.WritenReturn} {first : List Event}
    (within : step.toNat ≤ nleft.toNat) (same : sent fd first = bytes)
    (later : Writes fd (ptr + step) (nleft.toNat - step.toNat) m r r') :
    Writes fd ptr nleft.toNat m
      (⟨r.state, ⟨fd, ptr, nleft, bytes⟩ :: r.events, r.outcome⟩ : Result Ram Transfer Exn _)
      (⟨r'.state, first ++ r'.events, r'.outcome⟩ : Result S Event Exn _) := by
  refine ⟨later.state, ?_, List.forall_mem_cons.mpr ⟨⟨rfl, inside_self fd ptr nleft bytes⟩, ?_⟩⟩
  · rw [sent_append, same, ← later.moved]
    rfl
  · intro t member
    obtain ⟨own, inside⟩ := later.inside t member
    exact ⟨own, inside_of_later step nleft.isLt within inside⟩

/-! One pass of the loop, by what the call answers. -/

section
variable {fd : Fd} {n ptr nleft : BitVec 64} {answers : List WriteAnswer} {m : Ram}

theorem writenLoop_failed {e : Errno} (more : nleft ≠ 0#64) (final : e ≠ .EINTR) :
    writenLoop fd n (.failed e :: answers) ptr nleft m =
      ⟨m, [⟨fd, ptr, nleft, []⟩], .returned ⟨-1, some e, answers⟩⟩ := by
  simp [writenLoop, more, write, final]

theorem writenLoop_retry (more : nleft ≠ 0#64) :
    writenLoop fd n (.failed .EINTR :: answers) ptr nleft m =
      ⟨(writenLoop fd n answers ptr nleft m).state,
        ⟨fd, ptr, nleft, []⟩ :: (writenLoop fd n answers ptr nleft m).events,
        (writenLoop fd n answers ptr nleft m).outcome⟩ := by
  simp [writenLoop, more, write, toInt_failure]

theorem writenLoop_zero (more : nleft ≠ 0#64) :
    writenLoop fd n (.accepted 0 :: answers) ptr nleft m =
      ⟨m, [⟨fd, ptr, nleft, []⟩], .returned ⟨-1, none, answers⟩⟩ := by
  simp [writenLoop, more, write]

theorem writenLoop_moved {k : Nat} (fits : nleft.toNat ≤ ssizeMax) (more : nleft ≠ 0#64)
    (positive : k ≠ 0) :
    writenLoop fd n (.accepted k :: answers) ptr nleft m =
      Program.andThen
        ⟨m, [⟨fd, ptr, nleft, m.load ptr (min k nleft.toNat)⟩], .returned ()⟩
        fun _ => writenLoop fd n answers (ptr + BitVec.ofNat 64 (min k nleft.toNat))
          (nleft - BitVec.ofNat 64 (min k nleft.toNat)) := by
  have short : min k nleft.toNat ≤ ssizeMax := Nat.le_trans (Nat.min_le_right _ _) fits
  have left : 0 < nleft.toNat := by bv_omega
  have some : 0 < min k nleft.toNat := Nat.lt_min.mpr ⟨Nat.pos_of_ne_zero positive, left⟩
  have counted := toInt_count short
  have forward : ¬ ((min k nleft.toNat : Nat) : Int) ≤ 0 := by omega
  rw [writenLoop, if_pos (by bv_omega)]
  simp only [write, Program.bind_apply, Program.get_apply, Program.andThen_returned,
    Program.emit_apply, Program.pure_apply, Memory.length_load, counted, if_neg forward]
  simp

end

/-- The two loops, one after the other: what they are said to share. -/
def Refined {S : Type} (fd : Fd) (ptr : BitVec 64) (n : Nat) (m : Ram)
    (r : Result Ram Transfer Exn WritenReturn)
    (r' : Result S Event Exn TcpChat.WritenReturn) : Prop :=
  Writes fd ptr n m r r' ∧ r.outcome = ofOutcome r'.outcome

section
variable {S : Type} {fd : Fd} {n ptr nleft : BitVec 64} {answers : List WriteAnswer} {m : Ram}
  {s : S}

theorem refined_done : Refined fd ptr 0 m (writenLoop fd n answers ptr 0 m)
    (TcpChat.writenLoop fd n.toNat [] answers s) := by
  have ours : writenLoop fd n answers ptr 0 m = ⟨m, [], .returned ⟨n, none, answers⟩⟩ := by
    cases answers <;> simp [writenLoop]
  have theirs : TcpChat.writenLoop fd n.toNat [] answers s =
      ⟨s, [], .returned ⟨n.toNat, none, answers⟩⟩ := by
    cases answers <;> rfl
  rw [ours, theirs]
  refine ⟨⟨rfl, rfl, by simp⟩, ?_⟩
  simp [ofOutcome, ofReturn]

theorem load_eq_cons (m : Ram) (ptr : BitVec 64) (more : nleft ≠ 0#64) :
    ∃ b bs, m.load ptr nleft.toNat = b :: bs := by
  have left : 0 < nleft.toNat := by bv_omega
  exact List.exists_cons_of_length_pos (Nat.lt_of_lt_of_eq left (m.length_load ptr _).symm)

theorem refined_blocked (more : nleft ≠ 0#64) :
    Refined fd ptr nleft.toNat m (writenLoop fd n [] ptr nleft m)
      (TcpChat.writenLoop fd n.toNat (m.load ptr nleft.toNat) [] s) := by
  obtain ⟨b, bs, eq⟩ := load_eq_cons m ptr more
  have ours : writenLoop fd n [] ptr nleft m = ⟨m, [], .blocked⟩ := by simp [writenLoop, more]
  rw [eq, ours]
  exact ⟨⟨rfl, rfl, by simp⟩, rfl⟩

theorem refined_failed {e : Errno} (more : nleft ≠ 0#64) (final : e ≠ .EINTR) :
    Refined fd ptr nleft.toNat m (writenLoop fd n (.failed e :: answers) ptr nleft m)
      (TcpChat.writenLoop fd n.toNat (m.load ptr nleft.toNat) (.failed e :: answers) s) := by
  obtain ⟨b, bs, eq⟩ := load_eq_cons m ptr more
  rw [writenLoop_failed more final, eq]
  refine ⟨⟨rfl, ?_, by simpa using inside_self fd ptr nleft []⟩, ?_⟩
  · simp [TcpChat.writenLoop, final, moved, Event.sentTo]
  · simp [TcpChat.writenLoop, final, ofOutcome, ofReturn]

theorem refined_zero (more : nleft ≠ 0#64) :
    Refined fd ptr nleft.toNat m (writenLoop fd n (.accepted 0 :: answers) ptr nleft m)
      (TcpChat.writenLoop fd n.toNat (m.load ptr nleft.toNat) (.accepted 0 :: answers) s) := by
  obtain ⟨b, bs, eq⟩ := load_eq_cons m ptr more
  rw [writenLoop_zero more, eq]
  refine ⟨⟨rfl, ?_, by simpa using inside_self fd ptr nleft []⟩, ?_⟩
  · simp [TcpChat.writenLoop, moved, Event.sentTo]
  · simp [TcpChat.writenLoop, ofOutcome, ofReturn]

theorem refined_retry (more : nleft ≠ 0#64)
    (later : Refined fd ptr nleft.toNat m (writenLoop fd n answers ptr nleft m)
      (TcpChat.writenLoop fd n.toNat (m.load ptr nleft.toNat) answers s)) :
    Refined fd ptr nleft.toNat m (writenLoop fd n (.failed .EINTR :: answers) ptr nleft m)
      (TcpChat.writenLoop fd n.toNat (m.load ptr nleft.toNat) (.failed .EINTR :: answers) s) := by
  obtain ⟨b, bs, eq⟩ := load_eq_cons m ptr more
  obtain ⟨writes, outcome⟩ := later
  have same : TcpChat.writenLoop fd n.toNat (m.load ptr nleft.toNat) (.failed .EINTR :: answers) s =
      TcpChat.writenLoop fd n.toNat (m.load ptr nleft.toNat) answers s := by
    rw [eq]
    rfl
  rw [writenLoop_retry more, same]
  refine ⟨⟨writes.state, writes.moved, ?_⟩, outcome⟩
  exact List.forall_mem_cons.mpr ⟨⟨rfl, inside_self fd ptr nleft []⟩, writes.inside⟩

/-- The call takes `j` bytes, of the range as of the list. -/
theorem refined_moved {k j : Nat} (fits : nleft.toNat ≤ ssizeMax) (more : nleft ≠ 0#64)
    (positive : k ≠ 0) (taken : j = min k nleft.toNat)
    (later : Refined fd (ptr + BitVec.ofNat 64 j) (nleft - BitVec.ofNat 64 j).toNat m
      (writenLoop fd n answers (ptr + BitVec.ofNat 64 j) (nleft - BitVec.ofNat 64 j) m)
      (TcpChat.writenLoop fd n.toNat
        (m.load (ptr + BitVec.ofNat 64 j) (nleft - BitVec.ofNat 64 j).toNat) answers s)) :
    Refined fd ptr nleft.toNat m (writenLoop fd n (.accepted k :: answers) ptr nleft m)
      (TcpChat.writenLoop fd n.toNat (m.load ptr nleft.toNat) (.accepted k :: answers) s) := by
  have short : j ≤ nleft.toNat := taken ▸ Nat.min_le_right _ _
  have step := Memory.toNat_offset (Nat.lt_of_le_of_lt short nleft.isLt)
  have first : m.load ptr j = (m.load ptr nleft.toNat).take k := by rw [taken, m.load_take]
  have rest : m.load (ptr + BitVec.ofNat 64 j) (nleft.toNat - j) =
      (m.load ptr nleft.toNat).drop k := by
    rw [taken, m.load_drop]
  have theirs : TcpChat.writenLoop fd n.toNat (m.load ptr nleft.toNat) (.accepted k :: answers) s =
      Program.andThen ⟨s, [.write fd ((m.load ptr nleft.toNat).take k)], .returned ()⟩
        fun _ => TcpChat.writenLoop fd n.toNat ((m.load ptr nleft.toNat).drop k) answers := by
    obtain ⟨b, bs, eq⟩ := load_eq_cons m ptr more
    rw [eq]
    simp [TcpChat.writenLoop, positive]
  obtain ⟨writes, outcome⟩ := later
  rw [Memory.toNat_sub_offset short, rest] at writes outcome
  rw [writenLoop_moved fits more positive, theirs, ← taken, first]
  refine ⟨writes_cons (BitVec.ofNat 64 j) ?_ ?_ ?_, outcome⟩
  · rw [step]
    exact short
  · simp [Event.sentTo]
  · rw [step]
    exact writes

end

theorem writenLoop_refines {S : Type} (fd : Fd) (n : BitVec 64) (answers : List WriteAnswer)
    (ptr nleft : BitVec 64) (m : Ram) (s : S) (fits : nleft.toNat ≤ ssizeMax) :
    Refined fd ptr nleft.toNat m (writenLoop fd n answers ptr nleft m)
      (TcpChat.writenLoop fd n.toNat (m.load ptr nleft.toNat) answers s) := by
  induction answers generalizing ptr nleft with
  | nil =>
    by_cases last : nleft = 0#64
    · subst last
      exact refined_done
    · exact refined_blocked last
  | cons answer answers ih =>
    by_cases last : nleft = 0#64
    · subst last
      exact refined_done
    · cases answer with
      | failed e =>
        by_cases retry : e = .EINTR
        · subst retry
          exact refined_retry last (ih ptr nleft fits)
        · exact refined_failed last retry
      | accepted k =>
        by_cases zero : k = 0
        · subst zero
          exact refined_zero last
        · refine refined_moved fits last zero rfl (ih _ _ ?_)
          rw [Memory.toNat_sub_offset (Nat.min_le_right _ _)]
          exact Nat.le_trans (Nat.sub_le _ _) fits

theorem writeFull_refines {S : Type} (fd : Fd) (ptr nbytes : BitVec 64)
    (answers : List WriteAnswer) (m : Ram) (s : S) (fits : nbytes.toNat ≤ ssizeMax) :
    Writes fd ptr nbytes.toNat m (writeFull fd ptr nbytes answers m)
        (TcpChat.writeFull fd (m.load ptr nbytes.toNat) answers s) ∧
      (writeFull fd ptr nbytes answers m).outcome =
        (TcpChat.writeFull fd (m.load ptr nbytes.toNat) answers s).outcome := by
  obtain ⟨writes, outcome⟩ := writenLoop_refines fd nbytes answers ptr nbytes m s fits
  obtain ⟨log, -, ends⟩ :=
    writenLoop_spec fd nbytes.toNat (m.load ptr nbytes.toNat) answers s
  have whole : BitVec.ofInt 64 nbytes.toNat = nbytes := by simp
  have minus : BitVec.ofInt 64 (-1) = -1 := by decide
  have differs : 18446744073709551615#64 ≠ nbytes := by
    unfold ssizeMax at fits
    bv_omega
  have ours : writeFull fd ptr nbytes answers m =
      Program.andThen (writenLoop fd nbytes answers ptr nbytes m) fun r =>
        if r.value ≠ nbytes then Program.throw (.systemError r.errno "write() failed")
        else pure r.rest := rfl
  rw [ours, TcpChat.writeFull, TcpChat.writen, Program.bind_apply, m.length_load]
  generalize writenLoop fd nbytes answers ptr nbytes m = r at writes outcome
  obtain ⟨state, events, o⟩ := r
  obtain ⟨kept, moves, inside⟩ := writes
  rcases ends with ⟨rest, -, -, theirs⟩ | ⟨-, -, -, theirs | ⟨errno, rest, theirs⟩⟩
  · rw [theirs] at moves outcome ⊢
    simp only [ofOutcome, ofReturn, whole] at outcome
    subst outcome
    simpa using ⟨kept, moves, inside⟩
  · rw [theirs] at moves outcome ⊢
    simp only [ofOutcome] at outcome
    subst outcome
    exact ⟨⟨kept, moves, inside⟩, rfl⟩
  · rw [theirs] at moves outcome ⊢
    simp only [ofOutcome, ofReturn, minus] at outcome
    subst outcome
    have short : (-1 : Int) ≠ nbytes.toNat := by omega
    simpa [differs, short] using ⟨kept, moves, inside⟩

end Words

/-- A call of `write_full` on a range of memory, with the answers of the kernel to its writes. -/
structure Writing where
  fd : Fd
  memory : Ram
  ptr : BitVec 64
  nbytes : BitVec 64
  answers : List WriteAnswer
  fits : nbytes.toNat ≤ ssizeMax

namespace Writing

def bytes (w : Writing) : List Byte := w.memory.load w.ptr w.nbytes.toNat

def result (w : Writing) : Result Ram Transfer Exn (List WriteAnswer) :=
  Words.writeFull w.fd w.ptr w.nbytes w.answers w.memory

/-- What the descriptor has accepted. -/
def accepted (w : Writing) : List Byte := moved w.result.events

theorem length_bytes (w : Writing) : w.bytes.length = w.nbytes.toNat := w.memory.length_load _ _

/-- How it ends, and what has been accepted by then. -/
theorem ends (w : Writing) :
    (∃ rest, carry w.nbytes.toNat w.answers = some rest ∧ w.accepted = w.bytes ∧
        w.result.outcome = .returned rest) ∨
      carry w.nbytes.toNat w.answers = none ∧ w.accepted <+: w.bytes ∧ w.accepted ≠ w.bytes ∧
        (w.result.outcome = .blocked ∨
          ∃ errno, w.result.outcome = .thrown (.systemError errno "write() failed")) := by
  obtain ⟨⟨-, moves, -⟩, outcome⟩ :=
    Words.writeFull_refines w.fd w.ptr w.nbytes w.answers w.memory () w.fits
  have accepted : w.accepted = sent w.fd (writeFull w.fd w.bytes w.answers ()).events := moves
  have ended : w.result.outcome = (writeFull w.fd w.bytes w.answers ()).outcome := outcome
  obtain ⟨log, -, ends⟩ := writeFull_spec w.fd w.bytes w.answers ()
  rw [w.length_bytes] at ends
  rw [accepted, ended]
  rcases ends with ⟨rest, carried, all, eq⟩ | ⟨short, part, proper, eq | ⟨errno, eq⟩⟩
  · rw [eq]
    exact .inl ⟨rest, carried, all, rfl⟩
  · rw [eq]
    exact .inr ⟨short, part, proper, .inl rfl⟩
  · rw [eq]
    exact .inr ⟨short, part, proper, .inr ⟨errno, rfl⟩⟩

theorem accepted_of_returned {w : Writing} {rest : List WriteAnswer}
    (returned : w.result.outcome = .returned rest) : w.accepted = w.bytes := by
  rcases w.ends with ⟨_, _, all, _⟩ | ⟨_, _, _, eq | ⟨_, eq⟩⟩
  · exact all
  · rw [eq] at returned
    cases returned
  · rw [eq] at returned
    cases returned

end Writing

/-- All of the bytes in order where it returns, a proper prefix where it throws, and nothing
from outside the range in any case. -/
theorem write_full_transfers (w : Writing) :
    (∀ rest, w.result.outcome = .returned rest → w.accepted = w.bytes) ∧
    (∀ e, w.result.outcome = .thrown e → w.accepted <+: w.bytes ∧ w.accepted ≠ w.bytes) ∧
    (∀ used rest, w.answers = used ++ rest → (∀ a ∈ used, a.goesOn = true) →
      w.nbytes.toNat ≤ (used.map WriteAnswer.count).sum →
        ∃ unused, w.result.outcome = .returned unused) ∧
    (∀ t ∈ w.result.events, t.fd = w.fd ∧ t.Inside w.ptr w.nbytes.toNat) ∧
    w.result.state = w.memory := by
  obtain ⟨⟨kept, -, inside⟩, -⟩ :=
    Words.writeFull_refines w.fd w.ptr w.nbytes w.answers w.memory () w.fits
  refine ⟨fun rest => Writing.accepted_of_returned, ?_, ?_, inside, kept⟩
  · intro e thrown
    rcases w.ends with ⟨_, _, _, eq⟩ | ⟨_, part, proper, _⟩
    · rw [eq] at thrown
      cases thrown
    · exact ⟨part, proper⟩
  · intro used rest split each enough
    have carried := carry_of_enough each enough rest
    rw [← split] at carried
    rcases w.ends with ⟨unused, _, _, eq⟩ | ⟨none, _⟩
    · exact ⟨unused, eq⟩
    · rw [none] at carried
      cases carried

/-- Three bytes that go out in two pieces, with an interruption between them. -/
def threeBytes : Writing where
  fd := 5
  memory := fun a => UInt8.ofNat a.toNat
  ptr := 65
  nbytes := 3
  answers := [.accepted 2, .failed .EINTR, .accepted 7]
  fits := by decide

theorem three_bytes_accepted : threeBytes.accepted = ascii ['A', 'B', 'C'] :=
  (write_full_transfers threeBytes).1 [] rfl

end TcpChat
