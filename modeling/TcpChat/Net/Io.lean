import TcpChat.Net.Kernel

/-! net_io.cpp and net_unix.cpp: the calls that retry, and the wrappers that throw. -/
namespace TcpChat

variable {S : Type}

/-- What `writen` returns: -1 or the count, the `errno` it leaves, and the answers of the
kernel that it did not use. -/
structure WritenReturn where
  value : Int
  errno : Option Errno
  rest : List WriteAnswer

/-- The loop of `writen`. The bytes from `ptr` on, `nleft` of them, are the list. -/
def writenLoop (fd : Fd) (n : Nat) :
    List Byte → List WriteAnswer → Program S Event Exn WritenReturn
  | [], answers => pure ⟨n, none, answers⟩
  | _ :: _, [] => Program.block
  | b :: bs, .failed e :: answers =>
    if e = .EINTR then writenLoop fd n (b :: bs) answers -- and call write() again
    else do
      Program.emit [.writeError fd (some e)]
      pure ⟨-1, some e, answers⟩
  | b :: bs, .accepted nwritten :: answers =>
    if nwritten = 0 then do
      Program.emit [.writeError fd none]
      pure ⟨-1, none, answers⟩
    else do
      Program.emit [.write fd ((b :: bs).take nwritten)]
      writenLoop fd n ((b :: bs).drop nwritten) answers

def writen (fd : Fd) (bytes : List Byte) (answers : List WriteAnswer) :
    Program S Event Exn WritenReturn :=
  writenLoop fd bytes.length bytes answers

/-- Returns the answers of the kernel that are left for the next write. -/
def writeFull (fd : Fd) (bytes : List Byte) (answers : List WriteAnswer) :
    Program S Event Exn (List WriteAnswer) := do
  let r ← writen fd bytes answers
  if r.value ≠ bytes.length then Program.throw (.systemError r.errno "write() failed")
  else pure r.rest

/-- Returns the bytes read; their number is the value `read_fd` returns. -/
def readFd (fd : Fd) (answer : ReadAnswer) (nbytes : Nat) : Program S Event Exn (List Byte) :=
  match answer.read nbytes with
  | .error e => do
    Program.emit [.readError fd e]
    Program.throw (.systemError (some e) "read() failed")
  | .ok bytes => do
    Program.emit [.read fd bytes]
    pure bytes

def closeFd (fd : Fd) (answer : Option Errno) : Program S Event Exn Unit :=
  match answer with
  | some e => Program.throw (.systemError (some e) "close() failed")
  | none => Program.emit [.close fd]

/-- The answers take `n` bytes before any of them is an error or a zero: what is left then. -/
def carry : Nat → List WriteAnswer → Option (List WriteAnswer)
  | 0, answers => some answers
  | _ + 1, [] => none
  | n + 1, .failed e :: answers => if e = .EINTR then carry (n + 1) answers else none
  | n + 1, .accepted k :: answers => if k = 0 then none else carry (n + 1 - k) answers

/-- The answers that are left when they carry each of the blocks in turn. -/
def carryEach : List (List Byte) → List WriteAnswer → Option (List WriteAnswer)
  | [], answers => some answers
  | block :: blocks, answers => (carry block.length answers).bind (carryEach blocks)

/-- An error or a zero comes before the answers took `n` bytes. -/
def refused : Nat → List WriteAnswer → Bool
  | 0, _ => false
  | _ + 1, [] => false
  | n + 1, .failed e :: answers => if e = .EINTR then refused (n + 1) answers else true
  | n + 1, .accepted k :: answers => if k = 0 then true else refused (n + 1 - k) answers

/-- The call moved bytes, or is to be made again. -/
def WriteAnswer.goesOn : WriteAnswer → Bool
  | .accepted k => 0 < k
  | .failed e => e = .EINTR

def WriteAnswer.count : WriteAnswer → Nat
  | .accepted k => k
  | .failed _ => 0

theorem carry_of_enough {used : List WriteAnswer} (each : ∀ a ∈ used, a.goesOn = true) {n : Nat}
    (enough : n ≤ (used.map WriteAnswer.count).sum) (rest : List WriteAnswer) :
    (carry n (used ++ rest)).isSome := by
  induction used generalizing n with
  | nil =>
    have none : n = 0 := by simpa using enough
    subst none
    cases rest <;> rfl
  | cons a used ih =>
    have later := fun n => ih (n := n) fun b member => each b (List.mem_cons_of_mem a member)
    have here := each a List.mem_cons_self
    simp only [List.map_cons, List.sum_cons] at enough
    cases n with
    | zero => rfl
    | succ n =>
      cases a with
      | failed e =>
        have retry : e = .EINTR := of_decide_eq_true here
        simp only [List.cons_append, carry, if_pos retry]
        exact later (n + 1) (by simpa [WriteAnswer.count] using enough)
      | accepted k =>
        have positive : 0 < k := of_decide_eq_true here
        simp only [List.cons_append, carry, if_neg (Nat.ne_of_gt positive)]
        exact later (n + 1 - k) (by simp only [WriteAnswer.count] at enough; omega)

/-- Writes that each take a whole block carry the blocks. -/
theorem carryEach_replicate {m : Nat} {blocks : List (List Byte)} (each : ∀ b ∈ blocks, b.length ≤ m) :
    ∀ {n : Nat}, blocks.length ≤ n →
      (carryEach blocks (List.replicate n (.accepted m))).isSome := by
  induction blocks with
  | nil =>
    intro n _
    rfl
  | cons block blocks ih =>
    intro n count
    have short := each block List.mem_cons_self
    have later (n : Nat) (count : blocks.length ≤ n) :
        (carryEach blocks (List.replicate n (.accepted m))).isSome :=
      ih (fun b member => each b (List.mem_cons_of_mem block member)) count
    rw [List.length_cons] at count
    cases block with
    | nil =>
      simp only [carryEach, List.length_nil, carry, Option.bind_some]
      exact later n (by omega)
    | cons x block =>
      cases n with
      | zero => omega
      | succ n =>
        rw [List.length_cons] at short
        have positive : m ≠ 0 := by omega
        have whole : block.length + 1 - m = 0 := by omega
        simp only [carryEach, List.length_cons, List.replicate_succ, carry, if_neg positive, whole,
          Option.bind_some]
        exact later n (by omega)

def OnlyWrites (fd : Fd) (log : List Event) : Prop :=
  ∀ e ∈ log, (∃ bytes, e = .write fd bytes) ∨ ∃ errno, e = .writeError fd errno

theorem onlyWrites_append {fd : Fd} {log more : List Event} (h : OnlyWrites fd log)
    (h' : OnlyWrites fd more) : OnlyWrites fd (log ++ more) := by
  intro e member
  rcases List.mem_append.mp member with m | m
  · exact h e m
  · exact h' e m

theorem sent_other {fd other : Fd} {log : List Event} (h : OnlyWrites fd log)
    (differs : fd ≠ other) : sent other log = [] := by
  apply List.flatMap_eq_nil_iff.mpr
  intro e member
  rcases h e member with ⟨bytes, rfl⟩ | ⟨errno, rfl⟩
  · simp [Event.sentTo, differs]
  · rfl

/-- How the loop of `writen` ends: it stops short of the bytes exactly where the answers do
not carry them, and then it has sent a proper prefix. -/
def WritenEnds (fd : Fd) (n : Nat) (bytes : List Byte) (answers : List WriteAnswer) (s : S)
    (log : List Event) : Prop :=
  (∃ rest, carry bytes.length answers = some rest ∧ sent fd log = bytes ∧
      writenLoop fd n bytes answers s = ⟨s, log, .returned ⟨n, none, rest⟩⟩) ∨
    (carry bytes.length answers = none ∧ sent fd log <+: bytes ∧ sent fd log ≠ bytes ∧
      (writenLoop fd n bytes answers s = ⟨s, log, .blocked⟩ ∨
        ∃ errno rest, writenLoop fd n bytes answers s =
          ⟨s, log, .returned ⟨-1, errno, rest⟩⟩))

section
variable {fd : Fd} {n k : Nat} {bytes : List Byte} {answers : List WriteAnswer} {s : S}
  {log : List Event}

theorem writenEnds_failed {e : Errno} (left : bytes ≠ []) (final : e ≠ .EINTR) :
    WritenEnds fd n bytes (.failed e :: answers) s [.writeError fd (some e)] := by
  obtain ⟨b, bs, rfl⟩ := List.exists_cons_of_ne_nil left
  refine .inr ⟨?_, ?_, ?_, .inr ⟨some e, answers, ?_⟩⟩
  · simp [carry, final]
  · simp [Event.sentTo]
  · simp [Event.sentTo]
  · simp [writenLoop, final]

theorem writenEnds_zero (left : bytes ≠ []) :
    WritenEnds fd n bytes (.accepted 0 :: answers) s [.writeError fd none] := by
  obtain ⟨b, bs, rfl⟩ := List.exists_cons_of_ne_nil left
  refine .inr ⟨?_, ?_, ?_, .inr ⟨none, answers, ?_⟩⟩
  · simp [carry]
  · simp [Event.sentTo]
  · simp [Event.sentTo]
  · simp [writenLoop]

theorem writenEnds_retry (left : bytes ≠ []) (later : WritenEnds fd n bytes answers s log) :
    WritenEnds fd n bytes (.failed .EINTR :: answers) s log := by
  obtain ⟨b, bs, rfl⟩ := List.exists_cons_of_ne_nil left
  simpa only [WritenEnds, List.length_cons, carry, writenLoop, if_true] using later

theorem writenEnds_accepted (left : bytes ≠ []) (positive : k ≠ 0)
    (later : WritenEnds fd n (bytes.drop k) answers s log) :
    WritenEnds fd n bytes (.accepted k :: answers) s (.write fd (bytes.take k) :: log) := by
  have carried : carry bytes.length (.accepted k :: answers) =
      carry (bytes.drop k).length answers := by
    obtain ⟨b, bs, rfl⟩ := List.exists_cons_of_ne_nil left
    simp [carry, positive]
  have unfolded : writenLoop fd n bytes (.accepted k :: answers) s =
      Program.andThen ⟨s, [.write fd (bytes.take k)], .returned ()⟩
        fun _ => writenLoop fd n (bytes.drop k) answers := by
    obtain ⟨b, bs, rfl⟩ := List.exists_cons_of_ne_nil left
    simp [writenLoop, positive]
  have cut : bytes.take k ++ bytes.drop k = bytes := List.take_append_drop _ _
  have total : sent fd (.write fd (bytes.take k) :: log) = bytes.take k ++ sent fd log := by
    simp [Event.sentTo]
  rw [WritenEnds, carried, unfolded, total]
  rcases later with ⟨rest, hc, hs, he⟩ | ⟨hc, hp, hne, he⟩
  · refine .inl ⟨rest, hc, ?_, ?_⟩
    · rw [hs, cut]
    · simp [he]
  · refine .inr ⟨hc, ?_, ?_, ?_⟩
    · exact (List.prefix_append_right_inj _).mpr hp |>.trans (by rw [cut])
    · intro eq
      exact hne (List.append_cancel_left (eq.trans cut.symm))
    · rcases he with he | ⟨errno, rest, he⟩
      · exact .inl (by simp [he])
      · exact .inr ⟨errno, rest, by simp [he]⟩

end

theorem writenLoop_spec (fd : Fd) (n : Nat) (bytes : List Byte) (answers : List WriteAnswer)
    (s : S) : ∃ log, OnlyWrites fd log ∧ WritenEnds fd n bytes answers s log := by
  induction answers generalizing bytes with
  | nil =>
    cases bytes with
    | nil => exact ⟨[], by simp [OnlyWrites], .inl ⟨[], rfl, rfl, rfl⟩⟩
    | cons b bs => exact ⟨[], by simp [OnlyWrites], .inr ⟨rfl, by simp, by simp, .inl rfl⟩⟩
  | cons answer answers ih =>
    cases bytes with
    | nil => exact ⟨[], by simp [OnlyWrites], .inl ⟨_, rfl, rfl, rfl⟩⟩
    | cons b bs =>
      have left : b :: bs ≠ [] := List.cons_ne_nil b bs
      cases answer with
      | failed e =>
        by_cases retry : e = .EINTR
        · obtain ⟨log, only, ends⟩ := ih (b :: bs)
          subst retry
          exact ⟨log, only, writenEnds_retry left ends⟩
        · exact ⟨_, by simp [OnlyWrites], writenEnds_failed left retry⟩
      | accepted k =>
        by_cases zero : k = 0
        · subst zero
          exact ⟨_, by simp [OnlyWrites], writenEnds_zero left⟩
        · obtain ⟨log, only, ends⟩ := ih ((b :: bs).drop k)
          have head : OnlyWrites fd [.write fd ((b :: bs).take k)] := by simp [OnlyWrites]
          exact ⟨_, onlyWrites_append head only, writenEnds_accepted left zero ends⟩

theorem writeFull_spec (fd : Fd) (bytes : List Byte) (answers : List WriteAnswer) (s : S) :
    ∃ log, OnlyWrites fd log ∧
      ((∃ rest, carry bytes.length answers = some rest ∧ sent fd log = bytes ∧
          writeFull fd bytes answers s = ⟨s, log, .returned rest⟩) ∨
        (carry bytes.length answers = none ∧ sent fd log <+: bytes ∧ sent fd log ≠ bytes ∧
          (writeFull fd bytes answers s = ⟨s, log, .blocked⟩ ∨
            ∃ errno, writeFull fd bytes answers s =
              ⟨s, log, .thrown (.systemError errno "write() failed")⟩))) := by
  obtain ⟨log, only, ends⟩ := writenLoop_spec fd bytes.length bytes answers s
  refine ⟨log, only, ?_⟩
  rcases ends with ⟨rest, hc, hs, he⟩ | ⟨hc, hp, hne, he⟩
  · exact .inl ⟨rest, hc, hs, by simp [writeFull, writen, he]⟩
  · refine .inr ⟨hc, hp, hne, ?_⟩
    rcases he with he | ⟨errno, rest, he⟩
    · exact .inl (by simp [writeFull, writen, he])
    · have short : (-1 : Int) ≠ bytes.length := by omega
      exact .inr ⟨errno, by simp [writeFull, writen, he, short]⟩

theorem writenLoop_refused (fd : Fd) (n : Nat) (bytes : List Byte) (answers : List WriteAnswer)
    (s : S) :
    (∃ r, (writenLoop fd n bytes answers s).outcome = .returned r ∧ r.value = -1) ↔
      refused bytes.length answers = true := by
  induction answers generalizing bytes with
  | nil =>
    cases bytes with
    | nil => simp [writenLoop, refused]
    | cons b bs => simp [writenLoop, refused]
  | cons answer answers ih =>
    cases bytes with
    | nil => simp [writenLoop, refused]
    | cons b bs =>
      cases answer with
      | failed e =>
        by_cases retry : e = .EINTR
        · simpa only [List.length_cons, refused, writenLoop, if_pos retry] using ih (b :: bs)
        · simp [writenLoop, refused, retry]
      | accepted k =>
        by_cases zero : k = 0
        · simp [writenLoop, refused, zero]
        · have later := ih ((b :: bs).drop k)
          simp only [List.length_drop, List.length_cons] at later
          simpa [writenLoop, refused, zero] using later

/-- `write_full` throws exactly where a write is refused. -/
theorem writeFull_refused (fd : Fd) (bytes : List Byte) (answers : List WriteAnswer) (s : S) :
    (∃ x, (writeFull fd bytes answers s).outcome = .thrown x) ↔
      refused bytes.length answers = true := by
  rw [← writenLoop_refused fd bytes.length bytes answers s]
  obtain ⟨log, -, ⟨rest, -, -, eq⟩ | ⟨-, -, -, eq | ⟨errno, rest, eq⟩⟩⟩ :=
    writenLoop_spec fd bytes.length bytes answers s
  · simp [writeFull, writen, eq]
  · simp [writeFull, writen, eq]
  · have short : (-1 : Int) ≠ bytes.length := by omega
    simp [writeFull, writen, eq, short]

def writeEach (write : Fd → List WriteAnswer) (bytes : List Byte) :
    List Fd → Program S Event Exn Unit
  | [] => pure ()
  | fd :: fds => do
    let _ ← writeFull fd bytes (write fd)
    writeEach write bytes fds

def WritesTo (fds : List Fd) (log : List Event) : Prop :=
  ∀ e ∈ log, ∃ fd ∈ fds, (∃ bytes, e = .write fd bytes) ∨ ∃ errno, e = .writeError fd errno

theorem sent_outside {fds : List Fd} {log : List Event} (h : WritesTo fds log) {fd : Fd}
    (outside : fd ∉ fds) : sent fd log = [] := by
  apply List.flatMap_eq_nil_iff.mpr
  intro e member
  obtain ⟨y, hy, ⟨bytes, rfl⟩ | ⟨errno, rfl⟩⟩ := h e member
  · have differs : y ≠ fd := fun eq => outside (eq ▸ hy)
    simp [Event.sentTo, differs]
  · rfl

theorem writesTo_cons {fd : Fd} {fds : List Fd} {log more : List Event} (only : OnlyWrites fd log)
    (inside : WritesTo fds more) : WritesTo (fd :: fds) (log ++ more) := by
  intro e member
  rcases List.mem_append.mp member with first | later
  · exact ⟨fd, List.mem_cons_self, only e first⟩
  · obtain ⟨y, among, what⟩ := inside e later
    exact ⟨y, List.mem_cons_of_mem fd among, what⟩

/-- Either every descriptor gets the bytes and the loop goes through, or it stops at the
first one whose answers do not carry them; none ever gets anything but a prefix. -/
theorem writeEach_spec (write : Fd → List WriteAnswer) (bytes : List Byte) (fds : List Fd)
    (distinct : fds.Nodup) (s : S) :
    ∃ log, WritesTo fds log ∧ (∀ fd, sent fd log <+: bytes) ∧
      ((∀ fd ∈ fds, (carry bytes.length (write fd)).isSome) ∧
          (∀ fd ∈ fds, sent fd log = bytes) ∧
          writeEach write bytes fds s = ⟨s, log, .returned ()⟩ ∨
        (∃ fd ∈ fds, carry bytes.length (write fd) = none) ∧
          (writeEach write bytes fds s = ⟨s, log, .blocked⟩ ∨
            ∃ errno, writeEach write bytes fds s =
              ⟨s, log, .thrown (.systemError errno "write() failed")⟩)) := by
  induction fds with
  | nil => exact ⟨[], by simp [WritesTo], by simp, .inl ⟨by simp, by simp, rfl⟩⟩
  | cons fd fds ih =>
    obtain ⟨fresh, distinct⟩ := List.nodup_cons.mp distinct
    obtain ⟨log, only, written⟩ := writeFull_spec fd bytes (write fd) s
    rcases written with ⟨rest, carried, all, returned⟩ | ⟨short, part, _, stopped⟩
    · obtain ⟨log', inside, parts, ends⟩ := ih distinct
      have own : sent fd (log ++ log') = bytes := by
        rw [sent_append, all, sent_outside inside fresh, List.append_nil]
      have others (y : Fd) (other : y ≠ fd) : sent y (log ++ log') = sent y log' := by
        rw [sent_append, sent_other only other.symm, List.nil_append]
      refine ⟨log ++ log', writesTo_cons only inside, ?_, ?_⟩
      · intro y
        by_cases hy : y = fd
        · rw [hy, own]
        · rw [others y hy]
          exact parts y
      · rcases ends with ⟨carry_all, each, returned'⟩ | ⟨fails, stopped⟩
        · refine .inl ⟨List.forall_mem_cons.mpr ⟨by simp [carried], carry_all⟩, ?_,
            by simp [writeEach, returned, returned']⟩
          refine List.forall_mem_cons.mpr ⟨own, fun y hy => ?_⟩
          rw [others y (ne_of_mem_of_not_mem hy fresh), each y hy]
        · obtain ⟨y, hy, none⟩ := fails
          refine .inr ⟨⟨y, List.mem_cons_of_mem fd hy, none⟩, ?_⟩
          rcases stopped with stopped | ⟨errno, stopped⟩
          · exact .inl (by simp [writeEach, returned, stopped])
          · exact .inr ⟨errno, by simp [writeEach, returned, stopped]⟩
    · have here : WritesTo (fd :: fds) log := fun e member => ⟨fd, List.mem_cons_self, only e member⟩
      refine ⟨log, here, ?_, .inr ⟨⟨fd, List.mem_cons_self, short⟩, ?_⟩⟩
      · intro y
        by_cases hy : y = fd
        · rw [hy]; exact part
        · rw [sent_other only (fun eq => hy eq.symm)]
          exact List.nil_prefix
      · rcases stopped with stopped | ⟨errno, stopped⟩
        · exact .inl (by simp [writeEach, stopped])
        · exact .inr ⟨errno, by simp [writeEach, stopped]⟩

end TcpChat
