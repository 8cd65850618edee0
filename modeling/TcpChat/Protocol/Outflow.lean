import TcpChat.Protocol.Delivery
import TcpChat.Protocol.Queue

/-! One buffer over its use: bytes come in, and go out to strings and to descriptors, in any order
and with writes that may break off anywhere. -/
namespace TcpChat.Buffer
open Machine

/-! One line to a descriptor. -/

theorem consumeOnceFd_spec (fd : Fd) {b : Buffer} (valid : b.Valid) (delim : Byte)
    (answers : List WriteAnswer) :
    ∃ b' log, b'.Valid ∧
      ((∃ rest, Checked.consumeOnceFd fd delim answers b = ⟨b', log, .returned rest⟩ ∧
          sent fd log = Framing.first delim b.content ∧
          b'.content = b.content.drop (Framing.first delim b.content).length) ∨
        (delim ∈ b.content ∧ b'.content = b.content ∧ sent fd log <+: Framing.first delim b.content ∧
          sent fd log ≠ Framing.first delim b.content ∧
          (Checked.consumeOnceFd fd delim answers b = ⟨b', log, .blocked⟩ ∨
            ∃ errno, Checked.consumeOnceFd fd delim answers b =
              ⟨b', log, .thrown (.systemError errno "write() failed")⟩))) := by
  by_cases present : delim ∈ b.content
  · obtain ⟨b', dropped, valid', live, bytes, found⟩ := take_first_spec valid present
    have go_on : b.findDelim delim ≥ 0 := by omega
    obtain ⟨inside, len⟩ := Checked.line_inside found
    obtain ⟨log, _, written⟩ := writeFull_spec fd (Framing.first delim b.content) answers b
    rcases written with ⟨rest, _, all, returned⟩ | ⟨_, part, short, stuck⟩
    · refine ⟨b', log, valid', .inl ⟨rest, ?_, all, live⟩⟩
      simp [Checked.consumeOnceFd, Checked.findDelim_eq valid, go_on, len, Checked.load_eq inside,
        bytes, returned, Checked.compact_eq valid, dropped]
    · refine ⟨b, log, valid, .inr ⟨present, rfl, part, short, ?_⟩⟩
      rcases stuck with stuck | ⟨errno, stuck⟩
      · exact .inl (by simp [Checked.consumeOnceFd, Checked.findDelim_eq valid, go_on, len,
          Checked.load_eq inside, bytes, stuck])
      · exact .inr ⟨errno, by simp [Checked.consumeOnceFd, Checked.findDelim_eq valid, go_on, len,
          Checked.load_eq inside, bytes, stuck]⟩
  · have none := (Framing.first_eq_nil_iff delim b.content).mpr present
    refine ⟨b, [], valid, .inl ⟨answers, ?_, by rw [none]; rfl, by simp [none]⟩⟩
    simp [Checked.consumeOnceFd, Checked.findDelim_eq valid, findDelim_neg present]

/-! What one call gives and takes. -/

/-- The members that a stream has: what is counted was written, and nothing is cleared. -/
def Method.Streaming : Method → Prop
  | .increaseSize _ | .clear => False
  | _ => True

/-- A call, what it answered and left, and the writes it made. -/
structure Use where
  method : Method
  answer : Answer
  events : List Event
  left : List Byte

def record (b : Buffer) (m : Method) : Use :=
  ⟨m, (m.run b).outcome, (m.run b).events, (m.run b).state.content⟩

def use (b : Buffer) (m : Method) : Buffer × List Use := ((m.run b).state, [record b m])

namespace Use

def given (u : Use) : List Byte :=
  match u.answer with
  | .returned _ => u.method.given
  | _ => []

/-- What the receiver got: the string, or what the descriptor took. -/
def out (u : Use) : List Byte :=
  match u.method, u.answer with
  | .consumeOnceFd fd _ _, _ | .consumeFullFd fd _ _, _ => sent fd u.events
  | _, .returned text => text
  | _, _ => []

/-- How a call gets the bytes `taken` off the buffer: its receiver has them and nothing else, or
the writes broke off in the next line, which then is still there from its start. -/
inductive Takes (u : Use) (taken : List Byte) : Prop
  | whole (all : u.out = taken)
  | broken (delim : Byte) (line part : List Byte) (unfinished : ∀ text, u.answer ≠ .returned text)
      (lines : taken = [] ∨ taken.getLast? = some delim) (ends : line.getLast? = some delim)
      (still : line <+: u.left) (initial : part <+: line) (short : part ≠ line)
      (some : u.out = taken ++ part)

theorem given_of_unfinished {u : Use} (unfinished : ∀ text, u.answer ≠ .returned text) :
    u.given = [] := by
  cases answer : u.answer with
  | returned text => exact absurd answer (unfinished text)
  | _ => simp [given, answer]

theorem outs_of_finished {log : List Use} {taken : List (List Byte)}
    (each : List.Forall₂ Takes log taken) (finished : ∀ u ∈ log, ∃ text, u.answer = .returned text) :
    log.flatMap out = taken.flatten := by
  induction each with
  | nil => rfl
  | @cons u mine log taken takes _ ih =>
    have rest := ih fun other member => finished other (List.mem_cons_of_mem u member)
    obtain ⟨text, returned⟩ := finished u List.mem_cons_self
    cases takes with
    | whole all => simp [all, rest]
    | broken _ _ _ unfinished => exact absurd returned (unfinished text)

end Use

/-- What a call takes was at the front of the buffer, and what it is given goes to the back. -/
def Moves (b : Buffer) (u : Use) (taken : List Byte) : Prop :=
  b.content ++ u.given = taken ++ u.left ∧ u.Takes taken

theorem moves_of_same {b : Buffer} {u : Use} (left : u.left = b.content) (given : u.given = [])
    (out : u.out = []) : Moves b u [] :=
  ⟨by rw [left, given, List.append_nil, List.nil_append], .whole out⟩

theorem moves_append {b : Buffer} (valid : b.Valid) (other : Nat → Byte) (len : Int32) :
    ((Method.append other len).run b).state.Valid ∧ Moves b (record b (.append other len)) [] := by
  by_cases fits : 0 ≤ len.toInt ∧ len.toInt ≤ b.freeSpace
  · obtain ⟨b', eq, valid', live⟩ := append_accepted valid other fits.1 fits.2
    have run : (Method.append other len).run b = ⟨b', [], .returned []⟩ := by
      simp [Method.run, eq]
    simp only [record, run]
    exact ⟨valid', by simp [Use.given, Method.given, live], .whole rfl⟩
  · have wrong : len.toInt < 0 ∨ b.freeSpace < len.toInt := by omega
    obtain ⟨x, eq⟩ := append_refused valid other wrong
    have run : (Method.append other len).run b = ⟨b, [], .thrown x⟩ := by
      simp [Method.run, eq]
    simp only [record, run]
    exact ⟨valid, moves_of_same rfl rfl rfl⟩

theorem moves_receive {b : Buffer} (valid : b.Valid) (bytes : List Byte) :
    ((Method.receive bytes).run b).state.Valid ∧ Moves b (record b (.receive bytes)) [] := by
  by_cases fits : bytes.length ≤ b.freeSpace.toNat
  · obtain ⟨b', run, valid', live⟩ := receive_accepted valid fits
    simp only [record, run]
    exact ⟨valid', by simp [Use.given, Method.given, live], .whole rfl⟩
  · obtain ⟨b', x, run, valid', live⟩ := receive_refused valid (Nat.lt_of_not_le fits)
    simp only [record, run]
    exact ⟨valid', moves_of_same live rfl rfl⟩

theorem moves_consumeOnce {b : Buffer} (valid : b.Valid) (delim : Byte) :
    ((Method.consumeOnce delim).run b).state.Valid ∧
      Moves b (record b (.consumeOnce delim)) (Framing.first delim b.content) := by
  obtain ⟨b', eq, valid', live⟩ := consumeOnce_spec valid delim
  have run : (Method.consumeOnce delim).run b = _ := (Checked.consumeOnce_eq valid delim).trans eq
  simp only [record, run]
  refine ⟨valid', ?_, .whole rfl⟩
  simp [Use.given, Method.given, live, Framing.first_append_rest]

theorem moves_consumeFull {b : Buffer} (valid : b.Valid) (delim : Byte) :
    ((Method.consumeFull delim).run b).state.Valid ∧
      Moves b (record b (.consumeFull delim)) (Framing.complete delim b.content) := by
  obtain ⟨b', eq, valid', live⟩ := consumeFull_spec valid delim
  have run : (Method.consumeFull delim).run b = _ := (Checked.consumeFull_eq valid delim).trans eq
  simp only [record, run]
  refine ⟨valid', ?_, .whole rfl⟩
  simp [Use.given, Method.given, live]

theorem moves_consumeOnceFd {b : Buffer} (valid : b.Valid) (fd : Fd) (delim : Byte)
    (answers : List WriteAnswer) :
    ((Method.consumeOnceFd fd delim answers).run b).state.Valid ∧
      ∃ taken, Moves b (record b (.consumeOnceFd fd delim answers)) taken := by
  obtain ⟨b', log, valid', ⟨rest, eq, all, live⟩ | ⟨present, live, part, short, stuck⟩⟩ :=
    consumeOnceFd_spec fd valid delim answers
  · have run : (Method.consumeOnceFd fd delim answers).run b = ⟨b', log, .returned []⟩ := by
      simp [Method.run, eq]
    simp only [record, run]
    refine ⟨valid', Framing.first delim b.content, ?_, .whole all⟩
    simp [Use.given, Method.given, live, Framing.first_append_rest]
  · have line : Framing.first delim b.content <+: b'.content := by
      rw [live]
      exact ⟨_, Framing.first_append_drop present⟩
    have ends := Framing.first_getLast? present
    have run : ∃ o, (∀ text, o ≠ .returned text) ∧
        (Method.consumeOnceFd fd delim answers).run b = ⟨b', log, o⟩ := by
      rcases stuck with eq | ⟨errno, eq⟩
      · exact ⟨.blocked, by simp, by simp [Method.run, eq]⟩
      · exact ⟨.thrown (.systemError errno "write() failed"), by simp, by simp [Method.run, eq]⟩
    obtain ⟨o, unfinished, run⟩ := run
    simp only [record, run]
    refine ⟨valid', [], ?_, .broken delim _ _ unfinished (.inl rfl) ends line part short rfl⟩
    rw [Use.given_of_unfinished unfinished, live, List.append_nil, List.nil_append]

theorem moves_consumeFullFd {b : Buffer} (valid : b.Valid) (fd : Fd) (delim : Byte)
    (answers : List WriteAnswer) :
    ((Method.consumeFullFd fd delim answers).run b).state.Valid ∧
      ∃ taken, Moves b (record b (.consumeFullFd fd delim answers)) taken := by
  have same := Checked.consumeFullFd_eq fd valid delim answers
  obtain ⟨b', log, valid', _, ⟨rest, _, eq, all, live⟩ | ⟨_, cut, stuck⟩⟩ :=
    consumeFullFd_spec fd valid delim answers
  · have run : (Method.consumeFullFd fd delim answers).run b = ⟨b', log, .returned []⟩ := by
      simp [Method.run, same, eq]
    simp only [record, run]
    refine ⟨valid', Framing.complete delim b.content, ?_, .whole all⟩
    simp [Use.given, Method.given, live]
  · obtain ⟨before, line, after, part, split, initial, short, out, kept⟩ := cut
    have run : ∃ o, (∀ text, o ≠ .returned text) ∧
        (Method.consumeFullFd fd delim answers).run b = ⟨b', log, o⟩ := by
      rcases stuck with eq | ⟨errno, eq⟩
      · exact ⟨.blocked, by simp, by simp [Method.run, same, eq]⟩
      · exact ⟨.thrown (.systemError errno "write() failed"), by simp,
          by simp [Method.run, same, eq]⟩
    obtain ⟨o, unfinished, run⟩ := run
    have each : ∀ f ∈ before ++ line :: after, f.getLast? = some delim :=
      fun f member => Framing.frames_getLast? (split ▸ member)
    simp only [record, run]
    refine ⟨valid', before.flatten, ?_, .broken delim line part unfinished
      (Framing.flatten_getLast? fun f member => each f (List.mem_append_left _ member))
      (each line (by simp)) ?_ initial short out⟩
    · rw [Use.given_of_unfinished unfinished, kept, List.append_nil, ← List.append_assoc,
        ← List.flatten_append, ← split, Framing.flatten_frames, Framing.complete_append_residue]
    · exact ⟨after.flatten ++ Framing.residue delim b.content, by rw [kept]; simp⟩

theorem moves_of_streaming {b : Buffer} (valid : b.Valid) {m : Method} (streaming : m.Streaming) :
    (m.run b).state.Valid ∧ ∃ taken, Moves b (record b m) taken := by
  cases m with
  | append other len => exact (moves_append valid other len).imp_right fun moves => ⟨_, moves⟩
  | receive bytes => exact (moves_receive valid bytes).imp_right fun moves => ⟨_, moves⟩
  | consumeOnce delim => exact (moves_consumeOnce valid delim).imp_right fun moves => ⟨_, moves⟩
  | consumeFull delim => exact (moves_consumeFull valid delim).imp_right fun moves => ⟨_, moves⟩
  | consumeOnceFd fd delim answers => exact moves_consumeOnceFd valid fd delim answers
  | consumeFullFd fd delim answers => exact moves_consumeFullFd valid fd delim answers
  | increaseSize | clear => cases streaming

/-! Whole courses of calls. -/

/-- A new buffer, and the calls on it. -/
structure Course where
  methods : List Method
  streaming : ∀ m ∈ methods, m.Streaming

namespace Course

def last (r : Course) : Buffer := (run use empty r.methods).1
def log (r : Course) : List Use := (run use empty r.methods).2

end Course

/-- The bytes taken by each call, one after the other, and what is left make up what was given. -/
structure Balance (b : Buffer) (log : List Use) : Prop where
  valid : b.Valid
  balance : ∃ taken, List.Forall₂ Use.Takes log taken ∧
    taken.flatten ++ b.content = log.flatMap Use.given

theorem balance_use {b : Buffer} {log : List Use} {m : Method} (h : Balance b log)
    (streaming : m.Streaming) : Balance (use b m).1 (log ++ (use b m).2) := by
  obtain ⟨valid', mine, moved, takes⟩ := moves_of_streaming h.valid streaming
  obtain ⟨taken, each, total⟩ := h.balance
  refine ⟨valid', taken ++ [mine], List.rel_append each (.cons takes .nil), ?_⟩
  have left : (record b m).left = (use b m).1.content := rfl
  calc (taken ++ [mine]).flatten ++ (use b m).1.content
      = taken.flatten ++ (mine ++ (record b m).left) := by simp [left]
    _ = taken.flatten ++ (b.content ++ (record b m).given) := by rw [moved]
    _ = log.flatMap Use.given ++ (record b m).given := by rw [← total, List.append_assoc]
    _ = (log ++ (use b m).2).flatMap Use.given := by simp [use]

/-- A line goes to a descriptor in two tries. -/
def retried : Course where
  methods := [.receive [97, 98, 10, 99],
    .consumeOnceFd 7 10 [.accepted 1, .failed .EPIPE], .consumeOnceFd 7 10 [.accepted 3]]
  streaming := by simp [Method.Streaming]

end TcpChat.Buffer
