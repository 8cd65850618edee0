import TcpChat.Server.Failures

/-! Who said a line. `respond_to_client` puts the name before the text it takes, and the text is
every line that one read completed. -/
namespace TcpChat

/-- The descriptors a loop of writes has to get past until `y` has been served. -/
def upTo (y : Fd) (fds : List Fd) : List Fd := fds.takeWhile (· ≠ y) ++ [y]

theorem writeEach_reaches {S : Type} (write : Fd → List WriteAnswer) {bytes : List Byte}
    (nonempty : bytes ≠ []) {y : Fd} {fds : List Fd} (distinct : fds.Nodup) (member : y ∈ fds)
    (s : S) :
    sent y (writeEach write bytes fds s).events = bytes ↔
      ∀ z ∈ upTo y fds, (carry bytes.length (write z)).isSome := by
  induction fds with
  | nil => cases member
  | cons fd fds ih =>
    obtain ⟨fresh, distinct⟩ := List.nodup_cons.mp distinct
    obtain ⟨log, only, written⟩ := writeFull_spec fd bytes (write fd) s
    by_cases here : fd = y
    · subst here
      have alone : upTo fd (fd :: fds) = [fd] := by simp [upTo]
      rw [alone]
      rcases written with ⟨rest, carried, all, returned⟩ | ⟨short, _, proper, stopped⟩
      · obtain ⟨log', inside, _, ends⟩ := writeEach_spec write bytes fds distinct s
        have later : (writeEach write bytes fds s).events = log' := by
          rcases ends with ⟨_, _, eq⟩ | ⟨_, eq | ⟨errno, eq⟩⟩ <;> rw [eq]
        have silent : sent fd log' = [] := sent_outside inside fresh
        simp [writeEach, returned, later, all, silent, carried]
      · rcases stopped with stopped | ⟨errno, stopped⟩
        · simp [writeEach, stopped, proper, short]
        · simp [writeEach, stopped, proper, short]
    · have later : y ∈ fds := by
        rcases List.mem_cons.mp member with eq | later
        · exact absurd eq.symm here
        · exact later
      have past : upTo y (fd :: fds) = fd :: upTo y fds := by simp [upTo, here]
      have silent : sent y log = [] := sent_other only here
      rw [past]
      rcases written with ⟨rest, carried, _, returned⟩ | ⟨short, _, _, stopped⟩
      · simp [writeEach, returned, silent, carried, ih distinct later]
      · rcases stopped with stopped | ⟨errno, stopped⟩
        · simp [writeEach, stopped, silent, short, nonempty.symm]
        · simp [writeEach, stopped, silent, short, nonempty.symm]

namespace ChatServer

def attributed (m : List Byte) (lines : List (List Byte)) : List Byte := lines.flatMap (message m)

/-- A call of `respond_to_client` for a client called `m`, seen by another client. -/
structure Response (m : List Byte) (y : Fd) where
  server : ChatServer
  senderIndex : Nat
  write : Fd → List WriteAnswer
  sender : ClientInfo
  lines : List (List Byte)
  tail : List Byte
  good : server.Good
  found : server.clients[senderIndex]? = some sender
  connected : sender.connected = true
  name : sender.name = m
  some : lines ≠ []
  each : ∀ l ∈ lines, Framing.Frame newline l
  unterminated : newline ∉ tail
  content : sender.buffer.content = lines.flatten ++ tail
  other : y ∈ server.recipients senderIndex

namespace Response

variable {m : List Byte} {y : Fd}

def text (r : Response m y) : List Byte := r.lines.flatten

def bytes (r : Response m y) : List Byte :=
  sent y (respondToClient r.write r.senderIndex r.server).events

/-- The writes to `y`, and to those whose turn is before, take the whole message. -/
def Reaches (r : Response m y) : Prop :=
  ∀ z ∈ upTo y (r.server.recipients r.senderIndex), Healthy r.write (message m r.text) z

theorem frame_ne_nil {l : List Byte} (frame : Framing.Frame newline l) : l ≠ [] := by
  obtain ⟨body, _, rfl⟩ := frame
  simp

theorem text_ne_nil (r : Response m y) : r.text ≠ [] := by
  obtain ⟨l, ls, split⟩ := List.exists_cons_of_ne_nil r.some
  have head : l ≠ [] := frame_ne_nil (r.each l (by rw [split]; exact List.mem_cons_self))
  simp [text, split, head]

/-- One prefix, and then all the lines. -/
theorem bytes_spec (r : Response m y) :
    r.bytes <+: message m r.text ∧ (r.bytes = message m r.text ↔ r.Reaches) := by
  obtain ⟨b, _, _, responded⟩ := respondToClient_spec r.write r.found
    (r.good.valid r.sender (List.mem_of_getElem? r.found))
  have text : Framing.complete newline r.sender.buffer.content = r.text := by
    rw [r.content]
    exact Framing.complete_flatten r.each r.unterminated
  rw [text, r.name] at responded
  have distinct : (r.server.recipients r.senderIndex).Nodup := r.good.distinct.eraseIdx _
  have message_some : message m r.text ≠ [] := by simp [message, ascii]
  have same : r.bytes = sent y (writeEach r.write (message m r.text)
      (r.server.recipients r.senderIndex)
      (r.server.setClient r.senderIndex (r.sender.withBuffer b))).events := by
    simp [bytes, responded, relayTo, r.text_ne_nil, Event.sentTo]
  obtain ⟨log, _, parts, ends⟩ := writeEach_spec r.write (message m r.text)
    (r.server.recipients r.senderIndex) distinct
    (r.server.setClient r.senderIndex (r.sender.withBuffer b))
  have events : (writeEach r.write (message m r.text) (r.server.recipients r.senderIndex)
      (r.server.setClient r.senderIndex (r.sender.withBuffer b))).events = log := by
    rcases ends with ⟨_, _, eq⟩ | ⟨_, eq | ⟨errno, eq⟩⟩ <;> rw [eq]
  constructor
  · rw [same, events]
    exact parts y
  · rw [same]
    exact writeEach_reaches r.write message_some distinct r.other _

theorem length_message (m text : List Byte) : (message m text).length = m.length + 4 + text.length := by
  simp [message, ascii]
  omega

theorem length_attributed (m : List Byte) (lines : List (List Byte)) :
    (attributed m lines).length = lines.length * (m.length + 4) + lines.flatten.length := by
  induction lines with
  | nil => simp [attributed]
  | cons l lines ih =>
    have head : (attributed m (l :: lines)).length =
        (message m l).length + (attributed m lines).length := by
      simp [attributed]
    rw [head, ih, length_message, List.length_cons, List.flatten_cons, List.length_append,
      Nat.succ_mul]
    omega

theorem length_bytes_le (r : Response m y) : r.bytes.length ≤ (attributed m r.lines).length := by
  have part := r.bytes_spec.1.length_le
  have some := List.length_pos_iff.mpr r.some
  have once : m.length + 4 ≤ r.lines.length * (m.length + 4) :=
    Nat.le_mul_of_pos_left _ some
  rw [length_message] at part
  rw [length_attributed]
  simp only [text] at part
  omega

/-- One call. -/
theorem bytes_eq_iff (r : Response m y) :
    r.bytes = attributed m r.lines ↔ r.lines.length = 1 ∧ r.Reaches := by
  obtain ⟨part, whole⟩ := r.bytes_spec
  constructor
  · intro eq
    have len := congrArg List.length eq
    have bound := part.length_le
    rw [length_message] at bound
    rw [length_attributed] at len
    simp only [text] at bound
    have one : r.lines.length = 1 := by
      have some := List.length_pos_iff.mpr r.some
      by_contra more
      have twice : 2 * (m.length + 4) ≤ r.lines.length * (m.length + 4) :=
        Nat.mul_le_mul_right _ (by omega)
      omega
    obtain ⟨l, single⟩ := List.length_eq_one_iff.mp one
    refine ⟨one, whole.mp ?_⟩
    rw [eq]
    simp [attributed, text, single]
  · intro ⟨one, reaches⟩
    obtain ⟨l, single⟩ := List.length_eq_one_iff.mp one
    rw [whole.mpr reaches]
    simp [attributed, text, single]

end Response

theorem length_flatMap_le {α β : Type} {f g : α → List β} {xs : List α}
    (shorter : ∀ x ∈ xs, (f x).length ≤ (g x).length) :
    (xs.flatMap f).length ≤ (xs.flatMap g).length := by
  induction xs with
  | nil => simp
  | cons x xs ih =>
    have here := shorter x List.mem_cons_self
    have rest := ih fun y member => shorter y (List.mem_cons_of_mem x member)
    rw [List.flatMap_cons, List.flatMap_cons, List.length_append, List.length_append]
    exact Nat.add_le_add here rest

theorem flatMap_eq_iff {α β : Type} {f g : α → List β} {xs : List α}
    (shorter : ∀ x ∈ xs, (f x).length ≤ (g x).length) :
    xs.flatMap f = xs.flatMap g ↔ ∀ x ∈ xs, f x = g x := by
  constructor
  · induction xs with
    | nil => simp
    | cons x xs ih =>
      intro eq
      have here := shorter x List.mem_cons_self
      have rest := fun y member => shorter y (List.mem_cons_of_mem x member)
      have later := length_flatMap_le rest
      rw [List.flatMap_cons, List.flatMap_cons] at eq
      have len := congrArg List.length eq
      rw [List.length_append, List.length_append] at len
      obtain ⟨first, tail⟩ := List.append_inj eq (by omega)
      intro y member
      rcases List.mem_cons.mp member with rfl | member
      · exact first
      · exact ih rest tail y member
  · intro same
    exact List.flatMap_congr same

/-- What a client sees of the lines of another, however many calls they are consumed in, has the
name before every line exactly where each call has one line, and its writes get through. -/
theorem every_line_attributed_iff {m : List Byte} {y : Fd} (calls : List (Response m y)) :
    calls.flatMap Response.bytes = attributed m (calls.flatMap Response.lines) ↔
      ∀ r ∈ calls, r.lines.length = 1 ∧ r.Reaches := by
  have split : attributed m (calls.flatMap Response.lines) =
      calls.flatMap fun r => attributed m r.lines := by
    rw [attributed, List.flatMap_assoc]
    rfl
  rw [split, flatMap_eq_iff fun r _ => r.length_bytes_le]
  exact forall₂_congr fun r _ => r.bytes_eq_iff

/-- A with the lines x and y in its buffer. -/
def twoLinesSender : ClientInfo where
  fd := ⟨5⟩
  name := ascii ['A']
  buffer := ⟨Buffer.zeroed.write 0 (ascii ['x', '\n', 'y', '\n']), 4⟩
  connected := true

def senderAndListener : ChatServer where
  running := true
  listenfd := ⟨3⟩
  signalfd := ⟨4⟩
  clients := [twoLinesSender, newClient 6 Buffer.zeroed]

theorem senderAndListener_good : senderAndListener.Good := by
  constructor
  · intro c member
    rcases List.mem_pair.mp member with rfl | rfl
    · exact ⟨by decide, by decide⟩
    · exact valid_newClient 6 Buffer.zeroed
  · decide
  · decide
  · decide

def twoAtOnce : Response (ascii ['A']) 6 where
  server := senderAndListener
  senderIndex := 0
  write := fun _ => [.accepted bufferSize]
  sender := twoLinesSender
  lines := [ascii ['x', '\n'], ascii ['y', '\n']]
  tail := []
  good := senderAndListener_good
  found := rfl
  connected := rfl
  name := rfl
  some := by simp
  each := by
    intro l member
    rcases List.mem_pair.mp member with rfl | rfl
    · exact ⟨ascii ['x'], by decide, rfl⟩
    · exact ⟨ascii ['y'], by decide, rfl⟩
  unterminated := by simp
  content := by decide +kernel
  other := by decide

/-- A with a line of one letter in its buffer. -/
def oneLineSender (c : Byte) : ClientInfo where
  fd := ⟨5⟩
  name := ascii ['A']
  buffer := ⟨Buffer.zeroed.write 0 [c, newline], 2⟩
  connected := true

def oneLine (c : Byte) (plain : c ≠ newline) : Response (ascii ['A']) 6 where
  server := { senderAndListener with clients := [oneLineSender c, newClient 6 Buffer.zeroed] }
  senderIndex := 0
  write := fun _ => [.accepted bufferSize]
  sender := oneLineSender c
  lines := [[c, newline]]
  tail := []
  good := by
    refine ⟨fun d member => ?_, fun d member => ?_, senderAndListener_good.distinct,
      senderAndListener_good.signal⟩
    · rcases List.mem_pair.mp member with rfl | rfl
      · exact ⟨Int.zero_le_ofNat 2, show (2 : Int) ≤ bufferSize by decide⟩
      · exact valid_newClient 6 Buffer.zeroed
    · rcases List.mem_pair.mp member with rfl | rfl
      · exact Int.zero_le_ofNat 5
      · exact Int.zero_le_ofNat 6
  found := rfl
  connected := rfl
  name := rfl
  some := by simp
  each := by
    intro l member
    obtain rfl := List.mem_singleton.mp member
    exact ⟨[c], by simpa using plain.symm, rfl⟩
  unterminated := by simp
  content := rfl
  other := List.mem_singleton_self (6 : Fd)

def lineByLine : List (Response (ascii ['A']) 6) :=
  [oneLine 120 (by decide), oneLine 121 (by decide)]

theorem line_by_line_attributed :
    lineByLine.flatMap Response.bytes =
        attributed (ascii ['A']) (lineByLine.flatMap Response.lines) ∧
      lineByLine.flatMap Response.lines = [ascii ['x', '\n'], ascii ['y', '\n']] := by
  refine ⟨(every_line_attributed_iff lineByLine).mpr fun r member => ?_, rfl⟩
  have passes : (carry 7 [.accepted bufferSize]).isSome = true := by decide +kernel
  rcases List.mem_pair.mp member with rfl | rfl
  · exact ⟨rfl, fun z _ => passes⟩
  · exact ⟨rfl, fun z _ => passes⟩

/-- The second line comes without a name, though no write fails. -/
theorem second_line_unattributed :
    twoAtOnce.Reaches ∧ twoAtOnce.bytes = ascii ['[', 'A', ']', ':', ' ', 'x', '\n', 'y', '\n'] ∧
      twoAtOnce.bytes ≠ attributed (ascii ['A']) twoAtOnce.lines := by
  refine ⟨?_, by decide +kernel, by decide +kernel⟩
  intro z _
  change (carry (message (ascii ['A']) twoAtOnce.text).length [.accepted bufferSize]).isSome = true
  decide +kernel

end ChatServer
end TcpChat
