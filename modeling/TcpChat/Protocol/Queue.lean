import TcpChat.Protocol.Range

/-! What the buffers are for: queues of at most 1024 bytes, cut by delimiters. The abstract side
knows lists of bytes only, and the objects refine it. -/
namespace TcpChat.Buffer
open Machine

/-- The bytes a member function is to add. -/
def Method.given : Method → List Byte
  | .append other len => (List.range len.toInt.toNat).map other
  | .receive bytes => bytes
  | _ => []

/-- One queue under a member function: its answer and what is in it after. -/
inductive Turns (q : List Byte) : Method → Answer → List Byte → Prop
  | appended (other : Nat → Byte) (len : Int32)
      (fits : 0 ≤ len.toInt ∧ len.toInt ≤ (bufferSize - q.length : Int)) :
      Turns q (.append other len) (.returned []) (q ++ (Method.append other len).given)
  | appendRefused (other : Nat → Byte) (len : Int32) (x : Exn)
      (wrong : len.toInt < 0 ∨ (bufferSize - q.length : Int) < len.toInt) :
      Turns q (.append other len) (.thrown x) q
  | received (bytes : List Byte) (fits : q.length + bytes.length ≤ bufferSize) :
      Turns q (.receive bytes) (.returned []) (q ++ bytes)
  | receiveRefused (bytes : List Byte) (x : Exn) (wrong : bufferSize < q.length + bytes.length) :
      Turns q (.receive bytes) (.thrown x) q
  | takesOne (delim : Byte) (line rest : List Byte) (cut : q = line ++ rest)
      (shortest : Framing.Shortest delim q line) :
      Turns q (.consumeOnce delim) (.returned line) rest
  | takesAll (delim : Byte) (lines rest : List Byte) (cut : q = lines ++ rest)
      (longest : Framing.Longest delim q lines) :
      Turns q (.consumeFull delim) (.returned lines) rest
  | takesNothing (m : Method) (delim : Byte) (takes : m = .consumeOnce delim ∨ m = .consumeFull delim)
      (absent : delim ∉ q) : Turns q m (.returned []) q
  | cleared : Turns q .clear (.returned []) []

/-- All the queues under a call. A move to another object leaves the source empty; an object
assigned to itself stays as it is. -/
inductive Evolves (qs : List (List Byte)) : Call → Answer → List (List Byte) → Prop
  | constructed (storage : Cells Byte bufferSize) :
      Evolves qs (.construct storage) (.returned []) (qs ++ [[]])
  | called (i : Nat) (m : Method) (q q' : List Byte) (a : Answer) (found : qs[i]? = some q)
      (turns : Turns q m a q') : Evolves qs (.method i m) a (qs.set i q')
  | copied (storage : Cells Byte bufferSize) (source : Nat) (q : List Byte)
      (found : qs[source]? = some q) :
      Evolves qs (.copyConstruct storage source) (.returned []) (qs ++ [q])
  | moved (storage : Cells Byte bufferSize) (source : Nat) (q : List Byte)
      (found : qs[source]? = some q) :
      Evolves qs (.moveConstruct storage source) (.returned []) (qs.set source [] ++ [q])
  | copyAssigned (target source : Nat) (q : List Byte) (distinct : target ≠ source)
      (there : target < qs.length) (found : qs[source]? = some q) :
      Evolves qs (.copyAssign target source) (.returned []) (qs.set target q)
  | moveAssigned (target source : Nat) (q : List Byte) (distinct : target ≠ source)
      (there : target < qs.length) (found : qs[source]? = some q) :
      Evolves qs (.moveAssign target source) (.returned []) ((qs.set source []).set target q)
  | selfCopied (i : Nat) (there : i < qs.length) :
      Evolves qs (.copyAssign i i) (.returned []) qs
  | selfMoved (i : Nat) (there : i < qs.length) :
      Evolves qs (.moveAssign i i) (.returned []) qs

/-- The calls that a queue has: sizes grow by what was written, and the consumers return
strings. -/
def Call.Queueing : Call → Prop
  | .method _ (.increaseSize _) | .method _ (.consumeOnceFd ..)
  | .method _ (.consumeFullFd ..) => False
  | _ => True

/-- No clear, no copy and no move. -/
def Call.Plain : Call → Prop
  | .construct _ => True
  | .method _ m => match m with
    | .clear => False
    | _ => True
  | _ => False

/-! One member function. -/

theorem free_eq {b : Buffer} (valid : b.Valid) :
    b.freeSpace = (bufferSize - b.content.length : Int) := by
  rw [length_content valid]
  rfl

theorem turns_append {b : Buffer} (valid : b.Valid) (other : Nat → Byte) (len : Int32) :
    Turns b.content (.append other len) ((Method.append other len).run b).outcome
      ((Method.append other len).run b).state.content := by
  have free := free_eq valid
  by_cases fits : 0 ≤ len.toInt ∧ len.toInt ≤ b.freeSpace
  · obtain ⟨b', eq, _, live⟩ := append_accepted valid other fits.1 fits.2
    have run : (Method.append other len).run b = ⟨b', [], .returned []⟩ := by
      simp [Method.run, eq]
    rw [run, live]
    exact .appended other len (by rw [← free]; exact fits)
  · have wrong : len.toInt < 0 ∨ b.freeSpace < len.toInt := by omega
    obtain ⟨x, eq⟩ := append_refused valid other wrong
    have run : (Method.append other len).run b = ⟨b, [], .thrown x⟩ := by
      simp [Method.run, eq]
    rw [run]
    exact .appendRefused other len x (by rw [← free]; exact wrong)

theorem turns_receive {b : Buffer} (valid : b.Valid) (bytes : List Byte) :
    Turns b.content (.receive bytes) ((Method.receive bytes).run b).outcome
      ((Method.receive bytes).run b).state.content := by
  have free := freeSpace_toNat valid
  have whole := length_content_le b
  by_cases fits : bytes.length ≤ b.freeSpace.toNat
  · obtain ⟨b', run, _, live⟩ := receive_accepted valid fits
    rw [run, live]
    exact .received bytes (by omega)
  · obtain ⟨b', x, run, _, live⟩ := receive_refused valid (Nat.lt_of_not_le fits)
    rw [run, live]
    exact .receiveRefused bytes x (by omega)

theorem turns_consumeOnce {b : Buffer} (valid : b.Valid) (delim : Byte) :
    Turns b.content (.consumeOnce delim) ((Method.consumeOnce delim).run b).outcome
      ((Method.consumeOnce delim).run b).state.content := by
  obtain ⟨b', eq, _, live⟩ := consumeOnce_spec valid delim
  have run : (Method.consumeOnce delim).run b = _ := (Checked.consumeOnce_eq valid delim).trans eq
  rw [run, live]
  by_cases present : delim ∈ b.content
  · exact .takesOne delim _ _ (Framing.first_append_drop present).symm
      (Framing.shortest_first present)
  · rw [(Framing.first_eq_nil_iff delim b.content).mpr present]
    exact .takesNothing _ delim (.inl rfl) present

theorem turns_consumeFull {b : Buffer} (valid : b.Valid) (delim : Byte) :
    Turns b.content (.consumeFull delim) ((Method.consumeFull delim).run b).outcome
      ((Method.consumeFull delim).run b).state.content := by
  obtain ⟨b', eq, _, live⟩ := consumeFull_spec valid delim
  have run : (Method.consumeFull delim).run b = _ := (Checked.consumeFull_eq valid delim).trans eq
  rw [run, live]
  by_cases present : delim ∈ b.content
  · exact .takesAll delim _ _ (Framing.complete_append_residue delim b.content).symm
      (Framing.longest_complete present)
  · rw [Framing.complete_of_not_mem present, Framing.residue_of_not_mem present]
    exact .takesNothing _ delim (.inr rfl) present

theorem turns_of_queueing {b : Buffer} (valid : b.Valid) (i : Nat) (m : Method)
    (queueing : Call.Queueing (.method i m)) :
    Turns b.content m (m.run b).outcome (m.run b).state.content := by
  cases m with
  | append other len => exact turns_append valid other len
  | receive bytes => exact turns_receive valid bytes
  | consumeOnce delim => exact turns_consumeOnce valid delim
  | consumeFull delim => exact turns_consumeFull valid delim
  | clear =>
    have run : Method.clear.run b = ⟨{ b with size_ := 0 }, [], .returned []⟩ := by
      simp [Method.run, Checked.clear, Checked.setSize]
    rw [run]
    exact .cleared
  | increaseSize | consumeOnceFd | consumeFullFd => cases queueing

/-! Calls and runs of calls. -/

/-- A call is one of the queues' own, or it is on an object that does not exist. -/
def Refines (s : List Buffer) (call : Call) : Prop :=
  (step s call = (s, []) ∧ ∃ i ∈ call.objects, s.length ≤ i) ∨
    ∃ a, (step s call).2 = [⟨call, a⟩] ∧ Evolves (contents s) call a (contents (step s call).1)

theorem refines_of_effect {s s' : List Buffer} {call : Call} {log : List Record}
    (effect : Effect s call s' log) (next : step s call = (s', log)) (valid : ∀ b ∈ s, b.Valid)
    (queueing : call.Queueing) : Refines s call := by
  have length : (contents s).length = s.length := List.length_map _
  have emptied (other : Buffer) : ({ other with size_ := 0 } : Buffer).content = [] := by
    simp [content]
  cases effect with
  | nobody call missing =>
    obtain ⟨i, member, none⟩ := missing
    exact .inl ⟨next, i, member, List.getElem?_eq_none_iff.mp none⟩
  | constructed storage =>
    refine .inr ⟨.returned [], by rw [next], ?_⟩
    rw [next, contents_append]
    exact .constructed storage
  | called i m b found =>
    refine .inr ⟨(m.run b).outcome, by rw [next], ?_⟩
    rw [next, contents_set]
    exact .called i m b.content _ _ (by simp [found])
      (turns_of_queueing (valid b (List.mem_of_getElem? found)) i m queueing)
  | copied storage source other b found _ same =>
    refine .inr ⟨.returned [], by rw [next], ?_⟩
    rw [next, contents_append]
    exact .copied storage source b.content (by simp [found, same])
  | moved storage source other b found _ same =>
    refine .inr ⟨.returned [], by rw [next], ?_⟩
    rw [next, contents_append, contents_set, emptied]
    exact .moved storage source b.content (by simp [found, same])
  | copyAssigned target source other b distinct there found _ same =>
    refine .inr ⟨.returned [], by rw [next], ?_⟩
    rw [next, contents_set]
    exact .copyAssigned target source b.content distinct (by rw [length]; exact there)
      (by simp [found, same])
  | moveAssigned target source other b distinct there found _ same =>
    refine .inr ⟨.returned [], by rw [next], ?_⟩
    rw [next, contents_set, contents_set, emptied]
    exact .moveAssigned target source b.content distinct (by rw [length]; exact there)
      (by simp [found, same])
  | selfCopied i there =>
    exact .inr ⟨.returned [], by rw [next], by rw [next]; exact .selfCopied i (by rw [length]; exact there)⟩
  | selfMoved i there =>
    exact .inr ⟨.returned [], by rw [next], by rw [next]; exact .selfMoved i (by rw [length]; exact there)⟩

theorem notBelow_of_queueing {call : Call} (queueing : call.Queueing) (s : List Buffer) :
    NotBelow s call := by
  cases call with
  | method i m =>
    cases m with
    | increaseSize => cases queueing
    | _ => trivial
  | _ => trivial

theorem valid_step {s : List Buffer} {call : Call} (valid : ∀ b ∈ s, b.Valid)
    (queueing : call.Queueing) : ∀ b ∈ (step s call).1, b.Valid := by
  have kept := (kept_iff_notBelow call valid).mpr (notBelow_of_queueing queueing s)
  exact fun b member => (inRange_iff_valid b).mp (kept.inRange b member)

/-! The bytes that went in and out of one object. -/

def Record.added (i : Nat) (r : Record) : List Byte :=
  match r.call, r.answer with
  | .method j m, .returned _ => if j = i then m.given else []
  | _, _ => []

def Record.consumed (i : Nat) (r : Record) : List Byte :=
  match r.call, r.answer with
  | .method j (.consumeOnce _), .returned text | .method j (.consumeFull _), .returned text =>
    if j = i then text else []
  | _, _ => []

def added (i : Nat) (log : List Record) : List Byte := log.flatMap (Record.added i)
def consumed (i : Nat) (log : List Record) : List Byte := log.flatMap (Record.consumed i)

/-- What is in queue `i`; nothing, as long as there is none. -/
def queueAt (qs : List (List Byte)) (i : Nat) : List Byte := (qs[i]?).getD []

theorem conserved_of_turns {q q' : List Byte} {m : Method} {a : Answer} (turns : Turns q m a q')
    (i : Nat) (plain : Call.Plain (.method i m)) :
    q ++ Record.added i ⟨.method i m, a⟩ = Record.consumed i ⟨.method i m, a⟩ ++ q' := by
  cases turns with
  | appended | received => simp [Record.added, Record.consumed, Method.given]
  | appendRefused | receiveRefused => simp [Record.added, Record.consumed]
  | takesOne delim line rest cut => simp [Record.added, Record.consumed, Method.given, cut]
  | takesAll delim lines rest cut => simp [Record.added, Record.consumed, Method.given, cut]
  | takesNothing m delim takes absent =>
    rcases takes with rfl | rfl <;> simp [Record.added, Record.consumed, Method.given]
  | cleared => cases plain

theorem conserved_of_evolves {qs qs' : List (List Byte)} {call : Call} {a : Answer}
    (evolves : Evolves qs call a qs') (plain : call.Plain) (i : Nat) :
    queueAt qs i ++ Record.added i ⟨call, a⟩ = Record.consumed i ⟨call, a⟩ ++ queueAt qs' i := by
  cases evolves with
  | constructed storage =>
    have same : queueAt (qs ++ [[]]) i = queueAt qs i := by
      by_cases inside : i < qs.length
      · rw [queueAt, queueAt, List.getElem?_append_left inside]
      · have outside : qs[i]? = none := by simpa using inside
        rw [queueAt, queueAt, outside, List.getElem?_append_right (Nat.le_of_not_lt inside)]
        cases i - qs.length <;> simp
    simp [Record.added, Record.consumed, same]
  | called j m q q' a found turns =>
    by_cases here : j = i
    · subst here
      have inside := (List.getElem?_eq_some_iff.mp found).1
      have before : queueAt qs j = q := by simp [queueAt, found]
      have after : queueAt (qs.set j q') j = q' := by simp [queueAt, inside]
      rw [before, after]
      exact conserved_of_turns turns j plain
    · have same : queueAt (qs.set j q') i = queueAt qs i := by
        rw [queueAt, queueAt, List.getElem?_set_ne here]
      have none_added : Record.added i ⟨.method j m, a⟩ = [] := by
        cases a <;> simp [Record.added, here]
      have none_consumed : Record.consumed i ⟨.method j m, a⟩ = [] := by
        cases m <;> cases a <;> simp [Record.consumed, here]
      rw [same, none_added, none_consumed, List.append_nil, List.nil_append]
  | copied | moved | copyAssigned | moveAssigned | selfCopied | selfMoved => cases plain

theorem conserved_step {s : List Buffer} {log : List Record} {call : Call} (refines : Refines s call)
    (plain : call.Plain) (i : Nat)
    (balance : consumed i log ++ queueAt (contents s) i = added i log) :
    consumed i (log ++ (step s call).2) ++ queueAt (contents (step s call).1) i =
      added i (log ++ (step s call).2) := by
  rcases refines with ⟨none, _⟩ | ⟨a, records, evolves⟩
  · rw [none, List.append_nil]
    exact balance
  · have one := conserved_of_evolves evolves plain i
    rw [records]
    calc consumed i (log ++ [⟨call, a⟩]) ++ queueAt (contents (step s call).1) i
        = consumed i log ++ (Record.consumed i ⟨call, a⟩ ++ queueAt (contents (step s call).1) i) := by
          simp [consumed]
      _ = (consumed i log ++ queueAt (contents s) i) ++ Record.added i ⟨call, a⟩ := by
          rw [← one, List.append_assoc]
      _ = added i (log ++ [⟨call, a⟩]) := by
          rw [balance]
          simp [added]

theorem refines_step {s : List Buffer} {call : Call} (valid : ∀ b ∈ s, b.Valid)
    (queueing : call.Queueing) : Refines s call :=
  refines_of_effect (step_effect valid call) rfl valid queueing

/-- Every sequence of calls takes the contents from one state of the queues to the next, within
the bound. Without clear, copy and move, what was consumed and what is left is what was added. -/
theorem buffers_are_queues (calls : List Call) (queueing : ∀ call ∈ calls, call.Queueing) :
    Along step (fun s call => Refines s call ∧ ∀ q ∈ contents (step s call).1, q.length ≤ bufferSize)
      [] calls ∧
    ((∀ call ∈ calls, call.Plain) → ∀ i b, (run step [] calls).1[i]? = some b →
      consumed i (run step [] calls).2 ++ b.content = added i (run step [] calls).2) := by
  constructor
  · refine along_of_invariant (I := fun s => ∀ b ∈ s, b.Valid) (P := fun _ call => call.Queueing)
      (fun s call valid queueing => ⟨refines_step valid queueing, fun q member => ?_⟩)
      (fun s call valid queueing => valid_step valid queueing) (by simp)
      (along_of_mem queueing [])
    obtain ⟨b, _, rfl⟩ := List.mem_map.mp member
    exact length_content_le b
  · intro plain i b found
    have allowed : Along step (fun _ call => call.Queueing ∧ call.Plain) [] calls :=
      along_of_mem (fun call member => ⟨queueing call member, plain call member⟩) []
    have kept : (∀ b ∈ (run step [] calls).1, b.Valid) ∧
        consumed i (run step [] calls).2 ++ queueAt (contents (run step [] calls).1) i =
          added i (run step [] calls).2 := run_keeps
      (I := fun s log => (∀ b ∈ s, b.Valid) ∧
        consumed i log ++ queueAt (contents s) i = added i log)
      (fun s log call h allowed => ⟨valid_step h.1 allowed.1,
        conserved_step (refines_step h.1 allowed.1) allowed.2 i h.2⟩)
      ⟨by simp, rfl⟩ allowed
    have here : queueAt (contents (run step [] calls).1) i = b.content := by
      simp [queueAt, found]
    rw [← here]
    exact kept.2

/-- The object that a move takes from is left empty. -/
def MoveEmpties (s : List Buffer) (call : Call) : Prop :=
  match call with
  | .moveConstruct _ source | .moveAssign _ source =>
    ∀ q ∈ (contents (step s call).1)[source]?, q = []
  | _ => True

theorem self_move_keeps_content :
    ¬ Along step MoveEmpties []
      [.construct zeroed, .method 0 (.receive [120]), .moveAssign 0 0] := by
  intro ⟨_, _, empties, _⟩
  exact absurd (empties [120] (by decide +kernel)) (by decide)

theorem two_lines_queued :
    Along step (fun s call => Refines s call ∧ ∀ q ∈ contents (step s call).1, q.length ≤ bufferSize)
      [] [.construct zeroed, .method 0 (.receive [104, 10, 120]), .method 0 (.consumeOnce 10)] ∧
    consumed 0 (run step [] [.construct zeroed, .method 0 (.receive [104, 10, 120]),
      .method 0 (.consumeOnce 10)]).2 = [104, 10] :=
  ⟨(buffers_are_queues [.construct zeroed, .method 0 (.receive [104, 10, 120]),
    .method 0 (.consumeOnce 10)] (by simp [Call.Queueing])).1, by decide +kernel⟩

end TcpChat.Buffer
