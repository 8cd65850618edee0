import TcpChat.Server.Step

/-! What the log says about a connection. A connection is a descriptor from its `accept` on,
so its history starts at the last one: the kernel uses descriptors again. -/
namespace TcpChat

def Event.nameOf (fd : Fd) : Event → Option (List Byte)
  | .named y line => if y = fd then some line else none
  | _ => none

def Event.relayOf (fd : Fd) : Event → Option (List Byte × List Byte)
  | .relay y name text => if y = fd then some (name, text) else none
  | _ => none

def Event.accepts (fd : Fd) (e : Event) : Bool := e = .accept fd

namespace ChatServer

def history (fd : Fd) (log : List Event) : List Event := Machine.sinceLast (Event.accepts fd) log

def received (fd : Fd) (log : List Event) : List Byte := (history fd log).flatMap (Event.readFrom fd)
def names (fd : Fd) (log : List Event) : List (List Byte) :=
  (history fd log).filterMap (Event.nameOf fd)
def relays (fd : Fd) (log : List Event) : List (List Byte × List Byte) :=
  (history fd log).filterMap (Event.relayOf fd)

/-- All text relayed for the connection, without the prefixes. -/
def relayedText (fd : Fd) (log : List Event) : List Byte := (relays fd log).flatMap (·.2)

/-- Events that are no part of any connection's own history. -/
def Silent (e : Event) : Prop :=
  ∀ fd, e.readFrom fd = [] ∧ e.nameOf fd = none ∧ e.relayOf fd = none ∧ e.accepts fd = false

structure SameHistory (fd : Fd) (log log' : List Event) : Prop where
  received : received fd log' = received fd log
  names : names fd log' = names fd log
  relays : relays fd log' = relays fd log

theorem history_append {fd : Fd} (log : List Event) {more : List Event}
    (none : ∀ e ∈ more, e.accepts fd = false) :
    received fd (log ++ more) = received fd log ++ more.flatMap (Event.readFrom fd) ∧
      names fd (log ++ more) = names fd log ++ more.filterMap (Event.nameOf fd) ∧
      relays fd (log ++ more) = relays fd log ++ more.filterMap (Event.relayOf fd) := by
  simp only [received, names, relays, history, Machine.sinceLast_append_of_none log none,
    List.flatMap_append, List.filterMap_append, and_self]

theorem sameHistory_of_empty {fd : Fd} (log : List Event) {more : List Event}
    (none : ∀ e ∈ more, e.accepts fd = false) (r : more.flatMap (Event.readFrom fd) = [])
    (n : more.filterMap (Event.nameOf fd) = []) (t : more.filterMap (Event.relayOf fd) = []) :
    SameHistory fd log (log ++ more) := by
  obtain ⟨hr, hn, ht⟩ := history_append log none
  exact ⟨by rw [hr, r, List.append_nil], by rw [hn, n, List.append_nil],
    by rw [ht, t, List.append_nil]⟩

theorem sameHistory_of_silent (fd : Fd) (log : List Event) {more : List Event}
    (silent : ∀ e ∈ more, Silent e) : SameHistory fd log (log ++ more) :=
  sameHistory_of_empty log (fun e he => (silent e he fd).2.2.2)
    (List.flatMap_eq_nil_iff.mpr fun e he => (silent e he fd).1)
    (List.filterMap_eq_nil_iff.mpr fun e he => (silent e he fd).2.1)
    (List.filterMap_eq_nil_iff.mpr fun e he => (silent e he fd).2.2.1)

theorem silent_close (fd : Fd) : Silent (.close fd) := fun _ => ⟨rfl, rfl, rfl, rfl⟩
theorem silent_readError (fd : Fd) (e : Errno) : Silent (.readError fd e) :=
  fun _ => ⟨rfl, rfl, rfl, rfl⟩

theorem silent_of_writesTo {fds : List Fd} {log : List Event} (inside : WritesTo fds log) :
    ∀ e ∈ log, Silent e := by
  intro e member
  obtain ⟨_, _, ⟨_, rfl⟩ | ⟨_, rfl⟩⟩ := inside e member <;> exact fun _ => ⟨rfl, rfl, rfl, rfl⟩

theorem history_accept (fd : Fd) (log : List Event) :
    received fd (log ++ [.accept fd]) = [] ∧ names fd (log ++ [.accept fd]) = [] ∧
      relays fd (log ++ [.accept fd]) = [] := by
  have none : history fd (log ++ [.accept fd]) = [] :=
    Machine.sinceLast_append_hit log (by simp [Event.accepts])
  simp [received, names, relays, none]

theorem sameHistory_accept {fd y : Fd} (log : List Event) (other : y ≠ fd) :
    SameHistory fd log (log ++ [.accept y]) :=
  sameHistory_of_empty log (by simp [Event.accepts, other]) rfl rfl rfl

theorem sameHistory_read_other {fd y : Fd} (log : List Event) {bytes : List Byte}
    (nothing : y ≠ fd ∨ bytes = []) : SameHistory fd log (log ++ [.read y bytes]) := by
  refine sameHistory_of_empty log (by simp [Event.accepts]) ?_ rfl rfl
  rcases nothing with h | h <;> simp [Event.readFrom, h]

theorem relayed_log {write : Fd → List WriteAnswer} {fd : Fd} {name text : List Byte}
    {fds : List Fd} {tail : List Event} {outcome : Outcome Exn Unit}
    (relayed : Relayed write fd name text fds tail outcome) :
    text = [] ∧ tail = [] ∨
      text ≠ [] ∧ ∃ writes, WritesTo fds writes ∧ tail = .relay fd name text :: writes := by
  cases relayed with
  | nothing empty => exact .inl ⟨empty, rfl⟩
  | all writes nonempty inside => exact .inr ⟨nonempty, writes, inside, rfl⟩
  | stopped writes _ nonempty inside => exact .inr ⟨nonempty, writes, inside, rfl⟩

theorem Relayed.ends {write : Fd → List WriteAnswer} {fd : Fd} {name text : List Byte}
    {fds : List Fd} {tail : List Event} {outcome : Outcome Exn Unit}
    (relayed : Relayed write fd name text fds tail outcome) :
    outcome = .returned () ∨ outcome = .blocked ∨ ∃ e, outcome = .thrown e := by
  cases relayed with
  | nothing | all => exact .inl rfl
  | stopped _ _ _ _ _ _ ends =>
    rcases ends with blocked | ⟨errno, thrown⟩
    · exact .inr (.inl blocked)
    · exact .inr (.inr ⟨_, thrown⟩)

/-- What is so of the name line, the relay and every write is so of all that follows the read. -/
theorem forall_served {P : Event → Prop} {write : Fd → List WriteAnswer} {fd : Fd}
    {name text : List Byte} {fds : List Fd} {tail : List Event} {outcome : Outcome Exn Unit}
    (relayed : Relayed write fd name text fds tail outcome) (line : List Byte)
    (named : P (.named fd line)) (relay : P (.relay fd name text))
    (writes : ∀ y bytes, P (.write y bytes)) (errors : ∀ y errno, P (.writeError y errno)) :
    ∀ e ∈ namedLog fd line ++ tail, P e := by
  intro e member
  rcases List.mem_append.mp member with first | later
  · unfold namedLog at first
    split at first
    · cases first
    · obtain rfl := List.mem_singleton.mp first
      exact named
  · rcases relayed_log relayed with ⟨_, rfl⟩ | ⟨_, sends, inside, rfl⟩
    · cases later
    · rcases List.mem_cons.mp later with rfl | sent
      · exact relay
      · obtain ⟨y, _, ⟨bytes, rfl⟩ | ⟨errno, rfl⟩⟩ := inside e sent
        · exact writes y bytes
        · exact errors y errno

theorem sent_serve (y fd : Fd) (line bytes : List Byte) (tail : List Event) :
    sent y (.read fd bytes :: (namedLog fd line ++ tail)) = sent y tail := by
  by_cases none : line = [] <;> simp [namedLog, none, Event.sentTo]

theorem sent_relayed {write : Fd → List WriteAnswer} {fd : Fd} {name text : List Byte}
    {fds : List Fd} {tail : List Event} {outcome : Outcome Exn Unit}
    (relayed : Relayed write fd name text fds tail outcome) (y : Fd) :
    sent y tail = [] ∨ text ≠ [] ∧ sent y tail <+: message name text := by
  cases relayed with
  | nothing => exact .inl rfl
  | all writes nonempty inside carried each =>
    by_cases member : y ∈ fds
    · exact .inr ⟨nonempty, by simp [Event.sentTo, each y member]⟩
    · exact .inl (by simp [Event.sentTo, sent_outside inside member])
  | stopped writes _ nonempty inside parts =>
    exact .inr ⟨nonempty, by simpa [Event.sentTo] using parts y⟩

theorem serve_events {write : Fd → List WriteAnswer} {y : Fd} {name text : List Byte}
    {fds : List Fd} {tail : List Event} {outcome : Outcome Exn Unit}
    (relayed : Relayed write y name text fds tail outcome) (line bytes : List Byte) (fd : Fd) :
    let more := .read y bytes :: (namedLog y line ++ tail)
    (∀ e ∈ more, e.accepts fd = false) ∧
      more.flatMap (Event.readFrom fd) = (if y = fd then bytes else []) ∧
      more.filterMap (Event.nameOf fd) = (if y = fd ∧ line ≠ [] then [line] else []) ∧
      more.filterMap (Event.relayOf fd) = (if y = fd ∧ text ≠ [] then [(name, text)] else []) := by
  have lineLog : (∀ e ∈ namedLog y line, e.accepts fd = false) ∧
      (namedLog y line).flatMap (Event.readFrom fd) = [] ∧
      (namedLog y line).filterMap (Event.nameOf fd) =
        (if y = fd ∧ line ≠ [] then [line] else []) ∧
      (namedLog y line).filterMap (Event.relayOf fd) = [] := by
    by_cases noLine : line = [] <;> by_cases here : y = fd <;>
      simp [namedLog, noLine, here, Event.accepts, Event.readFrom, Event.nameOf, Event.relayOf]
  have tailLog : (∀ e ∈ tail, e.accepts fd = false) ∧ tail.flatMap (Event.readFrom fd) = [] ∧
      tail.filterMap (Event.nameOf fd) = [] ∧
      tail.filterMap (Event.relayOf fd) = (if y = fd ∧ text ≠ [] then [(name, text)] else []) := by
    rcases relayed_log relayed with ⟨empty, rfl⟩ | ⟨nonempty, writes, inside, rfl⟩
    · simp [empty]
    · have silent := silent_of_writesTo inside
      have r : writes.flatMap (Event.readFrom fd) = [] :=
        List.flatMap_eq_nil_iff.mpr fun e he => (silent e he fd).1
      have n : writes.filterMap (Event.nameOf fd) = [] :=
        List.filterMap_eq_nil_iff.mpr fun e he => (silent e he fd).2.1
      have t : writes.filterMap (Event.relayOf fd) = [] :=
        List.filterMap_eq_nil_iff.mpr fun e he => (silent e he fd).2.2.1
      have a : ∀ e ∈ writes, e.accepts fd = false := fun e he => (silent e he fd).2.2.2
      refine ⟨?_, ?_, ?_, ?_⟩
      · intro e member
        rcases List.mem_cons.mp member with rfl | member
        · simp [Event.accepts]
        · exact a e member
      · rw [List.flatMap_cons, r]; rfl
      · rw [List.filterMap_cons, n]; rfl
      · rw [List.filterMap_cons, t]
        by_cases here : y = fd <;> simp [Event.relayOf, here, nonempty]
  obtain ⟨la, lr, ln, lt⟩ := lineLog
  obtain ⟨ta, tr, tn, tt⟩ := tailLog
  refine ⟨?_, ?_, ?_, ?_⟩
  · intro e member
    rcases List.mem_cons.mp member with rfl | member
    · simp [Event.accepts]
    · exact (List.mem_append.mp member).elim (la e) (ta e)
  · simp only [List.flatMap_cons, List.flatMap_append, lr, tr, List.append_nil, Event.readFrom]
  · simp only [List.filterMap_cons, List.filterMap_append, ln, tn, List.append_nil, Event.nameOf]
  · simp only [List.filterMap_cons, List.filterMap_append, lt, tt, List.nil_append, Event.relayOf]

theorem history_serve {write : Fd → List WriteAnswer} {fd : Fd} {name text : List Byte}
    {fds : List Fd} {tail : List Event} {outcome : Outcome Exn Unit}
    (relayed : Relayed write fd name text fds tail outcome) (line bytes : List Byte)
    (log : List Event) :
    received fd (log ++ .read fd bytes :: (namedLog fd line ++ tail)) =
        received fd log ++ bytes ∧
      names fd (log ++ .read fd bytes :: (namedLog fd line ++ tail)) =
        names fd log ++ (if line = [] then [] else [line]) ∧
      relays fd (log ++ .read fd bytes :: (namedLog fd line ++ tail)) =
        relays fd log ++ (if text = [] then [] else [(name, text)]) := by
  obtain ⟨none, r, n, t⟩ := serve_events relayed line bytes fd
  obtain ⟨hr, hn, ht⟩ := history_append log none
  refine ⟨by rw [hr, r, if_pos rfl], ?_, ?_⟩
  · rw [hn, n]
    by_cases noLine : line = [] <;> simp [noLine]
  · rw [ht, t]
    by_cases noText : text = [] <;> simp [noText]

theorem sameHistory_serve {write : Fd → List WriteAnswer} {fd y : Fd} {name text : List Byte}
    {fds : List Fd} {tail : List Event} {outcome : Outcome Exn Unit}
    (relayed : Relayed write y name text fds tail outcome) (line bytes : List Byte)
    (log : List Event) (other : y ≠ fd) :
    SameHistory fd log (log ++ .read y bytes :: (namedLog y line ++ tail)) := by
  obtain ⟨none, r, n, t⟩ := serve_events relayed line bytes fd
  exact sameHistory_of_empty log none (by simpa [other] using r) (by simpa [other] using n)
    (by simpa [other] using t)

end ChatServer
end TcpChat
