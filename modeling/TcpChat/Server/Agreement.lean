import TcpChat.Server.Run

/-! What the recipients get. The cause of a write is the last read before it; a delivery is
all that one read causes to be written to a client. -/
namespace TcpChat.ChatServer
open Machine

/-- The deliveries to `x` after one more event; a read opens the next one. -/
def deliver (x : Fd) (acc : List (Fd × List Byte)) : Event → List (Fd × List Byte)
  | .read y _ => acc ++ [(y, [])]
  | e =>
    match acc.getLast? with
    | none => acc
    | some (y, block) => acc.dropLast ++ [(y, block ++ e.sentTo x)]

/-- The nonempty deliveries to `x`, each with the connection it came from. -/
def deliveries (x : Fd) (log : List Event) : List (Fd × List Byte) :=
  (log.foldl (deliver x) []).filter (·.2 ≠ [])

def Event.broadcast : Event → Option (Fd × List Byte)
  | .relay fd name text => some (fd, message name text)
  | _ => none

def broadcasts (log : List Event) : List (Fd × List Byte) := log.filterMap Event.broadcast

def Event.isRead : Event → Bool
  | .read .. => true
  | _ => false

theorem deliver_of_not_read {x : Fd} {e : Event} (other : Event.isRead e = false)
    (acc : List (Fd × List Byte)) (y : Fd) (block : List Byte) :
    deliver x (acc ++ [(y, block)]) e = acc ++ [(y, block ++ e.sentTo x)] := by
  cases e with
  | read => cases other
  | _ => simp [deliver]

theorem foldl_deliver {x : Fd} {log : List Event} (none : ∀ e ∈ log, Event.isRead e = false)
    (acc : List (Fd × List Byte)) (y : Fd) (block : List Byte) :
    log.foldl (deliver x) (acc ++ [(y, block)]) = acc ++ [(y, block ++ sent x log)] := by
  induction log generalizing block with
  | nil => simp
  | cons e log ih =>
    have rest : ∀ e ∈ log, Event.isRead e = false :=
      fun e member => none e (List.mem_cons_of_mem _ member)
    rw [List.foldl_cons, deliver_of_not_read (none e List.mem_cons_self), ih rest, sent_cons,
      List.append_assoc]

theorem filter_foldl_deliver {x : Fd} {log : List Event} (nothing : sent x log = [])
    (acc : List (Fd × List Byte)) :
    (log.foldl (deliver x) acc).filter (·.2 ≠ []) = acc.filter (·.2 ≠ []) := by
  induction log generalizing acc with
  | nil => rfl
  | cons e log ih =>
    obtain ⟨here, later⟩ := List.append_eq_nil_iff.mp nothing
    rw [List.foldl_cons, ih later]
    cases kind : Event.isRead e with
    | true =>
      cases e with
      | read y bytes => simp [deliver]
      | _ => cases kind
    | false =>
      rcases List.eq_nil_or_concat' acc with rfl | ⟨front, ⟨y, block⟩, rfl⟩
      · cases e with
        | read => cases kind
        | _ => simp [deliver]
      · rw [deliver_of_not_read kind, here, List.append_nil]

theorem deliveries_append_silent {x : Fd} (log : List Event) {more : List Event}
    (nothing : sent x more = []) : deliveries x (log ++ more) = deliveries x log := by
  rw [deliveries, List.foldl_append, filter_foldl_deliver nothing, deliveries]

theorem deliveries_append_read {x y : Fd} (log : List Event) (bytes : List Byte)
    {rest : List Event} (none : ∀ e ∈ rest, Event.isRead e = false) (some : sent x rest ≠ []) :
    deliveries x (log ++ .read y bytes :: rest) = deliveries x log ++ [(y, sent x rest)] := by
  rw [deliveries, List.foldl_append, List.foldl_cons]
  change ((rest.foldl (deliver x) (_ ++ [(y, [])])).filter _) = _
  rw [foldl_deliver none, List.filter_append, List.nil_append, deliveries]
  simp [some]

theorem message_ne_nil (name text : List Byte) : message name text ≠ [] := by
  simp [message, ascii]

theorem message_getLast? (name : List Byte) {text : List Byte}
    (ends : text.getLast? = some newline) : (message name text).getLast? = some newline := by
  obtain ⟨front, rfl⟩ := List.getLast?_eq_some_iff.mp ends
  simp [message, ← List.append_assoc]

theorem relayText_getLast? {c : ClientInfo} {live : List Byte} (nonempty : relayText c live ≠ []) :
    (relayText c live).getLast? = some newline := by
  have longer : ¬ (Framing.complete newline live).length ≤ (nameLine c live).length := fun short =>
    nonempty (List.drop_eq_nil_of_le short)
  have whole : Framing.complete newline live ≠ [] := by
    intro empty
    rw [empty] at longer
    exact longer (Nat.zero_le _)
  rw [relayText, List.getLast?_drop, if_neg longer, Framing.complete_getLast? whole]

/-! What one step adds. -/

theorem silent_of_mute {x : Fd} {log : List Event} (mute : ∀ e ∈ log, Mute e) : sent x log = [] := by
  apply List.flatMap_eq_nil_iff.mpr
  intro e member
  cases e with
  | write => exact absurd (mute _ member) id
  | _ => rfl

theorem broadcasts_of_mute {log : List Event} (mute : ∀ e ∈ log, Mute e) : broadcasts log = [] := by
  apply List.filterMap_eq_nil_iff.mpr
  intro e member
  cases e with
  | relay => exact absurd (mute _ member) id
  | _ => rfl

theorem broadcasts_append (log more : List Event) :
    broadcasts (log ++ more) = broadcasts log ++ broadcasts more := List.filterMap_append

theorem broadcasts_of_writesTo {fds : List Fd} {log : List Event} (inside : WritesTo fds log) :
    broadcasts log = [] ∧ ∀ e ∈ log, Event.isRead e = false := by
  constructor
  · apply List.filterMap_eq_nil_iff.mpr
    intro e member
    obtain ⟨_, _, ⟨_, rfl⟩ | ⟨_, rfl⟩⟩ := inside e member <;> rfl
  · intro e member
    obtain ⟨_, _, ⟨_, rfl⟩ | ⟨_, rfl⟩⟩ := inside e member <;> rfl

theorem mem_recipients {s : ChatServer} (good : s.Good) {i : Nat} {c : ClientInfo}
    (found : s.clients[i]? = some c) (x : Fd) :
    x ∈ s.recipients i ↔ x ∈ s.descriptors ∧ x ≠ c.fd.get := by
  obtain ⟨inside, same⟩ := List.getElem?_eq_some_iff.mp found
  have bound : i < s.descriptors.length := by simpa [descriptors] using inside
  have here : s.descriptors[i] = c.fd.get := by simp [descriptors, same]
  rw [recipients, ← Slots.mem_swapRemove bound, Slots.mem_swapRemove_iff bound good.distinct, here]

theorem relayed_returns {write : Fd → List WriteAnswer} {fd : Fd} {name text : List Byte}
    {fds : List Fd} {tail : List Event} {outcome : Outcome Exn Unit} {control : Control}
    (relayed : Relayed write fd name text fds tail outcome)
    (returns : Returns (control.after outcome)) :
    text = [] ∧ tail = [] ∨
      text ≠ [] ∧ broadcasts tail = [(fd, message name text)] ∧
        (∀ e ∈ tail, Event.isRead e = false) ∧
        ∀ x, sent x tail = if x ∈ fds then message name text else [] := by
  cases relayed with
  | nothing empty => exact .inl ⟨empty, rfl⟩
  | all writes nonempty inside carried each =>
    obtain ⟨noText, noRead⟩ := broadcasts_of_writesTo inside
    refine .inr ⟨nonempty, ?_, ?_, fun x => ?_⟩
    · simpa [broadcasts, Event.broadcast] using noText
    · intro e member
      rcases List.mem_cons.mp member with rfl | member
      · rfl
      · exact noRead e member
    · by_cases member : x ∈ fds
      · simp [member, Event.sentTo, each x member]
      · simp [member, Event.sentTo, sent_outside inside member]
  | stopped writes _ nonempty inside parts short ends =>
    rcases ends with rfl | ⟨errno, rfl⟩
    · exact absurd rfl returns.1
    · exact absurd rfl (returns.2 _)

structure Delivered (x : Fd) (log more : List Event) : Prop where
  deliveries : deliveries x (log ++ more) =
    deliveries x log ++ (broadcasts more).filter (·.1 ≠ x)
  sent : sent x more = ((broadcasts more).filter (·.1 ≠ x)).flatMap (·.2)
  lines : ∀ d ∈ broadcasts more, d.2.getLast? = some newline

theorem delivered_of_silent {x : Fd} (log : List Event) {more : List Event}
    (silent : sent x more = []) (own : (broadcasts more).filter (·.1 ≠ x) = [])
    (lines : ∀ d ∈ broadcasts more, d.2.getLast? = some newline) : Delivered x log more :=
  ⟨by rw [own, List.append_nil, deliveries_append_silent log silent],
    by rw [own, silent]; rfl, lines⟩

theorem delivered_of_serve {k : Kernel} {l l' : Loop} {more : List Event} {i : Nat}
    {c c' : ClientInfo} {bytes : List Byte} {tail : List Event} {control : Control}
    {outcome : Outcome Exn Unit}
    (serve : Serve k l l' more i c c' bytes tail control outcome) (good : l.server.Good)
    (returns : Returns l'.control) {x : Fd} (present : x ∈ l.server.descriptors)
    (log : List Event) : Delivered x log more := by
  have lineLog : broadcasts (namedLog c.fd.get (nameLine c (landed c.buffer bytes))) = [] ∧
      ∀ e ∈ namedLog c.fd.get (nameLine c (landed c.buffer bytes)), Event.isRead e = false := by
    by_cases empty : nameLine c (landed c.buffer bytes) = [] <;>
      simp [namedLog, empty, broadcasts, Event.broadcast, Event.isRead]
  have texts : broadcasts more = broadcasts tail := by
    rw [serve.more]
    change broadcasts (_ ++ tail) = _
    rw [broadcasts_append, lineLog.1, List.nil_append]
  have all : sent x more = sent x tail := by rw [serve.more, sent_serve]
  have returned : Returns (control.after outcome) := by simpa only [serve.next] using returns
  rcases relayed_returns serve.relayed returned with ⟨_, rfl⟩ | ⟨nonempty, single, noRead, each⟩
  · exact delivered_of_silent log all (by rw [texts]; rfl) (by rw [texts]; simp [broadcasts])
  · have ends := message_getLast? c'.name (relayText_getLast? nonempty)
    have lines : ∀ d ∈ broadcasts more, d.2.getLast? = some newline := by
      rw [texts, single]
      intro d member
      rw [List.mem_singleton.mp member]
      exact ends
    by_cases own : c.fd.get = x
    · have outside : x ∉ l.server.recipients i := fun member =>
        ((mem_recipients good serve.found x).mp member).2 own.symm
      refine delivered_of_silent log ?_ ?_ lines
      · rw [all, each x, if_neg outside]
      · rw [texts, single]; simp [own]
    · have inside : x ∈ l.server.recipients i :=
        (mem_recipients good serve.found x).mpr ⟨present, fun eq => own eq.symm⟩
      have block : sent x tail = message c'.name (relayText c (landed c.buffer bytes)) := by
        rw [each x, if_pos inside]
      have kept : (broadcasts more).filter (·.1 ≠ x) =
          [(c.fd.get, message c'.name (relayText c (landed c.buffer bytes)))] := by
        rw [texts, single]; simp [own]
      refine ⟨?_, by rw [kept, all, block]; simp, lines⟩
      have reads : ∀ e ∈ namedLog c.fd.get (nameLine c (landed c.buffer bytes)) ++ tail,
          Event.isRead e = false := by
        intro e member
        exact (List.mem_append.mp member).elim (lineLog.2 e) (noRead e)
      have written : sent x (namedLog c.fd.get (nameLine c (landed c.buffer bytes)) ++ tail) =
          message c'.name (relayText c (landed c.buffer bytes)) := by
        rw [← block, ← sent_serve x c.fd.get (nameLine c (landed c.buffer bytes)) bytes tail]
        rfl
      rw [kept, serve.more, deliveries_append_read log bytes reads
        (by rw [written]; exact message_ne_nil _ _), written]

theorem delivered_step {l : Loop} {k : Kernel} (good : l.server.Good) {x : Fd}
    (present : x ∈ l.server.descriptors) (returns : Returns (step l k).1.control)
    (log : List Event) : Delivered x log (step l k).2 := by
  rcases mute_or_serve (step_effect k l good) with mute | ⟨i, c, c', bytes, tail, control, outcome,
    serve⟩
  · have none := broadcasts_of_mute mute
    exact delivered_of_silent log (silent_of_mute mute) (by rw [none]; rfl) (by simp [none])
  · exact delivered_of_serve serve good returns present log

/-! Runs. -/

/-- A stretch of a run throughout which two connections are in `clients`, and in which every
system call returns without an exception. -/
structure Period where
  server : ChatServer
  before : List Kernel
  during : List Kernel
  x : Fd
  y : Fd
  empty : server.clients = []
  fresh : Along step Fresh (eventLoop server) (before ++ during)
  present : Along step (fun l _ => x ∈ l.server.descriptors ∧ y ∈ l.server.descriptors)
    (Machine.run step (eventLoop server) before).1 during
  returns : Along step (fun l k => Returns (step l k).1.control)
    (Machine.run step (eventLoop server) before).1 during

namespace Period

def start (p : Period) : Loop := (Machine.run step (eventLoop p.server) p.before).1

def log (p : Period) : List Event := (Machine.run step p.start p.during).2

end Period

structure Agrees (x : Fd) (log : List Event) : Prop where
  deliveries : deliveries x log = (broadcasts log).filter (·.1 ≠ x)
  sent : sent x log = ((broadcasts log).filter (·.1 ≠ x)).flatMap (·.2)
  lines : ∀ d ∈ broadcasts log, d.2.getLast? = some newline

theorem agrees_append {x : Fd} {log more : List Event} (h : Agrees x log)
    (new : Delivered x log more) : Agrees x (log ++ more) := by
  constructor
  · rw [new.deliveries, h.deliveries, broadcasts_append, List.filter_append]
  · rw [sent_append, h.sent, new.sent, broadcasts_append, List.filter_append, List.flatMap_append]
  · intro d member
    rw [broadcasts_append] at member
    exact (List.mem_append.mp member).elim (h.lines d) (new.lines d)

theorem agrees_of_present {l : Loop} {ks : List Kernel} (good : l.server.Good) {x : Fd}
    (fresh : Along step Fresh l ks)
    (present : Along step (fun l _ => x ∈ l.server.descriptors) l ks)
    (returns : Along step (fun l k => Returns (step l k).1.control) l ks) :
    Agrees x (Machine.run step l ks).2 := by
  have initial : l.server.Good ∧ Agrees x [] := ⟨good, ⟨rfl, rfl, by simp [broadcasts]⟩⟩
  have allowed := (along_and step _ _ _ _).mpr ⟨fresh, (along_and step _ _ _ _).mpr ⟨present, returns⟩⟩
  refine (run_keeps (I := fun l log => l.server.Good ∧ Agrees x log) ?_ initial allowed).2
  rintro l log k ⟨good, agrees⟩ ⟨fresh, present, returns⟩
  exact ⟨good_step good fresh, agrees_append agrees (delivered_step good present returns log)⟩

theorem Period.agrees (p : Period) : ∀ z ∈ [p.x, p.y], Agrees z p.log := by
  obtain ⟨first, later⟩ := (along_append step Fresh _ _ _).mp p.fresh
  have good : p.start.server.Good := good_run (good_of_empty p.empty) first
  have both := (along_and step _ _ _ _).mp p.present
  intro z member
  rcases List.mem_cons.mp member with rfl | member
  · exact agrees_of_present good later both.1 p.returns
  · rw [List.mem_singleton.mp member]
    exact agrees_of_present good later both.2 p.returns

/-- Both get the same blocks from the others, in the same order; each gets each broadcast but
its own exactly once, in one piece that ends a line, and nothing else. -/
theorem broadcast_agreement (p : Period) :
    (deliveries p.x p.log).filter (fun d => d.1 ≠ p.x ∧ d.1 ≠ p.y) =
      (deliveries p.y p.log).filter (fun d => d.1 ≠ p.x ∧ d.1 ≠ p.y) ∧
    ∀ z ∈ [p.x, p.y],
      deliveries z p.log = (broadcasts p.log).filter (·.1 ≠ z) ∧
      sent z p.log = (deliveries z p.log).flatMap (·.2) ∧
      ∀ d ∈ deliveries z p.log, d.1 ≠ z ∧ d.2.getLast? = some newline := by
  constructor
  · rw [(p.agrees p.x (by simp)).deliveries, (p.agrees p.y (by simp)).deliveries,
      List.filter_filter, List.filter_filter]
    apply List.filter_congr
    intro d _
    by_cases fromX : d.1 = p.x <;> by_cases fromY : d.1 = p.y <;> simp [fromX, fromY]
  · intro z member
    obtain ⟨each, all, lines⟩ := p.agrees z member
    refine ⟨each, by rw [all, each], fun d inside => ?_⟩
    rw [each] at inside
    obtain ⟨text, other⟩ := List.mem_filter.mp inside
    exact ⟨of_decide_eq_true other, lines d text⟩

def threeClients : Period where
  server := listening
  before := joins 5 ++ joins 6 ++ joins 7 ++ delivers 5 0 (ascii ['A', '\n']) ++
    delivers 7 2 (ascii ['C', '\n'])
  during := delivers 5 0 (ascii ['h', 'i', '\n']) ++
    delivers 7 2 (ascii ['y', 'o', '\n'])
  x := 6
  y := 7
  empty := listening_clients
  fresh := by decide +kernel
  present := by decide +kernel
  returns := by decide +kernel

theorem three_clients_agree :
    (deliveries 6 threeClients.log).filter (fun d => d.1 ≠ 6 ∧ d.1 ≠ 7) =
      (deliveries 7 threeClients.log).filter (fun d => d.1 ≠ 6 ∧ d.1 ≠ 7) ∧
    deliveries 7 threeClients.log = [(5, message (ascii ['A']) (ascii ['h', 'i', '\n']))] :=
  ⟨(broadcast_agreement threeClients).1, by decide +kernel⟩

end TcpChat.ChatServer
