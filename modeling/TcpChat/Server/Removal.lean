import TcpChat.Server.Reassembly

/-! Removals against the sessions of the connections that stay. A removal moves the last
client's descriptor only, so its session stays behind unless the two are alike. -/
namespace TcpChat.ChatServer
open Machine

def record (c : ClientInfo) : Fd × List Byte × Bool × List Byte :=
  (c.fd.get, c.name, c.connected, c.buffer.content)

/-- A removal leaves exactly the records of the other connections. -/
def RecordsKept (l : Loop) (k : Kernel) : Prop :=
  ∀ i ∈ leaving l k,
    ((step l k).1.server.clients.map record).Perm ((l.server.clients.eraseIdx i).map record)

/-- An entry agrees with what its connection registered and what was relayed for it. -/
structure Registered (c : ClientInfo) (log : List Event) : Prop where
  flag : c.connected = decide (names c.fd.get log ≠ [])
  once : (names c.fd.get log).length ≤ 1
  name : ∀ line ∈ names c.fd.get log, c.name = line.dropLast
  relays : ∀ r ∈ relays c.fd.get log, ∃ line ∈ names c.fd.get log, r.1 = line.dropLast

def AllRegistered (l : Loop) (log : List Event) : Prop :=
  ∀ c ∈ l.server.clients, Registered c log

theorem registered_same {c c' : ClientInfo} {log log' : List Event} (registered : Registered c log)
    (fd : c'.fd = c.fd) (name : c'.name = c.name) (connected : c'.connected = c.connected)
    (same : SameHistory c.fd.get log log') : Registered c' log' := by
  obtain ⟨hf, ho, hn, hr⟩ := registered
  constructor
  · rw [fd, connected, same.names, hf]
  · rw [fd, same.names]; exact ho
  · rw [fd, name, same.names]; exact hn
  · rw [fd, same.names, same.relays]; exact hr

/-- What a turn adds to what was registered and relayed for the client. -/
structure Adds (c c' : ClientInfo) (bytes : List Byte) (log log' : List Event) : Prop where
  takes : names c'.fd.get log' = names c.fd.get log ++
    (if nameLine c (landed c.buffer bytes) = [] then [] else [nameLine c (landed c.buffer bytes)])
  sends : relays c'.fd.get log' = relays c.fd.get log ++
    (if relayText c (landed c.buffer bytes) = [] then []
     else [(c'.name, relayText c (landed c.buffer bytes))])

/-- A named client: no line is taken, and the text goes out under the name it has. -/
theorem registered_of_named {c c' : ClientInfo} {bytes : List Byte} {log log' : List Event}
    (registered : Registered c log) (served : Served c c' bytes) (adds : Adds c c' bytes log log')
    (known : c.connected = true) : Registered c' log' := by
  obtain ⟨flag, once, name, relays⟩ := registered
  obtain ⟨takes, sends⟩ := adds
  have named := served.name
  have noLine : nameLine c (landed c.buffer bytes) = [] := by simp [nameLine, known]
  rw [if_pos noLine] at takes named
  rw [List.append_nil] at takes
  have some : names c.fd.get log ≠ [] := of_decide_eq_true (flag.symm.trans known)
  obtain ⟨line, only⟩ := List.exists_mem_of_ne_nil _ some
  refine ⟨?_, by rw [takes]; exact once, ?_, ?_⟩
  · rw [served.connected, takes, known, Bool.true_or, decide_eq_true some]
  · rw [takes, named]; exact name
  · intro r member
    rw [sends] at member
    rcases List.mem_append.mp member with old | new
    · rw [takes]; exact relays r old
    · refine ⟨line, by rw [takes]; exact only, ?_⟩
      split at new
      · cases new
      · rw [List.mem_singleton.mp new, named]
        exact name line only

/-- A client without a name: nothing has been relayed for it, nor is before it has one. -/
theorem registered_of_unnamed {c c' : ClientInfo} {bytes : List Byte} {log log' : List Event}
    (registered : Registered c log) (served : Served c c' bytes) (adds : Adds c c' bytes log log')
    (known : c.connected = false) : Registered c' log' := by
  obtain ⟨flag, once, name, relays⟩ := registered
  obtain ⟨takes, sends⟩ := adds
  have connected := served.connected
  have named := served.name
  have none : names c.fd.get log = [] := by
    simpa using flag.symm.trans known
  have silent : ∀ r, r ∉ ChatServer.relays c.fd.get log := by
    intro r member
    obtain ⟨line, inside, _⟩ := relays r member
    rw [none] at inside
    cases inside
  rw [none, List.nil_append] at takes
  by_cases noLine : nameLine c (landed c.buffer bytes) = []
  · rw [if_pos noLine] at takes
    have absent : newline ∉ landed c.buffer bytes := by
      rw [nameLine, known] at noLine
      exact (Framing.first_eq_nil_iff newline _).mp noLine
    have noText : relayText c (landed c.buffer bytes) = [] := by
      rw [relayText, Framing.complete_of_not_mem absent, List.drop_nil]
    rw [if_pos noText, List.append_nil] at sends
    refine ⟨by simp [connected, takes, known, noLine], by simp [takes], by simp [takes], ?_⟩
    intro r member
    rw [sends] at member
    exact absurd member (silent r)
  · rw [if_neg noLine] at takes named
    refine ⟨by simp [connected, takes, noLine], by simp [takes], ?_, ?_⟩
    · rw [takes]
      intro line member
      rw [List.mem_singleton.mp member, named]
    · intro r member
      rw [sends] at member
      refine ⟨nameLine c (landed c.buffer bytes), by simp [takes], ?_⟩
      rcases List.mem_append.mp member with old | new
      · exact absurd old (silent r)
      · split at new
        · cases new
        · rw [List.mem_singleton.mp new, named]

theorem registered_of_served {c c' : ClientInfo} {bytes : List Byte} {log log' : List Event}
    (registered : Registered c log) (served : Served c c' bytes)
    (adds : Adds c c' bytes log log') : Registered c' log' := by
  cases known : c.connected with
  | true => exact registered_of_named registered served adds known
  | false => exact registered_of_unnamed registered served adds known

theorem registered_of_fate {l : Loop} {k : Kernel} {log more : List Event} {c' : ClientInfo}
    (registered : AllRegistered l log) (fits : RemovalFits l k) (fate : Fate k l log more c') :
    Registered c' (log ++ more) := by
  cases fate with
  | joined fd entry receives takes sends =>
    have unnamed : c'.connected = false := by rw [entry]; rfl
    exact ⟨by simp [unnamed, takes], by simp [takes], by simp [takes], by simp [sends]⟩
  | kept member same => exact registered_same (registered c' member) rfl rfl rfl same
  | moved i c back leaves found last inside entry same =>
    obtain ⟨name, connected, _⟩ := fits i leaves c found back last
    subst entry
    exact registered_same (registered back (List.mem_of_getLast? last)) rfl name connected same
  | served c bytes member reads nonempty served receives takes sends =>
    exact registered_of_served (registered c member) served ⟨takes, sends⟩

/-- Exactly an entry with a like session can take over the last client's descriptor. -/
theorem removed_records_iff {clients : List ClientInfo} {i : Nat} {c back : ClientInfo}
    (found : clients[i]? = some c) (last : clients.getLast? = some back) :
    ((removed clients i).map record).Perm ((clients.eraseIdx i).map record) ↔
      c.name = back.name ∧ c.connected = back.connected ∧
        c.buffer.content = back.buffer.content := by
  obtain ⟨inside, same⟩ := List.getElem?_eq_some_iff.mp found
  obtain ⟨front, end_, rfl⟩ := Slots.exists_concat inside
  obtain rfl : end_ = back := by simpa using last
  by_cases hi : i < front.length
  · rw [List.getElem?_append_left hi] at found
    have moved := (List.set_perm_cons_eraseIdx hi { c with fd := end_.fd }).map record
    have kept : ((front ++ [end_]).eraseIdx i).map record =
        (front.eraseIdx i).map record ++ [record end_] := by
      rw [List.eraseIdx_append_of_lt_length hi, List.map_append, List.map_singleton]
    rw [removed_of_getElem? found, kept, moved.congr_left, List.map_cons,
      (List.perm_append_singleton _ _).congr_right, ← List.singleton_append,
      ← List.singleton_append (l := (front.eraseIdx i).map record),
      List.perm_append_right_iff, List.singleton_perm_singleton]
    simp [record]
  · have last_slot : i = front.length := by simp at inside; omega
    subst last_slot
    obtain rfl : end_ = c := by simpa using found
    simp [removed_last, List.eraseIdx_append_of_length_le]

theorem recordsKept_iff {l : Loop} (k : Kernel) (good : l.server.Good) :
    RecordsKept l k ↔ RemovalFits l k := by
  unfold RecordsKept RemovalFits
  refine forall₂_congr fun i leaves => ?_
  obtain ⟨c, found, next, _⟩ := removal_of_effect (step_effect k l good) leaves
  have inside := (List.getElem?_eq_some_iff.mp found).1
  obtain ⟨front, back, split⟩ := Slots.exists_concat inside
  have last : l.server.clients.getLast? = some back := by simp [split]
  rw [next, removed_records_iff found last]
  simp [found, last]

/-- The bytes a step sends anyone come under the name of the connection it reads. -/
def PrefixedByOwn (l : Loop) (log : List Event) (k : Kernel) : Prop :=
  ∀ c bytes, reading l k = some (c, .ok bytes) → ∀ y, sent y (step l k).2 = [] ∨
    ∃ line text, names c.fd.get (log ++ (step l k).2) = [line] ∧
      sent y (step l k).2 <+: message line.dropLast text

theorem registered_step {l : Loop} {k : Kernel} {log : List Event} (good : l.server.Good)
    (fresh : Fresh l k) (fits : RemovalFits l k) (registered : AllRegistered l log) :
    AllRegistered (step l k).1 (log ++ (step l k).2) :=
  fun c' member => registered_of_fate registered fits (step_fates good fresh log c' member)

theorem prefixed_of_registered {l : Loop} {k : Kernel} {log : List Event} (good : l.server.Good)
    (after : AllRegistered (step l k).1 (log ++ (step l k).2)) : PrefixedByOwn l log k := by
  intro c bytes reads y
  by_cases empty : bytes = []
  · subst empty
    exact .inl (by rw [eof_of_effect (step_effect k l good) reads]; simp [Event.sentTo])
  · obtain ⟨i, c', tail, control, outcome, serve⟩ :=
      serve_of_effect (step_effect k l good) reads empty
    have served := serve.served
    have registered := after c' serve.member
    rw [serve.more] at registered ⊢
    rw [sent_serve]
    rcases sent_relayed serve.relayed y with none | ⟨some, part⟩
    · exact .inl none
    · obtain ⟨_, _, sends⟩ :=
        history_serve serve.relayed (nameLine c (landed c.buffer bytes)) bytes log
      have relay : (c'.name, relayText c (landed c.buffer bytes)) ∈ relays c'.fd.get
          (log ++ .read c.fd.get bytes ::
            (namedLog c.fd.get (nameLine c (landed c.buffer bytes)) ++ tail)) := by
        rw [served.fd, sends, if_neg some]
        exact List.mem_append_right _ (List.mem_singleton_self _)
      obtain ⟨line, member, name⟩ := registered.relays _ relay
      have only := List.length_eq_one_iff.mp
        (Nat.le_antisymm registered.once (List.length_pos_of_mem member))
      obtain ⟨line', single⟩ := only
      rw [single, List.mem_singleton] at member
      subst member
      rw [served.fd] at single
      exact .inr ⟨line, _, single, by rw [← name]; exact part⟩

structure Attributed (l : Loop) (log : List Event) : Prop where
  good : l.server.Good
  registered : AllRegistered l log

theorem attributed_of_empty {s : ChatServer} (empty : s.clients = []) :
    Attributed (eventLoop s) [] :=
  ⟨good_of_empty empty, by simp [AllRegistered, eventLoop, empty]⟩

theorem attributed_step {l : Loop} {k : Kernel} {log : List Event} (h : Attributed l log)
    (allowed : Fresh l k ∧ RemovalFits l k) : Attributed (step l k).1 (log ++ (step l k).2) :=
  ⟨good_step h.good allowed.1, registered_step h.good allowed.1 allowed.2 h.registered⟩

theorem records_kept (r : ServerRun) : r.Along RecordsKept ↔ r.Along RemovalFits :=
  along_congr (I := fun l => l.server.Good) (fun _ k good => recordsKept_iff k good)
    (fun _ _ good fresh => good_step good fresh) (good_of_empty r.empty) r.fresh

/-- The sessions follow their connections exactly where each removal takes the last client or
one with a like session; then every broadcast goes out under its own connection's name, and
no byte changes hands unless a read also misplaces it. -/
theorem records_follow_iff (r : ServerRun) :
    (r.Along RecordsKept ↔ r.Along RemovalFits) ∧
    (r.Along RemovalFits → r.Always AllRegistered ∧
      ∀ before k after, r.kernels = before ++ k :: after →
        PrefixedByOwn (Machine.run step (eventLoop r.server) before).1
          (Machine.run step (eventLoop r.server) before).2 k) ∧
    (r.Along RemovalFits → r.Along LandsBehind → r.Always Reassembled) := by
  refine ⟨records_kept r, fun fits => ⟨?_, ?_⟩, fun fits behind => ?_⟩
  · exact always_of_invariant (I := Attributed) (fun _ _ h => h.registered)
      (fun _ _ _ => attributed_step) (attributed_of_empty r.empty)
      ((along_and step _ _ _ _).mpr ⟨r.fresh, fits⟩)
  · intro before k after cut
    have allowed := (along_and step _ _ _ _).mpr ⟨r.fresh, fits⟩
    rw [cut, along_append] at allowed
    obtain ⟨first, here, _⟩ := allowed
    have reached := run_keeps (I := Attributed) (fun _ _ _ => attributed_step)
      (attributed_of_empty r.empty) first
    exact prefixed_of_registered reached.good (attributed_step reached here).registered
  · refine always_of_invariant (I := Intact)
      (fun _ _ intact => reassembled_of_tracked intact.tracked) ?_ (intact_of_empty r.empty)
      ((along_and step _ _ _ _).mpr ⟨r.fresh, (along_and step _ _ _ _).mpr ⟨fits, behind⟩⟩)
    rintro l log k intact ⟨fresh, fits, behind⟩
    exact intact_step intact fresh fits behind

/-! Three named clients; the first one hangs up, and the third one speaks. -/

def firstLeaves : ServerRun where
  server := listening
  kernels := joins 5 ++ joins 6 ++ joins 7 ++ delivers 5 0 (ascii ['A', '\n']) ++
    delivers 6 1 (ascii ['B', '\n']) ++ delivers 7 2 (ascii ['C', '\n']) ++
    hangsUp 5 0 ++ delivers 7 0 (ascii ['h', 'i', '\n'])
  empty := listening_clients
  fresh := by decide +kernel

instance (c : ClientInfo) (log : List Event) : Decidable (Registered c log) :=
  decidable_of_iff (_ ∧ _ ∧ _ ∧ _)
    ⟨fun ⟨flag, once, name, relays⟩ => ⟨flag, once, name, relays⟩,
      fun ⟨flag, once, name, relays⟩ => ⟨flag, once, name, relays⟩⟩

/-- The third client's text reaches the second one under the first one's name. -/
theorem session_taken_over : ∃ r : ServerRun, ¬ r.Along RecordsKept ∧ ¬ r.Always AllRegistered ∧
    sent 6 r.log = message (ascii ['A']) (ascii ['h', 'i', '\n']) := by
  refine ⟨firstLeaves, ?_, fun all => ?_, by decide +kernel⟩
  · rw [(records_kept firstLeaves)]
    decide +kernel
  · have kept := always_last all
    rw [List.nil_append] at kept
    have lost : ¬ ∀ c ∈ firstLeaves.final.server.clients, Registered c firstLeaves.log := by
      decide +kernel
    exact lost kept

def lastLeaves : ServerRun where
  server := listening
  kernels := joins 5 ++ joins 6 ++ delivers 5 0 (ascii ['A', '\n']) ++
    delivers 6 1 (ascii ['B', '\n']) ++ hangsUp 6 1 ++
    delivers 5 0 (ascii ['h', 'i', '\n'])
  empty := listening_clients
  fresh := by decide +kernel

theorem last_session_kept : lastLeaves.Along RecordsKept ∧ lastLeaves.Always AllRegistered ∧
    lastLeaves.Always Reassembled :=
  ⟨(records_follow_iff lastLeaves).1.mpr (by decide +kernel),
    ((records_follow_iff lastLeaves).2.1 (by decide +kernel)).1,
    (records_follow_iff lastLeaves).2.2 (by decide +kernel) (by decide +kernel)⟩

end TcpChat.ChatServer
