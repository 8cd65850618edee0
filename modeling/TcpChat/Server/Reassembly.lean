import TcpChat.Server.Run

/-! What the server takes from a connection against what it received there. A read goes to
the start of the buffer, so the bytes of an unfinished line lose their place. -/
namespace TcpChat.ChatServer
open Machine

/-- The name line, the relayed text and the buffered bytes make up the received stream. -/
def Reassembled (l : Loop) (log : List Event) : Prop :=
  ∀ c ∈ l.server.clients,
    (names c.fd.get log).flatten ++ relayedText c.fd.get log ++ c.buffer.content =
      received c.fd.get log

def LandsBehind (l : Loop) (k : Kernel) : Prop :=
  match reading l k with
  | some (c, .ok bytes) => c.buffer.content ++ bytes = landed c.buffer bytes
  | _ => True

def Stays (l : Loop) (k : Kernel) : Prop :=
  l.server.descriptors ⊆ (step l k).1.server.descriptors

/-- What a client's bytes call for, its name apart: all of it is a function of the stream. -/
structure Tracked (c : ClientInfo) (log : List Event) : Prop where
  connected : c.connected = decide (newline ∈ received c.fd.get log)
  names : names c.fd.get log =
    if newline ∈ received c.fd.get log then [Framing.first newline (received c.fd.get log)] else []
  text : relayedText c.fd.get log = (Framing.complete newline (received c.fd.get log)).drop
    (Framing.first newline (received c.fd.get log)).length
  content : c.buffer.content = Framing.residue newline (received c.fd.get log)

/-- The whole session that a client's bytes call for. -/
structure Determined (c : ClientInfo) (log : List Event) : Prop extends Tracked c log where
  name : c.name =
    if newline ∈ received c.fd.get log then (Framing.first newline (received c.fd.get log)).dropLast
    else ascii ['N', 'o', 'N', 'a', 'm', 'e']

/-- A removal gives the last client's descriptor an entry with the same flag and bytes. -/
def ContentFits (l : Loop) (k : Kernel) : Prop :=
  ∀ i ∈ leaving l k, ∀ c ∈ l.server.clients[i]?, ∀ back ∈ l.server.clients.getLast?,
    c.connected = back.connected ∧ c.buffer.content = back.buffer.content

/-- A removal gives the last client's descriptor an entry with the same session. -/
def RemovalFits (l : Loop) (k : Kernel) : Prop :=
  ∀ i ∈ leaving l k, ∀ c ∈ l.server.clients[i]?, ∀ back ∈ l.server.clients.getLast?,
    c.name = back.name ∧ c.connected = back.connected ∧ c.buffer.content = back.buffer.content

theorem contentFits_of_removalFits {l : Loop} {k : Kernel} (fits : RemovalFits l k) :
    ContentFits l k :=
  fun i leaves c found back last => (fits i leaves c found back last).2

theorem reassembled_of_tracked {l : Loop} {log : List Event}
    (tracked : ∀ c ∈ l.server.clients, Tracked c log) : Reassembled l log := by
  intro c member
  obtain ⟨_, names, text, content⟩ := tracked c member
  have line : (ChatServer.names c.fd.get log).flatten =
      Framing.first newline (received c.fd.get log) := by
    rw [names]
    split
    · simp
    · simp [(Framing.first_eq_nil_iff newline _).mpr ‹_›]
  rw [line, text, content, Framing.first_append_drop_complete, Framing.complete_append_residue]

theorem tracked_same {c c' : ClientInfo} {log log' : List Event} (tracked : Tracked c log)
    (fd : c'.fd = c.fd) (connected : c'.connected = c.connected)
    (content : c'.buffer.content = c.buffer.content) (same : SameHistory c.fd.get log log') :
    Tracked c' log' := by
  obtain ⟨hc, hl, ht, hb⟩ := tracked
  constructor
  · rw [fd, connected, same.received, hc]
  · rw [fd, same.names, same.received, hl]
  · rw [fd, relayedText, same.relays, same.received, ← ht, relayedText]
  · rw [fd, content, same.received, hb]

theorem determined_same {c c' : ClientInfo} {log log' : List Event} (determined : Determined c log)
    (fd : c'.fd = c.fd) (name : c'.name = c.name) (connected : c'.connected = c.connected)
    (content : c'.buffer.content = c.buffer.content) (same : SameHistory c.fd.get log log') :
    Determined c' log' :=
  ⟨tracked_same determined.toTracked fd connected content same,
    by rw [fd, name, same.received, determined.name]⟩

theorem relayedText_served {fd fd' : Fd} {log log' : List Event} {name text : List Byte}
    (h : relays fd' log' = relays fd log ++ (if text = [] then [] else [(name, text)])) :
    relayedText fd' log' = relayedText fd log ++ text := by
  rw [relayedText, h, List.flatMap_append, relayedText]
  by_cases empty : text = [] <;> simp [empty]

theorem names_served {fd fd' : Fd} {log log' : List Event} {line : List Byte}
    (h : names fd' log' = names fd log ++ (if line = [] then [] else [line])) :
    (names fd' log').flatten = (names fd log).flatten ++ line := by
  rw [h, List.flatten_append]
  by_cases empty : line = [] <;> simp [empty]

theorem nameLine_append_relayText (c : ClientInfo) (live : List Byte) :
    nameLine c live ++ relayText c live = Framing.complete newline live := by
  cases known : c.connected with
  | true => simp [nameLine, relayText, known]
  | false =>
    simpa [nameLine, relayText, known] using Framing.first_append_drop_complete newline live

theorem taken_in_order {c : ClientInfo} {log : List Event} (tracked : Tracked c log)
    (live : List Byte) :
    (names c.fd.get log).flatten ++ nameLine c live ++
        (relayedText c.fd.get log ++ relayText c live) =
      (names c.fd.get log).flatten ++ relayedText c.fd.get log ++ Framing.complete newline live := by
  rw [← nameLine_append_relayText c live]
  cases known : c.connected with
  | true => simp [nameLine, known]
  | false =>
    have absent : newline ∉ received c.fd.get log :=
      of_decide_eq_false (tracked.connected.symm.trans known)
    have none : relayedText c.fd.get log = [] := by
      rw [tracked.text, Framing.complete_of_not_mem absent, List.drop_nil]
    simp [none]

theorem tracked_of_served {c c' : ClientInfo} {bytes : List Byte} {log log' : List Event}
    (tracked : Tracked c log) (behind : c.buffer.content ++ bytes = landed c.buffer bytes)
    (served : Served c c' bytes)
    (receives : received c'.fd.get log' = received c.fd.get log ++ bytes)
    (takes : names c'.fd.get log' = names c.fd.get log ++
      (if nameLine c (landed c.buffer bytes) = [] then [] else [nameLine c (landed c.buffer bytes)]))
    (sends : relays c'.fd.get log' = relays c.fd.get log ++
      (if relayText c (landed c.buffer bytes) = [] then []
       else [(c'.name, relayText c (landed c.buffer bytes))])) : Tracked c' log' := by
  have texts := relayedText_served sends
  obtain ⟨connected, names, text, content⟩ := tracked
  have live : landed c.buffer bytes =
      Framing.residue newline (received c.fd.get log) ++ bytes := by rw [← behind, content]
  have rest : c'.buffer.content = Framing.residue newline (received c.fd.get log ++ bytes) := by
    rw [served.content, live, ← Framing.residue_append]
  by_cases known : newline ∈ received c.fd.get log
  · have still : newline ∈ received c.fd.get log ++ bytes := List.mem_append_left _ known
    have flag : c.connected = true := by rw [connected]; exact decide_eq_true known
    have noLine : nameLine c (landed c.buffer bytes) = [] := by simp [nameLine, flag]
    have line := Framing.first_append known bytes
    have short : (Framing.first newline (received c.fd.get log)).length ≤
        (Framing.complete newline (received c.fd.get log)).length := by
      rw [Framing.complete_eq_first_append known, List.length_append]
      exact Nat.le_add_right _ _
    constructor
    · rw [served.connected, receives, flag, decide_eq_true still, Bool.true_or]
    · rw [takes, if_pos noLine, receives, if_pos still, line, names, if_pos known, List.append_nil]
    · rw [texts, receives, line, text, Framing.complete_append, relayText, noLine, List.length_nil,
        List.drop_zero, live, List.drop_append_of_le_length short]
    · rw [receives, rest]
  · have flag : c.connected = false := by rw [connected]; exact decide_eq_false known
    have whole : landed c.buffer bytes = received c.fd.get log ++ bytes := by
      rw [live, Framing.residue_of_not_mem known]
    have line : nameLine c (landed c.buffer bytes) =
        Framing.first newline (received c.fd.get log ++ bytes) := by simp [nameLine, flag, whole]
    have none : relayedText c.fd.get log = [] := by
      rw [text, Framing.complete_of_not_mem known, List.drop_nil]
    rw [line] at takes
    constructor
    · rw [served.connected, line, receives, flag, Bool.false_or]
      exact decide_eq_decide.mpr ((not_congr (Framing.first_eq_nil_iff newline _)).trans not_not)
    · rw [takes, receives, names, if_neg known, List.nil_append]
      by_cases now : newline ∈ received c.fd.get log ++ bytes
      · rw [if_pos now, if_neg (fun h => (Framing.first_eq_nil_iff newline _).mp h now)]
      · rw [if_neg now, if_pos ((Framing.first_eq_nil_iff newline _).mpr now)]
    · rw [texts, receives, none, relayText, line, whole, List.nil_append]
    · rw [receives, rest]

/-- The name follows from the stream as long as everything else does. -/
theorem name_of_served {c c' : ClientInfo} {bytes : List Byte} {log log' : List Event}
    (determined : Determined c log) (behind : c.buffer.content ++ bytes = landed c.buffer bytes)
    (served : Served c c' bytes)
    (receives : received c'.fd.get log' = received c.fd.get log ++ bytes) :
    c'.name = if newline ∈ received c'.fd.get log' then
      (Framing.first newline (received c'.fd.get log')).dropLast
    else ascii ['N', 'o', 'N', 'a', 'm', 'e'] := by
  have name := determined.name
  rw [served.name, receives]
  by_cases known : newline ∈ received c.fd.get log
  · have flag : c.connected = true := by rw [determined.connected]; exact decide_eq_true known
    have noLine : nameLine c (landed c.buffer bytes) = [] := by simp [nameLine, flag]
    rw [if_pos noLine, if_pos (List.mem_append_left _ known), Framing.first_append known, name,
      if_pos known]
  · have flag : c.connected = false := by rw [determined.connected]; exact decide_eq_false known
    have line : nameLine c (landed c.buffer bytes) =
        Framing.first newline (received c.fd.get log ++ bytes) := by
      simp [nameLine, flag, ← behind, determined.content, Framing.residue_of_not_mem known]
    rw [line, name, if_neg known]
    by_cases now : newline ∈ received c.fd.get log ++ bytes
    · rw [if_pos now, if_neg (fun h => (Framing.first_eq_nil_iff newline _).mp h now)]
    · rw [if_neg now, if_pos ((Framing.first_eq_nil_iff newline _).mpr now)]

theorem tracked_newClient {fd : Fd} {memory : Cells Byte bufferSize} {log : List Event}
    (receives : received fd log = []) (takes : names fd log = [])
    (sends : relays fd log = []) : Tracked (newClient fd memory) log := by
  have here : (newClient fd memory).fd.get = fd := rfl
  constructor <;> rw [here, receives]
  · rfl
  · rw [takes]; rfl
  · rw [relayedText, sends]; rfl
  · rfl

theorem tracked_of_fate {l : Loop} {k : Kernel} {log more : List Event} {c' : ClientInfo}
    (tracked : ∀ c ∈ l.server.clients, Tracked c log) (fits : ContentFits l k)
    (behind : LandsBehind l k) (fate : Fate k l log more c') : Tracked c' (log ++ more) := by
  cases fate with
  | joined fd entry receives takes sends =>
    subst entry
    exact tracked_newClient receives takes sends
  | kept member same => exact tracked_same (tracked c' member) rfl rfl rfl same
  | moved i c back leaves found last inside entry same =>
    obtain ⟨connected, content⟩ := fits i leaves c found back last
    subst entry
    exact tracked_same (tracked back (List.mem_of_getLast? last)) rfl connected content same
  | served c bytes member reads nonempty served receives takes sends =>
    have here : c.buffer.content ++ bytes = landed c.buffer bytes := by
      simpa only [LandsBehind, reads] using behind
    exact tracked_of_served (tracked c member) here served receives takes sends

theorem determined_of_fate {l : Loop} {k : Kernel} {log more : List Event} {c' : ClientInfo}
    (determined : ∀ c ∈ l.server.clients, Determined c log) (fits : RemovalFits l k)
    (behind : LandsBehind l k) (fate : Fate k l log more c') : Determined c' (log ++ more) := by
  refine ⟨tracked_of_fate (fun c member => (determined c member).toTracked)
    (contentFits_of_removalFits fits) behind fate, ?_⟩
  cases fate with
  | joined fd entry receives =>
    subst entry
    have here : (newClient fd k.memory).fd.get = fd := rfl
    rw [here] at receives ⊢
    rw [receives]
    rfl
  | kept member same => exact (determined_same (determined c' member) rfl rfl rfl rfl same).name
  | moved i c back leaves found last inside entry same =>
    obtain ⟨name, connected, content⟩ := fits i leaves c found back last
    subst entry
    have moved : Determined { c with fd := back.fd } (log ++ more) :=
      determined_same (determined back (List.mem_of_getLast? last)) rfl name connected content same
    exact moved.name
  | served c bytes member reads nonempty served receives =>
    have here : c.buffer.content ++ bytes = landed c.buffer bytes := by
      simpa only [LandsBehind, reads] using behind
    exact name_of_served (determined c member) here served receives

theorem determined_step {l : Loop} {k : Kernel} {log : List Event} (good : l.server.Good)
    (fresh : Fresh l k) (fits : RemovalFits l k) (behind : LandsBehind l k)
    (determined : ∀ c ∈ l.server.clients, Determined c log) :
    ∀ c' ∈ (step l k).1.server.clients, Determined c' (log ++ (step l k).2) :=
  fun c' member => determined_of_fate determined fits behind (step_fates good fresh log c' member)

theorem landsBehind_of_reassembled {l : Loop} {k : Kernel} {log : List Event}
    (good : l.server.Good) (tracked : ∀ c ∈ l.server.clients, Tracked c log)
    (after : Reassembled (step l k).1 (log ++ (step l k).2)) : LandsBehind l k := by
  unfold LandsBehind
  split
  case h_2 => trivial
  case h_1 c bytes reads =>
    by_cases empty : bytes = []
    · subst empty
      simp [landed, Buffer.content, Cells.read]
    · obtain ⟨i, c', tail, control, outcome, serve⟩ :=
        serve_of_effect (step_effect k l good) reads empty
      have served := serve.served
      obtain ⟨receives, takes, sends⟩ :=
        history_serve serve.relayed (nameLine c (landed c.buffer bytes)) bytes log
      have total := after c' serve.member
      have before := reassembled_of_tracked tracked c (mem_clients serve.found)
      rw [serve.more, served.fd, receives, names_served takes, relayedText_served sends, served.content,
        taken_in_order (tracked c (mem_clients serve.found)), ← before, List.append_assoc,
        Framing.complete_append_residue, List.append_assoc _ c.buffer.content bytes] at total
      exact (List.append_cancel_left total).symm

theorem not_leaving_of_stays {l : Loop} {k : Kernel} (good : l.server.Good) (stays : Stays l k) :
    leaving l k = none := by
  by_contra some
  obtain ⟨i, leaves⟩ := Option.ne_none_iff_exists'.mp some
  have effect := step_effect k l good
  obtain ⟨c, found, _⟩ := removal_of_effect effect leaves
  exact gone_of_leaving effect good leaves found (stays (mem_descriptors (mem_clients found)))

instance (l : Loop) (k : Kernel) : Decidable (LandsBehind l k) := by
  unfold LandsBehind
  split <;> infer_instance

instance (l : Loop) (k : Kernel) : Decidable (ContentFits l k) := by
  unfold ContentFits
  infer_instance

instance (l : Loop) (k : Kernel) : Decidable (RemovalFits l k) := by
  unfold RemovalFits
  infer_instance

instance (l : Loop) (k : Kernel) : Decidable (Stays l k) :=
  inferInstanceAs (Decidable (∀ fd ∈ l.server.descriptors, fd ∈ _))

instance (l : Loop) (log : List Event) : Decidable (Reassembled l log) :=
  inferInstanceAs (Decidable (∀ c ∈ l.server.clients, _ = _))

structure StayRun extends ServerRun where
  stays : toServerRun.Along Stays

structure Intact (l : Loop) (log : List Event) : Prop where
  good : l.server.Good
  determined : ∀ c ∈ l.server.clients, Determined c log

theorem Intact.tracked {l : Loop} {log : List Event} (intact : Intact l log) :
    ∀ c ∈ l.server.clients, Tracked c log :=
  fun c member => (intact.determined c member).toTracked

theorem intact_of_empty {s : ChatServer} (empty : s.clients = []) : Intact (eventLoop s) [] :=
  ⟨good_of_empty empty, by simp [eventLoop, empty]⟩

theorem intact_step {l : Loop} {k : Kernel} {log : List Event} (intact : Intact l log)
    (fresh : Fresh l k) (fits : RemovalFits l k) (behind : LandsBehind l k) :
    Intact (step l k).1 (log ++ (step l k).2) :=
  ⟨good_step intact.good fresh, determined_step intact.good fresh fits behind intact.determined⟩

/-- Like `Intact`, whatever becomes of the names. -/
structure Followed (l : Loop) (log : List Event) : Prop where
  good : l.server.Good
  tracked : ∀ c ∈ l.server.clients, Tracked c log

theorem followed_of_empty {s : ChatServer} (empty : s.clients = []) : Followed (eventLoop s) [] :=
  ⟨good_of_empty empty, by simp [eventLoop, empty]⟩

theorem followed_step {l : Loop} {k : Kernel} {log : List Event} (followed : Followed l log)
    (fresh : Fresh l k) (fits : ContentFits l k) (behind : LandsBehind l k) :
    Followed (step l k).1 (log ++ (step l k).2) :=
  ⟨good_step followed.good fresh, fun c' member =>
    tracked_of_fate followed.tracked fits behind (step_fates followed.good fresh log c' member)⟩

theorem fits_of_stays {l : Loop} {k : Kernel} (good : l.server.Good) (stays : Stays l k) :
    RemovalFits l k := by
  intro i leaves
  rw [not_leaving_of_stays good stays] at leaves
  cases leaves

theorem intact_of_behind (r : StayRun) (behind : r.Along LandsBehind) : Intact r.final r.log := by
  have allowed := (along_and step _ _ _ _).mpr
    ⟨(along_and step _ _ _ _).mpr ⟨r.fresh, r.stays⟩, behind⟩
  refine run_keeps (I := Intact) ?_ (intact_of_empty r.empty) allowed
  rintro l log k intact ⟨⟨fresh, stays⟩, behind⟩
  exact intact_step intact fresh (fits_of_stays intact.good stays) behind

theorem eq_of_determined {c c' : ClientInfo} {log log' : List Event} (h : Determined c log)
    (h' : Determined c' log') (same : received c.fd.get log = received c'.fd.get log') :
    c.name = c'.name ∧ c.connected = c'.connected ∧ c.buffer.content = c'.buffer.content ∧
      names c.fd.get log = names c'.fd.get log' ∧
      relayedText c.fd.get log = relayedText c'.fd.get log' := by
  rw [h.name, h.connected, h.content, h.names, h.text, h'.name, h'.connected, h'.content, h'.names,
    h'.text, same]
  exact ⟨rfl, rfl, rfl, rfl, rfl⟩

/-- A run takes every stream apart without loss exactly where all its reads land behind the
bytes that are buffered. Of two such runs the cuts of the streams cannot be told. -/
theorem reassembled_iff_landsBehind (r : StayRun) :
    (r.Always Reassembled ↔ r.Along LandsBehind) ∧
    ∀ r' : StayRun, r.Along LandsBehind → r'.Along LandsBehind →
      ∀ c ∈ r.final.server.clients, ∀ c' ∈ r'.final.server.clients,
        received c.fd.get r.log = received c'.fd.get r'.log →
          c.name = c'.name ∧ c.connected = c'.connected ∧ c.buffer.content = c'.buffer.content ∧
            names c.fd.get r.log = names c'.fd.get r'.log ∧
            relayedText c.fd.get r.log = relayedText c'.fd.get r'.log := by
  constructor
  · have allowed := (along_and step _ _ _ _).mpr ⟨r.fresh, r.stays⟩
    refine always_iff_along (I := Intact)
      (fun _ _ intact => reassembled_of_tracked intact.tracked) ?_ ?_
      (intact_of_empty r.empty) allowed
    · intro l log k intact ⟨fresh, stays⟩ behind
      exact intact_step intact fresh (fits_of_stays intact.good stays) behind
    · intro l log k intact _ after
      exact landsBehind_of_reassembled intact.good intact.tracked after
  · intro r' behind behind' c member c' member' same
    exact eq_of_determined ((intact_of_behind r behind).determined c member)
      ((intact_of_behind r' behind').determined c' member') same

/-! A stream cut inside its name line. -/

def cutRun : StayRun where
  server := listening
  kernels := joins 5 ++ delivers 5 0 (ascii ['A', 'm']) ++
    delivers 5 0 (ascii ['i', 'r', '\n', 'H', 'i', '\n'])
  empty := listening_clients
  fresh := by decide +kernel
  stays := by decide +kernel

theorem cut_stream_lost : ¬ ∀ r : StayRun, r.Always Reassembled := by
  intro all
  have kept := always_last (all cutRun)
  rw [List.nil_append] at kept
  have lost : ¬ Reassembled cutRun.final cutRun.log := by decide +kernel
  exact lost kept

def wholeRun : StayRun where
  server := listening
  kernels := joins 5 ++ delivers 5 0 (ascii ['A', 'm', 'i', 'r', '\n', 'H', 'i', '\n'])
  empty := listening_clients
  fresh := by decide +kernel
  stays := by decide +kernel

theorem whole_stream_kept : wholeRun.Always Reassembled :=
  (reassembled_iff_landsBehind wholeRun).1.mpr (by decide +kernel)

end TcpChat.ChatServer
