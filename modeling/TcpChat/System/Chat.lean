import TcpChat.Lib.Room
import TcpChat.System.Network
import TcpChat.System.Width

/-! The whole chat is a room. Its members are the connections, a relay is what a member says, and
every client prints what its member hears. -/
namespace TcpChat

def Link.stage : Link → Stage
  | .queued => .outside
  | .accepted _ => .inside
  | .shut => .gone

def rendered {ι : Type} (name : ι → List Byte) (heard : List (ι × List Byte)) : List Byte :=
  heard.flatMap fun said => ChatServer.message (name said.1) said.2

@[simp] theorem rendered_append {ι : Type} (name : ι → List Byte) (l l' : List (ι × List Byte)) :
    rendered name (l ++ l') = rendered name l ++ rendered name l' := List.flatMap_append

theorem complete_rendered {ι : Type} (name : ι → List Byte) {heard : List (ι × List Byte)}
    (lines : ∀ said ∈ heard, said.2.getLast? = some newline) :
    Framing.complete newline (rendered name heard) = rendered name heard := by
  induction heard with
  | nil => rfl
  | cons said heard ih =>
    have ends := ChatServer.message_getLast? (name said.1) (lines said List.mem_cons_self)
    have whole : Framing.residue newline (ChatServer.message (name said.1) said.2) = [] :=
      Framing.residue_eq_nil ends
    have split := Framing.complete_append_residue newline (ChatServer.message (name said.1) said.2)
    rw [whole, List.append_nil] at split
    have rest := ih fun other member => lines other (List.mem_cons_of_mem said member)
    calc Framing.complete newline (rendered name (said :: heard))
        = Framing.complete newline
            (ChatServer.message (name said.1) said.2 ++ rendered name heard) := rfl
      _ = ChatServer.message (name said.1) said.2 ++ rendered name heard := by
          rw [Framing.complete_append, whole, List.nil_append, split, rest]

theorem ChatClient.readFrom_runLog (s : ChatClient.Session) (fd : Fd) :
    readFrom fd s.runLog = [] := by
  obtain ⟨_, _, _, _, _, writes, only, _, events⟩ :=
    ChatClient.run_of_returned s.returned
  have log : s.runLog = _ := events
  rw [log]
  simp [Event.readFrom, readFrom_onlyWrites only, (ChatClient.unnoticed_closing fd _).received]

namespace ChatServer

theorem sent_relayed_outside {write : Fd → List WriteAnswer} {fd : Fd} {name text : List Byte}
    {fds : List Fd} {tail : List Event} {outcome : Outcome Exn Unit}
    (relayed : Relayed write fd name text fds tail outcome) {y : Fd} (outside : y ∉ fds) :
    sent y tail = [] := by
  cases relayed with
  | nothing => rfl
  | all writes _ inside => simp [Event.sentTo, sent_outside inside outside]
  | stopped writes _ _ inside => simp [Event.sentTo, sent_outside inside outside]

/-- What serving a client writes to a connection: the message, if there is one and the connection
is another. It may break off where a system call does not return. -/
theorem sent_of_serve {k : Kernel} {l l' : Loop} {more : List Event} {i : Nat} {c c' : ClientInfo}
    {bytes : List Byte} {tail : List Event} {control : Control} {outcome : Outcome Exn Unit}
    (serve : Serve k l l' more i c c' bytes tail control outcome) (good : l.server.Good) {y : Fd}
    (present : y ∈ l.server.descriptors) {whole : List Byte}
    (eq : whole = if y = c.fd.get ∨ relayText c (landed c.buffer bytes) = [] then []
      else message c'.name (relayText c (landed c.buffer bytes))) :
    sent y more <+: whole ∧ (Returns l'.control → sent y more = whole) := by
  have written : sent y more = sent y tail := by rw [serve.more, sent_serve]
  rw [written, eq]
  by_cases own : y = c.fd.get
  · have outside : y ∉ l.server.recipients i := fun member =>
      ((mem_recipients good serve.found y).mp member).2 own
    rw [sent_relayed_outside serve.relayed outside, if_pos (.inl own)]
    exact ⟨List.prefix_rfl, fun _ => rfl⟩
  · have inside : y ∈ l.server.recipients i := (mem_recipients good serve.found y).mpr ⟨present, own⟩
    rcases relayed_log serve.relayed with ⟨empty, rfl⟩ | ⟨text, _⟩
    · rw [if_pos (.inr empty)]
      exact ⟨List.prefix_rfl, fun _ => rfl⟩
    · rw [if_neg (by simp [own, text])]
      constructor
      · rcases sent_relayed serve.relayed y with none | ⟨_, part⟩
        · rw [none]
          exact List.nil_prefix
        · exact part
      · intro returns
        rw [serve.next] at returns
        rcases relayed_returns serve.relayed returns with ⟨empty, _⟩ | ⟨_, _, _, each⟩
        · exact absurd empty text
        · rw [each y, if_pos inside]

end ChatServer

namespace Network
open Machine

variable {ι : Type} [DecidableEq ι] (guest : ι → Guest)

/-- What the clients read from stdin and from the server, and what they printed. -/
def typed (log : List (Party ι × Event)) (i : ι) : List Byte :=
  readFrom stdinFileno ((guest i).log (part (some i) log))

def arrived (log : List (Party ι × Event)) (i : ι) : List Byte :=
  readFrom (guest i).fd ((guest i).log (part (some i) log))

def shown (log : List (Party ι × Event)) (i : ι) : List Byte :=
  printed ((guest i).log (part (some i) log))

def names (i : ι) : List Byte := (guest i).name

/-- The room that a state of the network shows. -/
structure Shows (n : Network ι) (log : List (Party ι × Event)) (r : Room ι (List Byte)) : Prop where
  stage : ∀ i, r.stage i = (n.wire i).link.stage
  said : ∀ i y, (n.wire i).link = .accepted y →
    (part i r.transcript).flatten = ChatServer.relayedText y (part none log)
  typed : ∀ i, (part i r.transcript).flatten <+: Framing.complete newline (typed guest log i)
  heard : ∀ i, arrived guest log i ++ (n.wire i).down <+: rendered (names guest) (r.heard i)
  whole : ChatServer.Returns n.server.control → ∀ i,
    arrived guest log i ++ (n.wire i).down = rendered (names guest) (r.heard i)
  lines : ∀ m ∈ r.transcript, m.2.getLast? = some newline
  relayed : ∀ m ∈ r.transcript, ∃ fd name, .relay fd name m.2 ∈ part none log

/-- A state of the network, and a room that it shows. -/
structure Depicts (n : Network ι) (log : List (Party ι × Event)) (r : Room ι (List Byte)) :
    Prop where
  sound : Sound guest n log
  window : ∀ i, r.Window i
  shows_ : Shows guest n log r

variable {guest}

theorem shows_start (server : ChatServer) : Shows guest (start guest server) [] {} := by
  have nothing (i : ι) : arrived guest [] i ++ ((start guest server).wire i).down = [] := by
    simp [arrived, Guest.log, start, ChatClient.readFrom_runLog]
  constructor
  · exact fun _ => rfl
  · exact fun i y accepted => by cases accepted
  · exact fun _ => List.nil_prefix
  · exact fun i => by rw [nothing]; exact List.nil_prefix
  · exact fun _ i => nothing i
  · exact fun m member => by cases member
  · exact fun m member => by cases member

theorem shows_client {n : Network ι} {log : List (Party ι × Event)} {r : Room ι (List Byte)}
    (h : Shows guest n log r) {i : ι} {k : ChatClient.Kernel} (talks : n.Talks guest i k) :
    Shows guest (n.step guest (.client i k)).1 (log ++ (n.step guest (.client i k)).2) r := by
  -- What the client reads moves from the way to what has arrived.
  have flow (j : ι) : arrived guest (log ++ (n.step guest (.client i k)).2) j ++
      ((n.step guest (.client i k)).1.wire j).down = arrived guest log j ++ (n.wire j).down := by
    by_cases same : j = i
    · subst same
      obtain ⟨rest, split⟩ := talks.offered
      have down : ((n.step guest (.client j k)).1.wire j).down =
          (n.wire j).down.drop
            (readFrom (guest j).fd (ChatClient.step (n.client j) k).2).length := by
        simp [step, Wire.ownActs]
      rw [arrived, part_own, Guest.log_append, readFrom_append, down, ← split, List.drop_left,
        List.append_assoc]
      rfl
    · rw [arrived, part_other guest n log i k (by simpa using same)]
      simp [step, same, arrived]
  constructor
  · intro j
    rw [link_client]
    exact h.stage j
  · intro j y
    rw [link_client, part_other guest n log i k (by simp)]
    exact h.said j y
  · intro j
    refine (h.typed j).trans (Framing.complete_mono ?_)
    by_cases same : j = i
    · subst same
      rw [typed, typed, part_own, Guest.log_append, readFrom_append]
      exact List.prefix_append _ _
    · rw [typed, typed, part_other guest n log i k (by simpa using same)]
  · intro j
    rw [flow]
    exact h.heard j
  · intro returns j
    rw [flow]
    exact h.whole returns j
  · exact h.lines
  · rw [part_other guest n log i k (by simp)]
    exact h.relayed

/-- A step of the server that says nothing: the room keeps what was said and heard. -/
theorem shows_quiet {n : Network ι} {log : List (Party ι × Event)} {r r' : Room ι (List Byte)}
    (h : Shows guest n log r) (sound : Sound guest n log) (window : ∀ i, r.Window i) {next : ι}
    {k : ChatServer.Kernel} (serves : n.Serves next k)
    (mute : ∀ e ∈ (ChatServer.step n.server k).2, ChatServer.Mute e)
    (transcript : r'.transcript = r.transcript) (heard : r'.heard = r.heard)
    (stage : ∀ i, r'.stage i =
      ((n.wire i).acts (i = next) (ChatServer.step n.server k).2).link.stage) :
    Shows guest (n.step guest (.server next k)).1 (log ++ (n.step guest (.server next k)).2) r' := by
  have admits := admits_step k sound.server.good
  have flow (i : ι) : arrived guest (log ++ (n.step guest (.server next k)).2) i ++
      ((n.step guest (.server next k)).1.wire i).down = arrived guest log i ++ (n.wire i).down := by
    rw [arrived, part_unserved]
    exact congrArg _ (Wire.acts_mute mute (n.wire i))
  constructor
  · exact stage
  · intro i y accepted
    rw [transcript, part_served]
    obtain ⟨old | ⟨_, waits, accept⟩, kept⟩ := (Wire.acts_link admits _ _ _).mp accepted
    · rw [ChatServer.relayedText, ChatServer.relays_mute _ mute (unaccepted sound serves old)]
      exact h.said i y old
    · have outside : r.stage i = .outside := by rw [h.stage, waits]; rfl
      rw [((window i).outside outside).2, Wire.single_accept admits accept kept,
        ChatServer.relayedText, (ChatServer.history_accept y _).2.2]
      rfl
  · intro i
    rw [transcript, typed, part_unserved]
    exact h.typed i
  · intro i
    rw [flow, heard]
    exact h.heard i
  · intro returns i
    rw [flow, heard]
    exact h.whole (returns_before returns) i
  · rw [transcript]
    exact h.lines
  · intro m member
    obtain ⟨fd, name, relay⟩ := h.relayed m (transcript ▸ member)
    exact ⟨fd, name, by rw [part_served]; exact List.mem_append_left _ relay⟩

/-- The members whose connections the step closes leave. -/
theorem shows_closing {n : Network ι} {log : List (Party ι × Event)} {r : Room ι (List Byte)}
    (h : Shows guest n log r) (sound : Sound guest n log) (window : ∀ i, r.Window i) {next : ι}
    {k : ChatServer.Kernel} (serves : n.Serves next k)
    (mute : ∀ e ∈ (ChatServer.step n.server k).2, ChatServer.Mute e)
    (none : ∀ y, .accept y ∉ (ChatServer.step n.server k).2) :
    ∃ r', Room.Steps r r' ∧ Shows guest (n.step guest (.server next k)).1
      (log ++ (n.step guest (.server next k)).2) r' := by
  let closed : Set ι :=
    { i | ∃ y, (n.wire i).link = .accepted y ∧ .close y ∈ (ChatServer.step n.server k).2 }
  have inside : ∀ i ∈ closed, r.stage i = .inside := by
    rintro i ⟨y, accepted, _⟩
    rw [h.stage, accepted]
    rfl
  refine ⟨r.leave closed, .single (.leave r closed inside),
    shows_quiet h sound window serves mute rfl rfl fun i => ?_⟩
  cases here : (n.wire i).link with
  | queued =>
    have stays : i ∉ closed := fun ⟨y, accepted, _⟩ => by rw [here] at accepted; cases accepted
    rw [Wire.acts_queued here (.inr none), here]
    exact (if_neg stays).trans ((h.stage i).trans (by rw [here]))
  | shut =>
    have stays : i ∉ closed := fun ⟨y, accepted, _⟩ => by rw [here] at accepted; cases accepted
    rw [Wire.acts_shut here, here]
    exact (if_neg stays).trans ((h.stage i).trans (by rw [here]))
  | accepted y =>
    by_cases closes : .close y ∈ (ChatServer.step n.server k).2
    · rw [Wire.acts_closed here _ closes]
      exact if_pos ⟨y, here, closes⟩
    · have stays : i ∉ closed := fun ⟨z, accepted, closing⟩ => by
        rw [here] at accepted
        cases accepted
        exact closes closing
      rw [Wire.acts_accepted here _ closes]
      exact (if_neg stays).trans ((h.stage i).trans (by rw [here]))

/-- The member whose connection the step accepts enters, and leaves at once if it is refused. -/
theorem shows_accept {n : Network ι} {log : List (Party ι × Event)} {r : Room ι (List Byte)}
    (h : Shows guest n log r) (sound : Sound guest n log) (window : ∀ i, r.Window i) {next : ι}
    {k : ChatServer.Kernel} (serves : n.Serves next k)
    (mute : ∀ e ∈ (ChatServer.step n.server k).2, ChatServer.Mute e) {fd : Fd}
    (more : (ChatServer.step n.server k).2 = [.accept fd] ∨
      (ChatServer.step n.server k).2 = [.accept fd, .close fd]) :
    ∃ r', Room.Steps r r' ∧ Shows guest (n.step guest (.server next k)).1
      (log ++ (n.step guest (.server next k)).2) r' := by
  have accept : .accept fd ∈ (ChatServer.step n.server k).2 := by
    rcases more with eq | eq <;> simp [eq]
  have waits : (n.wire next).link = .queued := serves.queued _ accept ⟨fd, rfl⟩
  have outside : r.stage next = .outside := by rw [h.stage, waits]; rfl
  have entered : Room.Step r (r.enter next) := .enter r next outside
  have other (i : ι) (differ : i ≠ next) :
      (n.wire i).acts (i = next) (ChatServer.step n.server k).2 = n.wire i := by
    cases here : (n.wire i).link with
    | queued => exact Wire.acts_queued here (.inl (by simpa using differ))
    | shut => exact Wire.acts_shut here _ _
    | accepted y =>
      have elsewhere : y ≠ fd := fun same => unaccepted sound serves here (same ▸ accept)
      have kept : .close y ∉ (ChatServer.step n.server k).2 := by
        rcases more with eq | eq <;> simp [eq, elsewhere]
      rw [Wire.acts_accepted here _ kept]
      rcases more with eq | eq <;>
        simp [eq, Event.readFrom, Event.sentTo, ← here]
  rcases more with eq | eq
  · refine ⟨r.enter next, .single entered,
      shows_quiet h sound window serves mute rfl rfl fun i => ?_⟩
    by_cases same : i = next
    · subst same
      simp [Room.enter, eq, Wire.acts, Wire.act, waits, Link.stage]
    · rw [other i same, ← h.stage]
      exact Function.update_of_ne same _ _
  · have inside : ∀ i ∈ ({next} : Set ι), (r.enter next).stage i = .inside := by
      rintro i rfl
      simp [Room.enter]
    refine ⟨(r.enter next).leave {next}, .tail (.single entered) (.leave _ _ inside),
      shows_quiet h sound window serves mute rfl rfl fun i => ?_⟩
    by_cases same : i = next
    · subst same
      simp [Room.leave, eq, Wire.acts, Wire.act, waits, Link.stage]
    · rw [other i same, ← h.stage]
      exact (if_neg same).trans (Function.update_of_ne same _ _)

/-- The session that the server has for a client is one of that client's own lines. -/
theorem relayed_of_guest {g : Guest} {c : ClientInfo} {l : ChatClient} {own slog : List Event}
    {up : List Byte} (determined : ChatServer.Determined c slog)
    (forwards : ChatClient.Forwards g.fd g.name l (g.log own))
    (carried : ChatServer.received c.fd.get slog ++ up = sent g.fd (g.log own)) :
    ChatServer.relayedText c.fd.get slog <+:
        Framing.complete newline (readFrom stdinFileno (g.log own)) ∧
      (ChatServer.relayedText c.fd.get slog ≠ [] → c.name = g.name) ∧
      (up = [] → ChatServer.relayedText c.fd.get slog =
        Framing.complete newline (readFrom stdinFileno (g.log own))) := by
  have stream : ChatServer.received c.fd.get slog ++ up =
      g.name ++ newline :: Framing.complete newline (readFrom stdinFileno (g.log own)) := by
    rw [carried, forwards.sent, List.append_assoc]
    rfl
  by_cases through : newline ∈ ChatServer.received c.fd.get slog
  · obtain ⟨come, part, eq⟩ := Framing.header_split g.plain ⟨up, stream⟩ through
    have text : ChatServer.relayedText c.fd.get slog = Framing.complete newline come := by
      rw [determined.text, eq, Framing.body_header g.plain]
    refine ⟨?_, fun _ => ?_, fun none => ?_⟩
    · rw [text, ← Framing.complete_complete newline (readFrom stdinFileno (g.log own))]
      exact Framing.complete_mono part
    · rw [determined.name, if_pos through, eq, Framing.first_header g.plain]
      exact List.dropLast_concat
    · rw [none, List.append_nil, eq] at stream
      have all := List.cons.inj (List.append_cancel_left stream)
      rw [text, all.2, Framing.complete_complete]
  · have nothing : ChatServer.relayedText c.fd.get slog = [] := by
      rw [determined.text, Framing.complete_of_not_mem through, List.drop_nil]
    refine ⟨by rw [nothing]; exact List.nil_prefix, fun some => absurd nothing some, fun none => ?_⟩
    rw [none, List.append_nil] at stream
    exact absurd (stream ▸ List.mem_append_right _ List.mem_cons_self) through

def speech (i : ι) (text : List Byte) : List (ι × List Byte) :=
  if text = [] then [] else [(i, text)]

theorem steps_speech (r : Room ι (List Byte)) {i : ι} (inside : r.stage i = .inside)
    (text : List Byte) : ∃ r', Room.Steps r r' ∧ r'.stage = r.stage ∧
      r'.transcript = r.transcript ++ speech i text ∧ ∀ j, r'.heard j =
        if r.stage j = .inside then r.heard j ++ Room.others j (speech i text) else r.heard j := by
  by_cases empty : text = []
  · refine ⟨r, .refl, rfl, by simp [speech, empty], fun j => ?_⟩
    simp [speech, empty, Room.others]
  · refine ⟨r.speak i text, .single (.speak r i text inside), rfl, ?_, fun j => ?_⟩
    · simp [Room.speak, speech, empty]
    · by_cases own : j = i
      · simp [Room.speak, speech, empty, Room.others, own]
      · simp [Room.speak, speech, empty, Room.others, own, Ne.symm own]

theorem part_speech (i j : ι) (text : List Byte) :
    (part j (speech i text)).flatten = if i = j then text else [] := by
  by_cases empty : text = [] <;> by_cases same : i = j <;> simp [speech, empty, same, part_single]

theorem rendered_speech (i j : ι) (text : List Byte) :
    rendered (names guest) (Room.others j (speech i text)) =
      if j = i ∨ text = [] then [] else ChatServer.message (guest i).name text := by
  by_cases empty : text = []
  · simp [speech, empty, Room.others, rendered]
  · by_cases same : j = i
    · simp [speech, empty, Room.others, rendered, same]
    · simp [speech, empty, Room.others, rendered, same, Ne.symm same, names]

/-- A client is served: its member says what is relayed, if there is anything. -/
theorem shows_serve {n : Network ι} {log : List (Party ι × Event)} {r : Room ι (List Byte)}
    (h : Shows guest n log r) (sound : Sound guest n log) {next : ι} {k : ChatServer.Kernel}
    (serves : n.Serves next k) {index : Nat} {c c' : ClientInfo} {bytes : List Byte}
    {tail : List Event} {control : ChatServer.Control} {outcome : Outcome Exn Unit}
    (serve : ChatServer.Serve k n.server (ChatServer.step n.server k).1
      (ChatServer.step n.server k).2 index c c' bytes tail control outcome) :
    ∃ r', Room.Steps r r' ∧ Shows guest (n.step guest (.server next k)).1
      (log ++ (n.step guest (.server next k)).2) r' := by
  have good := sound.server.good
  have returns := serve.returns_before
  have linkless : ∀ e ∈ (ChatServer.step n.server k).2, ∀ y, e ≠ .accept y ∧ e ≠ .close y := by
    rw [serve.more]
    exact ChatServer.linkless_served serve.relayed _ bytes
  have steady (y : Fd) : .accept y ∉ (ChatServer.step n.server k).2 ∧
      .close y ∉ (ChatServer.step n.server k).2 :=
    ⟨fun member => (linkless _ member y).1 rfl, fun member => (linkless _ member y).2 rfl⟩
  obtain ⟨i, mine⟩ := (sound.here returns c.fd.get).mp
    (ChatServer.mem_descriptors (ChatServer.mem_clients serve.found))
  have link (j : ι) : ((n.wire j).acts (j = next) (ChatServer.step n.server k).2).link =
      (n.wire j).link := by
    cases here : (n.wire j).link with
    | queued => rw [Wire.acts_queued here (.inr fun y => (steady y).1), here]
    | shut => rw [Wire.acts_shut here, here]
    | accepted y => rw [Wire.acts_accepted here _ (steady y).2]
  -- The served client's session, after the step.
  have after := sound_server sound serves
  have determined : ChatServer.Determined c' (part none (log ++ (n.step guest (.server next k)).2)) :=
    after.server.determined c' serve.member
  obtain ⟨_, _, _, forwards⟩ := after.client i
  have carried := (after.carried i).accepted c'.fd.get
    ((link i).trans (by rw [mine, serve.served.fd]))
  obtain ⟨own, named, _⟩ := relayed_of_guest determined forwards carried
  rw [part_unserved] at own
  have texts : ChatServer.relayedText c'.fd.get (part none (log ++ (n.step guest (.server next k)).2)) =
      ChatServer.relayedText c.fd.get (part none log) ++
        ChatServer.relayText c (ChatServer.landed c.buffer bytes) := by
    rw [part_served, serve.more, serve.served.fd]
    exact ChatServer.relayedText_served
      (ChatServer.history_serve serve.relayed _ bytes (part none log)).2.2
  have name : ChatServer.relayText c (ChatServer.landed c.buffer bytes) ≠ [] →
      c'.name = (guest i).name := fun some => named (by rw [texts]; simp [some])
  obtain ⟨r', steps, stage, transcript, heard⟩ := steps_speech r
    (show r.stage i = .inside by rw [h.stage, mine]; rfl)
    (ChatServer.relayText c (ChatServer.landed c.buffer bytes))
  refine ⟨r', steps, ?_⟩
  have flow (j : ι) : ∃ extra said,
      ((n.step guest (.server next k)).1.wire j).down = (n.wire j).down ++ extra ∧
      rendered (names guest) (r'.heard j) = rendered (names guest) (r.heard j) ++ said ∧
      extra <+: said ∧ (ChatServer.Returns (ChatServer.step n.server k).1.control → extra = said) := by
    cases here : (n.wire j).link with
    | queued =>
      have away : r.stage j ≠ .inside := by rw [h.stage, here]; decide
      refine ⟨[], [], ?_, by rw [heard, if_neg away, List.append_nil], List.prefix_rfl, fun _ => rfl⟩
      rw [List.append_nil]
      exact congrArg Wire.down (Wire.acts_queued here (.inr fun y => (steady y).1))
    | shut =>
      have away : r.stage j ≠ .inside := by rw [h.stage, here]; decide
      refine ⟨[], [], ?_, by rw [heard, if_neg away, List.append_nil], List.prefix_rfl, fun _ => rfl⟩
      rw [List.append_nil]
      exact congrArg Wire.down (Wire.acts_shut here _ _)
    | accepted y =>
      have present : r.stage j = .inside := by rw [h.stage, here]; rfl
      refine ⟨sent y (ChatServer.step n.server k).2, _, ?_,
        by rw [heard, if_pos present, rendered_append], ?_⟩
      · exact congrArg Wire.down (Wire.acts_accepted here _ (steady y).2)
      · refine ChatServer.sent_of_serve serve good ((sound.here returns y).mpr ⟨j, here⟩) ?_
        have same : j = i ↔ y = c.fd.get := by
          constructor
          · rintro rfl
            rw [mine] at here
            exact (Link.accepted.inj here).symm
          · rintro rfl
            exact sound.single j i _ here mine
        simp only [rendered_speech, same]
        by_cases nothing : y = c.fd.get ∨
            ChatServer.relayText c (ChatServer.landed c.buffer bytes) = []
        · rw [if_pos nothing, if_pos nothing]
        · rw [if_neg nothing, if_neg nothing, name fun empty => nothing (.inr empty)]
  have arrive (j : ι) : arrived guest (log ++ (n.step guest (.server next k)).2) j =
      arrived guest log j := by rw [arrived, part_unserved, arrived]
  constructor
  · intro j
    rw [stage, h.stage]
    exact congrArg Link.stage (link j).symm
  · intro j y accepted
    have old : (n.wire j).link = .accepted y := (link j).symm.trans accepted
    rw [transcript, part_append, List.flatten_append, h.said j y old, part_speech]
    by_cases same : i = j
    · subst same
      have here : y = c'.fd.get := by
        rw [mine] at old
        rw [serve.served.fd, Link.accepted.inj old]
      rw [if_pos rfl, here, texts, serve.served.fd]
    · have other : c.fd.get ≠ y := fun eq => same (sound.single i j y (eq ▸ mine) old)
      have kept := ChatServer.sameHistory_serve serve.relayed
        (ChatServer.nameLine c (ChatServer.landed c.buffer bytes)) bytes (part none log) other
      rw [if_neg same, List.append_nil, part_served, serve.more, ChatServer.relayedText,
        ChatServer.relayedText, kept.relays]
  · intro j
    rw [typed, part_unserved, transcript, part_append, List.flatten_append, part_speech]
    by_cases same : i = j
    · subst same
      rw [if_pos rfl, h.said i _ mine, ← texts]
      exact own
    · rw [if_neg same, List.append_nil]
      exact h.typed j
  · intro j
    obtain ⟨extra, said, down, grows, part, _⟩ := flow j
    rw [arrive, down, grows, ← h.whole returns j, List.append_assoc]
    exact (List.prefix_append_right_inj _).mpr ((List.prefix_append_right_inj _).mpr part)
  · intro now j
    obtain ⟨extra, said, down, grows, _, all⟩ := flow j
    rw [arrive, down, grows, ← h.whole returns j, all now, List.append_assoc]
  · intro m member
    rw [transcript] at member
    rcases List.mem_append.mp member with old | new
    · exact h.lines m old
    · unfold speech at new
      split at new
      · cases new
      · next some =>
        rw [List.mem_singleton.mp new]
        exact ChatServer.relayText_getLast? some
  · intro m member
    rw [transcript] at member
    simp only [part_served]
    rcases List.mem_append.mp member with old | new
    · obtain ⟨fd, name, relay⟩ := h.relayed m old
      exact ⟨fd, name, List.mem_append_left _ relay⟩
    · unfold speech at new
      split at new
      · cases new
      · next some =>
        rw [List.mem_singleton.mp new]
        refine ⟨c.fd.get, c'.name, List.mem_append_right _ ?_⟩
        rw [serve.more]
        rcases ChatServer.relayed_log serve.relayed with ⟨empty, _⟩ | ⟨_, writes, _, eq⟩
        · exact absurd empty some
        · simp [eq]

/-- A step of the network is no step of the room, or some. -/
theorem shows_step {n : Network ι} {log : List (Party ι × Event)} {r : Room ι (List Byte)}
    (h : Shows guest n log r) (sound : Sound guest n log) (window : ∀ i, r.Window i) {act : Act ι}
    (allowed : n.Allowed guest act) : ∃ r', Room.Steps r r' ∧
      Shows guest (n.step guest act).1 (log ++ (n.step guest act).2) r' := by
  cases act with
  | client i k => exact ⟨r, .refl, shows_client h allowed⟩
  | server next k =>
    have effect := ChatServer.step_effect k n.server sound.server.good
    rcases ChatServer.mute_or_serve effect with mute | ⟨_, _, _, _, _, _, _, serve⟩
    · rcases admits_step k sound.server.good with none | ⟨fd, more⟩
      · exact shows_closing h sound window allowed mute none
      · exact shows_accept h sound window allowed mute more
    · exact shows_serve h sound allowed serve

theorem depicts_start {server : ChatServer} (empty : server.clients = []) :
    Depicts guest (start guest server) [] {} :=
  ⟨sound_start empty, Room.window_empty, shows_start server⟩

/-- From a state that shows a room, every run leads to one that shows a later room. -/
theorem depicts_run {n : Network ι} {log : List (Party ι × Event)} {r : Room ι (List Byte)}
    (h : Depicts guest n log r) {acts : List (Act ι)}
    (allowed : Along (step guest) (Allowed guest) n acts) :
    ∃ r', Room.Steps r r' ∧ Depicts guest (Machine.run (step guest) n acts).1
      (log ++ (Machine.run (step guest) n acts).2) r' := by
  refine run_invariant (I := fun n' log' => ∃ r', Room.Steps r r' ∧ Depicts guest n' log' r') ?_
    ⟨r, .refl, h⟩ allowed
  rintro n' log' act ⟨r', before, sound, window, depicted⟩ now
  obtain ⟨r'', later, depicted'⟩ := shows_step depicted sound window now
  exact ⟨r'', before.trans later, sound_step sound now, fun i => Room.window_steps later (window i),
    depicted'⟩

/-- Where nothing of a client is on its way, the room has heard all lines typed there. -/
theorem said_all {n : Network ι} {log : List (Party ι × Event)} {r : Room ι (List Byte)}
    (h : Depicts guest n log r) (returns : ChatServer.Returns n.server.control) {i : ι}
    (inside : (n.wire i).link.stage = .inside) (arrived : (n.wire i).up = []) :
    (part i r.transcript).flatten = Framing.complete newline (typed guest log i) := by
  obtain ⟨sound, _, shows_⟩ := h
  cases here : (n.wire i).link with
  | queued | shut => rw [here] at inside; cases inside
  | accepted y =>
    obtain ⟨c, member, rfl⟩ := List.mem_map.mp ((sound.here returns y).mpr ⟨i, here⟩)
    obtain ⟨_, _, _, forwards⟩ := sound.client i
    rw [shows_.said i _ here]
    exact (relayed_of_guest (sound.server.determined c member) forwards
      ((sound.carried i).accepted _ here)).2.2 arrived

end Network

/-- A run of the network from a server without clients. -/
structure Gathering (ι : Type) [DecidableEq ι] where
  guest : ι → Guest
  server : ChatServer
  acts : List (Network.Act ι)
  empty : server.clients = []
  allowed : Machine.Along (Network.step guest) (Network.Allowed guest)
    (Network.start guest server) acts

namespace Gathering
open Machine Network

variable {ι : Type} [DecidableEq ι]

def final (g : Gathering ι) : Network ι :=
  (Machine.run (step g.guest) (start g.guest g.server) g.acts).1

def log (g : Gathering ι) : List (Party ι × Event) :=
  (Machine.run (step g.guest) (start g.guest g.server) g.acts).2

/-- What a client's loop read from stdin, and what it printed. -/
def typed (g : Gathering ι) (i : ι) : List Byte := Network.typed g.guest g.log i
def printed (g : Gathering ι) (i : ι) : List Byte := shown g.guest g.log i

theorem depicts (g : Gathering ι) : ∃ r, Room.Steps {} r ∧ Depicts g.guest g.final g.log r := by
  have run := depicts_run (depicts_start g.empty) g.allowed
  rw [List.nil_append] at run
  exact run

theorem printed_eq (g : Gathering ι) (sound : Sound g.guest g.final g.log) (i : ι) :
    g.printed i = Framing.complete newline (arrived g.guest g.log i) := by
  obtain ⟨_, _, _, forwards⟩ := sound.client i
  exact forwards.printed

theorem printed_initial (g : Gathering ι) {r : Room ι (List Byte)}
    (h : Depicts g.guest g.final g.log r) (j : ι) :
    g.printed j <+: rendered (Network.names g.guest) (r.heard j) := by
  rw [g.printed_eq h.sound]
  exact (Framing.complete_initial newline _).trans
    ((List.prefix_append _ _).trans (h.shows_.heard j))

/-- Once nothing is on its way to a client, it has printed what it heard. -/
theorem printed_all (g : Gathering ι) {r : Room ι (List Byte)}
    (h : Depicts g.guest g.final g.log r) (returns : ChatServer.Returns g.final.server.control)
    {j : ι} (down : (g.final.wire j).down = []) :
    g.printed j = rendered (Network.names g.guest) (r.heard j) := by
  have whole := h.shows_.whole returns j
  rw [down, List.append_nil] at whole
  rw [g.printed_eq h.sound, whole]
  exact complete_rendered _ fun said member =>
    h.shows_.lines said (Room.heard_subset (h.window j) member)

/-- All clients print out of one transcript: whole lines, each client's in the order in which its
loop read them from stdin, and each under the name of that client. -/
theorem one_transcript (g : Gathering ι) : ∃ transcript : List (ι × List Byte),
    (∀ said ∈ transcript, said.2.getLast? = some newline) ∧
    (∀ i, (part i transcript).flatten <+: Framing.complete newline (g.typed i)) ∧
    ∀ j, ∃ before during after, transcript = before ++ (during ++ after) ∧
      g.printed j <+: rendered (Network.names g.guest) (Room.others j during) := by
  obtain ⟨r, _, depicted⟩ := g.depicts
  refine ⟨r.transcript, depicted.shows_.lines, depicted.shows_.typed, fun j => ?_⟩
  obtain ⟨before, during, after, split, heard, _⟩ := (depicted.window j).stretch
  refine ⟨before, during, after, split, ?_⟩
  rw [← heard]
  exact g.printed_initial depicted j

def after (g : Gathering ι) (first : List (Act ι)) : Network ι :=
  (Machine.run (step g.guest) (start g.guest g.server) first).1

/-- Once nothing is on its way, a client has printed, besides what others said, all complete lines
that each client which was accepted after it has read from stdin. -/
theorem all_delivered (g : Gathering ι) {first : List (Act ι)} (initial : first <+: g.acts) {j : ι}
    (listens : ((g.after first).wire j).link.stage = .inside)
    (still : (g.final.wire j).link.stage = .inside) (down : (g.final.wire j).down = [])
    (returns : ChatServer.Returns g.final.server.control) :
    ∃ heard, g.printed j = rendered (Network.names g.guest) heard ∧
      ∀ i, ((g.after first).wire i).link = .queued → (g.final.wire i).link.stage = .inside →
        (g.final.wire i).up = [] →
          (part i heard).flatten = Framing.complete newline (g.typed i) := by
  obtain ⟨rest, split⟩ := initial
  have allowed := g.allowed
  rw [← split, along_append] at allowed
  obtain ⟨r₀, _, depicted₀⟩ := depicts_run (depicts_start g.empty) allowed.1
  obtain ⟨r, steps, depicted⟩ := depicts_run depicted₀ allowed.2
  have final : Depicts g.guest g.final g.log r := by
    rw [Gathering.final, log, ← split, run_append]
    exact depicted
  have inside₀ : r₀.stage j = .inside := (depicted₀.shows_.stage j).trans listens
  have inside : r.stage j = .inside := (final.shows_.stage j).trans still
  refine ⟨r.heard j, g.printed_all final returns down, fun i waits speaks up => ?_⟩
  have outside : r₀.stage i = .outside := by rw [depicted₀.shows_.stage]; exact congrArg _ waits
  rw [Room.part_heard steps depicted₀.window inside₀ inside outside]
  exact said_all final returns speaks up

end Gathering

/-! Two guests: A is accepted at 5, then B at 6, and B says hi. -/

def guestAnswers : ChatClient.RunAnswers :=
  { socket := .ok 3, signalfd := .ok 4, write := [.accepted bufferSize] }

theorem unused_guestAnswers : ChatClient.Unused guestAnswers := by decide

def guestCalled (name : List Byte) (plain : newline ∉ name)
    (returned : (ChatClient.run guestAnswers { clientName := name }).outcome = .returned ()) :
    Guest where
  client := { clientName := name }
  answers := guestAnswers
  constructed := ⟨rfl, rfl, rfl, rfl, rfl⟩
  returned := returned
  unused := unused_guestAnswers
  plain := plain

def guestA : Guest := guestCalled (ascii ['A']) (by decide) (by decide +kernel)
def guestB : Guest := guestCalled (ascii ['B']) (by decide) (by decide +kernel)

namespace Gathering
open Machine Network

def served (ks : List ChatServer.Kernel) : List (Act Bool) := ks.map (.server false)

def enters : List (Act Bool) := (ChatServer.joins 5).map (.server true)

def greeting : Gathering Bool where
  guest i := if i then guestA else guestB
  server := ChatServer.listening
  acts := enters ++
    (served (ChatServer.joins 6 ++ ChatServer.delivers 5 0 (ascii ['A', '\n']) ++
        ChatServer.delivers 6 1 (ascii ['B', '\n'])) ++
      .client false (ChatClient.types (ascii ['h', 'i', '\n'])) ::
        served (ChatServer.delivers 6 1 (ascii ['h', 'i', '\n'])) ++
      [.client true (ChatClient.hears 3 (ChatServer.message (ascii ['B']) (ascii ['h', 'i', '\n'])))])
  empty := ChatServer.listening_clients
  allowed := by decide +kernel

theorem greeting_transcribed :
    greeting.printed true = ChatServer.message (ascii ['B']) (ascii ['h', 'i', '\n']) ∧
    ∃ transcript : List (Bool × List Byte),
      (∀ said ∈ transcript, said.2.getLast? = some newline) ∧
      (∀ i, (part i transcript).flatten <+: Framing.complete newline (greeting.typed i)) ∧
      ∀ j, ∃ before during after, transcript = before ++ (during ++ after) ∧
        greeting.printed j <+: rendered (Network.names greeting.guest) (Room.others j during) :=
  ⟨by decide +kernel, one_transcript greeting⟩

theorem greeting_delivered :
    greeting.printed true = ChatServer.message (ascii ['B']) (ascii ['h', 'i', '\n']) ∧
    ∃ heard, greeting.printed true = rendered (Network.names greeting.guest) heard ∧
      ∀ i, ((greeting.after enters).wire i).link = .queued →
        (greeting.final.wire i).link.stage = .inside → (greeting.final.wire i).up = [] →
          (part i heard).flatten = Framing.complete newline (greeting.typed i) :=
  ⟨by decide +kernel, all_delivered greeting (List.prefix_append enters _) (by decide +kernel)
    (by decide +kernel) (by decide +kernel) (by decide +kernel)⟩

end Gathering
end TcpChat
