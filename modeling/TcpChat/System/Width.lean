import TcpChat.Client.Progress
import TcpChat.Server.Agreement
import TcpChat.Server.Names

/-! The server and its clients: whether a relayed line fits the buffer it is read into. The
prefix is the server's own, and no limit leaves room for it. -/
namespace TcpChat

namespace ChatServer
open Machine

/-- The bytes written to a connection since it was accepted. -/
def sentSince (y : Fd) (log : List Event) : List Byte := sent y (history y log)

theorem sentSince_append {y : Fd} (log : List Event) {more : List Event}
    (none : ∀ e ∈ more, e.accepts y = false) :
    sentSince y (log ++ more) = sentSince y log ++ sent y more := by
  unfold sentSince history
  rw [sinceLast_append_of_none log none, sent_append]

theorem sentSince_silent {y : Fd} (log : List Event) {more : List Event} (silent : sent y more = []) :
    sentSince y (log ++ more) = sentSince y log ∨ sentSince y (log ++ more) = [] := by
  induction more generalizing log with
  | nil => exact .inl (by rw [List.append_nil])
  | cons e more ih =>
    obtain ⟨here, later⟩ := List.append_eq_nil_iff.mp silent
    have rest := ih (log ++ [e]) later
    rw [List.append_assoc, List.singleton_append] at rest
    cases kind : e.accepts y with
    | true =>
      have afresh : sentSince y (log ++ [e]) = [] := by
        unfold sentSince history
        rw [sinceLast_append_hit log kind]
        rfl
      rw [afresh] at rest
      exact .inr (rest.elim id id)
    | false =>
      have same : sentSince y (log ++ [e]) = sentSince y log := by
        rw [sentSince_append log (by simpa using kind), sent_cons, here]
        simp
      rwa [same] at rest

/-! One broadcast. -/

theorem fits_message_iff {name text : List Byte} (plain : newline ∉ name)
    (ends : text.getLast? = some newline) (short : text.length ≤ bufferSize) :
    Framing.Fits newline bufferSize (message name text) ↔
      name.length + 4 + (Framing.first newline text).length ≤ bufferSize := by
  have absent : newline ∉ ascii ['['] ++ name ++ ascii [']', ':', ' '] := by
    simp only [List.mem_append, plain, or_false]
    decide
  have len : (ascii ['['] ++ name ++ ascii [']', ':', ' ']).length = name.length + 4 := by
    simp [ascii]
  rw [message, Framing.fits_prefixed_iff absent ends short, len]

theorem length_relayText_le {c : ClientInfo} (valid : c.buffer.Valid) {answer : ReadAnswer}
    {bytes : List Byte} (reads : answer.read c.buffer.freeSpace.toNat = .ok bytes) :
    (relayText c (landed c.buffer bytes)).length ≤ bufferSize := by
  obtain ⟨b, _, _, live⟩ := Buffer.receive_front valid (ReadAnswer.read_length reads)
  have bound := Buffer.length_content_le b
  have live : b.content = landed c.buffer bytes := live
  rw [live] at bound
  have part := (Framing.complete_initial newline (landed c.buffer bytes)).length_le
  rw [relayText, List.length_drop]
  omega

theorem relayed_extends {write : Fd → List WriteAnswer} {fd : Fd} {name text : List Byte}
    {fds : List Fd} {tail : List Event} {outcome : Outcome Exn Unit}
    (relayed : Relayed write fd name text fds tail outcome) (y : Fd) :
    ∃ m, (m = [] ∨ fds ≠ [] ∧ text ≠ [] ∧ m = message name text) ∧ sent y tail <+: m ∧
      (outcome = .returned () → sent y tail = m) := by
  cases relayed with
  | nothing => exact ⟨[], .inl rfl, by simp, fun _ => rfl⟩
  | all writes nonempty inside carried each =>
    by_cases member : y ∈ fds
    · have whole : sent y (.relay fd name text :: writes) = message name text := by
        simp [Event.sentTo, each y member]
      exact ⟨_, .inr ⟨List.ne_nil_of_mem member, nonempty, rfl⟩, by rw [whole], fun _ => whole⟩
    · have none : sent y (.relay fd name text :: writes) = [] := by
        simp [Event.sentTo, sent_outside inside member]
      exact ⟨[], .inl rfl, by rw [none], fun _ => none⟩
  | stopped writes _ nonempty inside parts short ends =>
    obtain ⟨z, member, _⟩ := short
    refine ⟨_, .inr ⟨List.ne_nil_of_mem member, nonempty, rfl⟩, ?_, ?_⟩
    · simpa [Event.sentTo] using parts y
    · rintro rfl
      rcases ends with blocked | ⟨errno, thrown⟩
      · cases blocked
      · cases thrown

/-- The first line of what is relayed in this step, if anybody is to get it, has room for the
prefix. -/
def Narrow (l : Loop) (k : Kernel) : Prop :=
  ∀ t ∈ turn l, ∀ r ∈ reading l k, ∀ bytes ∈ r.2.toOption,
    l.server.recipients t.1 ≠ [] → bytes ≠ [] → relayText r.1 (landed r.1.buffer bytes) ≠ [] →
      (nameWith r.1 (landed r.1.buffer bytes)).length + 4 +
        (Framing.first newline (relayText r.1 (landed r.1.buffer bytes))).length ≤ bufferSize

theorem fits_of_serve {k : Kernel} {l l' : Loop} {more : List Event} {i : Nat}
    {c c' : ClientInfo} {bytes : List Byte} {tail : List Event} {control : Control}
    {outcome : Outcome Exn Unit} (serve : Serve k l l' more i c c' bytes tail control outcome)
    (good : l.server.Good) (plain : ∀ c ∈ l.server.clients, newline ∉ c.name)
    (text : relayText c (landed c.buffer bytes) ≠ []) :
    Framing.Fits newline bufferSize (message c'.name (relayText c (landed c.buffer bytes))) ↔
      (nameWith c (landed c.buffer bytes)).length + 4 +
        (Framing.first newline (relayText c (landed c.buffer bytes))).length ≤ bufferSize := by
  have member := mem_clients serve.found
  have name : c'.name = nameWith c (landed c.buffer bytes) := serve.served.name
  obtain ⟨_, _, _, _, _, answer⟩ := turn_of_reading serve.reads
  rw [name]
  exact fits_message_iff (not_mem_nameWith (plain c member) _) (relayText_getLast? text)
    (length_relayText_le (good.valid c member) answer)

/-! The streams to the recipients. -/

/-- All streams consist of lines that fit, up to the one that a system call broke off. -/
structure Streams (l : Loop) (log : List Event) : Prop where
  good : l.server.Good
  plain : ∀ c ∈ l.server.clients, newline ∉ c.name
  fits : ∀ y, ∃ ws, Framing.Fits newline bufferSize ws ∧ sentSince y log <+: ws ∧
    (Returns l.control → sentSince y log = ws)

theorem Serve.returns_before {k : Kernel} {l l' : Loop} {more : List Event} {i : Nat}
    {c c' : ClientInfo} {bytes : List Byte} {tail : List Event} {control : Control}
    {outcome : Outcome Exn Unit} (serve : Serve k l l' more i c c' bytes tail control outcome) :
    Returns l.control := by
  obtain ⟨p, its_turn⟩ := serve.its_turn
  unfold turn at its_turn
  split at its_turn
  case h_1 at_client => simp [Returns, at_client]
  case h_2 => cases its_turn

theorem Serve.returned {k : Kernel} {l l' : Loop} {more : List Event} {i : Nat}
    {c c' : ClientInfo} {bytes : List Byte} {tail : List Event} {control : Control}
    {outcome : Outcome Exn Unit} (serve : Serve k l l' more i c c' bytes tail control outcome)
    (returns : Returns l'.control) : outcome = .returned () := by
  rw [serve.next] at returns
  rcases serve.relayed.ends with rfl | rfl | ⟨e, rfl⟩
  · rfl
  · exact absurd rfl returns.1
  · exact absurd rfl (returns.2 e)

theorem Serve.sentSince {k : Kernel} {l l' : Loop} {more : List Event} {i : Nat}
    {c c' : ClientInfo} {bytes : List Byte} {tail : List Event} {control : Control}
    {outcome : Outcome Exn Unit} (serve : Serve k l l' more i c c' bytes tail control outcome)
    (y : Fd) (log : List Event) :
    sentSince y (log ++ more) = ChatServer.sentSince y log ++ sent y tail := by
  rw [serve.more, sentSince_append log (serve_events serve.relayed _ bytes y).1, sent_serve]

theorem narrow_of_serve {k : Kernel} {l l' : Loop} {more : List Event} {i : Nat}
    {c c' : ClientInfo} {bytes : List Byte} {tail : List Event} {control : Control}
    {outcome : Outcome Exn Unit} (serve : Serve k l l' more i c c' bytes tail control outcome) :
    Narrow l k ↔ (l.server.recipients i ≠ [] → relayText c (landed c.buffer bytes) ≠ [] →
      (nameWith c (landed c.buffer bytes)).length + 4 +
        (Framing.first newline (relayText c (landed c.buffer bytes))).length ≤ bufferSize) := by
  obtain ⟨p, its_turn⟩ := serve.its_turn
  unfold Narrow
  rw [its_turn, serve.reads]
  simp [Except.toOption, serve.nonempty]

theorem streams_step {l : Loop} {log : List Event} {k : Kernel} (h : Streams l log)
    (fresh : Fresh l k) (narrow : Narrow l k) :
    Streams (step l k).1 (log ++ (step l k).2) := by
  have effect := step_effect k l h.good
  refine ⟨good_step h.good fresh, plain_step h.good fresh h.plain, fun y => ?_⟩
  obtain ⟨ws, fits, part, whole⟩ := h.fits y
  rcases mute_or_serve effect with mute | ⟨i, c, c', bytes, tail, control, outcome, serve⟩
  · rcases sentSince_silent (y := y) log (silent_of_mute mute) with same | afresh
    · rw [same]
      refine ⟨ws, fits, part, fun returns => whole ?_⟩
      by_contra left
      rw [step_of_left left] at returns
      exact left returns
    · exact ⟨[], Framing.fits_nil _ _, by rw [afresh], fun _ => afresh⟩
  · obtain ⟨m, what, more, all⟩ := relayed_extends serve.relayed y
    have before : sentSince y log = ws := whole serve.returns_before
    refine ⟨ws ++ m, fits.append ?_, ?_, fun returns => ?_⟩
    · rcases what with rfl | ⟨some, text, rfl⟩
      · exact Framing.fits_nil _ _
      · exact (fits_of_serve serve h.good h.plain text).mpr
          ((narrow_of_serve serve).mp narrow some text)
    · rw [serve.sentSince, before]
      exact (List.prefix_append_right_inj ws).mpr more
    · rw [serve.sentSince, before, all (serve.returned returns)]

theorem narrow_of_fits {l : Loop} {log : List Event} {k : Kernel} (h : Streams l log)
    (returns : Returns (step l k).1.control)
    (short : ∀ y, ∀ f ∈ Framing.frames newline (sentSince y (log ++ (step l k).2)),
      f.length ≤ bufferSize) : Narrow l k := by
  rintro t its_turn ⟨c, answer⟩ reads bytes got
  cases answer with
  | error e => cases got
  | ok bytes' =>
    obtain rfl : bytes' = bytes := Option.some.inj got
    intro some nonempty text
    obtain ⟨i, c', tail, control, outcome, serve⟩ :=
      serve_of_effect (step_effect k l h.good) reads nonempty
    obtain ⟨p, same⟩ := serve.its_turn
    obtain rfl : (i, p, c) = t := Option.some.inj (same.symm.trans its_turn)
    apply (fits_of_serve serve h.good h.plain text).mp
    obtain ⟨y, member⟩ := List.exists_mem_of_ne_nil _ some
    obtain ⟨ws, fits, _, whole⟩ := h.fits y
    have before : sentSince y log = ws := whole serve.returns_before
    have message_to_y : sent y tail = message c'.name (relayText c (landed c.buffer bytes')) := by
      rcases relayed_returns serve.relayed (by rw [serve.next] at returns; exact returns) with
        ⟨empty, _⟩ | ⟨_, _, _, each⟩
      · exact absurd empty text
      · rw [each y, if_pos member]
    have ends := message_getLast? c'.name (relayText_getLast? text)
    have stream : Framing.Fits newline bufferSize (ws ++ sent y tail) := by
      rw [← before, ← serve.sentSince]
      refine ⟨?_, short y⟩
      rw [serve.sentSince, before, Framing.residue_append, fits.whole, message_to_y]
      exact Framing.residue_eq_nil ends
    rw [← message_to_y]
    exact stream.of_append fits.whole

end ChatServer

/-! What a client holds. -/
namespace ChatClient
open Machine

theorem readFrom_eq_nil {fd : Fd} {log : List Event} (none : ∀ bytes, .read fd bytes ∉ log) :
    readFrom fd log = [] := by
  apply List.flatMap_eq_nil_iff.mpr
  intro e member
  cases e with
  | read y bytes =>
    have elsewhere : y ≠ fd := fun eq => none bytes (eq ▸ member)
    simp [Event.readFrom, elsewhere]
  | _ => rfl

/-- The tail of the server's bytes, also where writes fail. -/
def Hears (fd : Fd) (c : ChatClient) (log : List Event) : Prop :=
  c.readBuffer.content = Framing.residue newline (readFrom fd log)

theorem ServerPart.hears {k : Kernel} {r : Revents} {c c' : ChatClient} {more : List Event}
    {o : Outcome Exn Unit} (part : ServerPart k r c c' more o) {log : List Event}
    (h : Hears c.clientFd.get c log) : Hears c.clientFd.get c' (log ++ more) := by
  unfold Hears at *
  cases part with
  | idle => rwa [List.append_nil]
  | readFailed e => rw [readFrom_append]; simpa [Event.readFrom] using h
  | received bytes b ready answer valid content =>
    have nothing : readFrom c.clientFd.get
        (printLog (Framing.complete newline (c.readBuffer.content ++ bytes))) = [] := by
      unfold printLog
      split
      · rfl
      · rfl
    rw [readFrom_append, readFrom_cons, nothing, Framing.residue_append, ← h]
    simpa [Event.readFrom] using content

theorem hears_of_effect {fd sfd : Fd} {k : Kernel} {l l' : Loop} {log more : List Event}
    (effect : Effect k l l' more) (wired : Wired fd sfd l) (distinct : Distinct fd sfd)
    (h : Hears fd l.client log) : Hears fd l'.client (log ++ more) := by
  have stdin_hears : ∀ {r c log₁} {o : Outcome Exn Bool}, StdinPart k r l.client c log₁ o →
      Hears fd c (log ++ log₁) := by
    intro r c log₁ o part
    have nothing : readFrom fd log₁ = [] :=
      readFrom_eq_nil fun _ member => distinct.socket (part.reads member)
    unfold Hears
    rwa [part.frame, readFrom_append, nothing, List.append_nil]
  cases effect with
  | quiet => rwa [List.append_nil]
  | stdinEnds revents ready c₁ log₁ o stdin => exact stdin_hears stdin
  | serverEnds revents ready c₁ c₂ log₁ log₂ o stdin server =>
    obtain ⟨here, _⟩ := wired.wired (connected_of_polled ready)
    have same : SameWires l.client c₁ := stdin.wires.resolve_right (by simp)
    have at_c : c₁.clientFd.get = fd := by rw [same.client]; exact here
    have second := server.hears (by rw [at_c]; exact stdin_hears stdin)
    rwa [at_c, List.append_assoc] at second
  | through revents ready c₁ c₂ c₃ log₁ log₂ log₃ o stdin server signal =>
    obtain ⟨here, watched⟩ := wired.wired (connected_of_polled ready)
    have same : SameWires l.client c₁ := stdin.wires.resolve_right (by simp)
    have at_c : c₁.clientFd.get = fd := by rw [same.client]; exact here
    have second := server.hears (by rw [at_c]; exact stdin_hears stdin)
    rw [at_c, List.append_assoc] at second
    have at_signal : c₂.signalfd.get = sfd := by
      rw [server.wires.signal, same.signal]
      exact watched
    have nothing : readFrom fd log₃ = [] := readFrom_eq_nil fun _ member =>
      distinct.both (at_signal.symm.trans (signal.reads member).symm)
    have frame : c₃.readBuffer = c₂.readBuffer := by cases signal <;> rfl
    unfold Hears at *
    rw [frame, second]
    simp only [readFrom_append, nothing, List.append_nil]

theorem session_hears (s : Session) :
    s.Always fun l log => l.client.Good ∧ Hears s.fd l.client log := by
  obtain ⟨sfd, distinct, wired, forwards⟩ := start_spec s
  refine always_of_invariant (P := fun _ _ => True)
    (I := fun l log => Wired s.fd sfd l ∧ Hears s.fd l.client log)
    (fun _ _ h => ⟨h.1.good, h.2⟩) ?_ ⟨wired, forwards.read⟩ (along_of_forall (fun _ _ => trivial) _ _)
  intro l log k ⟨wired, hears⟩ _
  exact ⟨wired_step k wired, hears_of_effect (step_effect k l wired.good) wired distinct hears⟩

/-- No room for another byte, and no line to take out. -/
def Choked (c : ChatClient) : Prop :=
  c.readBuffer.isFull = true ∧ newline ∉ c.readBuffer.content

instance (c : ChatClient) : Decidable c.Choked := inferInstanceAs (Decidable (_ ∧ _))

theorem not_choked {fd : Fd} {c : ChatClient} {log : List Event} {ws : List Byte} (good : c.Good)
    (hears : Hears fd c log) (fits : Framing.Fits newline bufferSize ws)
    (part : readFrom fd log <+: ws) : ¬ c.Choked := by
  rintro ⟨full, _⟩
  have tail := fits.residue_lt part (by decide)
  have size := Buffer.length_content good.read
  rw [← hears] at tail
  unfold Buffer.isFull Buffer.capacity at full
  have size' := of_decide_eq_true full
  omega

end ChatClient

namespace ChatServer
open Machine

def ShortLines (_ : Loop) (log : List Event) : Prop :=
  ∀ y, ∀ f ∈ Framing.frames newline (sentSince y log), f.length ≤ bufferSize

theorem shortLines_of_streams {l : Loop} {log : List Event} (h : Streams l log) :
    ShortLines l log := by
  intro y
  obtain ⟨ws, fits, part, _⟩ := h.fits y
  exact fits.frames_of_prefix part

theorem streams_start (r : ServerRun) : Streams (eventLoop r.server) [] := by
  refine ⟨good_of_empty r.empty, ?_, fun y => ⟨[], Framing.fits_nil _ _, ?_, fun _ => rfl⟩⟩
  · simp [eventLoop, r.empty]
  · exact List.nil_prefix

theorem streams_of_narrow (r : ServerRun) (narrow : r.Along Narrow) : r.Always Streams :=
  always_of_invariant (P := fun l k => Fresh l k ∧ Narrow l k) (fun _ _ h => h)
    (fun _ _ _ h both => streams_step h both.1 both.2) (streams_start r)
    ((along_and step _ _ _ _).mpr ⟨r.fresh, narrow⟩)

/-- Where every relayed first line leaves room for its prefix, all lines fit and no client is
ever choked; and where the server's system calls return, all lines fit only there. -/
theorem relayed_lines_fit (r : ServerRun) :
    (r.Along Narrow → r.Always ShortLines ∧
      ∀ (s : ChatClient.Session) (y : Fd), s.Always fun l log =>
        readFrom s.fd log <+: sentSince y r.log → ¬ l.client.Choked) ∧
    (r.Along (fun l k => Returns (step l k).1.control) →
      (r.Always ShortLines ↔ r.Along Narrow)) := by
  constructor
  · intro narrow
    have streams := streams_of_narrow r narrow
    refine ⟨always_mono (fun _ _ => shortLines_of_streams) streams, fun s y => ?_⟩
    obtain ⟨ws, fits, part, _⟩ := (always_last streams).fits y
    refine always_mono ?_ (ChatClient.session_hears s)
    rintro l log ⟨good, hears⟩ heard
    exact ChatClient.not_choked good hears fits (heard.trans part)
  · intro returns
    exact always_iff_along (I := Streams) (P := fun l k => Fresh l k ∧ Returns (step l k).1.control)
      (fun _ _ => shortLines_of_streams)
      (fun _ _ _ h both narrow => streams_step h both.1 narrow)
      (fun _ _ _ h both short => narrow_of_fits h both.2 short) (streams_start r)
      ((along_and step _ _ _ _).mpr ⟨r.fresh, returns⟩)

instance (l : Loop) (k : Kernel) : Decidable (Narrow l k) := by
  unfold Narrow
  infer_instance

def speaks (line : List Byte) : List Kernel :=
  joins 5 ++ joins 6 ++ delivers 5 0 (ascii ['A', '\n']) ++
    delivers 6 1 (ascii ['B', '\n']) ++ delivers 5 0 line

def smallTalk : ServerRun where
  server := listening
  kernels := speaks (ascii ['h', 'i', '\n'])
  empty := listening_clients
  fresh := by decide +kernel

theorem small_talk_fits : smallTalk.Always ShortLines :=
  ((relayed_lines_fit smallTalk).1 (by decide +kernel)).1

def longestLine : List Byte := List.replicate (bufferSize - 1) 120 ++ [newline]

def bigTalk : ServerRun where
  server := listening
  kernels := speaks longestLine
  empty := listening_clients
  fresh := by decide +kernel

def talker : ChatClient.Session := ChatClient.sessionOf [ChatClient.types longestLine]
def listener : ChatClient.Session :=
  ChatClient.sessionOf [ChatClient.hears 3 ((message (ascii ['A']) longestLine).take bufferSize)]

theorem longest_line_chokes :
    ChatClient.setName (ascii ['A']) {} = ⟨talker.client, [], .returned ()⟩ ∧
    sent 3 talker.log = received 5 bigTalk.log ∧
    (Framing.frames newline (sentSince 6 bigTalk.log)).map List.length = [1029] ∧
    readFrom 3 listener.log <+: sentSince 6 bigTalk.log ∧ listener.final.client.Choked :=
  ⟨by decide +kernel, by decide +kernel, by decide +kernel, by decide +kernel, by decide +kernel⟩

end ChatServer
end TcpChat
