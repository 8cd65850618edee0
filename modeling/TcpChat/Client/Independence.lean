import TcpChat.Client.Twins

/-! Sessions of one client object. `run` and `stop` leave the buffers as they are, and their live
bytes are all that one session leaves to the next. -/
namespace TcpChat.ChatClient

/-- A newly constructed client with the same name and address. -/
def fresh (c : ChatClient) : ChatClient := { clientName := c.clientName, address := c.address }

/-- What follows on a `run`: iterations of the loop, `stop`, and whatever else is called. -/
def session (c : ChatClient) (answers : RunAnswers) (calls : List Call) : List Event :=
  (Machine.run call c (.run answers :: calls)).2

/-- What the client sends and prints from a `run` on is what a new one would. -/
def LikeNew (c : ChatClient) : Prop :=
  ∀ (answers : RunAnswers) (calls : List Call),
    (∀ fd, sent fd (session c answers calls) = sent fd (session c.fresh answers calls)) ∧
      printed (session c answers calls) = printed (session c.fresh answers calls)

theorem likeNew_of_empty {c : ChatClient} (good : c.Good) (off : c.connected = false)
    (write : c.writeBuffer.content = []) (read : c.readBuffer.content = []) : c.LikeNew := by
  have alike : Alike c c.fresh :=
    ⟨⟨off, rfl, rfl, ⟨good.read, Buffer.valid_empty, read⟩, ⟨good.write, Buffer.valid_empty, write⟩⟩,
      fun on => absurd (off.symm.trans on) (by decide)⟩
  intro answers calls
  exact seen_of_shown (Machine.run_agrees call_alike (.run answers :: calls) alike).1

/-! What a session shows of the live bytes that it starts with. -/

/-- Descriptors for a session, and a socket that takes the name line. -/
def opening (c : ChatClient) : RunAnswers where
  socket := .ok 3
  signalfd := .ok 4
  write := [.accepted (c.clientName.length + 1)]

def opened (c : ChatClient) : ChatClient :=
  { c with clientFd := ⟨3⟩, signalfd := ⟨4⟩, connected := true }

theorem run_returns {a : RunAnswers} {c : ChatClient} {fd sfd : Nat} (off : c.connected = false)
    (socket : a.socket = .ok fd) (connect : a.connect = none) (mask : a.sigprocmask = none)
    (signal : a.signalfd = .ok sfd)
    (carried : (carry (c.clientName ++ [newline]).length a.write).isSome) :
    (run a c).outcome = .returned () := by
  have early : a.failsEarly = false := by
    simp [RunAnswers.failsEarly, socket, signal, connect, mask]
  obtain ⟨c', log, o, eq, effect⟩ := run_cases a c
  rw [eq]
  cases effect with
  | connected on => cases off.symm.trans on
  | unopened e _ fails | undone fd e _ fails => cases early.symm.trans fails
  | cut fd sfd log e _ _ _ short | stuck fd sfd log _ _ short =>
    rw [nameLine] at short
    rw [short] at carried
    cases carried
  | done => rfl

theorem run_opening {c : ChatClient} (off : c.connected = false) :
    (run c.opening c).outcome = .returned () ∧ (run c.opening c).state = c.opened ∧
      sent 3 (run c.opening c).events = c.clientName ++ [newline] ∧
      printed (run c.opening c).events = [] := by
  have returned : (run c.opening c).outcome = .returned () :=
    run_returns off rfl rfl rfl rfl (by simp [opening, carry])
  obtain ⟨fd, sfd, socket, signal, state, writes, only, all, events⟩ := run_of_returned returned
  cases socket
  cases signal
  refine ⟨returned, state, ?_, ?_⟩
  · have quiet (d : ScopedFileDescriptor) : sent 3 d.closing = [] := (unnoticed_closing 3 d).sent
    have line : sent 3 writes = c.clientName ++ [newline] := all
    simp [events, quiet, line, Event.sentTo]
  · have quiet (d : ScopedFileDescriptor) : printed d.closing = [] := (unnoticed_closing 3 d).printed
    simp [events, quiet, printed_onlyWrites only, Event.printed]

/-- One iteration in which `bytes` are there to be read from one descriptor. -/
def enters (fd : Fd) (bytes : List Byte) (n : Nat) : Kernel where
  poll := .ready fun y => { pollin := y = fd }
  stdin := .ofBytes bytes
  server := .ofBytes bytes
  write := List.replicate n (.accepted bufferSize)

theorem session_opening {c : ChatClient} (off : c.connected = false) (k : Kernel) :
    ∃ log, sent 3 log = c.clientName ++ [newline] ∧ printed log = [] ∧
      session c c.opening [.eventLoop [k]] = log ++ (step ⟨c.opened, .poll⟩ k).2 := by
  obtain ⟨_, state, sends, prints⟩ := run_opening off
  refine ⟨(run c.opening c).events, sends, prints, ?_⟩
  simp [session, Machine.run_cons, call, state, eventLoop, opened]

theorem polled_enters (fd : Fd) (bytes : List Byte) (n : Nat) (c : ChatClient) :
    polled ⟨c.opened, .poll⟩ (enters fd bytes n) = some fun y => { pollin := y = fd } := rfl

theorem server_idle {k : Kernel} {c c' : ChatClient} {log : List Event} {o : Outcome Exn Unit}
    (server : ServerPart k {} c c' log o) : log = [] ∧ o = .returned () := by
  generalize which : ({} : Revents) = r at server
  cases server with
  | idle => exact ⟨rfl, rfl⟩
  | readFailed e ready | received bytes b ready =>
    subst which
    cases ready

theorem signal_idle {k : Kernel} {c c' : ChatClient} {log : List Event} {o : Outcome Exn Control}
    (signal : SignalPart k {} c c' log o) : log = [] := by
  generalize which : ({} : Revents) = r at signal
  cases signal with
  | idle => rfl
  | stop _ ready | partly _ ready | readFailed _ ready =>
    subst which
    cases ready

theorem stdin_idle {k : Kernel} {c c' : ChatClient} {log : List Event} {o : Outcome Exn Bool}
    (stdin : StdinPart k {} c c' log o) : c' = c ∧ log = [] ∧ o = .returned true := by
  generalize which : ({} : Revents) = r at stdin
  cases stdin with
  | idle => exact ⟨rfl, rfl, rfl⟩
  | eof ready | readFailed _ ready | forwarded _ _ _ ready | stuck _ _ _ _ ready =>
    subst which
    cases ready

theorem stdin_only {bytes : List Byte} {n : Nat} {c : ChatClient} {l' : Loop} {log : List Event}
    (effect : Effect (enters stdinFileno bytes n) ⟨c.opened, .poll⟩ l' log) :
    ∃ c' o, StdinPart (enters stdinFileno bytes n) { pollin := true } c.opened c' log o := by
  cases effect with
  | quiet control unpolled =>
    rw [polled_enters] at unpolled
    cases unpolled
  | stdinEnds revents ready c₁ log₁ o stdin =>
    rw [polled_enters] at ready
    cases ready
    exact ⟨_, _, stdin⟩
  | serverEnds revents ready c₁ c₂ log₁ log₂ o stdin server ends =>
    rw [polled_enters] at ready
    cases ready
    exact absurd (server_idle server).2 ends
  | through revents ready c₁ c₂ c₃ log₁ log₂ log₃ o stdin server signal =>
    rw [polled_enters] at ready
    cases ready
    obtain ⟨rfl, _⟩ := server_idle server
    obtain rfl := signal_idle signal
    rw [List.append_nil, List.append_nil]
    exact ⟨_, _, stdin⟩

theorem server_only {bytes : List Byte} {n : Nat} {c : ChatClient} {l' : Loop} {log : List Event}
    (effect : Effect (enters 3 bytes n) ⟨c.opened, .poll⟩ l' log) :
    ∃ c' o, ServerPart (enters 3 bytes n) { pollin := true } c.opened c' log o := by
  cases effect with
  | quiet control unpolled =>
    rw [polled_enters] at unpolled
    cases unpolled
  | stdinEnds revents ready c₁ log₁ o stdin ends =>
    rw [polled_enters] at ready
    cases ready
    exact absurd (stdin_idle stdin).2.2 ends
  | serverEnds revents ready c₁ c₂ log₁ log₂ o stdin server ends =>
    rw [polled_enters] at ready
    cases ready
    obtain ⟨rfl, rfl, _⟩ := stdin_idle stdin
    exact ⟨_, _, server⟩
  | through revents ready c₁ c₂ c₃ log₁ log₂ log₃ o stdin server signal =>
    rw [polled_enters] at ready
    cases ready
    obtain ⟨rfl, rfl, _⟩ := stdin_idle stdin
    obtain rfl := signal_idle signal
    rw [List.append_nil]
    exact ⟨_, _, server⟩

theorem enters_read {b : Buffer} (valid : b.Valid) (bytes : List Byte) :
    (ReadAnswer.ofBytes bytes).read b.freeSpace.toNat =
      .ok (bytes.take (bufferSize - b.content.length)) := by
  rw [Buffer.freeSpace_toNat valid, ReadAnswer.read_ofBytes]

theorem sent_of_room {c c' : ChatClient} (good : c.Good) {n : Nat}
    (enough : (Framing.frames newline (c.writeBuffer.content ++ [newline])).length ≤ n)
    (room : c.writeBuffer.content.length < bufferSize) {log : List Event} {o : Outcome Exn Bool}
    (stdin : StdinPart (enters stdinFileno [newline] n) { pollin := true } c.opened c' log o) :
    sent 3 log = c.writeBuffer.content ++ [newline] := by
  have reading := enters_read good.write [newline]
  have whole : [newline].take (bufferSize - c.writeBuffer.content.length) = [newline] := by
    apply List.take_of_length_le
    simp only [List.length_singleton]
    omega
  rw [whole] at reading
  generalize which : ({ pollin := true } : Revents) = r at stdin
  cases stdin with
  | idle unready =>
    subst which
    cases unready
  | eof ready nothing => cases reading.symm.trans nothing
  | readFailed e ready failed => cases reading.symm.trans failed
  | forwarded bytes b writes ready answer nonempty valid only content all =>
    cases reading.symm.trans answer
    have line : sent 3 writes = Framing.complete newline (c.writeBuffer.content ++ [newline]) := all
    rw [sent_cons, line, Framing.complete_concat]
    rfl
  | stuck bytes b writes o ready answer nonempty valid only ends short =>
    cases reading.symm.trans answer
    have short_lines : ∀ f ∈ Framing.frames newline (c.writeBuffer.content ++ [newline]),
        f.length ≤ bufferSize := by
      intro f member
      have bound := Framing.length_frame_le member
      rw [List.length_append, List.length_singleton] at bound
      omega
    have carried := carryEach_replicate short_lines enough
    have none : carryEach (Framing.frames newline (c.writeBuffer.content ++ [newline]))
      (List.replicate n (.accepted bufferSize)) = none := short
    rw [none] at carried
    cases carried

theorem sent_of_full {c c' : ChatClient} (good : c.Good) {n : Nat}
    (full : ¬ c.writeBuffer.content.length < bufferSize) {log : List Event} {o : Outcome Exn Bool}
    (stdin : StdinPart (enters stdinFileno [newline] n) { pollin := true } c.opened c' log o) :
    sent 3 log = [] := by
  have reading := enters_read good.write [newline]
  have cut : [newline].take (bufferSize - c.writeBuffer.content.length) = [] := by
    rw [List.take_eq_nil_iff]
    exact .inl (by omega)
  rw [cut] at reading
  generalize which : ({ pollin := true } : Revents) = r at stdin
  cases stdin with
  | idle unready =>
    subst which
    cases unready
  | eof ready nothing =>
    rw [sent_cons, (unnoticed_stopLog 3 c.opened).sent]
    rfl
  | readFailed e ready failed => cases reading.symm.trans failed
  | forwarded bytes b writes ready answer nonempty =>
    exact absurd (Except.ok.inj (answer.symm.trans reading)) nonempty
  | stuck bytes b writes o ready answer nonempty =>
    exact absurd (Except.ok.inj (answer.symm.trans reading)) nonempty

/-- With room for it, a newline that is typed sends off the live bytes; without, it is not read. -/
theorem typed_newline {c : ChatClient} (good : c.Good) {n : Nat}
    (enough : (Framing.frames newline (c.writeBuffer.content ++ [newline])).length ≤ n) :
    sent 3 (step ⟨c.opened, .poll⟩ (enters stdinFileno [newline] n)).2 =
      if c.writeBuffer.content.length < bufferSize then c.writeBuffer.content ++ [newline]
      else [] := by
  obtain ⟨c', o, stdin⟩ := stdin_only (step_effect (enters stdinFileno [newline] n)
    ⟨c.opened, .poll⟩ ⟨good.read, good.write⟩)
  by_cases room : c.writeBuffer.content.length < bufferSize
  · rw [if_pos room]
    exact sent_of_room good enough room stdin
  · rw [if_neg room]
    exact sent_of_full good room stdin

theorem heard_bytes {c : ChatClient} (good : c.Good) (bytes : List Byte) :
    printed (step ⟨c.opened, .poll⟩ (enters 3 bytes 0)).2 = Framing.complete newline
      (c.readBuffer.content ++ bytes.take (bufferSize - c.readBuffer.content.length)) := by
  have reading := enters_read good.read bytes
  obtain ⟨c', o, server⟩ := server_only (step_effect (enters 3 bytes 0) ⟨c.opened, .poll⟩
    ⟨good.read, good.write⟩)
  generalize (step ⟨c.opened, .poll⟩ (enters 3 bytes 0)).2 = log at server ⊢
  generalize which : ({ pollin := true } : Revents) = r at server
  cases server with
  | idle unready =>
    subst which
    cases unready
  | readFailed e ready failed => cases reading.symm.trans failed
  | received heard b ready answer =>
    obtain rfl := Except.ok.inj (reading.symm.trans answer)
    rw [printed_cons]
    exact printed_printLog _

theorem good_fresh (c : ChatClient) : c.fresh.Good := ⟨Buffer.valid_empty, Buffer.valid_empty⟩

/-- What is sent and printed in one iteration right after `run` is what a new client sends and
prints there. -/
theorem iteration_likeNew {c : ChatClient} (off : c.connected = false) (like : c.LikeNew)
    (k : Kernel) :
    sent 3 (step ⟨c.opened, .poll⟩ k).2 = sent 3 (step ⟨c.fresh.opened, .poll⟩ k).2 ∧
      printed (step ⟨c.opened, .poll⟩ k).2 = printed (step ⟨c.fresh.opened, .poll⟩ k).2 := by
  obtain ⟨log, sends, prints, here⟩ := session_opening off k
  obtain ⟨log', sends', prints', there⟩ := session_opening (c := c.fresh) rfl k
  have there' : session c.fresh c.opening [.eventLoop [k]] =
      log' ++ (step ⟨c.fresh.opened, .poll⟩ k).2 := there
  obtain ⟨sending, printing⟩ := like c.opening [.eventLoop [k]]
  have sending := sending 3
  rw [here, there', sent_append, sent_append, sends, sends'] at sending
  rw [here, there', printed_append, printed_append, prints, prints'] at printing
  exact ⟨List.append_cancel_left sending, printing⟩

theorem write_empty_of_likeNew {c : ChatClient} (good : c.Good) (off : c.connected = false)
    (like : c.LikeNew) : c.writeBuffer.content = [] := by
  let lines := Framing.frames newline (c.writeBuffer.content ++ [newline])
  have present : 1 ≤ lines.length := by
    apply List.length_pos_iff.mpr
    intro none
    have absent := (Framing.frames_eq_nil_iff newline _).mp none
    exact absent (List.mem_append_right _ List.mem_cons_self)
  have same := (iteration_likeNew off like (enters stdinFileno [newline] lines.length)).1
  rw [typed_newline good le_rfl, typed_newline (good_fresh c) present] at same
  have new : c.fresh.writeBuffer.content = [] := rfl
  rw [new, if_pos (show ([] : List Byte).length < bufferSize by decide)] at same
  by_cases room : c.writeBuffer.content.length < bufferSize
  · rw [if_pos room] at same
    exact List.append_cancel_right same
  · rw [if_neg room] at same
    cases same

theorem read_empty_of_likeNew {c : ChatClient} (good : c.Good) (off : c.connected = false)
    (like : c.LikeNew) : c.readBuffer.content = [] := by
  have new : c.fresh.readBuffer.content = [] := rfl
  have same (bytes : List Byte) : Framing.complete newline
      (c.readBuffer.content ++ bytes.take (bufferSize - c.readBuffer.content.length)) =
        Framing.complete newline (bytes.take bufferSize) := by
    have prints := (iteration_likeNew off like (enters 3 bytes 0)).2
    rwa [heard_bytes good, heard_bytes (good_fresh c), new] at prints
  by_cases room : c.readBuffer.content.length < bufferSize
  · have one := same [newline]
    have whole : [newline].take (bufferSize - c.readBuffer.content.length) = [newline] := by
      apply List.take_of_length_le
      simp only [List.length_singleton]
      omega
    rw [whole, Framing.complete_concat] at one
    exact List.append_cancel_right one
  · -- a full buffer takes nothing, so it prints the same whatever has come
    have none : bufferSize - c.readBuffer.content.length = 0 := by omega
    have one := same [newline]
    have two := same [newline, newline]
    rw [none, List.take_zero] at one two
    exact absurd (one.symm.trans two) (by decide)

/-- An object whose last session is over. -/
structure Former extends Life where
  ended : toLife.client.connected = false

/-- A later session is like that of a new client exactly if none of the earlier ones has left a
byte in either buffer. -/
theorem likeNew_iff (f : Former) : f.client.LikeNew ↔
    f.client.writeBuffer.content = [] ∧ f.client.readBuffer.content = [] := by
  have good := f.toLife.good
  constructor
  · intro like
    exact ⟨write_empty_of_likeNew good f.ended like, read_empty_of_likeNew good f.ended like⟩
  · rintro ⟨write, read⟩
    exact likeNew_of_empty good f.ended write read

def endsWithLine : Former where
  constructor := .default
  calls := [.run { socket := .ok 3, signalfd := .ok 4, write := [.accepted 8] },
    .eventLoop [types (ascii ['h', 'e']), types (ascii ['y', '\n']), types []]]
  built := built_default
  ended := by decide +kernel

theorem whole_lines_forgotten : endsWithLine.client.LikeNew :=
  (likeNew_iff endsWithLine).mpr (by decide +kernel)

/-- A client whose input ends in the middle of a line. -/
def endsInLine : Former where
  constructor := .default
  calls := [.run { socket := .ok 3, signalfd := .ok 4, write := [.accepted 8] },
    .eventLoop [types (ascii ['h', 'e']), types []]]
  built := built_default
  ended := by decide +kernel

/-- The half line goes out in front of the first line of the next session. -/
theorem half_line_kept :
    sent 3 (session endsInLine.client { socket := .ok 3, signalfd := .ok 4, write := [.accepted 8] }
      [.eventLoop [types (ascii ['y', '\n'])]]) =
        ascii ['N', 'o', ' ', 'N', 'a', 'm', 'e', '\n', 'h', 'e', 'y', '\n'] ∧
    ¬ endsInLine.client.LikeNew := by
  refine ⟨by decide +kernel, fun like => ?_⟩
  have same := (like { socket := .ok 3, signalfd := .ok 4, write := [.accepted 8] }
    [.eventLoop [types (ascii ['y', '\n'])]]).1 3
  exact absurd same (by decide +kernel)

end TcpChat.ChatClient
