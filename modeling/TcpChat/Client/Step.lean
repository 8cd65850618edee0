import TcpChat.Client.Model

/-! What one iteration of the client's loop can do, part by part, and what a call of `run` can
come to. Only this module unfolds them. -/
namespace TcpChat.ChatClient

def stopped (c : ChatClient) : ChatClient :=
  { c with signalfd := {}, clientFd := {}, connected := false }

def stopLog (c : ChatClient) : List Event := c.signalfd.closing ++ c.clientFd.closing

theorem stop_eq (c : ChatClient) : stop c = ⟨c.stopped, c.stopLog, .returned ()⟩ := by
  simp [stop, stopped, stopLog]

def WriteStuck {α : Type} (o : Outcome Exn α) : Prop :=
  o = .blocked ∨ ∃ errno, o = .thrown (.systemError errno "write() failed")

inductive StdinPart (k : Kernel) (r : Revents) (c : ChatClient) :
    ChatClient → List Event → Outcome Exn Bool → Prop
  | idle (unready : r.pollin = false) : StdinPart k r c c [] (.returned true)
  | eof (ready : r.pollin = true) (nothing : k.stdin.read c.writeBuffer.freeSpace.toNat = .ok []) :
      StdinPart k r c c.stopped (.read stdinFileno [] :: c.stopLog) (.returned false)
  | readFailed (e : Errno) (ready : r.pollin = true)
      (failed : k.stdin.read c.writeBuffer.freeSpace.toNat = .error e) :
      StdinPart k r c c [.readError stdinFileno e] (.thrown (.systemError (some e) "read() failed"))
  | forwarded (bytes : List Byte) (b : Buffer) (writes : List Event) (ready : r.pollin = true)
      (answer : k.stdin.read c.writeBuffer.freeSpace.toNat = .ok bytes) (nonempty : bytes ≠ [])
      (valid : b.Valid) (only : OnlyWrites c.clientFd.get writes)
      (content : b.content = Framing.residue newline (c.writeBuffer.content ++ bytes))
      (sent : sent c.clientFd.get writes =
        Framing.complete newline (c.writeBuffer.content ++ bytes))
      (carried : (carryEach (Framing.frames newline (c.writeBuffer.content ++ bytes))
        k.write).isSome) :
      StdinPart k r c { c with writeBuffer := b } (.read stdinFileno bytes :: writes)
        (.returned true)
  | stuck (bytes : List Byte) (b : Buffer) (writes : List Event) (o : Outcome Exn Bool)
      (ready : r.pollin = true)
      (answer : k.stdin.read c.writeBuffer.freeSpace.toNat = .ok bytes) (nonempty : bytes ≠ [])
      (valid : b.Valid) (only : OnlyWrites c.clientFd.get writes) (ends : WriteStuck o)
      (short : carryEach (Framing.frames newline (c.writeBuffer.content ++ bytes)) k.write = none) :
      StdinPart k r c { c with writeBuffer := b } (.read stdinFileno bytes :: writes) o

theorem stdinPart_cases (k : Kernel) (r : Revents) {c : ChatClient} (valid : c.writeBuffer.Valid) :
    ∃ c' log o, stdinPart k r c = ⟨c', log, o⟩ ∧ StdinPart k r c c' log o := by
  cases ready : r.pollin with
  | false => exact ⟨c, [], .returned true, by simp [stdinPart, ready], .idle ready⟩
  | true =>
    cases answer : k.stdin.read c.writeBuffer.freeSpace.toNat with
    | error e =>
      exact ⟨c, _, _, by simp [stdinPart, ready, readFd, answer], .readFailed e ready answer⟩
    | ok bytes =>
      have fits := ReadAnswer.read_length answer
      by_cases empty : bytes = []
      · subst empty
        refine ⟨c.stopped, .read stdinFileno [] :: c.stopLog, .returned false, ?_, .eof ready answer⟩
        simp [stdinPart, ready, readFd, answer, onWriteBuffer, Program.zoom, Buffer.writeAt_nil,
          stop_eq]
      · obtain ⟨b₁, counted, valid₁, live⟩ := Buffer.receive_behind valid fits
        obtain ⟨b₂, writes, valid₂, only, ends⟩ :=
          Buffer.consumeFullFd_spec c.clientFd.get valid₁ newline k.write
        rw [live] at ends
        rcases ends with ⟨rest, carried, wrote, all, content⟩ | ⟨short, _, stuck | ⟨errno, stuck⟩⟩
        · refine ⟨_, _, _, ?_, .forwarded bytes b₂ writes ready answer empty valid₂ only content all
            (by rw [carried]; rfl)⟩
          simp [stdinPart, ready, readFd, answer, onWriteBuffer, Program.zoom, empty, Buffer.size,
            counted, wrote]
        · refine ⟨_, _, .blocked, ?_, .stuck bytes b₂ writes _ ready answer empty valid₂ only
            (.inl rfl) short⟩
          simp [stdinPart, ready, readFd, answer, onWriteBuffer, Program.zoom, empty, Buffer.size,
            counted, stuck]
        · refine ⟨_, _, .thrown (.systemError errno "write() failed"), ?_, .stuck bytes b₂ writes _
            ready answer empty valid₂ only (.inr ⟨errno, rfl⟩) short⟩
          simp [stdinPart, ready, readFd, answer, onWriteBuffer, Program.zoom, empty, Buffer.size,
            counted, stuck]

def printLog (text : List Byte) : List Event := if text = [] then [] else [.print text]

/-- The second part. A read of nothing is treated like any other. -/
inductive ServerPart (k : Kernel) (r : Revents) (c : ChatClient) :
    ChatClient → List Event → Outcome Exn Unit → Prop
  | idle (unready : r.pollin = false) : ServerPart k r c c [] (.returned ())
  | readFailed (e : Errno) (ready : r.pollin = true)
      (failed : k.server.read c.readBuffer.freeSpace.toNat = .error e) :
      ServerPart k r c c [.readError c.clientFd.get e]
        (.thrown (.systemError (some e) "read() failed"))
  | received (bytes : List Byte) (b : Buffer) (ready : r.pollin = true)
      (answer : k.server.read c.readBuffer.freeSpace.toNat = .ok bytes) (valid : b.Valid)
      (content : b.content = Framing.residue newline (c.readBuffer.content ++ bytes)) :
      ServerPart k r c { c with readBuffer := b }
        (.read c.clientFd.get bytes ::
          printLog (Framing.complete newline (c.readBuffer.content ++ bytes))) (.returned ())

theorem serverPart_cases (k : Kernel) (r : Revents) {c : ChatClient} (valid : c.readBuffer.Valid) :
    ∃ c' log o, serverPart k r c = ⟨c', log, o⟩ ∧ ServerPart k r c c' log o := by
  cases ready : r.pollin with
  | false => exact ⟨c, [], .returned (), by simp [serverPart, ready], .idle ready⟩
  | true =>
    cases answer : k.server.read c.readBuffer.freeSpace.toNat with
    | error e =>
      exact ⟨c, _, _, by simp [serverPart, ready, readFd, answer], .readFailed e ready answer⟩
    | ok bytes =>
      have fits := ReadAnswer.read_length answer
      obtain ⟨b₁, counted, valid₁, live⟩ := Buffer.receive_behind valid fits
      obtain ⟨b₂, consumed, valid₂, content⟩ := Buffer.consumeFull_spec valid₁ newline
      rw [live] at consumed content
      refine ⟨_, _, _, ?_, .received bytes b₂ ready answer valid₂ content⟩
      by_cases none : Framing.complete newline (c.readBuffer.content ++ bytes) = []
      · simp [serverPart, ready, readFd, answer, onReadBuffer, Program.zoom, Buffer.size, counted,
          consumed, none, printLog]
      · have some : 0 < (Framing.complete newline (c.readBuffer.content ++ bytes)).length :=
          List.length_pos_iff.mpr none
        simp [serverPart, ready, readFd, answer, onReadBuffer, Program.zoom, Buffer.size, counted,
          consumed, none, some, printLog]

inductive SignalPart (k : Kernel) (r : Revents) (c : ChatClient) :
    ChatClient → List Event → Outcome Exn Control → Prop
  | idle (unready : r.pollin = false) : SignalPart k r c c [] (.returned .poll)
  | stop (siginfo : List Byte) (ready : r.pollin = true)
      (answer : k.signal.read siginfoSize = .ok siginfo) (whole : siginfo.length = siginfoSize) :
      SignalPart k r c c.stopped (.read c.signalfd.get siginfo :: c.stopLog) (.returned .returned)
  | partly (siginfo : List Byte) (ready : r.pollin = true)
      (answer : k.signal.read siginfoSize = .ok siginfo) (short : siginfo.length ≠ siginfoSize) :
      SignalPart k r c c [.read c.signalfd.get siginfo]
        (.thrown (.runtimeError "failed to read signalfd"))
  | readFailed (e : Errno) (ready : r.pollin = true)
      (failed : k.signal.read siginfoSize = .error e) :
      SignalPart k r c c [.readError c.signalfd.get e]
        (.thrown (.systemError (some e) "read() failed"))

theorem signalPart_cases (k : Kernel) (r : Revents) (c : ChatClient) :
    ∃ c' log o, signalPart k r c = ⟨c', log, o⟩ ∧ SignalPart k r c c' log o := by
  cases ready : r.pollin with
  | false => exact ⟨c, [], .returned .poll, by simp [signalPart, ready], .idle ready⟩
  | true =>
    cases answer : k.signal.read siginfoSize with
    | error e =>
      exact ⟨c, _, _, by simp [signalPart, ready, readFd, answer], .readFailed e ready answer⟩
    | ok siginfo =>
      by_cases whole : siginfo.length = siginfoSize
      · refine ⟨_, _, _, ?_, .stop siginfo ready answer whole⟩
        simp [signalPart, ready, readFd, answer, whole, stop_eq]
      · refine ⟨_, _, _, ?_, .partly siginfo ready answer whole⟩
        simp [signalPart, ready, readFd, answer, whole]

/-! The whole iteration. -/

structure Good (c : ChatClient) : Prop where
  read : c.readBuffer.Valid
  write : c.writeBuffer.Valid

/-- The poll result that an iteration works through. -/
def polled (l : Loop) (k : Kernel) : Option (Fd → Revents) :=
  if l.control = .poll ∧ l.client.connected = true then
    match k.poll with
    | .ready revents => some revents
    | .failed _ => none
  else none

def Control.ofPart {α : Type} : Outcome Exn α → Control
  | .returned _ => .returned
  | .thrown e => .thrown e
  | .blocked => .blocked
  | .undefined => .undefined

/-- The effects of one iteration, by the part in which it ends. -/
inductive Effect (k : Kernel) (l : Loop) : Loop → List Event → Prop
  | quiet (control : Control) (unpolled : polled l k = none) : Effect k l ⟨l.client, control⟩ []
  | stdinEnds (revents : Fd → Revents) (ready : polled l k = some revents) (c₁ : ChatClient)
      (log₁ : List Event) (o : Outcome Exn Bool)
      (stdin : StdinPart k (revents stdinFileno) l.client c₁ log₁ o) (ends : o ≠ .returned true) :
      Effect k l ⟨c₁, .ofPart o⟩ log₁
  | serverEnds (revents : Fd → Revents) (ready : polled l k = some revents) (c₁ c₂ : ChatClient)
      (log₁ log₂ : List Event) (o : Outcome Exn Unit)
      (stdin : StdinPart k (revents stdinFileno) l.client c₁ log₁ (.returned true))
      (server : ServerPart k (revents l.client.clientFd.get) c₁ c₂ log₂ o)
      (ends : o ≠ .returned ()) : Effect k l ⟨c₂, .ofPart o⟩ (log₁ ++ log₂)
  | through (revents : Fd → Revents) (ready : polled l k = some revents) (c₁ c₂ c₃ : ChatClient)
      (log₁ log₂ log₃ : List Event) (o : Outcome Exn Control)
      (stdin : StdinPart k (revents stdinFileno) l.client c₁ log₁ (.returned true))
      (server : ServerPart k (revents l.client.clientFd.get) c₁ c₂ log₂ (.returned ()))
      (signal : SignalPart k (revents l.client.signalfd.get) c₂ c₃ log₃ o) :
      Effect k l ⟨c₃, .ofOutcome o⟩ (log₁ ++ (log₂ ++ log₃))

theorem StdinPart.frame {k : Kernel} {r : Revents} {c c' : ChatClient} {log : List Event}
    {o : Outcome Exn Bool} (part : StdinPart k r c c' log o) : c'.readBuffer = c.readBuffer := by
  cases part <;> rfl

theorem step_eq {l : Loop} {k : Kernel} {c : ChatClient} {log : List Event}
    {o : Outcome Exn Control} (h : stepProgram k l.control l.client = ⟨c, log, o⟩) :
    step l k = (⟨c, .ofOutcome o⟩, log) := by
  simp [step, h]

theorem stepProgram_poll {l : Loop} (k : Kernel) (at_poll : l.control = .poll) :
    stepProgram k l.control l.client = iteration k l.client := by
  simp [stepProgram, at_poll]

/-- An iteration that polled, part by part. -/
theorem effect_of_ready {k : Kernel} {l : Loop} (good : l.client.Good) (at_poll : l.control = .poll)
    (on : l.client.connected = true) {revents : Fd → Revents} (answer : k.poll = .ready revents) :
    Effect k l (step l k).1 (step l k).2 := by
  have unfolded := stepProgram_poll k at_poll
  have ready : polled l k = some revents := by simp [polled, at_poll, on, answer]
  obtain ⟨c₁, log₁, o₁, eq₁, stdin⟩ := stdinPart_cases k (revents stdinFileno) good.write
  by_cases goes_on : o₁ = .returned true
  · subst goes_on
    have valid : c₁.readBuffer.Valid := by rw [stdin.frame]; exact good.read
    obtain ⟨c₂, log₂, o₂, eq₂, server⟩ :=
      serverPart_cases k (revents l.client.clientFd.get) valid
    by_cases returned : o₂ = .returned ()
    · subst returned
      obtain ⟨c₃, log₃, o₃, eq₃, signal⟩ := signalPart_cases k (revents l.client.signalfd.get) c₂
      have eq : stepProgram k l.control l.client = ⟨c₃, log₁ ++ (log₂ ++ log₃), o₃⟩ :=
        unfolded.trans (by simp [iteration, on, answer, eq₁, eq₂, eq₃])
      rw [step_eq eq]
      exact .through revents ready c₁ c₂ c₃ log₁ log₂ log₃ o₃ stdin server signal
    · have stepped : step l k = (⟨c₂, .ofPart o₂⟩, log₁ ++ log₂) := by
        cases o₂ with
        | returned u => exact absurd rfl returned
        | _ =>
          simp [step, unfolded, iteration, on, answer, eq₁, eq₂, Control.ofOutcome,
            Control.ofPart]
      rw [stepped]
      exact .serverEnds revents ready c₁ c₂ log₁ log₂ o₂ stdin server returned
  · have stepped : step l k = (⟨c₁, .ofPart o₁⟩, log₁) := by
      cases o₁ with
      | returned b =>
        have ends : b = false := by simpa using goes_on
        simp [step, unfolded, iteration, on, answer, eq₁, ends, Control.ofOutcome, Control.ofPart]
      | _ => simp [step, unfolded, iteration, on, answer, eq₁, Control.ofOutcome, Control.ofPart]
    rw [stepped]
    exact .stdinEnds revents ready c₁ log₁ o₁ stdin goes_on

/-- Every iteration has one of the effects, whatever the kernel answers. -/
theorem step_effect (k : Kernel) (l : Loop) (good : l.client.Good) :
    Effect k l (step l k).1 (step l k).2 := by
  cases at_ : l.control with
  | poll =>
    have unfolded := stepProgram_poll k at_
    cases on : l.client.connected with
    | false =>
      have eq : stepProgram k l.control l.client = ⟨l.client, [], .returned .returned⟩ :=
        unfolded.trans (by simp [iteration, on])
      rw [step_eq eq]
      exact .quiet _ (by simp [polled, on])
    | true =>
      cases answer : k.poll with
      | failed e =>
        by_cases again : e = .EINTR
        · have eq : stepProgram k l.control l.client = ⟨l.client, [], .returned .poll⟩ :=
            unfolded.trans (by simp [iteration, on, answer, again])
          rw [step_eq eq]
          exact .quiet _ (by simp [polled, answer])
        · have eq : stepProgram k l.control l.client =
              ⟨l.client, [], .thrown (.runtimeError "poll failed")⟩ :=
            unfolded.trans (by simp [iteration, on, answer, again])
          rw [step_eq eq]
          exact .quiet _ (by simp [polled, answer])
      | ready revents => exact effect_of_ready good at_ on answer
  | returned | thrown | blocked | undefined =>
    have eq : step l k = (⟨l.client, l.control⟩, []) := by
      simp [step, stepProgram, at_, Control.ofOutcome]
    rw [eq]
    exact .quiet _ (by simp [polled, at_])

/-- One of the calls before the name line is sent fails. -/
def RunAnswers.failsEarly (a : RunAnswers) : Bool :=
  match a.socket, a.signalfd with
  | .ok _, .ok _ => a.connect.isSome || a.sigprocmask.isSome
  | _, _ => true

/-- The line with the name, as `run` sends it. -/
def nameLine (c : ChatClient) : List Byte := c.clientName ++ [newline]

/-- What a call of `run` comes to, by where it ends. -/
inductive RunEffect (a : RunAnswers) (c : ChatClient) :
    ChatClient → List Event → Outcome Exn Unit → Prop
  | connected (on : c.connected = true) :
      RunEffect a c c [] (.thrown (.logicError "client is already connected"))
  | unopened (e : Exn) (off : c.connected = false) (early : a.failsEarly = true) :
      RunEffect a c c [] (.thrown e)
  | undone (fd : Nat) (e : Exn) (off : c.connected = false) (early : a.failsEarly = true) :
      RunEffect a c c [.socket fd, .connect fd c.address.toSockaddr, .close fd] (.thrown e)
  | cut (fd sfd : Nat) (log : List Event) (e : Exn) (off : c.connected = false)
      (late : a.failsEarly = false) (signal : a.signalfd = .ok sfd)
      (short : carry c.nameLine.length a.write = none)
      (refusal : refused c.nameLine.length a.write = true) :
      RunEffect a c { c with signalfd := ⟨sfd⟩ } log (.thrown e)
  | stuck (fd sfd : Nat) (log : List Event) (off : c.connected = false)
      (late : a.failsEarly = false) (short : carry c.nameLine.length a.write = none)
      (accepted : refused c.nameLine.length a.write = false) :
      RunEffect a c { c with signalfd := ⟨sfd⟩ } log .blocked
  | done (fd sfd : Nat) (writes : List Event) (off : c.connected = false)
      (late : a.failsEarly = false) (socket : a.socket = .ok fd) (signal : a.signalfd = .ok sfd)
      (only : OnlyWrites fd writes) (all : sent fd writes = c.nameLine)
      (accepted : refused c.nameLine.length a.write = false) :
      RunEffect a c { c with clientFd := ⟨fd⟩, signalfd := ⟨sfd⟩, connected := true }
        ([.socket fd, .connect fd c.address.toSockaddr, .signalfd sfd] ++ c.signalfd.closing ++
          writes ++ c.clientFd.closing) (.returned ())

theorem run_effect (a : RunAnswers) (c : ChatClient) :
    RunEffect a c (run a c).state (run a c).events (run a c).outcome := by
  cases on : c.connected with
  | true => simpa [run, on] using RunEffect.connected on
  | false =>
    cases socket : a.socket with
    | error e =>
      simpa [run, on, createSocket, socket] using
        RunEffect.unopened _ on (by simp [RunAnswers.failsEarly, socket])
    | ok fd =>
      have undone := RunEffect.undone (a := a) (c := c) fd
      cases joined : a.connect with
      | some e =>
        have early : a.failsEarly = true := by
          cases signal : a.signalfd <;> simp [RunAnswers.failsEarly, socket, signal, joined]
        simpa [run, on, createSocket, socket, Program.unwinding, connectSocket, joined] using
          undone (.systemError (some e) "connect() failed") on early
      | none =>
        cases mask : a.sigprocmask with
        | some e =>
          have early : a.failsEarly = true := by
            cases signal : a.signalfd <;> simp [RunAnswers.failsEarly, socket, signal, mask]
          simpa [run, on, createSocket, socket, Program.unwinding, connectSocket, joined,
            setupSignalFd, openSignalFd, mask] using
            undone (.systemError (some e) "failed to block signals using sigprocmask") on early
        | none =>
          cases signal : a.signalfd with
          | error e =>
            have early : a.failsEarly = true := by simp [RunAnswers.failsEarly, socket, signal]
            simpa [run, on, createSocket, socket, Program.unwinding, connectSocket, joined,
              setupSignalFd, openSignalFd, mask, signal] using
              undone (.systemError (some e) "failed to create signalfd") on early
          | ok sfd =>
            have late : a.failsEarly = false := by
              simp [RunAnswers.failsEarly, socket, signal, joined, mask]
            have refusal :=
              writeFull_refused fd c.nameLine a.write ({ c with signalfd := ⟨sfd⟩ } : ChatClient)
            obtain ⟨log, only, ⟨rest, -, all, eq⟩ | ⟨short, -, -, eq | ⟨errno, eq⟩⟩⟩ :=
              writeFull_spec fd c.nameLine a.write ({ c with signalfd := ⟨sfd⟩ } : ChatClient)
            · have accepted : refused c.nameLine.length a.write = false := by
                simpa [eq] using refusal
              simp only [nameLine, on] at eq
              simpa [run, on, createSocket, socket, Program.unwinding, connectSocket, joined,
                setupSignalFd, openSignalFd, mask, signal, eq] using
                RunEffect.done fd sfd _ on late socket signal only all accepted
            · have accepted : refused c.nameLine.length a.write = false := by
                simpa [eq] using refusal
              simp only [nameLine, on] at eq
              simpa [run, on, createSocket, socket, Program.unwinding, connectSocket, joined,
                setupSignalFd, openSignalFd, mask, signal, eq] using
                RunEffect.stuck fd sfd _ on late short accepted
            · have turned : refused c.nameLine.length a.write = true := by
                simpa [eq] using refusal
              simp only [nameLine, on] at eq
              simpa [run, on, createSocket, socket, Program.unwinding, connectSocket, joined,
                setupSignalFd, openSignalFd, mask, signal, eq] using
                RunEffect.cut fd sfd _ _ on late signal short turned

theorem run_cases (a : RunAnswers) (c : ChatClient) :
    ∃ c' log o, run a c = ⟨c', log, o⟩ ∧ RunEffect a c c' log o :=
  ⟨_, _, _, rfl, run_effect a c⟩

end TcpChat.ChatClient
