import TcpChat.Lib.Rules
import TcpChat.Client.Lifecycle

/-! Two clients side by side, given the same inputs. What a client does depends on the live bytes
of its buffers, and not on what is behind them in memory. -/
namespace TcpChat
open Program

section
variable {S : Type} {R : S → S → Prop} {shown : Event → Bool}

/-! What does not depend on the state it runs on. -/

theorem writenLoop_agrees (fd : Fd) (n : Nat) (answers : List WriteAnswer) :
    ∀ (bytes : List Byte) {s s' : S}, R s s' →
      Agrees shown R R (writenLoop fd n bytes answers s) (writenLoop fd n bytes answers s') := by
  induction answers with
  | nil =>
    intro bytes s s' related
    cases bytes with
    | nil => exact agrees_of_same related _ _
    | cons b bs => exact agrees_of_same related _ _
  | cons answer answers ih =>
    intro bytes s s' related
    cases bytes with
    | nil => exact agrees_of_same related _ _
    | cons b bs =>
      cases answer with
      | failed e =>
        by_cases retry : e = .EINTR
        · simp only [writenLoop, if_pos retry]
          exact ih (b :: bs) related
        · simp only [writenLoop, if_neg retry]
          exact agrees_of_same related _ _
      | accepted k =>
        by_cases zero : k = 0
        · simp only [writenLoop, if_pos zero]
          exact agrees_of_same related _ _
        · simp only [writenLoop, if_neg zero]
          apply agrees_andThen (agrees_of_same related _ _)
          intro _ t t' there _
          exact ih _ there

theorem writeFull_agrees (fd : Fd) (bytes : List Byte) (answers : List WriteAnswer) {s s' : S}
    (related : R s s') :
    Agrees shown R R (writeFull fd bytes answers s) (writeFull fd bytes answers s') := by
  apply agrees_andThen (writenLoop_agrees fd bytes.length answers bytes related)
  intro r t t' there _
  by_cases short : r.value ≠ bytes.length
  · rw [if_pos short]
    exact agrees_of_same there _ _
  · rw [if_neg short]
    exact agrees_of_same there _ _

theorem readFd_agrees (fd : Fd) (answer : ReadAnswer) (nbytes : Nat) {s s' : S}
    (related : R s s') : Agrees shown R R (readFd fd answer nbytes s) (readFd fd answer nbytes s') := by
  cases reading : answer.read nbytes with
  | error e =>
    simp only [readFd, reading]
    exact agrees_of_same related _ _
  | ok bytes =>
    simp only [readFd, reading]
    exact agrees_of_same related _ _

end

namespace Buffer

/-- Two buffers with the same live bytes. -/
structure Alike (b b' : Buffer) : Prop where
  valid : b.Valid
  valid' : b'.Valid
  content : b.content = b'.content

theorem Alike.size {b b' : Buffer} (alike : Alike b b') : b.size_ = b'.size_ := by
  rw [← length_content alike.valid, ← length_content alike.valid', alike.content]

theorem Alike.freeSpace {b b' : Buffer} (alike : Alike b b') : b.freeSpace = b'.freeSpace := by
  simp only [Buffer.freeSpace, capacity, alike.size]

theorem Alike.findDelim {b b' : Buffer} (alike : Alike b b') (delim : Byte) :
    b.findDelim delim = b'.findDelim delim := by
  simp only [Buffer.findDelim, alike.content]

variable {shown : Event → Bool}

theorem compact_alike (len : Int) {b b' : Buffer} (alike : Alike b b') :
    Agrees shown Alike Alike (compact len b) (compact len b') := by
  by_cases negative : len < 0
  · simp only [compact, bind_apply, get_apply, andThen_returned_nil, if_pos negative]
    exact agrees_of_same alike _ _
  · by_cases long : len > b.size_
    · have long' : len > b'.size_ := alike.size ▸ long
      simp only [compact, bind_apply, get_apply, andThen_returned_nil, if_neg negative,
        if_pos long, if_pos long', modify_apply]
      have emptied : Alike { b with size_ := 0 } { b' with size_ := 0 } :=
        ⟨⟨le_rfl, Int.natCast_nonneg _⟩, ⟨le_rfl, Int.natCast_nonneg _⟩, rfl⟩
      exact agrees_of_same emptied _ _
    · obtain ⟨n, rfl⟩ := Int.eq_ofNat_of_zero_le (not_lt.mp negative)
      have size := length_content alike.valid
      have bound : n ≤ b.content.length := by omega
      obtain ⟨c, eq, valid, live⟩ := compact_spec alike.valid bound
      obtain ⟨c', eq', valid', live'⟩ := compact_spec alike.valid' (alike.content ▸ bound)
      rw [eq, eq']
      have next : Alike c c' := ⟨valid, valid', by rw [live, live', alike.content]⟩
      exact agrees_of_same next _ _

theorem consumeFullFdLoop_alike (fd : Fd) (delim : Byte) (fuel : Nat) :
    ∀ (answers : List WriteAnswer) {b b' : Buffer}, Alike b b' →
      Agrees shown Alike Alike (consumeFullFdLoop fd delim fuel answers b)
        (consumeFullFdLoop fd delim fuel answers b') := by
  induction fuel with
  | zero =>
    intro answers b b' alike
    exact agrees_of_same alike _ _
  | succ fuel ih =>
    intro answers b b' alike
    by_cases present : delim ∈ b.content
    · obtain ⟨_, _, _, _, bytes, found⟩ := take_first_spec alike.valid present
      obtain ⟨_, _, _, _, bytes', _⟩ := take_first_spec alike.valid' (alike.content ▸ present)
      have go_on : b.findDelim delim ≥ 0 := by omega
      rw [alike.findDelim] at bytes go_on
      rw [alike.content] at bytes
      simp only [consumeFullFdLoop, bind_apply, get_apply, andThen_returned_nil, alike.findDelim,
        if_pos go_on, bytes, bytes']
      apply agrees_andThen (writeFull_agrees fd _ answers alike)
      intro rest c c' there _
      apply agrees_andThen (compact_alike _ there)
      intro _ d d' left _
      exact ih rest left
    · have absent := findDelim_neg present
      have absent' := findDelim_neg (b := b') (alike.content ▸ present)
      simp only [consumeFullFdLoop, bind_apply, get_apply, andThen_returned_nil, absent, absent']
      exact agrees_of_same alike _ _

theorem consumeFullFd_alike (fd : Fd) (delim : Byte) (answers : List WriteAnswer) {b b' : Buffer}
    (alike : Alike b b') :
    Agrees shown Alike Alike (consumeFullFd fd delim answers b)
      (consumeFullFd fd delim answers b') := by
  simp only [consumeFullFd, bind_apply, get_apply, andThen_returned_nil, alike.size]
  exact consumeFullFdLoop_alike fd delim _ answers alike

theorem consumeFull_alike (delim : Byte) {b b' : Buffer} (alike : Alike b b') :
    Agrees shown Alike Alike (consumeFull delim b) (consumeFull delim b') := by
  obtain ⟨c, eq, valid, live⟩ := consumeFull_spec alike.valid delim
  obtain ⟨c', eq', valid', live'⟩ := consumeFull_spec alike.valid' delim
  rw [eq, eq', alike.content]
  have next : Alike c c' := ⟨valid, valid', by rw [live, live', alike.content]⟩
  exact agrees_of_same next _ _

theorem receive_alike {b b' : Buffer} (alike : Alike b b') {bytes : List Byte}
    (fits : bytes.length ≤ b.freeSpace.toNat) :
    ∃ c c', increaseSize bytes.length (b.writeAt b.size_.toNat bytes) = ⟨c, [], .returned ()⟩ ∧
      increaseSize bytes.length (b'.writeAt b'.size_.toNat bytes) = ⟨c', [], .returned ()⟩ ∧
      Alike c c' := by
  obtain ⟨c, eq, valid, live⟩ := receive_behind alike.valid fits
  obtain ⟨c', eq', valid', live'⟩ := receive_behind alike.valid' (alike.freeSpace ▸ fits)
  exact ⟨c, c', eq, eq', valid, valid', by rw [live, live', alike.content]⟩

end Buffer

namespace ChatClient

/-- The kernel's bookkeeping is not seen from outside. -/
def shown : Event → Bool
  | .close _ => false
  | _ => true

/-- Two clients that differ at most in the descriptors and in what is behind the live bytes. -/
structure Related (c c' : ChatClient) : Prop where
  connected : c.connected = c'.connected
  address : c.address = c'.address
  name : c.clientName = c'.clientName
  read : Buffer.Alike c.readBuffer c'.readBuffer
  write : Buffer.Alike c.writeBuffer c'.writeBuffer

structure SameFds (c c' : ChatClient) : Prop where
  client : c.clientFd = c'.clientFd
  signal : c.signalfd = c'.signalfd

def Twins (c c' : ChatClient) : Prop := Related c c' ∧ SameFds c c'

/-- Until it is connected, a client's descriptors do not matter. -/
def Alike (c c' : ChatClient) : Prop := Related c c' ∧ (c.connected = true → SameFds c c')

theorem filter_closing (d : ScopedFileDescriptor) : d.closing.filter shown = [] := by
  unfold ScopedFileDescriptor.closing
  split
  · rfl
  · rfl

theorem stop_alike {c c' : ChatClient} (related : Related c c') :
    Agrees shown Twins Twins (stop c) (stop c') := by
  have twins : Twins c.stopped c'.stopped :=
    ⟨⟨rfl, related.address, related.name, related.read, related.write⟩, ⟨rfl, rfl⟩⟩
  rw [stop_eq, stop_eq]
  refine ⟨?_, rfl, twins, fun _ _ => twins⟩
  simp only [stopLog, List.filter_append, filter_closing]

theorem onWriteBuffer_alike {α : Type} {p : Program Buffer Event Exn α}
    (inner : ∀ {b b' : Buffer}, Buffer.Alike b b' →
      Agrees shown Buffer.Alike Buffer.Alike (p b) (p b')) {c c' : ChatClient}
    (twins : Twins c c') :
    Agrees shown Twins Twins (onWriteBuffer p c) (onWriteBuffer p c') := by
  obtain ⟨related, fds⟩ := twins
  apply agrees_zoom (inner related.write)
  intro b b' alike
  exact ⟨⟨related.connected, related.address, related.name, related.read, alike⟩,
    ⟨fds.client, fds.signal⟩⟩

theorem onReadBuffer_alike {α : Type} {p : Program Buffer Event Exn α}
    (inner : ∀ {b b' : Buffer}, Buffer.Alike b b' →
      Agrees shown Buffer.Alike Buffer.Alike (p b) (p b')) {c c' : ChatClient}
    (twins : Twins c c') :
    Agrees shown Twins Twins (onReadBuffer p c) (onReadBuffer p c') := by
  obtain ⟨related, fds⟩ := twins
  apply agrees_zoom (inner related.read)
  intro b b' alike
  exact ⟨⟨related.connected, related.address, related.name, alike, related.write⟩,
    ⟨fds.client, fds.signal⟩⟩

theorem stdinPart_eof {k : Kernel} {r : Revents} {c : ChatClient} (ready : r.pollin = true)
    (answer : k.stdin.read c.writeBuffer.freeSpace.toNat = .ok []) :
    stdinPart k r c =
      andThen ⟨c, [.read stdinFileno []], .returned ()⟩ fun _ => stop >>= fun _ => pure false := by
  simp [stdinPart, ready, readFd, answer, onWriteBuffer, Program.zoom, Buffer.writeAt_nil]

theorem stdinPart_received {k : Kernel} {r : Revents} {c : ChatClient} {bytes : List Byte}
    {b : Buffer} (ready : r.pollin = true)
    (answer : k.stdin.read c.writeBuffer.freeSpace.toNat = .ok bytes) (nonempty : bytes ≠ [])
    (counted : Buffer.increaseSize bytes.length
      (c.writeBuffer.writeAt c.writeBuffer.size_.toNat bytes) = ⟨b, [], .returned ()⟩) :
    stdinPart k r c =
      andThen ⟨{ c with writeBuffer := b }, [.read stdinFileno bytes], .returned ()⟩ fun _ =>
        onWriteBuffer (Buffer.consumeFullFd c.clientFd.get newline k.write) >>= fun _ =>
          pure true := by
  simp [stdinPart, ready, readFd, answer, onWriteBuffer, Program.zoom, nonempty, Buffer.size,
    counted]

theorem stdinPart_alike (k : Kernel) (r : Revents) {c c' : ChatClient} (twins : Twins c c') :
    Agrees shown Twins Twins (stdinPart k r c) (stdinPart k r c') := by
  obtain ⟨related, fds⟩ := twins
  cases ready : r.pollin with
  | false =>
    simp only [stdinPart, ready]
    exact agrees_of_same ⟨related, fds⟩ _ _
  | true =>
    have room := related.write.freeSpace
    cases answer : k.stdin.read c.writeBuffer.freeSpace.toNat with
    | error e =>
      have answer' := room ▸ answer
      simp only [stdinPart, ready, readFd, answer, answer', if_true, bind_apply, get_apply,
        emit_apply, andThen_returned, throw_apply, andThen_thrown]
      exact agrees_of_same ⟨related, fds⟩ _ _
    | ok bytes =>
      have answer' := room ▸ answer
      have fits := ReadAnswer.read_length answer
      by_cases empty : bytes = []
      · subst empty
        rw [stdinPart_eof ready answer, stdinPart_eof ready answer']
        apply agrees_andThen (agrees_of_same ⟨related, fds⟩ _ _)
        intro _ d d' twins _
        apply agrees_andThen (stop_alike twins.1)
        intro _ e e' twins _
        exact agrees_of_same twins _ _
      · obtain ⟨b, b', counted, counted', alike⟩ := Buffer.receive_alike related.write fits
        rw [stdinPart_received ready answer empty counted,
          stdinPart_received ready answer' empty counted']
        have twins : Twins { c with writeBuffer := b } { c' with writeBuffer := b' } :=
          ⟨⟨related.connected, related.address, related.name, related.read, alike⟩,
            ⟨fds.client, fds.signal⟩⟩
        apply agrees_andThen (agrees_of_same twins _ _)
        intro _ d d' twins _
        rw [fds.client]
        apply agrees_andThen (onWriteBuffer_alike (Buffer.consumeFullFd_alike _ _ _) twins)
        intro _ e e' twins _
        exact agrees_of_same twins _ _

theorem serverPart_received {k : Kernel} {r : Revents} {c : ChatClient} {bytes : List Byte}
    {b : Buffer} (ready : r.pollin = true)
    (answer : k.server.read c.readBuffer.freeSpace.toNat = .ok bytes)
    (counted : Buffer.increaseSize bytes.length
      (c.readBuffer.writeAt c.readBuffer.size_.toNat bytes) = ⟨b, [], .returned ()⟩) :
    serverPart k r c =
      andThen ⟨{ c with readBuffer := b }, [.read c.clientFd.get bytes], .returned ()⟩ fun _ =>
        onReadBuffer (Buffer.consumeFull newline) >>= fun serverMessages =>
          if serverMessages.length > 0 then emit [.print serverMessages] else pure () := by
  simp [serverPart, ready, readFd, answer, onReadBuffer, Program.zoom, Buffer.size, counted]

theorem serverPart_alike (k : Kernel) (r : Revents) {c c' : ChatClient} (twins : Twins c c') :
    Agrees shown Twins Twins (serverPart k r c) (serverPart k r c') := by
  obtain ⟨related, fds⟩ := twins
  cases ready : r.pollin with
  | false =>
    simp only [serverPart, ready]
    exact agrees_of_same ⟨related, fds⟩ _ _
  | true =>
    have room := related.read.freeSpace
    cases answer : k.server.read c.readBuffer.freeSpace.toNat with
    | error e =>
      have answer' := room ▸ answer
      simp only [serverPart, ready, readFd, answer, answer', if_true, bind_apply, get_apply,
        emit_apply, andThen_returned, throw_apply, andThen_thrown, fds.client]
      exact agrees_of_same ⟨related, fds⟩ _ _
    | ok bytes =>
      have answer' := room ▸ answer
      have fits := ReadAnswer.read_length answer
      obtain ⟨b, b', counted, counted', alike⟩ := Buffer.receive_alike related.read fits
      rw [serverPart_received ready answer counted, serverPart_received ready answer' counted']
      have twins : Twins { c with readBuffer := b } { c' with readBuffer := b' } :=
        ⟨⟨related.connected, related.address, related.name, alike, related.write⟩,
          ⟨fds.client, fds.signal⟩⟩
      have socket : c.clientFd.get = c'.clientFd.get := congrArg _ fds.client
      rw [socket]
      apply agrees_andThen (agrees_of_same twins _ _)
      intro _ d d' twins _
      apply agrees_andThen (onReadBuffer_alike (Buffer.consumeFull_alike _) twins)
      intro messages e e' twins _
      by_cases some : messages.length > 0
      · rw [if_pos some]
        exact agrees_of_same twins _ _
      · rw [if_neg some]
        exact agrees_of_same twins _ _

theorem signalPart_alike (k : Kernel) (r : Revents) {c c' : ChatClient} (twins : Twins c c') :
    Agrees shown Twins Twins (signalPart k r c) (signalPart k r c') := by
  cases ready : r.pollin with
  | false =>
    simp only [signalPart, ready]
    exact agrees_of_same twins _ _
  | true =>
    simp only [signalPart, ready, if_true, bind_apply, get_apply, andThen_returned_nil,
      twins.2.signal]
    apply agrees_andThen (readFd_agrees _ k.signal siginfoSize twins)
    intro siginfo d d' twins _
    by_cases short : siginfo.length ≠ siginfoSize
    · rw [if_pos short]
      exact agrees_of_same twins _ _
    · rw [if_neg short]
      apply agrees_andThen (stop_alike twins.1)
      intro _ e e' twins _
      exact agrees_of_same twins _ _

theorem iteration_alike (k : Kernel) {c c' : ChatClient} (alike : Alike c c') :
    Agrees shown Alike Alike (iteration k c) (iteration k c') := by
  obtain ⟨related, fds⟩ := alike
  cases on : c.connected with
  | false =>
    have on' := related.connected ▸ on
    simp only [iteration, bind_apply, get_apply, andThen_returned_nil, on, on', if_true]
    exact agrees_of_same ⟨related, fds⟩ _ _
  | true =>
    have on' := related.connected ▸ on
    have twins : Twins c c' := ⟨related, fds on⟩
    cases answer : k.poll with
    | failed e =>
      simp only [iteration, bind_apply, get_apply, andThen_returned_nil, on, on', answer]
      by_cases again : e = .EINTR
      · simp only [if_pos again]
        exact agrees_of_same ⟨related, fds⟩ _ _
      · simp only [if_neg again]
        exact agrees_of_same ⟨related, fds⟩ _ _
    | ready revents =>
      have through : Agrees shown Twins Twins (iteration k c) (iteration k c') := by
        simp only [iteration, bind_apply, get_apply, andThen_returned_nil, on, on', answer,
          twins.2.client, twins.2.signal]
        apply agrees_andThen (stdinPart_alike k _ twins)
        intro goesOn d d' twins _
        cases goesOn with
        | false => exact agrees_of_same twins _ _
        | true =>
          apply agrees_andThen (serverPart_alike k _ twins)
          intro _ e e' twins _
          exact signalPart_alike k _ twins
      have forget {d d' : ChatClient} (twins : Twins d d') : Alike d d' :=
        ⟨twins.1, fun _ => twins.2⟩
      exact ⟨through.events, through.outcome, forget through.states,
        fun _ _ => forget through.states⟩

/-- Loops at the same point, on clients that are alike. -/
def SameLoop (l l' : Loop) : Prop := l.control = l'.control ∧ Alike l.client l'.client

theorem step_alike (l l' : Loop) (k : Kernel) (same : SameLoop l l') :
    (step l k).2.filter shown = (step l' k).2.filter shown ∧
      SameLoop (step l k).1 (step l' k).1 := by
  obtain ⟨control, alike⟩ := same
  have agrees : Agrees shown Alike Alike (stepProgram k l.control l.client)
      (stepProgram k l'.control l'.client) := by
    rw [← control]
    cases at_ : l.control with
    | poll => exact iteration_alike k alike
    | returned | thrown | blocked | undefined => exact agrees_of_same alike _ _
  exact ⟨agrees.events, congrArg Control.ofOutcome agrees.outcome, agrees.states⟩

/-! `run`. -/

theorem createSocket_alike (answer : Except Errno Nat) {c c' : ChatClient} (alike : Alike c c') :
    Agrees shown Alike Alike (createSocket answer c) (createSocket answer c') := by
  cases answer with
  | error e => exact agrees_of_same alike _ _
  | ok fd => exact agrees_of_same alike _ _

theorem connectSocket_alike (fd : Fd) (sa : SockaddrIn) (answer : Option Errno) {c c' : ChatClient}
    (alike : Alike c c') :
    Agrees shown Alike Alike (connectSocket fd sa answer c) (connectSocket fd sa answer c') := by
  simp only [connectSocket, bind_apply, emit_apply, andThen_returned]
  cases answer with
  | some e => exact agrees_of_same alike _ _
  | none => exact agrees_of_same alike _ _

def SameSignal (c c' : ChatClient) : Prop := c.signalfd = c'.signalfd

theorem openSignalFd_alike (a : RunAnswers) {c c' : ChatClient} (alike : Alike c c') :
    Agrees shown Alike Alike (openSignalFd a.sigprocmask a.signalfd c)
      (openSignalFd a.sigprocmask a.signalfd c') := by
  cases mask : a.sigprocmask with
  | some e => exact agrees_of_same alike _ _
  | none =>
    cases signal : a.signalfd with
    | error e => exact agrees_of_same alike _ _
    | ok fd => exact agrees_of_same alike _ _

theorem setupSignalFd_alike (a : RunAnswers) {c c' : ChatClient} (alike : Alike c c') :
    Agrees shown Alike SameSignal (setupSignalFd a c) (setupSignalFd a c') := by
  apply agrees_andThen (openSignalFd_alike a alike)
  intro fd d d' ⟨related, fds⟩ _
  have next : Alike { d with signalfd := ⟨fd⟩ } { d' with signalfd := ⟨fd⟩ } :=
    ⟨⟨related.connected, related.address, related.name, related.read, related.write⟩,
      fun on => ⟨(fds on).client, rfl⟩⟩
  refine ⟨?_, rfl, next, fun _ _ => rfl⟩
  simp only [bind_apply, get_apply, emit_apply, andThen_returned, modify_apply,
    List.filter_append, filter_closing]

theorem agrees_both {α : Type} {r r' : Result ChatClient Event Exn α}
    (both : Agrees shown (fun c c' => Alike c c' ∧ SameSignal c c')
      (fun c c' => Alike c c' ∧ SameSignal c c') r r') : Agrees shown Alike SameSignal r r' :=
  ⟨both.events, both.outcome, both.states.1, fun _ _ => both.states.2⟩

theorem run_alike (a : RunAnswers) {c c' : ChatClient} (alike : Alike c c') :
    Agrees shown Alike Alike (run a c) (run a c') := by
  cases on : c.connected with
  | true =>
    have on' := alike.1.connected ▸ on
    simp only [run, bind_apply, get_apply, andThen_returned_nil, on, on', if_true]
    exact agrees_of_same alike _ _
  | false =>
    have on' := alike.1.connected ▸ on
    simp only [run, bind_apply, get_apply, andThen_returned_nil, on, on', alike.1.address,
      alike.1.name]
    apply agrees_andThen (createSocket_alike a.socket alike)
    intro tempSocket d d' alike _
    apply agrees_unwinding
    apply agrees_andThen (connectSocket_alike _ _ _ alike)
    intro _ e e' alike _
    apply agrees_andThen (setupSignalFd_alike a alike)
    intro _ f f' alike signal
    have written : Agrees shown Alike SameSignal
        (writeFull tempSocket (c'.clientName ++ [newline]) a.write f)
        (writeFull tempSocket (c'.clientName ++ [newline]) a.write f') :=
      agrees_both (writeFull_agrees _ _ _ ⟨alike, signal⟩)
    apply agrees_andThen written
    intro _ g g' both signal
    have related := both.1
    have next : Alike { g with clientFd := ⟨tempSocket⟩, connected := true }
        { g' with clientFd := ⟨tempSocket⟩, connected := true } :=
      ⟨⟨rfl, related.address, related.name, related.read, related.write⟩,
        fun _ => ⟨rfl, signal⟩⟩
    refine ⟨?_, rfl, next, fun _ _ => next⟩
    simp only [bind_apply, emit_apply, andThen_returned, modify_apply, List.filter_append,
      filter_closing]

theorem setName_alike (name : List Byte) {c c' : ChatClient} (alike : Alike c c') :
    Agrees shown Alike Alike (setName name c) (setName name c') := by
  unfold setName
  by_cases empty : name = []
  · rw [if_pos empty]
    exact agrees_of_same alike _ _
  · rw [if_neg empty]
    by_cases long : name.length > maxNameLen
    · rw [if_pos long]
      exact agrees_of_same alike _ _
    · rw [if_neg long]
      have next : Alike { c with clientName := name } { c' with clientName := name } :=
        ⟨⟨alike.1.connected, alike.1.address, rfl, alike.1.read, alike.1.write⟩,
          fun on => ⟨(alike.2 on).client, (alike.2 on).signal⟩⟩
      exact agrees_of_same next _ _

theorem eventLoop_alike {c c' : ChatClient} (alike : Alike c c') :
    SameLoop (eventLoop c) (eventLoop c') := by
  refine ⟨?_, alike⟩
  simp only [eventLoop, alike.1.connected]

theorem call_alike (c c' : ChatClient) (a : Call) (alike : Alike c c') :
    (call c a).2.filter shown = (call c' a).2.filter shown ∧
      Alike (call c a).1 (call c' a).1 := by
  cases a with
  | setName name =>
    have agrees := setName_alike name alike
    exact ⟨agrees.events, agrees.states⟩
  | run answers =>
    have agrees := run_alike answers alike
    exact ⟨agrees.events, agrees.states⟩
  | eventLoop kernels =>
    obtain ⟨events, _, states⟩ := Machine.run_agrees step_alike kernels (eventLoop_alike alike)
    exact ⟨events, states⟩
  | stop =>
    have agrees := stop_alike alike.1
    exact ⟨agrees.events, agrees.states.1, fun _ => agrees.states.2⟩

/-! What is seen of a session. -/

theorem flatMap_shown {f : Event → List Byte} (closes : ∀ fd, f (.close fd) = [])
    (log : List Event) : (log.filter shown).flatMap f = log.flatMap f := by
  induction log with
  | nil => rfl
  | cons e log ih =>
    cases e with
    | close fd => simpa [List.filter_cons, shown, closes] using ih
    | _ => simp [List.filter_cons, shown, ih]

theorem seen_of_shown {log log' : List Event} (same : log.filter shown = log'.filter shown) :
    (∀ fd, sent fd log = sent fd log') ∧ printed log = printed log' := by
  constructor
  · intro fd
    have closes : ∀ y, Event.sentTo fd (.close y) = [] := fun _ => rfl
    exact (flatMap_shown closes log).symm.trans
      ((congrArg (List.flatMap (Event.sentTo fd)) same).trans (flatMap_shown closes log'))
  · have closes : ∀ y, Event.printed (.close y) = [] := fun _ => rfl
    exact (flatMap_shown closes log).symm.trans
      ((congrArg (List.flatMap Event.printed) same).trans (flatMap_shown closes log'))

end ChatClient
end TcpChat
