import TcpChat.Client.Lifecycle

/-! What an iteration gets done, and why it stops. The loop looks at `POLLIN` alone, and takes a
read of nothing for data from the server and for the end of stdin. -/
namespace TcpChat.ChatClient
open Machine

def watched (c : ChatClient) : List Fd := [stdinFileno, c.clientFd.get, c.signalfd.get]

/-- Stdin has nothing to report, or bytes whose complete lines the writes take. -/
def PassesStdin (c : ChatClient) (k : Kernel) (r : Revents) : Prop :=
  r.pollin = true → ∃ bytes ∈ (k.stdin.read c.writeBuffer.freeSpace.toNat).toOption,
    bytes ≠ [] ∧
      (carryEach (Framing.frames newline (c.writeBuffer.content ++ bytes)) k.write).isSome

/-- The server has nothing to report, or anything but an error. -/
def PassesServer (b : Buffer) (k : Kernel) (r : Revents) : Prop :=
  r.pollin = true → (k.server.read b.freeSpace.toNat).isOk = true

theorem StdinPart.passes_iff {k : Kernel} {r : Revents} {c c' : ChatClient} {log : List Event}
    {o : Outcome Exn Bool} (part : StdinPart k r c c' log o) :
    o = .returned true ↔ PassesStdin c k r := by
  unfold PassesStdin
  cases part with
  | idle unready => simp [unready]
  | eof ready nothing => simp [ready, nothing, Except.toOption]
  | readFailed e ready failed => simp [ready, failed, Except.toOption]
  | forwarded bytes b writes ready answer nonempty valid only content all carried =>
    simp only [true_iff]
    intro _
    exact ⟨bytes, by simp [answer, Except.toOption], nonempty, carried⟩
  | stuck bytes b writes _ ready answer nonempty valid only ends short =>
    constructor
    · rintro rfl
      rcases ends with blocked | ⟨errno, thrown⟩
      · cases blocked
      · cases thrown
    · intro passes
      obtain ⟨bytes', member, _, carried⟩ := passes ready
      have same : bytes = bytes' := by simpa [answer, Except.toOption] using member
      subst same
      rw [short] at carried
      cases carried

theorem ServerPart.passes_iff {k : Kernel} {r : Revents} {c c' : ChatClient} {log : List Event}
    {o : Outcome Exn Unit} (part : ServerPart k r c c' log o) :
    o = .returned () ↔ PassesServer c.readBuffer k r := by
  unfold PassesServer
  cases part with
  | idle unready => simp [unready]
  | readFailed e ready failed => simp [ready, failed, Except.isOk, Except.toBool]
  | received bytes b ready answer => simp [answer, Except.isOk, Except.toBool]

theorem Control.ofPart_ne_poll {α : Type} (o : Outcome Exn α) : Control.ofPart o ≠ .poll := by
  cases o with
  | _ => exact nofun

theorem SignalPart.poll_iff {k : Kernel} {r : Revents} {c c' : ChatClient} {log : List Event}
    {o : Outcome Exn Control} (part : SignalPart k r c c' log o) :
    Control.ofOutcome o = .poll ↔ r.pollin = false := by
  cases part with
  | idle unready => simp [unready, Control.ofOutcome]
  | stop siginfo ready => simp [ready, Control.ofOutcome]
  | partly siginfo ready => simp [ready, Control.ofOutcome]
  | readFailed e ready => simp [ready, Control.ofOutcome]

/-- The inputs on which an iteration comes round to `poll` again. -/
def GoesRound (c : ChatClient) (k : Kernel) (revents : Fd → Revents) : Prop :=
  PassesStdin c k (revents stdinFileno) ∧ PassesServer c.readBuffer k (revents c.clientFd.get) ∧
    (revents c.signalfd.get).pollin = false

theorem goesRound_of_effect {k : Kernel} {l l' : Loop} {more : List Event}
    (effect : Effect k l l' more) {revents : Fd → Revents} (ready : polled l k = some revents) :
    l'.control = .poll ↔ GoesRound l.client k revents := by
  cases effect with
  | quiet control unpolled => rw [unpolled] at ready; cases ready
  | stdinEnds revents' ready' c₁ log₁ o stdin ends =>
    obtain rfl : revents' = revents := Option.some.inj (ready'.symm.trans ready)
    constructor
    · exact fun polls => absurd polls (Control.ofPart_ne_poll o)
    · exact fun round => absurd (stdin.passes_iff.mpr round.1) ends
  | serverEnds revents' ready' c₁ c₂ log₁ log₂ o stdin server ends =>
    obtain rfl : revents' = revents := Option.some.inj (ready'.symm.trans ready)
    have passes : o = .returned () ↔ PassesServer l.client.readBuffer k _ :=
      stdin.frame ▸ server.passes_iff
    constructor
    · exact fun polls => absurd polls (Control.ofPart_ne_poll o)
    · exact fun round => absurd (passes.mpr round.2.1) ends
  | through revents' ready' c₁ c₂ c₃ log₁ log₂ log₃ o stdin server signal =>
    obtain rfl : revents' = revents := Option.some.inj (ready'.symm.trans ready)
    have passes : _ ↔ PassesServer l.client.readBuffer k _ := stdin.frame ▸ server.passes_iff
    constructor
    · exact fun polls => ⟨stdin.passes_iff.mp rfl, passes.mp rfl, signal.poll_iff.mp polls⟩
    · exact fun round => signal.poll_iff.mpr round.2.2

/-! Progress. -/

def Event.takes : Event → Bool
  | .read _ (_ :: _) => true
  | _ => false

def Consumes (log : List Event) : Prop := ∃ e ∈ log, Event.takes e = true

theorem consumes_append (log more : List Event) :
    Consumes (log ++ more) ↔ Consumes log ∨ Consumes more := by
  simp only [Consumes, List.mem_append, or_and_right, exists_or]

theorem consumes_read (fd : Fd) (bytes : List Byte) :
    Consumes [.read fd bytes] ↔ bytes ≠ [] := by
  cases bytes with
  | nil => simp [Consumes, Event.takes]
  | cons b bs => simp [Consumes, Event.takes]

theorem not_consumes_printLog (text : List Byte) : ¬ Consumes (printLog text) := by
  unfold printLog
  split
  · simp [Consumes]
  · simp [Consumes, Event.takes]

theorem StdinPart.consumes_iff {k : Kernel} {r : Revents} {c c' : ChatClient} {log : List Event}
    (part : StdinPart k r c c' log (.returned true)) : Consumes log ↔ r.pollin = true := by
  cases part with
  | idle unready => simp [Consumes, unready]
  | forwarded bytes b writes ready answer nonempty valid only =>
    rw [← List.singleton_append, consumes_append, consumes_read]
    simp [ready, nonempty]
  | stuck bytes b writes _ ready answer nonempty valid only ends =>
    rcases ends with blocked | ⟨errno, thrown⟩
    · cases blocked
    · cases thrown

def ServerBrings (b : Buffer) (k : Kernel) (r : Revents) : Prop :=
  r.pollin = true ∧ 0 < b.freeSpace ∧ k.server ≠ .eof

theorem ServerPart.consumes_iff {k : Kernel} {r : Revents} {c c' : ChatClient} {log : List Event}
    (part : ServerPart k r c c' log (.returned ())) :
    Consumes log ↔ ServerBrings c.readBuffer k r := by
  unfold ServerBrings
  cases part with
  | idle unready => simp [Consumes, unready]
  | received bytes b ready answer =>
    rw [← List.singleton_append, consumes_append, consumes_read]
    simp only [not_consumes_printLog, or_false, ready, true_and]
    have nothing : bytes = [] ↔ c.readBuffer.freeSpace.toNat = 0 ∨ k.server = .eof := by
      rw [← ReadAnswer.read_eq_nil_iff, answer, Except.ok.injEq]
    rw [Ne, nothing, not_or]
    apply and_congr_left'
    omega

theorem passes_of_not_brings {b : Buffer} {k : Kernel} {r : Revents}
    (nothing : ¬ ServerBrings b k r) : PassesServer b k r := by
  intro ready
  cases answer : k.server.read b.freeSpace.toNat with
  | ok bytes => rfl
  | error e =>
    refine absurd ⟨ready, ?_, ?_⟩ nothing
    · by_contra full
      have zero : b.freeSpace.toNat = 0 := by omega
      simp [ReadAnswer.read, zero] at answer
    · intro eof
      rw [(ReadAnswer.read_eq_nil_iff _ _).mpr (.inr eof)] at answer
      cases answer

def CanMove (c : ChatClient) (k : Kernel) (revents : Fd → Revents) : Prop :=
  (revents stdinFileno).pollin = true ∨ (revents c.signalfd.get).pollin = true ∨
    ServerBrings c.readBuffer k (revents c.clientFd.get)

theorem goesRound_of_not_canMove {c : ChatClient} {k : Kernel} {revents : Fd → Revents}
    (still : ¬ CanMove c k revents) : GoesRound c k revents := by
  simp only [CanMove, not_or, Bool.not_eq_true] at still
  obtain ⟨noInput, noSignal, noBytes⟩ := still
  refine ⟨?_, passes_of_not_brings noBytes, noSignal⟩
  intro input
  exact absurd (noInput.symm.trans input) (by decide)

theorem moves_of_effect {k : Kernel} {l l' : Loop} {more : List Event}
    (effect : Effect k l l' more) {revents : Fd → Revents} (ready : polled l k = some revents) :
    Consumes more ∨ l'.control ≠ .poll ↔ CanMove l.client k revents := by
  have round := goesRound_of_effect effect ready
  by_cases polls : l'.control = .poll
  · cases effect with
    | quiet control unpolled => rw [unpolled] at ready; cases ready
    | stdinEnds _ _ c₁ log₁ o => exact absurd polls (Control.ofPart_ne_poll o)
    | serverEnds _ _ c₁ c₂ log₁ log₂ o => exact absurd polls (Control.ofPart_ne_poll o)
    | through revents' ready' c₁ c₂ c₃ log₁ log₂ log₃ o stdin server signal =>
      obtain rfl : revents' = revents := Option.some.inj (ready'.symm.trans ready)
      have back : Control.ofOutcome o = .poll := polls
      have quiet := signal.poll_iff.mp back
      have none : log₃ = [] := by
        cases signal with
        | idle => rfl
        | stop siginfo ready => exact absurd (quiet.symm.trans ready) (by decide)
        | partly siginfo ready => exact absurd (quiet.symm.trans ready) (by decide)
        | readFailed e ready => exact absurd (quiet.symm.trans ready) (by decide)
      unfold CanMove
      rw [none, List.append_nil, consumes_append, stdin.consumes_iff, server.consumes_iff,
        stdin.frame]
      simp [back, quiet]
  · have moves : CanMove l.client k revents :=
      by_contra fun still => polls (round.mpr (goesRound_of_not_canMove still))
    exact iff_of_true (.inr polls) moves

/-! The end of the server's stream. -/

theorem read_not_mem_writes {fd : Fd} {log : List Event} (only : OnlyWrites fd log) (y : Fd)
    (bytes : List Byte) : .read y bytes ∉ log := by
  intro member
  cases only _ member with
  | inl wrote => obtain ⟨_, eq⟩ := wrote; cases eq
  | inr wrote => obtain ⟨_, eq⟩ := wrote; cases eq

theorem read_not_mem_closing (d : ScopedFileDescriptor) (y : Fd) (bytes : List Byte) :
    .read y bytes ∉ d.closing := by
  unfold ScopedFileDescriptor.closing
  split
  · simp
  · simp

theorem read_not_mem_stopLog (c : ChatClient) (y : Fd) (bytes : List Byte) :
    .read y bytes ∉ c.stopLog := by
  unfold stopLog
  simp only [List.mem_append, read_not_mem_closing, or_self, not_false_eq_true]

theorem StdinPart.reads {k : Kernel} {r : Revents} {c c' : ChatClient} {log : List Event}
    {o : Outcome Exn Bool} (part : StdinPart k r c c' log o) {y : Fd} {bytes : List Byte}
    (member : .read y bytes ∈ log) : y = stdinFileno := by
  cases part with
  | idle => cases member
  | eof =>
    simp only [List.mem_cons, Event.read.injEq, read_not_mem_stopLog, or_false] at member
    exact member.1
  | readFailed e => simp at member
  | forwarded _ _ _ ready answer nonempty valid only =>
    simp only [List.mem_cons, Event.read.injEq, read_not_mem_writes only, or_false] at member
    exact member.1
  | stuck _ _ _ _ ready answer nonempty valid only =>
    simp only [List.mem_cons, Event.read.injEq, read_not_mem_writes only, or_false] at member
    exact member.1

theorem SignalPart.reads {k : Kernel} {r : Revents} {c c' : ChatClient} {log : List Event}
    {o : Outcome Exn Control} (part : SignalPart k r c c' log o) {y : Fd} {bytes : List Byte}
    (member : .read y bytes ∈ log) : y = c.signalfd.get := by
  cases part with
  | idle => cases member
  | stop siginfo =>
    simp only [List.mem_cons, Event.read.injEq, read_not_mem_stopLog, or_false] at member
    exact member.1
  | partly siginfo =>
    simp only [List.mem_singleton, Event.read.injEq] at member
    exact member.1
  | readFailed e => simp at member

def SignalWhole (k : Kernel) : Prop :=
  ∃ siginfo ∈ (k.signal.read siginfoSize).toOption, siginfo.length = siginfoSize

theorem SignalPart.off_iff {k : Kernel} {r : Revents} {c c' : ChatClient} {log : List Event}
    {o : Outcome Exn Control} (part : SignalPart k r c c' log o) (on : c.connected = true) :
    c'.connected = false ↔ r.pollin = true ∧ SignalWhole k := by
  unfold SignalWhole
  cases part with
  | idle unready => simp [on, unready]
  | stop siginfo ready answer whole => simp [stopped, ready, answer, whole, Except.toOption]
  | partly siginfo ready answer short => simp [on, answer, short, Except.toOption]
  | readFailed e ready failed => simp [on, failed, Except.toOption]

theorem ServerPart.reads_eof {k : Kernel} {r : Revents} {c c' : ChatClient} {log : List Event}
    (part : ServerPart k r c c' log (.returned ())) (closed : k.server = .eof) :
    .read c.clientFd.get [] ∈ log ↔ r.pollin = true := by
  cases part with
  | idle unready => simp [unready]
  | received bytes b ready answer =>
    have nothing := (ReadAnswer.read_eq_nil_iff k.server c.readBuffer.freeSpace.toNat).mpr
      (.inr closed)
    obtain rfl : bytes = [] := Except.ok.inj (answer.symm.trans nothing)
    simp [ready]

/-- After the end of the server's stream the client is connected unless a signal comes in the
same iteration. -/
theorem eof_of_effect {fd sfd : Fd} {k : Kernel} {l l' : Loop} {more : List Event}
    (effect : Effect k l l' more) (wired : Wired fd sfd l) (distinct : Distinct fd sfd)
    {revents : Fd → Revents} (ready : polled l k = some revents) (closed : k.server = .eof) :
    (.read l.client.clientFd.get [] ∈ more → l'.client.connected = false) ↔
      ((revents l.client.clientFd.get).pollin = true →
        PassesStdin l.client k (revents stdinFileno) →
        (revents l.client.signalfd.get).pollin = true ∧ SignalWhole k) := by
  have on := connected_of_polled ready
  obtain ⟨here, watched⟩ := wired.wired on
  cases effect with
  | quiet control unpolled => rw [unpolled] at ready; cases ready
  | stdinEnds revents' ready' c₁ log₁ o stdin ends =>
    obtain rfl : revents' = revents := Option.some.inj (ready'.symm.trans ready)
    constructor
    · exact fun _ _ passes => absurd (stdin.passes_iff.mpr passes) ends
    · exact fun _ member => absurd (here.symm.trans (stdin.reads member)) distinct.socket
  | serverEnds revents' ready' c₁ c₂ log₁ log₂ o stdin server ends =>
    refine absurd (server.passes_iff.mpr fun _ => ?_) ends
    rw [(ReadAnswer.read_eq_nil_iff _ _).mpr (.inr closed)]
    rfl
  | through revents' ready' c₁ c₂ c₃ log₁ log₂ log₃ o stdin server signal =>
    obtain rfl : revents' = revents := Option.some.inj (ready'.symm.trans ready)
    have same : SameWires l.client c₁ := stdin.wires.resolve_right (by simp)
    have kept := server.wires
    have read : .read l.client.clientFd.get [] ∈ log₁ ++ (log₂ ++ log₃) ↔
        (revents' l.client.clientFd.get).pollin = true := by
      have first : .read l.client.clientFd.get [] ∉ log₁ := fun member =>
        distinct.socket (here.symm.trans (stdin.reads member))
      have third : .read l.client.clientFd.get [] ∉ log₃ := by
        intro member
        have at_signal : c₂.signalfd.get = sfd := by rw [kept.signal, same.signal]; exact watched
        exact distinct.both (at_signal.symm.trans ((signal.reads member).symm.trans here))
      have second := server.reads_eof closed
      rw [same.client] at second
      simp only [List.mem_append, first, second, third, false_or, or_false]
    have off := signal.off_iff (by rw [kept.connected, same.connected]; exact on)
    have passes := stdin.passes_iff.mp rfl
    rw [read, off]
    simp only [passes, true_imp_iff]

/-! Iterations that get nowhere. -/

def SomeReady (c : ChatClient) (revents : Fd → Revents) : Prop :=
  ∃ y ∈ c.watched, (revents y).nonzero = true

def HungUp (c : ChatClient) (revents : Fd → Revents) : Prop :=
  ∃ y ∈ c.watched, (revents y).failed = true ∧ (revents y).pollin = false

/-- An iteration with something ready consumes a byte or does not come round to `poll` again;
the end of the server's stream disconnects, and no hang-up is passed over. -/
def NeverSpins (l : Loop) (k : Kernel) : Prop :=
  ∀ revents ∈ polled l k,
    (l.client.SomeReady revents → Consumes (step l k).2 ∨ (step l k).1.control ≠ .poll) ∧
    (k.server = .eof → .read l.client.clientFd.get [] ∈ (step l k).2 →
      (step l k).1.client.connected = false) ∧
    (l.client.HungUp revents → (step l k).1.control ≠ .poll)

/-- What is ready is stdin, a signal, or bytes of the server for which there is room; the server
closes only when a signal comes too, and hangs up only when some part leaves the loop. -/
def HeardOut (l : Loop) (k : Kernel) : Prop :=
  ∀ revents ∈ polled l k,
    (l.client.SomeReady revents → l.client.CanMove k revents) ∧
    (k.server = .eof → (revents l.client.clientFd.get).pollin = true →
      PassesStdin l.client k (revents stdinFileno) →
      (revents l.client.signalfd.get).pollin = true ∧ SignalWhole k) ∧
    (l.client.HungUp revents → ¬ l.client.GoesRound k revents)

theorem neverSpins_iff_heardOut {fd sfd : Fd} {l : Loop} (k : Kernel) (wired : Wired fd sfd l)
    (distinct : Distinct fd sfd) : NeverSpins l k ↔ HeardOut l k := by
  have effect := step_effect k l wired.good
  apply forall₂_congr
  intro revents ready
  have ready : polled l k = some revents := ready
  apply and_congr
  · exact imp_congr_right fun _ => moves_of_effect effect ready
  · apply and_congr
    · exact forall_congr' fun closed => eof_of_effect effect wired distinct ready closed
    · exact imp_congr_right fun _ => not_congr (goesRound_of_effect effect ready)

theorem Session.along_congr {s : Session} {C D : Loop → Kernel → Prop}
    (same : ∀ sfd l k, Wired s.fd sfd l → Distinct s.fd sfd → (C l k ↔ D l k)) :
    s.Along C ↔ s.Along D := by
  obtain ⟨sfd, distinct, wired, _⟩ := start_spec s
  exact Machine.along_congr (fun l k h => same sfd l k h distinct)
    (fun l k h (_ : True) => wired_step k h) wired (along_of_forall (fun _ _ => trivial) _ _)

theorem neverSpins_iff_of_apart (l : Loop) (k : Kernel) (apart : l.client.Apart) :
    NeverSpins l k ↔ HeardOut l k := by
  cases on : l.client.connected with
  | true => exact neverSpins_iff_heardOut k (wired_self apart.good) (apart.distinct on)
  | false =>
    have unpolled : polled l k = none := by simp [polled, on]
    simp [NeverSpins, HeardOut, unpolled]

/-- The sessions that never spin are those in which no iteration meets only the end of the
server's stream, a full `read_buffer` or a hang-up; and so are the lives. -/
theorem neverSpins_along_iff (s : Session) (u : Reuse) :
    (s.Along NeverSpins ↔ s.Along HeardOut) ∧
      (u.life.Loops NeverSpins ↔ u.life.Loops HeardOut) :=
  ⟨Session.along_congr fun _ _ k wired distinct => neverSpins_iff_heardOut k wired distinct,
    loops_congr neverSpins_iff_of_apart⟩

instance (c : ChatClient) (k : Kernel) (r : Revents) : Decidable (PassesStdin c k r) := by
  unfold PassesStdin
  infer_instance

instance (b : Buffer) (k : Kernel) (r : Revents) : Decidable (PassesServer b k r) := by
  unfold PassesServer
  infer_instance

instance (c : ChatClient) (k : Kernel) (revents : Fd → Revents) :
    Decidable (GoesRound c k revents) := by
  unfold GoesRound
  infer_instance

instance (c : ChatClient) (k : Kernel) (revents : Fd → Revents) :
    Decidable (CanMove c k revents) := by
  unfold CanMove ServerBrings
  infer_instance

instance (k : Kernel) : Decidable (SignalWhole k) := by
  unfold SignalWhole
  infer_instance

instance (l : Loop) (k : Kernel) : Decidable (HeardOut l k) := by
  unfold HeardOut SomeReady HungUp
  infer_instance

instance (log : List Event) : Decidable (Consumes log) := by
  unfold Consumes
  infer_instance

instance (l : Loop) (k : Kernel) : Decidable (NeverSpins l k) := by
  unfold NeverSpins SomeReady HungUp
  infer_instance

def gone : Kernel where
  poll := .ready fun y => { pollin := y = 3 }
  server := .eof

theorem server_gone_unnoticed :
    (¬ ∀ s : Session, s.Along NeverSpins) ∧
      step (sessionOf []).start gone = ((sessionOf []).start, [.read 3 []]) := by
  constructor
  · intro all
    have spins : ¬ (sessionOf [gone]).Along NeverSpins := by decide +kernel
    exact spins (all (sessionOf [gone]))
  · decide +kernel

/-- A client that is run twice, and gets the signal descriptor of the first session as the socket
of the second. -/
def runTwice : Reuse where
  life := {
    constructor := .default
    calls := [.run { socket := .ok 3, signalfd := .ok 4, write := [.accepted 8] },
      .eventLoop [types (ascii ['h', 'e']), { poll := .ready fun y => { pollin := y = 0 } }],
      .run { socket := .ok 4, signalfd := .ok 3, write := [.accepted 8] },
      .eventLoop [types (ascii ['y', '\n']), hears 4 (ascii ['o', 'h', '\n'])]]
    built := built_default }
  unused := by decide +kernel

theorem cut_lines_never_spin :
    cutLines.Along NeverSpins ∧ runTwice.life.Loops NeverSpins := by
  obtain ⟨session, life⟩ := neverSpins_along_iff cutLines runTwice
  exact ⟨session.mpr (by decide +kernel), life.mpr (by decide +kernel)⟩

/-! Why the session ends. -/

/-- The session is stopped at the end of stdin or at a signal. -/
def StopsRightly (l : Loop) (k : Kernel) : Prop :=
  l.client.connected = true → (step l k).1.client.connected = false →
    ∃ revents ∈ polled l k, ((revents stdinFileno).pollin = true ∧ k.stdin = .eof) ∨
      (revents l.client.signalfd.get).pollin = true

/-- Stdin is read into a buffer with room, unless the session is to end anyway. -/
def HasRoom (l : Loop) (k : Kernel) : Prop :=
  ∀ revents ∈ polled l k, (revents stdinFileno).pollin = true →
    0 < l.client.writeBuffer.freeSpace ∨ k.stdin = .eof ∨
      (revents l.client.signalfd.get).pollin = true

theorem stopped_of_effect {k : Kernel} {l l' : Loop} {more : List Event}
    (effect : Effect k l l' more) (on : l.client.connected = true)
    (off : l'.client.connected = false) :
    ∃ revents, polled l k = some revents ∧ ((revents stdinFileno).pollin = true ∧
        k.stdin.read l.client.writeBuffer.freeSpace.toNat = .ok [] ∨
      (revents l.client.signalfd.get).pollin = true) := by
  have still_on : ∀ {c : ChatClient}, SameWires l.client c → c.connected ≠ false := by
    intro c same
    rw [same.connected, on]
    decide
  cases effect with
  | quiet => exact absurd (on.symm.trans off) (by decide)
  | stdinEnds revents ready c₁ log₁ o stdin ends =>
    refine ⟨revents, ready, .inl ?_⟩
    cases stdin with
    | eof input nothing => exact ⟨input, nothing⟩
    | idle => exact absurd off (still_on ⟨rfl, rfl, rfl⟩)
    | readFailed e => exact absurd off (still_on ⟨rfl, rfl, rfl⟩)
    | forwarded bytes b => exact absurd off (still_on ⟨rfl, rfl, rfl⟩)
    | stuck bytes b => exact absurd off (still_on ⟨rfl, rfl, rfl⟩)
  | serverEnds revents ready c₁ c₂ log₁ log₂ o stdin server ends =>
    have same : SameWires l.client c₁ := stdin.wires.resolve_right (by simp)
    exact absurd (server.wires.connected.symm.trans off) (still_on same)
  | through revents ready c₁ c₂ c₃ log₁ log₂ log₃ o stdin server signal =>
    have same : SameWires l.client c₁ := stdin.wires.resolve_right (by simp)
    have on₂ : c₂.connected = true := server.wires.connected.trans (same.connected.trans on)
    exact ⟨revents, ready, .inr ((signal.off_iff on₂).mp off).1⟩

theorem stops_of_nothing {k : Kernel} {l l' : Loop} {more : List Event}
    (effect : Effect k l l' more) {revents : Fd → Revents} (ready : polled l k = some revents)
    (input : (revents stdinFileno).pollin = true)
    (nothing : k.stdin.read l.client.writeBuffer.freeSpace.toNat = .ok []) :
    l'.client.connected = false := by
  have leaves : ¬ PassesStdin l.client k (revents stdinFileno) := by
    intro passes
    obtain ⟨bytes, member, nonempty, _⟩ := passes input
    rw [nothing] at member
    exact nonempty (Option.some.inj member).symm
  cases effect with
  | quiet control unpolled => rw [unpolled] at ready; cases ready
  | stdinEnds revents' ready' c₁ log₁ o stdin ends =>
    obtain rfl : revents' = revents := Option.some.inj (ready'.symm.trans ready)
    cases stdin with
    | eof => rfl
    | idle unready => exact absurd (unready.symm.trans input) (by decide)
    | readFailed e _ failed => rw [nothing] at failed; cases failed
    | forwarded bytes _ _ _ answer nonempty =>
      exact absurd (Except.ok.inj (answer.symm.trans nothing)) nonempty
    | stuck bytes _ _ _ _ answer nonempty =>
      exact absurd (Except.ok.inj (answer.symm.trans nothing)) nonempty
  | serverEnds revents' ready' c₁ c₂ log₁ log₂ o stdin server ends =>
    obtain rfl : revents' = revents := Option.some.inj (ready'.symm.trans ready)
    exact absurd (stdin.passes_iff.mp rfl) leaves
  | through revents' ready' c₁ c₂ c₃ log₁ log₂ log₃ o stdin server signal =>
    obtain rfl : revents' = revents := Option.some.inj (ready'.symm.trans ready)
    exact absurd (stdin.passes_iff.mp rfl) leaves

theorem stopsRightly_iff_hasRoom {l : Loop} (k : Kernel) (good : l.client.Good) :
    StopsRightly l k ↔ HasRoom l k := by
  have effect := step_effect k l good
  constructor
  · intro rightly revents ready input
    by_contra wrong
    simp only [not_or] at wrong
    obtain ⟨full, open_, unsignalled⟩ := wrong
    have nothing : k.stdin.read l.client.writeBuffer.freeSpace.toNat = .ok [] :=
      (ReadAnswer.read_eq_nil_iff _ _).mpr (.inl (by omega))
    have on := connected_of_polled (Option.mem_def.mp ready)
    obtain ⟨revents', ready', why⟩ := rightly on (stops_of_nothing effect ready input nothing)
    obtain rfl : revents' = revents := Option.mem_unique ready' ready
    cases why with
    | inl ended => exact open_ ended.2
    | inr signalled => exact unsignalled signalled
  · intro room on off
    obtain ⟨revents, ready, why⟩ := stopped_of_effect effect on off
    refine ⟨revents, ready, ?_⟩
    cases why with
    | inr signalled => exact .inr signalled
    | inl ended =>
      obtain ⟨input, nothing⟩ := ended
      rcases room revents ready input with space | closed | signalled
      · cases (ReadAnswer.read_eq_nil_iff _ _).mp nothing with
        | inl full => omega
        | inr closed => exact .inl ⟨input, closed⟩
      · exact .inl ⟨input, closed⟩
      · exact .inr signalled

/-- The sessions that end rightly are those in which stdin is never read into a full buffer; and
so are the lives. -/
theorem stopsRightly_along_iff (s : Session) (l : Life) :
    (s.Along StopsRightly ↔ s.Along HasRoom) ∧ (l.Loops StopsRightly ↔ l.Loops HasRoom) :=
  ⟨Session.along_congr fun _ _ k wired _ => stopsRightly_iff_hasRoom k wired.good,
    loops_congr_good fun _ k good => stopsRightly_iff_hasRoom k good⟩

instance (l : Loop) (k : Kernel) : Decidable (StopsRightly l k) := by
  unfold StopsRightly
  infer_instance

instance (l : Loop) (k : Kernel) : Decidable (HasRoom l k) := by
  unfold HasRoom
  infer_instance

/-- 1024 bytes without a newline, and then its end. -/
def longInput : Session :=
  sessionOf [types (List.replicate bufferSize 120), types (ascii ['\n'])]

theorem long_input_abandoned : ¬ ∀ s : Session, s.Along StopsRightly := by
  intro all
  have abandoned : ¬ longInput.Along StopsRightly := by decide +kernel
  exact abandoned (all longInput)

def cutShort : Session :=
  sessionOf (cutLines.kernels ++ [{ poll := .ready fun y => { pollin := y = stdinFileno } }])

theorem cut_short_ends_rightly :
    cutShort.Along StopsRightly ∧ cutShort.final.client.connected = false ∧
      runTwice.life.Loops StopsRightly := by
  obtain ⟨session, life⟩ := stopsRightly_along_iff cutShort runTwice.life
  exact ⟨session.mpr (by decide +kernel), by decide +kernel, life.mpr (by decide +kernel)⟩

end TcpChat.ChatClient
