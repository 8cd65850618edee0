import Mathlib.Data.List.TakeWhile
import TcpChat.Client.Lifecycle

/-! Where a client connects to. Only the constructors set the address, and only `run` connects. -/
namespace TcpChat.ChatClient
open Machine

def At (address : SocketAddress) (c : ChatClient) : Prop :=
  c.address = address ∧ c.readBuffer.Valid ∧ c.writeBuffer.Valid

/-- No connection is made to another address. -/
def Connecting (address : SocketAddress) (e : Event) : Prop :=
  ∀ fd sa, e = .connect fd sa → sa = address.toSockaddr

theorem connecting_closing (address : SocketAddress) (d : ScopedFileDescriptor) :
    ∀ e ∈ d.closing, Connecting address e := by
  intro e member
  unfold ScopedFileDescriptor.closing at member
  split at member
  · rw [List.mem_singleton.mp member]
    exact nofun
  · cases member

theorem connecting_stopLog (address : SocketAddress) (c : ChatClient) :
    ∀ e ∈ c.stopLog, Connecting address e := by
  intro e member
  rcases List.mem_append.mp member with m | m
  · exact connecting_closing address _ e m
  · exact connecting_closing address _ e m

theorem connecting_onlyWrites {address : SocketAddress} {fd : Fd} {log : List Event}
    (only : OnlyWrites fd log) : ∀ e ∈ log, Connecting address e := by
  intro e member
  rcases only e member with ⟨bytes, rfl⟩ | ⟨errno, rfl⟩
  · exact nofun
  · exact nofun

section
variable {address : SocketAddress}
open Program

theorem keeps_createSocket (answer : Except Errno Nat) :
    Keeps (At address) (Connecting address) (createSocket answer : Run Fd) := by
  cases answer with
  | error e => exact keeps_throw _
  | ok fd => exact keeps_bind (keeps_emit (by simp [Connecting])) fun _ => keeps_pure _

theorem keeps_connectSocket (fd : Fd) (answer : Option Errno) :
    Keeps (At address) (Connecting address)
      (connectSocket fd address.toSockaddr answer : Run Unit) := by
  refine keeps_bind (keeps_emit (by simp [Connecting])) fun _ => ?_
  cases answer with
  | some e => exact keeps_throw _
  | none => exact keeps_pure _

theorem keeps_setupSignalFd (a : RunAnswers) :
    Keeps (At address) (Connecting address) (setupSignalFd a) := by
  have opens : Keeps (At address) (Connecting address)
      (openSignalFd a.sigprocmask a.signalfd : Run Fd) := by
    cases mask : a.sigprocmask with
    | some e => exact keeps_throw _
    | none =>
      cases signal : a.signalfd with
      | error e => exact keeps_throw _
      | ok fd => exact keeps_bind (keeps_emit (by simp [Connecting])) fun _ => keeps_pure _
  apply keeps_bind opens
  intro fd
  apply keeps_get
  intro c _
  exact keeps_bind (keeps_emit (connecting_closing address _)) fun _ =>
    keeps_modify fun _ here => here

theorem keeps_writeFull (fd : Fd) (bytes : List Byte) (answers : List WriteAnswer) :
    Keeps (At address) (Connecting address)
      (writeFull fd bytes answers : Run (List WriteAnswer)) := by
  intro c here
  obtain ⟨log, only, ends⟩ := writeFull_spec fd bytes answers c
  have each : ∀ e ∈ log, Connecting address e := connecting_onlyWrites only
  rcases ends with ⟨_, _, _, eq⟩ | ⟨_, _, _, eq | ⟨_, eq⟩⟩
  all_goals
    rw [eq]
    exact ⟨here, each⟩

theorem keeps_run (a : RunAnswers) : Keeps (At address) (Connecting address) (run a) := by
  apply keeps_get
  intro c here
  by_cases on : c.connected = true
  · rw [if_pos on]
    exact keeps_throw _
  · rw [if_neg on]
    apply keeps_bind (keeps_createSocket a.socket)
    intro fd
    apply keeps_unwinding
    · rw [here.1]
      apply keeps_bind (keeps_connectSocket fd a.connect)
      intro _
      apply keeps_bind (keeps_setupSignalFd a)
      intro _
      apply keeps_bind (keeps_writeFull fd _ a.write)
      intro _
      exact keeps_bind (keeps_emit (connecting_closing address _)) fun _ =>
        keeps_modify fun _ there => there
    · simp [Connecting]

theorem keeps_stop : Keeps (At address) (Connecting address) stop := by
  apply keeps_get
  intro c _
  exact keeps_bind (keeps_emit (connecting_stopLog address c)) fun _ =>
    keeps_modify fun _ here => here

end

theorem StdinPart.connecting {k : Kernel} {r : Revents} {c c' : ChatClient} {log : List Event}
    {o : Outcome Exn Bool} (part : StdinPart k r c c' log o) (address : SocketAddress) :
    c'.address = c.address ∧ ∀ e ∈ log, Connecting address e := by
  cases part with
  | idle => exact ⟨rfl, by simp⟩
  | eof => exact ⟨rfl, List.forall_mem_cons.mpr ⟨nofun, connecting_stopLog address c⟩⟩
  | readFailed e => exact ⟨rfl, List.forall_mem_cons.mpr ⟨nofun, by simp⟩⟩
  | forwarded bytes b writes ready answer nonempty valid only =>
    exact ⟨rfl, List.forall_mem_cons.mpr ⟨nofun, connecting_onlyWrites only⟩⟩
  | stuck bytes b writes o ready answer nonempty valid only =>
    exact ⟨rfl, List.forall_mem_cons.mpr ⟨nofun, connecting_onlyWrites only⟩⟩

theorem ServerPart.connecting {k : Kernel} {r : Revents} {c c' : ChatClient} {log : List Event}
    {o : Outcome Exn Unit} (part : ServerPart k r c c' log o) (address : SocketAddress) :
    c'.address = c.address ∧ ∀ e ∈ log, Connecting address e := by
  cases part with
  | idle => exact ⟨rfl, by simp⟩
  | readFailed e => exact ⟨rfl, List.forall_mem_cons.mpr ⟨nofun, by simp⟩⟩
  | received bytes b =>
    refine ⟨rfl, List.forall_mem_cons.mpr ⟨nofun, ?_⟩⟩
    unfold printLog
    split
    · simp
    · exact List.forall_mem_cons.mpr ⟨nofun, by simp⟩

theorem SignalPart.connecting {k : Kernel} {r : Revents} {c c' : ChatClient} {log : List Event}
    {o : Outcome Exn Control} (part : SignalPart k r c c' log o) (address : SocketAddress) :
    c'.address = c.address ∧ ∀ e ∈ log, Connecting address e := by
  cases part with
  | idle => exact ⟨rfl, by simp⟩
  | stop siginfo => exact ⟨rfl, List.forall_mem_cons.mpr ⟨nofun, connecting_stopLog address c⟩⟩
  | partly siginfo => exact ⟨rfl, List.forall_mem_cons.mpr ⟨nofun, by simp⟩⟩
  | readFailed e => exact ⟨rfl, List.forall_mem_cons.mpr ⟨nofun, by simp⟩⟩

theorem effect_connecting {k : Kernel} {l l' : Loop} {log : List Event} (effect : Effect k l l' log)
    (address : SocketAddress) :
    l'.client.address = l.client.address ∧ ∀ e ∈ log, Connecting address e := by
  cases effect with
  | quiet => exact ⟨rfl, by simp⟩
  | stdinEnds revents ready c₁ log₁ o stdin => exact stdin.connecting address
  | serverEnds revents ready c₁ c₂ log₁ log₂ o stdin server =>
    obtain ⟨same, first⟩ := stdin.connecting address
    obtain ⟨same', second⟩ := server.connecting address
    exact ⟨same'.trans same, List.forall_mem_append.mpr ⟨first, second⟩⟩
  | through revents ready c₁ c₂ c₃ log₁ log₂ log₃ o stdin server signal =>
    obtain ⟨same, first⟩ := stdin.connecting address
    obtain ⟨same', second⟩ := server.connecting address
    obtain ⟨same'', third⟩ := signal.connecting address
    refine ⟨same''.trans (same'.trans same), List.forall_mem_append.mpr ⟨first, ?_⟩⟩
    exact List.forall_mem_append.mpr ⟨second, third⟩

theorem call_connecting {address : SocketAddress} {c : ChatClient} (here : At address c)
    (a : Call) : At address (call c a).1 ∧ ∀ e ∈ (call c a).2, Connecting address e := by
  cases a with
  | setName name => exact keeps_setName name (fun _ h => h) c here
  | run answers => exact keeps_run answers c here
  | stop => exact keeps_stop c here
  | eventLoop kernels =>
    refine run_keeps
      (I := fun (l : Loop) log => At address l.client ∧ ∀ e ∈ log, Connecting address e)
      (P := fun _ _ => True) ?_ ⟨here, by simp⟩ (along_of_forall (fun _ _ => trivial) _ _)
    intro l log k ⟨there, each⟩ _
    have good : l.client.Good := ⟨there.2.1, there.2.2⟩
    obtain ⟨same, more⟩ := effect_connecting (step_effect k l good) address
    have good' := good_step k good
    exact ⟨⟨same.trans there.1, good'.read, good'.write⟩,
      List.forall_mem_append.mpr ⟨each, more⟩⟩

theorem calls_connecting {address : SocketAddress} {c : ChatClient} (here : At address c)
    (calls : List Call) :
    At address (Machine.run call c calls).1 ∧
      ∀ e ∈ (Machine.run call c calls).2, Connecting address e := by
  refine run_keeps (I := fun c log => At address c ∧ ∀ e ∈ log, Connecting address e)
    (P := fun _ _ => True) ?_ ⟨here, by simp⟩ (along_of_forall (fun _ _ => trivial) _ _)
  intro c log a ⟨there, each⟩ _
  obtain ⟨there', more⟩ := call_connecting there a
  exact ⟨there', List.forall_mem_append.mpr ⟨each, more⟩⟩

/-! What the constructors store. -/

/-- The address of a client that was given this one. -/
def stored (q : Quad) : SocketAddress :=
  { ipAddress := q.storeTo ({} : SocketAddress).ipAddress }

theorem digit_nonzero {d : Byte} (small : d < 10) : 48 + d ≠ 0 := by
  intro zero
  have digit := (digit_facts d small).1
  rw [zero] at digit
  exact absurd digit (by decide)

theorem decimal_nonzero (b : Byte) : ∀ ch ∈ decimal b, ch ≠ 0 := by
  unfold decimal
  split
  case isTrue one => simpa using digit_nonzero one
  case isFalse one =>
    split
    case isTrue two =>
      obtain ⟨tens, units, _⟩ := two_digits b one two
      simpa using ⟨digit_nonzero tens, digit_nonzero units⟩
    case isFalse two =>
      obtain ⟨hundreds, tens, units, _⟩ := three_digits b two
      simpa using ⟨digit_nonzero hundreds, digit_nonzero tens, digit_nonzero units⟩

theorem cStr_dotted (q : Quad) : cStr q.dotted = q.dotted := by
  apply List.takeWhile_eq_self_iff.mpr
  intro ch member
  simp only [Quad.dotted, List.mem_append, List.mem_cons] at member
  rcases member with m | rfl | m | rfl | m | rfl | m
  · exact decide_eq_true (decimal_nonzero q.first ch m)
  · rfl
  · exact decide_eq_true (decimal_nonzero q.second ch m)
  · rfl
  · exact decide_eq_true (decimal_nonzero q.third ch m)
  · rfl
  · exact decide_eq_true (decimal_nonzero q.fourth ch m)

theorem ofAddress_dotted (q : Quad) :
    ofAddress q.dotted {} = ⟨{ address := stored q }, [], .returned ()⟩ := by
  simp [ofAddress, cStr_dotted, inetPtonSocket, inetPton_dotted, stored]

theorem at_new {l : Life} {q : Quad} (given : l.constructor.ipAddress = some q.dotted) :
    At (stored q) l.new := by
  have valid := Buffer.valid_empty
  cases which : l.constructor with
  | default =>
    rw [which] at given
    cases given
  | address ip =>
    rw [which] at given
    cases given
    have new : l.new = (ofAddress q.dotted {}).state := by rw [Life.new, which, construct]
    rw [new, ofAddress_dotted]
    exact ⟨rfl, valid, valid⟩
  | addressName ip name =>
    rw [which] at given
    cases given
    have new : l.new = (Program.andThen (ofAddress q.dotted {}) fun _ => setName name).state := by
      rw [Life.new, which, construct, Program.bind_apply]
    rw [new, ofAddress_dotted, Program.andThen_returned_nil]
    exact (keeps_setName (P := fun _ => True) name (fun _ h => h) { address := stored q }
      ⟨rfl, valid, valid⟩).1

/-- Whatever is done with a client that was given this address, it connects to none other. -/
def ConnectsTo (q : Quad) : Prop :=
  ∀ l : Life, l.constructor.ipAddress = some q.dotted →
    ∀ fd sa, .connect fd sa ∈ l.log → sa.addressBytes = q

/-- A client that is given the address and runs once. -/
def firstRun (q : Quad) : Life where
  constructor := .address q.dotted
  calls := [.run { socket := .ok 3, signalfd := .ok 4, write := [.accepted 8] }]
  built := by rw [construct, ofAddress_dotted]

theorem firstRun_connects (q : Quad) : .connect 3 (stored q).toSockaddr ∈ (firstRun q).log := by
  have new : (firstRun q).new = { address := stored q } := by
    rw [Life.new, firstRun, construct, ofAddress_dotted]
  have log : (firstRun q).log =
      [.socket 3, .connect 3 (stored q).toSockaddr, .signalfd 4,
        .write 3 (ascii ['N', 'o', ' ', 'N', 'a', 'm', 'e', '\n'])] := by
    rw [Life.log, new]
    rfl
  rw [log]
  exact List.mem_cons_of_mem _ List.mem_cons_self

/-- The bytes go out in reverse, so the address is met where it reads the same both ways. -/
theorem connects_to_iff (q : Quad) :
    ConnectsTo q ↔ q.first = q.fourth ∧ q.second = q.third := by
  have bytes : (stored q).toSockaddr.addressBytes = ⟨q.fourth, q.third, q.second, q.first⟩ :=
    addressBytes_stored q {}
  constructor
  · intro connects
    have reversed := bytes.symm.trans (connects (firstRun q) rfl 3 _ (firstRun_connects q))
    have first := congrArg Quad.first reversed
    have second := congrArg Quad.second reversed
    exact ⟨first.symm, second.symm⟩
  · rintro ⟨outer, inner⟩ l given fd sa member
    have same := (calls_connecting (at_new given) l.calls).2 _ member fd sa rfl
    obtain ⟨a, b, c, d⟩ := q
    cases outer
    cases inner
    rw [same]
    exact bytes

/-- A client that is given 127.0.0.1 connects to 1.0.0.127. -/
theorem loopback_reversed : ¬ ConnectsTo ⟨127, 0, 0, 1⟩ := by
  intro connects
  have bytes := connects (firstRun ⟨127, 0, 0, 1⟩) rfl 3 _ (firstRun_connects _)
  exact absurd bytes (by decide +kernel)

end TcpChat.ChatClient
