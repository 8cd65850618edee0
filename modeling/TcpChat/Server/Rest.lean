import TcpChat.Server.Failures
import TcpChat.Server.Lines

/-! The server between two rounds, and a round in which one connection alone is ready. -/
namespace TcpChat.ChatServer
open Machine

/-- At the head of the `while`, with no line half received. No connection has the descriptor that
is listened on. -/
structure Resting (l : Loop) : Prop where
  polls : l.control = .poll
  on : l.server.running = true
  emptied : ∀ c ∈ l.server.clients, c.buffer.content = []
  apart : l.server.listenfd.get ∉ l.server.descriptors

/-- A step that makes no call which leaves a trace, and turns to no client. -/
structure Idles (l : Loop) (k : Kernel) : Prop where
  silent : (step l k).2 = []
  idle : Idle k l
  refuses : k.accept = []

def delivering (fd : Fd) (bytes : List Byte) (room : Nat) : Kernel where
  poll := .ready fun y => { pollin := y = fd }
  read := fun _ => .ofBytes bytes
  write := fun _ => [.accepted room]

theorem countP_eq_count {fds : List Fd} (fd : Fd) :
    (fds.map fun y => ({ fd := y, revents := { pollin := y = fd } } : PollFd)).countP
      (·.revents.nonzero) = fds.count fd := by
  induction fds with
  | nil => rfl
  | cons y fds ih =>
    rw [List.map_cons, List.countP_cons, List.count_cons, ih]
    simp [Revents.nonzero, Revents.failed]

theorem readyCount_single {s : ChatServer} (good : s.Good) {c : ClientInfo} (member : c ∈ s.clients)
    (apart : s.listenfd.get ∉ s.descriptors) :
    readyCount (s.polled fun y => { pollin := y = c.fd.get }) = 1 := by
  have present := mem_descriptors member
  have listening : s.listenfd.get ≠ c.fd.get := fun same => apart (same ▸ present)
  have signal : s.signalfd.get ≠ c.fd.get := fun same => good.signal (same ▸ present)
  have polled : s.polled (fun y => { pollin := y = c.fd.get }) =
      (s.listenfd.get :: s.signalfd.get :: s.descriptors).map fun y =>
        ({ fd := y, revents := { pollin := y = c.fd.get } } : PollFd) := by
    simp [ChatServer.polled, pollList, descriptors]
  rw [readyCount, polled, countP_eq_count, List.count_cons_of_ne listening,
    List.count_cons_of_ne signal, List.count_eq_one_of_mem good.distinct present]
  rfl

theorem polled_client {s : ChatServer} (revents : Fd → Revents) {i : Nat} {c : ClientInfo}
    (found : s.clients[i]? = some c) :
    (s.polled revents)[i + 2]? = some { fd := c.fd.get, revents := revents c.fd.get } := by
  simp [polled, pollList, found]

def atTurn (s : ChatServer) (c : ClientInfo) (i : Nat) : Loop :=
  ⟨s, .client (s.polled fun y => { pollin := y = c.fd.get }) i 1⟩

theorem idles_of_step {l : Loop} {control : Control} {fd : Fd} {bytes : List Byte} {room : Nat}
    (next : step l (delivering fd bytes room) = (⟨l.server, control⟩, []))
    (idle : Idle (delivering fd bytes room) l) : Idles l (delivering fd bytes room) where
  silent := by rw [next]
  idle := idle
  refuses := rfl

/-- From the head of the `while` to the turn of the one client that is ready. -/
theorem idles_to_turn {s : ChatServer} (good : s.Good) (on : s.running = true)
    (apart : s.listenfd.get ∉ s.descriptors) {i : Nat} {c : ClientInfo}
    (found : s.clients[i]? = some c) (bytes : List Byte) (room : Nat) {j : Nat} (before : j ≤ i) :
    Along step Idles ⟨s, .poll⟩ (List.replicate (j + 2) (delivering c.fd.get bytes room)) ∧
      (Machine.run step ⟨s, .poll⟩ (List.replicate (j + 2) (delivering c.fd.get bytes room))).1 =
        s.atTurn c j := by
  have member := mem_clients found
  have present := mem_descriptors member
  induction j with
  | zero =>
    have listening : s.listenfd.get ≠ c.fd.get := fun same => apart (same ▸ present)
    have signal : s.signalfd.get ≠ c.fd.get := fun same => good.signal (same ▸ present)
    have counted := readyCount_single good member apart
    have polls : step ⟨s, .poll⟩ (delivering c.fd.get bytes room) =
        (⟨s, .signal (s.polled fun y => { pollin := y = c.fd.get }) 1⟩, []) := by
      simp [step, stepProgram, pollStep, delivering, on, listening, counted, Control.ofOutcome]
    have tests : step ⟨s, .signal (s.polled fun y => { pollin := y = c.fd.get }) 1⟩
        (delivering c.fd.get bytes room) = (s.atTurn c 0, []) := by
      simp [step, stepProgram, signalStep, atTurn, polled, pollList, signal, Control.ofOutcome]
    have first := idles_of_step polls (idle_of_turn _ (by simp [turn]))
    have second := idles_of_step tests (idle_of_turn _ (by simp [turn]))
    constructor
    · exact ⟨first, by rw [polls]; exact ⟨second, trivial⟩⟩
    · simp only [List.replicate, run_cons, run_nil, polls, tests]
  | succ j ih =>
    obtain ⟨idles, reached⟩ := ih (Nat.le_of_succ_le before)
    obtain ⟨inside, _⟩ := List.getElem?_eq_some_iff.mp found
    have there : s.clients[j]? = some s.clients[j] := List.getElem?_eq_getElem (by omega)
    have other : (s.clients[j]).fd.get ≠ c.fd.get :=
      fd_ne_of_distinct good.distinct found there (by omega)
    have entry := polled_client (fun y => { pollin := y = c.fd.get }) there
    have its_turn : Turn (s.atTurn c j) _ j 1 _ _ := ⟨rfl, entry, there⟩
    have passes : step (s.atTurn c j) (delivering c.fd.get bytes room) =
        (s.atTurn c (j + 1), []) := by
      have within : j < s.clients.length := by omega
      simp [step, stepProgram, clientStep, atTurn, within, entry, other, Revents.failed,
        Control.ofOutcome]
    have third := idles_of_step passes (its_turn.idle _ rfl (by simp [other]))
    rw [List.replicate_succ', along_append, run_append, reached]
    exact ⟨⟨idles, third, trivial⟩, by simp only [run_cons, run_nil, passes]⟩

theorem serve_counts_down {k : Kernel} {l l' : Loop} {more : List Event}
    (effect : Effect k l l' more) {pollfds : List PollFd} {i : Nat} {nready : Int} {p : PollFd}
    {c : ClientInfo} (its_turn : Turn l pollfds i nready p c) {bytes : List Byte}
    (reads : reading l k = some (c, .ok bytes)) (nonempty : bytes ≠ []) :
    ∃ c' tail outcome,
      Serve k l l' more i c c' bytes tail (countDown pollfds (i + 1) nready) outcome := by
  cases effect with
  | quiet _ _ idle | signalFailed _ _ idle | stop _ idle => simp [idle.reading] at reads
  | join _ _ at_poll | refuse _ _ at_poll | closeFailed _ _ at_poll =>
    simp [reading, turn, at_poll] at reads
  | hangup _ _ _ _ _ turn flags => simp [reading, turn.turn_eq, flags] at reads
  | eof _ _ _ _ _ turn flags ready nothing =>
    simp [reading, turn.turn_eq, flags, ready, nothing, Ne.symm nonempty] at reads
  | readFailed _ _ _ _ _ e turn flags ready failed =>
    simp [reading, turn.turn_eq, flags, ready, failed] at reads
  | serve pollfds' i' nready' _ _ c' bytes' tail outcome turn flags ready answer _ served relayed =>
    obtain ⟨rfl, rfl, rfl⟩ : pollfds' = pollfds ∧ i' = i ∧ nready' = nready := by
      simpa using turn.at_client.symm.trans its_turn.at_client
    obtain ⟨rfl, rfl⟩ : _ = c ∧ bytes' = bytes := by
      simpa [reading, turn.turn_eq, flags, ready, answer] using reads
    exact ⟨c', tail, outcome,
      serve_of_turn turn flags ready answer nonempty served relayed ⟨_, _, _, rfl⟩⟩

theorem serve_of_delivering {s : ChatServer} (good : s.Good) {i : Nat} {c : ClientInfo}
    (found : s.clients[i]? = some c) (emptied : c.buffer.content = []) {bytes : List Byte}
    (nonempty : bytes ≠ []) (fits : bytes.length ≤ bufferSize) {room : Nat}
    (enough : (message (nameWith c bytes) (relayText c bytes)).length ≤ room) :
    ∃ c' tail control, Serve (delivering c.fd.get bytes room) (s.atTurn c i)
      (step (s.atTurn c i) (delivering c.fd.get bytes room)).1
      (step (s.atTurn c i) (delivering c.fd.get bytes room)).2 i c c' bytes tail control
      (.returned ()) ∧ control = .poll := by
  have valid := good.valid c (mem_clients found)
  have live := landed_of_empty valid emptied bytes
  have its_turn : Turn (s.atTurn c i) _ i 1 _ c := ⟨rfl, polled_client _ found, found⟩
  have answer : ((delivering c.fd.get bytes room).read c.fd.get).read c.buffer.freeSpace.toNat =
      .ok bytes := by
    have whole : bytes.length ≤ c.buffer.freeSpace.toNat := by
      rw [Buffer.freeSpace_toNat valid, emptied]
      exact fits
    rw [delivering, ReadAnswer.read_ofBytes, List.take_of_length_le whole]
  have effect := readStep_effect good its_turn rfl (by simp) answer
  have reads : reading (s.atTurn c i) (delivering c.fd.get bytes room) = some (c, .ok bytes) := by
    simp [reading, its_turn.turn_eq, Revents.failed, answer]
  obtain ⟨c', tail, outcome, serve⟩ := serve_counts_down effect its_turn reads nonempty
  have name : c'.name = nameWith c bytes := by rw [serve.served.name, live]; rfl
  have positive : 0 < room := by
    simp only [message, ascii, List.length_append, List.length_map, List.length_cons] at enough
    omega
  have healthy : ∀ y ∈ s.recipients i,
      Healthy (delivering c.fd.get bytes room).write (owed c'.name (relayText c bytes)) y := by
    intro y _
    have short : (owed c'.name (relayText c bytes)).length ≤ room := by
      unfold owed
      split
      · exact Nat.zero_le _
      · rwa [name]
    have each : ∀ a ∈ [WriteAnswer.accepted room], a.goesOn = true := by
      simpa [WriteAnswer.goesOn] using positive
    exact carry_of_enough each (by simpa [WriteAnswer.count] using short) []
  obtain rfl : outcome = .returned () :=
    ((relayed_reaches_iff (live ▸ serve.relayed)).mpr healthy).1
  exact ⟨c', tail, _, serve, rfl⟩

/-- A round of a resting server that takes one line from one client, and leaves it resting. -/
theorem round_of_line {l : Loop} (resting : Resting l) (good : l.server.Good) {c : ClientInfo}
    (member : c ∈ l.server.clients) {line : List Byte} (ends : line.getLast? = some newline)
    (fits : line.length ≤ bufferSize) : ∃ ks k turn, Along step Idles l ks ∧
      (Machine.run step l ks).1 = turn ∧ turn.server = l.server ∧ Returns turn.control ∧
      k.accept = [] ∧ Resting (step turn k).1 ∧ ∃ i c' tail control,
        Serve k turn (step turn k).1 (step turn k).2 i c c' line tail control (.returned ()) := by
  obtain ⟨i, found⟩ := List.mem_iff_getElem?.mp member
  have nonempty : line ≠ [] := by
    rintro rfl
    cases ends
  have emptied := resting.emptied c member
  have at_poll : l = ⟨l.server, .poll⟩ := by rw [← resting.polls]
  let room := (message (nameWith c line) (relayText c line)).length
  obtain ⟨idles, reached⟩ :=
    idles_to_turn good resting.on resting.apart found line room (Nat.le_refl i)
  obtain ⟨c', tail, control, serve, polls⟩ :=
    serve_of_delivering good found emptied nonempty fits (Nat.le_refl room)
  rw [← at_poll] at idles reached
  refine ⟨_, delivering c.fd.get line room, _, idles, reached, rfl, ?_, rfl, ?_,
    i, c', tail, control, serve⟩
  · simp [Returns, atTurn]
  · have kept : (l.server.setClient i c').descriptors = l.server.descriptors :=
      Slots.map_set_same found (by rw [serve.served.fd])
    rw [serve.next, polls]
    refine ⟨rfl, resting.on, fun d present => ?_, ?_⟩
    · rcases mem_set good.distinct found present with rfl | ⟨old, _⟩
      · rw [serve.served.content, landed_of_empty (good.valid c member) emptied,
          Framing.residue_eq_nil ends]
      · exact resting.emptied d old
    · exact fun listened => resting.apart (kept ▸ listened)

end TcpChat.ChatServer
