import TcpChat.Server.Model

/-! What one step of the server's loop can do. Every invariant of the runs is derived from
`step_effect`, so only this module unfolds the step function. -/
namespace TcpChat.ChatServer

/-- The live bytes after the server has read `bytes` into a buffer: the new ones, and as many
as there were before from what stands behind them in the array. -/
def landed (b : Buffer) (bytes : List Byte) : List Byte :=
  bytes ++ b.buffer.read bytes.length b.size_.toNat

def nameLine (c : ClientInfo) (live : List Byte) : List Byte :=
  if c.connected then [] else Framing.first newline live

def relayText (c : ClientInfo) (live : List Byte) : List Byte :=
  (Framing.complete newline live).drop (nameLine c live).length

structure Served (c c' : ClientInfo) (bytes : List Byte) : Prop where
  fd : c'.fd = c.fd
  valid : c'.buffer.Valid
  content : c'.buffer.content = Framing.residue newline (landed c.buffer bytes)
  name : c'.name =
    if nameLine c (landed c.buffer bytes) = [] then c.name
    else (nameLine c (landed c.buffer bytes)).dropLast
  connected : c'.connected = (c.connected || nameLine c (landed c.buffer bytes) ≠ [])

def namedLog (fd : Fd) (line : List Byte) : List Event :=
  if line = [] then [] else [.named fd line]

/-- The end of `respond_to_client`, once the text is known. -/
def relayTo {S : Type} (write : Fd → List WriteAnswer) (fd : Fd) (name text : List Byte)
    (fds : List Fd) : Program S Event Exn Unit := do
  if text = [] then pure ()
  else do
    Program.emit [.relay fd name text]
    writeEach write (message name text) fds

def descriptors (s : ChatServer) : List Fd := s.clients.map (·.fd.get)

def recipients (s : ChatServer) (senderIndex : Nat) : List Fd :=
  s.descriptors.eraseIdx senderIndex

/-- What the loop relies on at each of its heads. -/
structure Good (s : ChatServer) : Prop where
  valid : ∀ c ∈ s.clients, c.buffer.Valid
  owned : ∀ c ∈ s.clients, 0 ≤ c.fd.get
  distinct : s.descriptors.Nodup
  signal : s.signalfd.get ∉ s.descriptors

/-! The member functions on one client's buffer. -/

theorem onBuffer_of_getElem? {α : Type} {s : ChatServer} {i : Nat} {c : ClientInfo}
    (found : s.clients[i]? = some c) {p : Program Buffer Event Exn α} {b : Buffer}
    {log : List Event} {o : Outcome Exn α} (h : p c.buffer = ⟨b, log, o⟩) :
    onBuffer i p s = ⟨s.setClient i (c.withBuffer b), log, o⟩ := by
  simp [onBuffer, found, h]

theorem setClient_self {s : ChatServer} {i : Nat} {c : ClientInfo}
    (found : s.clients[i]? = some c) : s.setClient i c = s := by
  obtain ⟨inside, rfl⟩ := List.getElem?_eq_some_iff.mp found
  simp [setClient]

theorem getElem?_set {clients : List ClientInfo} {i : Nat} {c : ClientInfo}
    (found : clients[i]? = some c) (c' : ClientInfo) : (clients.set i c')[i]? = some c' := by
  have inside := (List.getElem?_eq_some_iff.mp found).1
  simp [inside]

def nameTaken (c : ClientInfo) (b : Buffer) : ClientInfo where
  fd := c.fd
  name := if Framing.first newline c.buffer.content = [] then c.name
    else (Framing.first newline c.buffer.content).dropLast
  buffer := b
  connected := c.connected || Framing.first newline c.buffer.content ≠ []

theorem getClientName_spec {s : ChatServer} {i : Nat} {c : ClientInfo}
    (found : s.clients[i]? = some c) (valid : c.buffer.Valid) :
    ∃ b, b.Valid ∧
      b.content = c.buffer.content.drop (Framing.first newline c.buffer.content).length ∧
      getClientName i s =
        ⟨s.setClient i (nameTaken c b),
          namedLog c.fd.get (Framing.first newline c.buffer.content), .returned ()⟩ := by
  obtain ⟨b, taken, valid', live⟩ := Buffer.consumeOnce_spec valid newline
  have onB := onBuffer_of_getElem? found taken
  refine ⟨b, valid', live, ?_⟩
  by_cases none : Framing.first newline c.buffer.content = []
  · simp [getClientName, onB, none, namedLog, nameTaken, ClientInfo.withBuffer]
  · simp [getClientName, onB, none, namedLog, nameTaken, getElem?_set found]

theorem broadcast_eq (write : Fd → List WriteAnswer) (messages : List Byte) (senderIndex : Nat)
    (clients : List ClientInfo) (i : Nat) (s : ChatServer) :
    broadcast write messages senderIndex i clients s =
      writeEach write messages
        (if senderIndex < i then clients.map (·.fd.get)
         else (clients.map (·.fd.get)).eraseIdx (senderIndex - i)) s := by
  induction clients generalizing i s with
  | nil => simp [broadcast, writeEach]
  | cons c rest ih =>
    rcases Nat.lt_trichotomy senderIndex i with before | here | after
    · have other : i ≠ senderIndex := by omega
      have still : senderIndex < i + 1 := by omega
      have tail : broadcast write messages senderIndex (i + 1) rest =
          writeEach write messages (rest.map (·.fd.get)) := by
        funext s'
        rw [ih, if_pos still]
      simp [broadcast, other, before, writeEach, tail]
    · subst here
      simp [broadcast, ih]
    · have other : i ≠ senderIndex := by omega
      have stop : ¬ senderIndex < i + 1 := by omega
      have later : ¬ senderIndex < i := by omega
      have index : senderIndex - i = senderIndex - (i + 1) + 1 := by omega
      have tail : broadcast write messages senderIndex (i + 1) rest =
          writeEach write messages
            ((rest.map (·.fd.get)).eraseIdx (senderIndex - (i + 1))) := by
        funext s'
        rw [ih, if_neg stop]
      simp [broadcast, other, later, writeEach, tail, index]

theorem respondToClient_spec (write : Fd → List WriteAnswer) {s : ChatServer} {i : Nat}
    {c : ClientInfo} (found : s.clients[i]? = some c) (valid : c.buffer.Valid) :
    ∃ b, b.Valid ∧ b.content = Framing.residue newline c.buffer.content ∧
      respondToClient write i s =
        relayTo write c.fd.get c.name (Framing.complete newline c.buffer.content)
          (s.recipients i) (s.setClient i (c.withBuffer b)) := by
  obtain ⟨b, taken, valid', live⟩ := Buffer.consumeFull_spec valid newline
  have onB := onBuffer_of_getElem? found taken
  refine ⟨b, valid', live, ?_⟩
  by_cases none : Framing.complete newline c.buffer.content = []
  · simp [respondToClient, onB, none, relayTo]
  · have others : (s.clients.set i (c.withBuffer b)).map (·.fd.get) = s.descriptors :=
      Slots.map_set_same found rfl
    simp [respondToClient, onB, none, relayTo, getElem?_set found, broadcast_eq, recipients,
      others]

theorem recipients_setClient {s : ChatServer} {i : Nat} {c c' : ClientInfo}
    (found : s.clients[i]? = some c) (same : c'.fd = c.fd) (j : Nat) :
    (s.setClient i c').recipients j = s.recipients j := by
  have kept : (s.setClient i c').descriptors = s.descriptors :=
    Slots.map_set_same found (by rw [same])
  simp only [recipients, kept]

/-- The call of `increase_size` after the raw write. -/
theorem counted_spec {s : ChatServer} {i : Nat} {c : ClientInfo} (found : s.clients[i]? = some c)
    (valid : c.buffer.Valid) {bytes : List Byte} (fits : bytes.length ≤ c.buffer.freeSpace.toNat) :
    ∃ b, b.Valid ∧ b.content = landed c.buffer bytes ∧
      onBuffer i (Buffer.increaseSize bytes.length)
          (s.setClient i (c.withBuffer (c.buffer.writeAt 0 bytes))) =
        ⟨s.setClient i (c.withBuffer b), [], .returned ()⟩ := by
  obtain ⟨b, counted, valid', live⟩ := Buffer.receive_front valid fits
  have found' : (s.setClient i (c.withBuffer (c.buffer.writeAt 0 bytes))).clients[i]? =
      some (c.withBuffer (c.buffer.writeAt 0 bytes)) := getElem?_set found _
  have onB := onBuffer_of_getElem? found' counted
  rw [setClient_setClient, ClientInfo.withBuffer_withBuffer] at onB
  exact ⟨b, valid', live, onB⟩

/-- What `serveClient` is to do: take the name, then relay. -/
def ServedBy (k : Kernel) (s : ChatServer) (i : Nat) (c c' : ClientInfo) (bytes : List Byte) :
    Prop :=
  serveClient k i bytes.length (s.setClient i (c.withBuffer (c.buffer.writeAt 0 bytes))) =
    Program.andThen
      ⟨s.setClient i c', namedLog c.fd.get (nameLine c (landed c.buffer bytes)), .returned ()⟩
      fun _ => relayTo k.write c.fd.get c'.name (relayText c (landed c.buffer bytes))
        (s.recipients i)

theorem serveNamed_spec (k : Kernel) {s : ChatServer} {i : Nat} {c : ClientInfo}
    (found : s.clients[i]? = some c) (valid : c.buffer.Valid) {bytes : List Byte}
    (fits : bytes.length ≤ c.buffer.freeSpace.toNat) (known : c.connected = true) :
    ∃ c', Served c c' bytes ∧ ServedBy k s i c c' bytes := by
  obtain ⟨b₁, valid₁, live₁, onB⟩ := counted_spec found valid fits
  have found₁ : (s.setClient i (c.withBuffer b₁)).clients[i]? = some (c.withBuffer b₁) :=
    getElem?_set found _
  have here₁ : (s.clients.set i (c.withBuffer b₁))[i]? = some (c.withBuffer b₁) := found₁
  obtain ⟨b₂, valid₂, live₂, responded⟩ := respondToClient_spec k.write found₁ valid₁
  rw [ClientInfo.withBuffer_buffer, live₁] at live₂ responded
  rw [recipients_setClient found (by rfl), setClient_setClient] at responded
  have line : nameLine c (landed c.buffer bytes) = [] := by simp [nameLine, known]
  refine ⟨c.withBuffer b₂, ⟨rfl, valid₂, live₂, by simp [line], by simp [known]⟩, ?_⟩
  simp [ServedBy, serveClient, onB, here₁, known, responded, line, relayText, namedLog]

theorem serveUnnamed_spec (k : Kernel) {s : ChatServer} {i : Nat} {c : ClientInfo}
    (found : s.clients[i]? = some c) (valid : c.buffer.Valid) {bytes : List Byte}
    (fits : bytes.length ≤ c.buffer.freeSpace.toNat) (known : c.connected = false) :
    ∃ c', Served c c' bytes ∧ ServedBy k s i c c' bytes := by
  obtain ⟨b₁, valid₁, live₁, onB⟩ := counted_spec found valid fits
  have found₁ : (s.setClient i (c.withBuffer b₁)).clients[i]? = some (c.withBuffer b₁) :=
    getElem?_set found _
  have here₁ : (s.clients.set i (c.withBuffer b₁))[i]? = some (c.withBuffer b₁) := found₁
  obtain ⟨b₂, valid₂, live₂, taken⟩ := getClientName_spec found₁ valid₁
  rw [ClientInfo.withBuffer_buffer, live₁] at live₂ taken
  rw [setClient_setClient] at taken
  have line : nameLine c (landed c.buffer bytes) =
      Framing.first newline (landed c.buffer bytes) := by simp [nameLine, known]
  have found₂ : (s.setClient i (nameTaken (c.withBuffer b₁) b₂)).clients[i]? =
      some (nameTaken (c.withBuffer b₁) b₂) := getElem?_set found _
  have here₂ : (s.clients.set i (nameTaken (c.withBuffer b₁) b₂))[i]? =
      some (nameTaken (c.withBuffer b₁) b₂) := found₂
  by_cases none : Framing.first newline (landed c.buffer bytes) = []
  · have absent := (Framing.first_eq_nil_iff newline _).mp none
    refine ⟨nameTaken (c.withBuffer b₁) b₂, ⟨rfl, valid₂, ?_, ?_, ?_⟩, ?_⟩
    · change b₂.content = _
      rw [live₂, none, Framing.residue_of_not_mem absent]
      rfl
    · simp [nameTaken, live₁, line, none]
    · simp [nameTaken, live₁, line, none]
    · have empty : relayText c (landed c.buffer bytes) = [] := by
        rw [relayText, Framing.complete_of_not_mem absent, List.drop_nil]
      have unnamed : (nameTaken (c.withBuffer b₁) b₂).connected = false := by
        simp [nameTaken, live₁, none, known]
      simp [ServedBy, serveClient, onB, here₁, here₂, known, taken, unnamed, line, none, empty,
        relayTo]
  · obtain ⟨b₃, valid₃, live₃, responded⟩ := respondToClient_spec k.write found₂ valid₂
    change b₃.content = Framing.residue newline b₂.content at live₃
    change _ = relayTo k.write c.fd.get (nameTaken (c.withBuffer b₁) b₂).name
      (Framing.complete newline b₂.content) _ _ at responded
    have text : Framing.complete newline b₂.content = relayText c (landed c.buffer bytes) := by
      rw [relayText, line, live₂, Framing.complete_drop_first]
    rw [recipients_setClient found (by rfl), setClient_setClient, text] at responded
    have present : newline ∈ landed c.buffer bytes :=
      Decidable.byContradiction fun h => none ((Framing.first_eq_nil_iff newline _).mpr h)
    refine ⟨(nameTaken (c.withBuffer b₁) b₂).withBuffer b₃, ⟨rfl, valid₃, ?_, ?_, ?_⟩, ?_⟩
    · rw [ClientInfo.withBuffer_buffer, live₃, live₂, Framing.residue_drop_first present]
    · simp [nameTaken, live₁, line]
    · simp [nameTaken, live₁, line]
    · have named : (nameTaken (c.withBuffer b₁) b₂).connected = true := by
        simp [nameTaken, live₁, none]
      simp [ServedBy, serveClient, onB, here₁, here₂, known, taken, named, line, responded]

theorem serveClient_spec (k : Kernel) {s : ChatServer} {i : Nat} {c : ClientInfo}
    (found : s.clients[i]? = some c) (valid : c.buffer.Valid) {bytes : List Byte}
    (fits : bytes.length ≤ c.buffer.freeSpace.toNat) :
    ∃ c', Served c c' bytes ∧ ServedBy k s i c c' bytes := by
  cases known : c.connected with
  | true => exact serveNamed_spec k found valid fits known
  | false => exact serveUnnamed_spec k found valid fits known

/-! Removals. -/

def removed (clients : List ClientInfo) (i : Nat) : List ClientInfo :=
  (popBack (moveFdFromBack clients i).1).1

/-- The slot of the removed client gets the last one's descriptor and nothing else of it. -/
theorem removed_of_getElem? {front : List ClientInfo} {back c : ClientInfo} {i : Nat}
    (found : front[i]? = some c) :
    removed (front ++ [back]) i = front.set i { c with fd := back.fd } := by
  have inside := (List.getElem?_eq_some_iff.mp found).1
  have slot : (front ++ [back])[i]? = some c := by rw [List.getElem?_append_left inside, found]
  have other : i ≠ (front ++ [back]).length - 1 := by simp; omega
  simp only [removed, popBack, moveFdFromBack, slot, List.getLast?_concat, if_neg other,
    ScopedFileDescriptor.moveAssign]
  rw [List.set_append_left _ _ inside]
  simp

theorem removed_last (front : List ClientInfo) (back : ClientInfo) :
    removed (front ++ [back]) front.length = front := by
  simp [removed, popBack, moveFdFromBack]

theorem map_fd_removed {clients : List ClientInfo} {i : Nat} (inside : i < clients.length) :
    (removed clients i).map (·.fd.get) = Slots.swapRemove (clients.map (·.fd.get)) i := by
  obtain ⟨front, back, rfl⟩ := Slots.exists_concat inside
  by_cases hi : i < front.length
  · have found := List.getElem?_eq_getElem hi
    rw [removed_of_getElem? found, List.map_append, List.map_singleton,
      Slots.swapRemove_of_lt (by simpa using hi), List.map_set]
  · have last_slot : i = front.length := by simp at inside; omega
    subst last_slot
    have len : front.length = (front.map (·.fd.get)).length := by simp
    rw [removed_last, List.map_append, List.map_singleton, len, Slots.swapRemove_last]

theorem removeClient_spec {s : ChatServer} {i : Nat} {c : ClientInfo}
    (found : s.clients[i]? = some c) (owned : ∀ c ∈ s.clients, 0 ≤ c.fd.get) :
    removeClient i s =
      ⟨{ s with clients := removed s.clients i }, [.close c.fd.get], .returned ()⟩ := by
  obtain ⟨inside, same⟩ := List.getElem?_eq_some_iff.mp found
  obtain ⟨front, back, split⟩ := Slots.exists_concat inside
  have mine : 0 ≤ c.fd.fd_ := owned c (List.mem_of_getElem? found)
  have logs : (moveFdFromBack s.clients i).2 ++ (popBack (moveFdFromBack s.clients i).1).2 =
      [.close c.fd.get] := by
    rw [split] at found inside ⊢
    by_cases hi : i < front.length
    · have other : i ≠ (front ++ [back]).length - 1 := by simp; omega
      simp only [popBack, moveFdFromBack, found, List.getLast?_concat, if_neg other,
        ScopedFileDescriptor.moveAssign]
      rw [List.set_append_left _ _ hi]
      simp [ScopedFileDescriptor.closing, ScopedFileDescriptor.get, mine]
    · have last_slot : i = front.length := by simp at inside; omega
      subst last_slot
      have self : back = c := by simpa using found
      simp [popBack, moveFdFromBack, self, ScopedFileDescriptor.closing,
        ScopedFileDescriptor.get, mine]
  simp [removeClient, logs, removed]

/-! The state `stop` leaves. -/

def stopped (s : ChatServer) : ChatServer :=
  { s with clients := [], signalfd := {}, listenfd := {}, running := false }

def stopLog (s : ChatServer) : List Event :=
  s.clients.flatMap (·.fd.closing) ++ s.signalfd.closing ++ s.listenfd.closing

theorem stop_eq (s : ChatServer) : stop s = ⟨s.stopped, s.stopLog, .returned ()⟩ := by
  simp [stop, stopped, stopLog]

/-! The relay. -/

/-- What the relay of a text leaves, and how it ends. It goes through exactly where every
recipient's answers carry the message. -/
inductive Relayed (write : Fd → List WriteAnswer) (fd : Fd) (name text : List Byte)
    (fds : List Fd) : List Event → Outcome Exn Unit → Prop
  | nothing (empty : text = []) : Relayed write fd name text fds [] (.returned ())
  | all (writes : List Event) (nonempty : text ≠ []) (inside : WritesTo fds writes)
      (carried : ∀ y ∈ fds, (carry (message name text).length (write y)).isSome)
      (each : ∀ y ∈ fds, sent y writes = message name text) :
      Relayed write fd name text fds (.relay fd name text :: writes) (.returned ())
  | stopped (writes : List Event) (outcome : Outcome Exn Unit) (nonempty : text ≠ [])
      (inside : WritesTo fds writes) (parts : ∀ y, sent y writes <+: message name text)
      (short : ∃ y ∈ fds, carry (message name text).length (write y) = none)
      (ends : outcome = .blocked ∨
        ∃ errno, outcome = .thrown (.systemError errno "write() failed")) :
      Relayed write fd name text fds (.relay fd name text :: writes) outcome

theorem relayTo_spec {S : Type} (write : Fd → List WriteAnswer) (fd : Fd) (name text : List Byte)
    {fds : List Fd} (distinct : fds.Nodup) (s : S) :
    ∃ log outcome, relayTo write fd name text fds s = ⟨s, log, outcome⟩ ∧
      Relayed write fd name text fds log outcome := by
  by_cases empty : text = []
  · exact ⟨[], .returned (), by simp [relayTo, empty], .nothing empty⟩
  · obtain ⟨writes, inside, parts, ends⟩ := writeEach_spec write (message name text) fds distinct s
    rcases ends with ⟨carried, each, eq⟩ | ⟨short, eq | ⟨errno, eq⟩⟩
    · exact ⟨_, _, by simp [relayTo, empty, eq], .all writes empty inside carried each⟩
    · exact ⟨_, _, by simp [relayTo, empty, eq],
        .stopped writes .blocked empty inside parts short (.inl rfl)⟩
    · exact ⟨_, _, by simp [relayTo, empty, eq],
        .stopped writes _ empty inside parts short (.inr ⟨errno, rfl⟩)⟩

/-- Where the loop goes on after a client was served, or why it is left. -/
def Control.after (next : Control) : Outcome Exn Unit → Control
  | .returned _ => next
  | .thrown e => .thrown e
  | .blocked => .blocked
  | .undefined => .undefined

/-- A ready client's turn: its entries in both vectors, and no error flag in the poll. -/
structure Turn (l : Loop) (pollfds : List PollFd) (i : Nat) (nready : Int) (p : PollFd)
    (c : ClientInfo) : Prop where
  at_client : l.control = .client pollfds i nready
  polled : pollfds[i + 2]? = some p
  found : l.server.clients[i]? = some c

def turn (l : Loop) : Option (Nat × PollFd × ClientInfo) :=
  match l.control with
  | .client pollfds i _ =>
    match pollfds[i + 2]?, l.server.clients[i]? with
    | some p, some c => some (i, p, c)
    | _, _ => none
  | _ => none

/-- The client this step reads from, with what the read answers. -/
def reading (l : Loop) (k : Kernel) : Option (ClientInfo × Except Errno (List Byte)) :=
  match turn l with
  | some (_, p, c) =>
    if p.revents.failed = false ∧ p.revents.pollin = true then
      some (c, (k.read c.fd.get).read c.buffer.freeSpace.toNat)
    else none
  | none => none

def leaving (l : Loop) (k : Kernel) : Option Nat :=
  match turn l with
  | some (i, p, c) =>
    if p.revents.failed = true then some i
    else if p.revents.pollin = true ∧
        (k.read c.fd.get).read c.buffer.freeSpace.toNat = .ok [] then some i
    else none
  | none => none

structure Idle (k : Kernel) (l : Loop) : Prop where
  reading : reading l k = none
  leaving : leaving l k = none

theorem Turn.turn_eq {l : Loop} {pollfds : List PollFd} {i : Nat} {nready : Int} {p : PollFd}
    {c : ClientInfo} (t : Turn l pollfds i nready p c) : turn l = some (i, p, c) := by
  simp [turn, t.at_client, t.polled, t.found]

theorem idle_of_turn {l : Loop} (k : Kernel) (none : turn l = none) : Idle k l :=
  ⟨by simp [reading, none], by simp [leaving, none]⟩

theorem Turn.idle {l : Loop} {pollfds : List PollFd} {i : Nat} {nready : Int} {p : PollFd}
    {c : ClientInfo} (t : Turn l pollfds i nready p c) (k : Kernel)
    (flags : p.revents.failed = false) (unready : p.revents.pollin = false) : Idle k l :=
  ⟨by simp [ChatServer.reading, t.turn_eq, flags, unready],
    by simp [ChatServer.leaving, t.turn_eq, flags, unready]⟩

/-- Where the loop goes when a step changes and logs nothing. -/
inductive Quiet (k : Kernel) (l : Loop) : Control → Prop
  | finished (at_poll : l.control = .poll) (off : l.server.running = false) : Quiet k l .returned
  | interrupted (at_poll : l.control = .poll) (answer : k.poll = .failed .EINTR) : Quiet k l .poll
  | pollFailed (at_poll : l.control = .poll) : Quiet k l (.thrown (.runtimeError "poll failed"))
  | polled (at_poll : l.control = .poll) (revents : Fd → Revents) (answer : k.poll = .ready revents)
      (nobody : (revents l.server.listenfd.get).pollin = false) :
      Quiet k l (.signal (l.server.polled revents) (readyCount (l.server.polled revents)))
  | acceptBlocked (at_poll : l.control = .poll) : Quiet k l .blocked
  | acceptFailed (at_poll : l.control = .poll) (e : Errno) :
      Quiet k l (.thrown (.systemError (some e) "accept() failed"))
  | unsignalled (pollfds : List PollFd) (nready : Int) (p : PollFd)
      (at_signal : l.control = .signal pollfds nready) (entry : pollfds[1]? = some p)
      (unready : p.revents.pollin = false) : Quiet k l (.client pollfds 0 nready)
  | noSignal (pollfds : List PollFd) (nready : Int) (at_signal : l.control = .signal pollfds nready)
      (missing : pollfds[1]? = none) : Quiet k l .undefined
  | through (pollfds : List PollFd) (i : Nat) (nready : Int)
      (at_client : l.control = .client pollfds i nready) (last : l.server.clients.length ≤ i) :
      Quiet k l .poll
  | missing (pollfds : List PollFd) (i : Nat) (nready : Int)
      (at_client : l.control = .client pollfds i nready) (inside : i < l.server.clients.length)
      (missing : pollfds[i + 2]? = none) : Quiet k l .undefined
  | unready (pollfds : List PollFd) (i : Nat) (nready : Int) (p : PollFd) (c : ClientInfo)
      (turn : Turn l pollfds i nready p c) (flags : p.revents.failed = false)
      (unready : p.revents.pollin = false) : Quiet k l (.client pollfds (i + 1) nready)
  | ended (left : l.control = .returned ∨ (∃ e, l.control = .thrown e) ∨ l.control = .blocked ∨
      l.control = .undefined) : Quiet k l l.control

/-- The effects of one step: all that it can change, log and go on with. -/
inductive Effect (k : Kernel) (l : Loop) : Loop → List Event → Prop
  | quiet (control : Control) (goes : Quiet k l control) (idle : Idle k l) :
      Effect k l ⟨l.server, control⟩ []
  | join (fd : Nat) (revents : Fd → Revents) (at_poll : l.control = .poll)
      (answer : .accepted fd ∈ k.accept) (ready : k.poll = .ready revents)
      (room : (l.server.clients.length : Int) < l.server.maxClients)
      (on : l.server.running = true)
      (listening : (revents l.server.listenfd.get).pollin = true) :
      Effect k l
        ⟨{ l.server with clients := l.server.clients ++ [newClient fd k.memory] },
          if readyCount (l.server.polled revents) - 1 ≤ 0 then .poll
          else .signal (l.server.polled revents ++ [{ fd := fd }])
            (readyCount (l.server.polled revents) - 1)⟩
        [.accept fd]
  | refuse (fd : Nat) (revents : Fd → Revents) (at_poll : l.control = .poll)
      (answer : .accepted fd ∈ k.accept) (ready : k.poll = .ready revents)
      (listening : (revents l.server.listenfd.get).pollin = true)
      (full : l.server.maxClients ≤ l.server.clients.length) :
      Effect k l
        ⟨l.server,
          if readyCount (l.server.polled revents) - 1 ≤ 0 then .poll
          else .signal (l.server.polled revents) (readyCount (l.server.polled revents) - 1)⟩
        [.accept fd, .close fd]
  | closeFailed (fd : Nat) (e : Errno) (at_poll : l.control = .poll)
      (answer : .accepted fd ∈ k.accept) (failed : k.close = some e)
      (full : l.server.maxClients ≤ l.server.clients.length) :
      Effect k l ⟨l.server, .thrown (.systemError (some e) "close() failed")⟩ [.accept fd]
  | signalFailed (e : Exn) (log : List Event) (idle : Idle k l)
      (tried : (∃ bytes, log = [.read l.server.signalfd.get bytes]) ∨
        ∃ e, log = [.readError l.server.signalfd.get e])
      (signalled : ∃ pollfds nready p, l.control = .signal pollfds nready ∧
        pollfds[1]? = some p ∧ p.revents.pollin = true) :
      Effect k l ⟨l.server, .thrown e⟩ log
  | stop (bytes : List Byte) (idle : Idle k l)
      (signalled : ∃ pollfds nready p, l.control = .signal pollfds nready ∧
        pollfds[1]? = some p ∧ p.revents.pollin = true) :
      Effect k l ⟨l.server.stopped, .returned⟩
        (.read l.server.signalfd.get bytes :: l.server.stopLog)
  | hangup (pollfds : List PollFd) (i : Nat) (nready : Int) (p : PollFd) (c : ClientInfo)
      (turn : Turn l pollfds i nready p c) (flags : p.revents.failed = true) :
      Effect k l
        ⟨{ l.server with clients := removed l.server.clients i },
          countDown (Slots.swapRemove pollfds (i + 2)) i nready⟩
        [.close c.fd.get]
  | eof (pollfds : List PollFd) (i : Nat) (nready : Int) (p : PollFd) (c : ClientInfo)
      (turn : Turn l pollfds i nready p c) (flags : p.revents.failed = false)
      (ready : p.revents.pollin = true)
      (nothing : (k.read c.fd.get).read c.buffer.freeSpace.toNat = .ok []) :
      Effect k l
        ⟨{ l.server with clients := removed l.server.clients i },
          countDown (Slots.swapRemove pollfds (i + 2)) i nready⟩
        [.read c.fd.get [], .close c.fd.get]
  | readFailed (pollfds : List PollFd) (i : Nat) (nready : Int) (p : PollFd) (c : ClientInfo)
      (e : Errno) (turn : Turn l pollfds i nready p c) (flags : p.revents.failed = false)
      (ready : p.revents.pollin = true)
      (failed : (k.read c.fd.get).read c.buffer.freeSpace.toNat = .error e) :
      Effect k l ⟨l.server, .thrown (.systemError (some e) "read() failed")⟩
        [.readError c.fd.get e]
  | serve (pollfds : List PollFd) (i : Nat) (nready : Int) (p : PollFd) (c c' : ClientInfo)
      (bytes : List Byte) (log : List Event) (outcome : Outcome Exn Unit)
      (turn : Turn l pollfds i nready p c) (flags : p.revents.failed = false)
      (ready : p.revents.pollin = true)
      (answer : (k.read c.fd.get).read c.buffer.freeSpace.toNat = .ok bytes)
      (nonempty : bytes ≠ []) (served : Served c c' bytes)
      (relayed : Relayed k.write c.fd.get c'.name (relayText c (landed c.buffer bytes))
        (l.server.recipients i) log outcome) :
      Effect k l ⟨l.server.setClient i c', .after (countDown pollfds (i + 1) nready) outcome⟩
        (.read c.fd.get bytes ::
          (namedLog c.fd.get (nameLine c (landed c.buffer bytes)) ++ log))

theorem step_eq {l : Loop} {k : Kernel} {s : ChatServer} {log : List Event}
    {o : Outcome Exn Control} (h : stepProgram k l.control l.server = ⟨s, log, o⟩) :
    step l k = (⟨s, .ofOutcome o⟩, log) := by
  simp [step, h]

theorem addClient_cases (k : Kernel) (connfd : Fd) (pollfds : List PollFd) (s : ChatServer) :
    ((s.clients.length : Int) < s.maxClients ∧ addClient k connfd pollfds s =
      ⟨{ s with clients := s.clients ++ [newClient connfd k.memory] }, [],
        .returned (pollfds ++ [{ fd := connfd }])⟩) ∨
    (s.maxClients ≤ s.clients.length ∧
      addClient k connfd pollfds s = ⟨s, [.close connfd], .returned pollfds⟩) ∨
    ∃ e, s.maxClients ≤ s.clients.length ∧ k.close = some e ∧
      addClient k connfd pollfds s = ⟨s, [], .thrown (.systemError (some e) "close() failed")⟩ := by
  by_cases full : (s.clients.length : Int) ≥ s.maxClients
  · cases answer : k.close with
    | none => exact .inr (.inl ⟨full, by simp [addClient, full, closeFd, answer]⟩)
    | some e => exact .inr (.inr ⟨e, full, rfl, by simp [addClient, full, closeFd, answer]⟩)
  · exact .inl ⟨by omega, by simp [addClient, full]⟩

theorem stepProgram_poll {l : Loop} (k : Kernel) (at_poll : l.control = .poll) :
    stepProgram k l.control l.server = pollStep k l.server := by
  simp [stepProgram, at_poll]

/-- The steps from the head of the `while`, by what the calls in them answer. -/
inductive PollEffect (k : Kernel) (l : Loop) : Loop × List Event → Prop
  | finished (off : l.server.running = false) : PollEffect k l (⟨l.server, .returned⟩, [])
  | interrupted (answer : k.poll = .failed .EINTR) : PollEffect k l (⟨l.server, .poll⟩, [])
  | failed (e : Errno) (answer : k.poll = .failed e) :
      PollEffect k l (⟨l.server, .thrown (.runtimeError "poll failed")⟩, [])
  | nobody (revents : Fd → Revents) (answer : k.poll = .ready revents)
      (nobody : (revents l.server.listenfd.get).pollin = false) :
      PollEffect k l (⟨l.server, .signal (l.server.polled revents)
        (readyCount (l.server.polled revents))⟩, [])
  | joined (revents : Fd → Revents) (fd : Nat) (on : l.server.running = true)
      (answer : k.poll = .ready revents)
      (listening : (revents l.server.listenfd.get).pollin = true) (member : .accepted fd ∈ k.accept)
      (accepted : (acceptSocket k.accept l.server).outcome = .returned fd)
      (room : (l.server.clients.length : Int) < l.server.maxClients) :
      PollEffect k l (⟨
        { l.server with clients := l.server.clients ++ [newClient fd k.memory] },
        if readyCount (l.server.polled revents) - 1 ≤ 0 then .poll
        else .signal (l.server.polled revents ++ [{ fd := fd }])
          (readyCount (l.server.polled revents) - 1)⟩, [.accept fd])
  | refused (revents : Fd → Revents) (fd : Nat) (on : l.server.running = true)
      (answer : k.poll = .ready revents)
      (listening : (revents l.server.listenfd.get).pollin = true) (member : .accepted fd ∈ k.accept)
      (accepted : (acceptSocket k.accept l.server).outcome = .returned fd)
      (full : l.server.maxClients ≤ l.server.clients.length) :
      PollEffect k l (⟨l.server,
        if readyCount (l.server.polled revents) - 1 ≤ 0 then .poll
        else .signal (l.server.polled revents) (readyCount (l.server.polled revents) - 1)⟩,
        [.accept fd, .close fd])
  | unclosed (revents : Fd → Revents) (fd : Nat) (e : Errno) (on : l.server.running = true)
      (answer : k.poll = .ready revents)
      (listening : (revents l.server.listenfd.get).pollin = true) (member : .accepted fd ∈ k.accept)
      (accepted : (acceptSocket k.accept l.server).outcome = .returned fd)
      (full : l.server.maxClients ≤ l.server.clients.length) (failed : k.close = some e) :
      PollEffect k l (⟨l.server, .thrown (.systemError (some e) "close() failed")⟩, [.accept fd])
  | waits (revents : Fd → Revents) (on : l.server.running = true) (answer : k.poll = .ready revents)
      (listening : (revents l.server.listenfd.get).pollin = true)
      (blocked : (acceptSocket k.accept l.server).outcome = .blocked) :
      PollEffect k l (⟨l.server, .blocked⟩, [])
  | unaccepted (revents : Fd → Revents) (e : Errno) (on : l.server.running = true)
      (answer : k.poll = .ready revents)
      (listening : (revents l.server.listenfd.get).pollin = true)
      (thrown : (acceptSocket k.accept l.server).outcome =
        .thrown (.systemError (some e) "accept() failed")) :
      PollEffect k l (⟨l.server, .thrown (.systemError (some e) "accept() failed")⟩, [])

/-- A new connection is reported. -/
theorem acceptStep_cases {k : Kernel} {l : Loop} (at_poll : l.control = .poll)
    (running : l.server.running = true) {revents : Fd → Revents} (answer : k.poll = .ready revents)
    (listening : (revents l.server.listenfd.get).pollin = true) : PollEffect k l (step l k) := by
  have unfolded := stepProgram_poll k at_poll
  rcases acceptSocket_cases k.accept l.server with ⟨fd, member, accepted⟩ | blocked | ⟨e, thrown⟩
  · have got : (acceptSocket k.accept l.server).outcome = .returned fd := by rw [accepted]
    rcases addClient_cases k fd (l.server.polled revents) l.server
      with ⟨room, added⟩ | ⟨full, added⟩ | ⟨e, full, failed, added⟩
    · have eq : stepProgram k l.control l.server = ⟨
          { l.server with clients := l.server.clients ++ [newClient fd k.memory] },
          [.accept fd], .returned
          (if readyCount (l.server.polled revents) - 1 ≤ 0 then .poll
           else .signal (l.server.polled revents ++ [{ fd := fd }])
            (readyCount (l.server.polled revents) - 1))⟩ :=
        unfolded.trans (by simp [pollStep, running, answer, listening, accepted, added])
      rw [step_eq eq]
      exact .joined revents fd running answer listening member got room
    · have eq : stepProgram k l.control l.server = ⟨l.server, [.accept fd, .close fd], .returned
          (if readyCount (l.server.polled revents) - 1 ≤ 0 then .poll
           else .signal (l.server.polled revents)
            (readyCount (l.server.polled revents) - 1))⟩ :=
        unfolded.trans (by simp [pollStep, running, answer, listening, accepted, added])
      rw [step_eq eq]
      exact .refused revents fd running answer listening member got full
    · have eq : stepProgram k l.control l.server = ⟨l.server, [.accept fd],
          .thrown (.systemError (some e) "close() failed")⟩ :=
        unfolded.trans (by simp [pollStep, running, answer, listening, accepted, added])
      rw [step_eq eq]
      exact .unclosed revents fd e running answer listening member got full failed
  · have eq : stepProgram k l.control l.server = ⟨l.server, [], .blocked⟩ :=
      unfolded.trans (by simp [pollStep, running, answer, listening, blocked])
    rw [step_eq eq]
    exact .waits revents running answer listening (by rw [blocked])
  · have eq : stepProgram k l.control l.server =
        ⟨l.server, [], .thrown (.systemError (some e) "accept() failed")⟩ :=
      unfolded.trans (by simp [pollStep, running, answer, listening, thrown])
    rw [step_eq eq]
    exact .unaccepted revents e running answer listening (by rw [thrown])

theorem pollStep_cases (k : Kernel) {l : Loop} (at_poll : l.control = .poll) :
    PollEffect k l (step l k) := by
  have unfolded := stepProgram_poll k at_poll
  cases running : l.server.running with
  | false =>
    have eq : stepProgram k l.control l.server = ⟨l.server, [], .returned .returned⟩ :=
      unfolded.trans (by simp [pollStep, running])
    rw [step_eq eq]
    exact .finished running
  | true =>
    cases answer : k.poll with
    | failed e =>
      by_cases again : e = .EINTR
      · have eq : stepProgram k l.control l.server = ⟨l.server, [], .returned .poll⟩ :=
          unfolded.trans (by simp [pollStep, running, answer, again])
        rw [step_eq eq]
        exact .interrupted (again ▸ answer)
      · have eq : stepProgram k l.control l.server =
            ⟨l.server, [], .thrown (.runtimeError "poll failed")⟩ :=
          unfolded.trans (by simp [pollStep, running, answer, again])
        rw [step_eq eq]
        exact .failed e answer
    | ready revents =>
      cases listening : (revents l.server.listenfd.get).pollin with
      | false =>
        have eq : stepProgram k l.control l.server = ⟨l.server, [], .returned
            (.signal (l.server.polled revents) (readyCount (l.server.polled revents)))⟩ :=
          unfolded.trans (by simp [pollStep, running, answer, listening])
        rw [step_eq eq]
        exact .nobody revents answer listening
      | true => exact acceptStep_cases at_poll running answer listening

theorem pollStep_effect (k : Kernel) (l : Loop) (at_poll : l.control = .poll) :
    Effect k l (step l k).1 (step l k).2 := by
  have polled := pollStep_cases k at_poll
  have idle : Idle k l := idle_of_turn k (by simp [turn, at_poll])
  generalize step l k = next at polled
  cases polled with
  | finished off => exact .quiet _ (.finished at_poll off) idle
  | interrupted answer => exact .quiet _ (.interrupted at_poll answer) idle
  | failed e => exact .quiet _ (.pollFailed at_poll) idle
  | nobody revents answer nobody => exact .quiet _ (.polled at_poll revents answer nobody) idle
  | joined revents fd on answer listening member _ room =>
    exact .join fd revents at_poll member answer room on listening
  | refused revents fd on answer listening member _ full =>
    exact .refuse fd revents at_poll member answer listening full
  | unclosed revents fd e on answer listening member _ full failed =>
    exact .closeFailed fd e at_poll member failed full
  | waits => exact .quiet _ (.acceptBlocked at_poll) idle
  | unaccepted revents e => exact .quiet _ (.acceptFailed at_poll e) idle

theorem signalStep_effect (k : Kernel) (l : Loop) {pollfds : List PollFd} {nready : Int}
    (at_signal : l.control = .signal pollfds nready) : Effect k l (step l k).1 (step l k).2 := by
  have unfolded : stepProgram k l.control l.server = signalStep k pollfds nready l.server := by
    simp [stepProgram, at_signal]
  have idle : Idle k l := idle_of_turn k (by simp [turn, at_signal])
  cases entry : pollfds[1]? with
  | none =>
    have eq : stepProgram k l.control l.server = ⟨l.server, [], .undefined⟩ :=
      unfolded.trans (by simp [signalStep, entry])
    rw [step_eq eq]
    exact .quiet _ (.noSignal pollfds nready at_signal entry) idle
  | some p =>
    cases signalled : p.revents.pollin with
    | false =>
      have eq : stepProgram k l.control l.server =
          ⟨l.server, [], .returned (.client pollfds 0 nready)⟩ :=
        unfolded.trans (by simp [signalStep, entry, signalled])
      rw [step_eq eq]
      exact .quiet _ (.unsignalled pollfds nready p at_signal entry signalled) idle
    | true =>
      have here : ∃ pollfds nready p, l.control = .signal pollfds nready ∧
          pollfds[1]? = some p ∧ p.revents.pollin = true :=
        ⟨pollfds, nready, p, at_signal, entry, signalled⟩
      cases answer : (k.read l.server.signalfd.get).read siginfoSize with
      | error e =>
        have eq : stepProgram k l.control l.server = ⟨l.server,
            [.readError l.server.signalfd.get e],
            .thrown (.systemError (some e) "read() failed")⟩ :=
          unfolded.trans (by simp [signalStep, entry, signalled, readFd, answer])
        rw [step_eq eq]
        exact .signalFailed _ _ idle (.inr ⟨e, rfl⟩) here
      | ok bytes =>
        by_cases whole : bytes.length = siginfoSize
        · have eq : stepProgram k l.control l.server = ⟨l.server.stopped,
              .read l.server.signalfd.get bytes :: l.server.stopLog, .returned .returned⟩ :=
            unfolded.trans (by simp [signalStep, entry, signalled, readFd, answer, whole, stop_eq])
          rw [step_eq eq]
          exact .stop bytes idle here
        · have eq : stepProgram k l.control l.server = ⟨l.server,
              [.read l.server.signalfd.get bytes],
              .thrown (.runtimeError "failed to read signalfd")⟩ :=
            unfolded.trans (by simp [signalStep, entry, signalled, readFd, answer, whole])
          rw [step_eq eq]
          exact .signalFailed _ _ idle (.inl ⟨bytes, rfl⟩) here

theorem stepProgram_client {l : Loop} (k : Kernel) {pollfds : List PollFd} {i : Nat} {nready : Int}
    (at_client : l.control = .client pollfds i nready) :
    stepProgram k l.control l.server = clientStep k pollfds i nready l.server := by
  simp [stepProgram, at_client]

/-- A client is read, and the read does not fail. -/
theorem readStep_effect {k : Kernel} {l : Loop} (good : l.server.Good) {pollfds : List PollFd}
    {i : Nat} {nready : Int} {p : PollFd} {c : ClientInfo} (turn : Turn l pollfds i nready p c)
    (flags : p.revents.failed = false) (ready : p.revents.pollin = true) {bytes : List Byte}
    (answer : (k.read c.fd.get).read c.buffer.freeSpace.toNat = .ok bytes) :
    Effect k l (step l k).1 (step l k).2 := by
  have unfolded := stepProgram_client k turn.at_client
  have found := turn.found
  have polled := turn.polled
  obtain ⟨inside, same⟩ := List.getElem?_eq_some_iff.mp found
  have filled : onBuffer i (Program.modify fun b => b.writeAt 0 bytes) l.server =
      ⟨l.server.setClient i (c.withBuffer (c.buffer.writeAt 0 bytes)), [], .returned ()⟩ :=
    onBuffer_of_getElem? found rfl
  by_cases empty : bytes = []
  · subst empty
    have gone := removeClient_spec found good.owned
    rw [Buffer.writeAt_nil, ClientInfo.withBuffer_self, setClient_self found] at filled
    have eq : stepProgram k l.control l.server =
        ⟨{ l.server with clients := removed l.server.clients i },
          [.read c.fd.get [], .close c.fd.get],
          .returned (countDown (Slots.swapRemove pollfds (i + 2)) i nready)⟩ :=
      unfolded.trans (by
        simp [clientStep, inside, same, polled, flags, ready, readFd, answer, filled, gone])
    rw [step_eq eq]
    exact .eof pollfds i nready p c turn flags ready answer
  · obtain ⟨c', served, eq⟩ := serveClient_spec k found
      (good.valid c (List.mem_of_getElem? found)) (ReadAnswer.read_length answer)
    have distinct : (l.server.recipients i).Nodup := good.distinct.eraseIdx i
    obtain ⟨log, outcome, relay, relayed⟩ := relayTo_spec k.write c.fd.get c'.name
      (relayText c (landed c.buffer bytes)) distinct (l.server.setClient i c')
    rw [ServedBy, Program.andThen_returned, relay] at eq
    have counted : ¬ (bytes.length : Int) < 0 := by omega
    have turned : stepProgram k l.control l.server =
        Program.andThen ⟨l.server.setClient i c', .read c.fd.get bytes ::
          (namedLog c.fd.get (nameLine c (landed c.buffer bytes)) ++ log), outcome⟩
          fun _ => pure (countDown pollfds (i + 1) nready) := by
      rw [unfolded]
      cases outcome <;>
        simp [clientStep, inside, same, polled, flags, ready, readFd, answer, filled,
          empty, counted, eq]
    have stepped : step l k = (⟨l.server.setClient i c',
        .after (countDown pollfds (i + 1) nready) outcome⟩, .read c.fd.get bytes ::
          (namedLog c.fd.get (nameLine c (landed c.buffer bytes)) ++ log)) := by
      cases outcome <;> simp [step, turned, Control.after, Control.ofOutcome]
    rw [stepped]
    exact .serve pollfds i nready p c c' bytes log outcome turn flags ready answer empty
      served relayed

/-- A client's turn, whatever the poll reported for it. -/
theorem turnStep_effect (k : Kernel) {l : Loop} (good : l.server.Good) {pollfds : List PollFd}
    {i : Nat} {nready : Int} {p : PollFd} {c : ClientInfo} (turn : Turn l pollfds i nready p c) :
    Effect k l (step l k).1 (step l k).2 := by
  have unfolded := stepProgram_client k turn.at_client
  have polled := turn.polled
  obtain ⟨inside, same⟩ := List.getElem?_eq_some_iff.mp turn.found
  cases flags : p.revents.failed with
  | true =>
    have gone := removeClient_spec turn.found good.owned
    have eq : stepProgram k l.control l.server =
        ⟨{ l.server with clients := removed l.server.clients i }, [.close c.fd.get],
          .returned (countDown (Slots.swapRemove pollfds (i + 2)) i nready)⟩ :=
      unfolded.trans (by simp [clientStep, inside, polled, flags, gone])
    rw [step_eq eq]
    exact .hangup pollfds i nready p c turn flags
  | false =>
    cases ready : p.revents.pollin with
    | false =>
      have eq : stepProgram k l.control l.server =
          ⟨l.server, [], .returned (.client pollfds (i + 1) nready)⟩ :=
        unfolded.trans (by simp [clientStep, inside, same, polled, flags, ready])
      rw [step_eq eq]
      exact .quiet _ (.unready pollfds i nready p c turn flags ready) (turn.idle k flags ready)
    | true =>
      cases answer : (k.read c.fd.get).read c.buffer.freeSpace.toNat with
      | error e =>
        have eq : stepProgram k l.control l.server = ⟨l.server, [.readError c.fd.get e],
            .thrown (.systemError (some e) "read() failed")⟩ :=
          unfolded.trans (by
            simp [clientStep, inside, same, polled, flags, ready, readFd, answer])
        rw [step_eq eq]
        exact .readFailed pollfds i nready p c e turn flags ready answer
      | ok bytes => exact readStep_effect good turn flags ready answer

theorem clientStep_effect (k : Kernel) (l : Loop) (good : l.server.Good) {pollfds : List PollFd}
    {i : Nat} {nready : Int} (at_client : l.control = .client pollfds i nready) :
    Effect k l (step l k).1 (step l k).2 := by
  have unfolded := stepProgram_client k at_client
  cases found : l.server.clients[i]? with
  | none =>
    have outside : ¬ i < l.server.clients.length := by
      simpa using List.getElem?_eq_none_iff.mp found
    have eq : stepProgram k l.control l.server = ⟨l.server, [], .returned .poll⟩ :=
      unfolded.trans (by simp [clientStep, outside])
    rw [step_eq eq]
    exact .quiet _ (.through pollfds i nready at_client (Nat.le_of_not_lt outside))
      (idle_of_turn k (by simp [turn, at_client, found]))
  | some c =>
    obtain ⟨inside, same⟩ := List.getElem?_eq_some_iff.mp found
    cases polled : pollfds[i + 2]? with
    | none =>
      have eq : stepProgram k l.control l.server = ⟨l.server, [], .undefined⟩ :=
        unfolded.trans (by simp [clientStep, inside, polled])
      rw [step_eq eq]
      exact .quiet _ (.missing pollfds i nready at_client inside polled)
        (idle_of_turn k (by simp [turn, at_client, polled]))
    | some p => exact turnStep_effect k good ⟨at_client, polled, found⟩

/-- Every step has one of the effects, whatever the kernel answers. -/
theorem step_effect (k : Kernel) (l : Loop) (good : l.server.Good) :
    Effect k l (step l k).1 (step l k).2 := by
  cases at_ : l.control with
  | poll => exact pollStep_effect k l at_
  | signal pollfds nready => exact signalStep_effect k l at_
  | client pollfds i nready => exact clientStep_effect k l good at_
  | returned | thrown | blocked | undefined =>
    have eq : step l k = (⟨l.server, l.control⟩, []) := by
      simp [step, stepProgram, at_, Control.ofOutcome]
    rw [eq]
    exact .quiet _ (.ended (by simp [at_])) (idle_of_turn k (by simp [turn, at_]))

end TcpChat.ChatServer
