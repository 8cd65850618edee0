import TcpChat.Server.Run

/-! Failing writes and reads. `write_full` and `read_fd` throw, and nothing in the loop
catches, so a dead peer takes the whole server with it. -/
namespace TcpChat.ChatServer
open Machine

/-! A write to a dead recipient. -/

def owed (name text : List Byte) : List Byte := if text = [] then [] else message name text

def Healthy (write : Fd → List WriteAnswer) (bytes : List Byte) (y : Fd) : Prop :=
  (carry bytes.length (write y)).isSome

def ReachesHealthy (write : Fd → List WriteAnswer) (fds : List Fd) (bytes : List Byte)
    (log : List Event) : Prop :=
  ∀ y ∈ fds, Healthy write bytes y → sent y log = bytes

theorem relayed_reaches_iff {write : Fd → List WriteAnswer} {fd : Fd} {name text : List Byte}
    {fds : List Fd} {tail : List Event} {outcome : Outcome Exn Unit}
    (relayed : Relayed write fd name text fds tail outcome) :
    outcome = .returned () ∧ ReachesHealthy write fds (owed name text) tail ↔
      ∀ y ∈ fds, Healthy write (owed name text) y := by
  cases relayed with
  | nothing empty =>
    have none : owed name text = [] := by simp [owed, empty]
    constructor
    · intro _ y _
      simp [none, Healthy, carry]
    · intro _
      exact ⟨rfl, fun y _ _ => by rw [none]; rfl⟩
  | all writes nonempty inside carried each =>
    have bytes : owed name text = message name text := by simp [owed, nonempty]
    rw [bytes]
    constructor
    · intro _ y member
      exact carried y member
    · intro _
      exact ⟨rfl, fun y member _ => by simp [Event.sentTo, each y member]⟩
  | stopped writes _ nonempty inside parts short ends =>
    have bytes : owed name text = message name text := by simp [owed, nonempty]
    rw [bytes]
    constructor
    · rintro ⟨returned, _⟩
      rcases ends with rfl | ⟨errno, rfl⟩ <;> cases returned
    · intro healthy
      obtain ⟨y, member, none⟩ := short
      have carried := healthy y member
      rw [Healthy, none] at carried
      cases carried

/-- The name a client has once this much of its stream is live. -/
def nameWith (c : ClientInfo) (live : List Byte) : List Byte :=
  if nameLine c live = [] then c.name else (nameLine c live).dropLast

/-- The loop goes on: at one of its heads, or by its own return. -/
def Serving (control : Control) : Prop :=
  control ≠ .blocked ∧ (∀ e, control ≠ .thrown e) ∧ control ≠ .undefined

theorem serving_after_iff {control : Control} (goes_on : ∃ p i n, control = countDown p i n)
    (outcome : Outcome Exn Unit) : Serving (control.after outcome) ↔ outcome = .returned () := by
  obtain ⟨p, i, n, rfl⟩ := goes_on
  cases outcome with
  | returned u =>
    by_cases last : n - 1 ≤ 0 <;> simp [Serving, Control.after, countDown, last]
  | thrown e => simp [Serving, Control.after]
  | blocked => simp [Serving, Control.after]
  | undefined => simp [Serving, Control.after]

/-- A broadcast reaches every recipient whose writes succeed, and the loop goes on, exactly
where all recipients' writes succeed: for the call, and for the step that makes it. -/
theorem broadcast_survives_iff (r : ServerRun) (k : Kernel) :
    (∀ s : ChatServer, s.Good → ∀ i c, s.clients[i]? = some c →
      let bytes := owed c.name (Framing.complete newline c.buffer.content)
      (respondToClient k.write i s).outcome = .returned () ∧
          ReachesHealthy k.write (s.recipients i) bytes (respondToClient k.write i s).events ↔
        ∀ y ∈ s.recipients i, Healthy k.write bytes y) ∧
    ∀ i p c bytes, turn r.final = some (i, p, c) →
      reading r.final k = some (c, .ok bytes) → bytes ≠ [] →
      let live := landed c.buffer bytes
      let bytes := owed (nameWith c live) (relayText c live)
      Serving (step r.final k).1.control ∧
          ReachesHealthy k.write (r.final.server.recipients i) bytes (step r.final k).2 ↔
        ∀ y ∈ r.final.server.recipients i, Healthy k.write bytes y := by
  constructor
  · intro s good i c found
    obtain ⟨b, _, _, eq⟩ := respondToClient_spec k.write found (good.valid c (mem_clients found))
    obtain ⟨log, outcome, relay, relayed⟩ := relayTo_spec k.write c.fd.get c.name
      (Framing.complete newline c.buffer.content) (good.distinct.eraseIdx i)
      (s.setClient i (c.withBuffer b))
    rw [eq, recipients, relay]
    exact relayed_reaches_iff relayed
  · intro i p c bytes its_turn reads nonempty
    obtain ⟨j, c', tail, control, outcome, serve⟩ :=
      serve_of_effect (step_effect k _ r.good) reads nonempty
    obtain ⟨q, same⟩ := serve.its_turn
    obtain ⟨rfl, _, _⟩ : i = j ∧ p = q ∧ c = c := by simpa using its_turn.symm.trans same
    have name : nameWith c (landed c.buffer bytes) = c'.name := serve.served.name.symm
    have streams : ReachesHealthy k.write (r.final.server.recipients i)
          (owed c'.name (relayText c (landed c.buffer bytes))) (step r.final k).2 ↔
        ReachesHealthy k.write (r.final.server.recipients i)
          (owed c'.name (relayText c (landed c.buffer bytes))) tail := by
      simp only [ReachesHealthy, serve.more, sent_serve]
    have goes_on : Serving (step r.final k).1.control ↔ outcome = .returned () := by
      rw [serve.next]
      exact serving_after_iff serve.goes_on outcome
    simp only [name, goes_on, streams]
    exact relayed_reaches_iff serve.relayed

instance (write : Fd → List WriteAnswer) (bytes : List Byte) (y : Fd) :
    Decidable (Healthy write bytes y) := inferInstanceAs (Decidable (_ = true))

/-- Three clients, at the turn of the third one, which has a line to say. -/
def aboutToSpeak : ServerRun where
  server := listening
  kernels := joins 5 ++ joins 6 ++ joins 7 ++ delivers 7 2 (ascii ['C', '\n']) ++
    (delivers 7 2 (ascii ['h', 'i', '\n'])).take 4
  empty := listening_clients
  fresh := by decide +kernel

/-- The line, and a first recipient whose connection is dead or alive. -/
def hi (answer : WriteAnswer) : Kernel where
  poll := .failed .EINTR
  read := fun _ => .ofBytes (ascii ['h', 'i', '\n'])
  write := fun y => if y = 5 then [answer] else [.accepted bufferSize]

theorem dead_recipient_spoils :
    6 ∈ aboutToSpeak.final.server.recipients 2 ∧
    Healthy (hi (.failed .EPIPE)).write (message (ascii ['C']) (ascii ['h', 'i', '\n'])) 6 ∧
    sent 6 (step aboutToSpeak.final (hi (.failed .EPIPE))).2 = [] ∧
    (step aboutToSpeak.final (hi (.failed .EPIPE))).1.control =
      .thrown (.systemError (some .EPIPE) "write() failed") := by
  decide +kernel

def speaker : ClientInfo :=
  aboutToSpeak.final.server.clients.getD 2 (newClient 0 (Cells.fill bufferSize 0))

theorem living_recipients_reached :
    Serving (step aboutToSpeak.final (hi (.accepted bufferSize))).1.control ∧
      ReachesHealthy (hi (.accepted bufferSize)).write (aboutToSpeak.final.server.recipients 2)
        (owed (nameWith speaker (landed speaker.buffer (ascii ['h', 'i', '\n'])))
          (relayText speaker (landed speaker.buffer (ascii ['h', 'i', '\n']))))
        (step aboutToSpeak.final (hi (.accepted bufferSize))).2 :=
  ((broadcast_survives_iff aboutToSpeak (hi (.accepted bufferSize))).2 2
    { fd := 7, revents := { pollin := true } } speaker (ascii ['h', 'i', '\n'])
    (by decide +kernel) (by decide +kernel) (by decide)).mpr (by decide +kernel)

/-! A read from a connection that the peer reset. -/

def Kernel.ended (k : Kernel) (fd : Fd) : Kernel :=
  { k with read := fun y => if y = fd then .eof else k.read y }

/-- The reset client is removed and closed, and the step ends as at the end of its stream. -/
structure HandledLikeEof (l : Loop) (k : Kernel) (c : ClientInfo) : Prop where
  removed : c.fd.get ∉ (step l k).1.server.descriptors
  closed : .close c.fd.get ∈ (step l k).2
  same : (step l k).1 = (step l (k.ended c.fd.get)).1

theorem leaving_ended {l : Loop} {k : Kernel} {c : ClientInfo} {a : Except Errno (List Byte)}
    (reads : reading l k = some (c, a)) :
    ∃ i, leaving l (k.ended c.fd.get) = some i ∧ l.server.clients[i]? = some c := by
  obtain ⟨i, p, its_turn, flags, ready, _⟩ := turn_of_reading reads
  have nothing : ((k.ended c.fd.get).read c.fd.get).read c.buffer.freeSpace.toNat = .ok [] := by
    rw [ReadAnswer.read_eq_nil_iff]
    exact .inr (by simp [Kernel.ended])
  exact ⟨i, by simp [leaving, its_turn, flags, ready, nothing], turn_found its_turn⟩

/-- The branch for a reset is behind a `read_fd` that throws: every such read leaves the loop,
with the client still in `clients`. -/
theorem reset_never_handled (r : ServerRun) (k : Kernel) (c : ClientInfo)
    (reset : reading r.final k = some (c, .error .ECONNRESET)) :
    ¬ HandledLikeEof r.final k c ∧ (step r.final k).1 ≠ (step r.final (k.ended c.fd.get)).1 ∧
      c.fd.get ∈ (step r.final k).1.server.descriptors ∧ .close c.fd.get ∉ (step r.final k).2 ∧
      ∀ later, (Machine.run step r.final (k :: later)).1.control =
        .thrown (.systemError (some .ECONNRESET) "read() failed") := by
  obtain ⟨next, log⟩ := readFailed_of_effect (step_effect k _ r.good) reset
  obtain ⟨i, leaves, found⟩ := leaving_ended reset
  have still : c.fd.get ∈ (step r.final k).1.server.descriptors := by
    rw [next]
    exact mem_descriptors (mem_clients found)
  have gone := gone_of_leaving (step_effect (k.ended c.fd.get) _ r.good) r.good leaves found
  refine ⟨fun handled => handled.removed still, fun same => gone (same ▸ still), still, ?_, ?_⟩
  · rw [log]
    simp
  · intro later
    rw [run_cons, next, run_of_left (by simp [Returns])]

def resets : Kernel where
  poll := .failed .EINTR
  read := fun _ => .failed .ECONNRESET

theorem reset_kills_server :
    reading aboutToSpeak.final resets = some (speaker, .error .ECONNRESET) ∧
    (step aboutToSpeak.final resets).1 ≠
      (step aboutToSpeak.final (resets.ended speaker.fd.get)).1 ∧
    (step aboutToSpeak.final resets).1.control =
      .thrown (.systemError (some .ECONNRESET) "read() failed") := by
  decide +kernel

theorem speaker_reset_unhandled : ¬ HandledLikeEof aboutToSpeak.final resets speaker :=
  (reset_never_handled aboutToSpeak resets speaker (by decide +kernel)).1

end TcpChat.ChatServer
