import Mathlib.Algebra.Order.BigOperators.Group.Finset
import Mathlib.Data.Prod.Lex
import TcpChat.Server.Rest
import TcpChat.System.Chat

/-! The network comes to rest. From a state between two rounds of the server, whatever the parties
have sent can be delivered, unless a line is longer than a buffer. -/
namespace TcpChat

namespace ChatClient

/-- In the middle of its session, and about to poll. -/
structure Listens (l : Loop) : Prop where
  polls : l.control = .poll
  on : l.client.connected = true

theorem readFrom_printLog (fd : Fd) (text : List Byte) : readFrom fd (printLog text) = [] := by
  unfold printLog
  split <;> rfl

theorem sent_printLog (fd : Fd) (text : List Byte) : sent fd (printLog text) = [] := by
  unfold printLog
  split <;> rfl

theorem step_of_hears {fd sfd : Fd} {l : Loop} (wired : Wired fd sfd l) (distinct : Distinct fd sfd)
    (listens : Listens l) (bytes : List Byte) :
    Listens (step l (hears fd bytes)).1 ∧ sent fd (step l (hears fd bytes)).2 = [] ∧
      ∀ y, readFrom y (step l (hears fd bytes)).2 =
        if y = fd then bytes.take l.client.readBuffer.freeSpace.toNat else [] := by
  obtain ⟨here, watched⟩ := wired.wired listens.on
  have ready : polled l (hears fd bytes) = some fun y => { pollin := y = fd } := by
    simp [polled, listens.polls, listens.on, hears]
  have effect := step_effect (hears fd bytes) l wired.good
  generalize step l (hears fd bytes) = next at effect ⊢
  obtain ⟨l', more⟩ := next
  have quietly : ∀ {y c c' log} {o : Outcome Exn Bool}, y ≠ fd →
      StdinPart (hears fd bytes) { pollin := y = fd } c c' log o →
        c' = c ∧ log = [] ∧ o = .returned true := by
    intro y c c' log o other part
    cases part with
    | idle => exact ⟨rfl, rfl, rfl⟩
    | eof ready | readFailed _ ready | forwarded _ _ _ ready | stuck _ _ _ _ ready =>
      simp [other] at ready
  cases effect with
  | quiet _ unpolled =>
    rw [unpolled] at ready
    cases ready
  | stdinEnds revents ready' c₁ log₁ o stdin ends =>
    cases ready'.symm.trans ready
    exact absurd (quietly distinct.socket.symm stdin).2.2 ends
  | serverEnds revents ready' c₁ c₂ log₁ log₂ o stdin server ends =>
    cases ready'.symm.trans ready
    obtain ⟨rfl, rfl, -⟩ := quietly distinct.socket.symm stdin
    cases server with
    | idle => exact absurd rfl ends
    | readFailed e _ failed => simp [hears, ReadAnswer.read_ofBytes] at failed
    | received => exact absurd rfl ends
  | through revents ready' c₁ c₂ c₃ log₁ log₂ log₃ o stdin server signal =>
    cases ready'.symm.trans ready
    obtain ⟨rfl, rfl, -⟩ := quietly distinct.socket.symm stdin
    rw [here] at server
    rw [watched] at signal
    cases server with
    | idle unready => simp at unready
    | received taken b _ answer =>
      obtain rfl : bytes.take l.client.readBuffer.freeSpace.toNat = taken := by
        simpa [hears, ReadAnswer.read_ofBytes] using answer
      cases signal with
      | idle =>
        refine ⟨⟨rfl, listens.on⟩, ?_, fun y => ?_⟩
        · rw [here, List.append_nil]
          exact sent_printLog fd _
        · rw [here, List.append_nil]
          change Event.readFrom y (.read fd _) ++ readFrom y (printLog _) = _
          rw [readFrom_printLog, List.append_nil]
          simp only [Event.readFrom, eq_comm]
      | stop _ ready | partly _ ready | readFailed _ ready => simp [distinct.both] at ready

end ChatClient

namespace Network
open Machine

variable {ι : Type} [DecidableEq ι] {guest : ι → Guest}

omit [DecidableEq ι] in
theorem serves_of_idles {n : Network ι} {k : ChatServer.Kernel}
    (idles : ChatServer.Idles n.server k) (next : ι) : n.Serves next k where
  fresh fd member := by
    rw [ChatServer.Kernel.accepted, idles.refuses] at member
    cases member
  queued := by simp [idles.silent]
  offered i := by
    rw [idles.silent]
    unfold Wire.Offers
    split
    · exact List.nil_prefix
    · trivial
  fits i leaves := by
    rw [idles.idle.leaving] at leaves
    cases leaves
  behind := by simp [ChatServer.LandsBehind, idles.idle.reading]

variable (guest) in
theorem step_of_idles {n : Network ι} {k : ChatServer.Kernel} (idles : ChatServer.Idles n.server k)
    (next : ι) : n.step guest (.server next k) =
      ({ n with server := (ChatServer.step n.server k).1 }, []) := by
  simp [step, idles.silent]

variable (guest) in
theorem idle_run {n : Network ι} (next : ι) {ks : List ChatServer.Kernel}
    (idles : Along ChatServer.step ChatServer.Idles n.server ks) :
    Along (step guest) (Allowed guest) n (ks.map (.server next)) ∧
      Machine.run (step guest) n (ks.map (.server next)) =
        ({ n with server := (Machine.run ChatServer.step n.server ks).1 }, []) := by
  induction ks generalizing n with
  | nil => exact ⟨trivial, rfl⟩
  | cons k ks ih =>
    obtain ⟨first, later⟩ := idles
    have after := step_of_idles guest first next
    obtain ⟨allowed, run⟩ :=
      ih (n := { n with server := (ChatServer.step n.server k).1 }) later
    constructor
    · exact ⟨serves_of_idles first next, by rw [after]; exact allowed⟩
    · rw [List.map_cons, run_cons, after, run]
      rfl

theorem readFrom_serve {k : ChatServer.Kernel} {l l' : ChatServer.Loop} {more : List Event}
    {i : Nat} {c c' : ClientInfo} {bytes : List Byte} {tail : List Event}
    {control : ChatServer.Control} {outcome : Outcome Exn Unit}
    (serve : ChatServer.Serve k l l' more i c c' bytes tail control outcome) (y : Fd) :
    readFrom y more = if c.fd.get = y then bytes else [] := by
  rw [serve.more]
  exact (ChatServer.serve_events serve.relayed _ bytes y).2.1

/-- The connections when the server has served client `i`: that one has given the bytes away. -/
structure Served (n n' : Network ι) (i : ι) (bytes : List Byte) : Prop where
  client : n'.client = n.client
  link : ∀ j, (n'.wire j).link = (n.wire j).link
  up : ∀ j, (n'.wire j).up = if j = i then (n.wire i).up.drop bytes.length else (n.wire j).up

theorem served_of_serve {n : Network ι} {log : List (Party ι × Event)} (sound : Sound guest n log)
    {k : ChatServer.Kernel} (refuses : k.accept = []) {index : Nat} {c c' : ClientInfo}
    {bytes : List Byte} {tail : List Event} {control : ChatServer.Control}
    {outcome : Outcome Exn Unit} (serve : ChatServer.Serve k n.server (ChatServer.step n.server k).1
      (ChatServer.step n.server k).2 index c c' bytes tail control outcome)
    (emptied : c.buffer.content = []) {i : ι} (mine : (n.wire i).link = .accepted c.fd.get)
    (on_way : bytes <+: (n.wire i).up) :
    n.Serves i k ∧ Served n (n.step guest (.server i k)).1 i bytes := by
  have good := sound.server.good
  have member := ChatServer.mem_clients serve.found
  have linkless := ChatServer.linkless_served serve.relayed
    (ChatServer.nameLine c (ChatServer.landed c.buffer bytes)) bytes
  rw [← serve.more] at linkless
  have reads (j : ι) (y : Fd) (accepted : (n.wire j).link = .accepted y) :
      readFrom y (ChatServer.step n.server k).2 = if j = i then bytes else [] := by
    rw [readFrom_serve serve]
    by_cases same : j = i
    · subst same
      rw [mine] at accepted
      rw [if_pos rfl, if_pos (Link.accepted.inj accepted)]
    · have other : c.fd.get ≠ y := fun eq => same (sound.single j i y accepted (eq ▸ mine))
      rw [if_neg same, if_neg other]
  constructor
  · constructor
    · intro fd accepts
      rw [ChatServer.Kernel.accepted, refuses] at accepts
      cases accepts
    · rintro e happens ⟨y, rfl⟩
      exact absurd rfl (linkless _ happens y).1
    · intro j
      unfold Wire.Offers
      split
      case h_1 y accepted =>
        rw [reads j y accepted]
        by_cases same : j = i
        · subst same
          rwa [if_pos rfl]
        · rw [if_neg same]
          exact List.nil_prefix
      case h_2 => trivial
    · apply ChatServer.fits_of_stays good
      have kept : (n.server.server.setClient index c').descriptors = n.server.server.descriptors :=
        Slots.map_set_same serve.found (by rw [serve.served.fd])
      rw [ChatServer.Stays, serve.next, kept]
      exact List.Subset.refl _
    · have behind := ChatServer.landed_of_empty (good.valid c member) emptied bytes
      simp [ChatServer.LandsBehind, serve.reads, emptied, behind]
  · have at_wire (j : ι) : ((n.wire j).acts (j = i) (ChatServer.step n.server k).2).link =
          (n.wire j).link ∧ ((n.wire j).acts (j = i) (ChatServer.step n.server k).2).up =
          if j = i then (n.wire i).up.drop bytes.length else (n.wire j).up := by
      cases here : (n.wire j).link with
      | queued =>
        have other : j ≠ i := by
          rintro rfl
          rw [mine] at here
          cases here
        rw [Wire.acts_queued here (.inl (by simpa using other)), if_neg other]
        exact ⟨here, rfl⟩
      | shut =>
        have other : j ≠ i := by
          rintro rfl
          rw [mine] at here
          cases here
        rw [Wire.acts_shut here, if_neg other]
        exact ⟨here, rfl⟩
      | accepted y =>
        rw [Wire.acts_accepted here _ fun closes => (linkless _ closes y).2 rfl, reads j y here]
        by_cases same : j = i
        · subst same
          simp
        · simp [same]
    exact ⟨rfl, fun j => (at_wire j).1, fun j => (at_wire j).2⟩

theorem line_taken {n : Network ι} {log : List (Party ι × Event)} (sound : Sound guest n log)
    (resting : ChatServer.Resting n.server) {i : ι} {y : Fd}
    (accepted : (n.wire i).link = .accepted y) {line : List Byte} (on_way : line <+: (n.wire i).up)
    (ends : line.getLast? = some newline) (fits : line.length ≤ bufferSize) :
    ∃ ks : List ChatServer.Kernel,
      Along (step guest) (Allowed guest) n (ks.map (.server i)) ∧
      ChatServer.Resting (Machine.run (step guest) n (ks.map (.server i))).1.server ∧
      Served n (Machine.run (step guest) n (ks.map (.server i))).1 i line := by
  have good := sound.server.good
  have returns : ChatServer.Returns n.server.control := by simp [ChatServer.Returns, resting.polls]
  obtain ⟨c, member, rfl⟩ := List.mem_map.mp ((sound.here returns y).mpr ⟨i, accepted⟩)
  obtain ⟨ks, k, turn, idles, reached, same, returns', refuses, rests, index, c', tail, control,
    serve⟩ := ChatServer.round_of_line resting good member ends fits
  obtain ⟨allowed, walked⟩ := idle_run guest i idles
  rw [reached] at walked
  have later : Sound guest { n with server := turn } log := by
    refine ⟨⟨?_, ?_⟩, sound.client, sound.carried, sound.single, fun _ => ?_⟩
    · rw [same]
      exact good
    · rw [same]
      exact sound.server.determined
    · rw [same]
      exact sound.here returns
  obtain ⟨serves, served⟩ :=
    served_of_serve later refuses serve (resting.emptied c member) accepted on_way
  refine ⟨ks ++ [k], ?_, ?_⟩
  · rw [List.map_append, along_append, walked]
    exact ⟨allowed, serves, trivial⟩
  · rw [List.map_append, run_append, walked]
    exact ⟨rests, served.client, served.link, served.up⟩

/-- The connections when client `i` has read: some of what was on the way to it has arrived. -/
structure Heard (n n' : Network ι) (i : ι) : Prop where
  server : n'.server = n.server
  listens : ∀ j, ChatClient.Listens (n.client j) → ChatClient.Listens (n'.client j)
  link : ∀ j, (n'.wire j).link = (n.wire j).link
  up : ∀ j, (n'.wire j).up = (n.wire j).up
  down : ∀ j, j ≠ i → (n'.wire j).down = (n.wire j).down
  less : (n'.wire i).down.length < (n.wire i).down.length

theorem bytes_heard {n : Network ι} {log : List (Party ι × Event)} (sound : Sound guest n log)
    {i : ι} (listens : ChatClient.Listens (n.client i)) (on_way : (n.wire i).down ≠ [])
    (room : 0 < (n.client i).client.readBuffer.freeSpace) : ∃ k, n.Talks guest i k ∧
      Heard n (n.step guest (.client i k)).1 i ∧
      ∀ j, typed guest (log ++ (n.step guest (.client i k)).2) j = typed guest log j := by
  obtain ⟨sfd, distinct, wired, _⟩ := sound.client i
  obtain ⟨still, silent, reads⟩ := ChatClient.step_of_hears wired distinct listens (n.wire i).down
  refine ⟨ChatClient.hears (guest i).fd (n.wire i).down, ⟨?_, ?_⟩,
    ⟨rfl, fun j listens' => ?_, fun j => ?_, fun j => ?_, fun j other => ?_, ?_⟩, fun j => ?_⟩
  · rw [reads, if_pos rfl]
    exact List.take_prefix _ _
  · simp [ChatClient.WritesReturn, still.polls]
  · by_cases same : j = i
    · subst same
      simpa [step] using still
    · simpa [step, same] using listens'
  · exact link_client guest n i _ j
  · by_cases same : j = i
    · subst same
      simp [step, Wire.ownActs, silent]
    · simp [step, same]
  · simp [step, other]
  · have some : 0 < (n.wire i).down.length := List.length_pos_iff.mpr on_way
    simp only [step, Function.update_self, Wire.ownActs, reads, if_true, List.length_drop,
      List.length_take]
    omega
  · by_cases same : j = i
    · subst same
      rw [typed, part_own, Guest.log_append, readFrom_append, reads, if_neg distinct.socket.symm,
        List.append_nil, typed]
    · rw [typed, part_other guest n log i _ (by simpa using same), typed]

/-! Lines that fit. -/

/-- Every line typed so far leaves room for its prefix, and every name for its newline. -/
structure Short (guest : ι → Guest) (log : List (Party ι × Event)) : Prop where
  names : ∀ i, (guest i).name.length < bufferSize
  lines : ∀ i, ∀ line ∈ Framing.frames newline (typed guest log i),
    (guest i).name.length + 4 + line.length ≤ bufferSize

omit [DecidableEq ι] in
theorem fits_rendered {name : ι → List Byte} {heard : List (ι × List Byte)}
    (plain : ∀ i, newline ∉ name i) (ends : ∀ said ∈ heard, said.2.getLast? = some newline)
    (short : ∀ said ∈ heard, ∀ f ∈ Framing.frames newline said.2,
      (name said.1).length + 4 + f.length ≤ bufferSize) :
    Framing.Fits newline bufferSize (rendered name heard) := by
  induction heard with
  | nil => exact Framing.fits_nil _ _
  | cons said heard ih =>
    have later := ih (fun s member => ends s (List.mem_cons_of_mem said member))
      fun s member => short s (List.mem_cons_of_mem said member)
    refine Framing.Fits.append ?_ later
    have absent : newline ∉ ascii ['['] ++ name said.1 ++ ascii [']', ':', ' '] := by
      simp only [List.mem_append, plain, or_false]
      decide
    refine Framing.fits_prefixed absent (ends said List.mem_cons_self) fun f member => ?_
    have bound := short said List.mem_cons_self f member
    simp only [ascii, List.length_append, List.length_map, List.length_cons, List.length_nil]
    omega

theorem fits_stream {n : Network ι} {log : List (Party ι × Event)} {r : Room ι (List Byte)}
    (h : Depicts guest n log r) (returns : ChatServer.Returns n.server.control)
    (short : Short guest log) (j : ι) :
    Framing.Fits newline bufferSize (arrived guest log j ++ (n.wire j).down) := by
  obtain ⟨_, window, shows_⟩ := h
  rw [shows_.whole returns]
  have spoken : ∀ said ∈ r.heard j, said ∈ r.transcript :=
    fun _ member => Room.heard_subset (window j) member
  refine fits_rendered (fun i => (guest i).plain)
    (fun said member => shows_.lines said (spoken said member)) fun said member f inside => ?_
  apply short.lines said.1 f
  have own : said.2 ∈ part said.1 r.transcript :=
    List.mem_map.mpr ⟨said, List.mem_filter.mpr ⟨spoken said member, by simp⟩, rfl⟩
  have pieces : ∀ l ∈ part said.1 r.transcript, l.getLast? = some newline := by
    intro l present
    obtain ⟨m, kept, rfl⟩ := List.mem_map.mp present
    exact shows_.lines m (List.mem_of_mem_filter kept)
  have among : f ∈ Framing.frames newline (part said.1 r.transcript).flatten := by
    rw [Framing.frames_pieces pieces]
    exact List.mem_flatMap.mpr ⟨said.2, own, inside⟩
  rw [← Framing.frames_complete]
  exact (Framing.frames_mono (shows_.typed said.1)).subset among

theorem room_left {n : Network ι} {log : List (Party ι × Event)} (sound : Sound guest n log) {j : ι}
    (fits : Framing.Fits newline bufferSize (arrived guest log j ++ (n.wire j).down)) :
    0 < (n.client j).client.readBuffer.freeSpace := by
  obtain ⟨_, _, wired, forwards⟩ := sound.client j
  have content : (n.client j).client.readBuffer.content =
      Framing.residue newline (arrived guest log j) := forwards.read
  have bound := fits.residue_lt (List.prefix_append _ _) (by decide)
  have size := Buffer.length_content wired.good.read
  rw [← content] at bound
  unfold Buffer.freeSpace Buffer.capacity
  omega

theorem line_on_way {n : Network ι} {log : List (Party ι × Event)} (sound : Sound guest n log)
    (resting : ChatServer.Resting n.server) (short : Short guest log) {i : ι} {y : Fd}
    (accepted : (n.wire i).link = .accepted y) (loaded : (n.wire i).up ≠ []) :
    ∃ line, line <+: (n.wire i).up ∧ line.getLast? = some newline ∧ line.length ≤ bufferSize := by
  have returns : ChatServer.Returns n.server.control := by simp [ChatServer.Returns, resting.polls]
  obtain ⟨c, member, rfl⟩ := List.mem_map.mp ((sound.here returns y).mpr ⟨i, accepted⟩)
  obtain ⟨_, _, _, forwards⟩ := sound.client i
  have whole : Framing.residue newline (ChatServer.received c.fd.get (part none log)) = [] := by
    rw [← (sound.server.determined c member).content]
    exact resting.emptied c member
  have stream : ChatServer.received c.fd.get (part none log) ++ (n.wire i).up =
      (guest i).name ++ [newline] ++ Framing.complete newline (typed guest log i) :=
    ((sound.carried i).accepted _ accepted).trans forwards.sent
  have plain : newline ∉ (guest i).name := (guest i).plain
  have header : Framing.Frame newline ((guest i).name ++ [newline]) := ⟨_, plain, rfl⟩
  have ended : Framing.residue newline (n.wire i).up = [] := by
    have law := congrArg (Framing.residue newline) stream
    rwa [Framing.residue_append, whole, List.nil_append, Framing.residue_append,
      Framing.residue_frame header, List.nil_append, Framing.residue_complete] at law
  have member : newline ∈ (n.wire i).up := by
    by_contra absent
    rw [Framing.residue_of_not_mem absent] at ended
    exact loaded ended
  have among : Framing.first newline (n.wire i).up ∈ Framing.frames newline
      ((guest i).name ++ [newline] ++ Framing.complete newline (typed guest log i)) := by
    rw [← stream, Framing.frames_append, whole, List.nil_append,
      Framing.frames_eq_first_cons member]
    exact List.mem_append_right _ List.mem_cons_self
  refine ⟨Framing.first newline (n.wire i).up, ⟨_, Framing.first_append_drop member⟩,
    Framing.first_getLast? member, ?_⟩
  rw [Framing.frames_append, Framing.residue_frame header, List.nil_append,
    Framing.frames_complete, Framing.frames_body plain] at among
  rcases List.mem_cons.mp among with first | later
  · rw [first, List.length_append, List.length_singleton]
    exact short.names i
  · have bound := short.lines i _ later
    omega

/-! Until nothing is on its way. -/

/-- Nothing is on its way to anybody who would take it. -/
structure Settled (n : Network ι) : Prop where
  up : ∀ i, (n.wire i).link.stage = .inside → (n.wire i).up = []
  down : ∀ i, ChatClient.Listens (n.client i) → (n.wire i).down = []

/-- What stays the same while the parties only take what is on its way. -/
structure Keeps (guest : ι → Guest) (n : Network ι) (log : List (Party ι × Event)) (n' : Network ι)
    (log' : List (Party ι × Event)) : Prop where
  resting : ChatServer.Resting n'.server
  link : ∀ i, (n'.wire i).link = (n.wire i).link
  listens : ∀ i, ChatClient.Listens (n.client i) → ChatClient.Listens (n'.client i)
  typed : ∀ i, typed guest log' i = typed guest log i

/-- How much is on its way to the server, and then how much to the clients. -/
def load [Fintype ι] (n : Network ι) : ℕ ×ₗ ℕ :=
  toLex (∑ i, (n.wire i).up.length, ∑ i, (n.wire i).down.length)

theorem typed_served (n : Network ι) (log : List (Party ι × Event)) (next : ι)
    (ks : List ChatServer.Kernel) (j : ι) :
    typed guest (log ++ (Machine.run (step guest) n (ks.map (.server next))).2) j =
      typed guest log j := by
  induction ks generalizing n log with
  | nil => simp
  | cons k ks ih =>
    rw [List.map_cons, run_cons, ← List.append_assoc, ih, typed, part_unserved, typed]

theorem Served.lighter [Fintype ι] {n n' : Network ι} {i : ι} {bytes : List Byte}
    (h : Served n n' i bytes) (nonempty : bytes ≠ []) (on_way : bytes <+: (n.wire i).up) :
    n'.load < n.load := by
  have some : 0 < bytes.length := List.length_pos_iff.mpr nonempty
  have within := on_way.length_le
  refine Prod.Lex.toLex_lt_toLex.mpr
    (.inl (Finset.sum_lt_sum (fun j _ => ?_) ⟨i, Finset.mem_univ i, ?_⟩))
  · rw [h.up]
    split
    · next same => rw [same, List.length_drop]; omega
    · exact Nat.le_refl _
  · rw [h.up, if_pos rfl, List.length_drop]
    omega

theorem Heard.lighter [Fintype ι] {n n' : Network ι} {i : ι} (h : Heard n n' i) :
    n'.load < n.load := by
  refine Prod.Lex.toLex_lt_toLex.mpr (.inr ⟨?_, Finset.sum_lt_sum (fun j _ => ?_)
    ⟨i, Finset.mem_univ i, h.less⟩⟩)
  · simp only [h.up]
  · by_cases same : j = i
    · rw [same]
      exact Nat.le_of_lt h.less
    · rw [h.down j same]

/-- As long as something is on its way, some steps bring the network nearer to rest. -/
theorem nearer [Fintype ι] {n₀ n : Network ι} {log₀ log : List (Party ι × Event)}
    {r : Room ι (List Byte)} (depicts : Depicts guest n log r) (keeps : Keeps guest n₀ log₀ n log)
    (short : Short guest log) (moving : ¬ Settled n) : ∃ acts,
      Along (step guest) (Allowed guest) n acts ∧
      Keeps guest n₀ log₀ (Machine.run (step guest) n acts).1
        (log ++ (Machine.run (step guest) n acts).2) ∧
      (Machine.run (step guest) n acts).1.load < n.load := by
  have sound := depicts.sound
  have resting := keeps.resting
  by_cases up : ∀ i, (n.wire i).link.stage = .inside → (n.wire i).up = []
  · have down : ∃ j, ChatClient.Listens (n.client j) ∧ (n.wire j).down ≠ [] := by
      by_contra none
      exact moving ⟨up, fun j listens => by_contra fun loaded => none ⟨j, listens, loaded⟩⟩
    obtain ⟨j, listens, loaded⟩ := down
    have returns : ChatServer.Returns n.server.control := by
      simp [ChatServer.Returns, resting.polls]
    have room := room_left sound (fits_stream depicts returns short j)
    obtain ⟨k, talks, heard, same⟩ := bytes_heard sound listens loaded room
    refine ⟨[.client j k], ⟨talks, trivial⟩, ?_, ?_⟩
    · rw [run_cons, run_nil, List.append_nil]
      exact ⟨by rw [heard.server]; exact resting, fun i => (heard.link i).trans (keeps.link i),
        fun i before => heard.listens i (keeps.listens i before),
        fun i => (same i).trans (keeps.typed i)⟩
    · exact heard.lighter
  · obtain ⟨i, still⟩ := not_forall.mp up
    obtain ⟨inside, loaded⟩ := Classical.not_imp.mp still
    obtain ⟨y, accepted⟩ : ∃ y, (n.wire i).link = .accepted y := by
      cases here : (n.wire i).link with
      | accepted y => exact ⟨y, rfl⟩
      | queued | shut => rw [here] at inside; cases inside
    obtain ⟨line, on_way, ends, fits⟩ := line_on_way sound resting short accepted loaded
    obtain ⟨ks, allowed, rests, served⟩ := line_taken sound resting accepted on_way ends fits
    have nonempty : line ≠ [] := by
      rintro rfl
      cases ends
    refine ⟨ks.map (.server i), allowed, ⟨rests, fun j => (served.link j).trans (keeps.link j),
      fun j before => ?_, fun j => (typed_served n log i ks j).trans (keeps.typed j)⟩,
      served.lighter nonempty on_way⟩
    rw [served.client]
    exact keeps.listens j before

theorem exists_settled [Fintype ι] {n : Network ι} {log : List (Party ι × Event)}
    {r : Room ι (List Byte)} (depicts : Depicts guest n log r)
    (resting : ChatServer.Resting n.server) (short : Short guest log) : ∃ acts,
      Along (step guest) (Allowed guest) n acts ∧
      Keeps guest n log (Machine.run (step guest) n acts).1
        (log ++ (Machine.run (step guest) n acts).2) ∧
      Settled (Machine.run (step guest) n acts).1 := by
  let I (n' : Network ι) (log' : List (Party ι × Event)) : Prop :=
    (∃ r', Depicts guest n' log' r') ∧ Keeps guest n log n' log'
  have start : I n log :=
    ⟨⟨r, depicts⟩, ⟨resting, fun _ => rfl, fun _ before => before, fun _ => rfl⟩⟩
  have lowers : ∀ n' log', I n' log' → ¬ Settled n' → ∃ acts,
      Along (step guest) (Allowed guest) n' acts ∧ I (Machine.run (step guest) n' acts).1
        (log' ++ (Machine.run (step guest) n' acts).2) ∧
      (Machine.run (step guest) n' acts).1.load < n'.load := by
    rintro n' log' ⟨⟨r', depicts'⟩, keeps⟩ moving
    have short' : Short guest log' :=
      ⟨short.names, fun i => by rw [keeps.typed]; exact short.lines i⟩
    obtain ⟨acts, allowed, kept, lower⟩ := nearer depicts' keeps short' moving
    obtain ⟨r'', _, depicts''⟩ := depicts_run depicts' allowed
    exact ⟨acts, allowed, ⟨⟨r'', depicts''⟩, kept⟩, lower⟩
  obtain ⟨acts, allowed, ⟨_, keeps⟩, settled⟩ := exists_run load lowers start
  exact ⟨acts, allowed, keeps, settled⟩

end Network

namespace Gathering
open Machine Network

variable {ι : Type} [DecidableEq ι]

def extend (g : Gathering ι) (more : List (Act ι))
    (allowed : Along (step g.guest) (Allowed g.guest) g.final more) : Gathering ι where
  guest := g.guest
  server := g.server
  acts := g.acts ++ more
  empty := g.empty
  allowed := (along_append _ _ _ _ _).mpr ⟨g.allowed, allowed⟩

theorem final_extend (g : Gathering ι) {more : List (Act ι)}
    (allowed : Along (step g.guest) (Allowed g.guest) g.final more) :
    (g.extend more allowed).final = (Machine.run (step g.guest) g.final more).1 := by
  simp only [final, extend, run_append]

theorem log_extend (g : Gathering ι) {more : List (Act ι)}
    (allowed : Along (step g.guest) (Allowed g.guest) g.final more) :
    (g.extend more allowed).log = g.log ++ (Machine.run (step g.guest) g.final more).2 := by
  simp only [log, final, extend, run_append]

/-- `g'` goes on from `g` with nothing more typed and nobody gone, to where nothing is on its way:
who is there then has on screen all that the others said since it came, and of each client that is
there the transcript has all lines typed. -/
structure Delivers (g g' : Gathering ι) : Prop where
  typed : ∀ i, g'.typed i = g.typed i
  link : ∀ i, (g'.final.wire i).link = (g.final.wire i).link
  listens : ∀ i, ChatClient.Listens (g.final.client i) → ChatClient.Listens (g'.final.client i)
  settled : Settled g'.final
  screens : ∃ transcript : List (ι × List Byte),
    (∀ i, (g.final.wire i).link.stage = .inside →
      (part i transcript).flatten = Framing.complete newline (g.typed i)) ∧
    ∀ j, (g.final.wire j).link.stage = .inside → ChatClient.Listens (g.final.client j) →
      ∃ before during, transcript = before ++ during ∧
        g'.printed j = rendered (Network.names g.guest) (Room.others j during)

def underway : Gathering Bool where
  guest i := if i then guestA else guestB
  server := ChatServer.listening
  acts := enters ++
    (served (ChatServer.joins 6 ++ ChatServer.delivers 5 0 (ascii ['A', '\n']) ++
        ChatServer.delivers 6 1 (ascii ['B', '\n'])) ++
      [.client false (ChatClient.types (ascii ['h', 'i', '\n']))])
  empty := ChatServer.listening_clients
  allowed := by decide +kernel

end Gathering
end TcpChat
