import TcpChat.Client.Session
import TcpChat.Server.Run

/-! A connection as the kernel keeps it between the socket of a client and the descriptor that
the server has for it: two streams of bytes, each delivered in order and in pieces of any size. -/
namespace TcpChat

/-- Connected and not accepted yet; accepted at a descriptor of the server; closed there. -/
inductive Link where
  | queued
  | accepted (fd : Fd)
  | shut
  deriving DecidableEq

/-- The bytes on their way to the server, and those on their way back. -/
structure Wire where
  link : Link := .queued
  up : List Byte := []
  down : List Byte := []
  deriving DecidableEq

namespace Wire

/-- What one act of the server does to a connection; `next` if `accept` would answer with it. -/
def act (next : Bool) (w : Wire) : Event → Wire
  | .accept y => if next = true ∧ w.link = .queued then { w with link := .accepted y } else w
  | .read y bytes => if w.link = .accepted y then { w with up := w.up.drop bytes.length } else w
  | .write y bytes => if w.link = .accepted y then { w with down := w.down ++ bytes } else w
  | .close y => if w.link = .accepted y then { w with link := .shut } else w
  | _ => w

def acts (next : Bool) (w : Wire) (more : List Event) : Wire := more.foldl (act next) w

/-- What the client does over its socket. -/
def ownActs (fd : Fd) (w : Wire) (more : List Event) : Wire :=
  { w with up := w.up ++ sent fd more, down := w.down.drop (readFrom fd more).length }

/-- The server reads no other bytes than those on their way, in their order. -/
def Offers (w : Wire) (more : List Event) : Prop :=
  match w.link with
  | .accepted y => readFrom y more <+: w.up
  | _ => True

instance (w : Wire) (more : List Event) : Decidable (w.Offers more) := by
  unfold Offers
  split <;> infer_instance

@[simp] theorem acts_nil (next : Bool) (w : Wire) : w.acts next [] = w := rfl

theorem acts_cons (next : Bool) (w : Wire) (e : Event) (more : List Event) :
    w.acts next (e :: more) = (w.act next e).acts next more := rfl

theorem act_shut {w : Wire} (shut : w.link = .shut) (next : Bool) (e : Event) : w.act next e = w := by
  cases e <;> simp [act, shut]

theorem acts_shut {w : Wire} (shut : w.link = .shut) (next : Bool) (more : List Event) :
    w.acts next more = w := by
  induction more with
  | nil => rfl
  | cons e more ih => rw [acts_cons, act_shut shut, ih]

theorem acts_queued {w : Wire} (queued : w.link = .queued) {next : Bool} {more : List Event}
    (waits : next = false ∨ ∀ y, .accept y ∉ more) : w.acts next more = w := by
  induction more with
  | nil => rfl
  | cons e more ih =>
    have later : next = false ∨ ∀ y, .accept y ∉ more :=
      waits.imp_right fun none y member => none y (List.mem_cons_of_mem e member)
    have here : w.act next e = w := by
      cases e with
      | accept y =>
        rcases waits with other | none
        · simp [act, other]
        · exact absurd List.mem_cons_self (none y)
      | _ => simp [act, queued]
    rw [acts_cons, here, ih later]

theorem acts_accepted {w : Wire} {y : Fd} (accepted : w.link = .accepted y) (next : Bool)
    {more : List Event} (stays : .close y ∉ more) :
    w.acts next more =
      ⟨.accepted y, w.up.drop (readFrom y more).length, w.down ++ sent y more⟩ := by
  induction more generalizing w with
  | nil => simp [← accepted]
  | cons e more ih =>
    have later : .close y ∉ more := fun member => stays (List.mem_cons_of_mem e member)
    have here : w.act next e =
        ⟨.accepted y, w.up.drop (e.readFrom y).length, w.down ++ e.sentTo y⟩ := by
      obtain ⟨link, up, down⟩ := w
      obtain rfl : link = .accepted y := accepted
      cases e with
      | read z bytes | write z bytes =>
        by_cases same : z = y
        · simp [act, same, Event.readFrom, Event.sentTo]
        · simp [act, same, Ne.symm same, Event.readFrom, Event.sentTo]
      | close z =>
        have other : y ≠ z := fun same => stays (same ▸ List.mem_cons_self)
        simp [act, other, Event.readFrom, Event.sentTo]
      | _ => simp [act, Event.readFrom, Event.sentTo]
    rw [acts_cons, here, ih rfl later]
    simp only [readFrom_cons, sent_cons, List.length_append, List.drop_drop, List.append_assoc]

theorem acts_closed {w : Wire} {y : Fd} (accepted : w.link = .accepted y) (next : Bool)
    {more : List Event} (closes : .close y ∈ more) : (w.acts next more).link = .shut := by
  induction more generalizing w with
  | nil => cases closes
  | cons e more ih =>
    rw [acts_cons]
    by_cases now : e = .close y
    · have shut : (w.act next e).link = .shut := by simp [now, act, accepted]
      rw [acts_shut shut, shut]
    · have later : .close y ∈ more :=
        (List.mem_cons.mp closes).resolve_left fun same => now same.symm
      have still : (w.act next e).link = .accepted y := by
        cases e with
        | close z =>
          have other : y ≠ z := fun same => now (by rw [same])
          simp [act, accepted, other]
        | read | write => simp only [act]; split <;> exact accepted
        | _ => simp [act, accepted]
      exact ih still later

theorem acts_mute {next : Bool} {more : List Event} (mute : ∀ e ∈ more, ChatServer.Mute e)
    (w : Wire) : (w.acts next more).down = w.down := by
  induction more generalizing w with
  | nil => rfl
  | cons e more ih =>
    have here : (w.act next e).down = w.down := by
      cases e with
      | write => exact absurd (mute _ List.mem_cons_self) id
      | accept | read | close => simp only [act]; split <;> rfl
      | _ => rfl
    rw [acts_cons, ih (fun e member => mute e (List.mem_cons_of_mem _ member)), here]

end Wire

/-! The connections that a step of the server opens and closes. -/
namespace ChatServer

theorem linkless_served {write : Fd → List WriteAnswer} {fd : Fd} {name text : List Byte}
    {fds : List Fd} {tail : List Event} {outcome : Outcome Exn Unit}
    (relayed : Relayed write fd name text fds tail outcome) (line bytes : List Byte) :
    ∀ e ∈ .read fd bytes :: (namedLog fd line ++ tail), ∀ y, e ≠ .accept y ∧ e ≠ .close y := by
  intro e member
  rcases List.mem_cons.mp member with rfl | later
  · simp
  · exact forall_served (P := fun e => ∀ y, e ≠ .accept y ∧ e ≠ .close y) relayed line (by simp)
      (by simp) (by simp) (by simp) e later

theorem acceptless_stopLog (s : ChatServer) (y : Fd) : .accept y ∉ s.stopLog := by
  intro member
  simp only [stopLog, List.mem_append, List.mem_flatMap, ScopedFileDescriptor.closing] at member
  rcases member with (⟨c, _, closed⟩ | closed) | closed <;> split at closed <;> simp at closed

theorem accept_of_effect {k : Kernel} {l l' : Loop} {more : List Event}
    (effect : Effect k l l' more) : (∀ y, .accept y ∉ more) ∨
      ∃ fd ∈ k.accepted, more = [.accept fd] ∨ more = [.accept fd, .close fd] := by
  cases effect with
  | join fd _ _ answer => exact .inr ⟨fd, mem_accepted answer, .inl rfl⟩
  | refuse fd _ _ answer => exact .inr ⟨fd, mem_accepted answer, .inr rfl⟩
  | closeFailed fd _ _ answer => exact .inr ⟨fd, mem_accepted answer, .inl rfl⟩
  | stop bytes => exact .inl (by simp [acceptless_stopLog])
  | signalFailed e log idle tried =>
    rcases tried with ⟨bytes, rfl⟩ | ⟨e, rfl⟩ <;> exact .inl (by simp)
  | serve _ _ _ _ c _ bytes _ _ _ _ _ _ _ _ relayed =>
    exact .inl fun y member => (linkless_served relayed _ bytes _ member y).1 rfl
  | quiet | hangup | eof | readFailed => exact .inl (by simp)

theorem closes_stopLog {s : ChatServer} (good : s.Good) {y : Fd} (present : y ∈ s.descriptors) :
    .close y ∈ s.stopLog := by
  obtain ⟨c, member, rfl⟩ := List.mem_map.mp present
  have mine : c.fd.fd_ ≥ 0 := good.owned c member
  refine List.mem_append_left _ (List.mem_append_left _ (List.mem_flatMap.mpr ⟨c, member, ?_⟩))
  simp [ScopedFileDescriptor.closing, ScopedFileDescriptor.get, mine]

/-- After a step that returns, the connections are those there were and the one accepted, without
the ones closed. -/
theorem mem_descriptors_after {k : Kernel} {l l' : Loop} {more : List Event}
    (effect : Effect k l l' more) (good : l.server.Good) (fresh : Fresh l k)
    (returns : Returns l'.control) (y : Fd) : y ∈ l'.server.descriptors ↔
      (y ∈ l.server.descriptors ∨ .accept y ∈ more) ∧ .close y ∉ more := by
  cases effect with
  | quiet => simp
  | join fd => simp [descriptors, newClient, ScopedFileDescriptor.get]
  | refuse fd _ _ answer =>
    have unused := (fresh fd (mem_accepted answer)).2
    constructor
    · intro present
      have other : y ≠ fd := fun same => unused (same ▸ present)
      simp [present, other]
    · rintro ⟨present | accepted, kept⟩
      · exact present
      · simp at accepted kept
        exact absurd accepted kept
  | closeFailed fd e => exact absurd rfl (returns.2 _)
  | signalFailed e => exact absurd rfl (returns.2 _)
  | readFailed => exact absurd rfl (returns.2 _)
  | stop bytes idle signalled =>
    have none : l.server.stopped.descriptors = [] := rfl
    rw [none]
    constructor
    · intro impossible
      cases impossible
    · rintro ⟨present | accepted, kept⟩
      · exact absurd (List.mem_cons_of_mem _ (closes_stopLog good present)) kept
      · simp [acceptless_stopLog] at accepted
  | hangup pollfds i nready p c turn =>
    rw [mem_descriptors_removed good.distinct turn.found]
    simp
  | eof pollfds i nready p c turn =>
    rw [mem_descriptors_removed good.distinct turn.found]
    simp
  | serve pollfds i nready p c c' bytes log outcome turn flags ready answer nonempty served
      relayed =>
    have same : (l.server.setClient i c').descriptors = l.server.descriptors :=
      Slots.map_set_same turn.found (by rw [served.fd])
    have linkless := linkless_served relayed (nameLine c (landed c.buffer bytes)) bytes
    have unaccepted := fun member => (linkless _ member y).1 rfl
    have unclosed := fun member => (linkless _ member y).2 rfl
    rw [same]
    exact ⟨fun present => ⟨.inl present, unclosed⟩, fun h => h.1.resolve_right unaccepted⟩

/-- The relays of a connection change with its own `relay` events only. -/
theorem relays_mute {y : Fd} (log : List Event) {more : List Event} (mute : ∀ e ∈ more, Mute e)
    (none : .accept y ∉ more) : relays y (log ++ more) = relays y log := by
  have unaccepted : ∀ e ∈ more, e.accepts y = false := fun e member => by
    simpa [Event.accepts] using fun same : e = .accept y => none (same ▸ member)
  have silent : more.filterMap (Event.relayOf y) = [] := by
    apply List.filterMap_eq_nil_iff.mpr
    intro e member
    cases e with
    | relay => exact absurd (mute _ member) id
    | _ => rfl
  rw [(history_append log unaccepted).2.2, silent, List.append_nil]

theorem received_append {y : Fd} (log : List Event) {more : List Event}
    (none : .accept y ∉ more) : received y (log ++ more) = received y log ++ readFrom y more := by
  have unaccepted : ∀ e ∈ more, e.accepts y = false := fun e member => by
    simpa [Event.accepts] using fun same : e = .accept y => none (same ▸ member)
  exact (history_append log unaccepted).1

end ChatServer

/-- The connections a step of the server leaves accepted. -/
theorem Wire.acts_link {more : List Event}
    (admits : (∀ y, .accept y ∉ more) ∨ ∃ fd, more = [.accept fd] ∨ more = [.accept fd, .close fd])
    (next : Bool) (w : Wire) (y : Fd) : (w.acts next more).link = .accepted y ↔
      (w.link = .accepted y ∨ next = true ∧ w.link = .queued ∧ .accept y ∈ more) ∧
        .close y ∉ more := by
  cases here : w.link with
  | shut => simp [acts_shut here, here]
  | accepted z =>
    by_cases closes : .close z ∈ more
    · have shut := acts_closed here next closes
      simp only [shut, reduceCtorEq, false_iff, Link.accepted.injEq, false_and, and_false, or_false]
      rintro ⟨rfl, kept⟩
      exact kept closes
    · simp only [acts_accepted here next closes, Link.accepted.injEq, reduceCtorEq, false_and,
        and_false, or_false]
      exact ⟨fun same => ⟨same, same ▸ closes⟩, fun both => both.1⟩
  | queued =>
    rcases admits with none | ⟨fd, rfl | rfl⟩
    · simp [acts_queued here (.inr none), here, none]
    · cases next with
      | false => simp [acts_queued here (.inl rfl), here]
      | true => simp [acts, act, here, eq_comm]
    · cases next with
      | false => simp [acts_queued here (.inl rfl), here]
      | true => simp [acts, act, here, eq_comm]

theorem Wire.acts_still_queued {more : List Event}
    (admits : (∀ y, .accept y ∉ more) ∨ ∃ fd, more = [.accept fd] ∨ more = [.accept fd, .close fd])
    {next : Bool} {w : Wire} (queued : (w.acts next more).link = .queued) :
    w.acts next more = w := by
  cases here : w.link with
  | shut => exact acts_shut here next more
  | accepted y =>
    by_cases closes : .close y ∈ more
    · rw [acts_closed here next closes] at queued
      cases queued
    · rw [acts_accepted here next closes] at queued
      cases queued
  | queued =>
    rcases admits with none | ⟨fd, rfl | rfl⟩
    · exact acts_queued here (.inr none)
    · cases next with
      | false => exact acts_queued here (.inl rfl)
      | true => simp [acts, act, here] at queued
    · cases next with
      | false => exact acts_queued here (.inl rfl)
      | true => simp [acts, act, here] at queued

theorem Wire.single_accept {more : List Event}
    (admits : (∀ y, .accept y ∉ more) ∨ ∃ fd, more = [.accept fd] ∨ more = [.accept fd, .close fd])
    {y : Fd} (accept : .accept y ∈ more) (kept : .close y ∉ more) : more = [.accept y] := by
  rcases admits with none | ⟨fd, rfl | rfl⟩
  · exact absurd accept (none y)
  · simpa [eq_comm] using accept
  · have same : y = fd := by simpa using accept
    exact absurd (by simp [same]) kept

end TcpChat
