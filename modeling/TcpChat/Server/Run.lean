import TcpChat.Server.History

/-! Runs of the server's loop: what a step does to one client's entry and to the history of
its descriptor, and what every run keeps. -/
namespace TcpChat.ChatServer

/-- The descriptors a call of `accept` can answer with in this step. -/
def Kernel.accepted (k : Kernel) : List Fd :=
  k.accept.filterMap fun
    | .accepted fd => some fd
    | .failed _ => none

/-- `accept` answers with descriptors that are not in use. -/
def Fresh (l : Loop) (k : Kernel) : Prop :=
  ∀ fd ∈ k.accepted, fd ≠ l.server.signalfd.get ∧ fd ∉ l.server.descriptors

instance (l : Loop) (k : Kernel) : Decidable (Fresh l k) :=
  inferInstanceAs (Decidable (∀ fd ∈ k.accepted, _ ∧ _))

/-- What a step makes of one entry, and of the history of its descriptor. -/
inductive Fate (k : Kernel) (l : Loop) (log more : List Event) (c' : ClientInfo) : Prop
  | joined (fd : Fd) (entry : c' = newClient fd k.memory)
      (received : received c'.fd.get (log ++ more) = [])
      (names : names c'.fd.get (log ++ more) = [])
      (relays : relays c'.fd.get (log ++ more) = [])
  | kept (member : c' ∈ l.server.clients) (same : SameHistory c'.fd.get log (log ++ more))
  | moved (i : Nat) (c back : ClientInfo) (leaves : leaving l k = some i)
      (found : l.server.clients[i]? = some c) (last : l.server.clients.getLast? = some back)
      (inside : i + 1 < l.server.clients.length) (entry : c' = { c with fd := back.fd })
      (same : SameHistory c'.fd.get log (log ++ more))
  | served (c : ClientInfo) (bytes : List Byte) (member : c ∈ l.server.clients)
      (reads : reading l k = some (c, .ok bytes)) (nonempty : bytes ≠ [])
      (served : Served c c' bytes)
      (received : received c'.fd.get (log ++ more) = received c.fd.get log ++ bytes)
      (names : names c'.fd.get (log ++ more) = names c.fd.get log ++
        (if nameLine c (landed c.buffer bytes) = [] then []
         else [nameLine c (landed c.buffer bytes)]))
      (relays : relays c'.fd.get (log ++ more) = relays c.fd.get log ++
        (if relayText c (landed c.buffer bytes) = [] then []
         else [(c'.name, relayText c (landed c.buffer bytes))]))

/-! Entries after the two changes of the list. -/

theorem fd_ne_of_distinct {clients : List ClientInfo} (distinct : (clients.map (·.fd.get)).Nodup)
    {i j : Nat} {c d : ClientInfo} (found : clients[i]? = some c) (other : clients[j]? = some d)
    (differ : j ≠ i) : d.fd.get ≠ c.fd.get := by
  intro eq
  have at_i : (clients.map (·.fd.get))[i]? = some c.fd.get := by simp [found]
  have at_j : (clients.map (·.fd.get))[j]? = some c.fd.get := by simp [other, eq]
  have inside : j < (clients.map (·.fd.get)).length := (List.getElem?_eq_some_iff.mp at_j).1
  exact differ ((List.getElem?_inj inside distinct).mp (at_j.trans at_i.symm))

theorem mem_set {clients : List ClientInfo} (distinct : (clients.map (·.fd.get)).Nodup)
    {i : Nat} {c c' d : ClientInfo} (found : clients[i]? = some c)
    (member : d ∈ clients.set i c') : d = c' ∨ d ∈ clients ∧ d.fd.get ≠ c.fd.get := by
  obtain ⟨j, at_j⟩ := List.mem_iff_getElem?.mp member
  by_cases here : j = i
  · subst here
    rw [getElem?_set found] at at_j
    exact .inl (Option.some.inj at_j).symm
  · rw [List.getElem?_set_ne (Ne.symm here)] at at_j
    exact .inr ⟨List.mem_of_getElem? at_j, fd_ne_of_distinct distinct found at_j here⟩

theorem mem_removed {clients : List ClientInfo} {i : Nat} {c d : ClientInfo}
    (found : clients[i]? = some c) (member : d ∈ removed clients i) :
    d ∈ clients ∨ ∃ back, clients.getLast? = some back ∧ i + 1 < clients.length ∧
      d = { c with fd := back.fd } := by
  obtain ⟨inside, same⟩ := List.getElem?_eq_some_iff.mp found
  obtain ⟨front, back, rfl⟩ := Slots.exists_concat inside
  by_cases hi : i < front.length
  · rw [List.getElem?_append_left hi] at found
    rw [removed_of_getElem? found] at member
    rcases List.mem_or_eq_of_mem_set member with old | new
    · exact .inl (List.mem_append_left _ old)
    · exact .inr ⟨back, by simp, by simp; omega, new⟩
  · have last_slot : i = front.length := by simp at inside; omega
    subst last_slot
    rw [removed_last] at member
    exact .inl (List.mem_append_left _ member)

theorem mem_clients {s : ChatServer} {i : Nat} {c : ClientInfo} (found : s.clients[i]? = some c) :
    c ∈ s.clients := List.mem_of_getElem? found

theorem mem_descriptors {s : ChatServer} {c : ClientInfo} (member : c ∈ s.clients) :
    c.fd.get ∈ s.descriptors := List.mem_map_of_mem member

theorem mem_accepted {k : Kernel} {fd : Nat} (answer : .accepted fd ∈ k.accept) :
    (fd : Fd) ∈ k.accepted :=
  List.mem_filterMap.mpr ⟨_, answer, rfl⟩

theorem fate_of_effect {k : Kernel} {l l' : Loop} {more : List Event} (effect : Effect k l l' more)
    (good : l.server.Good) (fresh : Fresh l k) (log : List Event) :
    ∀ c' ∈ l'.server.clients, Fate k l log more c' := by
  intro c' member
  cases effect with
  | quiet => exact .kept member (sameHistory_of_silent _ log (by simp))
  | join fd revents at_poll answer ready room =>
    obtain ⟨_, unused⟩ := fresh fd (mem_accepted answer)
    rcases List.mem_append.mp member with old | new
    · have other : (fd : Fd) ≠ c'.fd.get := fun eq => unused (eq ▸ mem_descriptors old)
      exact .kept old (sameHistory_accept log other)
    · obtain rfl := List.mem_singleton.mp new
      obtain ⟨r, n, t⟩ := history_accept fd log
      exact .joined fd rfl r n t
  | refuse fd revents at_poll answer =>
    obtain ⟨_, unused⟩ := fresh fd (mem_accepted answer)
    have other : (fd : Fd) ≠ c'.fd.get := fun eq => unused (eq ▸ mem_descriptors member)
    exact .kept member (sameHistory_of_empty log (by simp [Event.accepts, other]) rfl rfl rfl)
  | closeFailed fd e at_poll answer =>
    obtain ⟨_, unused⟩ := fresh fd (mem_accepted answer)
    have other : (fd : Fd) ≠ c'.fd.get := fun eq => unused (eq ▸ mem_descriptors member)
    exact .kept member (sameHistory_accept log other)
  | signalFailed e _ idle tried =>
    have other : l.server.signalfd.get ≠ c'.fd.get := fun eq =>
      good.signal (eq ▸ mem_descriptors member)
    refine .kept member ?_
    rcases tried with ⟨bytes, rfl⟩ | ⟨e, rfl⟩
    · exact sameHistory_read_other log (.inl other)
    · exact sameHistory_of_silent _ log (by simpa using silent_readError _ e)
  | stop => simp [stopped] at member
  | hangup pollfds i nready p c turn flags =>
    have same : SameHistory c'.fd.get log (log ++ [.close c.fd.get]) :=
      sameHistory_of_silent _ log (by simpa using silent_close _)
    rcases mem_removed turn.found member with old | ⟨back, last, inside, eq⟩
    · exact .kept old same
    · have leaves : leaving l k = some i := by simp [leaving, turn.turn_eq, flags]
      exact .moved i c back leaves turn.found last inside eq same
  | eof pollfds i nready p c turn flags ready nothing =>
    have same : SameHistory c'.fd.get log (log ++ [.read c.fd.get [], .close c.fd.get]) :=
      sameHistory_of_empty log (by simp [Event.accepts]) (by simp [Event.readFrom]) rfl rfl
    rcases mem_removed turn.found member with old | ⟨back, last, inside, eq⟩
    · exact .kept old same
    · have leaves : leaving l k = some i := by
        simp [leaving, turn.turn_eq, flags, ready, nothing]
      exact .moved i c back leaves turn.found last inside eq same
  | readFailed pollfds i nready p c e turn flags ready failed =>
    exact .kept member (sameHistory_of_silent _ log (by simpa using silent_readError _ e))
  | serve pollfds i nready p c c₁ bytes tail outcome turn flags ready answer nonempty served
      relayed =>
    rcases mem_set good.distinct turn.found member with rfl | ⟨old, other⟩
    · obtain ⟨r, n, t⟩ := history_serve relayed (nameLine c (landed c.buffer bytes)) bytes log
      refine .served c bytes (mem_clients turn.found) ?_ nonempty served ?_ ?_ ?_
      · simp [reading, turn.turn_eq, flags, ready, answer]
      · rw [served.fd, r]
      · rw [served.fd, n]
      · rw [served.fd, t]
    · exact .kept old (sameHistory_serve relayed _ bytes log other.symm)

/-! The effects of the steps that read or remove a client. -/

theorem removal_of_effect {k : Kernel} {l l' : Loop} {more : List Event}
    (effect : Effect k l l' more) {i : Nat} (leaves : leaving l k = some i) :
    ∃ c, l.server.clients[i]? = some c ∧
      l'.server = { l.server with clients := removed l.server.clients i } ∧
      (∃ pollfds nready, l'.control = countDown pollfds i nready) ∧
      (more = [.close c.fd.get] ∨ more = [.read c.fd.get [], .close c.fd.get]) := by
  cases effect with
  | quiet _ _ idle | signalFailed _ _ idle | stop _ idle => simp [idle.leaving] at leaves
  | join _ _ at_poll | refuse _ _ at_poll | closeFailed _ _ at_poll =>
    simp [leaving, turn, at_poll] at leaves
  | hangup pollfds j nready p c turn flags =>
    simp only [leaving, turn.turn_eq, flags, if_true, Option.some.injEq] at leaves
    subst leaves
    exact ⟨c, turn.found, rfl, ⟨_, _, rfl⟩, .inl rfl⟩
  | eof pollfds j nready p c turn flags ready nothing =>
    simp only [leaving, turn.turn_eq, flags, ready, nothing, Bool.false_eq_true, if_false,
      and_self, if_true, Option.some.injEq] at leaves
    subst leaves
    exact ⟨c, turn.found, rfl, ⟨_, _, rfl⟩, .inr rfl⟩
  | readFailed pollfds j nready p c e turn flags ready failed =>
    simp [leaving, turn.turn_eq, flags, ready, failed] at leaves
  | serve pollfds j nready p c c' bytes log outcome turn flags ready answer nonempty =>
    simp [leaving, turn.turn_eq, flags, ready, answer, nonempty] at leaves

structure Serve (k : Kernel) (l l' : Loop) (more : List Event) (i : Nat) (c c' : ClientInfo)
    (bytes : List Byte) (tail : List Event) (control : Control) (outcome : Outcome Exn Unit) :
    Prop where
  found : l.server.clients[i]? = some c
  its_turn : ∃ p, turn l = some (i, p, c)
  reads : reading l k = some (c, .ok bytes)
  nonempty : bytes ≠ []
  goes_on : ∃ pollfds j nready, control = countDown pollfds j nready
  next : l' = ⟨l.server.setClient i c', .after control outcome⟩
  more : more =
    .read c.fd.get bytes :: (namedLog c.fd.get (nameLine c (landed c.buffer bytes)) ++ tail)
  served : Served c c' bytes
  relayed : Relayed k.write c.fd.get c'.name (relayText c (landed c.buffer bytes))
    (l.server.recipients i) tail outcome

theorem serve_of_turn {k : Kernel} {l : Loop} {pollfds : List PollFd} {i : Nat} {nready : Int}
    {p : PollFd} {c c' : ClientInfo} {bytes : List Byte} {tail : List Event}
    {outcome : Outcome Exn Unit} (turn : Turn l pollfds i nready p c)
    (flags : p.revents.failed = false) (ready : p.revents.pollin = true)
    (answer : (k.read c.fd.get).read c.buffer.freeSpace.toNat = .ok bytes) (nonempty : bytes ≠ [])
    (served : Served c c' bytes)
    (relayed : Relayed k.write c.fd.get c'.name (relayText c (landed c.buffer bytes))
      (l.server.recipients i) tail outcome) {control : Control}
    (goes_on : ∃ pollfds j nready, control = countDown pollfds j nready) :
    Serve k l ⟨l.server.setClient i c', .after control outcome⟩
      (.read c.fd.get bytes :: (namedLog c.fd.get (nameLine c (landed c.buffer bytes)) ++ tail))
      i c c' bytes tail control outcome :=
  ⟨turn.found, ⟨p, turn.turn_eq⟩, by simp [reading, turn.turn_eq, flags, ready, answer], nonempty,
    goes_on, rfl, rfl, served, relayed⟩

theorem Serve.member {k : Kernel} {l l' : Loop} {more : List Event} {i : Nat} {c c' : ClientInfo}
    {bytes : List Byte} {tail : List Event} {control : Control} {outcome : Outcome Exn Unit}
    (h : Serve k l l' more i c c' bytes tail control outcome) : c' ∈ l'.server.clients := by
  rw [h.next]
  exact List.mem_of_getElem? (getElem?_set h.found c')

/-- What a step does that reads from a client: it is at the end of the stream, or the read
fails and leaves the loop, or the client is served. -/
theorem reading_of_effect {k : Kernel} {l l' : Loop} {more : List Event}
    (effect : Effect k l l' more) {c : ClientInfo} {a : Except Errno (List Byte)}
    (reads : reading l k = some (c, a)) :
    (a = .ok [] ∧ more = [.read c.fd.get [], .close c.fd.get]) ∨
    (∃ e, a = .error e ∧ l' = ⟨l.server, .thrown (.systemError (some e) "read() failed")⟩ ∧
      more = [.readError c.fd.get e]) ∨
    ∃ bytes i c' tail control outcome, a = .ok bytes ∧
      Serve k l l' more i c c' bytes tail control outcome := by
  cases effect with
  | quiet _ _ idle | signalFailed _ _ idle | stop _ idle => simp [idle.reading] at reads
  | join _ _ at_poll | refuse _ _ at_poll | closeFailed _ _ at_poll =>
    simp [reading, turn, at_poll] at reads
  | hangup pollfds j nready p d turn flags => simp [reading, turn.turn_eq, flags] at reads
  | eof pollfds j nready p d turn flags ready nothing =>
    obtain ⟨rfl, rfl⟩ : d = c ∧ .ok [] = a := by
      simpa [reading, turn.turn_eq, flags, ready, nothing] using reads
    exact .inl ⟨rfl, rfl⟩
  | readFailed pollfds j nready p d e turn flags ready failed =>
    obtain ⟨rfl, rfl⟩ : d = c ∧ .error e = a := by
      simpa [reading, turn.turn_eq, flags, ready, failed] using reads
    exact .inr (.inl ⟨e, rfl, rfl, rfl⟩)
  | serve pollfds j nready p d c' bytes tail outcome turn flags ready answer nonempty served
      relayed =>
    obtain ⟨rfl, rfl⟩ : d = c ∧ .ok bytes = a := by
      simpa [reading, turn.turn_eq, flags, ready, answer] using reads
    exact .inr (.inr ⟨bytes, j, c', tail, _, outcome, rfl,
      serve_of_turn turn flags ready answer nonempty served relayed ⟨_, _, _, rfl⟩⟩)

theorem eof_of_effect {k : Kernel} {l l' : Loop} {more : List Event}
    (effect : Effect k l l' more) {c : ClientInfo} (reads : reading l k = some (c, .ok [])) :
    more = [.read c.fd.get [], .close c.fd.get] := by
  rcases reading_of_effect effect reads with ⟨_, log⟩ | ⟨e, bad, _⟩ | ⟨bytes, _, _, _, _, _, eq, serve⟩
  · exact log
  · cases bad
  · cases eq
    exact absurd rfl serve.nonempty

theorem serve_of_effect {k : Kernel} {l l' : Loop} {more : List Event}
    (effect : Effect k l l' more) {c : ClientInfo} {bytes : List Byte}
    (reads : reading l k = some (c, .ok bytes)) (nonempty : bytes ≠ []) :
    ∃ i c' tail control outcome, Serve k l l' more i c c' bytes tail control outcome := by
  rcases reading_of_effect effect reads with ⟨eq, _⟩ | ⟨e, bad, _⟩ | ⟨_, _, _, _, _, _, eq, serve⟩
  · exact absurd (Except.ok.inj eq) nonempty
  · cases bad
  · cases eq
    exact ⟨_, _, _, _, _, serve⟩

theorem readFailed_of_effect {k : Kernel} {l l' : Loop} {more : List Event}
    (effect : Effect k l l' more) {c : ClientInfo} {e : Errno}
    (reads : reading l k = some (c, .error e)) :
    l' = ⟨l.server, .thrown (.systemError (some e) "read() failed")⟩ ∧
      more = [.readError c.fd.get e] := by
  rcases reading_of_effect effect reads with ⟨eq, _⟩ | ⟨e, same, next⟩ | ⟨_, _, _, _, _, _, eq, _⟩
  · cases eq
  · cases same
    exact next
  · cases eq

/-- Events that send nothing and take nothing out of a buffer. -/
def Mute : Event → Prop
  | .write .. | .named .. | .relay .. => False
  | _ => True

theorem mute_of_closing {fd : ScopedFileDescriptor} : ∀ e ∈ fd.closing, Mute e := by
  intro e member
  by_cases open_ : fd.fd_ ≥ 0
  · simp only [ScopedFileDescriptor.closing, open_, if_true, List.mem_singleton] at member
    rw [member]
    trivial
  · simp [ScopedFileDescriptor.closing, open_] at member

theorem mute_of_stopLog {s : ChatServer} : ∀ e ∈ s.stopLog, Mute e := by
  intro e member
  simp only [stopLog, List.mem_append, List.mem_flatMap] at member
  rcases member with (⟨c, _, inside⟩ | inside) | inside <;> exact mute_of_closing e inside

theorem mute_or_serve {k : Kernel} {l l' : Loop} {more : List Event}
    (effect : Effect k l l' more) :
    (∀ e ∈ more, Mute e) ∨
      ∃ i c c' bytes tail control outcome, Serve k l l' more i c c' bytes tail control outcome := by
  cases effect with
  | quiet => exact .inl (by simp)
  | join | refuse | closeFailed => exact .inl (by simp [Mute])
  | signalFailed e log idle tried =>
    rcases tried with ⟨bytes, rfl⟩ | ⟨e, rfl⟩ <;> exact .inl (by simp [Mute])
  | stop bytes =>
    refine .inl fun e member => ?_
    rcases List.mem_cons.mp member with rfl | inside
    · trivial
    · exact mute_of_stopLog e inside
  | hangup | eof | readFailed => exact .inl (by simp [Mute])
  | serve pollfds i nready p c c' bytes tail outcome turn flags ready answer nonempty served
      relayed =>
    exact .inr ⟨i, c, c', bytes, tail, _, outcome,
      serve_of_turn turn flags ready answer nonempty served relayed ⟨_, _, _, rfl⟩⟩

/-- The loop was not left in the middle of a system call. -/
def Returns (control : Control) : Prop :=
  control ≠ .blocked ∧ ∀ e, control ≠ .thrown e

instance (control : Control) : Decidable (Returns control) :=
  match control with
  | .blocked => isFalse fun h => h.1 rfl
  | .thrown e => isFalse fun h => h.2 e rfl
  | .poll | .signal .. | .client .. | .returned | .undefined => isTrue ⟨nofun, nofun⟩

theorem step_of_left {l : Loop} (left : ¬ Returns l.control) (k : Kernel) : step l k = (l, []) := by
  obtain ⟨server, control⟩ := l
  cases control with
  | thrown e => rfl
  | blocked => rfl
  | poll | signal _ _ | client _ _ _ | returned | undefined => exact absurd ⟨nofun, nofun⟩ left

theorem run_of_left {l : Loop} (left : ¬ Returns l.control) (ks : List Kernel) :
    Machine.run step l ks = (l, []) := by
  induction ks with
  | nil => rfl
  | cons k ks ih => rw [Machine.run_cons, step_of_left left, ih]; rfl

/-- A removal takes one descriptor out, and the others stay. -/
theorem descriptors_perm_removed {s : ChatServer} {i : Nat} {c : ClientInfo}
    (found : s.clients[i]? = some c) :
    s.descriptors.Perm
      (c.fd.get :: ({ s with clients := removed s.clients i } : ChatServer).descriptors) := by
  obtain ⟨inside, same⟩ := List.getElem?_eq_some_iff.mp found
  have bound : i < s.descriptors.length := by simpa [descriptors] using inside
  have mine : s.descriptors[i] = c.fd.get := by simp [descriptors, same]
  have left : ({ s with clients := removed s.clients i } : ChatServer).descriptors =
      Slots.swapRemove s.descriptors i := map_fd_removed inside
  rw [left, ← mine]
  exact (List.getElem_cons_eraseIdx_perm bound).symm.trans
    ((Slots.swapRemove_perm bound).symm.cons _)

theorem mem_descriptors_removed {s : ChatServer} (distinct : s.descriptors.Nodup) {i : Nat}
    {c : ClientInfo} (found : s.clients[i]? = some c) (fd : Fd) :
    fd ∈ ({ s with clients := removed s.clients i } : ChatServer).descriptors ↔
      fd ∈ s.descriptors ∧ fd ≠ c.fd.get := by
  have taken := descriptors_perm_removed found
  have alone := (List.nodup_cons.mp (taken.nodup_iff.mp distinct)).1
  rw [taken.mem_iff, List.mem_cons]
  constructor
  · intro still
    exact ⟨.inr still, fun same => alone (same ▸ still)⟩
  · rintro ⟨here | still, other⟩
    · exact absurd here other
    · exact still

theorem gone_of_leaving {k : Kernel} {l l' : Loop} {more : List Event} (effect : Effect k l l' more)
    (good : l.server.Good) {i : Nat} {c : ClientInfo} (leaves : leaving l k = some i)
    (found : l.server.clients[i]? = some c) : c.fd.get ∉ l'.server.descriptors := by
  obtain ⟨_, _, next, _⟩ := removal_of_effect effect leaves
  rw [next]
  intro still
  exact ((mem_descriptors_removed good.distinct found _).mp still).2 rfl

theorem left_of_effect {k : Kernel} {l l' : Loop} {more : List Event} (effect : Effect k l l' more)
    (good : l.server.Good) {c : ClientInfo} (member : c ∈ l.server.clients)
    (left : c.fd.get ∉ l'.server.descriptors) :
    l' = ⟨l.server.stopped, .returned⟩ ∧ (∃ pollfds nready p, l.control = .signal pollfds nready ∧
        pollfds[1]? = some p ∧ p.revents.pollin = true) ∨
      ∃ i, leaving l k = some i ∧ l.server.clients[i]? = some c := by
  have here := mem_descriptors member
  have gone (i : Nat) (d : ClientInfo) (found : l.server.clients[i]? = some d)
      (leaves : leaving l k = some i)
      (left : c.fd.get ∉
        ({ l.server with clients := removed l.server.clients i } : ChatServer).descriptors) :
      ∃ i, leaving l k = some i ∧ l.server.clients[i]? = some c := by
    have eq : c.fd.get = d.fd.get := by
      by_contra other
      exact left ((mem_descriptors_removed good.distinct found _).mpr ⟨here, other⟩)
    obtain ⟨j, at_j⟩ := List.mem_iff_getElem?.mp member
    by_cases same_index : j = i
    · exact ⟨i, leaves, same_index ▸ at_j⟩
    · exact absurd eq (fd_ne_of_distinct good.distinct found at_j same_index)
  cases effect with
  | quiet | refuse | closeFailed | signalFailed | readFailed => exact absurd here left
  | join =>
    refine absurd ?_ left
    simp only [descriptors, List.map_append, List.mem_append]
    exact .inl here
  | stop _ _ signalled => exact .inl ⟨rfl, signalled⟩
  | hangup pollfds i nready p d turn flags =>
    exact .inr (gone i d turn.found (by simp [leaving, turn.turn_eq, flags]) left)
  | eof pollfds i nready p d turn flags ready nothing =>
    exact .inr (gone i d turn.found (by simp [leaving, turn.turn_eq, flags, ready, nothing]) left)
  | serve pollfds i nready p d d' bytes log outcome turn flags ready answer nonempty served =>
    have same : (l.server.setClient i d').descriptors = l.server.descriptors :=
      Slots.map_set_same turn.found (by rw [served.fd])
    exact absurd (same ▸ here) left

theorem turn_found {l : Loop} {i : Nat} {p : PollFd} {c : ClientInfo}
    (its_turn : turn l = some (i, p, c)) : l.server.clients[i]? = some c := by
  unfold turn at its_turn
  split at its_turn
  case h_2 => cases its_turn
  case h_1 =>
    split at its_turn
    case h_2 => cases its_turn
    case h_1 found =>
      simp only [Option.some.injEq, Prod.mk.injEq] at its_turn
      obtain ⟨rfl, rfl, rfl⟩ := its_turn
      exact found

theorem turn_of_reading {l : Loop} {k : Kernel} {c : ClientInfo} {a : Except Errno (List Byte)}
    (reads : reading l k = some (c, a)) :
    ∃ i p, turn l = some (i, p, c) ∧ p.revents.failed = false ∧ p.revents.pollin = true ∧
      (k.read c.fd.get).read c.buffer.freeSpace.toNat = a := by
  cases here : turn l with
  | none => simp [reading, here] at reads
  | some t =>
    obtain ⟨i, p, d⟩ := t
    simp only [reading, here] at reads
    split at reads
    case isFalse => cases reads
    case isTrue flags =>
      simp only [Option.some.injEq, Prod.mk.injEq] at reads
      obtain ⟨rfl, answer⟩ := reads
      exact ⟨i, p, rfl, flags.1, flags.2, answer⟩

theorem turn_of_leaving {l : Loop} {k : Kernel} {i : Nat} {c : ClientInfo}
    (leaves : leaving l k = some i) (found : l.server.clients[i]? = some c) :
    ∃ p, turn l = some (i, p, c) ∧ (p.revents.failed = true ∨ p.revents.pollin = true ∧
      (k.read c.fd.get).read c.buffer.freeSpace.toNat = .ok []) := by
  cases here : turn l with
  | none => simp [leaving, here] at leaves
  | some t =>
    obtain ⟨j, p, d⟩ := t
    have same := turn_found here
    simp only [leaving, here] at leaves
    split at leaves
    case isTrue flags =>
      obtain rfl := Option.some.inj leaves
      obtain rfl := Option.some.inj (found.symm.trans same)
      exact ⟨p, rfl, .inl flags⟩
    case isFalse =>
      split at leaves
      case isFalse => cases leaves
      case isTrue ready =>
        obtain rfl := Option.some.inj leaves
        obtain rfl := Option.some.inj (found.symm.trans same)
        exact ⟨p, rfl, .inr ready⟩

/-! What every step keeps. -/

theorem valid_newClient (fd : Fd) (memory : Cells Byte bufferSize) :
    (newClient fd memory).buffer.Valid := Buffer.valid_empty

theorem good_of_descriptors {s s' : ChatServer} (good : s.Good)
    (valid : ∀ c ∈ s'.clients, c.buffer.Valid) (subset : s'.descriptors ⊆ s.descriptors)
    (distinct : s'.descriptors.Nodup) (signal : s'.signalfd = s.signalfd) : s'.Good := by
  refine ⟨valid, fun c member => ?_, distinct, ?_⟩
  · obtain ⟨d, old, eq⟩ := List.mem_map.mp (subset (mem_descriptors member))
    rw [← eq]
    exact good.owned d old
  · rw [signal]
    exact fun inside => good.signal (subset inside)

theorem good_removed {s : ChatServer} (good : s.Good) {i : Nat} {c : ClientInfo}
    (found : s.clients[i]? = some c) : ({ s with clients := removed s.clients i }).Good := by
  have taken := descriptors_perm_removed found
  refine good_of_descriptors good (fun d member => ?_) ?_ ?_ rfl
  · rcases mem_removed found member with old | ⟨back, _, _, rfl⟩
    · exact good.valid d old
    · exact good.valid c (mem_clients found)
  · exact fun fd member => taken.symm.subset (List.mem_cons_of_mem _ member)
  · exact (List.nodup_cons.mp (taken.nodup_iff.mp good.distinct)).2

/-- Only a step from the head of the `while` needs a new descriptor to be fresh. -/
theorem good_of_accepting {k : Kernel} {l l' : Loop} {more : List Event}
    (effect : Effect k l l' more) (good : l.server.Good)
    (accepting : l.control = .poll → Fresh l k) : l'.server.Good := by
  cases effect with
  | quiet | refuse | closeFailed | signalFailed | readFailed => exact good
  | join fd revents at_poll answer ready room =>
    obtain ⟨unsignalled, unused⟩ := accepting at_poll fd (mem_accepted answer)
    refine ⟨fun c member => ?_, fun c member => ?_, ?_, ?_⟩
    · rcases List.mem_append.mp member with old | new
      · exact good.valid c old
      · obtain rfl := List.mem_singleton.mp new
        exact valid_newClient fd k.memory
    · rcases List.mem_append.mp member with old | new
      · exact good.owned c old
      · obtain rfl := List.mem_singleton.mp new
        exact Int.natCast_nonneg fd
    · simpa [descriptors, newClient, ScopedFileDescriptor.get, List.nodup_append] using
        ⟨good.distinct, fun c member eq => unused (List.mem_map.mpr ⟨c, member, eq⟩)⟩
    · simpa [descriptors, newClient, ScopedFileDescriptor.get] using
        ⟨fun c member eq => good.signal (List.mem_map.mpr ⟨c, member, eq⟩), unsignalled.symm⟩
  | stop => exact ⟨by simp [stopped], by simp [stopped], by simp [stopped, descriptors],
      by simp [stopped, descriptors]⟩
  | hangup _ _ _ _ _ turn => exact good_removed good turn.found
  | eof _ _ _ _ _ turn => exact good_removed good turn.found
  | serve pollfds i nready p c c' bytes log outcome turn flags ready answer nonempty served =>
    have same : (l.server.setClient i c').descriptors = l.server.descriptors :=
      Slots.map_set_same turn.found (by rw [served.fd])
    refine good_of_descriptors good (fun d member => ?_) ?_ ?_ rfl
    · rcases List.mem_or_eq_of_mem_set member with old | rfl
      · exact good.valid d old
      · exact served.valid
    · rw [same]; exact fun _ h => h
    · rw [same]; exact good.distinct

theorem good_of_effect {k : Kernel} {l l' : Loop} {more : List Event} (effect : Effect k l l' more)
    (good : l.server.Good) (fresh : Fresh l k) : l'.server.Good :=
  good_of_accepting effect good fun _ => fresh

theorem good_step {l : Loop} {k : Kernel} (good : l.server.Good) (fresh : Fresh l k) :
    (step l k).1.server.Good := good_of_effect (step_effect k l good) good fresh

theorem good_run {l : Loop} {ks : List Kernel} (good : l.server.Good)
    (fresh : Machine.Along step Fresh l ks) : (Machine.run step l ks).1.server.Good :=
  Machine.run_keeps (I := fun l _ => l.server.Good)
    (fun _ _ _ good fresh => good_step good fresh) good fresh

theorem step_fates {l : Loop} {k : Kernel} (good : l.server.Good) (fresh : Fresh l k)
    (log : List Event) :
    ∀ c' ∈ (step l k).1.server.clients, Fate k l log (step l k).2 c' :=
  fate_of_effect (step_effect k l good) good fresh log

theorem good_of_empty {s : ChatServer} (empty : s.clients = []) : s.Good :=
  ⟨by simp [empty], by simp [empty], by simp [descriptors, empty], by simp [descriptors, empty]⟩

/-- A run of `event_loop` from a server without clients. -/
structure ServerRun where
  server : ChatServer
  kernels : List Kernel
  empty : server.clients = []
  fresh : Machine.Along step Fresh (eventLoop server) kernels

namespace ServerRun

def final (r : ServerRun) : Loop := (Machine.run step (eventLoop r.server) r.kernels).1
def log (r : ServerRun) : List Event := (Machine.run step (eventLoop r.server) r.kernels).2

theorem good (r : ServerRun) : r.final.server.Good := good_run (good_of_empty r.empty) r.fresh

def Along (r : ServerRun) (P : Loop → Kernel → Prop) : Prop :=
  Machine.Along step P (eventLoop r.server) r.kernels

def Always (r : ServerRun) (Q : Loop → List Event → Prop) : Prop :=
  Machine.Always step Q (eventLoop r.server) [] r.kernels

instance (r : ServerRun) (P : Loop → Kernel → Prop) [∀ l k, Decidable (P l k)] :
    Decidable (r.Along P) := Machine.decidableAlong step P _ _

end ServerRun

/-! Rounds of polling that concrete runs are made of. -/

/-- A server as `run` leaves it: listening at 3, signals at 4. -/
def listening : ChatServer := { running := true, listenfd := ⟨3⟩, signalfd := ⟨4⟩ }

theorem listening_clients : listening.clients = [] := rfl

def joins (fd : Nat) : List Kernel :=
  [{ poll := .ready fun y => { pollin := y = 3 }, accept := [.accepted fd] }]

/-- A round in which only `fd` is ready, with these bytes, up to the turn of client `i`. -/
def delivers (fd : Fd) (i : Nat) (bytes : List Byte) : List Kernel :=
  List.replicate (i + 3)
    { poll := .ready fun y => { pollin := y = fd }
      read := fun _ => .ofBytes bytes
      write := fun _ => [.accepted bufferSize, .accepted bufferSize] }

def hangsUp (fd : Fd) (i : Nat) : List Kernel :=
  List.replicate (i + 3) { poll := .ready fun y => { pollhup := y = fd } }

end TcpChat.ChatServer
