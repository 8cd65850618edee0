import TcpChat.Lib.Rules
import TcpChat.Server.Lifecycle
import TcpChat.Server.Round

/-! The sessions of one server object. Whenever it is not running it is as it was constructed, and
a pending signal brings it there from wherever its loop stands. -/
namespace TcpChat.ChatServer
open Machine

/-- Stopped, it would be as constructed; and it is so if it does not run. -/
structure Renewable (port : Option (BitVec 16)) (s : ChatServer) : Prop where
  stopped : s.stopped = constructed port
  idle : s.running = false → s = constructed port

theorem renewable_constructed (port : Option (BitVec 16)) : Renewable port (constructed port) := by
  cases port <;> exact ⟨rfl, fun _ => rfl⟩

theorem renewable_running {port : Option (BitVec 16)} {s s' : ChatServer} (h : Renewable port s)
    (same : s'.stopped = s.stopped) (on : s'.running = true) : Renewable port s' :=
  ⟨same.trans h.stopped, fun off => absurd (on.symm.trans off) (by decide)⟩

theorem renewable_stopped {port : Option (BitVec 16)} {s : ChatServer} (h : Renewable port s) :
    Renewable port s.stopped := by
  rw [h.stopped]
  exact renewable_constructed port

/-- Clients are there only while the server runs. -/
theorem running_of_client {s : ChatServer} (consistent : s.Consistent) {i : Nat} {c : ClientInfo}
    (found : s.clients[i]? = some c) : s.running = true := by
  by_contra off
  have none := consistent.idle (Bool.eq_false_iff.mpr off)
  rw [none] at found
  cases found

theorem renewable_of_effect {port : Option (BitVec 16)} {k : Kernel} {l l' : Loop}
    {more : List Event} (effect : Effect k l l' more) (consistent : l.server.Consistent)
    (h : Renewable port l.server) : Renewable port l'.server := by
  cases effect with
  | quiet | refuse | closeFailed | signalFailed | readFailed => exact h
  | join _ _ _ _ _ _ on => exact renewable_running h rfl on
  | stop => exact renewable_stopped h
  | hangup _ _ _ _ _ turn | eof _ _ _ _ _ turn | serve _ _ _ _ _ _ _ _ _ turn =>
    have on := running_of_client consistent turn.found
    exact renewable_running h rfl on

theorem renewable_of_runEffect {port : Option (BitVec 16)} {a : RunAnswers} {s s' : ChatServer}
    {log : List Event} (effect : RunEffect a s s' log) (h : Renewable port s) :
    Renewable port s' := by
  cases effect with
  | refused | undone => exact h
  | started => exact renewable_running h rfl rfl

/-! What every life keeps of it, and that the loop stays inside the poll list. -/

def Control.inLoop : Control → Bool
  | .poll | .signal .. | .client .. => true
  | _ => false

/-- The poll list covers the two descriptors of the loop and every client. -/
def Covered (l : Loop) : Prop :=
  match l.control with
  | .signal pollfds _ | .client pollfds _ _ => l.server.clients.length + 2 ≤ pollfds.length
  | _ => True

theorem covered_countDown {s : ChatServer} {pollfds : List PollFd}
    (covers : s.clients.length + 2 ≤ pollfds.length) (i : Nat) (nready : Int) :
    Covered ⟨s, countDown pollfds i nready⟩ := by
  by_cases last : nready - 1 ≤ 0
  · simp [Covered, countDown, last]
  · simpa [Covered, countDown, last] using covers

theorem covered_opened {s : ChatServer} {pollfds : List PollFd}
    (covers : s.clients.length + 2 ≤ pollfds.length) (nready : Int) :
    Covered ⟨s, if nready ≤ 0 then .poll else .signal pollfds nready⟩ := by
  by_cases last : nready ≤ 0
  · simp [Covered, last]
  · simpa [Covered, last] using covers

theorem length_polled (s : ChatServer) (revents : Fd → Revents) :
    (s.polled revents).length = s.clients.length + 2 := by
  simp [polled, pollList]

theorem Turn.covered {l : Loop} {pollfds : List PollFd} {i : Nat} {nready : Int} {p : PollFd}
    {c : ClientInfo} (t : Turn l pollfds i nready p c) (covered : Covered l) :
    l.server.clients.length + 2 ≤ pollfds.length := by
  simpa only [Covered, t.at_client] using covered

theorem covered_removed {l : Loop} {pollfds : List PollFd} {i : Nat} {nready : Int} {p : PollFd}
    {c : ClientInfo} (turn : Turn l pollfds i nready p c) (covered : Covered l) :
    Covered ⟨{ l.server with clients := removed l.server.clients i },
      countDown (Slots.swapRemove pollfds (i + 2)) i nready⟩ := by
  have fewer := length_removed turn.found
  have inside := (List.getElem?_eq_some_iff.mp turn.polled).1
  have entries := (Slots.swapRemove_perm inside).length_eq
  rw [List.length_eraseIdx_of_lt inside] at entries
  have covers := turn.covered covered
  refine covered_countDown ?_ i nready
  change (removed l.server.clients i).length + 2 ≤ _
  omega

theorem covered_of_quiet {k : Kernel} {l : Loop} {control : Control} (goes : Quiet k l control)
    (covered : Covered l) : Covered ⟨l.server, control⟩ := by
  cases goes with
  | polled _ revents => exact (length_polled l.server revents).ge
  | unsignalled pollfds nready p at_signal =>
    rw [Covered, at_signal] at covered
    exact covered
  | unready pollfds i nready p c turn => exact turn.covered covered
  | ended => exact covered
  | _ => trivial

theorem covered_of_effect {k : Kernel} {l l' : Loop} {more : List Event}
    (effect : Effect k l l' more) (covered : Covered l) : Covered l' := by
  cases effect with
  | quiet control goes => exact covered_of_quiet goes covered
  | join fd revents =>
    refine covered_opened ?_ _
    simp [length_polled]
  | refuse fd revents => exact covered_opened (length_polled l.server revents).ge _
  | hangup pollfds i nready p c turn => exact covered_removed turn covered
  | eof pollfds i nready p c turn => exact covered_removed turn covered
  | serve pollfds i nready p c c' bytes log outcome turn =>
    have covers : (l.server.setClient i c').clients.length + 2 ≤ pollfds.length := by
      simpa using turn.covered covered
    cases outcome with
    | returned => exact covered_countDown covers (i + 1) nready
    | _ => trivial
  | _ => trivial

structure Standing (port : Option (BitVec 16)) (p : Process) (log : List Event) : Prop where
  kept : Kept p log
  renewable : ∀ l ∈ p.object, Renewable port l.server
  covered : ∀ l ∈ p.object, Covered l

theorem standing_start (port : Option (BitVec 16)) : Standing port (Process.start port) [] := by
  refine ⟨kept_start port, ?_, ?_⟩
  · rintro _ ⟨⟩
    exact renewable_constructed port
  · rintro _ ⟨⟩
    trivial

theorem covered_of_fewer {s s' : ChatServer} {control : Control} (covered : Covered ⟨s, control⟩)
    (fewer : s'.clients.length ≤ s.clients.length) : Covered ⟨s', control⟩ := by
  cases control with
  | signal pollfds nready =>
    have covers : s.clients.length + 2 ≤ pollfds.length := covered
    exact Nat.le_trans (Nat.add_le_add_right fewer 2) covers
  | client pollfds i nready =>
    have covers : s.clients.length + 2 ≤ pollfds.length := covered
    exact Nat.le_trans (Nat.add_le_add_right fewer 2) covers
  | _ => trivial

theorem standing_next (port : Option (BitVec 16)) (p : Process) (log : List Event) (a : Action)
    (h : Standing port p log) (sane : Sane p a) :
    Standing port (p.next a).1 (log ++ (p.next a).2) := by
  refine ⟨kept_next p log a h.kept sane, ?_, ?_⟩
  all_goals
    obtain ⟨object, table⟩ := p
    cases object with
    | none => rintro _ ⟨⟩
    | some l => ?_
  · have renewable := h.renewable l rfl
    cases a with
    | run a =>
      rintro _ ⟨⟩
      exact renewable_of_runEffect (run_effect a l.server) renewable
    | stop =>
      rintro _ ⟨⟩
      rw [stop_eq]
      exact renewable_stopped renewable
    | enterLoop =>
      rintro _ ⟨⟩
      exact renewable
    | loopStep k =>
      rintro _ ⟨⟩
      exact renewable_of_effect (step_effect k l (h.kept.good l rfl)) (h.kept.consistent l rfl)
        renewable
    | destroy => rintro _ ⟨⟩
  · have covered := h.covered l rfl
    cases a with
    | run a =>
      rintro _ ⟨⟩
      refine covered_of_fewer covered ?_
      have effect := run_effect a l.server
      generalize (run a l.server).state = s' at effect
      generalize (run a l.server).events = log' at effect
      cases effect <;> exact Nat.le_refl _
    | stop =>
      rintro _ ⟨⟩
      rw [stop_eq]
      exact covered_of_fewer covered (Nat.zero_le _)
    | enterLoop =>
      rintro _ ⟨⟩
      by_cases on : l.server.running = true <;> simp [Covered, eventLoop, on]
    | loopStep k =>
      rintro _ ⟨⟩
      exact covered_of_effect (step_effect k l (h.kept.good l rfl)) covered
    | destroy => rintro _ ⟨⟩

namespace Life

def final (r : Life) : Process := (Machine.run Process.next (Process.start r.port) r.actions).1
def log (r : Life) : List Event := (Machine.run Process.next (Process.start r.port) r.actions).2

theorem standing (r : Life) : Standing r.port r.final r.log :=
  run_keeps (standing_next r.port) (standing_start r.port) r.sane

end Life

/-! Two objects that go on alike. -/

theorem step_of_outside {l : Loop} (outside : l.control.inLoop = false) (k : Kernel) :
    step l k = (l, []) := by
  obtain ⟨server, control⟩ := l
  cases control with
  | poll | signal _ _ | client _ _ _ => cases outside
  | returned | thrown _ | blocked | undefined => rfl

/-- The same object, with the loop at the same place or left by both. -/
inductive AlikeObjects : Option Loop → Option Loop → Prop
  | destroyed : AlikeObjects none none
  | same (l : Loop) : AlikeObjects (some l) (some l)
  | left (s : ChatServer) (c c' : Control) (outside : c.inLoop = false)
      (outside' : c'.inLoop = false) : AlikeObjects (some ⟨s, c⟩) (some ⟨s, c'⟩)

theorem alike_act {o o' : Option Loop} (alike : AlikeObjects o o') (a : Action) :
    (act o a).2 = (act o' a).2 ∧ AlikeObjects (act o a).1 (act o' a).1 := by
  cases alike with
  | destroyed => exact ⟨rfl, .destroyed⟩
  | same l =>
    refine ⟨rfl, ?_⟩
    cases (act (some l) a).1 with
    | none => exact .destroyed
    | some next => exact .same next
  | left s c c' outside outside' =>
    cases a with
    | run a => exact ⟨rfl, .left _ c c' outside outside'⟩
    | stop => exact ⟨rfl, .left _ c c' outside outside'⟩
    | enterLoop => exact ⟨rfl, .same _⟩
    | loopStep k =>
      simp only [act, step_of_outside (l := ⟨s, c⟩) outside, step_of_outside (l := ⟨s, c'⟩) outside']
      exact ⟨trivial, .left s c c' outside outside'⟩
    | destroy => exact ⟨rfl, .destroyed⟩

structure Alike (p q : Process) : Prop where
  object : AlikeObjects p.object q.object
  table : p.table = q.table

theorem alike_next (p q : Process) (a : Action) (alike : Alike p q) :
    (p.next a).2.filter (fun _ => true) = (q.next a).2.filter (fun _ => true) ∧
      Alike (p.next a).1 (q.next a).1 := by
  obtain ⟨events, object⟩ := alike_act alike.object a
  have same : (p.next a).2 = (q.next a).2 := events
  refine ⟨by rw [same], object, ?_⟩
  simp only [Process.next, alike.table, events]

theorem AlikeObjects.server {o o' : Option Loop} (alike : AlikeObjects o o') :
    o.map (·.server) = o'.map (·.server) := by
  cases alike <;> rfl

/-- Between its sessions a server is as it was constructed and has nothing open, so that whatever
is done with it then does and leaves what it would with a new one. -/
theorem sessions_independent (r : Life) :
    Machine.Always Process.next (fun p _ => ∀ l ∈ p.object, l.server.running = false →
      l.server = constructed r.port ∧ p.table = []) (Process.start r.port) [] r.actions ∧
    ∀ l ∈ r.final.object, l.server.running = false → l.control.inLoop = false →
      ∀ more : List Action,
        (Machine.run Process.next r.final more).2 =
          (Machine.run Process.next (Process.start r.port) more).2 ∧
        (Machine.run Process.next r.final more).1.object.map (·.server) =
          (Machine.run Process.next (Process.start r.port) more).1.object.map (·.server) := by
  have renewed {p : Process} {log : List Event} (h : Standing r.port p log) {l : Loop}
      (here : l ∈ p.object) (off : l.server.running = false) :
      l.server = constructed r.port ∧ p.table = [] := by
    refine ⟨(h.renewable l here).idle off, ?_⟩
    have same := h.kept.same
    obtain ⟨object, table⟩ := p
    obtain rfl : object = some l := here
    have none : (⟨some l, table⟩ : Process).owned = [] := owned_off (h.kept.consistent l rfl) off
    rw [none] at same
    exact same.eq_nil
  constructor
  · refine always_of_invariant ?_ (standing_next r.port) (standing_start r.port) r.sane
    exact fun p log standing l here off => renewed standing here off
  · intro l here off outside more
    obtain ⟨server, table⟩ := renewed r.standing here off
    have alike : Alike r.final (Process.start r.port) := by
      refine ⟨?_, table⟩
      have object : r.final.object = some l := here
      rw [object]
      obtain ⟨s, control⟩ := l
      cases server
      exact .left _ control .returned outside rfl
    obtain ⟨events, last⟩ := run_agrees alike_next more alike
    simp only [List.filter_true] at events
    exact ⟨events, last.object.server⟩

def firstActions : List Action :=
  [.run { socket := .ok 3, signalfd := .ok 4 }, .enterLoop] ++
    (joins 5 ++ delivers 5 0 (ascii ['A', '\n'])).map .loopStep

/-- A client comes and says its name, and a signal stops the server. -/
def oneSession : Life where
  port := some 4000
  actions := firstActions ++ List.replicate 2
    (.loopStep { poll := .ready fun y => { pollin := y = 4 }
                 read := fun _ => .ofBytes (List.replicate siginfoSize 0) })
  sane := by decide +kernel

theorem second_session_alike :
    oneSession.log ≠ [] ∧
    (Machine.run Process.next oneSession.final firstActions).2 =
      (Machine.run Process.next (Process.start oneSession.port) firstActions).2 := by
  have ended : oneSession.final.object.map (fun l => (l.server.running, l.control)) =
      some (false, .returned) := by decide +kernel
  obtain ⟨l, here, eq⟩ := Option.map_eq_some_iff.mp ended
  obtain ⟨off, control⟩ := Prod.mk.inj eq
  have outside : l.control.inLoop = false := by rw [control]; rfl
  exact ⟨by decide +kernel, ((sessions_independent oneSession).2 l here off outside firstActions).1⟩

end TcpChat.ChatServer
