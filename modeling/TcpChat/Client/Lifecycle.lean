import TcpChat.Lib.Rules
import TcpChat.Net.Address
import TcpChat.Client.Session

/-! A client object over its life: one of the constructors, then the public calls in any order. -/
namespace TcpChat.ChatClient
open Machine

/-- What a function that takes a C string sees of a `std::string`. -/
def cStr (s : List Byte) : List Byte := s.takeWhile (· ≠ 0)

def ofAddress (ipAddress : List Byte) : Run Unit := do
  let q ← inetPtonSocket (cStr ipAddress)
  Program.modify fun c =>
    { c with address := { c.address with ipAddress := q.storeTo c.address.ipAddress } }

inductive Constructor where
  | default
  | address (ipAddress : List Byte)
  | addressName (ipAddress name : List Byte)

def Constructor.ipAddress : Constructor → Option (List Byte)
  | .default => none
  | .address ip => some ip
  | .addressName ip _ => some ip

/-- The body of the constructor, on an object with the default members. -/
def construct : Constructor → Run Unit
  | .default => pure ()
  | .address ip => ofAddress ip
  | .addressName ip name => do
    ofAddress ip
    setName name

/-- The public calls; `event_loop` comes with the kernel's answers to its iterations. -/
inductive Call where
  | setName (name : List Byte)
  | run (answers : RunAnswers)
  | eventLoop (kernels : List Kernel)
  | stop

namespace Call

def answers : Call → Option RunAnswers
  | .run answers => some answers
  | _ => none

/-- The iterations of a call of `event_loop`; the other calls have none. -/
def kernels : Call → List Kernel
  | .eventLoop kernels => kernels
  | _ => []

end Call

def call (c : ChatClient) : Call → ChatClient × List Event
  | .setName name =>
    let r := ChatClient.setName name c
    (r.state, r.events)
  | .run answers =>
    let r := ChatClient.run answers c
    (r.state, r.events)
  | .eventLoop kernels =>
    let r := Machine.run step (ChatClient.eventLoop c) kernels
    (r.1.client, r.2)
  | .stop =>
    let r := ChatClient.stop c
    (r.state, r.events)

structure Life where
  constructor : Constructor
  calls : List Call
  built : (construct constructor {}).outcome = .returned ()

theorem built_default : (construct .default {}).outcome = .returned () := rfl

namespace Life

def new (l : Life) : ChatClient := (construct l.constructor {}).state
def client (l : Life) : ChatClient := (Machine.run call l.new l.calls).1
def log (l : Life) : List Event := (Machine.run call l.new l.calls).2

end Life

section
open Program
variable {I : ChatClient → Prop} {P : Event → Prop}

theorem keeps_setName (name : List Byte) (renamed : ∀ c, I c → I { c with clientName := name }) :
    Keeps I P (setName name) := by
  unfold setName
  split
  · exact keeps_throw _
  · split
    · exact keeps_throw _
    · exact keeps_modify renamed

theorem keeps_ofAddress (ip : List Byte)
    (addressed : ∀ c address, I c → I { c with address := address }) :
    Keeps I P (ofAddress ip) := by
  have parses : Keeps I P (inetPtonSocket (cStr ip) : Run Quad) := by
    unfold inetPtonSocket
    split
    · exact keeps_throw _
    · exact keeps_pure _
  exact keeps_bind parses fun _ => keeps_modify fun c h => addressed c _ h

/-- The constructors touch the address and the name only. -/
theorem keeps_construct (k : Constructor)
    (addressed : ∀ c address, I c → I { c with address := address })
    (renamed : ∀ c name, I c → I { c with clientName := name }) : Keeps I P (construct k) := by
  cases k with
  | default => exact keeps_pure _
  | address ip => exact keeps_ofAddress ip addressed
  | addressName ip name =>
    exact keeps_bind (keeps_ofAddress ip addressed) fun _ => keeps_setName name fun c =>
      renamed c name

end

theorem wired_self {l : Loop} (good : l.client.Good) :
    Wired l.client.clientFd.get l.client.signalfd.get l := ⟨good, fun _ => ⟨rfl, rfl⟩⟩

theorem good_step {l : Loop} (k : Kernel) (good : l.client.Good) : (step l k).1.client.Good :=
  (wired_step k (wired_self good)).good

theorem good_call {c : ChatClient} (good : c.Good) (a : Call) : (call c a).1.Good := by
  cases a with
  | setName name =>
    exact (keeps_setName (P := fun _ => True) name (fun _ h => ⟨h.read, h.write⟩) c good).1
  | stop =>
    rw [call, stop_eq]
    exact ⟨good.read, good.write⟩
  | eventLoop kernels =>
    exact run_keeps (I := fun (l : Loop) _ => l.client.Good) (P := fun _ _ => True)
      (fun _ _ k h _ => good_step k h) good (along_of_forall (fun _ _ => trivial) _ _)
  | run answers =>
    obtain ⟨c', log, o, eq, effect⟩ := run_cases answers c
    rw [call, eq]
    cases effect with
    | connected | unopened | undone => exact good
    | cut | stuck | done => exact ⟨good.read, good.write⟩

theorem good_new (l : Life) : l.new.Good :=
  (keeps_construct (P := fun _ => True) l.constructor (fun _ _ h => ⟨h.read, h.write⟩)
    (fun _ _ h => ⟨h.read, h.write⟩) {} ⟨Buffer.valid_empty, Buffer.valid_empty⟩).1

theorem Life.good (l : Life) : l.client.Good :=
  run_keeps (I := fun (c : ChatClient) _ => c.Good) (P := fun _ _ => True)
    (fun _ _ a h _ => good_call h a) (good_new l) (along_of_forall (fun _ _ => trivial) _ _)

/-! Every loop of a life. -/

/-- While there is a connection, its descriptors are neither stdin nor each other. -/
structure Apart (c : ChatClient) : Prop where
  good : c.Good
  distinct : c.connected = true → Distinct c.clientFd.get c.signalfd.get

theorem effect_off {k : Kernel} {l l' : Loop} {more : List Event} (effect : Effect k l l' more)
    (off : l.client.connected = false) : l'.client = l.client := by
  cases effect with
  | quiet => rfl
  | stdinEnds _ ready | serverEnds _ ready | through _ ready =>
    cases off.symm.trans (connected_of_polled ready)

theorem apart_step {l : Loop} (k : Kernel) (apart : l.client.Apart) :
    (step l k).1.client.Apart := by
  have effect := step_effect k l apart.good
  obtain ⟨good, wired⟩ := wired_step k (wired_self apart.good)
  refine ⟨good, fun on => ?_⟩
  obtain ⟨here, watched⟩ := wired on
  rw [here, watched]
  cases was : l.client.connected with
  | true => exact apart.distinct was
  | false =>
    rw [effect_off effect was, was] at on
    cases on

theorem apart_call {c : ChatClient} {a : Call} (apart : c.Apart)
    (unused : ∀ answers ∈ a.answers, Unused answers) : (call c a).1.Apart := by
  have good := good_call apart.good a
  refine ⟨good, ?_⟩
  cases a with
  | setName name =>
    exact (keeps_setName (I := fun c => c.connected = true → Distinct c.clientFd.get c.signalfd.get)
      (P := fun _ => True) name (fun _ h => h) c apart.distinct).1
  | stop =>
    rw [call, stop_eq]
    exact nofun
  | eventLoop kernels =>
    exact (run_keeps (I := fun (l : Loop) _ => l.client.Apart) (P := fun _ _ => True)
      (fun _ _ k h _ => apart_step k h) apart (along_of_forall (fun _ _ => trivial) _ _)).distinct
  | run answers =>
    obtain ⟨c', log, o, eq, effect⟩ := run_cases answers c
    rw [call, eq]
    cases effect with
    | connected | unopened | undone => exact apart.distinct
    | cut _ _ _ _ off | stuck _ _ _ off => exact fun on => absurd (off.symm.trans on) (by decide)
    | done fd sfd _ _ _ socket signal =>
      exact fun _ => unused answers rfl fd (by simp [socket, Except.toOption]) sfd
        (by simp [signal, Except.toOption])

theorem apart_new (l : Life) : l.new.Apart := by
  have off : l.new.connected = false :=
    (keeps_construct (I := fun c => c.connected = false) (P := fun _ => True) l.constructor
      (fun _ _ h => h) (fun _ _ h => h) {} rfl).1
  exact ⟨good_new l, fun on => absurd (off.symm.trans on) (by decide)⟩

/-- Every iteration of every call of `event_loop` meets a condition. -/
def Life.Loops (l : Life) (P : Loop → Kernel → Prop) : Prop :=
  Along call (fun c a => Along step P (eventLoop c) a.kernels) l.new l.calls

instance (l : Life) (P : Loop → Kernel → Prop) [∀ l k, Decidable (P l k)] :
    Decidable (l.Loops P) := by
  unfold Life.Loops
  infer_instance

/-- A life in which the descriptors that `run` gets are neither stdin nor each other. -/
structure Reuse where
  life : Life
  unused : Along call (fun _ a => ∀ answers ∈ a.answers, Unused answers) life.new life.calls

/-- Two conditions that say the same of every loop that a good client enters. -/
theorem loops_congr_good {l : Life} {C D : Loop → Kernel → Prop}
    (same : ∀ l k, l.client.Good → (C l k ↔ D l k)) : l.Loops C ↔ l.Loops D :=
  along_congr (I := Good) (P := fun _ _ => True)
    (fun _ _ good => along_congr (I := fun l => l.client.Good) (P := fun _ _ => True)
      same (fun _ k h _ => good_step k h) good (along_of_forall (fun _ _ => trivial) _ _))
    (fun _ a h _ => good_call h a) (good_new l) (along_of_forall (fun _ _ => trivial) _ _)

theorem loops_congr {u : Reuse} {C D : Loop → Kernel → Prop}
    (same : ∀ l k, l.client.Apart → (C l k ↔ D l k)) : u.life.Loops C ↔ u.life.Loops D :=
  along_congr (I := Apart)
    (fun _ _ apart => along_congr (I := fun l => l.client.Apart) (P := fun _ _ => True)
      same (fun _ k h _ => apart_step k h) apart (along_of_forall (fun _ _ => trivial) _ _))
    (fun _ _ h unused => apart_call h unused) (apart_new u.life) u.unused

end TcpChat.ChatClient
