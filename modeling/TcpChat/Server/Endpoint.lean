import TcpChat.Lib.Rules
import TcpChat.Net.Address
import TcpChat.Server.Sessions

/-! `endpoint`: the address of a server as text. Of all socket addresses it names the one that the
object binds, in every life. -/
namespace TcpChat

def colon : Byte := 58

/-- `std::to_string` of an unsigned number. -/
def stdToString (n : Nat) : List Byte := ascii (Nat.toDigits 10 n)

/-- `inet_ntop` of four bytes in memory; there is no text for another family. -/
def inetNtop (family : Nat) (addr : BitVec 32) : Option (List Byte) :=
  if family = afInet then some (SockaddrIn.addressBytes ⟨family, 0, addr⟩).dotted else none

/-- On the hosts with a difference `ntohs` does what `htons` does. -/
def ntohs (x : BitVec 16) : BitVec 16 := htons x

/-- A socket address as it is written. -/
def SockaddrIn.text (sa : SockaddrIn) : List Byte :=
  sa.addressBytes.dotted ++ [colon] ++ stdToString (ntohs sa.sinPort).toNat

/-! What is written can be read. -/

theorem halves (x : BitVec 16) : x.extractLsb' 8 8 ++ x.extractLsb' 0 8 = x := by
  rw [BitVec.extractLsb'_append_extractLsb'_eq_extractLsb' (by decide)]
  simp

theorem quarters (x : BitVec 32) :
    x.extractLsb' 24 8 ++ x.extractLsb' 16 8 ++ x.extractLsb' 8 8 ++ x.extractLsb' 0 8 = x := by
  rw [BitVec.extractLsb'_append_extractLsb'_eq_extractLsb' (by decide),
    BitVec.extractLsb'_append_extractLsb'_eq_extractLsb' (by decide),
    BitVec.extractLsb'_append_extractLsb'_eq_extractLsb' (by decide)]
  simp

theorem ntohs_htons (x : BitVec 16) : ntohs (htons x) = x := by
  have low : (htons x).extractLsb' 0 8 = x.extractLsb' 8 8 := BitVec.extractLsb'_append_eq_right
  have high : (htons x).extractLsb' 8 8 = x.extractLsb' 0 8 := BitVec.extractLsb'_append_eq_left
  rw [ntohs, htons, low, high, halves]

theorem addressBytes_injective {sa sa' : SockaddrIn} (same : sa.addressBytes = sa'.addressBytes) :
    sa.sinAddr = sa'.sinAddr := by
  obtain ⟨first, second, third, fourth⟩ := Quad.mk.inj same
  rw [← quarters sa.sinAddr, ← quarters sa'.sinAddr, UInt8.ofBitVec.inj first,
    UInt8.ofBitVec.inj second, UInt8.ofBitVec.inj third, UInt8.ofBitVec.inj fourth]

/-- The number that digits stand for. -/
def number (digits : List Byte) : Nat := digits.foldl (fun n d => 10 * n + (d.toNat - 48)) 0

theorem foldl_ascii {cs : List Char} (digits : ∀ c ∈ cs, c.isDigit = true) (n : Nat) :
    (ascii cs).foldl (fun n d => 10 * n + (d.toNat - 48)) n = Nat.ofDigitChars 10 cs n := by
  induction cs generalizing n with
  | nil => rfl
  | cons c cs ih =>
    have digit := digits c List.mem_cons_self
    have small : c.toNat < 256 := by
      have bound := (Char.isDigit_iff_toNat.mp digit).2
      have nine : '9'.toNat = 57 := rfl
      omega
    have value : (UInt8.ofNat c.toNat).toNat = c.toNat := UInt8.toNat_ofNat_of_lt' small
    rw [Nat.ofDigitChars_cons, ← ih (fun d member => digits d (List.mem_cons_of_mem c member))]
    simp only [ascii, List.map_cons, List.foldl_cons, value]
    rfl

theorem number_stdToString (n : Nat) : number (stdToString n) = n := by
  have digits : ∀ c ∈ Nat.toDigits 10 n, c.isDigit = true :=
    fun c member => Nat.isDigit_of_mem_toDigits (by decide) (by decide) member
  rw [number, stdToString, foldl_ascii digits, Nat.ofDigitChars_ten_toDigits]

theorem colon_not_mem_decimal : ∀ b : Byte, colon ∉ decimal b := by
  apply all_bytes
  decide +kernel

theorem colon_not_mem_dotted (q : Quad) : colon ∉ q.dotted := by
  have differ : colon ≠ dot := by decide
  simp [Quad.dotted, colon_not_mem_decimal, differ]

/-- Two texts that are cut at their first delimiter. -/
theorem eq_of_cut {d : Byte} {a b a' b' : List Byte} (absent : d ∉ a) (absent' : d ∉ a')
    (same : a ++ [d] ++ b = a' ++ [d] ++ b') : a = a' ∧ b = b' := by
  rw [List.append_assoc, List.append_assoc] at same
  have heads := congrArg (Framing.first d) same
  rw [List.singleton_append, List.singleton_append, Framing.first_header absent,
    Framing.first_header absent'] at heads
  obtain rfl := List.append_cancel_right heads
  exact ⟨rfl, List.append_cancel_left (List.append_cancel_left same)⟩

theorem text_injective {sa sa' : SockaddrIn} (family : sa.sinFamily = sa'.sinFamily)
    (same : sa.text = sa'.text) : sa = sa' := by
  obtain ⟨dotted, port⟩ := eq_of_cut (colon_not_mem_dotted _) (colon_not_mem_dotted _) same
  have address := addressBytes_injective (dotted_injective dotted)
  have ports := congrArg number port
  rw [number_stdToString, number_stdToString] at ports
  have stored := congrArg htons (BitVec.eq_of_toNat_eq ports)
  rw [ntohs, ntohs] at stored
  change ntohs (htons sa.sinPort) = ntohs (htons sa'.sinPort) at stored
  rw [ntohs_htons, ntohs_htons] at stored
  obtain ⟨f, p, a⟩ := sa
  obtain ⟨f', p', a'⟩ := sa'
  cases family
  cases address
  cases stored
  rfl

namespace ChatServer
open Machine

def isRunning (s : ChatServer) : Bool := s.running
def getPort (s : ChatServer) : BitVec 16 := s.address.port

def endpoint : Run (List Byte) := do
  let s ← Program.get
  let addr := htonl (s.address.ipAddress.setWidth 32)
  match inetNtop s.address.family addr with
  | none => Program.throw (.runtimeError "int_ntop() failed")
  | some buf => pure (buf ++ [colon] ++ stdToString s.address.port.toNat)

theorem endpoint_eq {s : ChatServer} (family : s.address.family = afInet) :
    endpoint s = ⟨s, [], .returned s.address.toSockaddr.text⟩ := by
  have port : ntohs s.address.toSockaddr.sinPort = s.getPort := ntohs_htons s.address.port
  simp [endpoint, inetNtop, family, SockaddrIn.text, port, getPort]
  rfl

/-! What a life binds. -/

/-- Nothing is bound to another address, and nothing is connected. -/
def Binding (address : SocketAddress) (e : Event) : Prop :=
  (∀ fd sa, e = .bind fd sa → sa = address.toSockaddr) ∧ ∀ fd sa, e ≠ .connect fd sa

section
variable {address : SocketAddress}
open Program

theorem binding_closing (d : ScopedFileDescriptor) : ∀ e ∈ d.closing, Binding address e := by
  intro e member
  unfold ScopedFileDescriptor.closing at member
  split at member
  · rw [List.mem_singleton.mp member]
    exact ⟨nofun, nofun⟩
  · cases member

theorem keeps_setupSignalFd (a : RunAnswers) :
    Keeps (fun s : ChatServer => s.address = address) (Binding address) (setupSignalFd a) := by
  have opens : Keeps (fun s : ChatServer => s.address = address) (Binding address)
      (openSignalFd a.sigprocmask a.signalfd : Run Fd) := by
    cases mask : a.sigprocmask with
    | some e => exact keeps_throw _
    | none =>
      cases signal : a.signalfd with
      | error e => exact keeps_throw _
      | ok fd => exact keeps_bind (keeps_emit (by simp [Binding])) fun _ => keeps_pure _
  apply keeps_bind opens
  intro fd
  apply keeps_get
  intro s _
  exact keeps_bind (keeps_emit (binding_closing _)) fun _ => keeps_modify fun _ here => here

theorem keeps_run (a : RunAnswers) :
    Keeps (fun s : ChatServer => s.address = address) (Binding address) (run a) := by
  apply keeps_get
  rintro s rfl
  by_cases on : s.running = true
  · rw [if_pos on]
    exact keeps_throw _
  · rw [if_neg on]
    have socket : Keeps (fun s' : ChatServer => s'.address = s.address) (Binding s.address)
        (createSocket a.socket : Run Fd) := by
      cases answer : a.socket with
      | error e => exact keeps_throw _
      | ok fd => exact keeps_bind (keeps_emit (by simp [Binding])) fun _ => keeps_pure _
    apply keeps_bind socket
    intro fd
    apply keeps_unwinding
    · split
      · exact keeps_throw _
      · have bind : Keeps (fun s' : ChatServer => s'.address = s.address) (Binding s.address)
            (bindSocket fd s.address.toSockaddr a.bind : Run Unit) := by
          cases answer : a.bind with
          | some e => exact keeps_throw _
          | none => exact keeps_emit (by simp [Binding])
        have listen : Keeps (fun s' : ChatServer => s'.address = s.address) (Binding s.address)
            (listenSocket fd s.backlog a.listen : Run Unit) := by
          cases answer : a.listen with
          | some e => exact keeps_throw _
          | none => exact keeps_emit (by simp [Binding])
        apply keeps_bind bind
        intro _
        apply keeps_bind listen
        intro _
        apply keeps_bind (keeps_setupSignalFd a)
        intro _
        exact keeps_bind (keeps_emit (binding_closing _)) fun _ => keeps_modify fun _ here => here
    · simp [Binding]

end

theorem binding_of_effect {address : SocketAddress} {k : Kernel} {l l' : Loop} {more : List Event}
    (effect : Effect k l l' more) : ∀ e ∈ more, Binding address e := by
  cases effect with
  | quiet => exact nofun
  | join | refuse | closeFailed | hangup | eof | readFailed => simp [Binding]
  | signalFailed e _ _ tried => rcases tried with ⟨bytes, rfl⟩ | ⟨e, rfl⟩ <;> simp [Binding]
  | stop bytes =>
    refine List.forall_mem_cons.mpr ⟨⟨nofun, nofun⟩, fun e member => ?_⟩
    rw [stopLog_eq] at member
    obtain ⟨fd, _, rfl⟩ := List.mem_map.mp member
    exact ⟨nofun, nofun⟩
  | serve _ _ _ _ _ _ _ _ _ _ _ _ _ _ _ relayed =>
    exact List.forall_mem_cons.mpr ⟨⟨nofun, nofun⟩, forall_served relayed _ ⟨nofun, nofun⟩
      ⟨nofun, nofun⟩ (fun _ _ => ⟨nofun, nofun⟩) fun _ _ => ⟨nofun, nofun⟩⟩

theorem Renewable.address {port : Option (BitVec 16)} {s : ChatServer} (h : Renewable port s) :
    s.address = (constructed port).address := by
  have same : s.stopped.address = (constructed port).address := by rw [h.stopped]
  exact same

theorem binding_next {port : Option (BitVec 16)} {p : Process} {log : List Event} {a : Action}
    (h : Standing port p log) : ∀ e ∈ (p.next a).2, Binding (constructed port).address e := by
  obtain ⟨object, table⟩ := p
  cases object with
  | none => simp [Process.next, act]
  | some l =>
    have address := (h.renewable l rfl).address
    cases a with
    | run a => exact (keeps_run a l.server address).2
    | stop =>
      intro e member
      simp only [Process.next, act, stop_eq, stopLog_eq] at member
      obtain ⟨fd, _, rfl⟩ := List.mem_map.mp member
      simp [Binding]
    | enterLoop => simp [Process.next, act]
    | loopStep k => exact binding_of_effect (step_effect k l (h.kept.good l rfl))
    | destroy =>
      intro e member
      simp only [Process.next, act, destructor_eq] at member
      obtain ⟨fd, _, rfl⟩ := List.mem_map.mp member
      simp [Binding]

/-- Whenever it is asked, the endpoint is a text that only one address has, and all that the
object has bound so far is that address. -/
theorem endpoint_names_bound (r : Life) :
    Machine.Always Process.next (fun p log => ∀ l ∈ p.object, ∃ text,
      endpoint l.server = ⟨l.server, [], .returned text⟩ ∧
      ∀ fd sa, .bind fd sa ∈ log → ∀ other : SockaddrIn, other.sinFamily = afInet →
        (other.text = text ↔ other = sa)) (Process.start r.port) [] r.actions := by
  refine always_of_invariant
    (I := fun p log => Standing r.port p log ∧ ∀ e ∈ log, Binding (constructed r.port).address e)
    ?_ ?_ ⟨standing_start r.port, nofun⟩ r.sane
  · rintro p log ⟨standing, bound⟩ l here
    have address := (standing.renewable l here).address
    have family : l.server.address.family = afInet := by
      rw [address]
      cases r.port <;> rfl
    refine ⟨_, endpoint_eq family, fun fd sa member other inet => ?_⟩
    have same := (bound _ member).1 fd sa rfl
    rw [address, same]
    constructor
    · refine text_injective ?_
      rw [inet]
      cases r.port <;> rfl
    · intro eq
      rw [eq]
  · rintro p log a ⟨standing, bound⟩ sane
    refine ⟨standing_next r.port p log a standing sane, fun e member => ?_⟩
    rcases List.mem_append.mp member with old | new
    · exact bound e old
    · exact binding_next standing e new

def listens : Life where
  port := some 4000
  actions := [.run { socket := .ok 3, signalfd := .ok 4 }, .enterLoop]
  sane := by decide +kernel

theorem bound_address_named : ∃ sa, .bind 3 sa ∈ listens.log ∧
    ∀ other : SockaddrIn, other.sinFamily = afInet →
      (other.text = ascii ['0', '.', '0', '.', '0', '.', '0', ':', '4', '0', '0', '0'] ↔
        other = sa) := by
  have asked : listens.final.object.map (fun l => (endpoint l.server).outcome) =
      some (.returned (ascii ['0', '.', '0', '.', '0', '.', '0', ':', '4', '0', '0', '0'])) := by
    decide +kernel
  have bound : .bind 3 (SocketAddress.toSockaddr { port := 4000 }) ∈ listens.log := by
    decide +kernel
  obtain ⟨l, here, answer⟩ := Option.map_eq_some_iff.mp asked
  obtain ⟨text, eq, names⟩ := always_last (endpoint_names_bound listens) l here
  rw [eq] at answer
  cases answer
  exact ⟨_, bound, names 3 _ bound⟩

end ChatServer
end TcpChat
