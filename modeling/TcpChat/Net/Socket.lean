import TcpChat.Net.Io

/-! net_utils.hpp and net_socket.cpp: the owning descriptor, the address, and the
socket calls that throw. -/
namespace TcpChat

structure ScopedFileDescriptor where
  fd_ : Fd := -1
  deriving DecidableEq

namespace ScopedFileDescriptor

def get (d : ScopedFileDescriptor) : Fd := d.fd_
def valid (d : ScopedFileDescriptor) : Bool := d.fd_ ≥ 0

/-- The `close` calls of `reset` and of the destructor. -/
def closing (d : ScopedFileDescriptor) : List Event := if d.fd_ ≥ 0 then [.close d.fd_] else []

def reset (d : ScopedFileDescriptor) (fd : Fd) : ScopedFileDescriptor × List Event :=
  (⟨fd⟩, d.closing)

/-- Move assignment from another object: the new target, the new source, the closes.
Self-assignment does nothing and is left to the caller, who knows which objects are one. -/
def moveAssign (d other : ScopedFileDescriptor) :
    ScopedFileDescriptor × ScopedFileDescriptor × List Event :=
  (⟨other.fd_⟩, ⟨-1⟩, d.closing)

end ScopedFileDescriptor

def afInet : Nat := 2

/-- `htons` and `htonl` on a little-endian host reverse the bytes. -/
def htons (x : BitVec 16) : BitVec 16 := x.extractLsb' 0 8 ++ x.extractLsb' 8 8

def htonl (x : BitVec 32) : BitVec 32 :=
  x.extractLsb' 0 8 ++ x.extractLsb' 8 8 ++ x.extractLsb' 16 8 ++ x.extractLsb' 24 8

structure SocketAddress where
  family : Nat := afInet
  ipAddress : BitVec 64 := 0
  port : BitVec 16 := 9877
  deriving DecidableEq

def SocketAddress.toSockaddr (a : SocketAddress) : SockaddrIn where
  sinFamily := a.family
  sinPort := htons a.port
  sinAddr := htonl (a.ipAddress.setWidth 32)

variable {S : Type}

/-- Linux defines `EPROTO` and no `ERPROTO`, so only `ECONNABORTED` is retried. -/
def acceptSocket : List AcceptAnswer → Program S Event Exn Fd
  | [] => Program.block
  | .accepted fd :: _ => do
    Program.emit [.accept fd]
    pure fd
  | .failed e :: answers =>
    if e = .ECONNABORTED then acceptSocket answers
    else Program.throw (.systemError (some e) "accept() failed")

def createSocket (answer : Except Errno Nat) : Program S Event Exn Fd :=
  match answer with
  | .error e => Program.throw (.systemError (some e) "socket() failed")
  | .ok fd => do
    Program.emit [.socket fd]
    pure fd

/-- The event is the call, so that a refused connection is in the log too. -/
def connectSocket (fd : Fd) (sa : SockaddrIn) (answer : Option Errno) :
    Program S Event Exn Unit := do
  Program.emit [.connect fd sa]
  match answer with
  | some e => Program.throw (.systemError (some e) "connect() failed")
  | none => pure ()

def bindSocket (fd : Fd) (sa : SockaddrIn) (answer : Option Errno) : Program S Event Exn Unit :=
  match answer with
  | some e => Program.throw (.systemError (some e) "bind() failed")
  | none => Program.emit [.bind fd sa]

def listenSocket (fd : Fd) (backlog : Int) (answer : Option Errno) : Program S Event Exn Unit :=
  match answer with
  | some e => Program.throw (.systemError (some e) "listen() failed")
  | none => Program.emit [.listen fd backlog]

/-- The system calls of `setup_signal_fd`, which both classes have. -/
def openSignalFd (sigprocmask : Option Errno) (signalfd : Except Errno Nat) :
    Program S Event Exn Fd :=
  match sigprocmask with
  | some e => Program.throw (.systemError (some e) "failed to block signals using sigprocmask")
  | none =>
    match signalfd with
    | .error e => Program.throw (.systemError (some e) "failed to create signalfd")
    | .ok fd => do
      Program.emit [.signalfd fd]
      pure fd

def siginfoSize : Nat := 128

theorem acceptSocket_cases (answers : List AcceptAnswer) (s : S) :
    (∃ fd : Nat, .accepted fd ∈ answers ∧
      acceptSocket answers s = ⟨s, [.accept fd], .returned (fd : Fd)⟩) ∨
    acceptSocket answers s = ⟨s, [], .blocked⟩ ∨
    ∃ e, acceptSocket answers s = ⟨s, [], .thrown (.systemError (some e) "accept() failed")⟩ := by
  induction answers with
  | nil => exact .inr (.inl rfl)
  | cons answer answers ih =>
    cases answer with
    | accepted fd => exact .inl ⟨fd, List.mem_cons_self, rfl⟩
    | failed e =>
      simp only [acceptSocket, Program.ite_apply]
      split
      · rcases ih with ⟨fd, member, eq⟩ | rest
        · exact .inl ⟨fd, List.mem_cons_of_mem _ member, eq⟩
        · exact .inr rest
      · exact .inr (.inr ⟨e, rfl⟩)

end TcpChat
