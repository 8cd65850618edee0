import TcpChat.Lib.Program
import Mathlib.Data.BitVec

/-! What the programs see of Linux: descriptors, the answers of the system calls,
the exceptions thrown on bad answers, and the events a run leaves behind. -/
namespace TcpChat

abbrev Byte := UInt8
abbrev Fd := Int

def newline : Byte := 10

def ascii (cs : List Char) : List Byte := cs.map fun c => UInt8.ofNat c.toNat

inductive Errno where
  | EINTR | ECONNRESET | ECONNABORTED | EPROTO | EPIPE | EAGAIN
  | other (code : Nat)
  deriving DecidableEq, Repr

/-- The standard exceptions the code throws, with their texts. The `errno` of a system
error is `none` where the failed call did not set it. -/
inductive Exn where
  | logicError (what : String)
  | runtimeError (what : String)
  | lengthError (what : String)
  | invalidArgument (what : String)
  | systemError (errno : Option Errno) (what : String)
  deriving DecidableEq, Repr

/-! Answers. Each is what the kernel has ready; how much of it a call takes depends on
the count the call is made with. -/

/-- What a `read` finds: bytes waiting, the end of the stream, or an error. -/
inductive ReadAnswer where
  | data (waiting : List Byte) (nonempty : waiting ≠ [])
  | eof
  | failed (errno : Errno)
  deriving DecidableEq

/-- What a read finds of a stream of which these bytes are left. -/
def ReadAnswer.ofBytes (bytes : List Byte) : ReadAnswer :=
  if nonempty : bytes = [] then .eof else .data bytes nonempty

/-- The bytes that a read of any size would find. -/
def ReadAnswer.waiting : ReadAnswer → List Byte
  | .data bytes _ => bytes
  | .eof | .failed _ => []

/-- `read(fd, ptr, nbytes)`. A zero byte count returns 0 whatever is waiting. -/
def ReadAnswer.read (answer : ReadAnswer) (nbytes : Nat) : Except Errno (List Byte) :=
  if nbytes = 0 then .ok []
  else match answer with
    | .data waiting _ => .ok (waiting.take nbytes)
    | .eof => .ok []
    | .failed e => .error e

/-- One `write`: how many of the offered bytes it takes at most, or an error. -/
inductive WriteAnswer where
  | accepted (n : Nat)
  | failed (errno : Errno)
  deriving DecidableEq, Repr

inductive AcceptAnswer where
  | accepted (fd : Nat)
  | failed (errno : Errno)
  deriving DecidableEq, Repr

/-- The bits of `revents` that a poll for `POLLIN` can report. -/
structure Revents where
  pollin : Bool := false
  pollerr : Bool := false
  pollhup : Bool := false
  pollnval : Bool := false
  deriving DecidableEq, Repr

/-- `revents & (POLLERR | POLLHUP | POLLNVAL)`. -/
def Revents.failed (r : Revents) : Bool := r.pollerr || r.pollhup || r.pollnval

def Revents.nonzero (r : Revents) : Bool := r.pollin || r.failed

inductive PollAnswer where
  | failed (errno : Errno)
  | ready (revents : Fd → Revents)

/-- The `struct pollfd` entries; `events` is `POLLIN` in all of them. -/
structure PollFd where
  fd : Fd
  revents : Revents := {}
  deriving DecidableEq, Repr

/-- `struct sockaddr_in`, the port and the address as stored in memory. -/
structure SockaddrIn where
  sinFamily : Nat
  sinPort : BitVec 16
  sinAddr : BitVec 32
  deriving DecidableEq

/-- What a run leaves behind. `named` and `relay` are the program's own acts: the name line
taken from a connection's buffer, and the text taken from it to be sent under a name. -/
inductive Event where
  | socket (fd : Fd)
  | signalfd (fd : Fd)
  | bind (fd : Fd) (address : SockaddrIn)
  | listen (fd : Fd) (backlog : Int)
  | connect (fd : Fd) (address : SockaddrIn)
  | accept (fd : Fd)
  | close (fd : Fd)
  | read (fd : Fd) (bytes : List Byte)
  | readError (fd : Fd) (errno : Errno)
  | write (fd : Fd) (bytes : List Byte)
  | writeError (fd : Fd) (errno : Option Errno)
  | print (text : List Byte)
  | named (fd : Fd) (line : List Byte)
  | relay (fd : Fd) (name text : List Byte)
  deriving DecidableEq

def Event.sentTo (fd : Fd) : Event → List Byte
  | .write y bytes => if y = fd then bytes else []
  | _ => []

def Event.readFrom (fd : Fd) : Event → List Byte
  | .read y bytes => if y = fd then bytes else []
  | _ => []

def sent (fd : Fd) (log : List Event) : List Byte := log.flatMap (Event.sentTo fd)

@[simp] theorem sent_nil (fd : Fd) : sent fd [] = [] := rfl

@[simp] theorem sent_cons (fd : Fd) (e : Event) (log : List Event) :
    sent fd (e :: log) = e.sentTo fd ++ sent fd log := rfl

@[simp] theorem sent_append (fd : Fd) (log more : List Event) :
    sent fd (log ++ more) = sent fd log ++ sent fd more := List.flatMap_append

theorem ReadAnswer.read_length {answer : ReadAnswer} {nbytes : Nat} {bytes : List Byte}
    (h : answer.read nbytes = .ok bytes) : bytes.length ≤ nbytes := by
  unfold ReadAnswer.read at h
  split at h
  · cases h; simp
  · split at h
    · cases h; exact List.length_take_le _ _
    · cases h; simp
    · cases h

/-- A read returns 0 at the end of the stream, or because it was asked for nothing. -/
theorem ReadAnswer.read_eq_nil_iff (answer : ReadAnswer) (nbytes : Nat) :
    answer.read nbytes = .ok [] ↔ nbytes = 0 ∨ answer = .eof := by
  unfold ReadAnswer.read
  by_cases zero : nbytes = 0
  · simp [zero]
  · cases answer with
    | data waiting nonempty => simp [zero, nonempty]
    | eof => simp [zero]
    | failed e => simp [zero]

theorem ReadAnswer.read_ofBytes (bytes : List Byte) (n : Nat) :
    (ReadAnswer.ofBytes bytes).read n = .ok (bytes.take n) := by
  by_cases empty : bytes = []
  · simp [ReadAnswer.ofBytes, ReadAnswer.read, empty]
  · by_cases zero : n = 0
    · simp [ReadAnswer.read, zero]
    · simp [ReadAnswer.ofBytes, ReadAnswer.read, empty, zero]

end TcpChat
