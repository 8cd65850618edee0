import TcpChat.Net.Socket
import TcpChat.Protocol.Buffer

/-! chat_client.cpp. One step of the loop is one iteration of its `while`. -/
namespace TcpChat

def stdinFileno : Fd := 0
def maxNameLen : Nat := 32

structure ChatClient where
  connected : Bool := false
  clientFd : ScopedFileDescriptor := {}
  signalfd : ScopedFileDescriptor := {}
  address : SocketAddress := {}
  clientName : List Byte := ascii ['N', 'o', ' ', 'N', 'a', 'm', 'e']
  readBuffer : Buffer := Buffer.empty
  writeBuffer : Buffer := Buffer.empty
  deriving DecidableEq

namespace ChatClient

abbrev Run (α : Type) : Type := Program ChatClient Event Exn α

/-- The kernel's answers to the calls of `run`. -/
structure RunAnswers where
  socket : Except Errno Nat
  connect : Option Errno := none
  sigprocmask : Option Errno := none
  signalfd : Except Errno Nat
  write : List WriteAnswer := []

/-- The kernel's answers during one iteration; `write` serves all its writes in turn. -/
structure Kernel where
  poll : PollAnswer
  stdin : ReadAnswer := .eof
  server : ReadAnswer := .eof
  signal : ReadAnswer := .eof
  write : List WriteAnswer := []

inductive Control where
  | poll
  | returned
  | thrown (e : Exn)
  | blocked
  | undefined
  deriving DecidableEq

structure Loop where
  client : ChatClient
  control : Control
  deriving DecidableEq

def setName (name : List Byte) : Run Unit :=
  if name = [] then Program.throw (.invalidArgument "client name cannot be empty")
  else if name.length > maxNameLen then
    Program.throw (.lengthError "client name exceeds maximum length")
  else Program.modify fun c => { c with clientName := name }

def setupSignalFd (a : RunAnswers) : Run Unit := do
  let fd ← openSignalFd a.sigprocmask a.signalfd
  let c ← Program.get
  Program.emit c.signalfd.closing
  Program.modify fun c => { c with signalfd := ⟨fd⟩ }

def run (a : RunAnswers) : Run Unit := do
  let c ← Program.get
  if c.connected then Program.throw (.logicError "client is already connected")
  else do
    let tempSocket ← createSocket a.socket
    Program.unwinding (do
      connectSocket tempSocket c.address.toSockaddr a.connect
      setupSignalFd a
      -- send name for the server
      let _ ← writeFull tempSocket (c.clientName ++ [newline]) a.write
      Program.emit c.clientFd.closing
      Program.modify fun c => { c with clientFd := ⟨tempSocket⟩, connected := true })
      [.close tempSocket]

def stop : Run Unit := do
  let c ← Program.get
  Program.emit (c.signalfd.closing ++ c.clientFd.closing)
  Program.modify fun c => { c with signalfd := {}, clientFd := {}, connected := false }

def onReadBuffer {α : Type} (p : Program Buffer Event Exn α) : Run α :=
  Program.zoom (·.readBuffer) (fun b c => { c with readBuffer := b }) p

def onWriteBuffer {α : Type} (p : Program Buffer Event Exn α) : Run α :=
  Program.zoom (·.writeBuffer) (fun b c => { c with writeBuffer := b }) p

/-- Data is ready in stdin. Returns whether the loop goes on. -/
def stdinPart (k : Kernel) (revents : Revents) : Run Bool :=
  if revents.pollin then do
    let c ← Program.get
    let bytes ← readFd stdinFileno k.stdin c.writeBuffer.freeSpace.toNat
    onWriteBuffer (Program.modify fun b => b.writeAt b.size.toNat bytes)
    let n : Int := bytes.length
    if n = 0 then do -- EOF
      stop
      pure false
    else do
      onWriteBuffer (Buffer.increaseSize n)
      -- write stdin input to the server fd
      let _ ← onWriteBuffer (Buffer.consumeFullFd c.clientFd.get newline k.write)
      pure true
  else pure true

/-- Handling the server's response: a read of 0 is not told apart. -/
def serverPart (k : Kernel) (revents : Revents) : Run Unit :=
  if revents.pollin then do
    let c ← Program.get
    let bytes ← readFd c.clientFd.get k.server c.readBuffer.freeSpace.toNat
    onReadBuffer (Program.modify fun b => b.writeAt b.size.toNat bytes)
    onReadBuffer (Buffer.increaseSize bytes.length)
    let serverMessages ← onReadBuffer (Buffer.consumeFull newline)
    if serverMessages.length > 0 then Program.emit [.print serverMessages] else pure ()
  else pure ()

def signalPart (k : Kernel) (revents : Revents) : Run Control :=
  if revents.pollin then do
    let c ← Program.get
    let siginfo ← readFd c.signalfd.get k.signal siginfoSize
    if siginfo.length ≠ siginfoSize then
      Program.throw (.runtimeError "failed to read signalfd")
    else do
      stop
      pure .returned
  else pure .poll

/-- One iteration. The descriptors in `pollfds` are those of the members, which change only
where the loop is left. -/
def iteration (k : Kernel) : Run Control := do
  let c ← Program.get
  if c.connected = false then pure .returned
  else
    match k.poll with
    | .failed e =>
      if e = .EINTR then pure .poll
      else Program.throw (.runtimeError "poll failed")
    | .ready revents => do
      let goesOn ← stdinPart k (revents stdinFileno)
      if goesOn then do
        serverPart k (revents c.clientFd.get)
        signalPart k (revents c.signalfd.get)
      else pure .returned

def stepProgram (k : Kernel) : Control → Run Control
  | .poll => iteration k
  | ended => pure ended

def Control.ofOutcome : Outcome Exn Control → Control
  | .returned control => control
  | .thrown e => .thrown e
  | .blocked => .blocked
  | .undefined => .undefined

def step (l : Loop) (k : Kernel) : Loop × List Event :=
  let r := stepProgram k l.control l.client
  (⟨r.state, .ofOutcome r.outcome⟩, r.events)

/-- `event_loop()` as it is called. -/
def eventLoop (c : ChatClient) : Loop :=
  ⟨c, if c.connected then .poll else .thrown (.logicError "client is not running")⟩

end ChatClient
end TcpChat
