import TcpChat.Lib.Machine
import TcpChat.Lib.Slots
import TcpChat.Net.Socket
import TcpChat.Protocol.Buffer

/-! chat_server.cpp. One step of the loop goes from one of its heads to the next: the head
of the `while`, the signal test, and the head of the `for` over the clients. -/
namespace TcpChat

structure ClientInfo where
  fd : ScopedFileDescriptor
  name : List Byte
  buffer : Buffer
  connected : Bool := false
  deriving DecidableEq

def ClientInfo.withBuffer (c : ClientInfo) (b : Buffer) : ClientInfo := { c with buffer := b }

@[simp] theorem ClientInfo.withBuffer_fd (c : ClientInfo) (b : Buffer) :
    (c.withBuffer b).fd = c.fd := rfl
@[simp] theorem ClientInfo.withBuffer_name (c : ClientInfo) (b : Buffer) :
    (c.withBuffer b).name = c.name := rfl
@[simp] theorem ClientInfo.withBuffer_buffer (c : ClientInfo) (b : Buffer) :
    (c.withBuffer b).buffer = b := rfl
@[simp] theorem ClientInfo.withBuffer_connected (c : ClientInfo) (b : Buffer) :
    (c.withBuffer b).connected = c.connected := rfl
@[simp] theorem ClientInfo.withBuffer_self (c : ClientInfo) : c.withBuffer c.buffer = c := rfl
@[simp] theorem ClientInfo.withBuffer_withBuffer (c : ClientInfo) (b b' : Buffer) :
    (c.withBuffer b).withBuffer b' = c.withBuffer b' := rfl

structure ChatServer where
  running : Bool := false
  listenfd : ScopedFileDescriptor := {}
  signalfd : ScopedFileDescriptor := {}
  clients : List ClientInfo := []
  address : SocketAddress := {}
  backlog : Int := 64
  maxClients : Int := 62
  deriving DecidableEq

namespace ChatServer

def setClient (s : ChatServer) (i : Nat) (c : ClientInfo) : ChatServer :=
  { s with clients := s.clients.set i c }

@[simp] theorem setClient_clients (s : ChatServer) (i : Nat) (c : ClientInfo) :
    (s.setClient i c).clients = s.clients.set i c := rfl
@[simp] theorem setClient_setClient (s : ChatServer) (i : Nat) (c c' : ClientInfo) :
    (s.setClient i c).setClient i c' = s.setClient i c' := by
  simp [setClient]

abbrev Run (α : Type) : Type := Program ChatServer Event Exn α

/-- The kernel's answers to the calls of `run`. -/
structure RunAnswers where
  socket : Except Errno Nat
  setsockopt : Option Errno := none
  bind : Option Errno := none
  listen : Option Errno := none
  sigprocmask : Option Errno := none
  signalfd : Except Errno Nat

/-- The kernel's answers during one step of the event loop. `errno` is what a branch finds
there when no failed call has set it, and `memory` what the slot of a new client holds. -/
structure Kernel where
  poll : PollAnswer
  accept : List AcceptAnswer := []
  close : Option Errno := none
  read : Fd → ReadAnswer := fun _ => .eof
  write : Fd → List WriteAnswer := fun _ => []
  errno : Errno := .EAGAIN
  memory : Cells Byte bufferSize := Cells.fill bufferSize 0

/-- Where the loop stands. -/
inductive Control where
  | poll
  | signal (pollfds : List PollFd) (nready : Int)
  | client (pollfds : List PollFd) (i : Nat) (nready : Int)
  | returned
  | thrown (e : Exn)
  | blocked
  | undefined
  deriving DecidableEq

structure Loop where
  server : ChatServer
  control : Control
  deriving DecidableEq

def setupSignalFd (a : RunAnswers) : Run Unit := do
  let fd ← openSignalFd a.sigprocmask a.signalfd
  let s ← Program.get
  Program.emit s.signalfd.closing
  Program.modify fun s => { s with signalfd := ⟨fd⟩ }

def run (a : RunAnswers) : Run Unit := do
  let s ← Program.get
  if s.running then Program.throw (.logicError "server is already running")
  else do
    let tempSocket ← createSocket a.socket
    Program.unwinding (do
      if a.setsockopt.isSome then
        Program.throw (.runtimeError "setsockopt(SO_REUSEADDR) failed")
      else do
        bindSocket tempSocket s.address.toSockaddr a.bind
        listenSocket tempSocket s.backlog a.listen
        setupSignalFd a
        Program.emit s.listenfd.closing
        Program.modify fun s => { s with listenfd := ⟨tempSocket⟩, running := true })
      [.close tempSocket]

/-- `clients.clear()` destroys every entry, and the two resets close the other descriptors. -/
def stop : Run Unit := do
  let s ← Program.get
  Program.emit (s.clients.flatMap (·.fd.closing) ++ s.signalfd.closing ++ s.listenfd.closing)
  Program.modify fun s =>
    { s with clients := [], signalfd := {}, listenfd := {}, running := false }

def onBuffer {α : Type} (i : Nat) (p : Program Buffer Event Exn α) : Run α := fun s =>
  match s.clients[i]? with
  | none => ⟨s, [], .undefined⟩
  | some c =>
    let r := p c.buffer
    ⟨s.setClient i (c.withBuffer r.state), r.events, r.outcome⟩

def getClientName (senderIndex : Nat) : Run Unit := do
  let str ← onBuffer senderIndex (Buffer.consumeOnce newline)
  if str = [] then pure ()
  else do
    let s ← Program.get
    match s.clients[senderIndex]? with
    | none => Program.undefined
    | some c => do
      Program.emit [.named c.fd.get str]
      let named := { c with name := str.dropLast, connected := true } -- without the last \n
      Program.modify fun s => s.setClient senderIndex named

/-- The `for` of `respond_to_client` from client `i` on. -/
def broadcast (write : Fd → List WriteAnswer) (messages : List Byte) (senderIndex : Nat) :
    Nat → List ClientInfo → Run Unit
  | _, [] => pure ()
  | i, c :: rest => do
    if i ≠ senderIndex then do
      let _ ← writeFull c.fd.get messages (write c.fd.get)
      broadcast write messages senderIndex (i + 1) rest
    else broadcast write messages senderIndex (i + 1) rest

def message (name text : List Byte) : List Byte :=
  ascii ['['] ++ name ++ ascii [']', ':', ' '] ++ text

def respondToClient (write : Fd → List WriteAnswer) (senderIndex : Nat) : Run Unit := do
  let messages ← onBuffer senderIndex (Buffer.consumeFull newline)
  if messages = [] then pure ()
  else do
    let s ← Program.get
    match s.clients[senderIndex]? with
    | none => Program.undefined
    | some c => do
      Program.emit [.relay c.fd.get c.name messages]
      broadcast write (message c.name messages) senderIndex 0 s.clients

/-- `push_back({connfd, "NoName"})`: the buffer of the temporary is moved into the slot. -/
def newClient (connfd : Fd) (memory : Cells Byte bufferSize) : ClientInfo where
  fd := ⟨connfd⟩
  name := ascii ['N', 'o', 'N', 'a', 'm', 'e']
  buffer := (Buffer.moveConstruct memory Buffer.empty).1

/-- `clients[i].fd = std::move(clients.back().fd)`: for the last entry a self-assignment. -/
def moveFdFromBack (clients : List ClientInfo) (i : Nat) : List ClientInfo × List Event :=
  match clients[i]?, clients.getLast? with
  | some c, some back =>
    if i = clients.length - 1 then (clients, [])
    else
      let (fd, backFd, closed) := c.fd.moveAssign back.fd
      ((clients.set i { c with fd := fd }).set (clients.length - 1) { back with fd := backFd },
        closed)
  | _, _ => (clients, [])

/-- `clients.pop_back()` destroys the last entry. -/
def popBack (clients : List ClientInfo) : List ClientInfo × List Event :=
  (clients.dropLast, match clients.getLast? with
    | some back => back.fd.closing
    | none => [])

/-- The two statements about `clients` in each of the three removals. -/
def removeClient (i : Nat) : Run Unit := do
  let s ← Program.get
  let (moved, closed) := moveFdFromBack s.clients i
  let (left, destroyed) := popBack moved
  Program.emit (closed ++ destroyed)
  Program.modify fun s => { s with clients := left }

def pollList (s : ChatServer) : List PollFd :=
  { fd := s.listenfd.get } :: { fd := s.signalfd.get } :: s.clients.map fun c => { fd := c.fd.get }

def polled (s : ChatServer) (revents : Fd → Revents) : List PollFd :=
  s.pollList.map fun p => { p with revents := revents p.fd }
def readyCount (pollfds : List PollFd) : Int := pollfds.countP (·.revents.nonzero)

/-- The new connection: refused at capacity, else a new entry in both vectors. -/
def addClient (k : Kernel) (connfd : Fd) (pollfds : List PollFd) : Run (List PollFd) := do
  let s ← Program.get
  if (s.clients.length : Int) ≥ s.maxClients then do
    closeFd connfd k.close
    pure pollfds
  else do
    Program.modify fun s => { s with clients := s.clients ++ [newClient connfd k.memory] }
    pure (pollfds ++ [{ fd := connfd }])

/-- From the head of the `while` through the accept step. -/
def pollStep (k : Kernel) : Run Control := do
  let s ← Program.get
  if s.running = false then pure .returned
  else
    match k.poll with
    | .failed e =>
      if e = .EINTR then pure .poll
      else Program.throw (.runtimeError "poll failed")
    | .ready revents =>
      let pollfds := s.polled revents
      let nready := readyCount pollfds
      if (revents s.listenfd.get).pollin then do -- pollfds[0]
        let connfd ← acceptSocket k.accept
        let pollfds ← addClient k connfd pollfds
        pure (if nready - 1 ≤ 0 then .poll -- no more readable descriptors
          else .signal pollfds (nready - 1))
      else pure (.signal pollfds nready)

def signalStep (k : Kernel) (pollfds : List PollFd) (nready : Int) : Run Control := do
  match pollfds[1]? with
  | none => Program.undefined
  | some p =>
    if p.revents.pollin then do
      let s ← Program.get
      let siginfo ← readFd s.signalfd.get (k.read s.signalfd.get) siginfoSize
      if siginfo.length ≠ siginfoSize then
        Program.throw (.runtimeError "failed to read signalfd")
      else do
        stop
        pure .returned
    else pure (.client pollfds 0 nready)

/-- The end of an iteration that handled a ready client. -/
def countDown (pollfds : List PollFd) (i : Nat) (nready : Int) : Control :=
  if nready - 1 ≤ 0 then .poll else .client pollfds i (nready - 1)

def serveClient (k : Kernel) (i : Nat) (n : Int) : Run Unit := do
  onBuffer i (Buffer.increaseSize n)
  let s ← Program.get
  match s.clients[i]? with
  | none => Program.undefined
  | some c => do
    if c.connected = false then getClientName i else pure ()
    let s ← Program.get
    match s.clients[i]? with
    | none => Program.undefined
    | some c => if c.connected then respondToClient k.write i else pure ()

def clientStep (k : Kernel) (pollfds : List PollFd) (i : Nat) (nready : Int) : Run Control := do
  let s ← Program.get
  if i < s.clients.length then
    match pollfds[i + 2]?, s.clients[i]? with
    | some p, some c =>
      if p.revents.failed then do -- client error in poll
        removeClient i
        pure (countDown (Slots.swapRemove pollfds (i + 2)) i nready)
      else if p.revents.pollin then do
        let bytes ← readFd c.fd.get (k.read c.fd.get) c.buffer.freeSpace.toNat
        onBuffer i (Program.modify fun b => b.writeAt 0 bytes)
        let n : Int := bytes.length
        if n < 0 then
          if k.errno = .ECONNRESET then do
            removeClient i
            pure (countDown (Slots.swapRemove pollfds (i + 2)) i nready)
          else Program.throw (.runtimeError "failed to read from client")
        else if n = 0 then do -- connection closed by the client
          removeClient i
          pure (countDown (Slots.swapRemove pollfds (i + 2)) i nready)
        else do
          serveClient k i n
          pure (countDown pollfds (i + 1) nready)
      else pure (.client pollfds (i + 1) nready)
    | _, _ => Program.undefined
  else pure .poll

def stepProgram (k : Kernel) : Control → Run Control
  | .poll => pollStep k
  | .signal pollfds nready => signalStep k pollfds nready
  | .client pollfds i nready => clientStep k pollfds i nready
  | ended => pure ended

def Control.ofOutcome : Outcome Exn Control → Control
  | .returned control => control
  | .thrown e => .thrown e
  | .blocked => .blocked
  | .undefined => .undefined

def step (l : Loop) (k : Kernel) : Loop × List Event :=
  let r := stepProgram k l.control l.server
  (⟨r.state, .ofOutcome r.outcome⟩, r.events)

/-- `event_loop()` as it is called. -/
def eventLoop (s : ChatServer) : Loop :=
  ⟨s, if s.running then .poll else .thrown (.logicError "server is not running")⟩

end ChatServer
end TcpChat
