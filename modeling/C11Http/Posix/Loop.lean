import C11Http.Lib.Run
import C11Http.Posix.Registry

/-! # The event loop of the posix server

`server/posix/Server.cpp` from the entry of `waitForEvents` on. The state holds the members of the
server, the heap of its connections and what the system keeps for it (open descriptors, bytes in the
self-pipe), and the trace of events so far. `Pc` is the place in the loop: at the top (blocked in
`select`, where other parts of the program may call the server), at descriptor `i` of a pass, before
the read branch or before the write branch, or outside for good, because an exception has left the
loop (a `runtime_error`; `waitForEvents` declares no other, so that one of another type ends the
program) or a null callback has been called.

An `Action` carries what the system and the user do in the step: which descriptors `select` reports,
what `accept`, `recv` and `::send` return, and how the callback reacts. `step` is `none` where the
system cannot do that: `select` reports only watched descriptors and fails on a closed one, `accept`
returns a descriptor that is not open, `recv` at most `MAX_BUFFER_SIZE` bytes, `::send` at most what
it is offered. -/

namespace C11Http.Posix

/-- A public call of the server. -/
inductive Call
  | send (data identifier : Bytes)
  | broadcast (data : Bytes)
  | shutdown

inductive Phase
  | read
  | write
  deriving DecidableEq

/-- The place in the loop of `waitForEvents`. -/
inductive Pc
  | top
  | scan (i fdmax : ℕ) (readFds writeFds : Finset Fd) (phase : Phase)
  | halted
  deriving DecidableEq

structure Server where
  mConnectSocket : Fd
  mConnections : Connections
  mCallback : Bool
  mHasBeenShutdown : Bool
  mWakeupPipe : Fd × Fd
  mMasterWrite : Finset Fd
  heap : Heap
  nextPtr : Ptr
  openFds : Finset Fd
  pipeBytes : ℕ
  trace : List Event
  pc : Pc

/-- What the system and the user do when a connection is ready to be read. -/
structure Reading where
  recv : Recv
  receiveComplete : Reaction Call
  disconnected : Reaction Call

/-- What the system and the user do when a connection is ready to be written. -/
structure Writing where
  result : ℤ
  sendComplete : Reaction Call

namespace Server

def record (s : Server) (es : List Event) : Server := { s with trace := s.trace ++ es }

/-- The loop is left by an exception, or by a call through a null pointer. -/
def halt (s : Server) : Server := { s with pc := .halted }

/-! ### Calls -/

/-- One byte into the self-pipe. -/
def performWakeup (s : Server) : Server := { s with pipeBytes := s.pipeBytes + 1 }

/-- `Server::send` to a connection: the socket is watched for writing, then the message queued. -/
def sendConnection (s : Server) (data : Bytes) (connection : Ptr) : Server :=
  { s with
    mMasterWrite := insert (s.heap connection).mSocket s.mMasterWrite
    heap := Function.update s.heap connection ((s.heap connection).addQueuedMessage data)
    trace := s.trace ++ [.queued connection data] }

/-- `Server::send` to an identifier; the lookup throws for an unknown one. -/
def send (s : Server) (data identifier : Bytes) : Server × Except String Unit :=
  match s.mConnections.getServerConnectionById identifier with
  | .error what => (s, .error what)
  | .ok connection => ((s.sendConnection data connection).performWakeup, .ok ())

/-- `Server::broadcast`. -/
def broadcast (s : Server) (data : Bytes) : Server :=
  (s.mConnections.getConnections.foldl (fun s connection => s.sendConnection data connection)
    s).performWakeup

/-- `Server::shutdown`: the listening socket is closed. -/
def shutdown (s : Server) : Server :=
  { s with
    mHasBeenShutdown := true
    openFds := s.openFds.erase s.mConnectSocket
    trace := s.trace ++ [Event.closed s.mConnectSocket] }.performWakeup

/-- A call whose exception, if it throws one, is left to the caller. -/
def call (s : Server) : Call → Server
  | .send data identifier => (s.send data identifier).1
  | .broadcast data => s.broadcast data
  | .shutdown => s.shutdown

/-- The callback reacts. -/
def react (s : Server) (r : Reaction Call) : Server :=
  let s := r.calls.foldl call s
  match r.outcome with
  | .returns => s
  | _ => s.record [.threw]

/-! ### The branches of the loop -/

/-- The system calls of the constructor of a connection. -/
def accepting (s : Server) (a : Attempt) : Server :=
  { s with openFds := a.opened s.openFds, trace := s.trace ++ a.events }

/-- A new object at the next address. -/
def allocate (s : Server) (client : ServerConnection) : Server :=
  { s with heap := Function.update s.heap s.nextPtr client, nextPtr := s.nextPtr + 1 }

/-- `connected`, and what the callback does then. -/
def connect (s : Server) (p : Ptr) (connected : Reaction Call) : Server :=
  (s.record [.connected p (s.heap p).mIdentifier]).react connected

def addServerConnection (s : Server) (p : Ptr) : Server :=
  { s with mConnections := s.mConnections.addServerConnection s.heap p }

/-- A connection attempt on the listening socket. A `runtime_error` of the constructor or of the
callback is swallowed; an object already built is then neither registered nor deleted. -/
def acceptBranch (s : Server) (a : Attempt) (connected : Reaction Call) : Server :=
  let s := s.accepting a
  match a.construct with
  | .error _ => s
  | .ok client =>
    let p := s.nextPtr
    let s := s.allocate client
    if s.mCallback then
      let s := s.connect p connected
      match connected.outcome with
      | .returns => s.addServerConnection p
      | .runtimeError => s
      | .other => s.halt
    else s.halt

/-- `removeServerConnection`; the destructor of the deleted object closes its socket. -/
def removeServerConnection (s : Server) (sckt : Fd) : Server :=
  match s.mConnections.removeServerConnection s.heap sckt with
  | (connections, none) => { s with mConnections := connections }
  | (connections, some victim) =>
    { s with
      mConnections := connections
      openFds := s.openFds.erase (s.heap victim).mSocket
      trace := s.trace ++ [.deleted victim, .closed (s.heap victim).mSocket] }

/-- `disconnected`, and what the callback does then. -/
def disconnect (s : Server) (p : Ptr) (disconnected : Reaction Call) : Server :=
  (s.record [.disconnected p (s.heap p).mIdentifier]).react disconnected

/-- The handler of `handleServerConnection`: report, then remove. -/
def dropConnection (s : Server) (sckt : Fd) (connection : Ptr) (disconnected : Reaction Call) :
    Server :=
  if s.mCallback then
    let s := s.disconnect connection disconnected
    match disconnected.outcome with
    | .returns => s.removeServerConnection sckt
    | _ => s.halt
  else s.removeServerConnection sckt

/-- The receive of a connection. -/
def receiving (s : Server) (connection : Ptr) (r : Recv) : Server :=
  { s with
    heap := Function.update s.heap connection ((s.heap connection).performReceive r).1
    trace := s.trace ++ [.received (s.heap connection).mSocket r.data] }

/-- `receiveComplete`, and what the callback does then. -/
def deliver (s : Server) (p : Ptr) (data : Bytes) (receiveComplete : Reaction Call) : Server :=
  (s.record [.receiveComplete p (s.heap p).mIdentifier data]).react receiveComplete

/-- `handleServerConnection`. A `runtime_error` that leaves `receiveComplete` is handled like one of
the receive. -/
def handleServerConnection (s : Server) (sckt : Fd) (e : Reading) : Server :=
  match s.mConnections.getServerConnection s.heap sckt with
  | none => s
  | some connection =>
    let result := ((s.heap connection).performReceive e.recv).2
    let s := s.receiving connection e.recv
    match result with
    | .error _ => s.dropConnection sckt connection e.disconnected
    | .ok data =>
      if s.mCallback then
        let s := s.deliver connection data e.receiveComplete
        match e.receiveComplete.outcome with
        | .returns => s
        | .runtimeError => s.dropConnection sckt connection e.disconnected
        | .other => s.halt
      else s

/-- The `::send` of a connection. -/
def handing (s : Server) (connection : Ptr) (result : ℤ) : Server :=
  { s with
    heap := Function.update s.heap connection ((s.heap connection).sendQueuedMessage result).1
    trace := s.trace ++
      [.handed connection ((s.heap connection).sendQueuedMessage result).2.1 result] }

/-- `sendComplete`, and what the callback does then. -/
def report (s : Server) (p : Ptr) (count : ℕ) (sendComplete : Reaction Call) : Server :=
  (s.record [.sendComplete p (s.heap p).mIdentifier count]).react sendComplete

/-- What follows the `::send` of a connection: `sendComplete` with a count, if the write was
complete. The callback is not tested for null. -/
def complete (s : Server) (connection : Ptr) (sendComplete : Reaction Call) :
    Option ℕ → Server
  | none => s
  | some count =>
    if s.mCallback then
      let s := s.report connection count sendComplete
      match sendComplete.outcome with
      | .returns => s
      | _ => s.halt
    else s.halt

/-- `sendQueuedMessage` of a connection. -/
def sendQueuedMessage (s : Server) (connection : Ptr) (e : Writing) : Server :=
  (s.handing connection e.result).complete connection e.sendComplete
    ((s.heap connection).sendQueuedMessage e.result).2.2

/-- The descriptor is no longer watched for writing. -/
def unwatch (s : Server) (i : Fd) : Server := { s with mMasterWrite := s.mMasterWrite.erase i }

/-- The write branch: whatever was written, the descriptor is unwatched at the end. -/
def writeBranch (s : Server) (i : Fd) (e : Writing) : Server :=
  match s.mConnections.getServerConnection s.heap i with
  | none => s.unwatch i
  | some connection =>
    let s := s.sendQueuedMessage connection e
    if s.pc = .halted then s else s.unwatch i

/-! ### The loop -/

/-- The largest descriptor of a pass. -/
def fdmax (s : Server) : ℕ :=
  (max (max (s.mWakeupPipe.1 : ℤ) s.mConnectSocket) s.mConnections.getMax).toNat

/-- What `select` can report: a part of the watched descriptors, all of them open. -/
def Selectable (s : Server) (readFds writeFds : Finset Fd) : Prop :=
  readFds ⊆ s.mConnections.mRead ∧ writeFds ⊆ s.mMasterWrite ∧
    ∀ fd ∈ s.mConnections.mRead ∪ s.mMasterWrite, fd ≤ s.fdmax → fd ∈ s.openFds

/-- What `accept` and the receives of a pass can return. -/
def Readable (s : Server) (a : Attempt) (e : Reading) : Prop :=
  (match a.accept with
    | .error _ => True
    | .ok fd => fd ∉ s.openFds ∧ s.mConnectSocket ∈ s.openFds) ∧
  a.recv.data.length ≤ maxBufferSize ∧ e.recv.data.length ≤ maxBufferSize

/-- What the `::send` of descriptor `i` can return. -/
def Writable (s : Server) (i : Fd) (e : Writing) : Prop :=
  match s.mConnections.getServerConnection s.heap i with
  | none => True
  | some connection => SendResult (offered (s.heap connection).mOutgoingBytes) e.result

instance (s : Server) (readFds writeFds : Finset Fd) :
    Decidable (s.Selectable readFds writeFds) := by
  unfold Selectable; infer_instance

instance (s : Server) (a : Attempt) (e : Reading) : Decidable (s.Readable a e) := by
  unfold Readable
  cases a.accept <;> infer_instance

instance (s : Server) (i : Fd) (e : Writing) : Decidable (s.Writable i e) := by
  unfold Writable
  cases s.mConnections.getServerConnection s.heap i <;> infer_instance

/-- Go on at `pc`, unless the loop has been left. -/
def goto (s : Server) (pc : Pc) : Server := if s.pc = .halted then s else { s with pc := pc }

/-- The read branch of descriptor `i`. A readable self-pipe is then read with `recv`, which fails on
a pipe and takes nothing from it. -/
def readBranch (s : Server) (i : Fd) (readFds : Finset Fd) (a : Attempt) (connected : Reaction Call)
    (e : Reading) : Server :=
  if i ∈ readFds then
    if i = s.mConnectSocket then s.acceptBranch a connected else s.handleServerConnection i e
  else s

/-- What happens in one step of the loop, or between two passes. A `shutdown` while `select` blocks
is a call before it: the loop ends then, by the test behind `select` or by the one at the top. -/
inductive Action
  | call (c : Call)
  | select (result : Option (Finset Fd × Finset Fd))
  | read (attempt : Attempt) (connected : Reaction Call) (reading : Reading)
  | write (writing : Writing)

def step (s : Server) : Action → Option Server
  | .call c => if s.pc = .top then some (s.call c) else none
  | .select result =>
    if s.pc = .top ∧ s.mHasBeenShutdown = false then
      match result with
      | none => some s.halt
      | some (readFds, writeFds) =>
        if s.Selectable readFds writeFds then
          some { s with pc := .scan 0 s.fdmax readFds writeFds .read }
        else none
    else none
  | .read attempt connected reading =>
    match s.pc with
    | .scan i fdmax readFds writeFds .read =>
      if s.Readable attempt reading then
        some ((s.readBranch i readFds attempt connected reading).goto
          (.scan i fdmax readFds writeFds .write))
      else none
    | _ => none
  | .write writing =>
    match s.pc with
    | .scan i fdmax readFds writeFds .write =>
      if s.Writable i writing then
        some ((if i ∈ writeFds then s.writeBranch i writing else s).goto
          (if i < fdmax then .scan (i + 1) fdmax readFds writeFds .read else .top))
      else none
    | _ => none

/-- A callback that returns at once. -/
def returns : Reaction Call := { calls := [], outcome := .returns }

/-- No connection attempt. -/
def noAttempt : Attempt := { accept := .error "", ackResult := 0, poll := none, recv := .bytes [] }

/-- A receive that takes `data`, for which the callback returns. -/
def reading (data : Bytes) : Reading :=
  { recv := .bytes data, receiveComplete := returns, disconnected := returns }

/-- A write of `result` bytes, for which the callback returns. -/
def writing (result : ℤ) : Writing := { result := result, sendComplete := returns }

/-- The steps over `n` descriptors that are not ready. -/
def skip : ℕ → List Action
  | 0 => []
  | n + 1 => .read noAttempt returns (reading []) :: .write (writing 0) :: skip n

/-- The server a caller has built when `waitForEvents` is entered. -/
structure Setup where
  mConnectSocket : Fd
  mWakeupPipe : Fd × Fd
  mCallback : Bool
  mMasterWrite : Finset Fd
  openFds : Finset Fd

/-- The first arrival at the top of the loop. -/
def waitForEvents (setup : Setup) : Server :=
  { mConnectSocket := setup.mConnectSocket
    mConnections := .new {setup.mWakeupPipe.1, setup.mConnectSocket}
    mCallback := setup.mCallback
    mHasBeenShutdown := false
    mWakeupPipe := setup.mWakeupPipe
    mMasterWrite := setup.mMasterWrite
    heap := fun _ => default
    nextPtr := 0
    openFds := {setup.mConnectSocket, setup.mWakeupPipe.1, setup.mWakeupPipe.2} ∪ setup.openFds
    pipeBytes := 0
    trace := []
    pc := .top }

/-! ### A small server -/

/-- A server that listens on descriptor 3. -/
def listening : Setup :=
  { mConnectSocket := 3, mWakeupPipe := (4, 5), mCallback := true, mMasterWrite := ∅, openFds := ∅ }

/-- A client named `"a"` on descriptor 6. -/
def attempt : Attempt := { accept := .ok 6, ackResult := 3, poll := none, recv := .bytes [97] }

/-- The first pass of a server that listens on descriptor 3: the client is accepted. -/
def greet : List Action :=
  .select (some ({3}, ∅)) :: skip 3 ++ [.read attempt returns (reading []), .write (writing 0)] ++
    skip 1

/-- A pass in which descriptor 6 is ready for reading only, and the client has hung up. -/
def hangUp : List Action :=
  .select (some ({6}, ∅)) :: skip 6 ++ [.read noAttempt returns (reading []), .write (writing 0)]

end Server

end C11Http.Posix
