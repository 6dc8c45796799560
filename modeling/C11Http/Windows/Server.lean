import Mathlib.Data.Finset.Basic
import C11Http.Lib.Run
import C11Http.Windows.Registry

/-! # The event loop of the windows server

`server/windows/Server.cpp` from the entry of `waitForEvents` on. The state holds the members of the
server, the heap of its connections, what the system keeps for it (events that exist and that are
signaled, the operations that have been started), and the trace. User code runs inside the callbacks
and may call the server again, so the loop is a machine with a stack: a `Frame` is a callback that
has not ended, with what the server does when it returns, and `sending` is a `send` that has come to
its `WSASend`. `Pc` is the place in `waitForEvents`: at the top of its loop, blocked in
`WSAWaitForMultipleEvents` with an array of handles, left by an exception, or returned.

An `Action` carries what the system and the user do. Completion routines run while the wait blocks;
calls of other parts of the program come there or at the top of the loop, so that what the loop does
from the return of the wait to the top (`signaled`, lines 247 to 294) is one step against them. An
exception that leaves a callback is a `std::runtime_error`. `step` is `none` where the system cannot
do that: a wait returns for an event that exists and is signaled, an event that is created has a
handle that is not in use, and a receive returns at most `MAX_BUFFER_SIZE` bytes.

The use of a connection that has been deleted, a null pointer and the front of an empty queue are
undefined behaviour: the run ends there (`undefined`), and no step follows. -/

namespace C11Http.Windows

/-- `MAX_BUFFER_SIZE` of `Winsock2.h`. -/
def maxBufferSize : ℕ := 1024

/-- What `WSASend` or `WSARecv` does: the operation is pending, it has completed at once, or it is
refused with an error other than `WSA_IO_PENDING`. -/
inductive Started
  | pending
  | immediate
  | failed (error : ℕ)
  deriving DecidableEq

/-- The operation has been accepted by the system. -/
def Started.Accepted : Started → Prop
  | .failed _ => False
  | _ => True

instance (r : Started) : Decidable r.Accepted := by
  cases r <;> unfold Started.Accepted <;> infer_instance

/-- What `WSAGetOverlappedResult` returns: `FALSE`, or the bytes of the buffer. -/
inductive Overlapped
  | failed
  | bytes (data : Bytes)

/-- The bytes of a result. -/
def Overlapped.data : Overlapped → Bytes
  | .failed => []
  | .bytes data => data

/-- The ways through `prepareForServerConnection`: no socket, no pointer to `AcceptEx`, an error of
`AcceptEx`, or an `AcceptEx` outstanding on a new socket. -/
inductive Prepared
  | noSocket (error : ℕ)
  | noAcceptEx (sckt : Socket)
  | refused (sckt : Socket)
  | ok (sckt : Socket)

/-- What the system does in `addNewConnection`: the event of the new connection or what its creation
throws, the first receive, and the socket for the next client. -/
structure Accept where
  hEvent : Except String Handle
  wsaRecv : Started
  prepared : Prepared

/-- A public call of the server. The connection of `addConnection` is a new object of the caller. -/
inductive Call
  | send (data identifier : Bytes)
  | broadcast (data : Bytes)
  | shutdown
  | addConnection (mSocket : Socket) (hEvent : Handle) (identifier : Bytes)

/-- What a run does: calls of the user's callback, operations started and failed, lives of objects.
Sends are numbered in the order of their `WSASend`; `touched` says whether a connection that the
loop uses is registered then. -/
inductive Event
  | sending (number : ℕ) (p : Ptr) (identifier : Bytes)
  | sendComplete (number : ℕ) (identifier : Bytes) (count : ℕ)
  | sendFailed (number : ℕ) (identifier : Bytes) (message : String)
  | receiveComplete (p : Ptr) (identifier data : Bytes)
  | disconnected (p : Ptr) (identifier : Bytes)
  | touched (p : Ptr) (registered : Bool)
  | failed (p : Ptr)
  | threw (what : String)
  | deleted (p : Ptr)
  | closed (sckt : Socket)
  deriving DecidableEq

/-- A `WSASend` whose completion routine has not run. -/
structure Send where
  number : ℕ
  connection : Ptr
  identifier : Bytes
  data : Bytes
  deriving DecidableEq

/-- Who has called the private `send`: the public one, or `broadcast` with connections to go. -/
inductive Caller
  | send (identifier : Bytes)
  | broadcast (data : Bytes) (rest : List Ptr)
  deriving DecidableEq

/-- A private `send` before its `WSASend`. -/
structure Sending where
  connection : Ptr
  data : Bytes
  caller : Caller
  deriving DecidableEq

/-- A callback that runs, with what it was called for. -/
inductive Frame
  | receiveComplete (connection : Ptr)
  | disconnected (connection : Ptr) (handleId : Handle)
  | completion
  | sendFailed (connection : Ptr) (caller : Caller)
  | sendComplete (caller : Caller)
  deriving DecidableEq

/-- The place in `waitForEvents`; it has been left by an exception or in undefined behaviour. -/
inductive Pc
  | top
  | waiting (handles : List Handle)
  | left
  | returned
  deriving DecidableEq

/-- The `AcceptEx` of the server: none, outstanding on a socket, or completed and not handled. -/
inductive Accepting
  | idle
  | outstanding (sckt : Socket)
  | completed (sckt : Socket)
  deriving DecidableEq

structure Server where
  mCallback : Bool
  mIncomingSocket : Option Socket
  mConnections : Connections
  targets : List Bytes
  mHasBeenShutdown : Bool
  hEvent : Handle
  heap : Heap
  nextPtr : Ptr
  events : Finset Handle
  signaled : Finset Handle
  acceptEx : Accepting
  informing : List Ptr
  outstanding : List Ptr
  completed : List Ptr
  sends : List Send
  nextSend : ℕ
  sending : Option Sending
  stack : List Frame
  pc : Pc
  undefined : Bool
  trace : List Event

namespace Server

def record (s : Server) (es : List Event) : Server := { s with trace := s.trace ++ es }

/-- An exception leaves `waitForEvents`. -/
def leave (s : Server) (what : String) : Server :=
  { s with pc := .left, trace := s.trace ++ [.threw what] }

/-- The behaviour is undefined; a send that was under way is over. -/
def crash (s : Server) : Server := { s with sending := none, pc := .left, undefined := true }

/-- A connection that has been registered is used, which is undefined if it has been deleted since;
otherwise the server goes on as `t`. -/
def use (s : Server) (connection : Ptr) (t : Server) : Server :=
  if connection ∈ s.mConnections.mContainer then t else s.crash

/-- A callback is called. -/
def invoke (s : Server) (e : Event) (f : Frame) : Server :=
  { s with trace := s.trace ++ [e], stack := f :: s.stack }

/-! ### Removing -/

/-- What a removal does besides: the destructor of the object closes its event and its socket, which
ends a receive. -/
def forget (s : Server) (r : Connections × Option Ptr) : Server :=
  match r.2 with
  | none => { s with mConnections := r.1 }
  | some victim =>
    { s with
      mConnections := r.1
      events := s.events.erase (s.heap victim).hEvent
      signaled := s.signaled.erase (s.heap victim).hEvent
      outstanding := s.outstanding.filter (· ≠ victim)
      completed := s.completed.filter (· ≠ victim)
      trace := s.trace ++ [.deleted victim, .closed (s.heap victim).mSocket] }

def removeServerConnection (s : Server) (handle : Handle) : Server :=
  s.forget (s.mConnections.removeServerConnection s.heap handle)

def removeServerConnectionById (s : Server) (identifier : Bytes) : Server :=
  s.forget (s.mConnections.removeServerConnectionById s.heap identifier)

/-! ### Calls -/

/-- The private `send` up to its `WSASend`. It reads the identifier of the connection first; that of
a deleted one, which only `broadcast` can come to, is undefined, and nothing but `wsaSend` follows,
where the run ends. -/
def beginSend (s : Server) (data : Bytes) (connection : Ptr) (caller : Caller) : Server :=
  { s with
    targets := s.targets ++ [(s.heap connection).mIdentifier]
    sending := some { connection := connection, data := data, caller := caller } }

/-- `Server::send`; the lookup throws for an unknown identifier. -/
def send (s : Server) (data identifier : Bytes) : Server × Except String Unit :=
  match s.mConnections.getServerConnectionById identifier with
  | .error what => (s, .error what)
  | .ok connection => (s.beginSend data connection (.send identifier), .ok ())

/-- The loop of `broadcast` over the connections that are left. -/
def sendEach (s : Server) (data : Bytes) : List Ptr → Server
  | [] => s
  | connection :: rest => s.beginSend data connection (.broadcast data rest)

/-- `Server::broadcast`, over a copy of the registered connections. -/
def broadcast (s : Server) (data : Bytes) : Server := s.sendEach data s.mConnections.getConnections

/-- `Server::shutdown`. -/
def shutdown (s : Server) : Server :=
  let s := s.mConnections.getConnections.foldl
    (fun s connection => s.removeServerConnection (s.heap connection).hEvent)
    { s with mHasBeenShutdown := true }
  { s with signaled := insert s.hEvent s.signaled }

/-- A new object at the next address, with an event of its own. -/
def newConnection (s : Server) (mSocket : Socket) (hEvent : Handle) : Server :=
  { s with
    heap := Function.update s.heap s.nextPtr
      { mSocket := mSocket, hEvent := hEvent, mIdentifier := [] }
    nextPtr := s.nextPtr + 1
    events := insert hEvent s.events }

/-- `Server::addConnection`. -/
def addConnection (s : Server) (client : Ptr) (identifier : Bytes) : Server :=
  { s with
    heap := (s.mConnections.addServerConnection s.heap client identifier).1
    mConnections := (s.mConnections.addServerConnection s.heap client identifier).2 }

/-- `queueReceiveFromConnection`. A receive that completes at once signals the event as well. -/
def queueReceiveFromConnection (s : Server) (connection : Ptr) : Started → Server
  | .pending =>
    { s with
      signaled := s.signaled.erase (s.heap connection).hEvent
      outstanding := s.outstanding ++ [connection] }
  | .immediate =>
    { s with
      signaled := insert (s.heap connection).hEvent s.signaled
      completed := s.completed ++ [connection] }
  | .failed error =>
    ({ s with signaled := s.signaled.erase (s.heap connection).hEvent }.record
      [.failed connection]).leave ("Error prepping client socket for receive" ++ toString error)

/-- **The assumption on registrations.** Nothing in the repository calls `addConnection`, and the
routine `ConnectionInformationReceivedFromClient`, which completes the first receive of an accepted
client, is not in it. Whoever registers a client is assumed to do so once, with `addConnection`, and
to queue a receive for it next (`queueReceiveFromConnection`), which the system accepts. -/
def enroll (s : Server) (client : Ptr) (identifier : Bytes) : Server :=
  (s.addConnection client identifier).queueReceiveFromConnection client .pending

/-- A call whose exception, if it throws one, is left to the caller. -/
def call (s : Server) : Call → Server
  | .send data identifier => (s.send data identifier).1
  | .broadcast data => s.broadcast data
  | .shutdown => s.shutdown
  | .addConnection mSocket hEvent identifier =>
    (s.newConnection mSocket hEvent).enroll s.nextPtr identifier

/-! ### The private send -/

/-- What is left to do when the private `send` returns: `Server::send` pushes its target. -/
def back (s : Server) : Caller → Server
  | .send identifier => { s with targets := s.targets ++ [identifier] }
  | .broadcast data rest => s.sendEach data rest

/-- The private `send` has made its `WSASend`, with the number `s.nextSend`. -/
def issue (s : Server) (e : Sending) : Server :=
  { s with
    sending := none
    nextSend := s.nextSend + 1
    trace := s.trace ++
      [.sending s.nextSend e.connection (s.heap e.connection).mIdentifier] }

/-- The send is outstanding until its completion routine has run. -/
def start (s : Server) (e : Sending) : Server :=
  { s.issue e with
    sends := s.sends ++ [{ number := s.nextSend, connection := e.connection
                           identifier := (s.heap e.connection).mIdentifier, data := e.data }] }

/-- The text of `sendFailed`. -/
def sendError (sckt : Socket) (error : ℕ) : String :=
  "error sending data to socket " ++ toString sckt ++ " - " ++ toString error

/-- The private `send` from its `WSASend` on. Both callers have it report to the callback. -/
def wsaSend (s : Server) (e : Sending) : Started → Server
  | .pending => (s.start e).back e.caller
  | .immediate =>
    if s.mCallback then
      (s.start e).invoke
        (.sendComplete s.nextSend (s.heap e.connection).mIdentifier e.data.length)
        (.sendComplete e.caller)
    else (s.start e).back e.caller
  | .failed error =>
    let t := (s.issue e).record [.failed e.connection]
    if s.mCallback then
      t.invoke (.sendFailed s.nextSend (s.heap e.connection).mIdentifier
        (sendError (s.heap e.connection).mSocket error)) (.sendFailed e.connection e.caller)
    else (t.removeServerConnectionById (s.heap e.connection).mIdentifier).back e.caller

/-! ### Receiving -/

/-- The loop uses a connection. -/
def touch (s : Server) (connection : Ptr) : Server :=
  s.record [.touched connection (decide (connection ∈ s.mConnections.mContainer))]

/-- The end of the receive branch, for a receive of some bytes. -/
def requeue (s : Server) (connection : Ptr) (wsaRecv : Started) : Server :=
  if s.mHasBeenShutdown then s
  else (s.touch connection).use connection
    ((s.touch connection).queueReceiveFromConnection connection wsaRecv)

/-- `WSAGetOverlappedResult` for the receive of a connection, which waits for it if need be. -/
def collect (s : Server) (connection : Ptr) : Server :=
  { s.touch connection with
    outstanding :=
      if connection ∈ s.completed then s.outstanding else s.outstanding.erase connection
    completed := s.completed.erase connection }

/-- The receive branch of `waitForEvents`. -/
def receiveBranch (s : Server) (handleId : Handle) (result : Overlapped) (wsaRecv : Started) :
    Server :=
  match s.mConnections.getServerConnection s.heap handleId with
  | .error what => s.leave what
  | .ok connection =>
    let t := s.collect connection
    match result with
    | .failed => t.record [.failed connection]
    | .bytes data =>
      if s.mCallback then
        if data.length = 0 then
          t.invoke (.disconnected connection (s.heap connection).mIdentifier)
            (.disconnected connection handleId)
        else
          t.invoke (.receiveComplete connection (s.heap connection).mIdentifier data)
            (.receiveComplete connection)
      else if data.length = 0 then t else t.requeue connection wsaRecv

/-! ### Accepting -/

/-- `prepareForServerConnection`. -/
def prepareForServerConnection (s : Server) : Prepared → Server
  | .noSocket error => s.leave ("Socket Creation Error " ++ toString error)
  | .noAcceptEx sckt =>
    { s with mIncomingSocket := some sckt }.leave "Failed to obtain AcceptEx() pointer"
  | .refused sckt => { s with mIncomingSocket := some sckt }.leave "AcceptEx Error()"
  | .ok sckt => { s with mIncomingSocket := some sckt, acceptEx := .outstanding sckt }

/-- The new object of `addNewConnection` takes over the incoming socket. -/
def accepted (s : Server) (sckt : Socket) (hEvent : Handle) : Server :=
  { s.newConnection sckt hEvent with mIncomingSocket := none }

/-- `addNewConnection`. A null `mIncomingSocket` would be dereferenced; and what `createOverlap`
throws destroys the base class `Overlap` of the new object, whose destructor reads the `OVERLAPPED`
through a pointer that is still null. -/
def addNewConnection (s : Server) (a : Accept) : Server :=
  match s.mIncomingSocket with
  | none => s.crash
  | some sckt =>
    match a.hEvent with
    | .error _ => s.crash
    | .ok hEvent =>
      match a.wsaRecv with
      | .failed error =>
        ((s.accepted sckt hEvent).record [.failed s.nextPtr]).leave
          ("Error prepping client socket for receive " ++ toString error)
      | _ =>
        { s.accepted sckt hEvent with
          informing := s.informing ++ [s.nextPtr] }.prepareForServerConnection a.prepared

/-! ### The loop -/

inductive Action
  | call (c : Call)
  | wsaSend (result : Started)
  | returns (wsaRecv : Started)
  | throws (what : String)
  | wait
  | ioCompletion
  | waitFailed (error : ℕ)
  | signaled (i : ℕ) (result : Overlapped) (wsaRecv : Started) (accept : Accept)
  | dataSentToClient (number : ℕ) (cbTransferred : ℕ)
  | registers (connection : Ptr) (identifier : Bytes)
  | receives (connection : Ptr)
  | connects

/-- `performWaitForEvents` builds its array and waits. -/
def getHandleArray (s : Server) : Server :=
  { s with
    mConnections := (s.mConnections.getHandleArray s.heap s.hEvent).1
    pc := .waiting (s.mConnections.getHandleArray s.heap s.hEvent).2 }

/-- The loop takes up the event whose handle the wait has returned. -/
def takeUp (s : Server) (handleId : Handle) : Server :=
  { s with pc := .top, signaled := s.signaled.erase handleId }

/-- `waitForEvents` behind a wait that has returned a handle. -/
def dispatch (s : Server) (handleId : Handle) (result : Overlapped) (wsaRecv : Started)
    (accept : Accept) : Server :=
  if s.mHasBeenShutdown then { s with pc := .top }
  else if handleId = s.hEvent then
    { s.takeUp handleId with acceptEx := .idle }.addNewConnection accept
  else (s.takeUp handleId).receiveBranch handleId result wsaRecv

/-- The completion routine of a send has taken the front of the targets. -/
def popTarget (s : Server) (e : Send) (rest : List Bytes) : Server :=
  { s with
    sends := s.sends.erase e
    targets := rest
    signaled := s.signaled.erase (s.heap e.connection).hEvent }

/-- `DataSentToClient` for a connection that still exists. The front of an empty queue would be
read. -/
def complete (s : Server) (e : Send) (cbTransferred : ℕ) : Server :=
  if s.mHasBeenShutdown then { s with sends := s.sends.erase e }
  else
    match s.targets with
    | [] => s.crash
    | target :: rest =>
      if s.mCallback then
        (s.popTarget e rest).invoke (.sendComplete e.number target cbTransferred) .completion
      else s.popTarget e rest

/-- `DataSentToClient`, for an outstanding send; it finds the server through the connection, with
whose deletion the `OVERLAPPED` of the send is freed too. -/
def dataSentToClient (s : Server) (e : Send) (cbTransferred : ℕ) : Server :=
  { s with sends := s.sends.erase e }.use e.connection (s.complete e cbTransferred)

/-- A callback returns to the place where it was called; behind `sendFailed` the connection is asked
for its identifier. -/
def resume (s : Server) (wsaRecv : Started) : Frame → Server
  | .receiveComplete connection => s.requeue connection wsaRecv
  | .disconnected _ handleId => s.removeServerConnection handleId
  | .completion => s
  | .sendFailed connection caller =>
    s.use connection ((s.removeServerConnectionById (s.heap connection).mIdentifier).back caller)
  | .sendComplete caller => s.back caller

/-- An exception leaves a callback. Of a callback that a call has made it goes to the caller, which
is user code again. -/
def unwind (s : Server) (what : String) : Frame → Server
  | .sendFailed _ _ => s
  | .sendComplete _ => s
  | _ => s.leave what

/-- User code runs, or can run: a callback, or other parts of the program while the loop is at its
top or waits. -/
def Running (s : Server) : Prop :=
  s.sending = none ∧ (s.stack ≠ [] ∨ s.pc ≠ .left ∧ s.pc ≠ .returned)

/-- Nothing but the loop itself runs. -/
def Alone (s : Server) : Prop := s.sending = none ∧ s.stack = []

instance (s : Server) : Decidable s.Running := by unfold Running; infer_instance

instance (s : Server) : Decidable s.Alone := by unfold Alone; infer_instance

/-- Handles of new events are not in use. -/
def Call.Fresh (s : Server) : Call → Prop
  | .addConnection _ hEvent _ => hEvent ∉ s.events
  | _ => True

def Accept.Fresh (s : Server) (a : Accept) : Prop :=
  match a.hEvent with
  | .ok hEvent => hEvent ∉ s.events
  | .error _ => True

instance (s : Server) (c : Call) : Decidable (Call.Fresh s c) := by
  cases c <;> unfold Call.Fresh <;> infer_instance

instance (s : Server) (a : Accept) : Decidable (Accept.Fresh s a) := by
  unfold Accept.Fresh
  cases a.hEvent <;> infer_instance

/-- What an action makes of the server. -/
def act (s : Server) : Action → Option Server
  | .call c => if s.Running ∧ Call.Fresh s c then some (s.call c) else none
  | .wsaSend result => s.sending.map fun e => s.use e.connection (s.wsaSend e result)
  | .returns wsaRecv =>
    match s.sending, s.stack with
    | none, f :: stack => some ({ s with stack := stack }.resume wsaRecv f)
    | _, _ => none
  | .throws what =>
    match s.sending, s.stack with
    | none, f :: stack => some ({ s with stack := stack }.unwind what f)
    | _, _ => none
  | .wait =>
    if s.Alone ∧ s.pc = .top then
      some (if s.mHasBeenShutdown then { s with pc := .returned } else s.getHandleArray)
    else none
  | .ioCompletion =>
    match s.pc with
    | .waiting _ =>
      if s.Alone then
        some (if s.mHasBeenShutdown then { s with pc := .top } else s.getHandleArray)
      else none
    | _ => none
  | .waitFailed error =>
    match s.pc with
    | .waiting _ =>
      if s.Alone then some (s.leave ("WSAWaitForMultipleEvents Error " ++ toString error)) else none
    | _ => none
  | .signaled i result wsaRecv accept =>
    match s.pc with
    | .waiting handles =>
      match handles[i]? with
      | some handleId =>
        if s.Alone ∧ handleId ∈ s.events ∧ handleId ∈ s.signaled ∧
            result.data.length ≤ maxBufferSize ∧ Accept.Fresh s accept then
          some (s.dispatch handleId result wsaRecv accept)
        else none
      | none => none
    | _ => none
  | .dataSentToClient number cbTransferred =>
    match s.pc, s.sends.find? (fun e => e.number == number) with
    | .waiting _, some e =>
      if s.Alone ∧ cbTransferred ≤ e.data.length then some (s.dataSentToClient e cbTransferred)
      else none
    | _, _ => none
  | .registers connection identifier =>
    match s.pc with
    | .waiting _ =>
      if s.Alone ∧ connection ∈ s.informing then
        some ({ s with informing := s.informing.erase connection }.enroll connection identifier)
      else none
    | _ => none
  | .receives connection =>
    if connection ∈ s.outstanding then
      some { s with
        outstanding := s.outstanding.erase connection
        completed := s.completed ++ [connection]
        signaled := insert (s.heap connection).hEvent s.signaled }
    else none
  | .connects =>
    match s.acceptEx with
    | .outstanding sckt =>
      some { s with acceptEx := .completed sckt, signaled := insert s.hEvent s.signaled }
    | _ => none

def step (s : Server) (a : Action) : Option Server := if s.undefined then none else s.act a

/-- The server a caller has built when `waitForEvents` is entered: the event of the server, the
socket of its first `AcceptEx`, and the other events that exist. -/
structure Setup where
  mCallback : Bool
  hEvent : Handle
  incoming : Socket
  events : Finset Handle

/-- The first arrival at the top of the loop. -/
def waitForEvents (setup : Setup) : Server :=
  { mCallback := setup.mCallback
    mIncomingSocket := some setup.incoming
    mConnections := .empty
    targets := []
    mHasBeenShutdown := false
    hEvent := setup.hEvent
    heap := fun _ => default
    nextPtr := 0
    events := insert setup.hEvent setup.events
    signaled := ∅
    acceptEx := .outstanding setup.incoming
    informing := []
    outstanding := []
    completed := []
    sends := []
    nextSend := 0
    sending := none
    stack := []
    pc := .top
    undefined := false
    trace := [] }

end Server

end C11Http.Windows
