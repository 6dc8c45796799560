import C11Http.Lib.Stream
import C11Http.Posix.Client
import C11Http.Posix.Provenance

/-! # A client and the server

One client of the posix server, from its constructor on (`client/posix/Client.cpp`), and the server
it connects to (`server/posix/ServerConnection.cpp`, `server/posix/Server.cpp`), with the stream of
bytes between them in either direction. The constructors of the two sides run concurrently: the
client connects, waits for the acknowledgement and sends its identifier; the server accepts, sends
the acknowledgement, waits for the identifier and registers the connection. Before, after and
meanwhile the server serves other clients, and other threads call it.

The stream to the client says of each byte whether it is of the acknowledgement or of a message. The
server sends into it what the new connection is handed to `::send`. What the server receives once
the connection is built is left to the system. -/

namespace C11Http.Posix

open C11Http.Lib C11Http.Lib.Run

inductive Origin
  | ack
  | message
  deriving DecidableEq

/-- How far the constructor of the client is. -/
inductive ClientStage
  | created
  | connected
  | acknowledged
  | running
  deriving DecidableEq

/-- How far the server is with the client. Once the constructor of its connection has completed, how
many events of the server there were when it had been registered, if it was. -/
inductive ServerStage
  | listening
  | accepted (fd : Fd)
  | acked (fd : Fd) (result : ℤ)
  | failed
  | built (p : Ptr) (registered : Option ℕ)
  deriving DecidableEq

structure Session where
  client : Client
  clientStage : ClientStage
  ackBuff : List (Origin × UInt8)
  server : Server
  serverStage : ServerStage
  up : Stream UInt8
  down : Stream (Origin × UInt8)

/-- The loop is about to accept a connection. -/
def Server.Accepting (s : Server) : Prop :=
  match s.pc with
  | .scan i _ readFds _ .read =>
    i ∈ readFds ∧ i = s.mConnectSocket ∧ s.mConnectSocket ∈ s.openFds
  | _ => False

instance (s : Server) : Decidable s.Accepting := by
  unfold Server.Accepting
  split <;> infer_instance

/-- The loop is not in the constructor of the connection of the client. -/
def ServerStage.Outside : ServerStage → Prop
  | .accepted _ => False
  | .acked _ _ => False
  | _ => True

instance (stage : ServerStage) : Decidable stage.Outside := by
  unfold ServerStage.Outside
  split <;> infer_instance

/-- What a connection of the server has sent, by its events. -/
def sentBy (p : Ptr) (es : List Event) : Bytes :=
  (es.filterMap (entryFor p)).flatMap (Entry.sent taken)

namespace Client

/-- What the client has sent, by its events. -/
def sentBy (es : List ClientEvent) : Bytes := (es.filterMap entry).flatMap (Entry.sent taken)

/-- What the client has received, by its events. -/
def heardBy (es : List ClientEvent) : Bytes :=
  es.flatMap fun e =>
    match e with
    | .received data => data
    | _ => []

end Client

namespace Session

/-- What `waitForEvents` of the client has read. -/
def clientRead (s : Session) : List (Origin × UInt8) := s.down.read.drop s.ackBuff.length

/-- What has been queued for a connection of the server since its first `n` events. -/
def queuedSince (s : Session) (p : Ptr) (n : ℕ) : Bytes :=
  ((s.server.trace.drop n).filterMap (entryFor p)).flatMap Entry.message

/-- The client has gone on to `c`. -/
def clientTo (s : Session) (c : Client) : Session :=
  let es := c.trace.drop s.client.trace.length
  { s with
    client := c
    up := s.up.send (Client.sentBy es)
    down := s.down.recv (Client.heardBy es).length }

/-- The server has gone on to `t`. -/
def serverTo (s : Session) (t : Server) : Session :=
  { s with
    server := t
    down :=
      match s.serverStage with
      | .built p _ =>
        s.down.send ((sentBy p (t.trace.drop s.server.trace.length)).map (Origin.message, ·))
      | _ => s.down }

/-- The end of the accept branch: the identifier is received and the connection registered. -/
def identify (s : Session) (a : Attempt) (connected : Reaction Call) (pc : Pc) : Session :=
  let p := s.server.nextPtr
  let t := (s.server.acceptBranch a connected).goto pc
  { s with
    server := t
    serverStage :=
      match a.construct with
      | .error _ => .failed
      | .ok _ =>
        .built p (if p ∈ t.mConnections.mContainer then some t.trace.length else none)
    up :=
      match a.poll with
      | some _ => s.up
      | none => s.up.recv a.recv.data.length }

inductive Action
  | connect
  | recvAck (n : ℕ)
  | sendIdentifier (result : ℤ)
  | client (a : Client.Action)
  | accept (fd : Fd)
  | sendAck (result : ℤ)
  | identify (poll : Option String) (recv : Recv) (connected : Reaction Call)
  | server (a : Server.Action)
  | call (c : Call)
  | arriveUp (n : ℕ)
  | arriveDown (n : ℕ)

/-- The size of `ackBuff`. -/
def ackBuffSize : ℕ := 4

def step (s : Session) : Action → Option Session
  | .connect =>
    if s.clientStage = .created then some { s with clientStage := .connected } else none
  | .recvAck n =>
    -- nothing on an error, which is not looked at
    if s.clientStage = .connected ∧ n ≤ ackBuffSize ∧ n ≤ s.down.buffer.length then
      some { s with
        clientStage := .acknowledged
        ackBuff := s.down.buffer.take n
        down := s.down.recv n }
    else none
  | .sendIdentifier result =>
    if s.clientStage = .acknowledged ∧ SendResult s.client.mIdentifier result then
      some { s with
        clientStage := .running
        up := s.up.send (taken s.client.mIdentifier result) }
    else none
  | .client a =>
    if s.clientStage = .running then
      (s.client.step a).bind fun c =>
        if Client.heardBy (c.trace.drop s.client.trace.length) <+: s.down.buffer.map Prod.snd then
          some (s.clientTo c)
        else none
    else none
  | .accept fd =>
    if s.serverStage = .listening ∧ s.clientStage ≠ .created ∧ s.server.Accepting ∧
        fd ∉ s.server.openFds then
      some { s with serverStage := .accepted fd }
    else none
  | .sendAck result =>
    match s.serverStage with
    | .accepted fd =>
      if SendResult ack result then
        some { s with
          serverStage := .acked fd result
          down := s.down.send ((taken ack result).map (Origin.ack, ·)) }
      else none
    | _ => none
  | .identify poll recv connected =>
    match s.serverStage, s.server.pc with
    | .acked fd result, .scan i fdmax readFds writeFds .read =>
      if recv.data <+: s.up.buffer ∧ recv.data.length ≤ maxBufferSize then
        some (s.identify { accept := .ok fd, ackResult := result, poll := poll, recv := recv }
          connected (.scan i fdmax readFds writeFds .write))
      else none
    | _, _ => none
  | .server a =>
    if s.serverStage.Outside then (s.server.step a).map s.serverTo else none
  | .call c => some (s.serverTo (s.server.call c))
  | .arriveUp n => some { s with up := s.up.arrive n }
  | .arriveDown n => some { s with down := s.down.arrive n }

/-- A server at the entry of its loop, and a client that is about to connect. -/
def start (setup : Server.Setup) (client : Client) : Session :=
  { client := client, clientStage := .created, ackBuff := []
    server := Server.waitForEvents setup, serverStage := .listening, up := .new, down := .new }

end Session

end C11Http.Posix
