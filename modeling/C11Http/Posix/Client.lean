import Mathlib.Data.Finset.Basic
import C11Http.Lib.Outbox
import C11Http.Lib.Run
import C11Http.Posix.Connection

/-! # The event loop of the posix client

`client/posix/Client.cpp` behind the constructor. `ClientPc` is the place: not yet in
`waitForEvents`, at the top of its loop, before the read branch or the write branch of a pass, or
outside again because an exception has left the loop; `waitForEvents` declares `runtime_error`, so
that one of another type ends the program instead. Calls of other threads may come between any two
steps. As for the server, an action carries what the system and the user do, and `step` is `none`
where they cannot do that. `waitForEvents` is entered once: a second call behind an exception or a
return is not modelled.

`Client.outbox` is the queue of the client as a `Lib.Outbox`; a call pushes its messages
(`outbox_call`), the write branch drains it (`outbox_handing`). -/

namespace C11Http.Posix

open C11Http.Lib C11Http.Lib.Run

/-- A public call of the client; the `poll` of `disconnect` may fail. -/
inductive ClientCall
  | sendDataToServer (data : Bytes)
  | disconnect (poll : Option String)

inductive ClientEvent
  | queued (message : Bytes)
  | handed (buffer : Bytes) (result : ℤ)
  | received (data : Bytes)
  | receiveComplete (identifier data : Bytes)
  | sendComplete (identifier : Bytes) (count : ℕ)
  | threw
  | closed (fd : Fd)
  deriving DecidableEq

inductive ClientPc
  | outside
  | top
  | read (readFds writeFds : Finset Fd)
  | write (writeFds : Finset Fd)
  | left
  deriving DecidableEq

structure Client where
  mCallback : Bool
  mConnected : Bool
  mIdentifier : Bytes
  mSocket : Fd
  mWakeupPipe : Fd × Fd
  mMasterWrite : Finset Fd
  mOutgoingBytes : Bytes
  pipeBytes : ℕ
  trace : List ClientEvent
  pc : ClientPc

namespace Client

def record (c : Client) (es : List ClientEvent) : Client := { c with trace := c.trace ++ es }

/-- An exception ends `waitForEvents`. -/
def leave (c : Client) : Client := { c with pc := .left }

/-! ### Calls -/

def performWakeup (c : Client) : Client := { c with pipeBytes := c.pipeBytes + 1 }

/-- `sendDataToServer`: an empty message is ignored, any other one is inserted at the beginning. -/
def sendDataToServer (c : Client) (data : Bytes) : Client :=
  if data.length > 0 then
    { c with
      mOutgoingBytes := data ++ c.mOutgoingBytes
      mMasterWrite := insert c.mSocket c.mMasterWrite
      trace := c.trace ++ [ClientEvent.queued data] }.performWakeup
  else c

/-- `disconnect`: a failed `poll` throws before the socket is closed. -/
def disconnect (c : Client) (poll : Option String) : Client × Except String Unit :=
  if c.mConnected then
    let c := { c with mConnected := false }
    match poll with
    | some strerror => (c, .error ("Error polling for socket write " ++ strerror))
    | none => ((c.record [.closed c.mSocket]).performWakeup, .ok ())
  else (c, .ok ())

/-- A call whose exception, if it throws one, is left to the caller. -/
def call (c : Client) : ClientCall → Client
  | .sendDataToServer data => c.sendDataToServer data
  | .disconnect poll => (c.disconnect poll).1

/-- The callback reacts. -/
def react (c : Client) (r : Reaction ClientCall) : Client :=
  let c := r.calls.foldl call c
  match r.outcome with
  | .returns => c
  | _ => c.record [.threw]

/-! ### The branches of the loop -/

/-- `receiveComplete`, and what the callback does then. -/
def deliver (c : Client) (data : Bytes) (receiveComplete : Reaction ClientCall) : Client :=
  (c.record [.receiveComplete c.mIdentifier data]).react receiveComplete

/-- The read branch: an error leaves the loop, an empty receive ends it. -/
def readBranch (c : Client) (recv : Recv) (receiveComplete : Reaction ClientCall) : Client :=
  let c := c.record [.received recv.data]
  match recv with
  | .failed _ => (c.record [.threw]).leave
  | .bytes data =>
    if data.length = 0 then { c with mConnected := false }
    else if c.mCallback then
      let c := c.deliver data receiveComplete
      match receiveComplete.outcome with
      | .returns => c
      | _ => c.leave
    else c

/-- The vector is swapped out and given to `::send`. -/
def handing (c : Client) (result : ℤ) : Client :=
  { c with
    mOutgoingBytes := []
    trace := c.trace ++ [ClientEvent.handed (offered c.mOutgoingBytes) result] }

/-- The count that `sendComplete` is called with. -/
def expected (bytesToSend : Bytes) : ℕ := (toInt bytesToSend.length % 4294967296).toNat

/-- `sendComplete`, and what the callback does then. -/
def report (c : Client) (count : ℕ) (sendComplete : Reaction ClientCall) : Client :=
  (c.record [.sendComplete c.mIdentifier count]).react sendComplete

/-- The socket is no longer watched for writing. -/
def unwatch (c : Client) : Client := { c with mMasterWrite := c.mMasterWrite.erase c.mSocket }

/-- The write branch: whatever `::send` took, the callback is told that the write is complete, and
the socket is unwatched. -/
def writeBranch (c : Client) (result : ℤ) (sendComplete : Reaction ClientCall) : Client :=
  if c.mCallback then
    let d := (c.handing result).report (expected c.mOutgoingBytes) sendComplete
    match sendComplete.outcome with
    | .returns => d.unwatch
    | _ => d.leave
  else (c.handing result).unwatch

/-! ### The loop -/

inductive Action
  | call (c : ClientCall)
  | waitForEvents
  | select (result : Option (Finset Fd × Finset Fd))
  | read (recv : Recv) (receiveComplete : Reaction ClientCall)
  | write (result : ℤ) (sendComplete : Reaction ClientCall)

/-- Go on at `pc`, unless the loop has been left. -/
def goto (c : Client) (pc : ClientPc) : Client := if c.pc = .left then c else { c with pc := pc }

def step (c : Client) : Action → Option Client
  | .call k => some (c.call k)
  | .waitForEvents =>
    if c.pc = .outside then some { c with mMasterWrite := ∅, pc := .top } else none
  | .select result =>
    if c.pc = .top ∧ c.mConnected = true then
      match result with
      | none => some (c.record [.threw]).leave
      | some (readFds, writeFds) =>
        if readFds ⊆ {c.mWakeupPipe.1, c.mSocket} ∧ writeFds ⊆ c.mMasterWrite then
          some { c with pc := .read readFds writeFds }
        else none
    else none
  | .read recv receiveComplete =>
    match c.pc with
    | .read readFds writeFds =>
      if recv.data.length ≤ maxBufferSize then
        some ((if c.mSocket ∈ readFds then c.readBranch recv receiveComplete else c).goto
          (.write writeFds))
      else none
    | _ => none
  | .write result sendComplete =>
    match c.pc with
    | .write writeFds =>
      if SendResult (offered c.mOutgoingBytes) result then
        some ((if c.mSocket ∈ writeFds then c.writeBranch result sendComplete else c).goto .top)
      else none
    | _ => none

/-- The client the constructor has built. The descriptor set is not initialized by it. -/
def connected (mCallback : Bool) (mIdentifier : Bytes) (mSocket : Fd) (mWakeupPipe : Fd × Fd)
    (mMasterWrite : Finset Fd) : Client :=
  { mCallback := mCallback, mConnected := true, mIdentifier := mIdentifier, mSocket := mSocket
    mWakeupPipe := mWakeupPipe, mMasterWrite := mMasterWrite, mOutgoingBytes := []
    pipeBytes := 0, trace := [], pc := .outside }

/-! ### The queue -/

/-- The history of the queue. -/
def entry : ClientEvent → Option (Entry UInt8)
  | .queued message => some (.queued message)
  | .handed buffer result => some (.handed buffer result)
  | _ => none

def outbox (c : Client) : Outbox UInt8 :=
  { pending := c.mOutgoingBytes
    watched := decide (c.mSocket ∈ c.mMasterWrite)
    log := c.trace.filterMap entry }

/-- The messages a call queues. -/
def messages : ClientCall → List Bytes
  | .sendDataToServer data => if data.length > 0 then [data] else []
  | .disconnect _ => []

/-- Events that are no entries leave the queue as it is. -/
theorem outbox_record {c : Client} {es : List ClientEvent} (h : es.filterMap entry = []) :
    Outbox.Watching c.outbox (c.record es).outbox := by
  refine ⟨rfl, ?_, id⟩
  simp only [outbox, record, List.filterMap_append, h, List.append_nil]

/-- **A call pushes its messages.** -/
theorem outbox_call (c : Client) (k : ClientCall) :
    Outbox.Watching (c.outbox.pushAll (messages k)) (c.call k).outbox := by
  cases k with
  | sendDataToServer data =>
    by_cases hlen : data.length > 0
    · simp only [messages, call, sendDataToServer, if_pos hlen, Outbox.pushAll_cons,
        Outbox.pushAll_nil]
      refine ⟨rfl, ?_, fun _ => ?_⟩
      · simp [outbox, Outbox.push, performWakeup, List.filterMap_append, entry]
      · exact decide_eq_true (Finset.mem_insert_self _ _)
    · simp only [messages, call, sendDataToServer, if_neg hlen]
      exact Outbox.Watching.refl _
  | disconnect poll =>
    show Outbox.Watching c.outbox (c.disconnect poll).1.outbox
    unfold disconnect
    split_ifs with hconn
    · rcases poll with _ | strerror
      · exact outbox_record (c := { c with mConnected := false }) rfl
      · exact ⟨rfl, rfl, id⟩
    · exact Outbox.Watching.refl _

theorem outbox_calls : ∀ (ks : List ClientCall) (c : Client),
    Outbox.Watching (c.outbox.pushAll (ks.flatMap messages)) (ks.foldl call c).outbox
  | [], c => Outbox.Watching.refl _
  | k :: ks, c => by
    rw [List.flatMap_cons, Outbox.pushAll_append]
    exact ((outbox_call c k).pushAll _).trans (outbox_calls ks (c.call k))

/-- A callback pushes the messages of its calls. -/
theorem outbox_react (c : Client) (r : Reaction ClientCall) :
    Outbox.Watching (c.outbox.pushAll (r.calls.flatMap messages)) (c.react r).outbox := by
  have h := outbox_calls r.calls c
  unfold react
  cases r.outcome with
  | returns => exact h
  | runtimeError => exact h.trans (outbox_record rfl)
  | other => exact h.trans (outbox_record rfl)

/-- **The write branch drains.** -/
theorem outbox_handing (c : Client) (result : ℤ) :
    (c.handing result).outbox = c.outbox.drain (offered c.mOutgoingBytes) result := by
  unfold outbox Outbox.drain handing
  simp [List.filterMap_append, entry]

end Client

end C11Http.Posix
