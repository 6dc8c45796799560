import C11Http.Windows.Server

/-! # The windows client

`client/windows/Client.cpp` from the end of `connect` on, where it calls
`prepareClientToReceiveData`. The state holds the members of the client, what has been started on
its two `OVERLAPPED` structures (receives on its own one, sends on `mSendOverlap`), whether their
events are signaled, and the bytes of the server: all that have arrived and those that no receive
has taken. As in the server, user code runs in callbacks and may call the client again, so a stack
of `Frame`s says what goes on when a callback returns.

What the loop does behind its wait up to the callback (`.signaled`) is one step, and so is
`sendDataToServer` from its `WSASend` up to the callback (`.wsaSend`). So a `disconnect` of another
thread comes before or behind them, never between the fetch of the callback and its call; it is
modelled where the loop is at its top or waits, and inside callbacks. `waitForEvents` is entered
once. A second call behind a return or an exception is not modelled: behind a `receiveComplete` that
throws, the event is still signaled, and the same bytes would be handed to it again.

`mConnected` is not set in this file; it is taken to be true when the first receive is prepared, as
in the other client. A wait for two events returns one of two indices, so the check for another one
is left out, and so is `delete this` behind the test for `WSAECONNRESET`: the line before it throws
for every error but `WSA_IO_PENDING`. -/

namespace C11Http.Windows

namespace Client

/-- What `WSARecv` does: the receive is pending, it has taken some bytes at once, or it is refused.
-/
inductive Received
  | pending
  | immediate (count : ℕ)
  | failed (error : ℕ)

/-- What a run does: callbacks and exceptions. -/
inductive Event
  | receiveComplete (identifier data : Bytes)
  | sendComplete (identifier : Bytes) (count : ℕ)
  | threw (what : String)
  deriving DecidableEq

/-- The place that has called a callback: `prepareClientToReceiveData`, the branches of
`waitForEvents` for its two events, or `sendDataToServer`. -/
inductive Frame
  | prepare
  | received
  | sent
  | sending
  deriving DecidableEq

/-- The place of the client: in `prepareClientToReceiveData`, before its `WSARecv`; at the top of
the loop of `waitForEvents`; in its wait; left by an exception; or returned. -/
inductive Pc
  | preparing
  | top
  | waiting
  | left
  | returned
  deriving DecidableEq

/-- The handles of the wait. -/
inductive Index
  | receive
  | send
  deriving DecidableEq

inductive Call
  | sendDataToServer (data : Bytes)
  | disconnect

end Client

/-- `completed` and `sent` are the results that have not been fetched, `none` those of operations
that have failed. `sending` is a `sendDataToServer` before its `WSASend`. -/
structure Client where
  mConnected : Bool
  mCallback : Bool
  mIdentifier : Bytes
  mSendBuffers : List Bytes
  outstanding : ℕ
  completed : List (Option Bytes)
  sends : List ℕ
  sent : List (Option ℕ)
  receiveEvent : Bool
  sendEvent : Bool
  arrived : Bytes
  unread : Bytes
  sending : Option Bytes
  stack : List Client.Frame
  pc : Client.Pc
  trace : List Client.Event

namespace Client

def leave (s : Client) (what : String) : Client :=
  { s with pc := .left, trace := s.trace ++ [.threw what] }

def invoke (s : Client) (e : Event) (f : Frame) : Client :=
  { s with trace := s.trace ++ [e], stack := f :: s.stack }

/-- `prepareClientToReceiveData`, once; it calls itself after a receive that has completed at once.
-/
def prepareClientToReceiveData (s : Client) : Received → Client
  | .pending => { s with outstanding := s.outstanding + 1, pc := .top }
  | .immediate count =>
    let t := { s with unread := s.unread.drop count, receiveEvent := true }
    if s.mCallback then
      t.invoke (.receiveComplete s.mIdentifier (s.unread.take count)) .prepare
    else t
  | .failed error => s.leave ("Error prepping client socket for receive" ++ toString error)

/-- The branch of `waitForEvents` for the event of the receive. -/
def receiveBranch (s : Client) : Client :=
  match s.completed with
  | [] => { s with receiveEvent := false }
  | none :: rest => { s with completed := rest, receiveEvent := false }
  | some data :: rest =>
    if s.mCallback then
      { s with completed := rest }.invoke (.receiveComplete s.mIdentifier data) .received
    else { s with completed := rest, receiveEvent := false }

/-- The branch for the event of the sends. The front of an empty queue would be read. -/
def sendBranch (s : Client) : Client :=
  match s.sent with
  | [] => { s with sendEvent := false }
  | none :: rest => { s with sent := rest, sendEvent := false }
  | some count :: rest =>
    match s.mSendBuffers with
    | [] => { s with pc := .left }
    | _ :: buffers =>
      if s.mCallback then
        { s with sent := rest, mSendBuffers := buffers }.invoke
          (.sendComplete s.mIdentifier count) .sent
      else { s with sent := rest, mSendBuffers := buffers, sendEvent := false }

/-- `waitForEvents` behind a wait that has returned an index. -/
def dispatch (s : Client) (index : Index) : Client :=
  if s.mConnected then
    match index with
    | .receive => { s with pc := .top }.receiveBranch
    | .send => { s with pc := .top }.sendBranch
  else { s with pc := .returned }

/-- `disconnect`. The close of the socket ends what is outstanding. -/
def disconnect (s : Client) : Client :=
  if s.mConnected then
    { s with
      mConnected := false
      mCallback := false
      receiveEvent := true
      outstanding := 0
      sends := [] }
  else s

/-- `sendDataToServer` up to its `WSASend`. -/
def sendDataToServer (s : Client) (data : Bytes) : Client :=
  { s with mSendBuffers := s.mSendBuffers ++ [data], sending := some data }

/-- `sendDataToServer` from its `WSASend` on. Where that completes at once,
`WSAGetOverlappedResult`, which is given no place for the flags, is taken to succeed; behind a
failure of it nothing more would be done. -/
def wsaSend (s : Client) (data : Bytes) : Started → Client
  | .pending => { s with sending := none, sends := s.sends ++ [data.length] }
  | .immediate =>
    let t := { s with sending := none, sent := s.sent ++ [some data.length], sendEvent := true }
    if s.mCallback then t.invoke (.sendComplete s.mIdentifier data.length) .sending else t
  | .failed _ => { s with sending := none, trace := s.trace ++ [.threw "not io pending"] }

def call (s : Client) : Call → Client
  | .sendDataToServer data => s.sendDataToServer data
  | .disconnect => s.disconnect

/-- A callback returns. -/
def resume (s : Client) : Frame → Client
  | .prepare => s
  | .received => { s with receiveEvent := false }
  | .sent => { s with sendEvent := false }
  | .sending => s

/-- An exception leaves a callback, and with it the client, or `sendDataToServer` for user code. -/
def unwind (s : Client) (what : String) : Frame → Client
  | .sending => s
  | _ => s.leave what

inductive Action
  | call (c : Call)
  | wsaRecv (result : Received)
  | wsaSend (result : Started)
  | returns
  | throws (what : String)
  | wait
  | ioCompletion
  | waitFailed (error : ℕ)
  | signaled (index : Index)
  | arrives (data : Bytes)
  | receives (count : ℕ)
  | receiveFails
  | sends (i : ℕ) (result : Option ℕ)

/-- User code runs, or can run beside the loop. -/
def Running (s : Client) : Prop := s.sending = none ∧ (s.stack ≠ [] ∨ s.pc ≠ .preparing)

/-- Nothing but the client itself runs. -/
def Alone (s : Client) : Prop := s.sending = none ∧ s.stack = []

instance (s : Client) : Decidable s.Running := by unfold Running; infer_instance

instance (s : Client) : Decidable s.Alone := by unfold Alone; infer_instance

/-- A receive can take so many bytes, none only when nothing is left. -/
def Readable (s : Client) (count : ℕ) : Prop :=
  count ≤ s.unread.length ∧ count ≤ maxBufferSize ∧ (count = 0 → s.unread = [])

instance (s : Client) (count : ℕ) : Decidable (s.Readable count) := by
  unfold Readable; infer_instance

def Received.Possible (s : Client) : Received → Prop
  | .immediate count => s.Readable count
  | _ => True

instance (s : Client) (r : Received) : Decidable (Received.Possible s r) := by
  cases r <;> unfold Received.Possible <;> infer_instance

def event (s : Client) : Index → Bool
  | .receive => s.receiveEvent
  | .send => s.sendEvent

def step (s : Client) : Action → Option Client
  | .call c => if s.Running then some (s.call c) else none
  | .wsaRecv result =>
    if s.Alone ∧ s.pc = .preparing ∧ Received.Possible s result then
      some (s.prepareClientToReceiveData result)
    else none
  | .wsaSend result => s.sending.map fun data => s.wsaSend data result
  | .returns =>
    match s.sending, s.stack with
    | none, f :: stack => some ({ s with stack := stack }.resume f)
    | _, _ => none
  | .throws what =>
    match s.sending, s.stack with
    | none, f :: stack => some ({ s with stack := stack }.unwind what f)
    | _, _ => none
  | .wait =>
    if s.Alone ∧ s.pc = .top then
      some (if s.mConnected then { s with pc := .waiting } else { s with pc := .returned })
    else none
  | .ioCompletion =>
    if s.Alone ∧ s.pc = .waiting then
      some (if s.mConnected then s else { s with pc := .returned })
    else none
  | .waitFailed error =>
    if s.Alone ∧ s.pc = .waiting then
      some (s.leave ("WSAWaitForMultipleEvents Error " ++ toString error))
    else none
  | .signaled index =>
    if s.Alone ∧ s.pc = .waiting ∧ s.event index = true then some (s.dispatch index) else none
  | .arrives data => some { s with arrived := s.arrived ++ data, unread := s.unread ++ data }
  | .receives count =>
    if 0 < s.outstanding ∧ s.Readable count then
      some { s with
        outstanding := s.outstanding - 1
        completed := s.completed ++ [some (s.unread.take count)]
        unread := s.unread.drop count
        receiveEvent := true }
    else none
  | .receiveFails =>
    if 0 < s.outstanding then
      some { s with
        outstanding := s.outstanding - 1
        completed := s.completed ++ [none]
        receiveEvent := true }
    else none
  | .sends i result =>
    if i < s.sends.length then
      some { s with
        sends := s.sends.eraseIdx i
        sent := s.sent ++ [result]
        sendEvent := true }
    else none

/-- A client that is connected and prepares its first receive. -/
def connect (mCallback : Bool) (mIdentifier : Bytes) : Client :=
  { mConnected := true
    mCallback := mCallback
    mIdentifier := mIdentifier
    mSendBuffers := []
    outstanding := 0
    completed := []
    sends := []
    sent := []
    receiveEvent := false
    sendEvent := false
    arrived := []
    unread := []
    sending := none
    stack := []
    pc := .preparing
    trace := [] }

/-! ### The actions -/

variable {s t : Client}

theorem step_call {c : Call} (h : step s (.call c) = some t) : s.Running ∧ t = s.call c := by
  simp only [step] at h
  split_ifs at h with hok
  cases h
  exact ⟨hok, rfl⟩

theorem step_wsaRecv {result : Received} (h : step s (.wsaRecv result) = some t) :
    s.Alone ∧ s.pc = .preparing ∧ Received.Possible s result ∧
      t = s.prepareClientToReceiveData result := by
  simp only [step] at h
  split_ifs at h with hok
  cases h
  exact ⟨hok.1, hok.2.1, hok.2.2, rfl⟩

theorem step_wsaSend {result : Started} (h : step s (.wsaSend result) = some t) :
    ∃ data, s.sending = some data ∧ t = s.wsaSend data result := by
  simp only [step] at h
  obtain ⟨data, hdata, rfl⟩ := Option.map_eq_some_iff.mp h
  exact ⟨data, hdata, rfl⟩

theorem step_returns (h : step s .returns = some t) :
    s.sending = none ∧ ∃ f stack, s.stack = f :: stack ∧
      t = { s with stack := stack }.resume f := by
  simp only [step] at h
  split at h
  · rename_i f stack hsending hstack
    cases h
    exact ⟨hsending, f, stack, hstack, rfl⟩
  · cases h

theorem step_throws {what : String} (h : step s (.throws what) = some t) :
    s.sending = none ∧ ∃ f stack, s.stack = f :: stack ∧
      t = { s with stack := stack }.unwind what f := by
  simp only [step] at h
  split at h
  · rename_i f stack hsending hstack
    cases h
    exact ⟨hsending, f, stack, hstack, rfl⟩
  · cases h

theorem step_wait (h : step s .wait = some t) :
    s.Alone ∧ s.pc = .top ∧ (s.mConnected = true ∧ t = { s with pc := .waiting } ∨
      s.mConnected = false ∧ t = { s with pc := .returned }) := by
  simp only [step] at h
  split_ifs at h with hok hconn
  · cases h
    exact ⟨hok.1, hok.2, Or.inl ⟨hconn, rfl⟩⟩
  · cases h
    exact ⟨hok.1, hok.2, Or.inr ⟨by simpa using hconn, rfl⟩⟩

theorem step_ioCompletion (h : step s .ioCompletion = some t) :
    s.Alone ∧ s.pc = .waiting ∧ (s.mConnected = true ∧ t = s ∨
      s.mConnected = false ∧ t = { s with pc := .returned }) := by
  simp only [step] at h
  split_ifs at h with hok hconn
  · cases h
    exact ⟨hok.1, hok.2, Or.inl ⟨hconn, rfl⟩⟩
  · cases h
    exact ⟨hok.1, hok.2, Or.inr ⟨by simpa using hconn, rfl⟩⟩

theorem step_waitFailed {error : ℕ} (h : step s (.waitFailed error) = some t) :
    s.Alone ∧ t = s.leave ("WSAWaitForMultipleEvents Error " ++ toString error) := by
  simp only [step] at h
  split_ifs at h with hok
  cases h
  exact ⟨hok.1, rfl⟩

theorem step_signaled {index : Index} (h : step s (.signaled index) = some t) :
    s.Alone ∧ s.pc = .waiting ∧ t = s.dispatch index := by
  simp only [step] at h
  split_ifs at h with hok
  cases h
  exact ⟨hok.1, hok.2.1, rfl⟩

theorem step_arrives {data : Bytes} (h : step s (.arrives data) = some t) :
    t = { s with arrived := s.arrived ++ data, unread := s.unread ++ data } :=
  (Option.some.inj h).symm

theorem step_receives {count : ℕ} (h : step s (.receives count) = some t) :
    0 < s.outstanding ∧ t = { s with
      outstanding := s.outstanding - 1
      completed := s.completed ++ [some (s.unread.take count)]
      unread := s.unread.drop count
      receiveEvent := true } := by
  simp only [step] at h
  split_ifs at h with hok
  cases h
  exact ⟨hok.1, rfl⟩

theorem step_receiveFails (h : step s .receiveFails = some t) :
    0 < s.outstanding ∧ t = { s with
      outstanding := s.outstanding - 1
      completed := s.completed ++ [none]
      receiveEvent := true } := by
  simp only [step] at h
  split_ifs at h with hok
  cases h
  exact ⟨hok, rfl⟩

theorem step_sends {i : ℕ} {result : Option ℕ} (h : step s (.sends i result) = some t) :
    i < s.sends.length ∧ t = { s with
      sends := s.sends.eraseIdx i
      sent := s.sent ++ [result]
      sendEvent := true } := by
  simp only [step] at h
  split_ifs at h with hok
  cases h
  exact ⟨hok, rfl⟩

end Client

end C11Http.Windows
