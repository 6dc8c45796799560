import Mathlib.Data.Finset.Insert
import Mathlib.Data.Int.ModEq

/-! # A connection of the posix server

`server/posix/ServerConnection.cpp`. The state of one `ServerConnection` object, its queue of
outgoing bytes, its receive buffer and the steps of its constructor. What a system call returns is
an argument: `Recv` for `recv`, an integer for `::send`, `Attempt` for the calls of the constructor.
Descriptors and object addresses are natural numbers; `Event` lists what a run does that can be
observed from outside. -/

namespace C11Http.Posix

abbrev Bytes := List UInt8

/-- A file descriptor. -/
abbrev Fd := ℕ

/-- The address of a `ServerConnection` object. -/
abbrev Ptr := ℕ

/-- What a run does: calls of the system, calls of the user's callback, lives of objects. -/
inductive Event
  | accepted (fd : Fd)
  | acked (fd : Fd) (result : ℤ)
  | received (fd : Fd) (data : Bytes)
  | queued (p : Ptr) (message : Bytes)
  | handed (p : Ptr) (buffer : Bytes) (result : ℤ)
  | connected (p : Ptr) (identifier : Bytes)
  | receiveComplete (p : Ptr) (identifier data : Bytes)
  | sendComplete (p : Ptr) (identifier : Bytes) (count : ℕ)
  | disconnected (p : Ptr) (identifier : Bytes)
  | threw
  | deleted (p : Ptr)
  | closed (fd : Fd)
  deriving DecidableEq

/-- How an invocation of a callback ends: it returns, or an exception leaves it, of the type the
event loops catch or of another. -/
inductive Outcome
  | returns
  | runtimeError
  | other
  deriving DecidableEq

/-- One invocation of a callback: the calls it makes on the object that invoked it, in order and
until it ends, and how it ends. A call that throws and is not caught is the last one of the list,
and the outcome is `runtimeError`. -/
structure Reaction (κ : Type) where
  calls : List κ
  outcome : Outcome

/-- `MAX_BUFFER_SIZE` of `posix.h`. -/
def maxBufferSize : ℕ := 1024

/-- What `recv` returns: `-1` with the text of `errno`, or the bytes it stored (none on a zero). -/
inductive Recv
  | failed (strerror : String)
  | bytes (data : Bytes)

/-- The bytes a `recv` took from the stream. -/
def Recv.data : Recv → Bytes
  | .failed _ => []
  | .bytes data => data

/-- A size stored in an `int`. -/
def toInt (n : ℕ) : ℤ := (n : ℤ).bmod 4294967296

/-- The bytes `::send` is given: the count is an `int` read as a `size_t`. -/
def offered (bytesToSend : Bytes) : Bytes :=
  bytesToSend.take (toInt bytesToSend.length % 18446744073709551616).toNat

/-- The bytes of the buffer a `::send` took, by its result. -/
def taken (buffer : Bytes) (result : ℤ) : Bytes := buffer.take result.toNat

/-- `::send` returns `-1` or how many of the bytes it took. -/
def SendResult (buffer : Bytes) (result : ℤ) : Prop := -1 ≤ result ∧ result ≤ buffer.length

instance (buffer : Bytes) (result : ℤ) : Decidable (SendResult buffer result) := by
  unfold SendResult; infer_instance

theorem taken_isPrefix (buffer : Bytes) (result : ℤ) : taken buffer result <+: buffer :=
  List.take_prefix _ _

theorem offered_isPrefix (bytesToSend : Bytes) : offered bytesToSend <+: bytesToSend :=
  List.take_prefix _ _

theorem toInt_eq {n : ℕ} (h : n < 2147483648) : toInt n = n := by
  unfold toInt
  exact Int.bmod_eq_of_le (by omega) (by omega)

/-- A size that an `int` keeps is that of a short queue. -/
theorem lt_of_toInt_eq {n : ℕ} (h : toInt n = n) : n < 2147483648 := by
  have hlt : toInt n < (4294967296 + 1) / 2 := Int.bmod_lt (by omega)
  omega

/-- A size below 2^32 is stored modulo 2^32. -/
theorem toInt_emod {n : ℕ} (h : n < 4294967296) : (toInt n % 4294967296).toNat = n := by
  have hmod : (n : ℤ).bmod 4294967296 % 4294967296 = (n : ℤ) % 4294967296 := Int.bmod_emod
  unfold toInt
  rw [hmod]
  omega

/-- **A queue below 2^32 bytes is offered whole**: a negative `int` is a huge `size_t`. -/
theorem offered_eq {bytesToSend : Bytes} (h : bytesToSend.length < 4294967296) :
    offered bytesToSend = bytesToSend := by
  have hmod := toInt_emod h
  unfold offered
  rw [List.take_of_length_le]
  omega

/-- What was taken is everything exactly when the result says so. -/
theorem taken_offered_eq_iff {bytesToSend : Bytes} {result : ℤ}
    (h : SendResult (offered bytesToSend) result) :
    taken (offered bytesToSend) result = bytesToSend ↔ result.toNat = bytesToSend.length := by
  have hle : (offered bytesToSend).length ≤ bytesToSend.length := (offered_isPrefix _).length_le
  have hres : result.toNat ≤ (offered bytesToSend).length := by have := h.2; omega
  have hlen : (taken (offered bytesToSend) result).length = result.toNat := by
    unfold taken; rw [List.length_take]; omega
  constructor
  · intro heq
    rw [← hlen, heq]
  · intro heq
    exact ((taken_isPrefix _ _).trans (offered_isPrefix _)).eq_of_length (by omega)

/-! ### The object -/

structure ServerConnection where
  mOutgoingBytes : Bytes
  mSocket : Fd
  mBuffer : Bytes
  mIdentifier : Bytes
  deriving Inhabited

namespace ServerConnection

/-- `addQueuedMessage`: the message is inserted at the beginning of the vector. -/
def addQueuedMessage (c : ServerConnection) (data : Bytes) : ServerConnection :=
  { c with mOutgoingBytes := data ++ c.mOutgoingBytes }

/-- `sendQueuedMessage`: the vector is swapped out whatever `::send` returns. The object left, the
buffer handed to `::send`, and the count `sendComplete` is called with, if it is called. -/
def sendQueuedMessage (c : ServerConnection) (result : ℤ) :
    ServerConnection × Bytes × Option ℕ :=
  let bytesToSend := c.mOutgoingBytes
  let expected := toInt bytesToSend.length
  ({ c with mOutgoingBytes := [] }, offered bytesToSend,
    if expected = result then some (expected % 4294967296).toNat else none)

/-- `recv` writes over the beginning of `mBuffer`. -/
def store (c : ServerConnection) (data : Bytes) : ServerConnection :=
  { c with mBuffer := data ++ c.mBuffer.drop data.length }

/-- `performReceive`: what `recv` wrote into `mBuffer` is copied out of it. -/
def performReceive (c : ServerConnection) : Recv → ServerConnection × Except String Bytes
  | .failed strerror => (c, .error ("failed to recv from socket: " ++ strerror))
  | .bytes data =>
    if data.length = 0 then (c.store data, .error "remote device closing connection")
    else (c.store data, .ok ((c.store data).mBuffer.take data.length))

/-- The object once `accept` has returned: the socket is known, the other members are fresh. The
contents of `mBuffer` are indeterminate; no byte is read before `recv` has written it. -/
def ofSocket (possibleSocket : Fd) : ServerConnection :=
  { mOutgoingBytes := [], mSocket := possibleSocket,
    mBuffer := List.replicate maxBufferSize 0, mIdentifier := [] }

/-- The last step of the constructor: the first bytes received are the identifier. -/
def receiveIdentifier (c : ServerConnection) (r : Recv) : Except String ServerConnection :=
  match c.performReceive r with
  | (_, .error what) => .error what
  | (c, .ok res) => .ok { c with mIdentifier := res }

@[simp] theorem addQueuedMessage_mOutgoingBytes (c : ServerConnection) (data : Bytes) :
    (c.addQueuedMessage data).mOutgoingBytes = data ++ c.mOutgoingBytes := rfl

@[simp] theorem addQueuedMessage_mSocket (c : ServerConnection) (data : Bytes) :
    (c.addQueuedMessage data).mSocket = c.mSocket := rfl

@[simp] theorem addQueuedMessage_mIdentifier (c : ServerConnection) (data : Bytes) :
    (c.addQueuedMessage data).mIdentifier = c.mIdentifier := rfl

@[simp] theorem sendQueuedMessage_mOutgoingBytes (c : ServerConnection) (result : ℤ) :
    (c.sendQueuedMessage result).1.mOutgoingBytes = [] := rfl

@[simp] theorem sendQueuedMessage_mSocket (c : ServerConnection) (result : ℤ) :
    (c.sendQueuedMessage result).1.mSocket = c.mSocket := rfl

@[simp] theorem sendQueuedMessage_mIdentifier (c : ServerConnection) (result : ℤ) :
    (c.sendQueuedMessage result).1.mIdentifier = c.mIdentifier := rfl

/-- The count of the `sendComplete` of a write. -/
theorem sendQueuedMessage_count (c : ServerConnection) (result : ℤ) :
    (c.sendQueuedMessage result).2.2 = if toInt c.mOutgoingBytes.length = result then
      some (toInt c.mOutgoingBytes.length % 4294967296).toNat else none := by
  unfold sendQueuedMessage
  simp only

/-- `sendComplete` is called exactly when `::send` returns the size of the queue. -/
theorem sendQueuedMessage_some {c : ServerConnection} {result : ℤ} {count : ℕ}
    (h : (c.sendQueuedMessage result).2.2 = some count) :
    toInt c.mOutgoingBytes.length = result := by
  unfold sendQueuedMessage at h
  simp only at h
  split_ifs at h with heq
  exact heq

theorem sendQueuedMessage_none {c : ServerConnection} {result : ℤ}
    (h : (c.sendQueuedMessage result).2.2 = none) : toInt c.mOutgoingBytes.length ≠ result := by
  unfold sendQueuedMessage at h
  simp only at h
  split_ifs at h with heq
  exact heq

theorem performReceive_nil (c : ServerConnection) :
    c.performReceive (.bytes []) = (c.store [], .error "remote device closing connection") := rfl

theorem performReceive_bytes (c : ServerConnection) {data : Bytes} (h : data ≠ []) :
    c.performReceive (.bytes data) = (c.store data, .ok data) := by
  have hlen : data.length ≠ 0 := fun h0 => h (List.length_eq_zero_iff.mp h0)
  unfold performReceive
  simp only [if_neg hlen, store, List.take_left]

/-- What `performReceive` leaves of the object: only `mBuffer` changes. -/
theorem performReceive_fst (c : ServerConnection) (r : Recv) :
    ∃ b, (c.performReceive r).1 = { c with mBuffer := b } := by
  cases r with
  | failed strerror => exact ⟨c.mBuffer, rfl⟩
  | bytes data =>
    by_cases h : data = []
    · rw [h, performReceive_nil]; exact ⟨_, rfl⟩
    · rw [performReceive_bytes c h]; exact ⟨_, rfl⟩

@[simp] theorem performReceive_mOutgoingBytes (c : ServerConnection) (r : Recv) :
    (c.performReceive r).1.mOutgoingBytes = c.mOutgoingBytes := by
  obtain ⟨b, hb⟩ := performReceive_fst c r; rw [hb]

@[simp] theorem performReceive_mSocket (c : ServerConnection) (r : Recv) :
    (c.performReceive r).1.mSocket = c.mSocket := by
  obtain ⟨b, hb⟩ := performReceive_fst c r; rw [hb]

@[simp] theorem performReceive_mIdentifier (c : ServerConnection) (r : Recv) :
    (c.performReceive r).1.mIdentifier = c.mIdentifier := by
  obtain ⟨b, hb⟩ := performReceive_fst c r; rw [hb]

/-- **What `performReceive` returns is what `recv` took**, and it is never empty. -/
theorem performReceive_ok {c : ServerConnection} {r : Recv} {res : Bytes}
    (h : (c.performReceive r).2 = .ok res) : res = r.data ∧ res ≠ [] := by
  cases r with
  | failed strerror => cases h
  | bytes data =>
    by_cases h0 : data = []
    · rw [h0, performReceive_nil] at h; cases h
    · rw [performReceive_bytes c h0, Except.ok.injEq] at h
      subst h
      exact ⟨rfl, h0⟩

theorem performReceive_isOk_iff (c : ServerConnection) (r : Recv) :
    (∃ res, (c.performReceive r).2 = .ok res) ↔ r.data ≠ [] := by
  constructor
  · rintro ⟨res, h⟩
    obtain ⟨rfl, hne⟩ := performReceive_ok h
    exact hne
  · intro hne
    cases r with
    | failed strerror => exact absurd rfl hne
    | bytes data => exact ⟨data, by rw [performReceive_bytes c (show data ≠ [] from hne)]⟩

/-- **The identifier is what the first `recv` took.** -/
theorem receiveIdentifier_ok {c d : ServerConnection} {r : Recv}
    (h : c.receiveIdentifier r = .ok d) :
    d.mIdentifier = r.data ∧ d.mIdentifier ≠ [] ∧ d.mSocket = c.mSocket ∧
      d.mOutgoingBytes = c.mOutgoingBytes := by
  unfold receiveIdentifier at h
  split at h
  · cases h
  · rename_i c' res hr
    have hok : (c.performReceive r).2 = .ok res := by rw [hr]
    have hc : c' = (c.performReceive r).1 := by rw [hr]
    obtain ⟨rfl, hne⟩ := performReceive_ok hok
    rw [Except.ok.injEq] at h
    subst h hc
    exact ⟨rfl, hne, by simp, by simp⟩

theorem receiveIdentifier_isOk_iff (c : ServerConnection) (r : Recv) :
    (∃ d, c.receiveIdentifier r = .ok d) ↔ r.data ≠ [] := by
  rw [← performReceive_isOk_iff c r]
  unfold receiveIdentifier
  constructor
  · rintro ⟨d, h⟩
    split at h
    · cases h
    · rename_i c' res hr
      exact ⟨res, by rw [hr]⟩
  · rintro ⟨res, h⟩
    split
    · rename_i c' what hr
      rw [hr] at h
      cases h
    · exact ⟨_, rfl⟩

end ServerConnection

/-! ### The constructor -/

/-- `"ack"`, the acknowledgement the server sends after `accept`. -/
def ack : Bytes := [97, 99, 107]

/-- What the system calls of the `ServerConnection` constructor return. The result of the `::send`
of the acknowledgement is not looked at. -/
structure Attempt where
  accept : Except String Fd
  ackResult : ℤ
  poll : Option String
  recv : Recv

namespace Attempt

/-- The constructor: accept, acknowledge, poll, and take the identifier. The exceptions it throws
leave the accepted descriptor as it is. -/
def construct (a : Attempt) : Except String ServerConnection :=
  match a.accept with
  | .error strerror => .error ("failed to handle new connection: " ++ strerror)
  | .ok possibleSocket =>
    match a.poll with
    | some strerror => .error ("failed to poll socket for receive: " ++ strerror)
    | none => (ServerConnection.ofSocket possibleSocket).receiveIdentifier a.recv

/-- What the constructor does that can be observed. -/
def events (a : Attempt) : List Event :=
  match a.accept with
  | .error _ => []
  | .ok possibleSocket =>
    [.accepted possibleSocket, .acked possibleSocket a.ackResult] ++
      match a.poll with
      | some _ => []
      | none => [.received possibleSocket a.recv.data]

/-- The open descriptors after the constructor, which closes none. -/
def opened (a : Attempt) (openFds : Finset Fd) : Finset Fd :=
  match a.accept with
  | .error _ => openFds
  | .ok possibleSocket => insert possibleSocket openFds

/-- **A constructor that completes** accepted a socket, polled it, and took the identifier from it.
-/
theorem construct_ok {a : Attempt} {c : ServerConnection} (h : a.construct = .ok c) :
    a.accept = .ok c.mSocket ∧ a.poll = none ∧ c.mIdentifier = a.recv.data ∧
      c.mIdentifier ≠ [] ∧ c.mOutgoingBytes = [] := by
  unfold construct at h
  split at h
  · cases h
  · rename_i fd hfd
    split at h
    · cases h
    · rename_i hpoll
      obtain ⟨h1, h2, h3, h4⟩ := ServerConnection.receiveIdentifier_ok h
      exact ⟨by rw [hfd, h3]; rfl, hpoll, h1, h2, h4⟩

theorem construct_isOk_iff (a : Attempt) : (∃ c, a.construct = .ok c) ↔
    (∃ fd, a.accept = .ok fd) ∧ a.poll = none ∧ a.recv.data ≠ [] := by
  constructor
  · rintro ⟨c, h⟩
    obtain ⟨h1, h2, h3, h4, -⟩ := construct_ok h
    exact ⟨⟨_, h1⟩, h2, h3 ▸ h4⟩
  · rintro ⟨⟨fd, h1⟩, h2, h3⟩
    unfold construct
    rw [h1, h2]
    exact (ServerConnection.receiveIdentifier_isOk_iff _ _).mpr h3

end Attempt

end C11Http.Posix
