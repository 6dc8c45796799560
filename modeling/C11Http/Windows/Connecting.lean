import C11Http.Windows.Registry
import Mathlib.Order.Nat

/-! # The connect of the windows client

`connect` of `client/windows/Client.cpp` with the constructor and the destructor of `Socket`, the
`createOverlap` of `Overlap.h` and the first receive. `connect` makes a socket for each address
until one accepts it, which becomes `mSocket`. The `Socket` of an attempt goes out of scope, but its
destructor is empty, so the socket of an address that refuses stays open; and the test behind the
loop looks at `mSocket`, which may be left from before.

`Correct` says what `connect` is for. It holds exactly if the first attempt settles the matter
(`connectsFirst_iff`): the socket of a refusing address is never closed, and where no address
accepts, a `mSocket` from before hides that (`throws_iff_of_refused`).

A callback is taken not to call `connect` or `disconnect`. What `setsockopt` returns is looked at
only to build a text that nothing reads. -/

namespace C11Http.Windows.Connecting

abbrev SOCKET := UInt64

/-- `(SOCKET)(~0)`. -/
def INVALID_SOCKET : SOCKET := 0xffffffffffffffff

def WSA_IO_PENDING : ℕ := 997

/-- An address of the list with what winsock answers for it: the socket that is made to try it, the
error if that is `INVALID_SOCKET`, and whether `WSAConnect` connects it. -/
structure Address where
  ai_addr : Bytes
  socket : SOCKET
  lastError : ℕ
  accepts : Bool

/-- How a `createOverlap` goes. -/
inductive Allocation
  | heapAllocFails
  | createEventFails
  | created
  deriving DecidableEq

/-- What a `WSARecv` does: it returns `SOCKET_ERROR`, or it has received at once. Then the callback,
if there is one, may throw, and there is another receive. -/
inductive Receive
  | error (lastError : ℕ)
  | immediate (data : Bytes) (threw : Option String) (next : Receive)

/-- What the system does for a `connect`. -/
structure Environment where
  getaddrinfo : String → String → Except Int32 (List Address)
  overlap : Allocation
  sendOverlap : Allocation
  receive : Receive

inductive Event
  | wsaCleanup
  | created (socket : SOCKET)
  | wsaConnect (socket : SOCKET) (ai_addr : Bytes) (accepted : Bool)
  | closed (socket : SOCKET)
  | freeaddrinfo
  | receiveComplete (identifier data : Bytes)
  deriving DecidableEq

structure State where
  mSocket : SOCKET
  mIdentifier : Bytes
  mCallback : Bool
  trace : List Event

/-- A call returns, or an exception with its text leaves it. -/
abbrev Outcome := Except (String × State) State

namespace State

def log (s : State) (e : Event) : State := { s with trace := s.trace ++ [e] }

/-- The constructor `Socket()`. -/
def createSocket (s : State) (socket : SOCKET) (lastError : ℕ) : Outcome :=
  if socket = INVALID_SOCKET then .error ("Socket Creation Error " ++ toString lastError, s)
  else .ok (s.log (.created socket))

/-- The destructor `~Socket()`. -/
def destroySocket (s : State) (_socket : SOCKET) : State := s

/-- `closeSocket`, which neither the destructor nor `connect` calls. -/
def closeSocket (s : State) (socket : SOCKET) : State := s.log (.closed socket)

/-- The loop of `connect`. -/
def tryAddresses (s : State) : List Address → Outcome
  | [] => .ok s
  | address :: rest => do
    let t ← s.createSocket address.socket address.lastError
    let t := t.log (.wsaConnect address.socket address.ai_addr address.accepts)
    if address.accepts then .ok ({ t with mSocket := address.socket }.destroySocket address.socket)
    else (t.destroySocket address.socket).tryAddresses rest

def createOverlap (s : State) : Allocation → Outcome
  | .heapAllocFails => .error ("Overlap HeapAlloc()", s)
  | .createEventFails => .error ("WSACreateEvent", s)
  | .created => .ok s

def prepareClientToReceiveData (s : State) : Receive → Outcome
  | .error lastError =>
    if WSA_IO_PENDING ≠ lastError then
      .error ("Error prepping client socket for receive" ++ toString lastError, s)
    else .ok s
  | .immediate data threw next =>
    if s.mCallback then
      match threw with
      | some what => .error (what, s.log (.receiveComplete s.mIdentifier data))
      | none => (s.log (.receiveComplete s.mIdentifier data)).prepareClientToReceiveData next
    else s.prepareClientToReceiveData next

/-- `connect` behind the test of `mSocket`. -/
def start (s : State) (e : Environment) : Outcome := do
  let t ← s.createOverlap e.overlap
  let t ← t.createOverlap e.sendOverlap
  t.prepareClientToReceiveData e.receive

def connect (s : State) (e : Environment) (hostname : String) (port : UInt32) : Outcome :=
  match e.getaddrinfo hostname (toString port) with
  | .error iResult => .error ("getaddrinfo failed: " ++ toString iResult, s.log .wsaCleanup)
  | .ok [] => .error ("no results for server " ++ hostname, s.log .wsaCleanup)
  | .ok results => do
    let t ← s.tryAddresses results
    let t := t.log .freeaddrinfo
    if t.mSocket = 0 ∨ t.mSocket = INVALID_SOCKET then
      .error ("Failed to create client connection\n", t)
    else t.start e

def created (s : State) (socket : SOCKET) : ℕ := s.trace.count (.created socket)

def closed (s : State) (socket : SOCKET) : ℕ := s.trace.count (.closed socket)

end State

open State

variable {s t : State} {e : Environment} {r : Outcome} {address : Address}
  {rest : List Address} {hostname : String} {port : UInt32}

/-- The state that a call leaves behind. -/
def final : Outcome → State
  | .ok s => s
  | .error (_, s) => s

def Throws (r : Outcome) : Prop := ∃ what s, r = .error (what, s)

@[simp] theorem final_ok : final (.ok s) = s := rfl

@[simp] theorem final_error (what : String) : final (.error (what, s)) = s := rfl

@[simp] theorem not_throws_ok : ¬ Throws (.ok s) := by
  rintro ⟨_, _, h⟩
  cases h

@[simp] theorem throws_error (what : String) : Throws (.error (what, s)) := ⟨what, s, rfl⟩

theorem not_throws_iff : ¬ Throws r ↔ ∃ t, r = .ok t := by
  rcases r with ⟨what, s⟩ | t <;> simp

/-- The list that `getaddrinfo` returns. -/
def Environment.addresses (e : Environment) (hostname : String) (port : UInt32) : List Address :=
  match e.getaddrinfo hostname (toString port) with
  | .error _ => []
  | .ok results => results

/-- The first address in the order of the list that accepts. -/
def firstAccepting (addresses : List Address) : Option Address := addresses.find? Address.accepts

/-- **What `connect` is for**: it throws if and only if no address accepts; otherwise `mSocket` is
the socket connected to the first one that does; and every other socket that it has created is
closed. -/
structure Correct (addresses : List Address) (r : Outcome) : Prop where
  throws : Throws r ↔ ∀ address ∈ addresses, address.accepts = false
  first : ∀ address, firstAccepting addresses = some address →
    (final r).mSocket = address.socket ∧
      .wsaConnect address.socket address.ai_addr true ∈ (final r).trace
  closed : ∀ socket, (final r).created socket = (final r).closed socket +
    if (firstAccepting addresses).map Address.socket = some socket then 1 else 0

/-- The receive is queued at last, and no callback throws before. -/
def Receive.Succeeds (mCallback : Bool) : Receive → Prop
  | .error lastError => lastError = WSA_IO_PENDING
  | .immediate _ threw next => (mCallback = true → threw = none) ∧ next.Succeeds mCallback

/-- Nothing throws once there is a socket. -/
structure Ready (e : Environment) (mCallback : Bool) : Prop where
  overlap : e.overlap = .created
  sendOverlap : e.sendOverlap = .created
  receive : e.receive.Succeeds mCallback

/-- There is no address, or no socket for the first one and none that accepts, or the first one
accepts a socket other than 0 and nothing throws from there. -/
def Settled (e : Environment) (mCallback : Bool) : List Address → Prop
  | [] => True
  | address :: rest =>
    (address.socket = INVALID_SOCKET ∧ ∀ b ∈ address :: rest, b.accepts = false) ∨
      (address.socket ≠ INVALID_SOCKET ∧ address.accepts = true ∧ address.socket ≠ 0 ∧
        Ready e mCallback)

/-! ## The loop -/

theorem tryAddresses_invalid (h : address.socket = INVALID_SOCKET) :
    s.tryAddresses (address :: rest) =
      .error ("Socket Creation Error " ++ toString address.lastError, s) := by
  simp [tryAddresses, createSocket, h]
  rfl

theorem tryAddresses_accepts (h : address.socket ≠ INVALID_SOCKET) (ha : address.accepts = true) :
    s.tryAddresses (address :: rest) =
      .ok { (s.log (.created address.socket)).log
        (.wsaConnect address.socket address.ai_addr true) with mSocket := address.socket } := by
  simp [tryAddresses, createSocket, h, ha, destroySocket]
  rfl

theorem tryAddresses_refuses (h : address.socket ≠ INVALID_SOCKET)
    (ha : address.accepts = false) :
    s.tryAddresses (address :: rest) = ((s.log (.created address.socket)).log
      (.wsaConnect address.socket address.ai_addr false)).tryAddresses rest := by
  simp [tryAddresses, createSocket, h, ha, destroySocket]
  rfl

theorem firstAccepting_accepts (ha : address.accepts = true) :
    firstAccepting (address :: rest) = some address := by
  simp [firstAccepting, ha]

theorem firstAccepting_refuses (ha : address.accepts = false) :
    firstAccepting (address :: rest) = firstAccepting rest := by
  simp [firstAccepting, ha]

/-- Nothing has been closed between `s` and `t`. -/
structure Unclosed (s t : State) : Prop where
  created : ∀ socket, s.created socket ≤ t.created socket
  closed : ∀ socket, t.closed socket = s.closed socket

namespace Unclosed

theorem refl (s : State) : Unclosed s s := ⟨fun _ => le_rfl, fun _ => rfl⟩

theorem trans {u : State} (h : Unclosed s t) (h' : Unclosed t u) : Unclosed s u :=
  ⟨fun socket => (h.created socket).trans (h'.created socket),
    fun socket => (h'.closed socket).trans (h.closed socket)⟩

theorem assign (h : Unclosed s t) (socket : SOCKET) : Unclosed s { t with mSocket := socket } :=
  ⟨h.created, h.closed⟩

theorem log {event : Event} (h : ∀ socket, event ≠ .closed socket) :
    Unclosed s (s.log event) where
  created socket := by
    simp only [State.created, State.log, List.count_append]
    exact Nat.le_add_right _ _
  closed socket := by
    simp only [State.closed, State.log, List.count_append, Nat.add_eq_left]
    rw [List.count_singleton, if_neg]
    simpa using h socket

end Unclosed

@[simp] theorem created_log_created (s : State) (socket : SOCKET) :
    (s.log (.created socket)).created socket = s.created socket + 1 := by
  simp [State.created, State.log]

theorem attempt_unclosed (s : State) (address : Address) (accepted : Bool) :
    Unclosed s ((s.log (.created address.socket)).log
      (.wsaConnect address.socket address.ai_addr accepted)) :=
  (Unclosed.log (by simp)).trans (Unclosed.log (by simp))

theorem created_attempt (s : State) (address : Address) (accepted : Bool) :
    ((s.log (.created address.socket)).log
      (.wsaConnect address.socket address.ai_addr accepted)).created address.socket =
      s.created address.socket + 1 := by
  simp [State.created, State.log]

/-- The loop closes none of its sockets. -/
theorem tryAddresses_unclosed (s : State) (addresses : List Address) :
    Unclosed s (final (s.tryAddresses addresses)) := by
  induction addresses generalizing s with
  | nil => exact Unclosed.refl s
  | cons address rest ih =>
    by_cases hs : address.socket = INVALID_SOCKET
    · rw [tryAddresses_invalid hs]
      exact Unclosed.refl s
    · cases ha : address.accepts with
      | true =>
        rw [tryAddresses_accepts hs ha]
        exact (attempt_unclosed s address true).assign address.socket
      | false =>
        rw [tryAddresses_refuses hs ha]
        exact (attempt_unclosed s address false).trans (ih _)

/-- Unless a socket cannot be made, the loop leaves the socket of the first address that accepts in
`mSocket`, connected to it, or, if there is none, what has been there before. -/
structure Tried (s : State) (addresses : List Address) (t : State) : Prop where
  mSocket : t.mSocket = ((firstAccepting addresses).map Address.socket).getD s.mSocket
  mCallback : t.mCallback = s.mCallback
  connected : ∀ address, firstAccepting addresses = some address →
    address.socket ≠ INVALID_SOCKET ∧ s.created address.socket + 1 ≤ t.created address.socket

theorem tryAddresses_tried {addresses : List Address} (h : s.tryAddresses addresses = .ok t) :
    Tried s addresses t := by
  induction addresses generalizing s with
  | nil =>
    cases h
    exact ⟨rfl, rfl, by simp [firstAccepting]⟩
  | cons address rest ih =>
    by_cases hs : address.socket = INVALID_SOCKET
    · rw [tryAddresses_invalid hs] at h
      cases h
    · cases ha : address.accepts with
      | true =>
        rw [tryAddresses_accepts hs ha] at h
        cases h
        refine ⟨by simp [firstAccepting_accepts ha], rfl, fun a h => ?_⟩
        rw [firstAccepting_accepts ha] at h
        cases h
        exact ⟨hs, (created_attempt s address true).ge⟩
      | false =>
        rw [tryAddresses_refuses hs ha] at h
        have hrest := ih h
        refine ⟨?_, hrest.mCallback, fun a hfirst => ?_⟩
        · rw [firstAccepting_refuses ha]
          exact hrest.mSocket
        · rw [firstAccepting_refuses ha] at hfirst
          obtain ⟨hvalid, hle⟩ := hrest.connected a hfirst
          have hmono := (attempt_unclosed s address false).created a.socket
          exact ⟨hvalid, by omega⟩

/-- If every socket can be made, the loop returns. -/
theorem tryAddresses_returns {addresses : List Address}
    (h : ∀ address ∈ addresses, address.socket ≠ INVALID_SOCKET) :
    ¬ Throws (s.tryAddresses addresses) := by
  induction addresses generalizing s with
  | nil => exact not_throws_ok
  | cons address rest ih =>
    have hs : address.socket ≠ INVALID_SOCKET := h address List.mem_cons_self
    cases ha : address.accepts with
    | true =>
      rw [tryAddresses_accepts hs ha]
      exact not_throws_ok
    | false =>
      rw [tryAddresses_refuses hs ha]
      exact ih fun b hb => h b (List.mem_cons_of_mem _ hb)

/-! ## The first receive -/

/-- Only the callback has been called on the way from `s` to `t`. -/
def Received (s t : State) : Prop :=
  ∃ data : List Bytes, t = { s with trace := s.trace ++ data.map (.receiveComplete s.mIdentifier) }

namespace Received

theorem refl (s : State) : Received s s := ⟨[], by simp⟩

theorem created (h : Received s t) (socket : SOCKET) : t.created socket = s.created socket := by
  obtain ⟨data, rfl⟩ := h
  simp [State.created, List.count_eq_zero]

theorem closed (h : Received s t) (socket : SOCKET) : t.closed socket = s.closed socket := by
  obtain ⟨data, rfl⟩ := h
  simp [State.closed, List.count_eq_zero]

theorem mem (h : Received s t) {event : Event} (hs : event ∈ s.trace) : event ∈ t.trace := by
  obtain ⟨data, rfl⟩ := h
  exact List.mem_append_left _ hs

theorem mSocket (h : Received s t) : t.mSocket = s.mSocket := by
  obtain ⟨data, rfl⟩ := h
  rfl

end Received

theorem prepare_received (s : State) (receive : Receive) :
    Received s (final (s.prepareClientToReceiveData receive)) := by
  induction receive generalizing s with
  | error lastError =>
    simp only [prepareClientToReceiveData]
    split <;> exact Received.refl s
  | immediate data threw next ih =>
    simp only [prepareClientToReceiveData]
    split
    · cases threw with
      | some what => exact ⟨[data], by simp [State.log]⟩
      | none =>
        obtain ⟨rest, hrest⟩ := ih (s.log (.receiveComplete s.mIdentifier data))
        refine ⟨data :: rest, hrest.trans ?_⟩
        simp [State.log]
    · exact ih s

theorem prepare_throws_iff (s : State) (receive : Receive) :
    Throws (s.prepareClientToReceiveData receive) ↔ ¬ receive.Succeeds s.mCallback := by
  induction receive generalizing s with
  | error lastError =>
    by_cases h : WSA_IO_PENDING = lastError
    · simp [prepareClientToReceiveData, Receive.Succeeds, h]
    · simp [prepareClientToReceiveData, Receive.Succeeds, h, Ne.symm h]
  | immediate data threw next ih =>
    cases hc : s.mCallback with
    | false => simpa [prepareClientToReceiveData, Receive.Succeeds, hc] using ih s
    | true =>
      cases threw with
      | some what => simp [prepareClientToReceiveData, Receive.Succeeds, hc]
      | none =>
        simpa [prepareClientToReceiveData, Receive.Succeeds, hc, State.log] using
          ih (s.log (.receiveComplete s.mIdentifier data))

theorem start_received (s : State) (e : Environment) : Received s (final (s.start e)) := by
  unfold start
  cases e.overlap with
  | heapAllocFails => exact Received.refl s
  | createEventFails => exact Received.refl s
  | created =>
    cases e.sendOverlap with
    | heapAllocFails => exact Received.refl s
    | createEventFails => exact Received.refl s
    | created => exact prepare_received s e.receive

theorem start_throws_iff (s : State) (e : Environment) :
    Throws (s.start e) ↔ ¬ Ready e s.mCallback := by
  constructor
  · intro h hready
    refine (prepare_throws_iff s e.receive).mp ?_ hready.receive
    simpa [start, hready.overlap, hready.sendOverlap, createOverlap, bind, Except.bind] using h
  · intro h
    by_contra hok
    refine h ?_
    unfold start at hok
    cases ho : e.overlap with
    | heapAllocFails => exact absurd (throws_error _) (ho ▸ hok)
    | createEventFails => exact absurd (throws_error _) (ho ▸ hok)
    | created =>
      cases hso : e.sendOverlap with
      | heapAllocFails => exact absurd (throws_error _) (hso ▸ ho ▸ hok)
      | createEventFails => exact absurd (throws_error _) (hso ▸ ho ▸ hok)
      | created =>
        refine ⟨ho, hso, not_not.mp fun hr => hok ?_⟩
        rw [ho, hso]
        exact (prepare_throws_iff s e.receive).mpr hr

/-! ## The whole call -/

theorem connect_nil (h : e.addresses hostname port = []) :
    ∃ what, s.connect e hostname port = .error (what, s.log .wsaCleanup) := by
  unfold Environment.addresses at h
  unfold connect
  cases hr : e.getaddrinfo hostname (toString port) with
  | error iResult => exact ⟨_, rfl⟩
  | ok results =>
    rw [hr] at h
    cases h
    exact ⟨_, rfl⟩

/-- What comes behind the loop. -/
theorem connect_cons (h : e.addresses hostname port = address :: rest) :
    s.connect e hostname port = (s.tryAddresses (address :: rest)).bind fun t =>
      if t.mSocket = 0 ∨ t.mSocket = INVALID_SOCKET then
        .error ("Failed to create client connection\n", t.log .freeaddrinfo)
      else (t.log .freeaddrinfo).start e := by
  unfold Environment.addresses at h
  unfold connect
  cases hr : e.getaddrinfo hostname (toString port) with
  | error iResult =>
    rw [hr] at h
    cases h
  | ok results =>
    rw [hr] at h
    cases h
    rfl

theorem connect_error {x : String × State} (h : e.addresses hostname port = address :: rest)
    (ht : s.tryAddresses (address :: rest) = .error x) :
    s.connect e hostname port = .error x := by
  rw [connect_cons h, ht]
  rfl

/-- With a socket, `connect` throws exactly if something behind the loop does. -/
theorem connect_throws_iff (h : e.addresses hostname port = address :: rest)
    (ht : s.tryAddresses (address :: rest) = .ok t) :
    Throws (s.connect e hostname port) ↔
      t.mSocket = 0 ∨ t.mSocket = INVALID_SOCKET ∨ ¬ Ready e t.mCallback := by
  rw [connect_cons h, ht]
  show Throws (if _ then _ else _) ↔ _
  by_cases hs : t.mSocket = 0 ∨ t.mSocket = INVALID_SOCKET
  · rw [if_pos hs, ← or_assoc]
    exact iff_of_true (throws_error _) (.inl hs)
  · rw [if_neg hs, start_throws_iff, ← or_assoc]
    exact (or_iff_right hs).symm

theorem connect_received (h : e.addresses hostname port = address :: rest)
    (ht : s.tryAddresses (address :: rest) = .ok t) :
    Received (t.log .freeaddrinfo) (final (s.connect e hostname port)) := by
  rw [connect_cons h, ht]
  show Received _ (final (if _ then _ else _))
  split
  · exact Received.refl _
  · exact start_received _ e

/-- Nothing behind the loop closes a socket. -/
theorem connect_unclosed (h : e.addresses hostname port = address :: rest) :
    Unclosed (final (s.tryAddresses (address :: rest))) (final (s.connect e hostname port)) := by
  cases ht : s.tryAddresses (address :: rest) with
  | error x =>
    rw [connect_error h ht]
    exact Unclosed.refl _
  | ok t =>
    have hreceived := connect_received h ht
    have hlog : Unclosed t (t.log .freeaddrinfo) := Unclosed.log (by simp)
    exact hlog.trans ⟨fun socket => (hreceived.created socket).ge, hreceived.closed⟩

/-- If no address accepts, it is the `mSocket` of before that decides whether `connect` throws. -/
theorem throws_iff_of_refused (h : e.addresses hostname port = address :: rest)
    (hs : ∀ a ∈ address :: rest, a.socket ≠ INVALID_SOCKET)
    (ha : ∀ a ∈ address :: rest, a.accepts = false) :
    Throws (s.connect e hostname port) ↔
      s.mSocket = 0 ∨ s.mSocket = INVALID_SOCKET ∨ ¬ Ready e s.mCallback := by
  obtain ⟨t, ht⟩ := not_throws_iff.mp (tryAddresses_returns (s := s) hs)
  have htried := tryAddresses_tried ht
  have hnone : firstAccepting (address :: rest) = none := by
    simpa [firstAccepting] using ha
  have hm : t.mSocket = s.mSocket := by simp [htried.mSocket, hnone]
  rw [connect_throws_iff h ht, hm, htried.mCallback]

/-- The socket that the first address refuses is still open when `connect` is done. -/
theorem not_correct_of_refused (h : e.addresses hostname port = address :: rest)
    (hs : address.socket ≠ INVALID_SOCKET) (ha : address.accepts = false)
    (hclosed : s.closed address.socket = 0) :
    ¬ Correct (address :: rest) (s.connect e hostname port) := by
  intro hcorrect
  have hcount := hcorrect.closed address.socket
  have hbehind := connect_unclosed (s := s) h
  have hattempt := attempt_unclosed s address false
  have hcreated := created_attempt s address false
  rw [tryAddresses_refuses hs ha] at hbehind
  have hloop := (tryAddresses_unclosed _ rest).trans hbehind
  have hle := hloop.created address.socket
  rw [hloop.closed, hattempt.closed, hclosed] at hcount
  split at hcount
  next hkept =>
    -- the first address that accepts has the same number, so there are two sockets of it
    obtain ⟨a, hfirst, hsocket⟩ := Option.map_eq_some_iff.mp hkept
    have hreturns : ¬ Throws (s.connect e hostname port) := fun hthrows => by
      have hrefused := hcorrect.throws.mp hthrows a (List.mem_of_find?_eq_some hfirst)
      rw [List.find?_some hfirst] at hrefused
      cases hrefused
    cases ht : s.tryAddresses (address :: rest) with
    | error x => exact hreturns (connect_error h ht ▸ throws_error x.1)
    | ok t =>
      rw [tryAddresses_refuses hs ha] at ht
      rw [firstAccepting_refuses ha] at hfirst
      have htwice := ((tryAddresses_tried ht).connected a hfirst).2
      rw [ht] at hbehind
      have hlast := hbehind.created address.socket
      rw [hsocket] at htwice
      simp only [final_ok] at hlast
      omega
  next => omega

/-- A first address that accepts settles everything but what comes behind the loop. -/
theorem correct_of_accepted (h : e.addresses hostname port = address :: rest)
    (hs : address.socket ≠ INVALID_SOCKET) (ha : address.accepts = true)
    (hzero : address.socket ≠ 0) (hready : Ready e s.mCallback) (htrace : s.trace = []) :
    Correct (address :: rest) (s.connect e hostname port) := by
  have ht : s.tryAddresses (address :: rest) = _ := tryAddresses_accepts hs ha
  have hreceived := connect_received h ht
  have hfirst : firstAccepting (address :: rest) = some address := firstAccepting_accepts ha
  refine ⟨?_, fun a h => ?_, fun socket => ?_⟩
  · rw [connect_throws_iff h ht]
    refine iff_of_false ?_ fun hnone => ?_
    · rintro (h | h | h)
      · exact hzero h
      · exact hs h
      · exact h hready
    · rw [hnone address List.mem_cons_self] at ha
      cases ha
  · rw [hfirst] at h
    cases h
    refine ⟨hreceived.mSocket, hreceived.mem ?_⟩
    simp [State.log]
  · rw [hreceived.created, hreceived.closed, hfirst]
    simp [State.created, State.closed, State.log, htrace, List.count_cons]

/-- **`connect` does what it is for if and only if the first attempt settles it.** -/
theorem connectsFirst_iff (mSocket : SOCKET) (mIdentifier : Bytes) (mCallback : Bool)
    (e : Environment) (hostname : String) (port : UInt32) :
    Correct (e.addresses hostname port)
        (State.connect ⟨mSocket, mIdentifier, mCallback, []⟩ e hostname port) ↔
      Settled e mCallback (e.addresses hostname port) := by
  cases h : e.addresses hostname port with
  | nil =>
    obtain ⟨what, hconnect⟩ := connect_nil (s := ⟨mSocket, mIdentifier, mCallback, []⟩) h
    rw [hconnect]
    refine iff_of_true ⟨by simp, by simp [firstAccepting], fun socket => ?_⟩ trivial
    simp [firstAccepting, State.created, State.closed, State.log]
  | cons address rest =>
    by_cases hs : address.socket = INVALID_SOCKET
    · rw [connect_error h (tryAddresses_invalid hs)]
      constructor
      · intro hcorrect
        exact .inl ⟨hs, hcorrect.throws.mp (throws_error _)⟩
      · rintro (⟨-, hnone⟩ | ⟨hvalid, -⟩)
        · have hfirst : firstAccepting (address :: rest) = none := by
            simpa [firstAccepting] using hnone
          refine ⟨iff_of_true (throws_error _) hnone, by simp [hfirst], fun socket => ?_⟩
          simp [hfirst, State.created, State.closed]
        · exact absurd hs hvalid
    · cases ha : address.accepts with
      | false =>
        refine iff_of_false (not_correct_of_refused h hs ha rfl) ?_
        rintro (⟨hinvalid, -⟩ | ⟨-, haccepts, -⟩)
        · exact hs hinvalid
        · rw [ha] at haccepts
          cases haccepts
      | true =>
        constructor
        · intro hcorrect
          have hreturns := mt hcorrect.throws.mp fun hnone => by
            rw [hnone address List.mem_cons_self] at ha
            cases ha
          rw [connect_throws_iff h (tryAddresses_accepts hs ha)] at hreturns
          exact .inr ⟨hs, ha, fun hz => hreturns (.inl hz),
            not_not.mp fun hr => hreturns (.inr (.inr hr))⟩
        · rintro (⟨hinvalid, -⟩ | ⟨-, -, hzero, hready⟩)
          · exact absurd hinvalid hs
          · exact correct_of_accepted h hs ha hzero hready rfl

/-- The only address refuses and `mSocket` is 5 from before: `connect` returns as if that were a
connection, and the socket 8 that it has made stays open. -/
theorem refused_unnoticed :
    ∃ e t, e.addresses "localhost" 80 = [⟨[127, 0, 0, 1], 8, 0, false⟩] ∧
      State.connect ⟨5, [], true, []⟩ e "localhost" 80 = .ok t ∧ t.mSocket = 5 ∧
      t.created 8 = 1 ∧ t.closed 8 = 0 ∧
      ¬ Correct (e.addresses "localhost" 80)
        (State.connect ⟨5, [], true, []⟩ e "localhost" 80) := by
  let e : Environment :=
    ⟨fun _ _ => .ok [⟨[127, 0, 0, 1], 8, 0, false⟩], .created, .created, .error WSA_IO_PENDING⟩
  let t : State := ⟨5, [], true,
    [.created 8, .wsaConnect 8 [127, 0, 0, 1] false, .freeaddrinfo]⟩
  have hconnect : State.connect ⟨5, [], true, []⟩ e "localhost" 80 = .ok t := rfl
  refine ⟨e, t, rfl, hconnect, rfl, by decide, by decide, fun h => ?_⟩
  refine not_throws_ok (hconnect ▸ h.throws.mpr fun address hmem => ?_)
  rw [List.mem_singleton.mp hmem]

end C11Http.Windows.Connecting
