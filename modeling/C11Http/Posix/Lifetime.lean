import C11Http.Lib.Release
import C11Http.Posix.Stranded

/-! # The life of a posix client and of its socket

A client from before its constructor until behind its destructor. The constructor opens a socket
(`Socket::Socket`) and may throw behind that; neither `Socket::~Socket` nor an exception of the
constructor closes it. The destructor disconnects if `mConnected` is still set; an exception of that
`disconnect` ends the program. The log has the uses of the socket, each with what the client does on
it in the loop and in `disconnect`, and its closing.

`mConnected` stands for several situations: it is cleared where the socket is closed, but also where
the server has closed its side and where `poll` fails, and then the socket is never closed; and the
rest of a pass goes on without a look at it. `closed_once_iff`: the socket is closed exactly once
and not used behind that exactly in the runs without these. -/

namespace C11Http.Posix

open C11Http.Lib C11Http.Lib.Run C11Http.Lib.Release

/-- What `closeSocket` at the end of `disconnect` comes after: the `poll` and an empty `::send`. -/
def closing (mSocket : Fd) : List (Access Fd) := [.use mSocket, .use mSocket, .release mSocket]

/-- What an event does with the socket. A call of the callback counts as a use. -/
def ClientEvent.accesses (mSocket : Fd) : ClientEvent → List (Access Fd)
  | .handed _ _ | .received _ | .receiveComplete _ _ | .sendComplete _ _ => [.use mSocket]
  | .closed fd => closing fd
  | .queued _ | .threw => []

namespace Client

/-- What an action that leads from `c` to `d` does with the socket. -/
def accesses (c : Client) (a : Action) (d : Client) : List (Access Fd) :=
  (match a with
    | .select _ => [.use c.mSocket]
    | _ => []) ++
    (d.trace.drop c.trace.length).flatMap (ClientEvent.accesses c.mSocket)

/-- The loop comes to its `select`, to its `::recv`, or to its `::send`. -/
def Touches (c : Client) : Action → Prop
  | .select _ => True
  | .read _ _ =>
    match c.pc with
    | .read readFds _ => c.mSocket ∈ readFds
    | _ => False
  | .write _ _ => c.Flushing
  | _ => False

/-! ### What the parts of an action do with the socket -/

/-- The trace grows by events that do `log` with the socket. -/
structure Adds (c d : Client) (log : List (Access Fd)) : Prop where
  mSocket : d.mSocket = c.mSocket
  trace : ∃ es, d.trace = c.trace ++ es ∧ es.flatMap (ClientEvent.accesses c.mSocket) = log

/-- Nothing is done, or the connection is ended and the socket closed. -/
def Ending (c d : Client) (log : List (Access Fd)) : Prop :=
  log = [] ∧ (d.mConnected = true → c.mConnected = true) ∨
    c.mConnected = true ∧ d.mConnected = false ∧ log = closing c.mSocket

variable {c d e : Client} {log log' : List (Access Fd)}

theorem Adds.refl (c : Client) : Adds c c [] := ⟨rfl, [], (List.append_nil _).symm, rfl⟩

theorem Adds.trans (h : Adds c d log) (h' : Adds d e log') : Adds c e (log ++ log') := by
  obtain ⟨hsock, es, hes, rfl⟩ := h
  obtain ⟨hsock', es', hes', rfl⟩ := h'
  refine ⟨hsock'.trans hsock, es ++ es', ?_, ?_⟩
  · rw [hes', hes, List.append_assoc]
  · rw [List.flatMap_append, hsock]

theorem adds_record (c : Client) (e : ClientEvent) :
    Adds c (c.record [e]) (e.accesses c.mSocket) :=
  ⟨rfl, [e], rfl, List.flatMap_singleton _ _⟩

theorem Ending.refl (c : Client) : Ending c c [] := Or.inl ⟨rfl, id⟩

theorem Ending.trans (h : Ending c d log) (hsock : d.mSocket = c.mSocket)
    (h' : Ending d e log') : Ending c e (log ++ log') := by
  rcases h with ⟨rfl, hcd⟩ | ⟨hc, hd, rfl⟩
  · rcases h' with ⟨rfl, hde⟩ | ⟨hd, he, rfl⟩
    · exact Or.inl ⟨rfl, fun he => hcd (hde he)⟩
    · exact Or.inr ⟨hcd hd, he, by rw [hsock]; rfl⟩
  · rcases h' with ⟨rfl, hde⟩ | ⟨hd', -, -⟩
    · refine Or.inr ⟨hc, ?_, List.append_nil _⟩
      by_contra hne
      have hd' := hde (by simpa using hne)
      rw [hd] at hd'
      cases hd'
    · rw [hd] at hd'
      cases hd'

/-- **A call** does nothing with the socket, or closes it. -/
theorem call_ending (c : Client) (k : ClientCall) :
    ∃ log, Adds c (c.call k) log ∧ Ending c (c.call k) log := by
  cases k with
  | sendDataToServer data =>
    refine ⟨[], ?_, Or.inl ⟨rfl, fun h => ((call_mConnected c _).mp h).1⟩⟩
    show Adds c (c.sendDataToServer data) []
    unfold sendDataToServer
    split
    · exact ⟨rfl, [.queued data], rfl, rfl⟩
    · exact Adds.refl c
  | disconnect poll =>
    show ∃ log, Adds c (c.disconnect poll).1 log ∧ Ending c (c.disconnect poll).1 log
    unfold disconnect
    split
    · rename_i hconn
      cases poll with
      | some strerror =>
        exact ⟨[], ⟨rfl, [], (List.append_nil _).symm, rfl⟩, Or.inl ⟨rfl, fun h => by cases h⟩⟩
      | none =>
        exact ⟨closing c.mSocket, ⟨rfl, [.closed c.mSocket], rfl, List.flatMap_singleton _ _⟩,
          Or.inr ⟨hconn, rfl, rfl⟩⟩
    · exact ⟨[], Adds.refl c, Ending.refl c⟩

theorem calls_ending (ks : List ClientCall) (c : Client) :
    ∃ log, Adds c (ks.foldl call c) log ∧ Ending c (ks.foldl call c) log := by
  induction ks generalizing c with
  | nil => exact ⟨[], Adds.refl c, Ending.refl c⟩
  | cons k ks ih =>
    obtain ⟨log, hadds, hend⟩ := call_ending c k
    obtain ⟨log', hadds', hend'⟩ := ih (c.call k)
    exact ⟨log ++ log', hadds.trans hadds', hend.trans hadds.mSocket hend'⟩

theorem react_ending (c : Client) (r : Reaction ClientCall) :
    ∃ log, Adds c (c.react r) log ∧ Ending c (c.react r) log := by
  obtain ⟨log, hadds, hend⟩ := calls_ending r.calls c
  have hthrew : ∃ log, Adds c ((r.calls.foldl call c).record [.threw]) log ∧
      Ending c ((r.calls.foldl call c).record [.threw]) log :=
    ⟨log ++ [], hadds.trans (adds_record _ .threw), hend.trans hadds.mSocket (Or.inl ⟨rfl, id⟩)⟩
  unfold react
  cases r.outcome with
  | returns => exact ⟨log, hadds, hend⟩
  | runtimeError => exact hthrew
  | other => exact hthrew

/-- The socket is used, and then nothing is done or it is closed. -/
def Working (c d : Client) : Prop :=
  ∃ n log, Adds c d (List.replicate (n + 1) (.use c.mSocket) ++ log) ∧ Ending c d log

/-- An event that uses the socket, and what comes behind it. -/
theorem Working.of_record {e : ClientEvent} (he : e.accesses c.mSocket = [.use c.mSocket])
    {log : List (Access Fd)} (hadds : Adds (c.record [e]) d log)
    (hend : Ending (c.record [e]) d log) : Working c d := by
  refine ⟨0, log, ?_, hend⟩
  have h := (adds_record c e).trans hadds
  rwa [he] at h

theorem Working.cons {e : ClientEvent} (he : e.accesses c.mSocket = [.use c.mSocket])
    (h : Working (c.record [e]) d) : Working c d := by
  obtain ⟨n, log, hadds, hend⟩ := h
  refine ⟨n + 1, log, ?_, hend⟩
  have h := (adds_record c e).trans hadds
  rwa [he] at h

/-- What is done besides changes neither the trace nor the connection. -/
theorem Working.of_eq {d' : Client} (h : Working c d) (hsock : d'.mSocket = d.mSocket)
    (htrace : d'.trace = d.trace) (hconn : d'.mConnected = d.mConnected) : Working c d' := by
  obtain ⟨n, log, ⟨hs, es, hes, hlog⟩, hend⟩ := h
  refine ⟨n, log, ⟨hsock.trans hs, es, htrace.trans hes, hlog⟩, ?_⟩
  unfold Ending at hend ⊢
  rwa [hconn]

theorem working_deliver (c : Client) (data : Bytes) (r : Reaction ClientCall) :
    Working c (c.deliver data r) := by
  obtain ⟨log, hadds, hend⟩ := react_ending (c.record [.receiveComplete c.mIdentifier data]) r
  exact Working.of_record rfl hadds hend

theorem working_report (c : Client) (count : ℕ) (r : Reaction ClientCall) :
    Working c (c.report count r) := by
  obtain ⟨log, hadds, hend⟩ := react_ending (c.record [.sendComplete c.mIdentifier count]) r
  exact Working.of_record rfl hadds hend

/-- **The read branch** receives, may call the callback, and the callback may disconnect. -/
theorem working_readBranch (c : Client) (recv : Recv) (receiveComplete : Reaction ClientCall) :
    Working c (c.readBranch recv receiveComplete) := by
  have hrecv : ∀ u : Client, Adds (c.record [.received recv.data]) u [] →
      (u.mConnected = true → c.mConnected = true) → Working c u :=
    fun u hadds hconn => Working.of_record rfl hadds (Or.inl ⟨rfl, hconn⟩)
  unfold readBranch
  rcases recv with strerror | data
  · refine hrecv _ ⟨rfl, [.threw], rfl, rfl⟩ id
  · by_cases hlen : data.length = 0
    · simp only [if_pos hlen]
      exact hrecv _ ⟨rfl, [], (List.append_nil _).symm, rfl⟩ fun h => by cases h
    · simp only [if_neg hlen]
      by_cases hcb : (c.record [.received (Recv.bytes data).data]).mCallback = true
      · simp only [if_pos hcb]
        have hdeliver : Working c
            ((c.record [.received (Recv.bytes data).data]).deliver data receiveComplete) :=
          Working.cons rfl (working_deliver _ data receiveComplete)
        cases receiveComplete.outcome with
        | returns => exact hdeliver
        | runtimeError => exact hdeliver.of_eq rfl rfl rfl
        | other => exact hdeliver.of_eq rfl rfl rfl
      · simp only [if_neg hcb]
        exact hrecv _ (Adds.refl _) id

/-- **The write branch** sends, may call the callback, and the callback may disconnect. -/
theorem working_writeBranch (c : Client) (result : ℤ) (sendComplete : Reaction ClientCall) :
    Working c (c.writeBranch result sendComplete) := by
  unfold writeBranch
  have hhand : Adds c (c.handing result) [.use c.mSocket] :=
    ⟨rfl, [.handed (offered c.mOutgoingBytes) result], rfl, rfl⟩
  by_cases hcb : c.mCallback = true
  · simp only [if_pos hcb]
    have hreport : Working c
        ((c.handing result).report (expected c.mOutgoingBytes) sendComplete) := by
      obtain ⟨n, log, hadds, hend⟩ :=
        working_report (c.handing result) (expected c.mOutgoingBytes) sendComplete
      exact ⟨n + 1, log, hhand.trans hadds, hend⟩
    cases sendComplete.outcome with
    | returns => exact hreport.of_eq rfl rfl rfl
    | runtimeError => exact hreport.of_eq rfl rfl rfl
    | other => exact hreport.of_eq rfl rfl rfl
  · simp only [if_neg hcb]
    exact ⟨0, [], ⟨rfl, [.handed (offered c.mOutgoingBytes) result], rfl, rfl⟩, Or.inl ⟨rfl, id⟩⟩

/-! ### One action -/

theorem goto_trace (c : Client) (pc : ClientPc) : (c.goto pc).trace = c.trace := by
  unfold goto
  split <;> rfl

theorem goto_mSocket (c : Client) (pc : ClientPc) : (c.goto pc).mSocket = c.mSocket := by
  unfold goto
  split <;> rfl

/-- The socket is used some times, and then nothing is done or it is closed. -/
def Does (c d : Client) (n : ℕ) (log : List (Access Fd)) : Prop :=
  d.mSocket = c.mSocket ∧ ∃ tail, log = List.replicate n (.use c.mSocket) ++ tail ∧ Ending c d tail

theorem Adds.accesses (h : Adds c d log) {a : Action} (ha : ∀ result, a ≠ .select result) :
    accesses c a d = log := by
  obtain ⟨-, es, hes, rfl⟩ := h
  unfold Client.accesses
  rw [hes, List.drop_left]
  cases a with
  | select result => exact absurd rfl (ha result)
  | _ => rfl

/-- Nothing is done at a place where the loop only goes on. -/
theorem does_goto_self {a : Action} (ha : ∀ result, a ≠ .select result) (pc : ClientPc) :
    Does c (c.goto pc) 0 (accesses c a (c.goto pc)) := by
  have hadds : Adds c (c.goto pc) [] :=
    ⟨goto_mSocket c pc, [], by rw [goto_trace, List.append_nil], rfl⟩
  refine ⟨hadds.mSocket, [], hadds.accesses ha, Or.inl ⟨rfl, fun h => ?_⟩⟩
  rwa [goto_mConnected] at h

theorem Working.goto (h : Working c d) {a : Action} (ha : ∀ result, a ≠ .select result)
    (pc : ClientPc) : ∃ n, Does c (d.goto pc) (n + 1) (accesses c a (d.goto pc)) := by
  obtain ⟨n, log, hadds, hend⟩ := h.of_eq (goto_mSocket d pc) (goto_trace d pc)
    (goto_mConnected d pc)
  exact ⟨n, hadds.mSocket, log, hadds.accesses ha, hend⟩

/-- `select` succeeds or throws. -/
theorem select_accesses {result : Option (Finset Fd × Finset Fd)}
    (h : step c (.select result) = some d) :
    d.mSocket = c.mSocket ∧ d.mConnected = c.mConnected ∧
      accesses c (.select result) d = [.use c.mSocket] := by
  simp only [step] at h
  split_ifs at h
  rcases result with _ | ⟨readFds, writeFds⟩
  · cases h
    refine ⟨rfl, rfl, ?_⟩
    unfold accesses leave record
    rw [List.drop_left]
    rfl
  · simp only at h
    split_ifs at h
    cases h
    refine ⟨rfl, rfl, ?_⟩
    unfold accesses
    rw [List.drop_length]
    rfl

/-- **An action** uses the socket exactly if the loop comes to `select`, `::recv` or `::send`; it
may end the connection behind that, and it never begins one. -/
theorem step_does {a : Action} (h : step c a = some d) :
    ∃ n, Does c d n (accesses c a d) ∧ (n = 0 ↔ ¬ Touches c a) := by
  cases a with
  | call k =>
    cases h
    obtain ⟨log, hadds, hend⟩ := call_ending c k
    exact ⟨0, ⟨hadds.mSocket, log, hadds.accesses (fun _ h => by cases h), hend⟩,
      iff_of_true rfl id⟩
  | waitForEvents =>
    obtain rfl := step_waitForEvents h
    have hadds : Adds c { c with mMasterWrite := ∅, pc := .top } [] :=
      ⟨rfl, [], (List.append_nil _).symm, rfl⟩
    exact ⟨0, ⟨rfl, [], hadds.accesses (fun _ h => by cases h), Or.inl ⟨rfl, id⟩⟩,
      iff_of_true rfl id⟩
  | select result =>
    obtain ⟨hsock, hconn, hlog⟩ := select_accesses h
    refine ⟨1, ⟨hsock, [], hlog, Or.inl ⟨rfl, fun hd => hconn ▸ hd⟩⟩, ?_⟩
    exact iff_of_false Nat.one_ne_zero (not_not_intro trivial)
  | read recv receiveComplete =>
    obtain ⟨readFds, writeFds, hpc, rfl⟩ := step_read h
    have htouch : Touches c (.read recv receiveComplete) ↔ c.mSocket ∈ readFds := by
      simp only [Touches, hpc]
    rw [htouch]
    by_cases hready : c.mSocket ∈ readFds
    · rw [if_pos hready]
      obtain ⟨n, hdoes⟩ := (working_readBranch c recv receiveComplete).goto
        (a := .read recv receiveComplete) (fun _ h => by cases h) (.write writeFds)
      exact ⟨n + 1, hdoes, iff_of_false (Nat.succ_ne_zero n) (not_not_intro hready)⟩
    · rw [if_neg hready]
      exact ⟨0, does_goto_self (fun _ h => by cases h) _, iff_of_true rfl hready⟩
  | write result sendComplete =>
    obtain ⟨writeFds, hpc, hflush, rfl⟩ := step_write h
    show ∃ n, _ ∧ (n = 0 ↔ ¬ c.Flushing)
    rw [hflush]
    by_cases hready : c.mSocket ∈ writeFds
    · rw [if_pos hready]
      obtain ⟨n, hdoes⟩ := (working_writeBranch c result sendComplete).goto
        (a := .write result sendComplete) (fun _ h => by cases h) .top
      exact ⟨n + 1, hdoes, iff_of_false (Nat.succ_ne_zero n) (not_not_intro hready)⟩
    · rw [if_neg hready]
      exact ⟨0, does_goto_self (fun _ h => by cases h) _, iff_of_true rfl hready⟩

/-! ### The constructor and the destructor -/

/-- The arguments of the constructor and the descriptor set it does not initialize, and what the
system answers: `socket`, `inet_pton` (`none` for a result of 0), `connect` and `pipe`, each with
the text of its error. What `::recv` and `::send` return there is not looked at. -/
structure Construction where
  mCallback : Bool
  mIdentifier : Bytes
  mMasterWrite : Finset Fd
  socket : Except String Fd
  inet_pton : Except (Option String) Unit
  connect : Option String
  pipe : Except String (Fd × Fd)

/-- `Client::Client`, with what it does on the socket: `connect`, the acknowledgement, the
identifier. -/
def construct (a : Construction) : Except String Client × List (Access Fd) :=
  match a.socket with
  | .error strerror => (.error ("Socket Creation Error  " ++ strerror), [])
  | .ok mSocket =>
    match a.inet_pton with
    | .error none => (.error "not in presentation format", [])
    | .error (some strerror) => (.error ("inet_pton Error " ++ strerror), [])
    | .ok () =>
      match a.connect with
      | some strerror =>
        (.error ("failed to connect to host server " ++ strerror), [.use mSocket])
      | none =>
        match a.pipe with
        | .error strerror => (.error ("Failed to create wakeup pipe " ++ strerror),
            [.use mSocket, .use mSocket, .use mSocket])
        | .ok mWakeupPipe =>
          (.ok (connected a.mCallback a.mIdentifier mSocket mWakeupPipe a.mMasterWrite),
            [.use mSocket, .use mSocket, .use mSocket])

/-- Nothing behind the creation of the socket fails. -/
def Construction.Succeeds (a : Construction) : Prop :=
  (∃ u, a.inet_pton = .ok u) ∧ a.connect = none ∧ ∃ mWakeupPipe, a.pipe = .ok mWakeupPipe

/-- `Client::~Client`. -/
def destroy (c : Client) (poll : Option String) : Client × Except String Unit :=
  if c.mConnected then c.disconnect poll else (c, .ok ())

/-- `waitForEvents` does not run. -/
def Idle (c : Client) : Prop := c.pc = .outside ∨ c.pc = .left ∨ c.pc = .top ∧ c.mConnected = false

instance (c : Client) : Decidable c.Idle := by unfold Idle; infer_instance

theorem construct_ok {a : Construction} {c : Client} (h : (construct a).1 = .ok c) :
    a.Succeeds ∧ a.socket = .ok c.mSocket ∧ c.mConnected = true ∧
      (construct a).2 = [.use c.mSocket, .use c.mSocket, .use c.mSocket] := by
  revert h
  unfold construct Construction.Succeeds
  rcases a with ⟨mCallback, mIdentifier, mMasterWrite, socket, inet_pton, connect, pipe⟩
  rcases socket with strerror | mSocket
  · intro h; cases h
  rcases inet_pton with (_ | strerror) | u
  · intro h; cases h
  · intro h; cases h
  rcases connect with _ | strerror
  · rcases pipe with strerror | mWakeupPipe
    · intro h; cases h
    · intro h
      cases h
      exact ⟨⟨⟨u, rfl⟩, rfl, mWakeupPipe, rfl⟩, rfl, rfl, rfl⟩
  · intro h; cases h

theorem construct_error {a : Construction} {what : String} (h : (construct a).1 = .error what) :
    released (construct a).2 = [] ∧ ∀ mSocket, a.socket = .ok mSocket → ¬ a.Succeeds := by
  revert h
  unfold construct Construction.Succeeds
  rcases a with ⟨mCallback, mIdentifier, mMasterWrite, socket, inet_pton, connect, pipe⟩
  rcases socket with strerror | mSocket
  · exact fun _ => ⟨rfl, fun _ h => by cases h⟩
  rcases inet_pton with (_ | strerror) | u
  · exact fun _ => ⟨rfl, fun _ _ ⟨⟨_, h⟩, _⟩ => by cases h⟩
  · exact fun _ => ⟨rfl, fun _ _ ⟨⟨_, h⟩, _⟩ => by cases h⟩
  rcases connect with _ | strerror
  · rcases pipe with strerror | mWakeupPipe
    · exact fun _ => ⟨rfl, fun _ _ ⟨_, _, _, h⟩ => by cases h⟩
    · intro h; cases h
  · exact fun _ => ⟨rfl, fun _ _ ⟨_, h, _⟩ => by cases h⟩

end Client

/-! ### Lives -/

/-- Where the life of a client is; `terminated` is the end of the program. -/
inductive Stage
  | unbuilt
  | alive (c : Client)
  | thrown (what : String)
  | destroyed
  | terminated

/-- The socket of the client, once it has one, and what has been done with it. -/
structure Life where
  mSocket : Option Fd
  stage : Stage
  log : List (Access Fd)

namespace Life

open Client

inductive Action
  | construct (answers : Construction)
  | act (a : Client.Action)
  | destroy (poll : Option String)

def start : Life := { mSocket := none, stage := .unbuilt, log := [] }

def construct (w : Life) (answers : Construction) : Life :=
  { mSocket := answers.socket.toOption
    stage :=
      match (Client.construct answers).1 with
      | .ok c => .alive c
      | .error what => .thrown what
    log := w.log ++ (Client.construct answers).2 }

/-- The destructor; it lets no exception out. -/
def destroy (w : Life) (c : Client) (poll : Option String) : Life :=
  match c.destroy poll with
  | (d, .ok ()) =>
    { w with stage := .destroyed, log := w.log ++ accesses c (.call (.disconnect poll)) d }
  | (_, .error _) => { w with stage := .terminated }

def step (w : Life) : Action → Option Life
  | .construct answers =>
    match w.stage with
    | .unbuilt => some (w.construct answers)
    | _ => none
  | .act a =>
    match w.stage with
    | .alive c =>
      (Client.step c a).map fun d => { w with stage := .alive d, log := w.log ++ accesses c a d }
    | _ => none
  | .destroy poll =>
    match w.stage with
    | .alive c => if c.Idle then some (w.destroy c poll) else none
    | _ => none

/-- The object is destroyed, or its constructor has thrown. -/
def Over (w : Life) : Prop := w.stage = .destroyed ∨ ∃ what, w.stage = .thrown what

/-- **The socket is not used behind its closing, and in the end it has been closed once.** -/
def ClosedOnce (w : Life) : Prop :=
  Proper w.log ∧ (w.Over → ∀ mSocket, w.mSocket = some mSocket → released w.log = [mSocket])

/-- The socket has been closed. -/
def Closed (w : Life) : Prop := released w.log ≠ []

/-- What the constructor does behind the creation of the socket succeeds, the loop comes to no
system call on a closed socket, and the object is destroyed connected or with its socket closed. -/
def Careful (w : Life) : Action → Prop
  | .construct answers => ∀ mSocket, answers.socket = .ok mSocket → answers.Succeeds
  | .act a => ∀ c, w.stage = .alive c → w.Closed → ¬ Touches c a
  | .destroy _ => ∀ c, w.stage = .alive c → c.mConnected = true ∨ w.Closed

/-- What holds while the object lives. -/
structure Living (w : Life) (c : Client) : Prop where
  mSocket : w.mSocket = some c.mSocket
  connected : c.mConnected = true → released w.log = []
  once : released w.log = [] ∨ released w.log = [c.mSocket]

def Inv (w : Life) : Prop :=
  (w.stage = .unbuilt → w.log = []) ∧ ∀ c, w.stage = .alive c → Living w c

variable {w v : Life} {c d : Client}

/-! ### A log of one socket -/

theorem released_replicate (n : ℕ) (mSocket : Fd) (log : List (Access Fd)) :
    released (List.replicate n (.use mSocket) ++ log) = released log := by
  induction n with
  | zero => rfl
  | succ n ih => rw [List.replicate_succ, List.cons_append, released_use_cons, ih]

theorem proper_closing (mSocket : Fd) : Proper (closing mSocket) := by
  unfold closing Proper
  simp

/-- What an action does is proper in itself. -/
theorem does_spec {n : ℕ} {log : List (Access Fd)} (h : Does c d n log) :
    Proper log ∧
      (released log = [] ∧ (d.mConnected = true → c.mConnected = true) ∨
        c.mConnected = true ∧ d.mConnected = false ∧ released log = [c.mSocket]) := by
  obtain ⟨-, tail, rfl, htail⟩ := h
  have hnone : released (List.replicate n (Access.use c.mSocket)) = [] := by
    have h := released_replicate n c.mSocket []
    rwa [List.append_nil] at h
  rw [released_replicate, proper_append, hnone]
  rcases htail with ⟨rfl, hconn⟩ | ⟨hc, hd, rfl⟩
  · exact ⟨⟨proper_of_released_nil hnone, proper_nil, fun a ha => by cases ha⟩, Or.inl ⟨rfl, hconn⟩⟩
  · exact ⟨⟨proper_of_released_nil hnone, proper_closing _, fun a _ => List.not_mem_nil⟩,
      Or.inr ⟨hc, hd, rfl⟩⟩

/-! ### The actions -/

theorem living_construct {answers : Construction} (hlog : w.log = [])
    (h : (Client.construct answers).1 = .ok c) : Living (w.construct answers) c := by
  obtain ⟨-, hsock, -, huses⟩ := construct_ok h
  have hlog' : (w.construct answers).log = [.use c.mSocket, .use c.mSocket, .use c.mSocket] := by
    show w.log ++ (Client.construct answers).2 = _
    rw [hlog, huses]
    rfl
  refine ⟨?_, fun _ => ?_, Or.inl ?_⟩
  · show answers.socket.toOption = some c.mSocket
    rw [hsock]
    rfl
  · rw [hlog']; rfl
  · rw [hlog']; rfl

/-- **The constructor** keeps the socket if what it does behind its creation fails. -/
theorem closedOnce_construct_iff (hlog : w.log = []) (answers : Construction) :
    (w.construct answers).ClosedOnce ↔ Careful w (.construct answers) := by
  have hstage : (w.construct answers).stage =
      match (Client.construct answers).1 with
      | .ok c => .alive c
      | .error what => .thrown what := rfl
  have hlog' : (w.construct answers).log = (Client.construct answers).2 := by
    show w.log ++ _ = _
    rw [hlog, List.nil_append]
  cases hr : (Client.construct answers).1 with
  | ok c =>
    obtain ⟨hok, -, -, huses⟩ := construct_ok hr
    rw [hr] at hstage
    refine iff_of_true ⟨?_, fun hover => ?_⟩ fun _ _ => hok
    · rw [hlog', huses]
      exact proper_of_released_nil rfl
    · rcases hover with h | ⟨what, h⟩ <;> rw [hstage] at h <;> cases h
  | error what =>
    obtain ⟨hnone, hfails⟩ := construct_error hr
    rw [hr] at hstage
    constructor
    · rintro ⟨-, hclosed⟩ mSocket hsock
      have hone := hclosed (Or.inr ⟨what, hstage⟩) mSocket (by
        show answers.socket.toOption = some mSocket
        rw [hsock]
        rfl)
      rw [hlog', hnone] at hone
      cases hone
    · intro hcareful
      refine ⟨by rw [hlog']; exact proper_of_released_nil hnone, fun _ mSocket hsock => ?_⟩
      have hsock' : answers.socket.toOption = some mSocket := hsock
      cases hs : answers.socket with
      | error strerror => rw [hs] at hsock'; cases hsock'
      | ok fd => exact absurd (hcareful fd hs) (hfails fd hs)

/-- **An action** uses a closed socket exactly if the loop comes to a system call on it. -/
theorem closedOnce_act_iff (hl : Living w c) (hw : Proper w.log) (hstage : w.stage = .alive c)
    {a : Client.Action} (h : Client.step c a = some d) :
    ({ w with stage := .alive d, log := w.log ++ accesses c a d } : Life).ClosedOnce ↔
      Careful w (.act a) := by
  obtain ⟨n, hdoes, htouch⟩ := step_does h
  obtain ⟨hproper, -⟩ := does_spec hdoes
  have hover : ¬ Over { w with stage := .alive d, log := w.log ++ accesses c a d } := by
    rintro (h | ⟨what, h⟩) <;> cases h
  have hcareful : Careful w (.act a) ↔ (w.Closed → ¬ Touches c a) := by
    refine ⟨fun h => h c hstage, fun h c' hc' => ?_⟩
    rw [hstage, Stage.alive.injEq] at hc'
    exact hc' ▸ h
  rw [hcareful, ClosedOnce, and_iff_left fun hov => absurd hov hover, proper_append]
  constructor
  · rintro ⟨-, -, hno⟩ hclosed htouches
    have hmem : Access.use c.mSocket ∈ accesses c a d := by
      obtain ⟨-, tail, hlog, -⟩ := hdoes
      rw [hlog, List.mem_append]
      refine Or.inl (List.mem_replicate.mpr ⟨fun h0 => htouch.mp h0 htouches, rfl⟩)
    refine hno _ hmem ?_
    rw [hl.once.resolve_left hclosed]
    exact List.mem_singleton_self _
  · intro hcare
    refine ⟨hw, hproper, fun b hb hmem => ?_⟩
    have hclosed : w.Closed := List.ne_nil_of_mem hmem
    have hn : n = 0 := htouch.mpr (hcare hclosed)
    obtain ⟨-, tail, hlog, htail⟩ := hdoes
    rw [hn, List.replicate_zero, List.nil_append] at hlog
    rcases htail with ⟨rfl, -⟩ | ⟨hc, -, -⟩
    · rw [hlog] at hb
      cases hb
    · exact hclosed (hl.connected hc)

theorem living_act (hl : Living w c) {a : Client.Action} (h : Client.step c a = some d) :
    Living { w with stage := .alive d, log := w.log ++ accesses c a d } d := by
  obtain ⟨n, hdoes, -⟩ := step_does h
  obtain ⟨-, hend⟩ := does_spec hdoes
  have hsock : d.mSocket = c.mSocket := hdoes.1
  have hrel : released (w.log ++ accesses c a d) = released w.log ++ released (accesses c a d) :=
    released_append _ _
  refine ⟨hsock ▸ hl.mSocket, fun hconn => ?_, ?_⟩
  · rcases hend with ⟨hnone, hcd⟩ | ⟨-, hd, -⟩
    · exact hrel.trans (by rw [hl.connected (hcd hconn), hnone]; rfl)
    · rw [hd] at hconn
      cases hconn
  · rw [hsock]
    rcases hend with ⟨hnone, -⟩ | ⟨hc, -, hone⟩
    · rw [hnone, List.append_nil] at hrel
      exact hl.once.imp hrel.trans hrel.trans
    · refine Or.inr (hrel.trans ?_)
      rw [hl.connected hc, hone]
      rfl

/-- **The destructor** closes the socket of a connected client only. -/
theorem closedOnce_destroy_iff (hl : Living w c) (hw : Proper w.log) (hstage : w.stage = .alive c)
    (poll : Option String) : (w.destroy c poll).ClosedOnce ↔ Careful w (.destroy poll) := by
  have hcareful : Careful w (.destroy poll) ↔ c.mConnected = true ∨ w.Closed := by
    refine ⟨fun h => h c hstage, fun h c' hc' => ?_⟩
    rw [hstage, Stage.alive.injEq] at hc'
    exact hc' ▸ h
  rw [hcareful]
  unfold destroy Client.destroy
  by_cases hconn : c.mConnected = true
  · rw [if_pos hconn]
    have hnone := hl.connected hconn
    refine iff_of_true ?_ (Or.inl hconn)
    unfold disconnect
    rw [if_pos hconn]
    cases poll with
    | some strerror =>
      refine ⟨hw, fun hover => ?_⟩
      rcases hover with h | ⟨what, h⟩ <;> cases h
    | none =>
      have hlog : accesses c (.call (.disconnect none))
          ({ c with mConnected := false }.record [.closed c.mSocket]).performWakeup =
            closing c.mSocket := by
        unfold accesses performWakeup record
        rw [List.drop_left]
        rfl
      simp only [hlog]
      refine ⟨proper_append.mpr ⟨hw, proper_closing _, fun a _ => ?_⟩, fun _ mSocket hsock => ?_⟩
      · rw [hnone]
        exact List.not_mem_nil
      · rw [hl.mSocket, Option.some.injEq] at hsock
        rw [released_append, hnone, hsock]
        rfl
  · rw [if_neg hconn, or_iff_right hconn]
    have hlog : accesses c (.call (.disconnect poll)) c = [] := by
      unfold accesses
      rw [List.drop_length]
      rfl
    simp only [hlog, List.append_nil]
    constructor
    · rintro ⟨-, hclosed⟩
      unfold Closed
      rw [hclosed (Or.inl rfl) c.mSocket hl.mSocket]
      exact List.cons_ne_nil _ _
    · intro hclosed
      refine ⟨hw, fun _ mSocket hsock => ?_⟩
      rw [hl.mSocket, Option.some.injEq] at hsock
      rw [← hsock]
      exact hl.once.resolve_left hclosed

/-! ### Runs -/

theorem step_construct {answers : Construction} (h : step w (.construct answers) = some v) :
    w.stage = .unbuilt ∧ v = w.construct answers := by
  simp only [step] at h
  split at h
  · rename_i hstage
    cases h
    exact ⟨hstage, rfl⟩
  · cases h

theorem step_act {a : Client.Action} (h : step w (.act a) = some v) :
    ∃ c d, w.stage = .alive c ∧ Client.step c a = some d ∧
      v = { w with stage := .alive d, log := w.log ++ accesses c a d } := by
  simp only [step] at h
  split at h
  · rename_i c hstage
    obtain ⟨d, hd, rfl⟩ := Option.map_eq_some_iff.mp h
    exact ⟨c, d, hstage, hd, rfl⟩
  · cases h

theorem step_destroy {poll : Option String} (h : step w (.destroy poll) = some v) :
    ∃ c, w.stage = .alive c ∧ v = w.destroy c poll := by
  simp only [step] at h
  split at h
  · rename_i c hstage
    split_ifs at h
    cases h
    exact ⟨c, hstage, rfl⟩
  · cases h

theorem inv_step {a : Action} (hw : Inv w) (h : step w a = some v) : Inv v := by
  cases a with
  | construct answers =>
    obtain ⟨hstage, rfl⟩ := step_construct h
    have hlog := hw.1 hstage
    constructor
    · intro hv
      have hv' : (match (Client.construct answers).1 with
        | .ok c => Stage.alive c
        | .error what => .thrown what) = .unbuilt := hv
      split at hv' <;> cases hv'
    · intro c hc
      have hc' : (match (Client.construct answers).1 with
        | .ok c => Stage.alive c
        | .error what => .thrown what) = .alive c := hc
      split at hc'
      · rename_i c' hr
        rw [Stage.alive.injEq] at hc'
        exact living_construct hlog (hc' ▸ hr)
      · cases hc'
  | act a =>
    obtain ⟨c, d, hstage, hd, rfl⟩ := step_act h
    refine ⟨fun hv => (by cases hv), fun c' hc' => ?_⟩
    obtain rfl := Stage.alive.inj hc'
    exact living_act (hw.2 c hstage) hd
  | destroy poll =>
    obtain ⟨c, -, rfl⟩ := step_destroy h
    unfold destroy
    split
    · exact ⟨fun hv => (by cases hv), fun _ hc => by cases hc⟩
    · exact ⟨fun hv => (by cases hv), fun _ hc => by cases hc⟩

theorem closedOnce_step_iff {a : Action} (hw : Inv w) (hclosed : w.ClosedOnce)
    (h : step w a = some v) : v.ClosedOnce ↔ Careful w a := by
  cases a with
  | construct answers =>
    obtain ⟨hstage, rfl⟩ := step_construct h
    exact closedOnce_construct_iff (hw.1 hstage) answers
  | act a =>
    obtain ⟨c, d, hstage, hd, rfl⟩ := step_act h
    exact closedOnce_act_iff (hw.2 c hstage) hclosed.1 hstage hd
  | destroy poll =>
    obtain ⟨c, hstage, rfl⟩ := step_destroy h
    exact closedOnce_destroy_iff (hw.2 c hstage) hclosed.1 hstage poll

/-- **The socket of a client is closed exactly once, and not used behind that**, exactly in the runs
in which the constructor fails at the creation of the socket only, the loop comes to no system call
on a closed socket, and the object is destroyed connected or closed. -/
theorem closed_once_iff (as : List Action) :
    Always step ClosedOnce start as ↔ Along step Careful start as :=
  always_iff_along (I := Inv) (fun _ _ _ hI _ hs _ => inv_step hI hs)
    (fun _ _ _ hI hP hs => closedOnce_step_iff hI hP hs) as
    ⟨fun _ => rfl, fun _ h => by cases h⟩
    ⟨proper_nil, fun _ _ h => by cases h⟩

/-- A constructor that succeeds on socket 3. -/
def constructed : Construction :=
  { mCallback := true, mIdentifier := [97], mMasterWrite := ∅, socket := .ok 3, inet_pton := .ok ()
    connect := none, pipe := .ok (4, 5) }

/-- **The server closes first**: the receive of no bytes clears `mConnected`, and the socket is
never closed; **a constructor that fails in `connect`** leaves it open; and **a `disconnect` in
`receiveComplete`** is followed by the `::send` of the same pass, on the closed socket. -/
theorem closed_once_fails :
    (∃ w, run step start [.construct constructed, .act .waitForEvents,
        .act (.select (some ({3}, ∅))), .act (.read (.bytes []) ⟨[], .returns⟩),
        .act (.write 0 ⟨[], .returns⟩), .destroy none] = some w ∧
      w.stage = .destroyed ∧ w.mSocket = some 3 ∧ released w.log = [] ∧ ¬ w.ClosedOnce) ∧
    (∃ w, run step start [.construct { constructed with connect := some "" }] = some w ∧
      w.mSocket = some 3 ∧ released w.log = [] ∧ ¬ w.ClosedOnce) ∧
    ∃ w, run step start [.construct constructed, .act .waitForEvents,
        .act (.call (.sendDataToServer [104])), .act (.select (some ({3}, {3}))),
        .act (.read (.bytes [105]) ⟨[.disconnect none], .returns⟩),
        .act (.write (-1) ⟨[], .returns⟩)] = some w ∧
      released w.log = [3] ∧ ¬ w.ClosedOnce := by
  refine ⟨⟨_, rfl, rfl, rfl, rfl, fun h => ?_⟩, ⟨_, rfl, rfl, rfl, fun h => ?_⟩,
    ⟨_, rfl, rfl, fun h => ?_⟩⟩
  · cases h.2 (Or.inl rfl) 3 rfl
  · cases h.2 (Or.inr ⟨_, rfl⟩) 3 rfl
  · exact absurd h.1 (by decide)

end Life

end C11Http.Posix
