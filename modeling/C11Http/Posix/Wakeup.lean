import C11Http.Lib.SelfPipe
import C11Http.Posix.Branches
import C11Http.Posix.Client

/-! # The self-pipes of the posix server and client

`performWakeup` and the wakeup branch of the two event loops, as loops of `Lib.SelfPipe`. The models
of the loops count the wakeups (`pipeBytes`), and the wakeup branch reads the pipe at the end of the
read branch. The loops wake as they should exactly as long as no pass sees the pipe readable
(`selfPipes_wake_iff`): after one wakeup before a pass the byte stays in the pipe for good
(`selfPipes_undrained`). -/

namespace C11Http.Posix

open C11Http.Lib C11Http.Lib.Run SelfPipe.Loop

namespace Server

variable {s t : Server}

/-! ### The wakeups of the server -/

theorem pipeBytes_sendConnections (data : Bytes) : ∀ (ps : List Ptr) (s : Server),
    (ps.foldl (fun s connection => s.sendConnection data connection) s).pipeBytes = s.pipeBytes
  | [], _ => rfl
  | p :: ps, s => pipeBytes_sendConnections data ps (s.sendConnection data p)

theorem pipeBytes_call (s : Server) (c : Call) : s.pipeBytes ≤ (s.call c).pipeBytes := by
  cases c with
  | send data identifier =>
    simp only [call, send]
    split
    · exact le_rfl
    · exact Nat.le_succ _
  | broadcast data =>
    show s.pipeBytes ≤ (_ : Server).pipeBytes + 1
    rw [pipeBytes_sendConnections]
    exact Nat.le_succ _
  | shutdown => exact Nat.le_succ _

theorem pipeBytes_calls : ∀ (cs : List Call) (s : Server),
    s.pipeBytes ≤ (cs.foldl call s).pipeBytes
  | [], _ => le_rfl
  | c :: cs, s => (pipeBytes_call s c).trans (pipeBytes_calls cs (s.call c))

theorem pipeBytes_react (s : Server) (r : Reaction Call) : s.pipeBytes ≤ (s.react r).pipeBytes := by
  have h := pipeBytes_calls r.calls s
  unfold react
  cases r.outcome with
  | returns => exact h
  | runtimeError => exact h
  | other => exact h

theorem pipeBytes_removeServerConnection (s : Server) (sckt : Fd) :
    (s.removeServerConnection sckt).pipeBytes = s.pipeBytes := by
  unfold removeServerConnection
  split <;> rfl

theorem pipeBytes_goto (s : Server) (pc : Pc) : (s.goto pc).pipeBytes = s.pipeBytes := by
  unfold goto
  split <;> rfl

theorem pipeBytes_acceptBranch (s : Server) (a : Attempt) (connected : Reaction Call) :
    s.pipeBytes ≤ (s.acceptBranch a connected).pipeBytes := by
  have h : ∀ client, s.pipeBytes ≤ (s.greeting a client connected).pipeBytes := fun client =>
    pipeBytes_react (((s.accepting a).allocate client).record _) connected
  exact acceptBranch_rule (P := fun t => s.pipeBytes ≤ t.pipeBytes) (fun _ _ => le_rfl)
    (fun _ _ _ => le_rfl) (fun client _ _ _ => h client) (fun client _ _ _ => h client)
    (fun client _ _ _ => h client)

theorem pipeBytes_dropConnection (s : Server) (sckt : Fd) (p : Ptr) (r : Reaction Call) :
    s.pipeBytes ≤ (s.dropConnection sckt p r).pipeBytes := by
  have h : s.pipeBytes ≤ (s.disconnect p r).pipeBytes := pipeBytes_react (s.record _) r
  refine dropConnection_rule (P := fun t => s.pipeBytes ≤ t.pipeBytes) (fun _ => ?_)
    (fun _ _ => ?_) (fun _ _ => h)
  · rw [pipeBytes_removeServerConnection]
  · rw [pipeBytes_removeServerConnection]
    exact h

theorem pipeBytes_handleServerConnection (s : Server) (sckt : Fd) (e : Reading) :
    s.pipeBytes ≤ (s.handleServerConnection sckt e).pipeBytes := by
  have h : ∀ p data,
      s.pipeBytes ≤ ((s.receiving p e.recv).deliver p data e.receiveComplete).pipeBytes :=
    fun p data => pipeBytes_react ((s.receiving p e.recv).record _) e.receiveComplete
  exact handleServerConnection_rule (P := fun t => s.pipeBytes ≤ t.pipeBytes) (fun _ => le_rfl)
    (fun p _ _ _ => pipeBytes_dropConnection (s.receiving p e.recv) sckt p e.disconnected)
    (fun _ _ _ _ _ => le_rfl) (fun p data _ _ _ _ => h p data)
    (fun p data _ _ _ _ => (h p data).trans (pipeBytes_dropConnection _ sckt p e.disconnected))
    (fun p data _ _ _ _ => h p data)

theorem pipeBytes_writeBranch (s : Server) (hpc : s.pc ≠ .halted) (i : Fd) (e : Writing) :
    s.pipeBytes ≤ (s.writeBranch i e).pipeBytes := by
  have h : ∀ p count,
      s.pipeBytes ≤ ((s.handing p e.result).report p count e.sendComplete).pipeBytes :=
    fun p count => pipeBytes_react ((s.handing p e.result).record _) e.sendComplete
  exact writeBranch_rule (P := fun t => s.pipeBytes ≤ t.pipeBytes) hpc (fun _ => le_rfl)
    (fun _ _ _ => le_rfl) (fun _ _ _ _ _ => le_rfl) (fun p count _ _ _ _ => h p count)
    (fun p count _ _ _ _ => h p count)

/-- **A step of the server never takes a byte from its pipe.** -/
theorem pipeBytes_step {a : Action} (h : step s a = some t) : s.pipeBytes ≤ t.pipeBytes := by
  cases a with
  | call c =>
    obtain ⟨-, rfl⟩ := step_call h
    exact pipeBytes_call s c
  | select result =>
    obtain ⟨-, -, ⟨-, rfl⟩ | ⟨_, _, -, -, rfl⟩⟩ := step_select h
    · exact le_rfl
    · exact le_rfl
  | read a connected e =>
    obtain ⟨i, fdmax, readFds, writeFds, -, -, rfl⟩ := step_read h
    rw [pipeBytes_goto]
    unfold readBranch
    split_ifs
    · exact pipeBytes_acceptBranch s a connected
    · exact pipeBytes_handleServerConnection s i e
    · exact le_rfl
  | write e =>
    obtain ⟨i, fdmax, readFds, writeFds, hpc, -, rfl⟩ := step_write h
    have hne : s.pc ≠ .halted := by rw [hpc]; exact fun h => Pc.noConfusion h
    rw [pipeBytes_goto]
    split_ifs
    · exact pipeBytes_writeBranch s hne i e
    · exact le_rfl

/-- What a `select` that returns says of the self-pipe. -/
def sees (s : Server) : Action → Option Bool
  | .select (some (readFds, _)) => some (decide (s.mWakeupPipe.1 ∈ readFds))
  | _ => none

/-- Whether the wakeup branch reads the self-pipe, behind the read branch of a descriptor. -/
def clears (s : Server) (a : Action) (t : Server) : Bool :=
  match a, s.pc with
  | .read _ _ _, .scan _ _ readFds _ .read =>
    decide (s.mWakeupPipe.1 ∈ readFds ∧ t.pc ≠ .halted)
  | _, _ => false

theorem between_of_sees {a : Action} {b : Bool} (h : step s a = some t) (hs : s.sees a = some b) :
    decide (s.pc = .top) = true ∧ decide (t.pc = .top) = false := by
  cases a with
  | select result =>
    obtain ⟨hpc, -, ⟨rfl, -⟩ | ⟨_, _, -, -, rfl⟩⟩ := step_select h
    · cases hs
    · exact ⟨decide_eq_true hpc, rfl⟩
  | call c => cases hs
  | read a connected e => cases hs
  | write e => cases hs

/-- The server as a loop with a self-pipe. -/
def selfPipe : SelfPipe.Loop Server Action where
  step := step
  wakeups s := s.pipeBytes
  between s := decide (s.pc = .top)
  sees := sees
  clears := clears
  wakeups_le := pipeBytes_step
  between_of_sees := between_of_sees

end Server

namespace Client

variable {c d : Client}

/-! ### The wakeups of the client -/

theorem pipeBytes_call (c : Client) (k : ClientCall) : c.pipeBytes ≤ (c.call k).pipeBytes := by
  cases k with
  | sendDataToServer data =>
    simp only [call, sendDataToServer]
    split
    · exact Nat.le_succ _
    · exact le_rfl
  | disconnect poll =>
    simp only [call, disconnect]
    split_ifs
    · cases poll with
      | none => exact Nat.le_succ _
      | some strerror => exact le_rfl
    · exact le_rfl

theorem pipeBytes_calls : ∀ (ks : List ClientCall) (c : Client),
    c.pipeBytes ≤ (ks.foldl call c).pipeBytes
  | [], _ => le_rfl
  | k :: ks, c => (pipeBytes_call c k).trans (pipeBytes_calls ks (c.call k))

theorem pipeBytes_react (c : Client) (r : Reaction ClientCall) :
    c.pipeBytes ≤ (c.react r).pipeBytes := by
  have h := pipeBytes_calls r.calls c
  unfold react
  cases r.outcome with
  | returns => exact h
  | runtimeError => exact h
  | other => exact h

theorem pipeBytes_readBranch (c : Client) (recv : Recv) (r : Reaction ClientCall) :
    c.pipeBytes ≤ (c.readBranch recv r).pipeBytes := by
  have h : ∀ data, c.pipeBytes ≤ ((c.record [.received recv.data]).deliver data r).pipeBytes :=
    fun data => pipeBytes_react ((c.record _).record _) r
  cases recv with
  | failed strerror => exact le_rfl
  | bytes data =>
    simp only [readBranch]
    split_ifs
    · exact le_rfl
    · cases r.outcome with
      | returns => exact h data
      | runtimeError => exact h data
      | other => exact h data
    · exact le_rfl

theorem pipeBytes_writeBranch (c : Client) (result : ℤ) (r : Reaction ClientCall) :
    c.pipeBytes ≤ (c.writeBranch result r).pipeBytes := by
  have h : c.pipeBytes ≤ ((c.handing result).report (expected c.mOutgoingBytes) r).pipeBytes :=
    pipeBytes_react ((c.handing result).record _) r
  simp only [writeBranch]
  split_ifs
  · cases r.outcome with
    | returns => exact h
    | runtimeError => exact h
    | other => exact h
  · exact le_rfl

theorem pipeBytes_goto (c : Client) (pc : ClientPc) : (c.goto pc).pipeBytes = c.pipeBytes := by
  unfold goto
  split <;> rfl

/-- **A step of the client never takes a byte from its pipe.** -/
theorem pipeBytes_step {a : Action} (h : step c a = some d) : c.pipeBytes ≤ d.pipeBytes := by
  cases a with
  | call k =>
    cases h
    exact pipeBytes_call c k
  | waitForEvents =>
    simp only [step] at h
    split_ifs at h
    cases h
    exact le_rfl
  | select result =>
    simp only [step] at h
    split_ifs at h
    rcases result with _ | ⟨readFds, writeFds⟩
    · cases h
      exact le_rfl
    · simp only at h
      split_ifs at h
      cases h
      exact le_rfl
  | read recv r =>
    simp only [step] at h
    split at h
    · split_ifs at h
      · cases h
        rw [pipeBytes_goto]
        exact pipeBytes_readBranch c recv r
      · cases h
        rw [pipeBytes_goto]
    · cases h
  | write result r =>
    simp only [step] at h
    split at h
    · split_ifs at h
      · cases h
        rw [pipeBytes_goto]
        exact pipeBytes_writeBranch c result r
      · cases h
        rw [pipeBytes_goto]
    · cases h

/-- What a `select` that returns says of the self-pipe. -/
def sees (c : Client) : Action → Option Bool
  | .select (some (readFds, _)) => some (decide (c.mWakeupPipe.1 ∈ readFds))
  | _ => none

/-- Whether the wakeup branch reads the self-pipe, behind the read branch. -/
def clears (c : Client) (a : Action) (d : Client) : Bool :=
  match a, c.pc with
  | .read _ _, .read readFds _ => decide (c.mWakeupPipe.1 ∈ readFds ∧ d.pc ≠ .left)
  | _, _ => false

theorem between_of_sees {a : Action} {b : Bool} (h : step c a = some d) (hs : c.sees a = some b) :
    decide (c.pc = .top) = true ∧ decide (d.pc = .top) = false := by
  cases a with
  | select result =>
    rcases result with _ | ⟨readFds, writeFds⟩
    · cases hs
    · simp only [step] at h
      split_ifs at h with htop
      cases h
      exact ⟨decide_eq_true htop.1, rfl⟩
  | call k => cases hs
  | waitForEvents => cases hs
  | read recv r => cases hs
  | write result r => cases hs

/-- The client as a loop with a self-pipe. -/
def selfPipe : SelfPipe.Loop Client Action where
  step := step
  wakeups c := c.pipeBytes
  between c := decide (c.pc = .top)
  sees := sees
  clears := clears
  wakeups_le := pipeBytes_step
  between_of_sees := between_of_sees

end Client

/-! ### The pipes of both -/

/-- **The self-pipes of the server and of the client**, over runs that begin with an empty pipe. If
no pass sees the pipe readable, the pipe is drained and wakeups that are few do not block; a run
that ends between two passes has this only then. Over every run the pipe keeps a byte for every
wakeup, and the one that is too many for it blocks. -/
theorem selfPipes_wake_iff (capacity : ℕ) (s : Server) (as : List Server.Action) (c : Client)
    (bs : List Client.Action) :
    ((Along (Server.selfPipe.watch capacity) Server.selfPipe.Unseen (start s) as →
        Server.selfPipe.Wakes capacity (start s) as) ∧
      (∀ v, run (Server.selfPipe.watch capacity) (start s) as = some v → v.state.pc = .top →
        (Server.selfPipe.Wakes capacity (start s) as ↔
          Along (Server.selfPipe.watch capacity) Server.selfPipe.Unseen (start s) as)) ∧
      Always (Server.selfPipe.watch capacity) (Server.selfPipe.Full capacity s) (start s) as) ∧
    ((Along (Client.selfPipe.watch capacity) Client.selfPipe.Unseen (start c) bs →
        Client.selfPipe.Wakes capacity (start c) bs) ∧
      (∀ v, run (Client.selfPipe.watch capacity) (start c) bs = some v → v.state.pc = .top →
        (Client.selfPipe.Wakes capacity (start c) bs ↔
          Along (Client.selfPipe.watch capacity) Client.selfPipe.Unseen (start c) bs)) ∧
      Always (Client.selfPipe.watch capacity) (Client.selfPipe.Full capacity c) (start c) bs) := by
  refine ⟨⟨wakes_of_unseen, fun v hrun htop => ?_, always_full s as⟩,
    ⟨wakes_of_unseen, fun v hrun htop => ?_, always_full c bs⟩⟩
  · exact wakes_iff_unseen hrun (decide_eq_true htop)
  · exact wakes_iff_unseen hrun (decide_eq_true htop)

/-- The state of a server that listens on descriptor 3, and a client on descriptor 3. -/
def idleServer : Server := Server.waitForEvents Server.listening

def idleClient : Client := { Client.connected true [97] 3 (4, 5) ∅ with pc := .top }

/-- One wakeup before a pass in which nothing but the pipe is ready. -/
def wakeServer : List Server.Action :=
  .call (.broadcast []) :: .select (some ({4}, ∅)) :: Server.skip 5

def wakeClient : List Client.Action :=
  [.call (.sendDataToServer [104]), .select (some ({4}, ∅)), .read (.bytes []) ⟨[], .returns⟩,
    .write 0 ⟨[], .returns⟩]

/-- Wakeups behind the last pass. -/
def tellServer : List Server.Action :=
  .select (some (∅, ∅)) :: Server.skip 5 ++ [.call (.broadcast []), .call (.broadcast [])]

def tellClient : List Client.Action :=
  [.select (some (∅, ∅)), .read (.bytes []) ⟨[], .returns⟩, .write 0 ⟨[], .returns⟩,
    .call (.sendDataToServer [104]), .call (.sendDataToServer [105])]

/-- The pipe is drained and no wakeup blocks while the wakeups have not been seen. -/
theorem selfPipes_wake_iff_idle :
    (∃ v, run (Server.selfPipe.watch 65536) (start idleServer) tellServer = some v ∧
      v.state.pc = .top ∧ v.held = 2) ∧
    (∃ v, run (Client.selfPipe.watch 65536) (start idleClient) tellClient = some v ∧
      v.state.pc = .top ∧ v.held = 2) ∧
    Server.selfPipe.Wakes 65536 (start idleServer) tellServer ∧
    Client.selfPipe.Wakes 65536 (start idleClient) tellClient := by
  have h := selfPipes_wake_iff 65536 idleServer tellServer idleClient tellClient
  exact ⟨exists_run _ _ _ _ (by decide), exists_run _ _ _ _ (by decide), h.1.1 (by decide),
    h.2.1 (by decide)⟩

/-- **After one wakeup the byte stays in the pipe**: the pass that saw it readable ends with one
byte in the pipe and none written since. -/
theorem selfPipes_undrained :
    (∃ v, run (Server.selfPipe.watch 65536) (start idleServer) wakeServer = some v ∧
      v.state.pc = .top ∧ v.seen = true ∧ v.held = 1 ∧ v.written = 0 ∧
        ¬ Server.selfPipe.Drained v) ∧
    ∃ v, run (Client.selfPipe.watch 65536) (start idleClient) wakeClient = some v ∧
      v.state.pc = .top ∧ v.seen = true ∧ v.held = 1 ∧ v.written = 0 ∧
        ¬ Client.selfPipe.Drained v :=
  ⟨exists_run _ _ _ _ (by decide), exists_run _ _ _ _ (by decide)⟩

end C11Http.Posix
