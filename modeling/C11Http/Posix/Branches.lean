import C11Http.Posix.Calls

/-! # Rules for the branches of the loop

What has to be shown so that a property holds after a branch of the loop of the posix server: one
premise for every way through the branch. What each action of `step` requires and does, and what the
parts of a step leave alone. -/

namespace C11Http.Posix.Server

open Connections

variable {P : Server → Prop} {s t : Server}

/-! ### What the parts of a step leave alone -/

@[simp] theorem goto_mMasterWrite (s : Server) (pc : Pc) :
    (s.goto pc).mMasterWrite = s.mMasterWrite := by
  unfold goto
  split <;> rfl

@[simp] theorem goto_mConnections (s : Server) (pc : Pc) :
    (s.goto pc).mConnections = s.mConnections := by
  unfold goto
  split <;> rfl

@[simp] theorem goto_heap (s : Server) (pc : Pc) : (s.goto pc).heap = s.heap := by
  unfold goto
  split <;> rfl

theorem goto_pc (s : Server) (pc : Pc) : (s.goto pc).pc = .halted ∨ (s.goto pc).pc = pc := by
  unfold goto
  split
  · rename_i h
    exact Or.inl h
  · exact Or.inr rfl

@[simp] theorem goto_nextPtr (s : Server) (pc : Pc) : (s.goto pc).nextPtr = s.nextPtr := by
  unfold goto
  split <;> rfl

/-- What `removeServerConnection` makes of the server, in terms of the registry. -/
theorem removeServerConnection_mConnections (s : Server) (sckt : Fd) :
    (s.removeServerConnection sckt).mConnections =
      (s.mConnections.removeServerConnection s.heap sckt).1 := by
  unfold removeServerConnection
  split <;> rename_i h <;> rw [h]

@[simp] theorem removeServerConnection_heap (s : Server) (sckt : Fd) :
    (s.removeServerConnection sckt).heap = s.heap := by
  unfold removeServerConnection
  split <;> rfl

@[simp] theorem removeServerConnection_nextPtr (s : Server) (sckt : Fd) :
    (s.removeServerConnection sckt).nextPtr = s.nextPtr := by
  unfold removeServerConnection
  split <;> rfl

@[simp] theorem removeServerConnection_mMasterWrite (s : Server) (sckt : Fd) :
    (s.removeServerConnection sckt).mMasterWrite = s.mMasterWrite := by
  unfold removeServerConnection
  split <;> rfl

theorem removeServerConnection_mCallback (s : Server) (sckt : Fd) :
    (s.removeServerConnection sckt).mConnectSocket = s.mConnectSocket ∧
      (s.removeServerConnection sckt).mCallback = s.mCallback := by
  unfold removeServerConnection
  split <;> exact ⟨rfl, rfl⟩

theorem removeServerConnection_trace (s : Server) (sckt : Fd) :
    s.trace <+: (s.removeServerConnection sckt).trace := by
  unfold removeServerConnection
  split
  · exact List.prefix_rfl
  · exact List.prefix_append _ _

/-! ### The accept branch -/

/-- The server while `connected` is delivered for a new object. -/
def greeting (s : Server) (a : Attempt) (client : ServerConnection) (connected : Reaction Call) :
    Server :=
  ((s.accepting a).allocate client).connect s.nextPtr connected

theorem acceptBranch_rule {a : Attempt} {connected : Reaction Call}
    (rejected : ∀ what, a.construct = .error what → P (s.accepting a))
    (null : ∀ client, a.construct = .ok client → s.mCallback = false →
      P ((s.accepting a).allocate client).halt)
    (registered : ∀ client, a.construct = .ok client → s.mCallback = true →
      connected.outcome = .returns →
      P ((s.greeting a client connected).addServerConnection s.nextPtr))
    (swallowed : ∀ client, a.construct = .ok client → s.mCallback = true →
      connected.outcome = .runtimeError → P (s.greeting a client connected))
    (escaped : ∀ client, a.construct = .ok client → s.mCallback = true →
      connected.outcome = .other → P (s.greeting a client connected).halt) :
    P (s.acceptBranch a connected) := by
  unfold acceptBranch
  cases ha : a.construct with
  | error what => exact rejected what ha
  | ok client =>
    by_cases hcb : s.mCallback = true
    · have hcb' : ((s.accepting a).allocate client).mCallback = true := hcb
      simp only [if_pos hcb']
      cases ho : connected.outcome with
      | returns => exact registered client ha hcb ho
      | runtimeError => exact swallowed client ha hcb ho
      | other => exact escaped client ha hcb ho
    · have hcb' : ¬ ((s.accepting a).allocate client).mCallback = true := hcb
      simp only [if_neg hcb']
      exact null client ha (by simpa using hcb)

/-! ### The read branch -/

theorem dropConnection_rule {sckt : Fd} {p : Ptr} {disconnected : Reaction Call}
    (silent : s.mCallback = false → P (s.removeServerConnection sckt))
    (reported : s.mCallback = true → disconnected.outcome = .returns →
      P ((s.disconnect p disconnected).removeServerConnection sckt))
    (escaped : s.mCallback = true → disconnected.outcome ≠ .returns →
      P (s.disconnect p disconnected).halt) :
    P (s.dropConnection sckt p disconnected) := by
  unfold dropConnection
  by_cases hcb : s.mCallback = true
  · rw [if_pos hcb]
    cases ho : disconnected.outcome with
    | returns => exact reported hcb ho
    | runtimeError => exact escaped hcb (by rw [ho]; decide)
    | other => exact escaped hcb (by rw [ho]; decide)
  · rw [if_neg hcb]
    exact silent (by simpa using hcb)

theorem handleServerConnection_rule {sckt : Fd} {e : Reading}
    (unknown : s.mConnections.getServerConnection s.heap sckt = none → P s)
    (failed : ∀ p what, s.mConnections.getServerConnection s.heap sckt = some p →
      ((s.heap p).performReceive e.recv).2 = .error what →
      P ((s.receiving p e.recv).dropConnection sckt p e.disconnected))
    (silent : ∀ p data, s.mConnections.getServerConnection s.heap sckt = some p →
      ((s.heap p).performReceive e.recv).2 = .ok data → s.mCallback = false →
      P (s.receiving p e.recv))
    (delivered : ∀ p data, s.mConnections.getServerConnection s.heap sckt = some p →
      ((s.heap p).performReceive e.recv).2 = .ok data → s.mCallback = true →
      e.receiveComplete.outcome = .returns →
      P ((s.receiving p e.recv).deliver p data e.receiveComplete))
    (thrown : ∀ p data, s.mConnections.getServerConnection s.heap sckt = some p →
      ((s.heap p).performReceive e.recv).2 = .ok data → s.mCallback = true →
      e.receiveComplete.outcome = .runtimeError →
      P (((s.receiving p e.recv).deliver p data e.receiveComplete).dropConnection sckt p
        e.disconnected))
    (escaped : ∀ p data, s.mConnections.getServerConnection s.heap sckt = some p →
      ((s.heap p).performReceive e.recv).2 = .ok data → s.mCallback = true →
      e.receiveComplete.outcome = .other →
      P ((s.receiving p e.recv).deliver p data e.receiveComplete).halt) :
    P (s.handleServerConnection sckt e) := by
  unfold handleServerConnection
  cases hp : s.mConnections.getServerConnection s.heap sckt with
  | none => exact unknown hp
  | some p =>
    cases hr : ((s.heap p).performReceive e.recv).2 with
    | error what =>
      simp only [hr]
      exact failed p what hp hr
    | ok data =>
      by_cases hcb : s.mCallback = true
      · have hcb' : (s.receiving p e.recv).mCallback = true := hcb
        simp only [hr, if_pos hcb']
        cases ho : e.receiveComplete.outcome with
        | returns => exact delivered p data hp hr hcb ho
        | runtimeError => exact thrown p data hp hr hcb ho
        | other => exact escaped p data hp hr hcb ho
      · have hcb' : ¬ (s.receiving p e.recv).mCallback = true := hcb
        simp only [hr, if_neg hcb']
        exact silent p data hp hr (by simpa using hcb)

/-! ### The write branch -/

theorem report_pc (s : Server) (p : Ptr) (count : ℕ) (sendComplete : Reaction Call) :
    (s.report p count sendComplete).pc = s.pc :=
  (called_react (s.record [.sendComplete p (s.heap p).mIdentifier count]) sendComplete).pc

theorem complete_rule {p : Ptr} {sendComplete : Reaction Call} {count : Option ℕ}
    (short : count = none → P s)
    (null : ∀ n, count = some n → s.mCallback = false → P s.halt)
    (reported : ∀ n, count = some n → s.mCallback = true → sendComplete.outcome = .returns →
      P (s.report p n sendComplete))
    (escaped : ∀ n, count = some n → s.mCallback = true → sendComplete.outcome ≠ .returns →
      P (s.report p n sendComplete).halt) :
    P (s.complete p sendComplete count) := by
  rcases count with _ | n
  · exact short rfl
  · unfold complete
    by_cases hcb : s.mCallback = true
    · simp only [if_pos hcb]
      cases ho : sendComplete.outcome with
      | returns => exact reported n rfl hcb ho
      | runtimeError => exact escaped n rfl hcb (by rw [ho]; decide)
      | other => exact escaped n rfl hcb (by rw [ho]; decide)
    · simp only [if_neg hcb]
      exact null n rfl (by simpa using hcb)

theorem writeBranch_rule {i : Fd} {e : Writing} (hpc : s.pc ≠ .halted)
    (unknown : s.mConnections.getServerConnection s.heap i = none → P (s.unwatch i))
    (short : ∀ p, s.mConnections.getServerConnection s.heap i = some p →
      ((s.heap p).sendQueuedMessage e.result).2.2 = none → P ((s.handing p e.result).unwatch i))
    (null : ∀ p count, s.mConnections.getServerConnection s.heap i = some p →
      ((s.heap p).sendQueuedMessage e.result).2.2 = some count → s.mCallback = false →
      P (s.handing p e.result).halt)
    (reported : ∀ p count, s.mConnections.getServerConnection s.heap i = some p →
      ((s.heap p).sendQueuedMessage e.result).2.2 = some count → s.mCallback = true →
      e.sendComplete.outcome = .returns →
      P (((s.handing p e.result).report p count e.sendComplete).unwatch i))
    (escaped : ∀ p count, s.mConnections.getServerConnection s.heap i = some p →
      ((s.heap p).sendQueuedMessage e.result).2.2 = some count → s.mCallback = true →
      e.sendComplete.outcome ≠ .returns →
      P ((s.handing p e.result).report p count e.sendComplete).halt) :
    P (s.writeBranch i e) := by
  unfold writeBranch
  cases hp : s.mConnections.getServerConnection s.heap i with
  | none => exact unknown hp
  | some p =>
    refine complete_rule (P := fun u => P (if u.pc = .halted then u else u.unwatch i))
      (fun hc => ?_) (fun count hc hcb => ?_) (fun count hc hcb ho => ?_)
      (fun count hc hcb ho => ?_)
    · have hpc' : (s.handing p e.result).pc ≠ .halted := hpc
      rw [if_neg hpc']
      exact short p hp hc
    · exact null p count hp hc hcb
    · have hpc' : ((s.handing p e.result).report p count e.sendComplete).pc ≠ .halted := by
        rw [report_pc]; exact hpc
      rw [if_neg hpc']
      exact reported p count hp hc hcb ho
    · exact escaped p count hp hc hcb ho

/-! ### The actions -/

theorem step_call {c : Call} (h : step s (.call c) = some t) : s.pc = .top ∧ t = s.call c := by
  simp only [step] at h
  split_ifs at h with hpc
  cases h
  exact ⟨hpc, rfl⟩

theorem step_select {result : Option (Finset Fd × Finset Fd)}
    (h : step s (.select result) = some t) :
    s.pc = .top ∧ s.mHasBeenShutdown = false ∧ (result = none ∧ t = s.halt ∨
      ∃ readFds writeFds, result = some (readFds, writeFds) ∧ s.Selectable readFds writeFds ∧
        t = { s with pc := .scan 0 s.fdmax readFds writeFds .read }) := by
  simp only [step] at h
  split_ifs at h with htop
  refine ⟨htop.1, htop.2, ?_⟩
  rcases result with _ | ⟨readFds, writeFds⟩
  · cases h
    exact Or.inl ⟨rfl, rfl⟩
  · simp only at h
    split_ifs at h with hsel
    cases h
    exact Or.inr ⟨readFds, writeFds, rfl, hsel, rfl⟩

theorem step_read {a : Attempt} {connected : Reaction Call} {e : Reading}
    (h : step s (.read a connected e) = some t) :
    ∃ i fdmax readFds writeFds, s.pc = .scan i fdmax readFds writeFds .read ∧ s.Readable a e ∧
      t = (s.readBranch i readFds a connected e).goto (.scan i fdmax readFds writeFds .write) := by
  simp only [step] at h
  split at h
  · rename_i i fdmax readFds writeFds hpc
    split_ifs at h with hr
    cases h
    exact ⟨i, fdmax, readFds, writeFds, hpc, hr, rfl⟩
  · cases h

theorem step_write {e : Writing} (h : step s (.write e) = some t) :
    ∃ i fdmax readFds writeFds, s.pc = .scan i fdmax readFds writeFds .write ∧ s.Writable i e ∧
      t = (if i ∈ writeFds then s.writeBranch i e else s).goto
        (if i < fdmax then .scan (i + 1) fdmax readFds writeFds .read else .top) := by
  simp only [step] at h
  split at h
  · rename_i i fdmax readFds writeFds hpc
    by_cases hw : s.Writable i e
    · rw [if_pos hw] at h
      cases h
      exact ⟨i, fdmax, readFds, writeFds, hpc, hw, rfl⟩
    · rw [if_neg hw] at h
      cases h
  · cases h

end C11Http.Posix.Server
