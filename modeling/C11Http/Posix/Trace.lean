import C11Http.Posix.Live

/-! # What a step writes into the trace

The loop itself receives, writes, deletes and calls the callback; what the callers do (`queued`, the
closing of the listening socket) and what a callback throws are left out by `ofLoop`. `happened`
lists the events of the loop in one step, from the state before it, and `trace_step` says that these
are what the step adds to them. Properties of the order of events are properties of these lists. -/

namespace C11Http.Posix

open Connections

/-- An event of the loop, not of a call, and not one that only comes with another. -/
def ofLoop : Event → Bool
  | .queued _ _ => false
  | .threw => false
  | .closed _ => false
  | _ => true

namespace Server

/-- The events of the loop so far. -/
def loopTrace (s : Server) : List Event := s.trace.filter ofLoop

/-- The removal of a connection. -/
def removed (s : Server) (sckt : Fd) : List Event :=
  match (s.mConnections.removeServerConnection s.heap sckt).2 with
  | none => []
  | some victim => [.deleted victim]

/-- The handler of `handleServerConnection`. -/
def dropped (s : Server) (sckt : Fd) (p : Ptr) (disconnected : Reaction Call) : List Event :=
  if s.mCallback then
    .disconnected p (s.heap p).mIdentifier ::
      if disconnected.outcome = .returns then s.removed sckt else []
  else s.removed sckt

/-- `handleServerConnection`. -/
def handled (s : Server) (sckt : Fd) (e : Reading) : List Event :=
  match s.mConnections.getServerConnection s.heap sckt with
  | none => []
  | some p => .received (s.heap p).mSocket e.recv.data ::
    if e.recv.data = [] then s.dropped sckt p e.disconnected
    else if s.mCallback then
      .receiveComplete p (s.heap p).mIdentifier e.recv.data ::
        if e.receiveComplete.outcome = .runtimeError then s.dropped sckt p e.disconnected else []
    else []

/-- A connection attempt. -/
def attempted (s : Server) (a : Attempt) : List Event :=
  a.events ++
    match a.construct with
    | .error _ => []
    | .ok client => if s.mCallback then [.connected s.nextPtr client.mIdentifier] else []

/-- The write branch. -/
def written (s : Server) (i : Fd) (e : Writing) : List Event :=
  match s.mConnections.getServerConnection s.heap i with
  | none => []
  | some p => .handed p (offered (s.heap p).mOutgoingBytes) e.result ::
    match ((s.heap p).sendQueuedMessage e.result).2.2 with
    | none => []
    | some count => if s.mCallback then [.sendComplete p (s.heap p).mIdentifier count] else []

/-- What the loop does in a step. -/
def happened (s : Server) : Action → List Event
  | .read attempt _ e =>
    match s.pc with
    | .scan i _ readFds _ .read =>
      if i ∈ readFds then
        if i = s.mConnectSocket then s.attempted attempt else s.handled i e
      else []
    | _ => []
  | .write e =>
    match s.pc with
    | .scan i _ _ writeFds .write => if i ∈ writeFds then s.written i e else []
    | _ => []
  | _ => []

/-- A function that sees only events of the loop sees them in the trace. -/
theorem filterMap_loopTrace {β : Type} {f : Event → Option β}
    (hf : ∀ e, ofLoop e = false → f e = none) (s : Server) :
    s.loopTrace.filterMap f = s.trace.filterMap f := by
  unfold loopTrace
  rw [List.filterMap_filter]
  congr 1
  funext e
  cases he : ofLoop e with
  | true => rfl
  | false => exact (hf e he).symm

/-! ### The parts of a step -/

theorem loopTrace_of_called {s t : Server} (h : Called s t) : t.loopTrace = s.loopTrace := by
  obtain ⟨es, he, hes⟩ := h.trace
  have hnil : es.filter ofLoop = [] := by
    rw [List.filter_eq_nil_iff]
    intro e hmem
    have hcall := hes e hmem
    cases e <;> first | exact hcall.elim | exact Bool.false_ne_true
  unfold loopTrace
  rw [he, List.filter_append, hnil, List.append_nil]

/-- A report to the callback, and what the callback does then. -/
theorem loopTrace_reported (s : Server) (e : Event) (r : Reaction Call) :
    ((s.record [e]).react r).loopTrace = s.loopTrace ++ [e].filter ofLoop := by
  rw [loopTrace_of_called (called_react _ r)]
  exact List.filter_append _ _

theorem loopTrace_receiving (s : Server) (p : Ptr) (r : Recv) :
    (s.receiving p r).loopTrace = s.loopTrace ++ [.received (s.heap p).mSocket r.data] :=
  List.filter_append _ _

theorem loopTrace_handing (s : Server) (p : Ptr) (result : ℤ) :
    (s.handing p result).loopTrace =
      s.loopTrace ++ [.handed p (offered (s.heap p).mOutgoingBytes) result] := by
  have hoffered : ((s.heap p).sendQueuedMessage result).2.1 =
      offered (s.heap p).mOutgoingBytes := by
    simp only [ServerConnection.sendQueuedMessage]
  unfold loopTrace handing
  rw [hoffered, List.filter_append, List.filter_cons_of_pos rfl, List.filter_nil]

theorem loopTrace_goto (s : Server) (pc : Pc) : (s.goto pc).loopTrace = s.loopTrace := by
  unfold goto
  split <;> rfl

/-- A removal looks at the sockets only, and so does the lookup of what it deletes. -/
theorem loopTrace_removeServerConnection {s u : Server} (hcon : u.mConnections = s.mConnections)
    (hsock : ∀ p, (u.heap p).mSocket = (s.heap p).mSocket) (sckt : Fd) :
    (u.removeServerConnection sckt).loopTrace = u.loopTrace ++ s.removed sckt := by
  have hfinder : serverConnectionFinder u.heap sckt = serverConnectionFinder s.heap sckt := by
    funext p
    unfold serverConnectionFinder
    rw [hsock]
  have hvictim : (u.mConnections.removeServerConnection u.heap sckt).2 =
      (s.mConnections.removeServerConnection s.heap sckt).2 := by
    unfold Connections.removeServerConnection
    simp only [hcon, hfinder]
    split <;> rfl
  unfold removed
  rw [← hvictim]
  unfold removeServerConnection
  rcases u.mConnections.removeServerConnection u.heap sckt with ⟨connections, _ | victim⟩
  · exact (List.append_nil _).symm
  · exact List.filter_append _ _

theorem loopTrace_dropConnection {s u : Server} (hcon : u.mConnections = s.mConnections)
    (hcb : u.mCallback = s.mCallback) (hsock : ∀ p, (u.heap p).mSocket = (s.heap p).mSocket)
    (hid : ∀ p, (u.heap p).mIdentifier = (s.heap p).mIdentifier) (sckt : Fd) (p : Ptr)
    (r : Reaction Call) :
    (u.dropConnection sckt p r).loopTrace = u.loopTrace ++ s.dropped sckt p r := by
  have hcall := called_react (u.record [.disconnected p (u.heap p).mIdentifier]) r
  have hreport : (u.disconnect p r).loopTrace =
      u.loopTrace ++ [.disconnected p (s.heap p).mIdentifier] := by
    rw [← hid]
    exact loopTrace_reported u _ r
  have hremove : ((u.disconnect p r).removeServerConnection sckt).loopTrace =
      (u.disconnect p r).loopTrace ++ s.removed sckt :=
    loopTrace_removeServerConnection (hcall.mConnections.trans hcon)
      (fun q => (hcall.mSocket q).trans (hsock q)) sckt
  unfold dropped
  apply dropConnection_rule (P := fun t => t.loopTrace = u.loopTrace ++ _)
  case silent =>
    intro hnull
    rw [hcb] at hnull
    rw [if_neg (by rw [hnull]; exact Bool.false_ne_true)]
    exact loopTrace_removeServerConnection hcon hsock sckt
  case reported =>
    intro htrue ho
    rw [hcb] at htrue
    rw [if_pos htrue, if_pos ho, hremove, hreport, List.append_assoc]
    rfl
  case escaped =>
    intro htrue ho
    rw [hcb] at htrue
    rw [if_pos htrue, if_neg ho]
    exact hreport

/-! ### The branches -/

theorem loopTrace_accepting (s : Server) (a : Attempt) :
    (s.accepting a).loopTrace = s.loopTrace ++ a.events := by
  have hevents : a.events.filter ofLoop = a.events := by
    unfold Attempt.events
    cases a.accept with
    | error what => rfl
    | ok fd => cases a.poll <;> rfl
  rw [← hevents]
  exact List.filter_append _ _

theorem loopTrace_acceptBranch (s : Server) (a : Attempt) (connected : Reaction Call) :
    (s.acceptBranch a connected).loopTrace = s.loopTrace ++ s.attempted a := by
  have hgreet : ∀ client, (s.greeting a client connected).loopTrace =
      s.loopTrace ++ (a.events ++ [.connected s.nextPtr client.mIdentifier]) := by
    intro client
    have hself : ((s.accepting a).allocate client).heap s.nextPtr = client :=
      Function.update_self _ _ _
    have h := loopTrace_reported ((s.accepting a).allocate client)
      (.connected s.nextPtr (((s.accepting a).allocate client).heap s.nextPtr).mIdentifier)
      connected
    rw [hself] at h
    rw [← List.append_assoc, ← loopTrace_accepting]
    unfold greeting connect
    rw [hself]
    exact h
  have hok : ∀ client, a.construct = .ok client → s.mCallback = true →
      s.attempted a = a.events ++ [.connected s.nextPtr client.mIdentifier] := by
    intro client ha hcb
    unfold attempted
    simp only [ha, if_pos hcb]
  apply acceptBranch_rule (P := fun t => t.loopTrace = s.loopTrace ++ s.attempted a)
  case rejected =>
    intro what ha
    unfold attempted
    simp only [ha, List.append_nil]
    exact loopTrace_accepting s a
  case null =>
    intro client ha hnull
    unfold attempted
    simp only [ha, hnull, Bool.false_eq_true, if_false, List.append_nil]
    exact loopTrace_accepting s a
  case registered => exact fun client ha hcb _ => (hok client ha hcb).symm ▸ hgreet client
  case swallowed => exact fun client ha hcb _ => (hok client ha hcb).symm ▸ hgreet client
  case escaped => exact fun client ha hcb _ => (hok client ha hcb).symm ▸ hgreet client

theorem loopTrace_handleServerConnection (s : Server) (i : Fd) (e : Reading) :
    (s.handleServerConnection i e).loopTrace = s.loopTrace ++ s.handled i e := by
  have hsock : ∀ p q, ((s.receiving p e.recv).heap q).mSocket = (s.heap q).mSocket := by
    intro p q
    rcases eq_or_ne q p with rfl | hq
    · simp [receiving]
    · simp [receiving, Function.update_of_ne hq]
  have hid : ∀ p q, ((s.receiving p e.recv).heap q).mIdentifier = (s.heap q).mIdentifier := by
    intro p q
    rcases eq_or_ne q p with rfl | hq
    · simp [receiving]
    · simp [receiving, Function.update_of_ne hq]
  have hcall := fun p => called_react ((s.receiving p e.recv).record
    [.receiveComplete p ((s.receiving p e.recv).heap p).mIdentifier e.recv.data]) e.receiveComplete
  have hdeliver : ∀ p, ((s.receiving p e.recv).deliver p e.recv.data e.receiveComplete).loopTrace =
      s.loopTrace ++ [.received (s.heap p).mSocket e.recv.data,
        .receiveComplete p (s.heap p).mIdentifier e.recv.data] := by
    intro p
    rw [deliver, loopTrace_reported, loopTrace_receiving, hid, List.append_assoc]
    rfl
  have hfail : ∀ p what, ((s.heap p).performReceive e.recv).2 = .error what → e.recv.data = [] := by
    intro p what hr
    by_contra hne
    obtain ⟨res, hok⟩ := ((s.heap p).performReceive_isOk_iff e.recv).mpr hne
    rw [hr] at hok
    cases hok
  unfold handled
  apply handleServerConnection_rule (P := fun t => t.loopTrace = s.loopTrace ++ _)
  case unknown =>
    intro hp
    rw [hp]
    exact (List.append_nil _).symm
  case failed =>
    intro p what hp hr
    simp only [hp, if_pos (hfail p what hr)]
    rw [loopTrace_dropConnection (s := s) (u := s.receiving p e.recv) rfl rfl (hsock p) (hid p),
      loopTrace_receiving, List.append_assoc]
    rfl
  case silent =>
    intro p data hp hr hnull
    obtain ⟨rfl, hne⟩ := ServerConnection.performReceive_ok hr
    simp only [hp, if_neg hne, hnull]
    exact loopTrace_receiving s p e.recv
  case delivered =>
    intro p data hp hr hcb ho
    obtain ⟨rfl, hne⟩ := ServerConnection.performReceive_ok hr
    simp only [hp, if_neg hne, if_pos hcb, ho]
    exact hdeliver p
  case thrown =>
    intro p data hp hr hcb ho
    obtain ⟨rfl, hne⟩ := ServerConnection.performReceive_ok hr
    simp only [hp, if_neg hne, if_pos hcb, if_pos ho]
    have hdrop := loopTrace_dropConnection (s := s)
      (u := (s.receiving p e.recv).deliver p e.recv.data e.receiveComplete)
      (hcall p).mConnections (hcall p).mCallback
      (fun q => ((hcall p).mSocket q).trans (hsock p q))
      (fun q => ((hcall p).mIdentifier q).trans (hid p q)) i p e.disconnected
    rw [hdrop, hdeliver, List.append_assoc]
    rfl
  case escaped =>
    intro p data hp hr hcb ho
    obtain ⟨rfl, hne⟩ := ServerConnection.performReceive_ok hr
    simp only [hp, if_neg hne, if_pos hcb, ho]
    exact hdeliver p

theorem loopTrace_writeBranch {s : Server} (hpc : s.pc ≠ .halted) (i : Fd) (e : Writing) :
    (s.writeBranch i e).loopTrace = s.loopTrace ++ s.written i e := by
  have hid : ∀ p, ((s.handing p e.result).heap p).mIdentifier = (s.heap p).mIdentifier := by
    intro p
    simp [handing]
  have hreport : ∀ p count, ((s.handing p e.result).report p count e.sendComplete).loopTrace =
      s.loopTrace ++ [.handed p (offered (s.heap p).mOutgoingBytes) e.result,
        .sendComplete p (s.heap p).mIdentifier count] := by
    intro p count
    rw [report, loopTrace_reported, loopTrace_handing, hid, List.append_assoc]
    rfl
  unfold written
  apply writeBranch_rule (P := fun t => t.loopTrace = s.loopTrace ++ _) hpc
  case unknown =>
    intro hp
    rw [hp]
    exact (List.append_nil _).symm
  case short =>
    intro p hp hc
    simp only [hp, hc]
    exact loopTrace_handing s p e.result
  case null =>
    intro p count hp hc hnull
    simp only [hp, hc, hnull]
    exact loopTrace_handing s p e.result
  case reported =>
    intro p count hp hc hcb _
    simp only [hp, hc, if_pos hcb]
    exact hreport p count
  case escaped =>
    intro p count hp hc hcb _
    simp only [hp, hc, if_pos hcb]
    exact hreport p count

/-! ### Steps -/

/-- **What a step adds to the events of the loop.** -/
theorem trace_step {s t : Server} {a : Action} (h : s.step a = some t) :
    t.loopTrace = s.loopTrace ++ s.happened a := by
  cases a with
  | call c =>
    obtain ⟨-, rfl⟩ := step_call h
    rw [loopTrace_of_called (called_call s c)]
    exact (List.append_nil _).symm
  | select result =>
    obtain ⟨-, -, ⟨-, rfl⟩ | ⟨readFds, writeFds, -, -, rfl⟩⟩ := step_select h
    · exact (List.append_nil _).symm
    · exact (List.append_nil _).symm
  | read attempt connected e =>
    obtain ⟨i, fdmax, readFds, writeFds, hpc, hr, rfl⟩ := step_read h
    rw [loopTrace_goto]
    unfold readBranch
    simp only [happened, hpc]
    split_ifs with hi hc
    · exact loopTrace_acceptBranch s attempt connected
    · exact loopTrace_handleServerConnection s i e
    · exact (List.append_nil _).symm
  | write e =>
    obtain ⟨i, fdmax, readFds, writeFds, hpc, hw, rfl⟩ := step_write h
    have hne : s.pc ≠ .halted := by rw [hpc]; exact Pc.noConfusion
    rw [loopTrace_goto]
    simp only [happened, hpc]
    split_ifs with hi
    · exact loopTrace_writeBranch hne i e
    · exact (List.append_nil _).symm

/-- The branch of the loop that the events of a step come from. -/
theorem happened_cases {s t : Server} {a : Action} (h : s.step a = some t) :
    (s.happened a = [] ∧ t.mConnections = s.mConnections) ∨
    (∃ attempt connected e pc, a = .read attempt connected e ∧ s.Readable attempt e ∧
      s.happened a = s.attempted attempt ∧ t = (s.acceptBranch attempt connected).goto pc) ∨
    (∃ attempt connected e i pc, a = .read attempt connected e ∧ s.happened a = s.handled i e ∧
      t = (s.handleServerConnection i e).goto pc) ∨
    ∃ e i pc, a = .write e ∧ s.pc ≠ .halted ∧ s.happened a = s.written i e ∧
      t = (s.writeBranch i e).goto pc := by
  cases a with
  | call c =>
    obtain ⟨-, rfl⟩ := step_call h
    exact Or.inl ⟨rfl, (called_call s c).mConnections⟩
  | select result =>
    obtain ⟨-, -, ⟨-, rfl⟩ | ⟨readFds, writeFds, -, -, rfl⟩⟩ := step_select h
    · exact Or.inl ⟨rfl, rfl⟩
    · exact Or.inl ⟨rfl, rfl⟩
  | read attempt connected e =>
    obtain ⟨i, fdmax, readFds, writeFds, hpc, hr, rfl⟩ := step_read h
    simp only [happened, hpc, readBranch]
    split_ifs with hi hc
    · exact Or.inr (Or.inl ⟨attempt, connected, e, _, rfl, hr, rfl, rfl⟩)
    · exact Or.inr (Or.inr (Or.inl ⟨attempt, connected, e, i, _, rfl, rfl, rfl⟩))
    · exact Or.inl ⟨rfl, goto_mConnections s _⟩
  | write e =>
    obtain ⟨i, fdmax, readFds, writeFds, hpc, hw, rfl⟩ := step_write h
    have hne : s.pc ≠ .halted := by rw [hpc]; exact Pc.noConfusion
    by_cases hi : i ∈ writeFds
    · refine Or.inr (Or.inr (Or.inr ⟨e, i, _, rfl, hne, ?_, by rw [if_pos hi]⟩))
      simp only [happened, hpc, if_pos hi]
    · refine Or.inl ⟨?_, ?_⟩
      · simp only [happened, hpc, if_neg hi]
      · rw [if_neg hi]
        exact goto_mConnections s _

/-- What such a function sees of a step. -/
theorem filterMap_step {β : Type} {f : Event → Option β} (hf : ∀ e, ofLoop e = false → f e = none)
    {s t : Server} {a : Action} (h : s.step a = some t) :
    t.trace.filterMap f = s.trace.filterMap f ++ (s.happened a).filterMap f := by
  rw [← filterMap_loopTrace hf, ← filterMap_loopTrace hf, trace_step h, List.filterMap_append]

end Server

end C11Http.Posix
