import C11Http.Posix.Provenance

/-! # What the posix server delivers is what it has received

For every registered connection its identifier, followed by the payloads that `receiveComplete` was
called with for it, is what `recv` has taken from its socket: nothing is lost, duplicated, reordered
or given to another connection (`received_eq_delivered`). This holds in every run with a callback
that does not throw, as long as no connection has been removed.

The invariant `Faithful` adds to a live registry where the bytes can be: only on accepted
descriptors that are still open, and only for objects that exist. -/

namespace C11Http.Posix.Server

open C11Http.Lib.Run Connections

/-! ### Parts that neither receive nor deliver -/

/-- From `s` to `t` nothing is received and nothing is delivered. -/
structure Quiet (s t : Server) : Prop where
  received : ∀ fd, t.trace.filterMap (received fd) = s.trace.filterMap (received fd)
  payload : ∀ p, t.trace.filterMap (payload p) = s.trace.filterMap (payload p)

theorem Quiet.trans {s t u : Server} (h : Quiet s t) (h' : Quiet t u) : Quiet s u :=
  ⟨fun fd => (h'.received fd).trans (h.received fd),
    fun p => (h'.payload p).trans (h.payload p)⟩

theorem Quiet.of_called {s t : Server} (h : Called s t) : Quiet s t :=
  ⟨h.received_trace, h.payload_trace⟩

/-- An event that is neither a receive nor a delivery. -/
theorem Quiet.of_append {s t : Server} {es : List Event} (h : t.trace = s.trace ++ es)
    (hr : ∀ fd, es.filterMap (Posix.received fd) = [])
    (hp : ∀ p, es.filterMap (Posix.payload p) = []) : Quiet s t := by
  refine ⟨fun fd => ?_, fun p => ?_⟩
  · rw [h, List.filterMap_append, hr fd, List.append_nil]
  · rw [h, List.filterMap_append, hp p, List.append_nil]

theorem quiet_connect (s : Server) (p : Ptr) (r : Reaction Call) : Quiet s (s.connect p r) :=
  (Quiet.of_append (t := s.record [.connected p (s.heap p).mIdentifier]) rfl
    (fun _ => rfl) (fun _ => rfl)).trans (.of_called (called_react _ r))

theorem quiet_greeting (s : Server) (a : Attempt) (client : ServerConnection)
    (connected : Reaction Call) : Quiet (s.accepting a) (s.greeting a client connected) := by
  have halloc : Quiet (s.accepting a) ((s.accepting a).allocate client) :=
    ⟨fun _ => rfl, fun _ => rfl⟩
  exact halloc.trans (quiet_connect _ _ connected)

theorem quiet_report (s : Server) (p : Ptr) (count : ℕ) (r : Reaction Call) :
    Quiet s (s.report p count r) :=
  (Quiet.of_append (t := s.record [.sendComplete p (s.heap p).mIdentifier count]) rfl
    (fun _ => rfl) (fun _ => rfl)).trans (.of_called (called_react _ r))

theorem quiet_handing (s : Server) (p : Ptr) (result : ℤ) : Quiet s (s.handing p result) :=
  Quiet.of_append (t := s.handing p result) rfl (fun _ => rfl) (fun _ => rfl)

theorem quiet_goto (s : Server) (pc : Pc) : Quiet s (s.goto pc) := by
  unfold goto
  split <;> exact ⟨fun _ => rfl, fun _ => rfl⟩

/-! ### The invariant -/

/-- A live registry whose connections have been given what was received on their sockets. -/
structure Faithful (s : Server) : Prop where
  live : s.Live
  received : ∀ fd, s.trace.filterMap (received fd) ≠ [] → fd ∈ s.openFds ∧ fd ≠ s.mConnectSocket
  payload : ∀ p, s.trace.filterMap (payload p) ≠ [] → p < s.nextPtr
  exact : ∀ p ∈ s.mConnections.mContainer,
    (s.heap p).mIdentifier ++ (s.trace.filterMap (Posix.payload p)).flatten =
      (s.trace.filterMap (Posix.received (s.heap p).mSocket)).flatten

theorem Faithful.start (setup : Setup) : (waitForEvents setup).Faithful where
  live := Live.start setup
  received := by simp [waitForEvents]
  payload := by simp [waitForEvents]
  exact := by simp [waitForEvents, new]

theorem Faithful.quiet {s t : Server} (hs : s.Faithful) (h : Framed s t) (hq : Quiet s t) :
    t.Faithful where
  live := hs.live.framed h
  received fd hne := by
    rw [hq.received fd] at hne
    obtain ⟨hopen, hconn⟩ := hs.received fd hne
    exact ⟨h.closes fd hopen hconn, by rw [h.mConnectSocket]; exact hconn⟩
  payload p hne := by
    rw [hq.payload p] at hne
    exact (hs.payload p hne).trans_le h.nextPtr
  exact p hp := by
    rw [h.mConnections] at hp
    have hlt := hs.live.fresh p (Or.inl hp)
    rw [h.mIdentifier p hlt, h.mSocket p hlt, hq.payload, hq.received]
    exact hs.exact p hp

theorem Faithful.unwatch {s : Server} (hs : s.Faithful) (i : Fd) : (s.unwatch i).Faithful where
  live := { hs.live with }
  received := hs.received
  payload := hs.payload
  exact := hs.exact

/-! ### Accepting -/

/-- What the constructor takes from an accepted descriptor. -/
theorem received_events (a : Attempt) (fd : Fd) :
    a.events.filterMap (received fd) =
      if a.accept = .ok fd ∧ a.poll = none then [a.recv.data] else [] := by
  unfold Attempt.events
  cases hacc : a.accept with
  | error what => simp
  | ok fd' =>
    cases hpoll : a.poll with
    | none =>
      rcases eq_or_ne fd' fd with rfl | hne
      · simp [List.filterMap_cons, received]
      · simp [List.filterMap_cons, received, hne]
    | some what => simp [List.filterMap_cons, received]

theorem Faithful.accepting {s : Server} (hs : s.Faithful) {a : Attempt} {e : Reading}
    (hr : s.Readable a e) : (s.accepting a).Faithful := by
  have hframe := framed_accepting s a
  have hpay : ∀ p, (s.accepting a).trace.filterMap (Posix.payload p) =
      s.trace.filterMap (Posix.payload p) := by
    intro p
    rw [Server.accepting, List.filterMap_append,
      filterMap_events a (fun _ => rfl) (fun _ _ => rfl) (fun _ _ => rfl), List.append_nil]
  have hrecv : ∀ fd, (s.accepting a).trace.filterMap (Posix.received fd) =
      s.trace.filterMap (Posix.received fd) ++
        if a.accept = .ok fd ∧ a.poll = none then [a.recv.data] else [] := by
    intro fd
    rw [Server.accepting, List.filterMap_append, received_events]
  have hnew : ∀ fd, a.accept = .ok fd → fd ∉ s.openFds ∧ s.mConnectSocket ∈ s.openFds := by
    intro fd hacc
    have h := hr.1
    rw [hacc] at h
    exact h
  refine ⟨hs.live.framed hframe, fun fd hne => ?_, fun p hne => ?_, fun p hp => ?_⟩
  · rw [hrecv] at hne
    by_cases hacc : a.accept = .ok fd ∧ a.poll = none
    · obtain ⟨hfd, hconn⟩ := hnew fd hacc.1
      refine ⟨?_, fun heq => hfd (heq ▸ hconn)⟩
      simp [Server.accepting, Attempt.opened, hacc.1]
    · rw [if_neg hacc, List.append_nil] at hne
      obtain ⟨hopen, hconn⟩ := hs.received fd hne
      exact ⟨hframe.closes fd hopen hconn, hconn⟩
  · rw [hpay] at hne
    exact hs.payload p hne
  · have hopen := hs.live.opened p hp
    have hother : ¬ (a.accept = .ok (s.heap p).mSocket ∧ a.poll = none) :=
      fun hacc => (hnew _ hacc.1).1 hopen
    have hsame : (s.accepting a).heap p = s.heap p := rfl
    rw [hsame, hpay, hrecv, if_neg hother, List.append_nil]
    exact hs.exact p hp

/-- While `connected` runs, and behind it. -/
theorem Faithful.greeting {s : Server} (hs : s.Faithful) {a : Attempt} {e : Reading}
    (hr : s.Readable a e) (client : ServerConnection) (connected : Reaction Call) :
    (s.greeting a client connected).Faithful := by
  have hacc := hs.accepting hr
  have hframe : Framed (s.accepting a) (s.greeting a client connected) :=
    (framed_allocate _ client).trans hacc.live.fresh (framed_connect _ _ connected)
  exact hacc.quiet hframe (quiet_greeting s a client connected)

/-- **A new connection has received its identifier and nothing else.** -/
theorem Faithful.registered {s : Server} (hs : s.Faithful) {a : Attempt}
    {client : ServerConnection} (connected : Reaction Call) (ha : a.construct = .ok client)
    {e : Reading} (hr : s.Readable a e) :
    ((s.greeting a client connected).addServerConnection s.nextPtr).Faithful := by
  have hu := greeted hs.live.fresh connected ha hr
  have huf := hs.greeting hr client connected
  have hquiet := quiet_greeting s a client connected
  refine ⟨hs.live.added ⟨_, hu, rfl⟩, huf.received, huf.payload, fun p hp => ?_⟩
  rcases List.mem_append.mp hp with hp | hp
  · exact huf.exact p hp
  · rw [List.mem_singleton.mp hp]
    have hpay : (s.greeting a client connected).trace.filterMap (Posix.payload s.nextPtr) = [] := by
      rw [hquiet.payload]
      by_contra hne
      rw [Server.accepting, List.filterMap_append,
        filterMap_events a (fun _ => rfl) (fun _ _ => rfl) (fun _ _ => rfl), List.append_nil] at hne
      exact (hs.payload _ hne).ne rfl
    have hrecv : (s.greeting a client connected).trace.filterMap
        (Posix.received ((s.greeting a client connected).heap s.nextPtr).mSocket) =
          [a.recv.data] := by
      have hold : s.trace.filterMap
          (Posix.received ((s.greeting a client connected).heap s.nextPtr).mSocket) = [] := by
        by_contra hne
        exact hu.new (hs.received _ hne).1
      rw [hquiet.received, Server.accepting, List.filterMap_append, received_events, hold,
        if_pos ⟨hu.accept, (Attempt.construct_ok ha).2.1⟩, List.nil_append]
    show ((s.greeting a client connected).heap s.nextPtr).mIdentifier ++
      ((s.greeting a client connected).trace.filterMap (Posix.payload s.nextPtr)).flatten = _
    rw [hpay, hu.identifier]
    refine Eq.trans ?_ (congrArg List.flatten hrecv).symm
    simp

/-! ### Receiving -/

/-- **A receive and its delivery** append the same bytes on both sides. -/
theorem Faithful.delivered {s : Server} (hs : s.Faithful) {p : Ptr}
    (hp : p ∈ s.mConnections.mContainer) (r : Recv) :
    ((s.receiving p r).record
      [.receiveComplete p ((s.receiving p r).heap p).mIdentifier r.data]).Faithful := by
  have hframe : Framed s ((s.receiving p r).record
      [.receiveComplete p ((s.receiving p r).heap p).mIdentifier r.data]) :=
    (framed_receiving s p r).trans hs.live.fresh (framed_record _ rfl)
  have hrecv : ∀ fd, ((s.receiving p r).record [.receiveComplete p
      ((s.receiving p r).heap p).mIdentifier r.data]).trace.filterMap (Posix.received fd) =
      s.trace.filterMap (Posix.received fd) ++
        if (s.heap p).mSocket = fd then [r.data] else [] := by
    intro fd
    rw [record, receiving, List.append_assoc, List.filterMap_append]
    by_cases hfd : (s.heap p).mSocket = fd
    · simp [List.filterMap_cons, Posix.received, hfd]
    · simp [List.filterMap_cons, Posix.received, hfd]
  have hpay : ∀ q, ((s.receiving p r).record [.receiveComplete p
      ((s.receiving p r).heap p).mIdentifier r.data]).trace.filterMap (Posix.payload q) =
      s.trace.filterMap (Posix.payload q) ++ if p = q then [r.data] else [] := by
    intro q
    rw [record, receiving, List.append_assoc, List.filterMap_append]
    by_cases hq : p = q
    · simp [List.filterMap_cons, Posix.payload, hq]
    · simp [List.filterMap_cons, Posix.payload, hq]
  refine ⟨hs.live.framed hframe, fun fd hne => ?_, fun q hne => ?_, fun q hq => ?_⟩
  · rw [hrecv] at hne
    by_cases hfd : (s.heap p).mSocket = fd
    · exact hfd ▸ ⟨hs.live.opened p hp, hs.live.connect p hp⟩
    · rw [if_neg hfd, List.append_nil] at hne
      exact hs.received fd hne
  · rw [hpay] at hne
    by_cases hq : p = q
    · exact hq ▸ hs.live.fresh p (Or.inl hp)
    · rw [if_neg hq, List.append_nil] at hne
      exact hs.payload q hne
  · have hq : q ∈ s.mConnections.mContainer := hq
    have hlt := hs.live.fresh q (Or.inl hq)
    rw [hframe.mIdentifier q hlt, hframe.mSocket q hlt, hpay, hrecv]
    by_cases heq : p = q
    · subst heq
      rw [if_pos rfl, if_pos rfl, List.flatten_append, List.flatten_append, ← List.append_assoc,
        hs.exact p hp]
    · have hsock : (s.heap p).mSocket ≠ (s.heap q).mSocket :=
        fun h => heq (hs.live.distinct.inj hp hq h)
      rw [if_neg heq, if_neg hsock, List.append_nil, List.append_nil]
      exact hs.exact q hq

/-- So far no callback has thrown and nothing has been removed. -/
def Smooth (s : Server) : Prop := Event.threw ∉ s.trace ∧ s.trace.filterMap deletedBy = []

theorem Smooth.of_prefix {s t : Server} (h : t.Smooth) (hst : s.trace <+: t.trace) : s.Smooth := by
  obtain ⟨es, he⟩ := hst
  obtain ⟨hthrew, hdel⟩ := h
  rw [← he, List.filterMap_append, List.append_eq_nil_iff] at hdel
  rw [← he, List.mem_append, not_or] at hthrew
  exact ⟨hthrew.1, hdel.1⟩

/-- A callback that does not return leaves a trace. -/
theorem threw_mem_react (s : Server) {r : Reaction Call} (h : r.outcome ≠ .returns) :
    Event.threw ∈ (s.react r).trace := by
  unfold react
  cases ho : r.outcome with
  | returns => exact absurd ho h
  | runtimeError => simp [record]
  | other => simp [record]

/-- Removing a registered connection deletes an object. -/
theorem removeServerConnection_not_smooth {s : Server} (hs : s.Live) {p : Ptr}
    (hp : p ∈ s.mConnections.mContainer) :
    ¬ (s.removeServerConnection (s.heap p).mSocket).Smooth := by
  rintro ⟨-, hdel⟩
  obtain ⟨xs, ys, hc⟩ := List.append_of_mem hp
  obtain ⟨victim, hv⟩ : ∃ v, s.mConnections.mContainer.getLast? = some v :=
    ⟨_, List.getLast?_eq_some_getLast (List.ne_nil_of_mem hp)⟩
  unfold removeServerConnection at hdel
  rw [removeServerConnection_mem hs.distinct hc hv] at hdel
  simp [List.filterMap_cons, deletedBy] at hdel

/-- Dropping a connection removes it or throws. -/
theorem dropConnection_not_smooth {s : Server} (hs : s.Live) {p : Ptr}
    (hp : p ∈ s.mConnections.mContainer) (disconnected : Reaction Call) :
    ¬ (s.dropConnection (s.heap p).mSocket p disconnected).Smooth := by
  have hf := framed_disconnect s p disconnected
  apply dropConnection_rule (P := fun t => ¬ t.Smooth)
  case silent => exact fun _ => removeServerConnection_not_smooth hs hp
  case reported =>
    intro _ _
    have hmem : p ∈ (s.disconnect p disconnected).mConnections.mContainer := by
      rw [hf.mConnections]
      exact hp
    have h := removeServerConnection_not_smooth (hs.framed hf) hmem
    rwa [hf.mSocket p (hs.fresh p (Or.inl hp))] at h
  case escaped => exact fun _ ho h => h.1 (threw_mem_react _ ho)

theorem Faithful.handleServerConnection {s : Server} (hs : s.Faithful) (hcb : s.mCallback = true)
    {i : Fd} {e : Reading} (hsmooth : (s.handleServerConnection i e).Smooth) :
    (s.handleServerConnection i e).Faithful := by
  revert hsmooth
  have hrecv := fun p => hs.live.framed (framed_receiving s p e.recv)
  -- a delivery whose callback throws leaves the trace of it
  have hthrow : ∀ p data, e.receiveComplete.outcome ≠ .returns →
      ¬ ((s.receiving p e.recv).deliver p data e.receiveComplete).Smooth :=
    fun p data ho h => h.1 (threw_mem_react _ ho)
  apply handleServerConnection_rule (P := fun t => t.Smooth → t.Faithful)
  case unknown => exact fun _ _ => hs
  case failed =>
    intro p what hp _ h
    obtain ⟨hmem, rfl⟩ := getServerConnection_some hp
    refine absurd h ?_
    have hsock := (framed_receiving s p e.recv).mSocket p (hs.live.fresh p (Or.inl hmem))
    rw [← hsock]
    exact dropConnection_not_smooth (hrecv p) hmem _
  case silent => exact fun p data _ _ hnull _ => absurd (hnull.symm.trans hcb) Bool.false_ne_true
  case delivered =>
    intro p data hp hr _ _ _
    obtain ⟨hmem, -⟩ := getServerConnection_some hp
    obtain ⟨rfl, -⟩ := ServerConnection.performReceive_ok hr
    have hcall := called_react ((s.receiving p e.recv).record [.receiveComplete p
      ((s.receiving p e.recv).heap p).mIdentifier e.recv.data]) e.receiveComplete
    exact (hs.delivered hmem e.recv).quiet (.of_called hcall) (.of_called hcall)
  case thrown =>
    intro p data _ _ _ ho h
    refine absurd (h.of_prefix ?_) (hthrow p data (by rw [ho]; decide))
    apply dropConnection_rule (P := fun t => ((s.receiving p e.recv).deliver p data
      e.receiveComplete).trace <+: t.trace)
    case silent => exact fun _ => removeServerConnection_trace _ i
    case reported =>
      exact fun _ _ => (framed_disconnect _ p e.disconnected).trace.trans
        (removeServerConnection_trace _ i)
    case escaped => exact fun _ _ => (framed_disconnect _ p e.disconnected).trace
  case escaped =>
    intro p data _ _ _ ho h
    exact absurd h (hthrow p data (by rw [ho]; decide))

theorem Faithful.acceptBranch {s : Server} (hs : s.Faithful) (hcb : s.mCallback = true)
    {a : Attempt} {connected : Reaction Call} {e : Reading} (hr : s.Readable a e)
    (hsmooth : (s.acceptBranch a connected).Smooth) : (s.acceptBranch a connected).Faithful := by
  revert hsmooth
  apply acceptBranch_rule (P := fun t => t.Smooth → t.Faithful)
  case rejected => exact fun _ _ _ => hs.accepting hr
  case null => exact fun client _ hnull _ => absurd (hnull.symm.trans hcb) Bool.false_ne_true
  case registered => exact fun client ha _ _ _ => hs.registered connected ha hr
  case swallowed =>
    exact fun client _ _ ho h => absurd (threw_mem_react _ (by rw [ho]; decide)) h.1
  case escaped =>
    exact fun client _ _ ho h => absurd (threw_mem_react _ (by rw [ho]; decide)) h.1

theorem Faithful.writeBranch {s : Server} (hs : s.Faithful) (hpc : s.pc ≠ .halted) (i : Fd)
    (e : Writing) : (s.writeBranch i e).Faithful := by
  have hhand := fun p => hs.quiet (framed_handing s p e.result) (quiet_handing s p e.result)
  have hreport := fun p count => (hhand p).quiet (framed_report _ p count e.sendComplete)
    (quiet_report _ p count e.sendComplete)
  have hhalt : ∀ u : Server, u.Faithful → u.halt.Faithful :=
    fun u hu => hu.quiet (framed_halt u) ⟨fun _ => rfl, fun _ => rfl⟩
  apply writeBranch_rule (P := Faithful) hpc
  case unknown => exact fun _ => hs.unwatch i
  case short => exact fun p _ _ => (hhand p).unwatch i
  case null => exact fun p _ _ _ _ => hhalt _ (hhand p)
  case reported => exact fun p count _ _ _ _ => (hreport p count).unwatch i
  case escaped => exact fun p count _ _ _ _ => hhalt _ (hreport p count)

/-! ### Runs -/

theorem faithful_step {s t : Server} {a : Action} (hs : s.Faithful) (hcb : s.mCallback = true)
    (h : s.step a = some t) (hsmooth : t.Smooth) : t.Faithful := by
  have hgoto : ∀ u pc, (goto u pc).Smooth → u.Smooth :=
    fun u pc hg => hg.of_prefix (framed_goto u pc).trace
  cases a with
  | call c =>
    obtain ⟨-, rfl⟩ := step_call h
    exact hs.quiet (.of_called (called_call s c)) (.of_called (called_call s c))
  | select result =>
    obtain ⟨-, -, ⟨-, rfl⟩ | ⟨readFds, writeFds, -, -, rfl⟩⟩ := step_select h
    · exact hs.quiet (framed_halt s) ⟨fun _ => rfl, fun _ => rfl⟩
    · exact hs.quiet { Framed.refl s with } ⟨fun _ => rfl, fun _ => rfl⟩
  | read attempt connected e =>
    obtain ⟨i, fdmax, readFds, writeFds, hpc, hr, rfl⟩ := step_read h
    refine Faithful.quiet ?_ (framed_goto _ _) (quiet_goto _ _)
    have hb := hgoto _ _ hsmooth
    unfold readBranch at hb ⊢
    split_ifs at hb ⊢ with hi hc
    · exact hs.acceptBranch hcb hr hb
    · exact hs.handleServerConnection hcb hb
    · exact hs
  | write e =>
    obtain ⟨i, fdmax, readFds, writeFds, hpc, hw, rfl⟩ := step_write h
    have hne : s.pc ≠ .halted := by rw [hpc]; exact Pc.noConfusion
    refine Faithful.quiet ?_ (framed_goto _ _) (quiet_goto _ _)
    by_cases hi : i ∈ writeFds
    · rw [if_pos hi]
      exact hs.writeBranch hne i e
    · rw [if_neg hi]
      exact hs

/-- **In every run with a callback that has not thrown, and while nothing has been removed, every
registered connection was given exactly what was received on its socket.** -/
theorem received_eq_delivered {setup : Setup} {as : List Action} {s : Server}
    (hcb : setup.mCallback = true) (hrun : run step (waitForEvents setup) as = some s)
    (hthrew : Event.threw ∉ s.trace) (hdel : s.trace.filterMap deletedBy = []) :
    ∀ p ∈ s.mConnections.mContainer,
      (s.heap p).mIdentifier ++ (s.trace.filterMap (Posix.payload p)).flatten =
        (s.trace.filterMap (Posix.received (s.heap p).mSocket)).flatten := by
  have hall : Always step (fun s => s.Fresh ∧ s.mCallback = true ∧ (s.Smooth → s.Faithful))
      (waitForEvents setup) as := by
    refine always_of_inv (fun s a t hs ht => ?_) as
      ⟨fresh_start setup, hcb, fun _ => Faithful.start setup⟩
    obtain ⟨hfresh, hcb, hfaith⟩ := hs
    refine ⟨fresh_step hfresh ht, (constant_step hfresh ht).2.trans hcb, fun hsmooth => ?_⟩
    exact faithful_step (hfaith (hsmooth.of_prefix (advanced_step hfresh ht).trace)) hcb ht hsmooth
  exact ((hall.last hrun).2.2 ⟨hthrew, hdel⟩).exact

/-- A pass in which descriptor 6 is ready for reading and `recv` takes `data`. -/
def hear (data : Bytes) : List Action :=
  .select (some ({6}, ∅)) :: skip 6 ++
    [.read noAttempt returns (reading data), .write (writing 0)]

theorem received_eq_delivered_hear : ∃ s,
    run step (waitForEvents listening) (greet ++ hear [104] ++ hear [105, 106]) = some s ∧
      s.mConnections.mContainer = [0] ∧
      (s.heap 0).mIdentifier ++ (s.trace.filterMap (Posix.payload 0)).flatten =
        (s.trace.filterMap (Posix.received (s.heap 0).mSocket)).flatten := by
  obtain ⟨s, hrun, hthrew, hdel, hmem⟩ := exists_run step (waitForEvents listening)
    (greet ++ hear [104] ++ hear [105, 106])
    (fun s => Event.threw ∉ s.trace ∧ s.trace.filterMap deletedBy = [] ∧
      s.mConnections.mContainer = [0]) (by decide)
  refine ⟨s, hrun, hmem, received_eq_delivered rfl hrun hthrew hdel 0 ?_⟩
  rw [hmem]
  simp

end C11Http.Posix.Server
