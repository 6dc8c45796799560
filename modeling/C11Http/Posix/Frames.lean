import C11Http.Posix.Branches

/-! # What a step does to the registry

`Framed s t`: from `s` to `t` the registry stays, the objects that exist keep their sockets and
their identifiers, no object is deleted, no open descriptor but that of the listening socket is
closed, and the write set only grows, by sockets of connections that a call can reach. An object
whose queue has changed has its socket watched or has been emptied.

Every step frames the state but for one change in between: an accepted connection is `Added` to the
registry, a failed one is `Removed` from it, or a descriptor is unwatched (`step_effect`). -/

namespace C11Http.Posix

open Connections

/-- A connection a call can reach has been allocated. -/
def Server.Fresh (s : Server) : Prop := ∀ p, s.mConnections.Reached p → p < s.nextPtr

structure Framed (s t : Server) : Prop where
  mConnections : t.mConnections = s.mConnections
  mConnectSocket : t.mConnectSocket = s.mConnectSocket
  mCallback : t.mCallback = s.mCallback
  nextPtr : s.nextPtr ≤ t.nextPtr
  mSocket : ∀ p < s.nextPtr, (t.heap p).mSocket = (s.heap p).mSocket
  mIdentifier : ∀ p < s.nextPtr, (t.heap p).mIdentifier = (s.heap p).mIdentifier
  watches : s.mMasterWrite ⊆ t.mMasterWrite
  watched : ∀ fd ∈ t.mMasterWrite, fd ∈ s.mMasterWrite ∨
    ∃ p, s.mConnections.Reached p ∧ (s.heap p).mSocket = fd
  touched : ∀ p < s.nextPtr, (t.heap p).mOutgoingBytes = [] ∨
    (t.heap p).mOutgoingBytes = (s.heap p).mOutgoingBytes ∨ (s.heap p).mSocket ∈ t.mMasterWrite
  closes : ∀ fd ∈ s.openFds, fd ≠ s.mConnectSocket → fd ∈ t.openFds
  trace : s.trace <+: t.trace
  deleted : t.trace.filterMap deletedBy = s.trace.filterMap deletedBy

namespace Framed

theorem refl (s : Server) : Framed s s where
  mConnections := rfl
  mConnectSocket := rfl
  mCallback := rfl
  nextPtr := le_rfl
  mSocket _ _ := rfl
  mIdentifier _ _ := rfl
  watches := Finset.Subset.refl _
  watched _ h := Or.inl h
  touched _ _ := Or.inr (Or.inl rfl)
  closes _ h _ := h
  trace := List.prefix_rfl
  deleted := rfl

theorem of_called {s t : Server} (h : Called s t) : Framed s t where
  mConnections := h.mConnections
  mConnectSocket := h.mConnectSocket
  mCallback := h.mCallback
  nextPtr := h.nextPtr.ge
  mSocket p _ := h.mSocket p
  mIdentifier p _ := h.mIdentifier p
  watches := h.watches
  watched := h.watched
  touched p _ := Or.inr (h.touched p)
  closes := h.closes
  trace := by
    obtain ⟨es, he, -⟩ := h.trace
    rw [he]
    exact List.prefix_append _ _
  deleted := h.deletedBy_trace

theorem fresh {s t : Server} (h : Framed s t) (hs : s.Fresh) : t.Fresh := by
  intro p hp
  rw [h.mConnections] at hp
  exact (hs p hp).trans_le h.nextPtr

theorem trans {s t u : Server} (hs : s.Fresh) (h : Framed s t) (h' : Framed t u) : Framed s u where
  mConnections := h'.mConnections.trans h.mConnections
  mConnectSocket := h'.mConnectSocket.trans h.mConnectSocket
  mCallback := h'.mCallback.trans h.mCallback
  nextPtr := h.nextPtr.trans h'.nextPtr
  mSocket p hp := (h'.mSocket p (hp.trans_le h.nextPtr)).trans (h.mSocket p hp)
  mIdentifier p hp := (h'.mIdentifier p (hp.trans_le h.nextPtr)).trans (h.mIdentifier p hp)
  watches := h.watches.trans h'.watches
  watched fd hfd := by
    rcases h'.watched fd hfd with hfd | ⟨p, hp, rfl⟩
    · exact h.watched fd hfd
    · rw [h.mConnections] at hp
      exact Or.inr ⟨p, hp, (h.mSocket p (hs p hp)).symm⟩
  touched p hp := by
    rcases h'.touched p (hp.trans_le h.nextPtr) with hnil | heq | hsock
    · exact Or.inl hnil
    · rw [heq]
      exact (h.touched p hp).imp id (Or.imp id fun hsock => h'.watches hsock)
    · rw [h.mSocket p hp] at hsock
      exact Or.inr (Or.inr hsock)
  closes fd hfd hne := h'.closes fd (h.closes fd hfd hne) (by rw [h.mConnectSocket]; exact hne)
  trace := h.trace.trans h'.trace
  deleted := h'.deleted.trans h.deleted

end Framed

namespace Server

/-! ### The parts of a step -/

theorem framed_record (s : Server) {es : List Event} (h : es.filterMap deletedBy = []) :
    Framed s (s.record es) :=
  { Framed.refl s with
    trace := List.prefix_append _ _
    deleted := by rw [record, List.filterMap_append, h, List.append_nil] }

theorem framed_halt (s : Server) : Framed s s.halt := { Framed.refl s with }

theorem framed_goto (s : Server) (pc : Pc) : Framed s (s.goto pc) := by
  unfold goto
  split
  · exact Framed.refl s
  · exact { Framed.refl s with }

/-- A report to the callback, and what the callback does then. -/
theorem framed_reported (s : Server) {e : Event} (h : deletedBy e = none) (r : Reaction Call) :
    Framed s ((s.record [e]).react r) where
  mConnections := (called_react (s.record [e]) r).mConnections
  mConnectSocket := (called_react (s.record [e]) r).mConnectSocket
  mCallback := (called_react (s.record [e]) r).mCallback
  nextPtr := (called_react (s.record [e]) r).nextPtr.ge
  mSocket p _ := (called_react (s.record [e]) r).mSocket p
  mIdentifier p _ := (called_react (s.record [e]) r).mIdentifier p
  watches := (called_react (s.record [e]) r).watches
  watched := (called_react (s.record [e]) r).watched
  touched p _ := Or.inr ((called_react (s.record [e]) r).touched p)
  closes := (called_react (s.record [e]) r).closes
  trace := (List.prefix_append _ _).trans (Framed.of_called (called_react (s.record [e]) r)).trace
  deleted := by
    rw [(called_react (s.record [e]) r).deletedBy_trace]
    exact (framed_record s (by simp [h])).deleted

theorem framed_connect (s : Server) (p : Ptr) (r : Reaction Call) : Framed s (s.connect p r) :=
  framed_reported s rfl r

theorem framed_deliver (s : Server) (p : Ptr) (data : Bytes) (r : Reaction Call) :
    Framed s (s.deliver p data r) :=
  framed_reported s rfl r

theorem framed_disconnect (s : Server) (p : Ptr) (r : Reaction Call) :
    Framed s (s.disconnect p r) :=
  framed_reported s rfl r

theorem framed_report (s : Server) (p : Ptr) (count : ℕ) (r : Reaction Call) :
    Framed s (s.report p count r) :=
  framed_reported s rfl r

/-- What the constructor does: nothing but accepting, acknowledging and receiving. -/
theorem filterMap_events (a : Attempt) {β : Type} {f : Event → Option β}
    (haccepted : ∀ fd, f (.accepted fd) = none) (hacked : ∀ fd result, f (.acked fd result) = none)
    (hreceived : ∀ fd data, f (.received fd data) = none) : a.events.filterMap f = [] := by
  unfold Attempt.events
  cases a.accept with
  | error what => rfl
  | ok fd => cases a.poll <;> simp [haccepted, hacked, hreceived]

theorem subset_opened (a : Attempt) (openFds : Finset Fd) : openFds ⊆ a.opened openFds := by
  unfold Attempt.opened
  split
  · exact Finset.Subset.refl _
  · exact Finset.subset_insert _ _

theorem framed_accepting (s : Server) (a : Attempt) : Framed s (s.accepting a) :=
  { Framed.refl s with
    closes := fun _ h _ => subset_opened a s.openFds h
    trace := List.prefix_append _ _
    deleted := by
      rw [accepting, List.filterMap_append,
        filterMap_events a (fun _ => rfl) (fun _ _ => rfl) (fun _ _ => rfl), List.append_nil] }

theorem framed_allocate (s : Server) (client : ServerConnection) : Framed s (s.allocate client) :=
  { Framed.refl s with
    nextPtr := Nat.le_succ _
    mSocket := fun p hp => by simp [allocate, Function.update_of_ne hp.ne]
    mIdentifier := fun p hp => by simp [allocate, Function.update_of_ne hp.ne]
    touched := fun p hp => by simp [allocate, Function.update_of_ne hp.ne] }

/-- An object is written over by one with its socket and its identifier, and with its queue or an
empty one. -/
theorem framed_write (s : Server) (p : Ptr) {c : ServerConnection} {es : List Event}
    (hsock : c.mSocket = (s.heap p).mSocket) (hid : c.mIdentifier = (s.heap p).mIdentifier)
    (hbytes : c.mOutgoingBytes = [] ∨ c.mOutgoingBytes = (s.heap p).mOutgoingBytes)
    (hes : es.filterMap deletedBy = []) :
    Framed s { s with heap := Function.update s.heap p c, trace := s.trace ++ es } :=
  { Framed.refl s with
    mSocket := fun q _ => by
      rcases eq_or_ne q p with rfl | hq
      · simp only [Function.update_self, hsock]
      · simp only [Function.update_of_ne hq]
    mIdentifier := fun q _ => by
      rcases eq_or_ne q p with rfl | hq
      · simp only [Function.update_self, hid]
      · simp only [Function.update_of_ne hq]
    touched := fun q _ => by
      rcases eq_or_ne q p with rfl | hq
      · simp only [Function.update_self]
        exact hbytes.imp id Or.inl
      · simp only [Function.update_of_ne hq, true_or, or_true]
    trace := List.prefix_append _ _
    deleted := by rw [List.filterMap_append, hes, List.append_nil] }

theorem framed_receiving (s : Server) (p : Ptr) (r : Recv) : Framed s (s.receiving p r) :=
  framed_write s p (by simp) (by simp) (Or.inr (by simp)) rfl

theorem framed_handing (s : Server) (p : Ptr) (result : ℤ) : Framed s (s.handing p result) :=
  framed_write s p (by simp) (by simp) (Or.inl (by simp)) rfl

theorem fresh_addServerConnection {s : Server} (hs : s.Fresh) {p : Ptr} (hp : p < s.nextPtr) :
    (s.addServerConnection p).Fresh := by
  intro q hq
  rcases hq.of_add with hq | rfl
  · exact hs q hq
  · exact hp

theorem fresh_removeServerConnection {s : Server} (hs : s.Fresh) (sckt : Fd) :
    (s.removeServerConnection sckt).Fresh := by
  intro q hq
  rw [removeServerConnection_mConnections] at hq
  rw [removeServerConnection_nextPtr]
  exact hs q hq.of_remove

/-! ### The branches -/

/-- The server `u` while `connected` runs for the object that the attempt has made of `s`. -/
structure Greeted (s : Server) (a : Attempt) (u : Server) : Prop where
  framed : Framed s u
  allocated : s.nextPtr < u.nextPtr
  accept : a.accept = .ok (u.heap s.nextPtr).mSocket
  identifier : (u.heap s.nextPtr).mIdentifier = a.recv.data
  queue : (u.heap s.nextPtr).mOutgoingBytes = [] ∨ (u.heap s.nextPtr).mSocket ∈ u.mMasterWrite
  new : (u.heap s.nextPtr).mSocket ∉ s.openFds
  connect : (u.heap s.nextPtr).mSocket ≠ s.mConnectSocket
  opened : (u.heap s.nextPtr).mSocket ∈ u.openFds

/-- The object an attempt has made is added to the registry. -/
def Added (s : Server) (a : Attempt) (t : Server) : Prop :=
  ∃ u, Greeted s a u ∧ t = u.addServerConnection s.nextPtr

/-- The connection with the socket of `p` is removed from the registry. -/
def Removed (s : Server) (p : Ptr) (t : Server) : Prop :=
  ∃ u, Framed s u ∧ t = u.removeServerConnection (s.heap p).mSocket

/-- The connection attempt that an action handles. -/
def attempts (s : Server) : Action → Option Attempt
  | .read attempt _ _ =>
    match s.pc with
    | .scan i _ readFds _ .read =>
      if i ∈ readFds ∧ i = s.mConnectSocket then some attempt else none
    | _ => none
  | _ => none

/-- The connection that an action removes: one that it receives from, where the receive fails or a
`runtime_error` leaves `receiveComplete`, and no exception leaves `disconnected`. -/
def removes (s : Server) : Action → Option Ptr
  | .read _ _ e =>
    match s.pc with
    | .scan i _ readFds _ .read =>
      if i ∈ readFds ∧ i ≠ s.mConnectSocket ∧
          (e.recv.data = [] ∨ s.mCallback = true ∧ e.receiveComplete.outcome = .runtimeError) ∧
          (s.mCallback = true → e.disconnected.outcome = .returns) then
        s.mConnections.getServerConnection s.heap i
      else none
    | _ => none
  | _ => none

theorem framed_allocated (s : Server) (hs : s.Fresh) (a : Attempt) (client : ServerConnection) :
    Framed s ((s.accepting a).allocate client) :=
  (framed_accepting s a).trans hs (framed_allocate _ client)

theorem framed_greeting (s : Server) (hs : s.Fresh) (a : Attempt) (client : ServerConnection)
    (connected : Reaction Call) : Framed s (s.greeting a client connected) :=
  (framed_allocated s hs a client).trans hs (framed_connect _ _ connected)

/-- What `accept` returns is not open, and is not the listening socket. -/
def Fits (s : Server) (a : Attempt) : Prop :=
  ∀ fd, a.accept = .ok fd → fd ∉ s.openFds ∧ fd ≠ s.mConnectSocket

theorem fits_of_readable {s : Server} {a : Attempt} {e : Reading} (hr : s.Readable a e) :
    Fits s a := by
  intro fd hacc
  have h := hr.1
  rw [hacc] at h
  exact ⟨h.1, fun heq => h.1 (heq ▸ h.2)⟩

theorem greeted_of_fits {s : Server} (hs : s.Fresh) {a : Attempt} {client : ServerConnection}
    (connected : Reaction Call) (ha : a.construct = .ok client) (hfits : Fits s a) :
    Greeted s a (s.greeting a client connected) := by
  obtain ⟨hacc, -, hid, -, hbytes⟩ := Attempt.construct_ok ha
  obtain ⟨hnew, hne⟩ := hfits _ hacc
  have hcall := called_react (((s.accepting a).allocate client).record
    [.connected s.nextPtr (((s.accepting a).allocate client).heap s.nextPtr).mIdentifier]) connected
  have hself : (((s.accepting a).allocate client).record [.connected s.nextPtr
      (((s.accepting a).allocate client).heap s.nextPtr).mIdentifier]).heap s.nextPtr = client :=
    Function.update_self _ _ _
  have hsock : ((s.greeting a client connected).heap s.nextPtr).mSocket = client.mSocket :=
    (hcall.mSocket _).trans (by rw [hself])
  have hopen : client.mSocket ∈ a.opened s.openFds := by
    unfold Attempt.opened
    rw [hacc]
    exact Finset.mem_insert_self _ _
  refine ⟨framed_greeting s hs a client connected, ?_, ?_, ?_, ?_, ?_, ?_, ?_⟩
  · exact (Nat.lt_succ_self _).trans_le hcall.nextPtr.ge
  · rw [hacc, hsock]
  · exact (hcall.mIdentifier _).trans (by rw [hself, hid])
  · rcases hcall.touched s.nextPtr with heq | hmem
    · exact Or.inl (heq.trans (by rw [hself, hbytes]))
    · rw [hself] at hmem
      rw [hsock]
      exact Or.inr hmem
  · rw [hsock]
    exact hnew
  · rw [hsock]
    exact hne
  · rw [hsock]
    exact hcall.closes _ hopen hne

theorem greeted {s : Server} (hs : s.Fresh) {a : Attempt} {client : ServerConnection}
    (connected : Reaction Call) (ha : a.construct = .ok client) {e : Reading}
    (hr : s.Readable a e) : Greeted s a (s.greeting a client connected) :=
  greeted_of_fits hs connected ha (fits_of_readable hr)

theorem acceptBranch_effect_of_fits {s : Server} (hs : s.Fresh) {a : Attempt}
    (connected : Reaction Call) (hfits : Fits s a) :
    Framed s (s.acceptBranch a connected) ∨ Added s a (s.acceptBranch a connected) := by
  apply acceptBranch_rule (P := fun t => Framed s t ∨ Added s a t)
  case rejected => exact fun _ _ => Or.inl (framed_accepting s a)
  case null =>
    exact fun client _ _ => Or.inl ((framed_allocated s hs a client).trans hs (framed_halt _))
  case registered =>
    exact fun client ha _ _ => Or.inr ⟨_, greeted_of_fits hs connected ha hfits, rfl⟩
  case swallowed => exact fun client _ _ _ => Or.inl (framed_greeting s hs a client connected)
  case escaped =>
    exact fun client _ _ _ =>
      Or.inl ((framed_greeting s hs a client connected).trans hs (framed_halt _))

theorem acceptBranch_effect {s : Server} (hs : s.Fresh) {a : Attempt} (connected : Reaction Call)
    {e : Reading} (hr : s.Readable a e) :
    Framed s (s.acceptBranch a connected) ∨ Added s a (s.acceptBranch a connected) :=
  acceptBranch_effect_of_fits hs connected (fits_of_readable hr)

theorem dropConnection_effect {s u : Server} (hs : s.Fresh) (hu : Framed s u) {p q : Ptr}
    {disconnected : Reaction Call} :
    Framed s (u.dropConnection (s.heap p).mSocket q disconnected) ∨
      (s.mCallback = true → disconnected.outcome = .returns) ∧
        Removed s p (u.dropConnection (s.heap p).mSocket q disconnected) := by
  have hd := hu.trans hs (framed_disconnect u q disconnected)
  apply dropConnection_rule (P := fun t => Framed s t ∨
    (s.mCallback = true → disconnected.outcome = .returns) ∧ Removed s p t)
  case silent =>
    intro hcb
    rw [hu.mCallback] at hcb
    exact Or.inr ⟨fun h => absurd (hcb.symm.trans h) Bool.false_ne_true, u, hu, rfl⟩
  case reported => exact fun _ ho => Or.inr ⟨fun _ => ho, _, hd, rfl⟩
  case escaped => exact fun _ _ => Or.inl (hd.trans hs (framed_halt _))

theorem handleServerConnection_effect {s : Server} (hs : s.Fresh) (i : Fd) (e : Reading) :
    Framed s (s.handleServerConnection i e) ∨
      ∃ p, s.mConnections.getServerConnection s.heap i = some p ∧
        (e.recv.data = [] ∨ s.mCallback = true ∧ e.receiveComplete.outcome = .runtimeError) ∧
        (s.mCallback = true → e.disconnected.outcome = .returns) ∧
        Removed s p (s.handleServerConnection i e) := by
  have hrecv := fun p => framed_receiving s p e.recv
  apply handleServerConnection_rule (P := fun t => Framed s t ∨
    ∃ p, s.mConnections.getServerConnection s.heap i = some p ∧
      (e.recv.data = [] ∨ s.mCallback = true ∧ e.receiveComplete.outcome = .runtimeError) ∧
      (s.mCallback = true → e.disconnected.outcome = .returns) ∧ Removed s p t)
  case unknown => exact fun _ => Or.inl (Framed.refl s)
  case failed =>
    intro p what hp hr
    obtain rfl := (getServerConnection_some hp).2
    have hdata : e.recv.data = [] := by
      by_contra hne
      obtain ⟨res, hok⟩ := ((s.heap p).performReceive_isOk_iff e.recv).mpr hne
      rw [hr] at hok
      cases hok
    exact (dropConnection_effect hs (hrecv p)).imp id
      fun h => ⟨p, hp, Or.inl hdata, h.1, h.2⟩
  case silent => exact fun p _ _ _ _ => Or.inl (hrecv p)
  case delivered =>
    exact fun p data _ _ _ _ => Or.inl ((hrecv p).trans hs (framed_deliver _ p data _))
  case thrown =>
    intro p data hp _ hcb ho
    obtain rfl := (getServerConnection_some hp).2
    have hdeliver := (hrecv p).trans hs (framed_deliver _ p data e.receiveComplete)
    exact (dropConnection_effect hs hdeliver).imp id
      fun h => ⟨p, hp, Or.inr ⟨hcb, ho⟩, h.1, h.2⟩
  case escaped =>
    exact fun p data _ _ _ _ => Or.inl
      (((hrecv p).trans hs (framed_deliver _ p data _)).trans hs (framed_halt _))

theorem writeBranch_effect {s : Server} (hs : s.Fresh) (hpc : s.pc ≠ .halted) (i : Fd)
    (e : Writing) :
    Framed s (s.writeBranch i e) ∨ ∃ u, Framed s u ∧ s.writeBranch i e = u.unwatch i := by
  have hhand := fun p => framed_handing s p e.result
  have hreport := fun p count =>
    (hhand p).trans hs (framed_report _ p count e.sendComplete)
  apply writeBranch_rule (P := fun t => Framed s t ∨ ∃ u, Framed s u ∧ t = u.unwatch i) hpc
  case unknown => exact fun _ => Or.inr ⟨s, Framed.refl s, rfl⟩
  case short => exact fun p _ _ => Or.inr ⟨_, hhand p, rfl⟩
  case null => exact fun p _ _ _ _ => Or.inl ((hhand p).trans hs (framed_halt _))
  case reported => exact fun p count _ _ _ _ => Or.inr ⟨_, hreport p count, rfl⟩
  case escaped =>
    exact fun p count _ _ _ _ => Or.inl ((hreport p count).trans hs (framed_halt _))

/-! ### Steps -/

/-- **A step frames the state, but for one change**: it adds a connection, or removes one, or, in
the write branch, unwatches a descriptor. -/
theorem step_effect {s t : Server} {a : Action} (hs : s.Fresh) (h : s.step a = some t) :
    Framed s t ∨ ∃ v pc, t = v.goto pc ∧
      ((∃ attempt, attempts s a = some attempt ∧ Added s attempt v) ∨
        (∃ p, removes s a = some p ∧ Removed s p v) ∨
        (∃ e, a = .write e) ∧ ∃ u i, Framed s u ∧ v = u.unwatch i) := by
  cases a with
  | call c =>
    obtain ⟨-, rfl⟩ := step_call h
    exact Or.inl (.of_called (called_call s c))
  | select result =>
    obtain ⟨-, -, ⟨-, rfl⟩ | ⟨readFds, writeFds, -, -, rfl⟩⟩ := step_select h
    · exact Or.inl (framed_halt s)
    · exact Or.inl { Framed.refl s with }
  | read attempt connected e =>
    obtain ⟨i, fdmax, readFds, writeFds, hpc, hr, rfl⟩ := step_read h
    unfold readBranch
    split_ifs with hi hc
    · rcases acceptBranch_effect hs connected hr with hf | hadd
      · exact Or.inl (hf.trans hs (framed_goto _ _))
      · refine Or.inr ⟨_, _, rfl, Or.inl ⟨attempt, ?_, hadd⟩⟩
        simp only [attempts, hpc, if_pos (⟨hi, hc⟩ : _ ∧ _)]
    · rcases handleServerConnection_effect hs i e with hf | ⟨p, hp, h1, h2, hrem⟩
      · exact Or.inl (hf.trans hs (framed_goto _ _))
      · refine Or.inr ⟨_, _, rfl, Or.inr (Or.inl ⟨p, ?_, hrem⟩)⟩
        simp only [removes, hpc, if_pos (⟨hi, hc, h1, h2⟩ : _ ∧ _ ∧ _ ∧ _), hp]
    · exact Or.inl (framed_goto _ _)
  | write e =>
    obtain ⟨i, fdmax, readFds, writeFds, hpc, hw, rfl⟩ := step_write h
    have hne : s.pc ≠ .halted := by rw [hpc]; exact Pc.noConfusion
    by_cases hi : i ∈ writeFds
    · rw [if_pos hi]
      rcases writeBranch_effect hs hne i e with hf | ⟨u, hu, heq⟩
      · exact Or.inl (hf.trans hs (framed_goto _ _))
      · exact Or.inr ⟨_, _, rfl, Or.inr (Or.inr ⟨⟨e, rfl⟩, u, i, hu, heq⟩)⟩
    · rw [if_neg hi]
      exact Or.inl (framed_goto _ _)

end Server

end C11Http.Posix
