import C11Http.Posix.Provenance
import C11Http.Posix.ServerLife

/-! # What is closed at the end of a posix server

How often a life of the server closes its listening socket and the sockets of the registered clients
(`closings`). Every call of `shutdown` closes the listening socket, and nothing else but removals
closes anything (`Shuts`).

`~tcp::Server` calls `shutdown` once more and lets go of the posix server, whose destructor does not
run; `~posix::Server` closes the listening socket behind a `shutdown`, and the clients with the
registry. `closed_all_iff`: when `waitForEvents` has been entered once and no connection removed, a
`tcp::Server` closes everything exactly once if `shutdown` has not been called and there is no
client, and a `posix::Server` never does, as it closes its listening socket at least twice. -/

namespace C11Http.Posix

open C11Http.Lib C11Http.Lib.Run Connections

namespace Server

/-- How often a descriptor has been closed. -/
def closings (fd : Fd) (s : Server) : ℕ := s.trace.count (.closed fd)

/-- **Everything is closed exactly once**: the listening socket and the clients. -/
structure ClosedAll (listening : Fd) (clients : List Fd) (s : Server) : Prop where
  listening : closings listening s = 1
  clients : ∀ fd ∈ clients, closings fd s = 1

/-- A connection has been deleted. -/
def Deleted (s : Server) : Prop := ∃ p, .deleted p ∈ s.trace

/-- From `s` to `t` the listening socket is closed some times, by as many shutdowns, and no other
descriptor. -/
structure Shuts (s t : Server) : Prop where
  mConnectSocket : t.mConnectSocket = s.mConnectSocket
  closings : ∃ n, (t.mHasBeenShutdown = true ↔ s.mHasBeenShutdown = true ∨ 0 < n) ∧
    ∀ fd, closings fd t = closings fd s + if fd = s.mConnectSocket then n else 0

variable {s t u : Server}

namespace Shuts

theorem refl (s : Server) : Shuts s s where
  mConnectSocket := rfl
  closings := ⟨0, by simp, by simp⟩

theorem trans (h : Shuts s t) (h' : Shuts t u) : Shuts s u := by
  obtain ⟨hsock, n, hshut, hclose⟩ := h
  obtain ⟨hsock', m, hshut', hclose'⟩ := h'
  refine ⟨hsock'.trans hsock, n + m, ?_, fun fd => ?_⟩
  · rw [hshut', hshut]
    constructor
    · rintro ((h | h) | h)
      · exact Or.inl h
      · exact Or.inr (by omega)
      · exact Or.inr (by omega)
    · rintro (h | h)
      · exact Or.inl (Or.inl h)
      · rcases Nat.eq_zero_or_pos n with h0 | h0
        · exact Or.inr (by omega)
        · exact Or.inl (Or.inr h0)
  · rw [hclose', hclose, hsock]
    split_ifs <;> omega

/-- Events that close nothing, and a state that is otherwise the same here. -/
theorem of_trace (es : List Event) (hsock : t.mConnectSocket = s.mConnectSocket)
    (hshut : t.mHasBeenShutdown = s.mHasBeenShutdown)
    (htrace : t.trace = s.trace ++ es) (hes : ∀ fd, .closed fd ∉ es) : Shuts s t where
  mConnectSocket := hsock
  closings := by
    refine ⟨0, by simp [hshut], fun fd => ?_⟩
    unfold Server.closings
    rw [htrace, List.count_append, List.count_eq_zero_of_not_mem (hes fd)]
    simp

theorem of_eq (hsock : t.mConnectSocket = s.mConnectSocket)
    (hshut : t.mHasBeenShutdown = s.mHasBeenShutdown) (htrace : t.trace = s.trace) : Shuts s t :=
  of_trace [] hsock hshut (htrace.trans (List.append_nil _).symm) fun _ => List.not_mem_nil

end Shuts

/-! ### Calls -/

theorem shuts_record (s : Server) {es : List Event} (hes : ∀ fd, .closed fd ∉ es) :
    Shuts s (s.record es) := Shuts.of_trace es rfl rfl rfl hes

theorem shuts_sendConnection (s : Server) (data : Bytes) (p : Ptr) :
    Shuts s (s.sendConnection data p) :=
  Shuts.of_trace [.queued p data] rfl rfl rfl (by simp)

theorem shuts_foldl_send (data : Bytes) (ps : List Ptr) (s : Server) :
    Shuts s (ps.foldl (fun s p => s.sendConnection data p) s) := by
  induction ps generalizing s with
  | nil => exact Shuts.refl s
  | cons p ps ih => exact (shuts_sendConnection s data p).trans (ih _)

/-- **A shutdown** closes the listening socket. -/
theorem shutdown_closings (s : Server) (fd : Fd) :
    closings fd s.shutdown = closings fd s + if fd = s.mConnectSocket then 1 else 0 := by
  show (s.trace ++ [Event.closed s.mConnectSocket]).count (Event.closed fd) = _
  rw [List.count_append]
  by_cases hfd : fd = s.mConnectSocket
  · rw [if_pos hfd, hfd, List.count_singleton_self]
    rfl
  · have hno : Event.closed fd ∉ [Event.closed s.mConnectSocket] := by simpa using hfd
    rw [if_neg hfd, List.count_eq_zero_of_not_mem hno]
    rfl

theorem shuts_shutdown (s : Server) : Shuts s s.shutdown where
  mConnectSocket := rfl
  closings := ⟨1, iff_of_true rfl (Or.inr Nat.one_pos), shutdown_closings s⟩

theorem shuts_call (s : Server) (c : Call) : Shuts s (s.call c) := by
  cases c with
  | send data identifier =>
    show Shuts s (s.send data identifier).1
    unfold send
    split
    · exact Shuts.refl s
    · exact (shuts_sendConnection s data _).trans (Shuts.of_eq rfl rfl rfl)
  | broadcast data => exact (shuts_foldl_send data _ s).trans (Shuts.of_eq rfl rfl rfl)
  | shutdown => exact shuts_shutdown s

theorem shuts_calls (cs : List Call) (s : Server) : Shuts s (cs.foldl call s) := by
  induction cs generalizing s with
  | nil => exact Shuts.refl s
  | cons c cs ih => exact (shuts_call s c).trans (ih _)

theorem shuts_react (s : Server) (r : Reaction Call) : Shuts s (s.react r) := by
  have h := shuts_calls r.calls s
  unfold react
  cases r.outcome with
  | returns => exact h
  | runtimeError => exact h.trans (shuts_record _ (by simp))
  | other => exact h.trans (shuts_record _ (by simp))

/-- A report to the callback, and what the callback does then. -/
theorem shuts_reported (s : Server) {e : Event} (he : ∀ fd, e ≠ .closed fd) (r : Reaction Call) :
    Shuts s ((s.record [e]).react r) :=
  (shuts_record s fun fd hmem => he fd (List.mem_singleton.mp hmem).symm).trans (shuts_react _ r)

/-! ### The branches -/

theorem shuts_accepting (s : Server) (a : Attempt) : Shuts s (s.accepting a) := by
  refine Shuts.of_trace a.events rfl rfl rfl fun fd => ?_
  unfold Attempt.events
  cases a.accept with
  | error what => exact List.not_mem_nil
  | ok fd' => cases a.poll <;> simp

theorem shuts_greeting (s : Server) (a : Attempt) (client : ServerConnection)
    (connected : Reaction Call) : Shuts s (s.greeting a client connected) :=
  have hnew : Shuts (s.accepting a) ((s.accepting a).allocate client) := Shuts.of_eq rfl rfl rfl
  ((shuts_accepting s a).trans hnew).trans (shuts_reported _ (fun _ h => by cases h) connected)

theorem shuts_acceptBranch (s : Server) (a : Attempt) (connected : Reaction Call) :
    Shuts s (s.acceptBranch a connected) := by
  have hgreet := fun client => shuts_greeting s a client connected
  apply acceptBranch_rule (P := Shuts s)
  case rejected => exact fun _ _ => shuts_accepting s a
  case null => exact fun _ _ _ => (shuts_accepting s a).trans (Shuts.of_eq rfl rfl rfl)
  case registered => exact fun client _ _ _ => (hgreet client).trans (Shuts.of_eq rfl rfl rfl)
  case swallowed => exact fun client _ _ _ => hgreet client
  case escaped => exact fun client _ _ _ => (hgreet client).trans (Shuts.of_eq rfl rfl rfl)

/-- **A removal** closes nothing, or it deletes a connection. -/
theorem removeServerConnection_shuts (h : Shuts s u) (sckt : Fd) :
    Shuts s (u.removeServerConnection sckt) ∨ (u.removeServerConnection sckt).Deleted := by
  unfold removeServerConnection
  split
  · exact Or.inl (h.trans (Shuts.of_eq rfl rfl rfl))
  · rename_i connections victim _
    exact Or.inr ⟨victim, List.mem_append_right _ List.mem_cons_self⟩

theorem dropConnection_shuts (h : Shuts s u) (sckt : Fd) (p : Ptr) (disconnected : Reaction Call) :
    Shuts s (u.dropConnection sckt p disconnected) ∨
      (u.dropConnection sckt p disconnected).Deleted := by
  have hd : Shuts s (u.disconnect p disconnected) :=
    h.trans (shuts_reported u (fun _ h => by cases h) disconnected)
  apply dropConnection_rule (P := fun t => Shuts s t ∨ t.Deleted)
  case silent => exact fun _ => removeServerConnection_shuts h sckt
  case reported => exact fun _ _ => removeServerConnection_shuts hd sckt
  case escaped => exact fun _ _ => Or.inl (hd.trans (Shuts.of_eq rfl rfl rfl))

theorem handleServerConnection_shuts (s : Server) (i : Fd) (e : Reading) :
    Shuts s (s.handleServerConnection i e) ∨ (s.handleServerConnection i e).Deleted := by
  have hrecv : ∀ p, Shuts s (s.receiving p e.recv) := fun p =>
    Shuts.of_trace [.received (s.heap p).mSocket e.recv.data] rfl rfl rfl (by simp)
  have hdeliver : ∀ p data, Shuts s ((s.receiving p e.recv).deliver p data e.receiveComplete) :=
    fun p data => (hrecv p).trans (shuts_reported _ (fun _ h => by cases h) e.receiveComplete)
  apply handleServerConnection_rule (P := fun t => Shuts s t ∨ t.Deleted)
  case unknown => exact fun _ => Or.inl (Shuts.refl s)
  case failed => exact fun p _ _ _ => dropConnection_shuts (hrecv p) i p e.disconnected
  case silent => exact fun p _ _ _ _ => Or.inl (hrecv p)
  case delivered => exact fun p data _ _ _ _ => Or.inl (hdeliver p data)
  case thrown =>
    exact fun p data _ _ _ _ => dropConnection_shuts (hdeliver p data) i p e.disconnected
  case escaped =>
    exact fun p data _ _ _ _ => Or.inl ((hdeliver p data).trans (Shuts.of_eq rfl rfl rfl))

theorem shuts_writeBranch (hpc : s.pc ≠ .halted) (i : Fd) (e : Writing) :
    Shuts s (s.writeBranch i e) := by
  have hhand : ∀ p, Shuts s (s.handing p e.result) := fun p =>
    Shuts.of_trace [.handed p ((s.heap p).sendQueuedMessage e.result).2.1 e.result] rfl rfl
      rfl (by simp)
  have hreport : ∀ p count, Shuts s ((s.handing p e.result).report p count e.sendComplete) :=
    fun p count => (hhand p).trans (shuts_reported _ (fun _ h => by cases h) e.sendComplete)
  apply writeBranch_rule (P := Shuts s) hpc
  case unknown => exact fun _ => Shuts.of_eq rfl rfl rfl
  case short => exact fun p _ _ => (hhand p).trans (Shuts.of_eq rfl rfl rfl)
  case null => exact fun p _ _ _ _ => (hhand p).trans (Shuts.of_eq rfl rfl rfl)
  case reported => exact fun p count _ _ _ _ => (hreport p count).trans (Shuts.of_eq rfl rfl rfl)
  case escaped => exact fun p count _ _ _ _ => (hreport p count).trans (Shuts.of_eq rfl rfl rfl)

theorem shuts_goto (s : Server) (pc : Pc) : Shuts s (s.goto pc) := by
  unfold goto
  split
  · exact Shuts.refl s
  · exact Shuts.of_eq rfl rfl rfl

theorem Deleted.goto (h : s.Deleted) (pc : Pc) : (s.goto pc).Deleted := by
  unfold Server.goto
  split
  · exact h
  · exact h

/-- **A step** closes nothing but the listening socket, by shutdowns, or it deletes a connection. -/
theorem step_shuts {a : Action} (h : s.step a = some t) : Shuts s t ∨ t.Deleted := by
  cases a with
  | call c =>
    obtain ⟨-, rfl⟩ := step_call h
    exact Or.inl (shuts_call s c)
  | select result =>
    obtain ⟨-, -, ⟨-, rfl⟩ | ⟨readFds, writeFds, -, -, rfl⟩⟩ := step_select h
    · exact Or.inl (Shuts.of_eq rfl rfl rfl)
    · exact Or.inl (Shuts.of_eq rfl rfl rfl)
  | read attempt connected e =>
    obtain ⟨i, fdmax, readFds, writeFds, -, -, rfl⟩ := step_read h
    unfold readBranch
    split_ifs with hi hc
    · exact Or.inl ((shuts_acceptBranch s attempt connected).trans (shuts_goto _ _))
    · exact (handleServerConnection_shuts s i e).imp (fun hs => hs.trans (shuts_goto _ _))
        fun hd => hd.goto _
    · exact Or.inl (shuts_goto s _)
  | write e =>
    obtain ⟨i, fdmax, readFds, writeFds, hpc, -, rfl⟩ := step_write h
    have hne : s.pc ≠ .halted := by rw [hpc]; exact Pc.noConfusion
    refine Or.inl (Shuts.trans ?_ (shuts_goto _ _))
    split_ifs with hi
    · exact shuts_writeBranch hne i e
    · exact Shuts.refl s

/-! ### What holds until a connection is deleted -/

/-- The listening socket has been closed if there has been a shutdown, and nothing else. -/
structure Counted (s : Server) : Prop where
  listening : s.mHasBeenShutdown = true ↔ 0 < closings s.mConnectSocket s
  others : ∀ fd ≠ s.mConnectSocket, closings fd s = 0

theorem Counted.shuts (hs : s.Counted) (h : Shuts s t) : t.Counted := by
  obtain ⟨hsock, n, hshut, hclose⟩ := h
  constructor
  · rw [hshut, hs.listening, hsock, hclose, if_pos rfl]
    omega
  · intro fd hfd
    rw [hsock] at hfd
    rw [hclose, if_neg hfd, hs.others fd hfd]

/-- No connection has been deleted, the registry is live and the closings counted; or one has. -/
def Unremoved (s : Server) : Prop := s.Fresh ∧ (s.Deleted ∨ s.Live ∧ s.Counted)

theorem Deleted.mono (h : s.Deleted) (htrace : s.trace <+: t.trace) : t.Deleted := by
  obtain ⟨p, hp⟩ := h
  exact ⟨p, htrace.subset hp⟩

/-- A connection that is removed from a live registry is deleted. -/
theorem Live.removed_deleted {p : Ptr} (hs : s.Live) (hp : p ∈ s.mConnections.mContainer)
    (h : Removed s p t) : t.Deleted := by
  obtain ⟨u, hu, rfl⟩ := h
  have hlive := hs.framed hu
  have hsock := hu.mSocket p (hs.fresh p (Or.inl hp))
  rw [← hu.mConnections] at hp
  obtain ⟨xs, ys, hc⟩ := List.append_of_mem hp
  obtain ⟨victim, hv⟩ : ∃ v, u.mConnections.mContainer.getLast? = some v :=
    ⟨_, List.getLast?_eq_some_getLast (List.ne_nil_of_mem hp)⟩
  refine ⟨victim, ?_⟩
  rw [← hsock]
  unfold removeServerConnection
  rw [Connections.removeServerConnection_mem hlive.distinct hc hv]
  exact List.mem_append_right _ List.mem_cons_self

theorem live_or_deleted_step {a : Action} (hs : s.Live) (h : s.step a = some t) :
    t.Live ∨ t.Deleted := by
  cases hrem : removes s a with
  | none =>
    refine Or.inl (live_step hs ?_ h)
    intro p hp
    rw [hrem] at hp
    cases hp
  | some p =>
    rcases step_effect hs.fresh h with
      hf | ⟨v, pc, rfl, ⟨attempt, -, hadd⟩ | ⟨q, hq, hremoved⟩ | ⟨-, w, i, hw, rfl⟩⟩
    · exact Or.inl (hs.framed hf)
    · exact Or.inl ((hs.added hadd).framed (framed_goto v pc))
    · exact Or.inr ((hs.removed_deleted (removes_mem hq) hremoved).goto pc)
    · have hun : (w.unwatch i).Live := { hs.framed hw with }
      exact Or.inl (hun.framed (framed_goto _ pc))

theorem Unremoved.step {a : Action} (hs : s.Unremoved) (h : s.step a = some t) : t.Unremoved := by
  refine ⟨fresh_step hs.1 h, ?_⟩
  rcases hs.2 with hdel | ⟨hlive, hcount⟩
  · exact Or.inl (hdel.mono (advanced_step hs.1 h).trace)
  · rcases live_or_deleted_step hlive h with hlive' | hdel
    · exact (step_shuts h).symm.imp_right fun hshuts => ⟨hlive', hcount.shuts hshuts⟩
    · exact Or.inl hdel

theorem Unremoved.call (hs : s.Unremoved) (c : Call) : (s.call c).Unremoved := by
  have hframed := Framed.of_called (called_call s c)
  exact ⟨hframed.fresh hs.1, hs.2.imp (fun hdel => hdel.mono hframed.trace)
    fun h => ⟨h.1.framed hframed, h.2.shuts (shuts_call s c)⟩⟩

/-- An empty registry is live. -/
theorem Live.of_empty (hs : s.Live) (hconn : t.mConnections.mContainer = [])
    (hmap : ∀ identifier, t.mConnections.mMapping identifier = none) (htrace : t.trace = s.trace)
    (hptr : t.nextPtr = s.nextPtr) : t.Live := by
  have hno : ∀ p, p ∉ t.mConnections.mContainer := by
    intro p
    rw [hconn]
    exact List.not_mem_nil
  refine ⟨?_, ?_, ?_, fun p hp => absurd hp (hno p), fun p hp => absurd hp (hno p),
    fun p hp => absurd hp (hno p), ?_⟩
  · rintro p (hp | ⟨identifier, hp⟩)
    · exact absurd hp (hno p)
    · rw [hmap] at hp
      cases hp
  · unfold SocketsDistinct
    rw [hconn]
    exact List.nodup_nil
  · intro identifier p hp
    rw [hmap] at hp
    cases hp
  · rw [htrace, hptr]
    exact hs.deleted

theorem fresh_enter (s : Server) : s.enter.Fresh := by
  rintro p (hp | ⟨identifier, hp⟩)
  · cases hp
  · cases hp

theorem Unremoved.enter (hs : s.Unremoved) : s.enter.Unremoved :=
  ⟨fresh_enter s, hs.2.imp id fun h =>
    ⟨h.1.of_empty rfl (fun _ => rfl) rfl rfl, h.2.shuts (Shuts.of_eq rfl rfl rfl)⟩⟩

/-! ### The destructors -/

theorem closeSocket_closings (s : Server) (fd fd' : Fd) :
    closings fd (s.closeSocket fd') = closings fd s + [fd'].count fd := by
  show (s.trace ++ [Event.closed fd']).count (Event.closed fd) = _
  rw [List.count_append]
  by_cases hfd : fd' = fd
  · rw [hfd, List.count_singleton_self, List.count_singleton_self]
    rfl
  · have hno : Event.closed fd ∉ [Event.closed fd'] := by simpa using Ne.symm hfd
    have hno' : fd ∉ [fd'] := by simpa using Ne.symm hfd
    rw [List.count_eq_zero_of_not_mem hno, List.count_eq_zero_of_not_mem hno']
    rfl

theorem deleteConnection_closings (s : Server) (fd : Fd) (p : Ptr) :
    closings fd (s.deleteConnection p) = closings fd s + [(s.heap p).mSocket].count fd := by
  have hrec : closings fd (s.record [.deleted p]) = closings fd s := by
    have hno : Event.closed fd ∉ [Event.deleted p] := by simp
    show (s.trace ++ [Event.deleted p]).count (Event.closed fd) = _
    rw [List.count_append, List.count_eq_zero_of_not_mem hno]
    rfl
  unfold deleteConnection
  rw [closeSocket_closings, hrec]

theorem foldl_deleteConnection_closings (fd : Fd) (ps : List Ptr) (s : Server) :
    closings fd (ps.foldl deleteConnection s) =
      closings fd s + (ps.map fun p => (s.heap p).mSocket).count fd := by
  induction ps generalizing s with
  | nil => rfl
  | cons p ps ih =>
    have hheap : (s.deleteConnection p).heap = s.heap := rfl
    have hcount : ((s.heap p).mSocket :: ps.map fun p => (s.heap p).mSocket).count fd =
        [(s.heap p).mSocket].count fd + (ps.map fun p => (s.heap p).mSocket).count fd := by
      rw [← List.singleton_append, List.count_append]
    rw [List.foldl_cons, ih, deleteConnection_closings, hheap, List.map_cons, hcount, Nat.add_assoc]

theorem clear_closings (s : Server) (fd : Fd) :
    closings fd s.clear = closings fd s + (s.mConnections.sockets s.heap).count fd :=
  foldl_deleteConnection_closings fd s.mConnections.mContainer s

/-- `~posix::Server` closes the listening socket behind a shutdown, then the clients. -/
theorem destroy_closings (s : Server) (fd : Fd) :
    closings fd s.destroy = closings fd s + (if s.mHasBeenShutdown then 0 else
      if fd = s.mConnectSocket then 1 else 0) + [s.mConnectSocket].count fd +
        (s.mConnections.sockets s.heap).count fd := by
  unfold destroy
  by_cases hshut : s.mHasBeenShutdown = true
  · simp only [hshut, if_true]
    rw [clear_closings, closeSocket_closings, Nat.add_zero]
    rfl
  · simp only [if_neg hshut]
    rw [clear_closings, closeSocket_closings, shutdown_closings]
    rfl

/-- **Destroyed directly**, a server closes its listening socket twice or more, and each of its
clients once. -/
theorem destroy_closes (hlive : s.Live) (hcount : s.Counted) :
    2 ≤ closings s.mConnectSocket s.destroy ∧
      ∀ fd ∈ s.mConnections.sockets s.heap, closings fd s.destroy = 1 := by
  constructor
  · rw [destroy_closings, List.count_singleton_self]
    by_cases hshut : s.mHasBeenShutdown = true
    · have hpos := hcount.listening.mp hshut
      omega
    · rw [if_neg hshut, if_pos rfl]
      omega
  · intro fd hfd
    obtain ⟨p, hp, rfl⟩ := mem_sockets.mp hfd
    have hne := hlive.connect p hp
    have hnd : (s.mConnections.sockets s.heap).Nodup := hlive.distinct
    have hno : (s.heap p).mSocket ∉ [s.mConnectSocket] := by simpa using hne
    rw [destroy_closings, hcount.others _ hne, if_neg hne, ite_self,
      List.count_eq_zero_of_not_mem hno, List.count_eq_one_of_mem hnd hfd]

/-- **Behind `tcp::Server`** the listening socket is closed by a last shutdown, and no client is. -/
theorem shutdown_closedAll_iff (hlive : s.Live) (hcount : s.Counted) :
    ClosedAll s.mConnectSocket (s.mConnections.sockets s.heap) s.shutdown ↔
      s.mHasBeenShutdown = false ∧ s.mConnections.mContainer = [] := by
  constructor
  · rintro ⟨hone, hclients⟩
    constructor
    · rw [shutdown_closings, if_pos rfl] at hone
      by_contra hshut
      have hpos := hcount.listening.mp (by simpa using hshut)
      omega
    · rw [List.eq_nil_iff_forall_not_mem]
      intro p hp
      have hfd := hclients _ (mem_sockets.mpr ⟨p, hp, rfl⟩)
      have hne := hlive.connect p hp
      rw [shutdown_closings, if_neg hne, hcount.others _ hne] at hfd
      cases hfd
  · rintro ⟨hshut, hnone⟩
    have hzero : ¬ 0 < closings s.mConnectSocket s := fun hpos => by
      have htrue := hcount.listening.mpr hpos
      rw [hshut] at htrue
      cases htrue
    refine ⟨?_, fun fd hfd => ?_⟩
    · rw [shutdown_closings, if_pos rfl]
      omega
    · obtain ⟨p, hp, -⟩ := mem_sockets.mp hfd
      rw [hnone] at hp
      cases hp

end Server

namespace ServerLife

open Server

/-- What holds while the server lives. -/
def Kept (o : ServerLife) : Prop := o.stage = .outside ∨ o.stage = .inside → o.server.Unremoved

theorem kept_construct (setup : Setup) : Kept (construct setup) := fun _ =>
  ⟨(Live.start setup).of_empty rfl (fun _ => rfl) rfl rfl |>.fresh,
    Or.inr ⟨(Live.start setup).of_empty rfl (fun _ => rfl) rfl rfl,
      ⟨iff_of_false Bool.false_ne_true (lt_irrefl 0), fun _ _ => rfl⟩⟩⟩

theorem kept_step {o u : ServerLife} {a : Action} (ho : Kept o) (h : step o a = some u) :
    Kept u := by
  intro hu
  cases a with
  | call c =>
    obtain ⟨hout, rfl⟩ := step_call h
    exact (ho (Or.inl hout)).call c
  | waitForEvents =>
    obtain ⟨hout, rfl⟩ := step_waitForEvents h
    exact (ho (Or.inl hout)).enter
  | loop a =>
    obtain ⟨hin, s, hs, rfl⟩ := step_loop h
    exact (ho (Or.inr hin)).step hs
  | returns =>
    obtain ⟨hin, -, rfl⟩ := step_returns h
    exact ho (Or.inr hin)
  | destroy =>
    obtain ⟨-, rfl⟩ := step_destroy h
    rcases hu with hu | hu <;> cases hu
  | destroyTcp =>
    obtain ⟨-, rfl⟩ := step_destroyTcp h
    rcases hu with hu | hu <;> cases hu

/-- What the listening socket and the sockets of the registered clients are when the server ends. -/
def ClosesAll (o : ServerLife) (a : Action) : Prop :=
  ∃ u, step o a = some u ∧
    ClosedAll o.server.mConnectSocket (o.server.mConnections.sockets o.server.heap) u.server

/-- **When a server ends, everything is closed exactly once** behind `tcp::Server` if and only if it
has not been shut down and has no client; destroyed directly it never is, as the listening socket is
closed twice or more, while each client is closed once. -/
theorem closed_all_iff {setup : Setup} {as : List Action} {o : ServerLife}
    (hrun : run step (construct setup) as = some o) (hreturned : o.stage = .outside)
    (hremoved : ∀ p, .deleted p ∉ o.server.trace) :
    (ClosesAll o .destroyTcp ↔
      o.server.mHasBeenShutdown = false ∧ o.server.mConnections.mContainer = []) ∧
    ¬ ClosesAll o .destroy ∧ ∃ u, step o .destroy = some u ∧
      2 ≤ closings o.server.mConnectSocket u.server ∧
        ∀ fd ∈ o.server.mConnections.sockets o.server.heap, closings fd u.server = 1 := by
  have hkept : Kept o :=
    (always_of_inv (fun _ _ _ ho h => kept_step ho h) as (kept_construct setup)).last hrun
  obtain ⟨hlive, hcount⟩ := (hkept (Or.inl hreturned)).2.resolve_left
    fun ⟨p, hp⟩ => hremoved p hp
  have htcp : step o .destroyTcp =
      some { o with server := o.server.shutdown, stage := .abandoned } := if_pos hreturned
  have hdestroy : step o .destroy = some { o with
      server := o.server.destroy
      stage := .destroyed
      log := o.log ++ [.release (.connections o.mConnections)] } := if_pos hreturned
  have hcloses := destroy_closes hlive hcount
  refine ⟨?_, ?_, _, hdestroy, hcloses⟩
  · rw [← shutdown_closedAll_iff hlive hcount]
    unfold ClosesAll
    rw [htcp]
    constructor
    · rintro ⟨u, hu, hall⟩
      cases hu
      exact hall
    · exact fun hall => ⟨_, rfl, hall⟩
  · rintro ⟨u, hu, hall⟩
    rw [hdestroy] at hu
    cases hu
    have hone : closings o.server.mConnectSocket o.server.destroy = 1 := hall.listening
    have htwo := hcloses.1
    omega

/-- A client is accepted, the server shut down, and `waitForEvents` returns. -/
def visited : List Action :=
  .waitForEvents :: ((greet ++ [Server.Action.call .shutdown]).map .loop ++ [.returns])

theorem visited_ends : ∃ o, run step (construct listening) visited = some o ∧
    o.stage = .outside ∧ (∀ p, .deleted p ∉ o.server.trace) ∧ o.server.mHasBeenShutdown = true ∧
      o.server.mConnectSocket = 3 ∧ o.server.mConnections.sockets o.server.heap = [6] ∧
      closings 3 o.server.shutdown = 2 ∧ closings 6 o.server.shutdown = 0 ∧
      closings 3 o.server.destroy = 2 ∧ closings 6 o.server.destroy = 1 := by
  obtain ⟨o, hrun, hout, htrace, hends⟩ := exists_run step (construct listening) visited
    (fun o => o.stage = .outside ∧
      o.server.trace = [.accepted 6, .acked 6 3, .received 6 [97], .connected 0 [97], .closed 3] ∧
      o.server.mHasBeenShutdown = true ∧ o.server.mConnectSocket = 3 ∧
      o.server.mConnections.sockets o.server.heap = [6] ∧
      closings 3 o.server.shutdown = 2 ∧ closings 6 o.server.shutdown = 0 ∧
      closings 3 o.server.destroy = 2 ∧ closings 6 o.server.destroy = 1) (by decide)
  exact ⟨o, hrun, hout, fun p hp => by simp [htrace] at hp, hends⟩

theorem closed_all_visited : ∃ o, run step (construct listening) visited = some o ∧
    ¬ ClosesAll o .destroyTcp ∧ ¬ ClosesAll o .destroy := by
  obtain ⟨o, hrun, hout, hremoved, hshut, -⟩ := visited_ends
  have hall := closed_all_iff hrun hout hremoved
  refine ⟨o, hrun, fun htcp => ?_, hall.2.1⟩
  have hno := (hall.1.mp htcp).1
  rw [hshut] at hno
  cases hno

/-- **With one client and one `shutdown`** the listening socket is closed twice and the client never
behind `tcp::Server`, and the listening socket twice when the server is destroyed directly. -/
theorem closed_twice : ∃ o, run step (construct listening) visited = some o ∧
    o.stage = .outside ∧ (∀ p, .deleted p ∉ o.server.trace) ∧
    o.server.mConnectSocket = 3 ∧ o.server.mConnections.sockets o.server.heap = [6] ∧
    (∃ u, step o .destroyTcp = some u ∧ closings 3 u.server = 2 ∧ closings 6 u.server = 0) ∧
    (∃ u, step o .destroy = some u ∧ closings 3 u.server = 2 ∧ closings 6 u.server = 1) ∧
    ¬ ClosesAll o .destroyTcp ∧ ¬ ClosesAll o .destroy := by
  obtain ⟨o, hrun, hout, hremoved, -, hsock, hsocks, htcp3, htcp6, hdir3, hdir6⟩ := visited_ends
  have hnot : ∀ a (s : Server), closings 3 s = 2 →
      (∀ u, step o a = some u → u.server = s) → ¬ ClosesAll o a := by
    rintro a s htwo heq ⟨u, hu, hall⟩
    have hone := hall.listening
    rw [heq u hu, hsock, htwo] at hone
    cases hone
  refine ⟨o, hrun, hout, hremoved, hsock, hsocks, ⟨_, if_pos hout, htcp3, htcp6⟩,
    ⟨_, if_pos hout, hdir3, hdir6⟩, hnot .destroyTcp _ htcp3 fun u hu => ?_,
    hnot .destroy _ hdir3 fun u hu => ?_⟩
  · obtain ⟨-, rfl⟩ := step_destroyTcp hu
    rfl
  · obtain ⟨-, rfl⟩ := step_destroy hu
    rfl

end ServerLife

end C11Http.Posix
