import C11Http.Posix.Frames

/-! # The registry over a run

What holds in every state a run of the event loop reaches: calls reach only objects that have been
allocated (`fresh_run`), and the listening socket and the callback stay (`constant_run`).

`Live`: the registered connections are alive, have open sockets, pairwise different and none of them
the listening one, and the map holds nothing else. A step keeps it if the connection it removes, if
it removes one, is the last of the vector (`live_step`): only then is that connection the one that
is deleted. -/

namespace C11Http.Posix.Server

open C11Http.Lib.Run Connections

/-- The connection a step removes, if it removes one, is the last of the vector. -/
def RemovesLast (s : Server) (a : Action) : Prop :=
  ∀ p ∈ removes s a, s.mConnections.mContainer.getLast? = some p

instance (s : Server) (a : Action) : Decidable (RemovesLast s a) := by
  unfold RemovesLast; infer_instance

structure Live (s : Server) : Prop where
  fresh : s.Fresh
  distinct : s.mConnections.SocketsDistinct s.heap
  mapped : MapRegistered s.heap s.mConnections
  opened : ∀ p ∈ s.mConnections.mContainer, (s.heap p).mSocket ∈ s.openFds
  connect : ∀ p ∈ s.mConnections.mContainer, (s.heap p).mSocket ≠ s.mConnectSocket
  alive : ∀ p ∈ s.mConnections.mContainer, p ∉ s.trace.filterMap deletedBy
  deleted : ∀ p ∈ s.trace.filterMap deletedBy, p < s.nextPtr

/-! ### Without assumptions -/

/-- A connection that is removed was found by its socket. -/
theorem removes_some {s : Server} {a : Action} {p : Ptr} (h : removes s a = some p) :
    p ∈ s.mConnections.mContainer ∧ ∃ attempt connected e fdmax readFds writeFds,
      a = .read attempt connected e ∧
        s.pc = .scan (s.heap p).mSocket fdmax readFds writeFds .read ∧
        (s.heap p).mSocket ∈ readFds ∧ (s.heap p).mSocket ≠ s.mConnectSocket := by
  unfold removes at h
  split at h
  · rename_i attempt connected e
    split at h
    · rename_i i fdmax readFds writeFds hpc
      split_ifs at h with hif
      obtain ⟨hp, rfl⟩ := getServerConnection_some h
      exact ⟨hp, attempt, connected, e, fdmax, readFds, writeFds, rfl, hpc, hif.1, hif.2.1⟩
    · cases h
  · cases h

theorem removes_mem {s : Server} {a : Action} {p : Ptr} (h : removes s a = some p) :
    p ∈ s.mConnections.mContainer := (removes_some h).1

theorem fresh_step {s t : Server} {a : Action} (hs : s.Fresh) (h : s.step a = some t) :
    t.Fresh := by
  rcases step_effect hs h with hf | ⟨v, pc, rfl, ⟨attempt, -, u, hu, rfl⟩ |
    ⟨p, -, u, hu, rfl⟩ | ⟨-, u, i, hu, rfl⟩⟩
  · exact hf.fresh hs
  · exact (framed_goto _ pc).fresh (fresh_addServerConnection (hu.framed.fresh hs) hu.allocated)
  · exact (framed_goto _ pc).fresh (fresh_removeServerConnection (hu.fresh hs) _)
  · exact (framed_goto _ pc).fresh (hu.fresh hs)

theorem fresh_start (setup : Setup) : (waitForEvents setup).Fresh := by
  rintro p (hp | ⟨identifier, hp⟩)
  · simp [waitForEvents, new] at hp
  · simp [waitForEvents, new] at hp

theorem fresh_run {setup : Setup} {as : List Action} {s : Server}
    (h : run step (waitForEvents setup) as = some s) : s.Fresh :=
  (always_of_inv (P := Fresh) (fun _ _ _ hs ht => fresh_step hs ht) as (fresh_start setup)).last h

theorem constant_step {s t : Server} {a : Action} (hs : s.Fresh) (h : s.step a = some t) :
    t.mConnectSocket = s.mConnectSocket ∧ t.mCallback = s.mCallback := by
  rcases step_effect hs h with hf | ⟨v, pc, rfl, ⟨attempt, -, u, hu, rfl⟩ |
    ⟨p, -, u, hu, rfl⟩ | ⟨-, u, i, hu, rfl⟩⟩
  · exact ⟨hf.mConnectSocket, hf.mCallback⟩
  · have hgoto := framed_goto (u.addServerConnection s.nextPtr) pc
    exact ⟨hgoto.mConnectSocket.trans hu.framed.mConnectSocket,
      hgoto.mCallback.trans hu.framed.mCallback⟩
  · have hgoto := framed_goto (u.removeServerConnection (s.heap p).mSocket) pc
    obtain ⟨h1, h2⟩ := removeServerConnection_mCallback u (s.heap p).mSocket
    exact ⟨hgoto.mConnectSocket.trans (h1.trans hu.mConnectSocket),
      hgoto.mCallback.trans (h2.trans hu.mCallback)⟩
  · have hgoto := framed_goto (u.unwatch i) pc
    exact ⟨hgoto.mConnectSocket.trans hu.mConnectSocket, hgoto.mCallback.trans hu.mCallback⟩

theorem constant_run {setup : Setup} {as : List Action} {s : Server}
    (h : run step (waitForEvents setup) as = some s) :
    s.mConnectSocket = setup.mConnectSocket ∧ s.mCallback = setup.mCallback := by
  have hall : Always step (fun s => s.Fresh ∧ s.mConnectSocket = setup.mConnectSocket ∧
      s.mCallback = setup.mCallback) (waitForEvents setup) as := by
    refine always_of_inv (fun s a t hs ht => ?_) as ⟨fresh_start setup, rfl, rfl⟩
    obtain ⟨h1, h2⟩ := constant_step hs.1 ht
    exact ⟨fresh_step hs.1 ht, h1.trans hs.2.1, h2.trans hs.2.2⟩
  exact (hall.last h).2

/-! ### While removals are of the last connection -/

theorem Live.start (setup : Setup) : (waitForEvents setup).Live where
  fresh := fresh_start setup
  distinct := by simp [waitForEvents, new, SocketsDistinct]
  mapped := fun identifier p h => by simp [waitForEvents, new] at h
  opened := by simp [waitForEvents, new]
  connect := by simp [waitForEvents, new]
  alive := by simp [waitForEvents, new]
  deleted := by simp [waitForEvents]

theorem Live.framed {s t : Server} (hs : s.Live) (h : Framed s t) : t.Live := by
  have hlt : ∀ p ∈ s.mConnections.mContainer, p < s.nextPtr := fun p hp => hs.fresh p (Or.inl hp)
  have hsock : ∀ p ∈ s.mConnections.mContainer, (t.heap p).mSocket = (s.heap p).mSocket :=
    fun p hp => h.mSocket p (hlt p hp)
  refine ⟨h.fresh hs.fresh, ?_, ?_, ?_, ?_, ?_, ?_⟩
  all_goals simp only [SocketsDistinct, MapRegistered, h.mConnections, h.mConnectSocket, h.deleted]
  · rw [List.map_congr_left hsock]
    exact hs.distinct
  · intro identifier p hp
    obtain ⟨hmem, hid⟩ := hs.mapped identifier p hp
    exact ⟨hmem, (h.mIdentifier p (hlt p hmem)).trans hid⟩
  · intro p hp
    rw [hsock p hp]
    exact h.closes _ (hs.opened p hp) (hs.connect p hp)
  · intro p hp
    rw [hsock p hp]
    exact hs.connect p hp
  · exact hs.alive
  · exact fun p hp => (hs.deleted p hp).trans_le h.nextPtr

theorem Live.add {s : Server} (hs : s.Live) {p : Ptr} (hp : p < s.nextPtr)
    (hnew : ∀ q ∈ s.mConnections.mContainer, (s.heap q).mSocket ≠ (s.heap p).mSocket)
    (hopen : (s.heap p).mSocket ∈ s.openFds) (hne : (s.heap p).mSocket ≠ s.mConnectSocket)
    (hdel : p ∉ s.trace.filterMap deletedBy) : (s.addServerConnection p).Live where
  fresh := fresh_addServerConnection hs.fresh hp
  distinct := hs.distinct.add hnew
  mapped := hs.mapped.add p
  opened q hq := by
    rcases List.mem_append.mp hq with hq | hq
    · exact hs.opened q hq
    · rw [List.mem_singleton.mp hq]; exact hopen
  connect q hq := by
    rcases List.mem_append.mp hq with hq | hq
    · exact hs.connect q hq
    · rw [List.mem_singleton.mp hq]; exact hne
  alive q hq := by
    rcases List.mem_append.mp hq with hq | hq
    · exact hs.alive q hq
    · rw [List.mem_singleton.mp hq]; exact hdel
  deleted := hs.deleted

/-- Removing the last connection of the vector. -/
theorem removeServerConnection_of_last {s : Server} (hs : s.Live) {xs : List Ptr} {p : Ptr}
    (hc : s.mConnections.mContainer = xs ++ [p]) :
    s.removeServerConnection (s.heap p).mSocket =
      { s with
        mConnections :=
          { mContainer := xs
            mMapping := Function.update s.mConnections.mMapping (s.heap p).mIdentifier none
            mRead := s.mConnections.mRead.erase (s.heap p).mSocket
            mFdMax := largest s.heap xs }
        openFds := s.openFds.erase (s.heap p).mSocket
        trace := s.trace ++ [.deleted p, .closed (s.heap p).mSocket] } := by
  unfold removeServerConnection
  rw [removeServerConnection_last hs.distinct hc]

theorem Live.remove {s : Server} (hs : s.Live) {xs : List Ptr} {p : Ptr}
    (hc : s.mConnections.mContainer = xs ++ [p]) :
    (s.removeServerConnection (s.heap p).mSocket).Live := by
  have hfresh := fresh_removeServerConnection hs.fresh (s.heap p).mSocket
  have hxs : ∀ q ∈ xs, (s.heap q).mSocket ≠ (s.heap p).mSocket := (hs.distinct.split hc).1
  have hmem : ∀ q ∈ xs, q ∈ s.mConnections.mContainer := fun q hq => by rw [hc]; simp [hq]
  have hp : p ∈ s.mConnections.mContainer := by rw [hc]; simp
  rw [removeServerConnection_of_last hs hc] at hfresh ⊢
  refine ⟨hfresh, ?_, ?_, ?_, ?_, ?_, ?_⟩
  · exact hs.distinct.sublist (by rw [hc]; exact List.sublist_append_left _ _)
  · refine hs.mapped.remove hc ?_ rfl
    simp
  · exact fun q hq => Finset.mem_erase.mpr ⟨hxs q hq, hs.opened q (hmem q hq)⟩
  · exact fun q hq => hs.connect q (hmem q hq)
  · intro q hq hdel
    rw [List.filterMap_append, List.mem_append] at hdel
    rcases hdel with hdel | hdel
    · exact hs.alive q (hmem q hq) hdel
    · simp only [deletedBy, List.filterMap_cons, List.filterMap_nil, List.mem_singleton] at hdel
      exact hxs q hq (by rw [hdel])
  · intro q hdel
    rw [List.filterMap_append, List.mem_append] at hdel
    rcases hdel with hdel | hdel
    · exact hs.deleted q hdel
    · simp only [deletedBy, List.filterMap_cons, List.filterMap_nil, List.mem_singleton] at hdel
      rw [hdel]
      exact hs.fresh p (Or.inl hp)

theorem Live.added {s t : Server} (hs : s.Live) {a : Attempt} (h : Added s a t) : t.Live := by
  obtain ⟨u, hu, rfl⟩ := h
  have hne : (u.heap s.nextPtr).mSocket ≠ u.mConnectSocket := by
    rw [hu.framed.mConnectSocket]
    exact hu.connect
  refine (hs.framed hu.framed).add hu.allocated (fun q hq heq => ?_) hu.opened hne fun hdel => ?_
  · rw [hu.framed.mConnections] at hq
    rw [hu.framed.mSocket q (hs.fresh q (Or.inl hq))] at heq
    exact hu.new (heq ▸ hs.opened q hq)
  · rw [hu.framed.deleted] at hdel
    exact (hs.deleted _ hdel).ne rfl

theorem Live.removed {s t : Server} (hs : s.Live) {p : Ptr}
    (hlast : s.mConnections.mContainer.getLast? = some p) (h : Removed s p t) : t.Live := by
  obtain ⟨u, hu, rfl⟩ := h
  obtain ⟨xs, hc⟩ := List.getLast?_eq_some_iff.mp hlast
  have hp : p ∈ s.mConnections.mContainer := by rw [hc]; simp
  have hsock := hu.mSocket p (hs.fresh p (Or.inl hp))
  rw [← hu.mConnections] at hc
  rw [← hsock]
  exact (hs.framed hu).remove hc

/-- **A step keeps the registry live** if it removes no connection but the last of the vector. -/
theorem live_step {s t : Server} {a : Action} (hs : s.Live) (hlast : RemovesLast s a)
    (h : s.step a = some t) : t.Live := by
  rcases step_effect hs.fresh h with
    hf | ⟨v, pc, rfl, ⟨attempt, -, hadd⟩ | ⟨p, hp, hrem⟩ | ⟨-, u, i, hu, rfl⟩⟩
  · exact hs.framed hf
  · exact (hs.added hadd).framed (framed_goto v pc)
  · exact (hs.removed (hlast p hp) hrem).framed (framed_goto v pc)
  · have hun : (u.unwatch i).Live := { hs.framed hu with }
    exact hun.framed (framed_goto _ pc)

end C11Http.Posix.Server
