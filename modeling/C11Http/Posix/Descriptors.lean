import C11Http.Posix.Ledger
import C11Http.Posix.ServerLife

/-! # The descriptors of a posix server, from the constructor to the destructor

`Server::Server` opens the listening socket and the self-pipe; an exception in between leaves the
socket open. Behind it the accounts of the accepted descriptors are kept by the loop. The destructor
of `posix::Server` closes the listening socket and the registered ones, so that in the end the two
ends of the self-pipe and the leaked descriptors are left, and every other descriptor that was
accepted has been closed as often as it was accepted; that of `tcp::Server` only shuts down, and
leaves the registered ones as well (`descriptors_left`). -/

namespace C11Http.Posix

open C11Http.Lib.Run Connections

namespace Server

/-- What the system calls of the constructor return. -/
structure Construction where
  socket : Except String Fd
  setsockopt : Option String
  bind : Option String
  listen : Option String
  pipe : Except String (Fd × Fd)

/-- The system opens descriptors that are not open. -/
def Construction.Opens (c : Construction) (openFds : Finset Fd) : Prop :=
  ∀ mConnectSocket, c.socket = .ok mConnectSocket → mConnectSocket ∉ openFds ∧
    ∀ mWakeupPipe, c.pipe = .ok mWakeupPipe →
      mWakeupPipe.1 ∉ insert mConnectSocket openFds ∧ mWakeupPipe.2 ∉ insert mConnectSocket openFds

/-- `Server::Server`, and the descriptors that are open behind it. The write set is not initialized
by it. -/
def construct (mCallback : Bool) (mMasterWrite : Finset Fd) (openFds : Finset Fd)
    (c : Construction) : Except String Setup × Finset Fd :=
  match c.socket with
  | .error strerror => (.error ("Socket Creation Error  " ++ strerror), openFds)
  | .ok mConnectSocket =>
    match c.setsockopt with
    | some strerror => (.error ("Error reusing socket file descriptor " ++ strerror),
        insert mConnectSocket openFds)
    | none =>
      match c.bind with
      | some strerror => (.error ("bind Error " ++ strerror), insert mConnectSocket openFds)
      | none =>
        match c.listen with
        | some strerror => (.error ("listen error " ++ strerror), insert mConnectSocket openFds)
        | none =>
          match c.pipe with
          | .error strerror => (.error ("Failed to create wakeup pipe " ++ strerror),
              insert mConnectSocket openFds)
          | .ok mWakeupPipe =>
            (.ok
              { mConnectSocket := mConnectSocket, mWakeupPipe := mWakeupPipe, mCallback := mCallback
                mMasterWrite := mMasterWrite, openFds := openFds },
              {mConnectSocket, mWakeupPipe.1, mWakeupPipe.2} ∪ openFds)

variable {s t : Server}

theorem construct_ok {mCallback : Bool} {mMasterWrite openFds : Finset Fd} {c : Construction}
    {setup : Setup} (h : (construct mCallback mMasterWrite openFds c).1 = .ok setup) :
    c.socket = .ok setup.mConnectSocket ∧ c.pipe = .ok setup.mWakeupPipe ∧
      setup.mCallback = mCallback ∧ setup.openFds = openFds := by
  unfold construct at h
  split at h
  · cases h
  · rename_i fd hsocket
    split at h
    · cases h
    · split at h
      · cases h
      · split at h
        · cases h
        · split at h
          · cases h
          · rename_i fds hpipe
            cases h
            exact ⟨hsocket, hpipe, rfl, rfl⟩

/-! ### The destructors -/

/-- The deletion of connections closes their sockets. -/
theorem foldl_deleteConnection : ∀ (ps : List Ptr) (s : Server),
    (∀ p ∈ ps, (s.heap p).mSocket ≠ s.mConnectSocket) →
    let t := ps.foldl deleteConnection s
    t.mConnectSocket = s.mConnectSocket ∧ t.acceptedFds = s.acceptedFds ∧
      t.closedFds = s.closedFds ++ ps.map (fun p => (s.heap p).mSocket) ∧
      ∀ fd, fd ∈ t.openFds ↔ fd ∈ s.openFds ∧ fd ∉ ps.map fun p => (s.heap p).mSocket := by
  intro ps
  induction ps with
  | nil => exact fun s _ => ⟨rfl, rfl, (List.append_nil _).symm, fun fd => by simp⟩
  | cons p ps ih =>
    intro s hne
    have hp := hne p List.mem_cons_self
    have hfd : closedFd s.mConnectSocket (.closed (s.heap p).mSocket) = some (s.heap p).mSocket :=
      if_neg hp
    obtain ⟨hconnect, haccepted, hclosed, hopen⟩ :=
      ih (s.deleteConnection p) fun q hq => hne q (List.mem_cons_of_mem p hq)
    have htrace : (s.deleteConnection p).trace =
        s.trace ++ [.deleted p, .closed (s.heap p).mSocket] := List.append_assoc _ _ _
    refine ⟨hconnect, haccepted.trans ?_, hclosed.trans ?_, fun fd => (hopen fd).trans ?_⟩
    · unfold acceptedFds
      rw [htrace, List.filterMap_append]
      exact List.append_nil _
    · have hone : (s.deleteConnection p).closedFds = s.closedFds ++ [(s.heap p).mSocket] := by
        unfold closedFds
        rw [htrace, List.filterMap_append, List.filterMap_cons_none rfl]
        show s.closedFds ++ [Event.closed (s.heap p).mSocket].filterMap
          (closedFd s.mConnectSocket) = _
        rw [List.filterMap_cons_some hfd]
        rfl
      rw [hone, List.append_assoc]
      rfl
    · show fd ∈ s.openFds.erase (s.heap p).mSocket ∧ fd ∉ ps.map _ ↔ _
      rw [Finset.mem_erase, List.map_cons, List.mem_cons, not_or]
      exact ⟨fun ⟨⟨h1, h2⟩, h3⟩ => ⟨h2, h1, h3⟩, fun ⟨h2, h1, h3⟩ => ⟨⟨h1, h2⟩, h3⟩⟩

/-- `closeSocket` of the listening socket, once more. -/
theorem opens_closeSocket (s : Server) : Opens s (s.closeSocket s.mConnectSocket) [] := by
  refine ⟨rfl, ?_, ?_, fun fd hfd => ?_⟩
  · unfold acceptedFds closeSocket
    rw [List.filterMap_append]
    rfl
  · unfold closedFds closeSocket
    rw [List.filterMap_append]
    have hnone : closedFd s.mConnectSocket (.closed s.mConnectSocket) = none := if_pos rfl
    rw [List.filterMap_cons_none hnone]
    exact List.append_nil _
  · show fd ∈ s.openFds.erase s.mConnectSocket ↔ _
    rw [Finset.mem_erase, List.mem_nil_iff, or_false]
    exact and_iff_right hfd

/-- The server before the registry is cleared: the listening socket is closed. -/
theorem opens_closed (s : Server) :
    let u := if s.mHasBeenShutdown = true then s else s.shutdown
    Opens s (u.closeSocket u.mConnectSocket) [] ∧
      (u.closeSocket u.mConnectSocket).registeredFds = s.registeredFds ∧
      s.mConnectSocket ∉ (u.closeSocket u.mConnectSocket).openFds := by
  intro u
  have hu : Opens s u [] ∧ u.registeredFds = s.registeredFds := by
    show Opens s (if s.mHasBeenShutdown = true then s else s.shutdown) [] ∧ _
    split_ifs with hshut
    · exact ⟨.refl s, by rw [show u = s from if_pos hshut]⟩
    · refine ⟨.of_called (called_shutdown s), ?_⟩
      rw [show u = s.shutdown from if_neg hshut]
      rfl
  refine ⟨hu.1.next (opens_closeSocket u), hu.2, ?_⟩
  rw [← hu.1.mConnectSocket]
  exact Finset.notMem_erase _ _

/-- **The destructor of `posix::Server`** leaves the leaked descriptors open, and what was open at
the beginning but for the listening socket. -/
theorem accounted_destroy {base : Finset Fd} {leaked : List Fd} (h : Accounted base s leaked)
    (hbase : s.mConnectSocket ∈ base) :
    s.destroy.acceptedFds.Perm (leaked ++ s.destroy.closedFds) ∧
      s.destroy.openFds = base.erase s.mConnectSocket ∪ leaked.toFinset := by
  obtain ⟨hopens, hregistered, hconnect⟩ := opens_closed s
  set u := (if s.mHasBeenShutdown = true then s else s.shutdown).closeSocket
    (if s.mHasBeenShutdown = true then s else s.shutdown).mConnectSocket with hu
  have hne : ∀ p ∈ u.mConnections.mContainer, (u.heap p).mSocket ≠ u.mConnectSocket := by
    intro p hp heq
    have hmem : (u.heap p).mSocket ∈ s.registeredFds := by
      rw [← hregistered]
      exact List.mem_map_of_mem hp
    rw [heq, hopens.mConnectSocket] at hmem
    exact h.new _ (List.mem_append_left _ hmem) hbase
  obtain ⟨-, haccepted, hclosed, hopen⟩ := foldl_deleteConnection u.mConnections.mContainer u hne
  have hsockets : (u.mConnections.mContainer.map fun p => (u.heap p).mSocket) = s.registeredFds :=
    hregistered
  rw [hsockets] at hclosed hopen
  constructor
  · show (u.mConnections.mContainer.foldl deleteConnection u).acceptedFds.Perm
      (leaked ++ (u.mConnections.mContainer.foldl deleteConnection u).closedFds)
    have hbalance := List.perm_iff_count.mp h.balance
    rw [haccepted, hclosed, hopens.accepted, hopens.closed, List.perm_iff_count]
    intro fd
    have hfd := hbalance fd
    simp only [List.count_append, List.count_nil] at hfd ⊢
    omega
  · show (u.mConnections.mContainer.foldl deleteConnection u).openFds = _
    ext fd
    rw [hopen, Finset.mem_union, Finset.mem_erase, List.mem_toFinset]
    by_cases hfd : fd = s.mConnectSocket
    · subst hfd
      refine iff_of_false (fun hmem => hconnect hmem.1) ?_
      rintro (⟨hself, -⟩ | hmem)
      · exact hself rfl
      · exact h.new _ (List.mem_append_right _ hmem) hbase
    · rw [hopens.opened fd hfd, h.opened fd hfd]
      have honce := List.nodup_append.mp h.once
      have hnew := h.new fd
      have hdisjoint : fd ∈ leaked → fd ∉ s.registeredFds :=
        fun hmem hmem' => honce.2.2 fd hmem' fd hmem rfl
      simp only [List.mem_append, List.mem_nil_iff, or_false] at hnew ⊢
      tauto

/-- **The destructor of `tcp::Server`** leaves the registered descriptors open as well. -/
theorem accounted_shutdown {base : Finset Fd} {leaked : List Fd} (h : Accounted base s leaked)
    (hbase : s.mConnectSocket ∈ base) :
    s.shutdown.openFds =
      base.erase s.mConnectSocket ∪ (s.registeredFds ++ leaked).toFinset := by
  ext fd
  show fd ∈ s.openFds.erase s.mConnectSocket ↔ _
  rw [Finset.mem_erase, Finset.mem_union, Finset.mem_erase, List.mem_toFinset]
  by_cases hfd : fd = s.mConnectSocket
  · subst hfd
    refine iff_of_false (fun hmem => hmem.1 rfl) ?_
    rintro (⟨hself, -⟩ | hmem)
    · exact hself rfl
    · exact h.new _ hmem hbase
  · rw [h.opened fd hfd]
    exact ⟨fun hmem => hmem.2.imp_left fun hb => ⟨hfd, hb⟩,
      fun hmem => ⟨hfd, hmem.imp_left And.right⟩⟩

/-- **What a server leaves open**: the self-pipe and the leaked descriptors, and behind
`tcp::Server` the registered ones. -/
theorem descriptors_left {mMasterWrite openFds : Finset Fd} {c : Construction} {setup : Setup}
    (hc : (construct true mMasterWrite openFds c).1 = .ok setup) (hopens : c.Opens openFds)
    {as : List Action} {s : Server} (hrun : run step (waitForEvents setup) as = some s)
    (hlast : Along step RemovesLast (waitForEvents setup) as) :
    ∃ leaked : List Fd,
      s.destroy.acceptedFds.Perm (leaked ++ s.destroy.closedFds) ∧
      s.destroy.openFds =
        openFds ∪ {setup.mWakeupPipe.1, setup.mWakeupPipe.2} ∪ leaked.toFinset ∧
      s.shutdown.openFds = openFds ∪ {setup.mWakeupPipe.1, setup.mWakeupPipe.2} ∪
        (s.registeredFds ++ leaked).toFinset := by
  obtain ⟨hsocket, hpipe, hcb, hopen⟩ := construct_ok hc
  obtain ⟨hnew, hnewPipe⟩ := hopens _ hsocket
  obtain ⟨hnew₁, hnew₂⟩ := hnewPipe _ hpipe
  obtain ⟨leaked, hacc⟩ := (accounted_always setup hcb as hlast).last hrun
  have hconnect : s.mConnectSocket = setup.mConnectSocket := (constant_run hrun).1
  have hbase : s.mConnectSocket ∈ (waitForEvents setup).openFds := by
    rw [hconnect]
    exact Finset.mem_union_left _ (Finset.mem_insert_self _ _)
  have herase : (waitForEvents setup).openFds.erase s.mConnectSocket =
      openFds ∪ {setup.mWakeupPipe.1, setup.mWakeupPipe.2} := by
    rw [hconnect]
    ext fd
    simp only [waitForEvents, hopen, Finset.mem_erase, Finset.mem_union, Finset.mem_insert,
      Finset.mem_singleton]
    rw [Finset.mem_insert, not_or] at hnew₁ hnew₂
    constructor
    · tauto
    · rintro (hmem | rfl | rfl)
      · exact ⟨fun heq => hnew (heq ▸ hmem), Or.inr hmem⟩
      · exact ⟨hnew₁.1, Or.inl (Or.inr (Or.inl rfl))⟩
      · exact ⟨hnew₂.1, Or.inl (Or.inr (Or.inr rfl))⟩
  obtain ⟨hperm, hleft⟩ := accounted_destroy hacc hbase
  refine ⟨leaked, hperm, ?_, ?_⟩
  · rw [hleft, herase]
  · rw [accounted_shutdown hacc hbase, herase]

/-- A server is built, a client is accepted, and the server is destroyed. -/
theorem descriptors_left_greet : ∃ setup s, ∃ leaked : List Fd,
    (construct true ∅ ∅ ⟨.ok 3, none, none, none, .ok (4, 5)⟩).1 = .ok setup ∧
      run step (waitForEvents setup) greet = some s ∧ s.acceptedFds = [6] ∧
      s.destroy.acceptedFds.Perm (leaked ++ s.destroy.closedFds) ∧
      s.destroy.openFds = ∅ ∪ {setup.mWakeupPipe.1, setup.mWakeupPipe.2} ∪ leaked.toFinset := by
  obtain ⟨s, hrun, haccepted⟩ := exists_run step (waitForEvents listening) greet
    (fun s => s.acceptedFds = [6]) (by decide)
  have hopens : Construction.Opens ⟨.ok 3, none, none, none, .ok (4, 5)⟩ ∅ := by
    rintro _ ⟨⟩
    refine ⟨Finset.notMem_empty _, ?_⟩
    rintro _ ⟨⟩
    decide
  have hbuilt : (construct true ∅ ∅ ⟨.ok 3, none, none, none, .ok (4, 5)⟩).1 = .ok listening := rfl
  obtain ⟨leaked, hperm, hleft, -⟩ := descriptors_left hbuilt hopens hrun (by decide)
  exact ⟨listening, s, leaked, hbuilt, hrun, haccepted, hperm, hleft⟩

end Server

end C11Http.Posix
