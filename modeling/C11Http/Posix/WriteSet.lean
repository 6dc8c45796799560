import C11Http.Posix.Live

/-! # The write set of the posix server

`mMasterWrite` at the top of the loop. Every descriptor in it belongs to a registered connection, so
that `select` is never given a closed one, in every run whose removals are clean
(`writeSet_registered`): the connection is the last of the vector, and either its descriptor is also
ready for writing in this pass, so that the write branch clears it next, or the descriptor is not
watched and no callback of the step queues a message for the connection. `removeServerConnection`
itself clears the read set only.

The invariant `Covered` allows one descriptor besides: the one the write branch is about to clear.
-/

namespace C11Http.Posix

open C11Http.Lib.Run Connections

/-- The call queues a message for the connection. -/
def Call.Reaches (c : Connections) (p : Ptr) : Call → Prop
  | .send _ identifier => c.mMapping identifier = some p
  | .broadcast _ => p ∈ c.mContainer
  | .shutdown => False

instance (c : Connections) (p : Ptr) (k : Call) : Decidable (k.Reaches c p) := by
  cases k <;> unfold Call.Reaches <;> infer_instance

namespace Server

/-! ### What calls watch -/

/-- From `s` to `t` only sockets of connections are watched for which one of the calls queues. -/
def Watches (cs : List Call) (s t : Server) : Prop :=
  ∀ fd ∈ t.mMasterWrite, fd ∈ s.mMasterWrite ∨
    ∃ c ∈ cs, ∃ p, c.Reaches s.mConnections p ∧ (s.heap p).mSocket = fd

theorem Watches.of_subset {s t : Server} (h : t.mMasterWrite ⊆ s.mMasterWrite) (cs : List Call) :
    Watches cs s t := fun _ hfd => Or.inl (h hfd)

theorem Watches.mono {cs ds : List Call} {s t : Server} (h : Watches cs s t) (hsub : cs ⊆ ds) :
    Watches ds s t :=
  fun fd hfd => (h fd hfd).imp id fun ⟨c, hc, p, hp⟩ => ⟨c, hsub hc, p, hp⟩

theorem alike_receiving (s : Server) (p : Ptr) (r : Recv) : Alike s (s.receiving p r) := by
  refine ⟨rfl, rfl, fun q => ?_⟩
  rcases eq_or_ne q p with rfl | hq
  · simp [receiving]
  · simp [receiving, Function.update_of_ne hq]

theorem Watches.trans {cs ds : List Call} {s t u : Server} (ha : Alike s t) (h : Watches cs s t)
    (h' : Watches ds t u) : Watches (cs ++ ds) s u := by
  intro fd hfd
  rcases h' fd hfd with hfd | ⟨c, hc, p, hp, rfl⟩
  · exact h.mono (List.subset_append_left cs ds) fd hfd
  · rw [ha.mConnections] at hp
    exact Or.inr ⟨c, List.mem_append_right cs hc, p, hp, (ha.mSocket p).symm⟩

theorem watches_foldl_send (data : Bytes) : ∀ (ps : List Ptr) (s : Server),
    ∀ fd ∈ (ps.foldl (fun s p => s.sendConnection data p) s).mMasterWrite,
      fd ∈ s.mMasterWrite ∨ ∃ p ∈ ps, (s.heap p).mSocket = fd
  | [], s, fd, hfd => Or.inl hfd
  | p :: ps, s, fd, hfd => by
    have hsock : ∀ q, ((s.sendConnection data p).heap q).mSocket = (s.heap q).mSocket := by
      intro q
      rcases eq_or_ne q p with rfl | hq
      · simp [sendConnection]
      · simp [sendConnection, Function.update_of_ne hq]
    rcases watches_foldl_send data ps (s.sendConnection data p) fd hfd with hfd | ⟨q, hq, rfl⟩
    · rcases Finset.mem_insert.mp hfd with rfl | hfd
      · exact Or.inr ⟨p, by simp, rfl⟩
      · exact Or.inl hfd
    · exact Or.inr ⟨q, by simp [hq], (hsock q).symm⟩

theorem watches_call (s : Server) (c : Call) : Watches [c] s (s.call c) := by
  intro fd hfd
  cases c with
  | send data identifier =>
    have hfd : fd ∈ (s.send data identifier).1.mMasterWrite := hfd
    unfold send at hfd
    split at hfd
    · exact Or.inl hfd
    · rename_i p hp
      have hreach : (Call.send data identifier).Reaches s.mConnections p :=
        getServerConnectionById_eq_ok.mp hp
      rcases Finset.mem_insert.mp hfd with rfl | hfd
      · exact Or.inr ⟨_, by simp, p, hreach, rfl⟩
      · exact Or.inl hfd
  | broadcast data =>
    rcases watches_foldl_send data _ s fd hfd with hfd | ⟨p, hp, rfl⟩
    · exact Or.inl hfd
    · exact Or.inr ⟨.broadcast data, by simp, p, hp, rfl⟩
  | shutdown => exact Or.inl hfd

theorem watches_calls : ∀ (cs : List Call) (s : Server), Watches cs s (cs.foldl call s)
  | [], _ => fun _ hfd => Or.inl hfd
  | c :: cs, s =>
    Watches.trans (.of_called (called_call s c)) (watches_call s c) (watches_calls cs (s.call c))

/-- **A callback watches only what its calls queue for.** -/
theorem watches_react (s : Server) (r : Reaction Call) : Watches r.calls s (s.react r) := by
  have h := watches_calls r.calls s
  unfold react
  cases r.outcome with
  | returns => exact h
  | runtimeError => exact h
  | other => exact h

/-- The calls that callbacks make while a connection is read: all of them in a step that removes it.
-/
def readingCalls (s : Server) : Action → List Call
  | .read _ _ e =>
    if s.mCallback then
      (if e.recv.data = [] then [] else e.receiveComplete.calls) ++ e.disconnected.calls
    else []
  | _ => []

theorem watches_dropConnection (s : Server) (sckt : Fd) (p : Ptr) (disconnected : Reaction Call) :
    Watches (if s.mCallback then disconnected.calls else []) s
      (s.dropConnection sckt p disconnected) := by
  have hreact := watches_react (s.record [.disconnected p (s.heap p).mIdentifier]) disconnected
  apply dropConnection_rule
    (P := Watches (if s.mCallback then disconnected.calls else []) s)
  case silent => exact fun _ => .of_subset (removeServerConnection_mMasterWrite s sckt).subset _
  case reported =>
    intro hcb _ fd hfd
    rw [removeServerConnection_mMasterWrite] at hfd
    rw [if_pos hcb]
    exact hreact fd hfd
  case escaped =>
    intro hcb _
    rw [if_pos hcb]
    exact hreact

theorem watches_receiving (s : Server) (p : Ptr) (r : Recv) (cs : List Call) :
    Watches cs s (s.receiving p r) :=
  .of_subset (t := s.receiving p r) (Finset.Subset.refl s.mMasterWrite) cs

theorem watches_deliver (s : Server) (p : Ptr) (r : Recv) (data : Bytes)
    (receiveComplete : Reaction Call) :
    Alike s ((s.receiving p r).deliver p data receiveComplete) ∧
      Watches receiveComplete.calls s ((s.receiving p r).deliver p data receiveComplete) := by
  have halike := alike_receiving s p r
  have hcall := called_react ((s.receiving p r).record
    [.receiveComplete p ((s.receiving p r).heap p).mIdentifier data]) receiveComplete
  refine ⟨halike.trans ⟨hcall.mConnections, hcall.mCallback, hcall.mSocket⟩, ?_⟩
  exact Watches.trans halike (watches_receiving s p r []) (watches_react _ receiveComplete)

/-- **What is watched while a connection is read**, by the calls the callbacks make then. -/
theorem watches_handleServerConnection (s : Server) (i : Fd) (attempt : Attempt)
    (connected : Reaction Call) (e : Reading) :
    Watches (readingCalls s (.read attempt connected e)) s (s.handleServerConnection i e) := by
  have hdata : ∀ p data, ((s.heap p).performReceive e.recv).2 = .ok data → e.recv.data ≠ [] :=
    fun p data h => ((s.heap p).performReceive_isOk_iff e.recv).mp ⟨data, h⟩
  simp only [readingCalls]
  apply handleServerConnection_rule (P := Watches _ s)
  case unknown => exact fun _ => .of_subset (Finset.Subset.refl _) _
  case failed =>
    intro p what _ _
    refine (Watches.trans (alike_receiving s p e.recv) (watches_receiving s p e.recv [])
      (watches_dropConnection _ i p e.disconnected)).mono ?_
    rw [(alike_receiving s p e.recv).mCallback, List.nil_append]
    split_ifs
    · exact List.subset_append_right _ _
    · exact List.subset_append_right _ _
    · exact List.Subset.refl _
  case silent => exact fun p _ _ _ _ => watches_receiving s p e.recv _
  case delivered =>
    intro p data _ hr hcb _
    rw [if_pos hcb, if_neg (hdata p data hr)]
    exact (watches_deliver s p e.recv data _).2.mono (List.subset_append_left _ _)
  case thrown =>
    intro p data _ hr hcb _
    obtain ⟨halike, hwatch⟩ := watches_deliver s p e.recv data e.receiveComplete
    have hdrop := watches_dropConnection
      ((s.receiving p e.recv).deliver p data e.receiveComplete) i p e.disconnected
    rw [halike.mCallback, if_pos hcb] at hdrop
    rw [if_pos hcb, if_neg (hdata p data hr)]
    exact Watches.trans halike hwatch hdrop
  case escaped =>
    intro p data _ hr hcb _
    rw [if_pos hcb, if_neg (hdata p data hr)]
    exact (watches_deliver s p e.recv data _).2.mono (List.subset_append_left _ _)

/-! ### The invariant -/

/-- The descriptor belongs to a registered connection. -/
def Registered (s : Server) (fd : Fd) : Prop :=
  ∃ p ∈ s.mConnections.mContainer, (s.heap p).mSocket = fd

/-- The write branch clears the descriptor next, or the loop has been left. -/
def Due (s : Server) (fd : Fd) : Prop :=
  match s.pc with
  | .scan i _ _ writeFds .write => fd = i ∧ i ∈ writeFds
  | .halted => True
  | _ => False

/-- Every watched descriptor is registered, but for one that is due. -/
def Covered (s : Server) : Prop := ∀ fd ∈ s.mMasterWrite, s.Due fd ∨ s.Registered fd

/-- The descriptors that are ready for writing in this pass. -/
def writeReady (s : Server) : Finset Fd :=
  match s.pc with
  | .scan _ _ _ writeFds _ => writeFds
  | _ => ∅

/-- **A clean removal**: of the last connection, with a descriptor that the write branch clears
next, or that is not watched and not queued for by the callbacks of the step. -/
def RemovesClean (s : Server) (a : Action) : Prop :=
  ∀ p ∈ removes s a, s.mConnections.mContainer.getLast? = some p ∧
    ((s.heap p).mSocket ∈ s.writeReady ∨ (s.heap p).mSocket ∉ s.mMasterWrite ∧
      ∀ c ∈ readingCalls s a, ¬ c.Reaches s.mConnections p)

instance (s : Server) (a : Action) : Decidable (RemovesClean s a) := by
  unfold RemovesClean; infer_instance

theorem Live.registered_iff {s t : Server} (hs : s.Live) (h : Framed s t) (fd : Fd) :
    t.Registered fd ↔ s.Registered fd := by
  have hsock : ∀ p ∈ s.mConnections.mContainer, (t.heap p).mSocket = (s.heap p).mSocket :=
    fun p hp => h.mSocket p (hs.fresh p (Or.inl hp))
  unfold Registered
  rw [h.mConnections]
  constructor
  · rintro ⟨p, hp, rfl⟩
    exact ⟨p, hp, (hsock p hp).symm⟩
  · rintro ⟨p, hp, rfl⟩
    exact ⟨p, hp, hsock p hp⟩

/-- A reached connection of a live registry is registered. -/
theorem Live.registered {s : Server} (hs : s.Live) {p : Ptr} (hp : s.mConnections.Reached p) :
    s.Registered (s.heap p).mSocket := by
  rcases hp with hp | ⟨identifier, hp⟩
  · exact ⟨p, hp, rfl⟩
  · exact ⟨p, (hs.mapped identifier p hp).1, rfl⟩

/-- A framed step watches old descriptors and registered ones. -/
theorem Live.watched {s t : Server} (hs : s.Live) (h : Framed s t) {fd : Fd}
    (hfd : fd ∈ t.mMasterWrite) : fd ∈ s.mMasterWrite ∨ t.Registered fd := by
  rcases h.watched fd hfd with hfd | ⟨p, hp, rfl⟩
  · exact Or.inl hfd
  · exact Or.inr ((hs.registered_iff h _).mpr (hs.registered hp))

theorem goto_registered (s : Server) (pc : Pc) (fd : Fd) :
    (s.goto pc).Registered fd ↔ s.Registered fd := by simp [Registered]

/-! ### Steps -/

/-- Outside the write branch nothing is due. -/
theorem not_due_of_ne_write {s t : Server} {a : Action} (ha : ∀ e, a ≠ .write e)
    (h : s.step a = some t) (fd : Fd) : ¬ s.Due fd := by
  unfold Due
  cases a with
  | call c =>
    rw [(step_call h).1]
    exact id
  | select result =>
    rw [(step_select h).1]
    exact id
  | read attempt connected e =>
    obtain ⟨i, fdmax, readFds, writeFds, hpc, -⟩ := step_read h
    rw [hpc]
    exact id
  | write e => exact absurd rfl (ha e)

/-- The write branch leaves its descriptor unwatched, or the loop. -/
theorem unwatched_writeBranch {s : Server} (hpc : s.pc ≠ .halted) (i : Fd) (e : Writing) :
    i ∉ (s.writeBranch i e).mMasterWrite ∨ (s.writeBranch i e).pc = .halted := by
  apply writeBranch_rule (P := fun t => i ∉ t.mMasterWrite ∨ t.pc = .halted) hpc
  case unknown => exact fun _ => Or.inl (Finset.notMem_erase i _)
  case short => exact fun p _ _ => Or.inl (Finset.notMem_erase i _)
  case null => exact fun p count _ _ _ => Or.inr rfl
  case reported => exact fun p count _ _ _ _ => Or.inl (Finset.notMem_erase i _)
  case escaped => exact fun p count _ _ _ _ => Or.inr rfl

theorem due_of_halted {s : Server} (h : s.pc = .halted) (fd : Fd) : s.Due fd := by
  unfold Due
  rw [h]
  trivial

/-- The write branch keeps the registry and watches old descriptors and registered ones. -/
theorem Live.writeBranch {s : Server} (hs : s.Live) (hpc : s.pc ≠ .halted) (i : Fd) (e : Writing)
    (fd : Fd) : ((s.writeBranch i e).Registered fd ↔ s.Registered fd) ∧
      (fd ∈ (s.writeBranch i e).mMasterWrite →
        fd ∈ s.mMasterWrite ∨ (s.writeBranch i e).Registered fd) := by
  rcases writeBranch_effect hs.fresh hpc i e with hf | ⟨u, hu, heq⟩
  · exact ⟨hs.registered_iff hf fd, hs.watched hf⟩
  · have hreg : (u.unwatch i).Registered fd ↔ s.Registered fd := hs.registered_iff hu fd
    rw [heq]
    exact ⟨hreg, fun hfd => hs.watched hu (Finset.mem_of_mem_erase hfd)⟩

theorem Covered.write {s t : Server} (hs : s.Live) (hc : s.Covered) {e : Writing}
    (h : s.step (.write e) = some t) : t.Covered := by
  obtain ⟨i, fdmax, readFds, writeFds, hpc, -, rfl⟩ := step_write h
  have hne : s.pc ≠ .halted := by rw [hpc]; exact Pc.noConfusion
  have hdue : ∀ fd, s.Due fd → fd = i ∧ i ∈ writeFds := by
    intro fd hd
    unfold Due at hd
    rwa [hpc] at hd
  intro fd hfd
  rw [goto_mMasterWrite] at hfd
  rw [goto_registered]
  by_cases hi : i ∈ writeFds
  · rw [if_pos hi] at hfd ⊢
    obtain ⟨hiff, hwatch⟩ := hs.writeBranch hne i e fd
    rcases hwatch hfd with hold | hreg
    · rcases hc fd hold with hd | hreg
      · obtain ⟨rfl, -⟩ := hdue fd hd
        rcases unwatched_writeBranch hne fd e with hno | hhalt
        · exact absurd hfd hno
        · refine Or.inl (due_of_halted ?_ fd)
          rw [goto, if_pos hhalt]
          exact hhalt
      · exact Or.inr (hiff.mpr hreg)
    · exact Or.inr hreg
  · rw [if_neg hi] at hfd ⊢
    rcases hc fd hfd with hd | hreg
    · exact absurd (hdue fd hd).2 hi
    · exact Or.inr hreg

/-- Removing the last connection leaves the others registered. -/
theorem registered_of_remove {s : Server} (hs : s.Live) {xs : List Ptr} {p : Ptr}
    (hc : s.mConnections.mContainer = xs ++ [p]) {fd : Fd} (hreg : s.Registered fd)
    (hne : fd ≠ (s.heap p).mSocket) :
    (s.removeServerConnection (s.heap p).mSocket).Registered fd := by
  obtain ⟨q, hq, rfl⟩ := hreg
  rw [removeServerConnection_of_last hs hc]
  rw [hc, List.mem_append, List.mem_singleton] at hq
  rcases hq with hq | rfl
  · exact ⟨q, hq, rfl⟩
  · exact absurd rfl hne

/-- The step that removes a connection, in terms of the read branch. -/
theorem step_of_removes {s t : Server} {a : Action} {p : Ptr} (hp : removes s a = some p)
    (h : s.step a = some t) : Watches (readingCalls s a) s t ∧
      ((s.heap p).mSocket ∈ s.writeReady → t.Due (s.heap p).mSocket) := by
  obtain ⟨-, attempt, connected, e, fdmax, readFds, writeFds, rfl, hpc, hread, hne⟩ :=
    removes_some hp
  obtain ⟨i, fdmax', readFds', writeFds', hpc', -, rfl⟩ := step_read h
  rw [hpc, Pc.scan.injEq] at hpc'
  obtain ⟨rfl, rfl, rfl, rfl, -⟩ := hpc'
  rw [readBranch, if_pos hread, if_neg hne]
  constructor
  · intro fd hfd
    rw [goto_mMasterWrite] at hfd
    exact watches_handleServerConnection s _ attempt connected e fd hfd
  · intro hready
    have hready : (s.heap p).mSocket ∈ writeFds := by
      unfold writeReady at hready
      rwa [hpc] at hready
    rcases goto_pc (s.handleServerConnection (s.heap p).mSocket e)
      (.scan (s.heap p).mSocket fdmax readFds writeFds .write) with hhalt | hwrite
    · exact due_of_halted hhalt _
    · unfold Due
      rw [hwrite]
      exact ⟨rfl, hready⟩

/-- A connection that no call of the step queues for does not become watched. -/
theorem Live.not_watched {s t : Server} (hs : s.Live) {cs : List Call} (hw : Watches cs s t)
    {p : Ptr} (hp : p ∈ s.mConnections.mContainer) (hold : (s.heap p).mSocket ∉ s.mMasterWrite)
    (hcs : ∀ c ∈ cs, ¬ c.Reaches s.mConnections p) : (s.heap p).mSocket ∉ t.mMasterWrite := by
  intro hfd
  rcases hw _ hfd with hfd | ⟨c, hc, q, hq, hsock⟩
  · exact hold hfd
  · have hmem : q ∈ s.mConnections.mContainer := by
      cases c with
      | send data identifier => exact (hs.mapped identifier q hq).1
      | broadcast data => exact hq
      | shutdown => exact hq.elim
    rw [hs.distinct.inj hmem hp hsock] at hq
    exact hcs c hc hq

/-- **A step keeps the write set covered** if the removal it makes, if any, is clean. -/
theorem covered_step {s t : Server} {a : Action} (hs : s.Live) (hc : s.Covered)
    (hclean : RemovesClean s a) (h : s.step a = some t) : t.Covered := by
  by_cases ha : ∃ e, a = .write e
  · obtain ⟨e, rfl⟩ := ha
    exact hc.write hs h
  · push Not at ha
    have hreg : ∀ fd ∈ s.mMasterWrite, s.Registered fd := fun fd hfd =>
      (hc fd hfd).resolve_left (not_due_of_ne_write ha h fd)
    have hframed : ∀ u, Framed s u → ∀ fd ∈ u.mMasterWrite, u.Registered fd := by
      intro u hu fd hfd
      rcases hs.watched hu hfd with hfd | hfd
      · exact (hs.registered_iff hu fd).mpr (hreg fd hfd)
      · exact hfd
    intro fd hfd
    rcases step_effect hs.fresh h with
      hf | ⟨v, pc, rfl, ⟨attempt, -, u, hu, rfl⟩ | ⟨p, hp, hrem⟩ | ⟨⟨e, he⟩, -⟩⟩
    · exact Or.inr (hframed t hf fd hfd)
    · rw [goto_mMasterWrite] at hfd
      rw [goto_registered]
      obtain ⟨q, hq, hsock⟩ := hframed u hu.framed fd hfd
      exact Or.inr ⟨q, List.mem_append_left _ hq, hsock⟩
    · obtain ⟨hlast, hclear⟩ := hclean p hp
      obtain ⟨hwatch, hdue⟩ := step_of_removes hp h
      by_cases heq : fd = (s.heap p).mSocket
      · subst heq
        rcases hclear with hready | ⟨hold, hcs⟩
        · exact Or.inl (hdue hready)
        · exact absurd hfd (hs.not_watched hwatch (removes_mem hp) hold hcs)
      · obtain ⟨u, hu, rfl⟩ := hrem
        obtain ⟨xs, hxs⟩ := List.getLast?_eq_some_iff.mp hlast
        rw [goto_mMasterWrite, removeServerConnection_mMasterWrite] at hfd
        rw [goto_registered]
        rw [← hu.mConnections] at hxs
        rw [← hu.mSocket p (hs.fresh p (Or.inl (removes_mem hp)))] at heq ⊢
        exact Or.inr (registered_of_remove (hs.framed hu) hxs (hframed u hu fd hfd) heq)
    · exact absurd he (ha e)

/-! ### Runs -/

/-- **At the top of the loop every watched descriptor is the open socket of a registered
connection**, which has not been deleted. -/
def WriteSetRegistered (s : Server) : Prop :=
  s.pc = .top → ∀ fd ∈ s.mMasterWrite, ∃ p ∈ s.mConnections.mContainer,
    (s.heap p).mSocket = fd ∧ p ∉ s.trace.filterMap deletedBy ∧ fd ∈ s.openFds

theorem Live.writeSetRegistered {s : Server} (hs : s.Live) (hc : s.Covered) :
    s.WriteSetRegistered := by
  intro htop fd hfd
  have hdue : ¬ s.Due fd := by
    unfold Due
    rw [htop]
    exact id
  obtain ⟨p, hp, rfl⟩ := (hc fd hfd).resolve_left hdue
  exact ⟨p, hp, rfl, hs.alive p hp, hs.opened p hp⟩

/-- **In every run whose removals are clean, `select` is never given a dead descriptor to write
to.** -/
theorem writeSet_registered {setup : Setup} {as : List Action} (hempty : setup.mMasterWrite = ∅)
    (hclean : Along step RemovesClean (waitForEvents setup) as) :
    Always step WriteSetRegistered (waitForEvents setup) as := by
  have hstart : (waitForEvents setup).Live ∧ (waitForEvents setup).Covered := by
    refine ⟨Live.start setup, fun fd hfd => ?_⟩
    simp [waitForEvents, hempty] at hfd
  have hall : Always step (fun s => s.Live ∧ s.Covered) (waitForEvents setup) as := by
    refine always_of_along (fun s a t hs hR ht => ?_) hstart hclean
    exact ⟨live_step hs.1 (fun p hp => (hR p hp).1) ht, covered_step hs.1 hs.2 hR ht⟩
  exact hall.imp fun s hs => hs.1.writeSetRegistered hs.2

theorem writeSet_registered_hangUp :
    (run step (waitForEvents listening) (greet ++ hangUp)).isSome = true ∧
      Always step WriteSetRegistered (waitForEvents listening) (greet ++ hangUp) :=
  ⟨by decide, writeSet_registered rfl (by decide)⟩

/-- **A client that hangs up while a message waits for it**: its descriptor is closed and stays in
the write set. -/
theorem hangUp_stays_watched : ∃ s,
    run step (waitForEvents listening) (greet ++ .call (.send [104] [97]) :: hangUp) = some s ∧
      s.pc = .top ∧ 6 ∈ s.mMasterWrite ∧ 6 ∉ s.openFds ∧ s.mConnections.mContainer = [] ∧
      ¬ s.WriteSetRegistered := by
  obtain ⟨s, hrun, htop, hmem, hopen, hnone⟩ := exists_run step (waitForEvents listening)
    (greet ++ .call (.send [104] [97]) :: hangUp)
    (fun s => s.pc = .top ∧ 6 ∈ s.mMasterWrite ∧ 6 ∉ s.openFds ∧ s.mConnections.mContainer = [])
    (by decide)
  refine ⟨s, hrun, htop, hmem, hopen, hnone, fun h => ?_⟩
  obtain ⟨p, hp, -⟩ := h htop 6 hmem
  rw [hnone] at hp
  cases hp

end Server

end C11Http.Posix
