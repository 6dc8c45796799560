import C11Http.Posix.Outgoing
import C11Http.Posix.WriteSet

/-! # The write interest of queued messages

On the posix server a registered connection with queued bytes has its socket in `mMasterWrite`, in
every run whose steps keep the interest (`interest_kept`): a connection attempt is not on the socket
of a registered connection, and a `sendComplete` that returns has queued nothing for the connection
it was called for. The write branch clears the descriptor only behind the callback, so that the
interest of a message that `sendComplete` queues is lost.

The first condition fails only after a wrong object has been deleted, as the sockets of registered
connections are open otherwise. -/

namespace C11Http.Posix

open C11Http.Lib C11Http.Lib.Run Connections

/-- The message of a call. -/
def Call.data : Call → Bytes
  | .send data _ => data
  | .broadcast data => data
  | .shutdown => []

/-- The call queues bytes for the connection. -/
def Call.Queues (c : Connections) (p : Ptr) (k : Call) : Prop := k.Reaches c p ∧ k.data ≠ []

instance (c : Connections) (p : Ptr) (k : Call) : Decidable (k.Queues c p) := by
  unfold Call.Queues; infer_instance

/-- Otherwise its messages for the connection are empty. -/
theorem Call.messages_of_not_queues {c : Connections} {p : Ptr} {k : Call} (h : ¬ k.Queues c p) :
    ∀ m ∈ k.messages c p, m = [] := by
  intro m hm
  by_contra hne
  refine h ?_
  cases k with
  | send data identifier =>
    by_cases hmap : c.mMapping identifier = some p
    · simp only [messages, if_pos hmap, List.mem_singleton] at hm
      exact ⟨hmap, hm ▸ hne⟩
    · simp [messages, hmap] at hm
  | broadcast data =>
    obtain ⟨hcount, rfl⟩ := List.mem_replicate.mp hm
    exact ⟨List.count_pos_iff.mp (Nat.pos_of_ne_zero hcount), hne⟩
  | shutdown => simp [messages] at hm

namespace Server

/-- A callback that queues no bytes for a connection leaves its queue as it is. -/
theorem react_mOutgoingBytes {s : Server} {r : Reaction Call} {p : Ptr}
    (h : ∀ c ∈ r.calls, ¬ c.Queues s.mConnections p) :
    ((s.react r).heap p).mOutgoingBytes = (s.heap p).mOutgoingBytes := by
  have hnil : ∀ m ∈ r.calls.flatMap (Call.messages s.mConnections p), m = [] := by
    intro m hm
    obtain ⟨c, hc, hm⟩ := List.mem_flatMap.mp hm
    exact Call.messages_of_not_queues (h c hc) m hm
  have hflat : (r.calls.flatMap (Call.messages s.mConnections p)).reverse.flatten = [] := by
    rw [List.flatten_eq_nil_iff]
    exact fun m hm => hnil m (List.mem_reverse.mp hm)
  have hpending := (outbox_react p s r).pending
  rwa [Outbox.pushAll_pending, hflat] at hpending

/-! ### The invariant -/

/-- Calls reach allocated objects, registered sockets differ, and queued bytes are watched. -/
structure Tended (s : Server) : Prop where
  fresh : s.Fresh
  distinct : s.mConnections.SocketsDistinct s.heap
  watched : ∀ p ∈ s.mConnections.mContainer, (s.heap p).mOutgoingBytes ≠ [] →
    (s.heap p).mSocket ∈ s.mMasterWrite

theorem Tended.start (setup : Setup) : (waitForEvents setup).Tended where
  fresh := fresh_start setup
  distinct := by simp [waitForEvents, new, SocketsDistinct]
  watched := by simp [waitForEvents, new]

theorem Tended.framed {s t : Server} (hs : s.Tended) (h : Framed s t) : t.Tended := by
  have hlt : ∀ p ∈ s.mConnections.mContainer, p < s.nextPtr := fun p hp => hs.fresh p (Or.inl hp)
  have hsock : ∀ p ∈ s.mConnections.mContainer, (t.heap p).mSocket = (s.heap p).mSocket :=
    fun p hp => h.mSocket p (hlt p hp)
  refine ⟨h.fresh hs.fresh, ?_, ?_⟩
  · have hdis := hs.distinct
    unfold SocketsDistinct at hdis ⊢
    rw [h.mConnections, List.map_congr_left hsock]
    exact hdis
  · rw [h.mConnections]
    intro p hp hne
    rw [hsock p hp]
    rcases h.touched p (hlt p hp) with hnil | heq | hmem
    · exact absurd hnil hne
    · exact h.watches (hs.watched p hp (heq ▸ hne))
    · exact hmem

theorem Tended.added {s t : Server} (hs : s.Tended) {a : Attempt} (h : Added s a t)
    (hnew : ∀ fd, a.accept = .ok fd → ∀ p ∈ s.mConnections.mContainer, (s.heap p).mSocket ≠ fd) :
    t.Tended := by
  obtain ⟨u, hu, rfl⟩ := h
  have hut := hs.framed hu.framed
  refine ⟨fresh_addServerConnection hut.fresh hu.allocated, hut.distinct.add fun p hp => ?_, ?_⟩
  · rw [hu.framed.mConnections] at hp
    rw [hu.framed.mSocket p (hs.fresh p (Or.inl hp))]
    exact hnew _ hu.accept p hp
  · intro p hp hne
    rcases List.mem_append.mp hp with hp | hp
    · exact hut.watched p hp hne
    · rw [List.mem_singleton.mp hp] at hne ⊢
      exact hu.queue.resolve_left hne

theorem Tended.removed {s t : Server} (hs : s.Tended) {p : Ptr} (h : Removed s p t) : t.Tended := by
  obtain ⟨u, hu, rfl⟩ := h
  have hut := hs.framed hu
  have hsub := removeServerConnection_sublist hut.distinct (s.heap p).mSocket
  rw [← removeServerConnection_mConnections] at hsub
  refine ⟨fresh_removeServerConnection hut.fresh _, ?_, ?_⟩
  · rw [removeServerConnection_heap]
    exact hut.distinct.sublist hsub
  · rw [removeServerConnection_heap, removeServerConnection_mMasterWrite]
    exact fun q hq hne => hut.watched q (hsub.subset hq) hne

/-- A descriptor whose connection has nothing queued may be unwatched. -/
theorem Tended.unwatch {s : Server} (hs : s.Tended) {i : Fd}
    (hi : ∀ p ∈ s.mConnections.mContainer, (s.heap p).mSocket = i →
      (s.heap p).mOutgoingBytes = []) :
    (s.unwatch i).Tended where
  fresh := hs.fresh
  distinct := hs.distinct
  watched p hp hne := by
    have hsock : (s.heap p).mSocket ≠ i := fun heq => hne (hi p hp heq)
    exact Finset.mem_erase.mpr ⟨hsock, hs.watched p hp hne⟩

/-! ### Steps -/

/-- The connection that an action writes to. -/
def writes (s : Server) : Action → Option (Ptr × Writing)
  | .write e =>
    match s.pc with
    | .scan i _ _ writeFds .write =>
      if i ∈ writeFds then
        (s.mConnections.getServerConnection s.heap i).map fun p => (p, e)
      else none
    | _ => none
  | _ => none

/-- **The step keeps the interest**: a connection attempt is not on the socket of a registered
connection, and a `sendComplete` that is called and returns queues nothing for its own connection.
-/
def KeepsInterest (s : Server) (a : Action) : Prop :=
  (∀ attempt ∈ attempts s a, ∀ fd ∈ attempt.accept.toOption, ∀ p ∈ s.mConnections.mContainer,
    (s.heap p).mSocket ≠ fd) ∧
  ∀ w ∈ writes s a, s.mCallback = true →
    toInt (s.heap w.1).mOutgoingBytes.length = w.2.result → w.2.sendComplete.outcome = .returns →
      ∀ c ∈ w.2.sendComplete.calls, ¬ c.Queues s.mConnections w.1

instance (s : Server) (a : Action) : Decidable (KeepsInterest s a) := by
  unfold KeepsInterest; infer_instance

theorem Tended.writeBranch {s : Server} (hs : s.Tended) (hpc : s.pc ≠ .halted) {i : Fd}
    {e : Writing}
    (hquiet : ∀ p, s.mConnections.getServerConnection s.heap i = some p → s.mCallback = true →
      toInt (s.heap p).mOutgoingBytes.length = e.result → e.sendComplete.outcome = .returns →
        ∀ c ∈ e.sendComplete.calls, ¬ c.Queues s.mConnections p) :
    (s.writeBranch i e).Tended := by
  have hhand := fun p => framed_handing s p e.result
  have hreport := fun p count => (hhand p).trans hs.fresh (framed_report _ p count e.sendComplete)
  -- the connection with the descriptor is the one that has been written to
  have honly : ∀ p u, Framed s u → s.mConnections.getServerConnection s.heap i = some p →
      (u.heap p).mOutgoingBytes = [] → (u.unwatch i).Tended := by
    intro p u hu hp hnil
    obtain ⟨hmem, rfl⟩ := getServerConnection_some hp
    refine (hs.framed hu).unwatch fun q hq hsock => ?_
    rw [hu.mConnections] at hq
    rw [hu.mSocket q (hs.fresh q (Or.inl hq))] at hsock
    rw [hs.distinct.inj hq hmem hsock]
    exact hnil
  apply writeBranch_rule (P := Tended) hpc
  case unknown =>
    intro hnone
    exact hs.unwatch fun p hp hsock => absurd hsock (getServerConnection_none.mp hnone p hp)
  case short =>
    intro p hp _
    exact honly p _ (hhand p) hp (by simp [handing])
  case null => exact fun p _ _ _ _ => hs.framed ((hhand p).trans hs.fresh (framed_halt _))
  case reported =>
    intro p count hp hc hcb ho
    refine honly p _ (hreport p count) hp ?_
    have hcalls := hquiet p hp hcb (ServerConnection.sendQueuedMessage_some hc) ho
    have hreact := react_mOutgoingBytes (s := (s.handing p e.result).record
      [.sendComplete p ((s.handing p e.result).heap p).mIdentifier count]) hcalls
    exact hreact.trans (by simp [record, handing])
  case escaped =>
    exact fun p count _ _ _ _ => hs.framed ((hreport p count).trans hs.fresh (framed_halt _))

/-- **A step that keeps the interest keeps the queues tended.** -/
theorem tended_step {s t : Server} {a : Action} (hs : s.Tended) (hk : KeepsInterest s a)
    (h : s.step a = some t) : t.Tended := by
  by_cases ha : ∃ e, a = .write e
  · obtain ⟨e, rfl⟩ := ha
    obtain ⟨i, fdmax, readFds, writeFds, hpc, -, rfl⟩ := step_write h
    have hne : s.pc ≠ .halted := by rw [hpc]; exact Pc.noConfusion
    by_cases hi : i ∈ writeFds
    · rw [if_pos hi]
      refine (hs.writeBranch hne fun p hp hcb hres ho => ?_).framed (framed_goto _ _)
      have hw : writes s (.write e) = some (p, e) := by simp [writes, hpc, hi, hp]
      exact hk.2 (p, e) hw hcb hres ho
    · rw [if_neg hi]
      exact hs.framed (framed_goto s _)
  · push Not at ha
    rcases step_effect hs.fresh h with
      hf | ⟨v, pc, rfl, ⟨attempt, hatt, hadd⟩ | ⟨p, hp, hrem⟩ | ⟨⟨e, he⟩, -⟩⟩
    · exact hs.framed hf
    · refine (hs.added hadd fun fd hfd => ?_).framed (framed_goto v pc)
      exact hk.1 attempt hatt fd (by rw [hfd]; rfl)
    · exact (hs.removed hrem).framed (framed_goto v pc)
    · exact absurd he (ha e)

/-- **At the top of the loop every registered connection with queued bytes is watched.** -/
def InterestKept (s : Server) : Prop :=
  s.pc = .top → ∀ p ∈ s.mConnections.mContainer, (s.heap p).mOutgoingBytes ≠ [] →
    (s.heap p).mSocket ∈ s.mMasterWrite

/-- **In every run whose steps keep the interest, no queued message loses it.** -/
theorem interest_kept {setup : Setup} {as : List Action}
    (hkeeps : Along step KeepsInterest (waitForEvents setup) as) :
    Always step InterestKept (waitForEvents setup) as := by
  have hall : Always step Tended (waitForEvents setup) as :=
    always_of_along (fun _ _ _ hs hk ht => tended_step hs hk ht) (Tended.start setup) hkeeps
  exact hall.imp fun _ hs _ => hs.watched

/-- A pass in which descriptor 6 is ready for writing and `sendComplete` makes the calls `cs`. -/
def flush (cs : List Call) : List Action :=
  .select (some (∅, {6})) :: skip 6 ++
    [.read noAttempt returns (reading []), .write ⟨1, ⟨cs, .returns⟩⟩]

theorem interest_kept_flush :
    (run step (waitForEvents listening) (greet ++ .call (.send [104] [97]) :: flush [])).isSome =
      true ∧
      Always step InterestKept (waitForEvents listening)
        (greet ++ .call (.send [104] [97]) :: flush []) :=
  ⟨by decide, interest_kept (by decide)⟩

/-- **A `sendComplete` that queues the next message**: the message waits and nothing watches it. -/
theorem flush_loses_interest : ∃ s,
    run step (waitForEvents listening)
      (greet ++ .call (.send [104] [97]) :: flush [.send [105] [97]]) = some s ∧
      s.pc = .top ∧ s.mConnections.mContainer = [0] ∧ (s.heap 0).mOutgoingBytes = [105] ∧
      s.mMasterWrite = ∅ ∧ ¬ s.InterestKept := by
  obtain ⟨s, hrun, htop, hmem, hbytes, hempty⟩ := exists_run step (waitForEvents listening)
    (greet ++ .call (.send [104] [97]) :: flush [.send [105] [97]])
    (fun s => s.pc = .top ∧ s.mConnections.mContainer = [0] ∧
      (s.heap 0).mOutgoingBytes = [105] ∧ s.mMasterWrite = ∅) (by decide)
  refine ⟨s, hrun, htop, hmem, hbytes, hempty, fun h => ?_⟩
  have hfd := h htop 0 (by rw [hmem]; simp) (by rw [hbytes]; simp)
  rw [hempty] at hfd
  exact absurd hfd (Finset.notMem_empty _)

end Server

end C11Http.Posix
