import C11Http.Posix.Filling

/-! # Where the bytes of a connection come from

`Moved p s t`: from `s` to `t` the queue of the connection `p` keeps its account, that what is gone
and what waits was queued; and unless a call can reach `p`, nothing is queued for it or sent from
it.

`Advanced s t` is what every step of the loop, and every call in between, does: old objects keep
their identifiers, the trace grows, an object that no call can reach stays unreachable, and the
queues are moved (`advanced_step`, `advanced_call`, `advanced_acceptBranch`). -/

namespace C11Http.Posix

open C11Http.Lib Connections

structure Moved (p : Ptr) (s t : Server) : Prop where
  sourced : (Server.outbox p s).Sourced taken → (Server.outbox p t).Sourced taken
  idle : ¬ s.mConnections.Reached p → (Server.outbox p t).log = (Server.outbox p s).log

namespace Moved

variable {p : Ptr} {s t u : Server}

theorem refl (p : Ptr) (s : Server) : Moved p s s := ⟨id, fun _ => rfl⟩

theorem trans (h : Moved p s t) (hc : t.mConnections = s.mConnections) (h' : Moved p t u) :
    Moved p s u where
  sourced hs := h'.sourced (h.sourced hs)
  idle hp := (h'.idle (hc ▸ hp)).trans (h.idle hp)

/-- Two servers in which the queue is the same, watched or not. -/
theorem congr (h : Moved p s t) (hp : (Server.outbox p u).pending = (Server.outbox p t).pending)
    (hl : (Server.outbox p u).log = (Server.outbox p t).log) : Moved p s u where
  sourced hs := (h.sourced hs).of_sublist (by rw [hp]) hl
  idle hr := hl.trans (h.idle hr)

end Moved

/-- A queue that is only filled keeps its account. -/
theorem Filled.moved {p : Ptr} {s t : Server} (h : Filled p s t) : Moved p s t :=
  ⟨h.filling.sourced, h.idle⟩

namespace Server

/-! ### A write -/

/-- A report to the callback, and what the callback does then. -/
theorem moved_reported (p : Ptr) (s : Server) {e : Event} (h : entryFor p e = none)
    (r : Reaction Call) : Moved p s ((s.record [e]).react r) := by
  have hrecord : Moved p s (s.record [e]) :=
    (Moved.refl p s).congr rfl (by simp [outbox, record, List.filterMap_append, h])
  exact hrecord.trans rfl (filled_react p _ r).moved

/-- **A write sends bytes that waited**, of a registered connection. -/
theorem moved_handing (p : Ptr) {q : Ptr} {s : Server} (hq : s.mConnections.Reached q)
    (result : ℤ) : Moved p s (s.handing q result) := by
  rcases eq_or_ne p q with rfl | hne
  · refine ⟨fun hs => ?_, fun hp => absurd hq hp⟩
    rw [outbox_handing_self]
    exact Outbox.drain_sourced hs
      ((taken_isPrefix _ _).trans (offered_isPrefix _)).sublist
  · have heq := outbox_handing_of_ne s result hne
    exact (Moved.refl p s).congr (by rw [heq]) (by rw [heq])

theorem moved_writeBranch (p : Ptr) {s : Server} (hpc : s.pc ≠ .halted) (i : Fd) (e : Writing) :
    Moved p s (s.writeBranch i e) := by
  have hhand : ∀ q, s.mConnections.getServerConnection s.heap i = some q →
      Moved p s (s.handing q e.result) :=
    fun q hq => moved_handing p (Or.inl (getServerConnection_some hq).1) e.result
  have hreport : ∀ q count, s.mConnections.getServerConnection s.heap i = some q →
      Moved p s ((s.handing q e.result).report q count e.sendComplete) :=
    fun q count hq => (hhand q hq).trans rfl (moved_reported p _ rfl _)
  have hcon : ∀ q count,
      ((s.handing q e.result).report q count e.sendComplete).mConnections = s.mConnections :=
    fun q count => reported_mConnections _ _ _
  apply writeBranch_rule (P := Moved p s) hpc
  case unknown => exact fun _ => (filled_unwatch p s i).moved
  case short => exact fun q hq _ => (hhand q hq).trans rfl (filled_unwatch p _ i).moved
  case null => exact fun q _ hq _ _ => (hhand q hq).trans rfl (filled_halt p _).moved
  case reported =>
    exact fun q count hq _ _ _ =>
      (hreport q count hq).trans (hcon q count) (filled_unwatch p _ i).moved
  case escaped =>
    exact fun q count hq _ _ _ => (hreport q count hq).trans (hcon q count) (filled_halt p _).moved

theorem moved_step (p : Ptr) {s t : Server} {a : Action} (h : s.step a = some t) :
    Moved p s t := by
  obtain ⟨hfilled, -⟩ | ⟨e, i, pc, -, -, -, hpc, rfl⟩ := filled_step p h
  · exact hfilled.moved
  · exact (moved_writeBranch p hpc i e).congr (by rw [outbox_goto]) (by rw [outbox_goto])

end Server

/-! ### Steps -/

structure Advanced (s t : Server) : Prop where
  fresh : t.Fresh
  nextPtr : s.nextPtr ≤ t.nextPtr
  trace : s.trace <+: t.trace
  mIdentifier : ∀ p < s.nextPtr, (t.heap p).mIdentifier = (s.heap p).mIdentifier
  reached : ∀ p < s.nextPtr, t.mConnections.Reached p → s.mConnections.Reached p
  moved : ∀ p, Moved p s t

namespace Advanced

variable {s t u : Server}

theorem of_framed (hs : s.Fresh) (h : Framed s t) (hm : ∀ p, Moved p s t) : Advanced s t where
  fresh := h.fresh hs
  nextPtr := h.nextPtr
  trace := h.trace
  mIdentifier := h.mIdentifier
  reached p _ hp := by rwa [h.mConnections] at hp
  moved := hm

/-- A new object may be added to the registry at the end. -/
theorem of_added (hs : s.Fresh) (h : Framed s u) (hnew : s.nextPtr < u.nextPtr)
    (hm : ∀ p, Moved p s (u.addServerConnection s.nextPtr)) :
    Advanced s (u.addServerConnection s.nextPtr) where
  fresh := Server.fresh_addServerConnection (h.fresh hs) hnew
  nextPtr := h.nextPtr
  trace := h.trace
  mIdentifier := h.mIdentifier
  reached p hp hr := by
    rcases hr.of_add with hr | rfl
    · rwa [h.mConnections] at hr
    · exact absurd hp (lt_irrefl _)
  moved := hm

/-- A connection may be removed from the registry at the end. -/
theorem of_removed (hs : s.Fresh) (h : Framed s u) (sckt : Fd)
    (hm : ∀ p, Moved p s (u.removeServerConnection sckt)) :
    Advanced s (u.removeServerConnection sckt) where
  fresh := Server.fresh_removeServerConnection (h.fresh hs) sckt
  nextPtr := by
    rw [Server.removeServerConnection_nextPtr]
    exact h.nextPtr
  trace := h.trace.trans (Server.removeServerConnection_trace u sckt)
  mIdentifier := by
    rw [Server.removeServerConnection_heap]
    exact h.mIdentifier
  reached p _ hp := by
    rw [Server.removeServerConnection_mConnections] at hp
    have hp' := hp.of_remove
    rwa [h.mConnections] at hp'
  moved := hm

theorem goto (h : Advanced s t) (pc : Pc) : Advanced s (t.goto pc) := by
  unfold Server.goto
  split
  · exact h
  · exact { h with moved := fun p => (h.moved p).congr rfl rfl }

theorem unwatch (h : Advanced s t) (i : Fd) : Advanced s (t.unwatch i) :=
  { h with moved := fun p => (h.moved p).congr rfl rfl }

end Advanced

namespace Server

theorem advanced_call {s : Server} (hs : s.Fresh) (c : Call) : Advanced s (s.call c) :=
  .of_framed hs (.of_called (called_call s c)) fun p => (filled_call p s c).moved

theorem advanced_acceptBranch {s : Server} (hs : s.Fresh) (a : Attempt)
    (connected : Reaction Call) : Advanced s (s.acceptBranch a connected) := by
  have hm : ∀ p, Moved p s (s.acceptBranch a connected) := fun p =>
    (filled_acceptBranch p s a connected).moved
  have hgreet : ∀ client, Framed s (s.greeting a client connected) := fun client =>
    framed_greeting s hs a client connected
  revert hm
  apply acceptBranch_rule (P := fun t => (∀ p, Moved p s t) → Advanced s t)
  case rejected => exact fun _ _ => .of_framed hs (framed_accepting s a)
  case null =>
    exact fun client _ _ =>
      .of_framed hs ((framed_allocated s hs a client).trans hs (framed_halt _))
  case registered =>
    intro client _ _ _
    have hnew : s.nextPtr < (s.greeting a client connected).nextPtr :=
      (framed_connect ((s.accepting a).allocate client) s.nextPtr connected).nextPtr
    exact .of_added hs (hgreet client) hnew
  case swallowed => exact fun client _ _ _ => .of_framed hs (hgreet client)
  case escaped =>
    exact fun client _ _ _ => .of_framed hs ((hgreet client).trans hs (framed_halt _))

/-- **A step of the loop advances the server.** -/
theorem advanced_step {s t : Server} {a : Action} (hs : s.Fresh) (h : s.step a = some t) :
    Advanced s t := by
  have hm : ∀ p, Moved p s t := fun p => moved_step p h
  rcases step_effect hs h with hf | ⟨v, pc, rfl, hv⟩
  · exact .of_framed hs hf hm
  · have hv' : ∀ p, Moved p s v := fun p =>
      (hm p).congr (by rw [outbox_goto]) (by rw [outbox_goto])
    rcases hv with ⟨attempt, -, u, hu, rfl⟩ | ⟨q, -, u, hu, rfl⟩ | ⟨-, u, i, hu, rfl⟩
    · exact (Advanced.of_added hs hu.framed hu.allocated hv').goto pc
    · exact (Advanced.of_removed hs hu _ hv').goto pc
    · exact ((Advanced.of_framed hs hu fun p => (hv' p).congr rfl rfl).unwatch i).goto pc

/-! ### The object of a connection attempt -/

/-- A constructor that completes puts an object with the received identifier at the next address,
whatever becomes of it then. -/
theorem acceptBranch_built {s : Server} {a : Attempt} {client : ServerConnection}
    (connected : Reaction Call) (ha : a.construct = .ok client) :
    s.nextPtr < (s.acceptBranch a connected).nextPtr ∧
      ((s.acceptBranch a connected).heap s.nextPtr).mIdentifier = a.recv.data := by
  obtain ⟨-, -, hid, -, -⟩ := Attempt.construct_ok ha
  have hself : ((s.accepting a).allocate client).heap s.nextPtr = client :=
    Function.update_self _ _ _
  have hgreet : s.nextPtr < (s.greeting a client connected).nextPtr ∧
      ((s.greeting a client connected).heap s.nextPtr).mIdentifier = a.recv.data := by
    have hf := framed_connect ((s.accepting a).allocate client) s.nextPtr connected
    have hid' := hf.mIdentifier s.nextPtr (Nat.lt_succ_self _)
    rw [hself, hid] at hid'
    exact ⟨hf.nextPtr, hid'⟩
  have hsame : ∀ {client'}, a.construct = .ok client' → client' = client := by
    intro client' h
    rw [ha, Except.ok.injEq] at h
    exact h.symm
  apply acceptBranch_rule (P := fun t => s.nextPtr < t.nextPtr ∧
    (t.heap s.nextPtr).mIdentifier = a.recv.data)
  case rejected => exact fun what h => by rw [ha] at h; cases h
  case null =>
    intro client' h _
    obtain rfl := hsame h
    exact ⟨Nat.lt_succ_self _, by rw [halt, hself, hid]⟩
  case registered => exact fun client' h _ _ => by obtain rfl := hsame h; exact hgreet
  case swallowed => exact fun client' h _ _ => by obtain rfl := hsame h; exact hgreet
  case escaped => exact fun client' h _ _ => by obtain rfl := hsame h; exact hgreet

/-- A call reaches the new object only if it has been registered. -/
theorem acceptBranch_reached {s : Server} (hs : s.Fresh) {a : Attempt} {connected : Reaction Call}
    (h : (s.acceptBranch a connected).mConnections.Reached s.nextPtr) :
    s.nextPtr ∈ (s.acceptBranch a connected).mConnections.mContainer := by
  have hnot : ¬ s.mConnections.Reached s.nextPtr := fun hr => lt_irrefl _ (hs _ hr)
  have hgreet : ∀ client, (s.greeting a client connected).mConnections = s.mConnections :=
    fun client => (framed_greeting s hs a client connected).mConnections
  revert h
  apply acceptBranch_rule (P := fun t => t.mConnections.Reached s.nextPtr →
    s.nextPtr ∈ t.mConnections.mContainer)
  case rejected => exact fun _ _ hr => absurd hr hnot
  case null => exact fun _ _ _ hr => absurd hr hnot
  case registered => exact fun _ _ _ _ _ => List.mem_append_right _ (List.mem_singleton_self _)
  case swallowed => exact fun client _ _ _ hr => absurd (hgreet client ▸ hr) hnot
  case escaped => exact fun client _ _ _ hr => absurd (hgreet client ▸ hr) hnot

end Server

end C11Http.Posix
