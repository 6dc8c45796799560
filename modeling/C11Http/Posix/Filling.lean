import C11Http.Lib.Batches
import C11Http.Posix.Live
import C11Http.Posix.Outgoing

/-! # A queue between two writes

`Filled p s t`: from `s` to `t` the queue of the connection `p` is only filled (`Outbox.Filling`),
nothing is queued for it unless a call can reach `p`, and no `sendComplete` is called for it. Every
step of the loop does this but the write branch of a ready descriptor (`filled_step`). -/

namespace C11Http.Posix

open C11Http.Lib Connections

/-- The count of a `sendComplete` for a connection. -/
def completion (p : Ptr) : Event → Option ℕ
  | .sendComplete p' _ count => if p' = p then some count else none
  | _ => none

/-- The sum of the counts that `sendComplete` has been called with for a connection. -/
def Server.told (p : Ptr) (s : Server) : ℕ := (s.trace.filterMap (completion p)).sum

structure Filled (p : Ptr) (s t : Server) : Prop where
  filling : Outbox.Filling (Server.outbox p s) (Server.outbox p t)
  idle : ¬ s.mConnections.Reached p → (Server.outbox p t).log = (Server.outbox p s).log
  told : t.told p = s.told p

namespace Filled

variable {p : Ptr} {s t u : Server}

theorem refl (p : Ptr) (s : Server) : Filled p s s := ⟨.refl _, fun _ => rfl, rfl⟩

theorem trans (h : Filled p s t) (hc : t.mConnections = s.mConnections) (h' : Filled p t u) :
    Filled p s u where
  filling := h.filling.trans h'.filling
  idle hp := (h'.idle (hc ▸ hp)).trans (h.idle hp)
  told := h'.told.trans h.told

/-- What waits is the same, and the events are no entries of the history and no `sendComplete`. -/
theorem of_events {es : List Event} (hp : (t.heap p).mOutgoingBytes = (s.heap p).mOutgoingBytes)
    (ht : t.trace = s.trace ++ es) (he : es.filterMap (entryFor p) = [])
    (hc : es.filterMap (completion p) = []) : Filled p s t := by
  have hl : (Server.outbox p t).log = (Server.outbox p s).log := by
    simp only [Server.outbox, ht, List.filterMap_append, he, List.append_nil]
  refine ⟨.of_eq hp hl, fun _ => hl, ?_⟩
  simp only [Server.told, ht, List.filterMap_append, hc, List.append_nil]

theorem of_eq (hp : (t.heap p).mOutgoingBytes = (s.heap p).mOutgoingBytes)
    (ht : t.trace = s.trace) : Filled p s t :=
  of_events hp (ht.trans (List.append_nil _).symm) rfl rfl

/-- Messages are pushed, which only a call that can reach the connection does. -/
theorem of_push {ms : List Bytes} (hms : ¬ s.mConnections.Reached p → ms = [])
    (h : Outbox.Watching ((Server.outbox p s).pushAll ms) (Server.outbox p t))
    (ht : t.told p = s.told p) : Filled p s t where
  filling := .of_push h
  idle hp := by rw [h.log, hms hp, Outbox.pushAll_nil]
  told := ht

end Filled

/-- A call has no message for a connection it cannot reach. -/
theorem Call.messages_of_not_reached {c : Connections} {p : Ptr} (h : ¬ c.Reached p) (k : Call) :
    k.messages c p = [] := by
  unfold Reached at h
  push Not at h
  cases k with
  | send data identifier => exact if_neg (h.2 identifier)
  | broadcast data =>
    show List.replicate (c.mContainer.count p) data = []
    rw [List.count_eq_zero.mpr h.1, List.replicate_zero]
  | shutdown => rfl

/-- No call calls `sendComplete`. -/
theorem Called.told {s t : Server} (h : Called s t) (p : Ptr) : t.told p = s.told p := by
  unfold Server.told
  rw [h.filterMap_trace]
  intro e he
  cases e <;> first | rfl | exact absurd he id

namespace Server

/-! ### The parts of a step -/

theorem filled_record (p : Ptr) (s : Server) {es : List Event}
    (h : es.filterMap (entryFor p) = []) (hc : es.filterMap (completion p) = []) :
    Filled p s (s.record es) := .of_events rfl rfl h hc

theorem filled_call (p : Ptr) (s : Server) (c : Call) : Filled p s (s.call c) :=
  .of_push (fun hp => Call.messages_of_not_reached hp c) (outbox_call p s c)
    ((called_call s c).told p)

theorem filled_react (p : Ptr) (s : Server) (r : Reaction Call) : Filled p s (s.react r) :=
  .of_push (fun hp => List.flatMap_eq_nil_iff.mpr fun c _ => Call.messages_of_not_reached hp c)
    (outbox_react p s r) ((called_react s r).told p)

/-- A report to the callback, and what the callback does then. -/
theorem filled_reported (p : Ptr) (s : Server) {e : Event} (h : entryFor p e = none)
    (hc : completion p e = none) (r : Reaction Call) : Filled p s ((s.record [e]).react r) :=
  (filled_record p s (by simp [h]) (by simp [hc])).trans rfl (filled_react p _ r)

theorem reported_mConnections (s : Server) (e : Event) (r : Reaction Call) :
    ((s.record [e]).react r).mConnections = s.mConnections :=
  (called_react (s.record [e]) r).mConnections

theorem filled_halt (p : Ptr) (s : Server) : Filled p s s.halt := .of_eq rfl rfl

theorem outbox_goto (p : Ptr) (s : Server) (pc : Pc) : outbox p (s.goto pc) = outbox p s := by
  unfold goto
  split <;> rfl

theorem told_goto (p : Ptr) (s : Server) (pc : Pc) : (s.goto pc).told p = s.told p := by
  unfold goto
  split <;> rfl

theorem filled_goto {p : Ptr} {s t : Server} (h : Filled p s t) (pc : Pc) :
    Filled p s (t.goto pc) where
  filling := by
    rw [outbox_goto]
    exact h.filling
  idle hp := by
    rw [outbox_goto]
    exact h.idle hp
  told := (told_goto p t pc).trans h.told

theorem filled_unwatch (p : Ptr) (s : Server) (i : Fd) : Filled p s (s.unwatch i) := .of_eq rfl rfl

theorem filled_addServerConnection (p q : Ptr) (s : Server) :
    Filled p s (s.addServerConnection q) := .of_eq rfl rfl

theorem filled_removeServerConnection (p : Ptr) (s : Server) (sckt : Fd) :
    Filled p s (s.removeServerConnection sckt) := by
  unfold removeServerConnection
  split
  · exact .of_eq rfl rfl
  · exact .of_events rfl rfl rfl rfl

theorem filled_accepting (p : Ptr) (s : Server) (a : Attempt) : Filled p s (s.accepting a) :=
  .of_events rfl rfl (filterMap_events a (fun _ => rfl) (fun _ _ => rfl) (fun _ _ => rfl))
    (filterMap_events a (fun _ => rfl) (fun _ _ => rfl) (fun _ _ => rfl))

/-- The new object has an empty queue. -/
theorem filled_allocated (p : Ptr) (s : Server) {a : Attempt} {client : ServerConnection}
    (ha : a.construct = .ok client) : Filled p s ((s.accepting a).allocate client) := by
  refine (filled_accepting p s a).trans rfl ?_
  obtain ⟨-, -, -, -, hnil⟩ := Attempt.construct_ok ha
  rcases eq_or_ne p (s.accepting a).nextPtr with rfl | hne
  · refine ⟨.of_nil ?_ rfl, fun _ => rfl, rfl⟩
    simp only [outbox, allocate, Function.update_self, hnil]
  · refine .of_eq ?_ rfl
    simp only [allocate, Function.update_of_ne hne]

theorem filled_greeting (p : Ptr) (s : Server) {a : Attempt} {client : ServerConnection}
    (ha : a.construct = .ok client) (connected : Reaction Call) :
    Filled p s (s.greeting a client connected) :=
  (filled_allocated p s ha).trans rfl (filled_reported p _ rfl rfl connected)

theorem filled_receiving (p q : Ptr) (s : Server) (r : Recv) : Filled p s (s.receiving q r) := by
  refine .of_events ?_ rfl rfl rfl
  simp only [receiving]
  rcases eq_or_ne p q with rfl | hne
  · rw [Function.update_self, ServerConnection.performReceive_mOutgoingBytes]
  · rw [Function.update_of_ne hne]

/-! ### The branches -/

theorem filled_acceptBranch (p : Ptr) (s : Server) (a : Attempt) (connected : Reaction Call) :
    Filled p s (s.acceptBranch a connected) := by
  have hcon : ∀ client, (s.greeting a client connected).mConnections = s.mConnections :=
    fun client => reported_mConnections _ _ connected
  apply acceptBranch_rule (P := Filled p s)
  case rejected => exact fun _ _ => filled_accepting p s a
  case null => exact fun client ha _ => (filled_allocated p s ha).trans rfl (filled_halt p _)
  case registered =>
    exact fun client ha _ _ =>
      (filled_greeting p s ha connected).trans (hcon client) (filled_addServerConnection p _ _)
  case swallowed => exact fun client ha _ _ => filled_greeting p s ha connected
  case escaped =>
    exact fun client ha _ _ =>
      (filled_greeting p s ha connected).trans (hcon client) (filled_halt p _)

theorem filled_dropConnection (p q : Ptr) (s : Server) (sckt : Fd) (disconnected : Reaction Call) :
    Filled p s (s.dropConnection sckt q disconnected) := by
  have hd : Filled p s (s.disconnect q disconnected) := filled_reported p s rfl rfl disconnected
  have hcon : (s.disconnect q disconnected).mConnections = s.mConnections :=
    reported_mConnections _ _ _
  apply dropConnection_rule (P := Filled p s)
  case silent => exact fun _ => filled_removeServerConnection p s sckt
  case reported => exact fun _ _ => hd.trans hcon (filled_removeServerConnection p _ sckt)
  case escaped => exact fun _ _ => hd.trans hcon (filled_halt p _)

theorem filled_handleServerConnection (p : Ptr) (s : Server) (i : Fd) (e : Reading) :
    Filled p s (s.handleServerConnection i e) := by
  have hrecv : ∀ q, Filled p s (s.receiving q e.recv) := fun q => filled_receiving p q s e.recv
  have hdeliver : ∀ q data, Filled p s ((s.receiving q e.recv).deliver q data e.receiveComplete) :=
    fun q data => (hrecv q).trans rfl (filled_reported p _ rfl rfl _)
  have hcon : ∀ q data,
      ((s.receiving q e.recv).deliver q data e.receiveComplete).mConnections = s.mConnections :=
    fun q data => reported_mConnections _ _ _
  apply handleServerConnection_rule (P := Filled p s)
  case unknown => exact fun _ => Filled.refl p s
  case failed => exact fun q _ _ _ => (hrecv q).trans rfl (filled_dropConnection p q _ i _)
  case silent => exact fun q _ _ _ _ => hrecv q
  case delivered => exact fun q data _ _ _ _ => hdeliver q data
  case thrown =>
    exact fun q data _ _ _ _ =>
      (hdeliver q data).trans (hcon q data) (filled_dropConnection p q _ i _)
  case escaped =>
    exact fun q data _ _ _ _ => (hdeliver q data).trans (hcon q data) (filled_halt p _)

/-- The descriptor whose write branch is next, if it is ready. -/
def flushing (s : Server) : Option Fd :=
  match s.pc with
  | .scan i _ _ writeFds .write => if i ∈ writeFds then some i else none
  | _ => none

/-- **A step fills the queue of a connection, unless it is a write branch.** -/
theorem filled_step (p : Ptr) {s t : Server} {a : Action} (h : s.step a = some t) :
    (Filled p s t ∧ ∀ e, a = .write e → s.flushing = none) ∨
      ∃ e i pc, a = .write e ∧ s.flushing = some i ∧ s.Writable i e ∧ s.pc ≠ .halted ∧
        t = (s.writeBranch i e).goto pc := by
  cases a with
  | call c =>
    obtain ⟨-, rfl⟩ := step_call h
    exact .inl ⟨filled_call p s c, nofun⟩
  | select result =>
    obtain ⟨-, -, ⟨-, rfl⟩ | ⟨readFds, writeFds, -, -, rfl⟩⟩ := step_select h
    · exact .inl ⟨filled_halt p s, nofun⟩
    · exact .inl ⟨.of_eq rfl rfl, nofun⟩
  | read attempt connected e =>
    obtain ⟨i, fdmax, readFds, writeFds, -, -, rfl⟩ := step_read h
    refine .inl ⟨filled_goto ?_ _, nofun⟩
    unfold readBranch
    split_ifs with hi hc
    · exact filled_acceptBranch p s attempt connected
    · exact filled_handleServerConnection p s i e
    · exact Filled.refl p s
  | write e =>
    obtain ⟨i, fdmax, readFds, writeFds, hpc, hw, rfl⟩ := step_write h
    by_cases hi : i ∈ writeFds
    · rw [if_pos hi]
      have hready : s.flushing = some i := by
        unfold flushing
        rw [hpc]
        exact if_pos hi
      have hne : s.pc ≠ .halted := by
        rw [hpc]
        exact Pc.noConfusion
      exact .inr ⟨e, i, _, rfl, hready, hw, hne, rfl⟩
    · rw [if_neg hi]
      refine .inl ⟨filled_goto (Filled.refl p s) _, fun _ _ => ?_⟩
      unfold flushing
      rw [hpc]
      exact if_neg hi

end Server

end C11Http.Posix
