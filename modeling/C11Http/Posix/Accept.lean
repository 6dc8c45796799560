import C11Http.Posix.Live

/-! # Accepting is not all or nothing

One connection attempt in the event loop of the posix server. `Accepted` says that the connection is
there: `connected` was delivered for it and for nothing else, it is in the vector, in the map and in
the read set, and its socket is open. `Rejected` says that nothing is left: the registry and the
read set are as before, nothing was delivered, and a descriptor that `accept` has returned is
closed.

An attempt ends in one of the two exactly when `accept` fails or every later step succeeds, the
callback included (`step_allOrNothing_iff`). Every failure in between leaves the accepted descriptor
open, and one of the callback has already told it that the client is connected. -/

namespace C11Http.Posix.Server

open C11Http.Lib.Run Connections

/-- The attempt has made the connection `p`. -/
structure Accepted (s t : Server) (a : Attempt) (p : Ptr) : Prop where
  accept : a.accept = .ok (t.heap p).mSocket
  delivered : t.trace.filterMap connectedTo =
    s.trace.filterMap connectedTo ++ [(p, (t.heap p).mIdentifier)]
  container : p ∈ t.mConnections.mContainer
  mapping : t.mConnections.mMapping (t.heap p).mIdentifier = some p
  read : (t.heap p).mSocket ∈ t.mConnections.mRead
  opened : (t.heap p).mSocket ∈ t.openFds

/-- The attempt has left nothing. -/
structure Rejected (s t : Server) (a : Attempt) : Prop where
  registry : t.mConnections = s.mConnections
  silent : t.trace.filterMap connectedTo = s.trace.filterMap connectedTo
  closed : ∀ fd, a.accept = .ok fd → fd ∉ t.openFds

/-- **All or nothing.** -/
def AllOrNothing (s t : Server) (a : Attempt) : Prop := (∃ p, Accepted s t a p) ∨ Rejected s t a

/-- `accept` fails, or `poll`, the receive of the identifier and the callback all succeed. -/
def Settles (a : Attempt) (connected : Reaction Call) : Prop :=
  (∃ what, a.accept = .error what) ∨
    a.poll = none ∧ a.recv.data ≠ [] ∧ connected.outcome = .returns

variable {s : Server} {a : Attempt} {connected : Reaction Call} {client : ServerConnection}

theorem accepting_connectedTo (s : Server) (a : Attempt) :
    (s.accepting a).trace.filterMap connectedTo = s.trace.filterMap connectedTo := by
  rw [accepting, List.filterMap_append,
    filterMap_events a (fun _ => rfl) (fun _ _ => rfl) (fun _ _ => rfl), List.append_nil]

/-- While `connected` runs it has been delivered once, for the new object. -/
theorem greeting_connectedTo (s : Server) (a : Attempt) (client : ServerConnection)
    (connected : Reaction Call) : (s.greeting a client connected).trace.filterMap connectedTo =
      s.trace.filterMap connectedTo ++ [(s.nextPtr, client.mIdentifier)] := by
  have hself : ((s.accepting a).allocate client).heap s.nextPtr = client :=
    Function.update_self _ _ _
  have hcall := (called_react (((s.accepting a).allocate client).record
    [.connected s.nextPtr (((s.accepting a).allocate client).heap s.nextPtr).mIdentifier])
      connected).connectedTo_trace
  rw [greeting, connect, hcall, record, List.filterMap_append, hself]
  exact congrArg (· ++ _) (accepting_connectedTo s a)

/-- An error of the constructor leaves nothing only if it is that of `accept`. -/
theorem rejected_allOrNothing_iff {what : String} (ha : a.construct = .error what) :
    AllOrNothing s (s.accepting a) a ↔ Settles a connected := by
  have hsilent := accepting_connectedTo s a
  have hno : ¬ ∃ c, a.construct = .ok c := by
    rw [ha]
    rintro ⟨c, hc⟩
    cases hc
  rw [Attempt.construct_isOk_iff] at hno
  constructor
  · rintro (⟨p, h⟩ | h)
    · have hdel := h.delivered
      rw [hsilent, List.self_eq_append_right] at hdel
      cases hdel
    · cases hacc : a.accept with
      | error e => exact Or.inl ⟨e, hacc⟩
      | ok fd =>
        refine absurd ?_ (h.closed fd hacc)
        simp [accepting, Attempt.opened, hacc]
  · rintro (⟨e, hacc⟩ | ⟨hpoll, hdata, -⟩)
    · exact Or.inr ⟨rfl, hsilent, fun fd hfd => by rw [hacc] at hfd; cases hfd⟩
    · cases hacc : a.accept with
      | error e => exact Or.inr ⟨rfl, hsilent, fun fd hfd => by rw [hacc] at hfd; cases hfd⟩
      | ok fd => exact absurd ⟨⟨fd, hacc⟩, hpoll, hdata⟩ hno

/-- A constructed connection whose callback returns is accepted. -/
theorem registered_accepted (hs : s.Fresh) (ha : a.construct = .ok client) {e : Reading}
    (hr : s.Readable a e) :
    Accepted s ((s.greeting a client connected).addServerConnection s.nextPtr) a s.nextPtr := by
  have hu := greeted hs connected ha hr
  have hid := hu.identifier.trans (Attempt.construct_ok ha).2.2.1.symm
  refine ⟨hu.accept, ?_, ?_, ?_, ?_, hu.opened⟩
  · refine (greeting_connectedTo s a client connected).trans ?_
    rw [← hid]
    rfl
  · simp [addServerConnection, Connections.addServerConnection]
  · simp [addServerConnection, Connections.addServerConnection]
  · simp [addServerConnection, Connections.addServerConnection]

/-- A connection that has been reported but not registered is neither accepted nor rejected. -/
theorem reported_not_allOrNothing (hs : s.Fresh) {t : Server}
    (ht : Framed (s.greeting a client connected) t)
    (htrace : t.trace = (s.greeting a client connected).trace) : ¬ AllOrNothing s t a := by
  have hdel : t.trace.filterMap connectedTo =
      s.trace.filterMap connectedTo ++ [(s.nextPtr, client.mIdentifier)] := by
    rw [htrace, greeting_connectedTo]
  have hreg : t.mConnections = s.mConnections :=
    ht.mConnections.trans (framed_greeting s hs a client connected).mConnections
  rintro (⟨p, h⟩ | h)
  · have heq := h.delivered
    rw [hdel, List.append_cancel_left_eq, List.cons.injEq, Prod.mk.injEq] at heq
    have hmem := h.container
    rw [hreg, ← heq.1.1] at hmem
    exact (hs _ (Or.inl hmem)).ne rfl
  · have heq := h.silent
    rw [hdel, List.append_right_eq_self] at heq
    cases heq

/-- **One attempt**, from a state whose connections are allocated. -/
theorem acceptBranch_allOrNothing_iff (hs : s.Fresh) (hcb : s.mCallback = true) {e : Reading}
    (hr : s.Readable a e) :
    AllOrNothing s (s.acceptBranch a connected) a ↔ Settles a connected := by
  have hok : ∀ c, a.construct = .ok c → connected.outcome ≠ .returns → ¬ Settles a connected := by
    rintro c hc ho (⟨what, hacc⟩ | ⟨-, -, hret⟩)
    · rw [(Attempt.construct_ok hc).1] at hacc
      cases hacc
    · exact ho hret
  apply acceptBranch_rule (P := fun t => AllOrNothing s t a ↔ Settles a connected)
  case rejected => exact fun what ha => rejected_allOrNothing_iff ha
  case null => exact fun client _ hnull => absurd (hnull.symm.trans hcb) Bool.false_ne_true
  case registered =>
    intro client ha _ ho
    obtain ⟨-, hpoll, hid, hne, -⟩ := Attempt.construct_ok ha
    exact iff_of_true (Or.inl ⟨_, registered_accepted hs ha hr⟩) (Or.inr ⟨hpoll, hid ▸ hne, ho⟩)
  case swallowed =>
    exact fun client ha _ ho => iff_of_false (reported_not_allOrNothing hs (Framed.refl _) rfl)
      (hok client ha (by rw [ho]; decide))
  case escaped =>
    exact fun client ha _ ho => iff_of_false (reported_not_allOrNothing hs (framed_halt _) rfl)
      (hok client ha (by rw [ho]; decide))

theorem goto_allOrNothing (s t : Server) (a : Attempt) (pc : Pc) :
    AllOrNothing s (t.goto pc) a ↔ AllOrNothing s t a := by
  unfold goto
  split
  · rfl
  · constructor
    · rintro (⟨p, h⟩ | h)
      · exact Or.inl ⟨p, { h with }⟩
      · exact Or.inr { h with }
    · rintro (⟨p, h⟩ | h)
      · exact Or.inl ⟨p, { h with }⟩
      · exact Or.inr { h with }

/-- One step on the listening socket. -/
theorem read_allOrNothing_iff {t : Server} {e : Reading} {fdmax : ℕ} {readFds writeFds : Finset Fd}
    (hs : s.Fresh) (hcb : s.mCallback = true)
    (hpc : s.pc = .scan s.mConnectSocket fdmax readFds writeFds .read)
    (hready : s.mConnectSocket ∈ readFds) (h : s.step (.read a connected e) = some t) :
    AllOrNothing s t a ↔ Settles a connected := by
  obtain ⟨i, fdmax', readFds', writeFds', hpc', hr, rfl⟩ := step_read h
  rw [hpc, Pc.scan.injEq] at hpc'
  obtain ⟨rfl, rfl, rfl, rfl, -⟩ := hpc'
  rw [goto_allOrNothing, readBranch, if_pos hready, if_pos rfl]
  exact acceptBranch_allOrNothing_iff hs hcb hr

/-- **In every run, a connection attempt is all or nothing exactly when it settles**: when `accept`
fails, or the poll, the receive of the identifier and the callback all succeed. -/
theorem step_allOrNothing_iff {setup : Setup} {as : List Action} {s t : Server} {a : Attempt}
    {connected : Reaction Call} {e : Reading} {fdmax : ℕ} {readFds writeFds : Finset Fd}
    (hrun : run step (waitForEvents setup) as = some s) (hcb : setup.mCallback = true)
    (hpc : s.pc = .scan s.mConnectSocket fdmax readFds writeFds .read)
    (hready : s.mConnectSocket ∈ readFds) (h : s.step (.read a connected e) = some t) :
    AllOrNothing s t a ↔ Settles a connected :=
  read_allOrNothing_iff (fresh_run hrun) ((constant_run hrun).2.trans hcb) hpc hready h

/-- A callback that answers the new client with `"h"` and lets the exception through. -/
def answer : Reaction Call := { calls := [.send [104] [97]], outcome := .runtimeError }

theorem step_allOrNothing_iff_listening : ∃ s t,
    run step (waitForEvents listening) (.select (some ({3}, ∅)) :: skip 3) = some s ∧
      s.step (.read attempt returns ⟨.bytes [], returns, returns⟩) = some t ∧
      AllOrNothing s t attempt := by
  obtain ⟨s, hrun, hpc, hready, t, ht⟩ : ∃ s,
      run step (waitForEvents listening) (.select (some ({3}, ∅)) :: skip 3) = some s ∧
      s.pc = .scan s.mConnectSocket 4 {3} ∅ .read ∧ s.mConnectSocket ∈ ({3} : Finset Fd) ∧
      ∃ t, s.step (.read attempt returns ⟨.bytes [], returns, returns⟩) = some t :=
    ⟨_, rfl, rfl, by decide, _, rfl⟩
  have hsettles : Settles attempt returns := Or.inr ⟨rfl, by simp [attempt, Recv.data], rfl⟩
  exact ⟨s, t, hrun, ht, (step_allOrNothing_iff hrun rfl hpc hready ht).mpr hsettles⟩

/-- **Answering a new client from `connected`**: it is not registered yet, so the `send` throws, the
client has been told that it is connected, and its descriptor stays open. -/
theorem answer_not_allOrNothing : ∃ s t,
    run step (waitForEvents listening) (.select (some ({3}, ∅)) :: skip 3) = some s ∧
      s.step (.read attempt answer ⟨.bytes [], returns, returns⟩) = some t ∧
      (s.send [104] [97]).2 = .error "Connection not found" ∧ ¬ AllOrNothing s t attempt := by
  obtain ⟨s, hrun, hpc, hready, hsend, t, ht⟩ : ∃ s,
      run step (waitForEvents listening) (.select (some ({3}, ∅)) :: skip 3) = some s ∧
      s.pc = .scan s.mConnectSocket 4 {3} ∅ .read ∧ s.mConnectSocket ∈ ({3} : Finset Fd) ∧
      (s.send [104] [97]).2 = .error "Connection not found" ∧
      ∃ t, s.step (.read attempt answer ⟨.bytes [], returns, returns⟩) = some t :=
    ⟨_, rfl, rfl, by decide, rfl, _, rfl⟩
  refine ⟨s, t, hrun, ht, hsend, ?_⟩
  rw [read_allOrNothing_iff (fresh_run hrun) (constant_run hrun).2 hpc hready ht]
  rintro (⟨what, hacc⟩ | ⟨-, -, ho⟩)
  · cases hacc
  · cases ho

end C11Http.Posix.Server
