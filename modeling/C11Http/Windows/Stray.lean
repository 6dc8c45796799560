import C11Http.Windows.Live

/-! # The connections that the loop of the windows server uses

`waitForEvents` keeps the pointer of a connection while `receiveComplete` runs for it and queues the
next receive on it afterwards. The callback may send; a `WSASend` that fails removes its connection
when `sendFailed` has returned, and that can be the one the loop has kept.

`registered_while_spared`: in every run in which no such removal is one of the connection whose
`receiveComplete` still runs, every connection that the loop uses is registered at that moment.
`stray_receive` is the run in which it is not. -/

namespace C11Http.Windows.Server

open C11Http.Lib.Run Connections

variable {s t : Server}

/-- Every connection that the loop has used was registered then. -/
def Registered (s : Server) : Prop := ∀ p registered, .touched p registered ∈ s.trace →
  registered = true

/-- The removal behind `sendFailed` finds no connection whose `receiveComplete` still runs. -/
def SparesReceiver (s : Server) : Action → Prop
  | .returns _ =>
    match s.stack with
    | .sendFailed connection _ :: stack =>
      match s.mConnections.mMapping (s.heap connection).mIdentifier with
      | some p => .receiveComplete p ∉ stack
      | none => True
    | _ => True
  | _ => True

instance (s : Server) (a : Action) : Decidable (SparesReceiver s a) := by
  delta SparesReceiver
  exact match a with
    | .returns _ =>
      match s.stack with
      | .sendFailed connection _ :: stack => by
        dsimp only
        exact match s.mConnections.mMapping (s.heap connection).mIdentifier with
          | some _ => inferInstance
          | none => instDecidableTrue
      | [] | .receiveComplete _ :: _ | .disconnected _ _ :: _ | .completion :: _
      | .sendComplete _ :: _ => instDecidableTrue
    | .call _ | .wsaSend _ | .throws _ | .wait | .ioCompletion | .waitFailed _ | .signaled _ _ _ _
    | .dataSentToClient _ _ | .registers _ _ | .receives _ | .connects =>
      instDecidableTrue

/-- The connection whose `receiveComplete` runs is registered, or the server is shut down and does
not use it again. -/
structure Held (s : Server) : Prop where
  held : ∀ p, .receiveComplete p ∈ s.stack →
    s.mHasBeenShutdown = true ∨ p ∈ s.mConnections.mContainer
  registered : Registered s

namespace Held

theorem start (setup : Setup) : Held (waitForEvents setup) where
  held _ h := by cases h
  registered _ _ h := by cases h

theorem aside (h : Held s) (ht : Aside s t) : Held t := by
  obtain ⟨targets, sending, rfl⟩ := ht
  exact { h with }

/-- Nothing is used. -/
theorem record (h : Held s) {es : List Event} (hes : ∀ p registered, .touched p registered ∉ es) :
    Held (s.record es) where
  held := h.held
  registered p registered hmem := by
    rcases List.mem_append.mp hmem with hmem | hmem
    · exact h.registered p registered hmem
    · exact absurd hmem (hes p registered)

theorem event (h : Held s) {e : Event} (he : ∀ p registered, e ≠ .touched p registered) :
    Held (s.record [e]) :=
  h.record fun p registered hmem => he p registered (List.mem_singleton.mp hmem).symm

theorem leave (h : Held s) (what : String) : Held (s.leave what) := by
  have hevent : Held (s.record [.threw what]) := h.event fun _ _ he => by cases he
  exact { hevent with }

theorem crash (h : Held s) : Held s.crash := { h with }

/-- A registered connection is used. -/
theorem touch (h : Held s) {p : Ptr} (hp : p ∈ s.mConnections.mContainer) : Held (s.touch p) where
  held := h.held
  registered q registered hmem := by
    rcases List.mem_append.mp hmem with hmem | hmem
    · exact h.registered q registered hmem
    · rw [List.mem_singleton, Event.touched.injEq] at hmem
      rw [hmem.2]
      exact decide_eq_true hp

/-- A callback is called; `receiveComplete` only for a registered connection. -/
theorem invoke (h : Held s) {e : Event} {f : Frame}
    (he : ∀ p registered, e ≠ .touched p registered)
    (hf : ∀ p, f = .receiveComplete p → p ∈ s.mConnections.mContainer) : Held (s.invoke e f) where
  held p hp := by
    rcases List.mem_cons.mp hp with hp | hp
    · exact Or.inr (hf p hp.symm)
    · exact h.held p hp
  registered := (h.event he).registered

theorem pop (h : Held s) {f : Frame} {stack : List Frame} (hs : s.stack = f :: stack) :
    Held { s with stack := stack } where
  held p hp := h.held p (hs ▸ List.mem_cons_of_mem f hp)
  registered := h.registered

/-! ### Removals -/

/-- A connection is deleted that no `receiveComplete` runs for. -/
theorem drop (h : Held s) {p : Ptr} (hp : .receiveComplete p ∉ s.stack) : Held (s.drop p) where
  held q hq := (h.held q hq).imp_right fun hmem =>
    (List.mem_erase_of_ne (ne_of_apply_ne Frame.receiveComplete
      (ne_of_mem_of_not_mem hq hp))).mpr hmem
  registered q registered hmem := by
    rcases List.mem_append.mp hmem with hmem | hmem
    · exact h.registered q registered hmem
    · simp at hmem

theorem removeServerConnection (h : Held s) (hlive : Live s) (handle : Handle)
    (hstack : s.stack = []) : Held (s.removeServerConnection handle) :=
  removeServerConnection_rule hlive.sound handle h fun _ _ => h.drop fun hmem => by
    rw [hstack] at hmem
    cases hmem

theorem removeServerConnectionById (h : Held s) (hlive : Live s) (identifier : Bytes)
    (hspared : ∀ p ∈ s.mConnections.mMapping identifier, .receiveComplete p ∉ s.stack) :
    Held (s.removeServerConnectionById identifier) := by
  rcases removeServerConnectionById_cases hlive.sound identifier with ⟨-, he⟩ | ⟨p, hp, he⟩
  · rw [he]
    exact h
  · rw [he]
    exact h.drop (hspared p hp)

/-- Behind a shutdown nothing need be registered. -/
theorem shutdown (h : Held s) (hlive : Live s) : Held s.shutdown := by
  obtain ⟨-, hshut, hreg⟩ := shutdown_rule (s := s)
    (P := fun u => Live u ∧ u.mHasBeenShutdown = true ∧ Registered u) (fun _ hu => hu.1.sound)
    (fun u p hu hp => ⟨hu.1.drop hp, hu.2.1, fun q registered hmem => by
      rcases List.mem_append.mp hmem with hmem | hmem
      · exact hu.2.2 q registered hmem
      · simp at hmem⟩)
    (fun u hu => ⟨{ hu.1 with }, hu.2⟩) ⟨{ hlive with }, rfl, h.registered⟩
  exact ⟨fun _ _ => Or.inl hshut, hreg⟩

/-! ### Steps -/

theorem call (h : Held s) (hlive : Live s) (c : Call) : Held (s.call c) := by
  cases c with
  | send data identifier => exact h.aside (aside_send s data identifier)
  | broadcast data => exact h.aside (aside_broadcast s data)
  | shutdown => exact h.shutdown hlive
  | addConnection mSocket hEvent identifier =>
    exact { h with held := fun p hp => (h.held p hp).imp_right (List.mem_append_left _) }

theorem wsaSend (h : Held s) (hlive : Live s) (e : Sending) (result : Started) :
    Held (s.wsaSend e result) := by
  have hevent : Held (s.record
      [.sending s.nextSend e.connection (s.heap e.connection).mIdentifier]) :=
    h.event fun _ _ he => by cases he
  have hissue : Held (s.issue e) := { hevent with }
  have hstart : Held (s.start e) := { hissue with }
  have hfail : Held ((s.issue e).record [.failed e.connection]) :=
    hissue.event fun _ _ he => by cases he
  cases result with
  | pending => exact hstart.aside (aside_back _ _)
  | immediate =>
    unfold Server.wsaSend
    split_ifs
    · exact hstart.invoke (fun _ _ he => by cases he) fun _ he => by cases he
    · exact hstart.aside (aside_back _ _)
  | failed error =>
    unfold Server.wsaSend
    simp only
    split_ifs with hcb
    · exact hfail.invoke (fun _ _ he => by cases he) fun _ he => by cases he
    · -- without a callback nothing runs on the stack
      have hempty : s.stack = [] := by
        by_contra hne
        exact hcb (hlive.heard hne)
      have hremoved := hfail.removeServerConnectionById { hlive with }
        (s.heap e.connection).mIdentifier fun p _ hmem => by
          have hmem' : .receiveComplete p ∈ s.stack := hmem
          rw [hempty] at hmem'
          cases hmem'
      exact hremoved.aside (aside_back _ _)

theorem queueReceive (h : Held s) (p : Ptr) (wsaRecv : Started) :
    Held (s.queueReceiveFromConnection p wsaRecv) := by
  cases wsaRecv with
  | pending => exact { h with }
  | immediate => exact { h with }
  | failed error =>
    have hreset : Held { s with signaled := s.signaled.erase (s.heap p).hEvent } := { h with }
    exact (hreset.event (e := .failed p) fun _ _ he => by cases he).leave _

/-- The next receive is queued on a connection that is registered, or not at all. -/
theorem requeue (h : Held s) {p : Ptr}
    (hp : s.mHasBeenShutdown = true ∨ p ∈ s.mConnections.mContainer) (wsaRecv : Started) :
    Held (s.requeue p wsaRecv) := by
  unfold Server.requeue
  split_ifs with hshut
  · exact h
  · have htouch := h.touch (hp.resolve_left hshut)
    exact use_rule htouch.crash fun _ => htouch.queueReceive p wsaRecv

theorem resume (h : Held s) (hlive : Live s) {f : Frame} {stack : List Frame}
    (hstack : s.stack = f :: stack) (wsaRecv : Started)
    (hspared : SparesReceiver s (.returns wsaRecv)) :
    Held ({ s with stack := stack }.resume wsaRecv f) := by
  have hpop := h.pop hstack
  have hmem : f ∈ s.stack := hstack ▸ List.mem_cons_self
  cases f with
  | receiveComplete p => exact hpop.requeue (h.held p hmem) wsaRecv
  | disconnected p handleId =>
    -- a callback of the loop has no other below it
    have hnested := hlive.nested
    rw [hstack] at hnested
    have hempty : stack = [] := by
      by_contra hne
      exact hnested.1 hne
    exact hpop.removeServerConnection (hlive.pop hstack) handleId hempty
  | completion => exact hpop
  | sendFailed p caller =>
    simp only [SparesReceiver, hstack] at hspared
    have hremoved := hpop.removeServerConnectionById (hlive.pop hstack) (s.heap p).mIdentifier
      fun q hq => by
        have hq' : s.mConnections.mMapping (s.heap p).mIdentifier = some q := hq
        rw [hq'] at hspared
        exact hspared
    exact use_rule hpop.crash fun _ => hremoved.aside (aside_back _ _)
  | sendComplete caller => exact hpop.aside (aside_back _ _)

theorem unwind (h : Held s) (what : String) (f : Frame) : Held (s.unwind what f) := by
  cases f with
  | receiveComplete p => exact h.leave what
  | disconnected p handleId => exact h.leave what
  | completion => exact h.leave what
  | sendFailed p caller => exact h
  | sendComplete caller => exact h

theorem getHandleArray (h : Held s) : Held s.getHandleArray :=
  { h with held := fun p hp => (h.held p hp).imp_right mem_getHandleArray.mpr }

theorem receiveBranch (h : Held s) (handleId : Handle) (result : Overlapped) (wsaRecv : Started) :
    Held (s.receiveBranch handleId result wsaRecv) := by
  unfold Server.receiveBranch
  split
  · exact h.leave _
  · rename_i p hfind
    have hp := (getServerConnection_ok hfind).1
    have hcollect : Held (s.collect p) := { h.touch hp with }
    cases result with
    | failed => exact hcollect.event fun _ _ he => by cases he
    | bytes data =>
      simp only
      split_ifs
      · exact hcollect.invoke (fun _ _ he => by cases he) fun _ he => by cases he
      · refine hcollect.invoke (fun _ _ he => by cases he) fun q he => ?_
        cases he
        exact hp
      · exact hcollect
      · exact hcollect.requeue (Or.inr hp) wsaRecv

theorem addNewConnection (h : Held s) (a : Accept) : Held (s.addNewConnection a) := by
  refine addNewConnection_rule h.crash (fun _ what hu => hu.leave what)
    (fun _ _ hu => { hu with }) (fun _ _ hu => { hu with }) (fun sckt hEvent _ => ?_)
    fun sckt hEvent _ => { h with }
  have haccepted : Held (s.accepted sckt hEvent) := { h with }
  exact haccepted.event fun _ _ he => by cases he

theorem dispatch (h : Held s) (handleId : Handle) (result : Overlapped) (wsaRecv : Started)
    (accept : Accept) : Held (s.dispatch handleId result wsaRecv accept) := by
  unfold Server.dispatch
  split_ifs
  · exact { h with }
  · have htake : Held { s.takeUp handleId with acceptEx := .idle } := { h with }
    exact htake.addNewConnection accept
  · have htake : Held (s.takeUp handleId) := { h with }
    exact htake.receiveBranch handleId result wsaRecv

theorem dataSentToClient (h : Held s) (e : Send) (cbTransferred : ℕ) :
    Held (s.dataSentToClient e cbTransferred) := by
  have hpop : ∀ rest, Held (s.popTarget e rest) := fun rest => { h with }
  have hover : Held { s with sends := s.sends.erase e } := { h with }
  exact dataSentToClient_rule (fun _ => hover) hover.crash h.crash
    (fun _ _ _ rest _ => hpop rest)
    fun _ _ _ rest _ => (hpop rest).invoke (fun _ _ he => by cases he) fun _ he => by cases he

/-- **A step that spares the receiver** keeps the loop's connection registered. -/
theorem step (h : Held s) (hlive : Live s) {a : Action} (hspared : SparesReceiver s a)
    (hs : Server.step s a = some t) : Held t := by
  cases a with
  | call c =>
    obtain ⟨-, -, rfl⟩ := step_call hs
    exact h.call hlive c
  | wsaSend result =>
    obtain ⟨e, -, rfl⟩ := step_wsaSend hs
    exact use_rule h.crash fun _ => h.wsaSend hlive e result
  | returns wsaRecv =>
    obtain ⟨-, f, stack, hstack, rfl⟩ := step_returns hs
    exact h.resume hlive hstack wsaRecv hspared
  | throws what =>
    obtain ⟨-, f, stack, hstack, rfl⟩ := step_throws hs
    exact (h.pop hstack).unwind what f
  | wait =>
    obtain ⟨-, -, ⟨-, rfl⟩ | ⟨-, rfl⟩⟩ := step_wait hs
    · exact { h with }
    · exact h.getHandleArray
  | ioCompletion =>
    obtain ⟨-, -, ⟨-, rfl⟩ | ⟨-, rfl⟩⟩ := step_ioCompletion hs
    · exact { h with }
    · exact h.getHandleArray
  | waitFailed error =>
    obtain ⟨-, rfl⟩ := step_waitFailed hs
    exact h.leave _
  | signaled i result wsaRecv accept =>
    obtain ⟨handles, handleId, -, -, -, -, -, rfl⟩ := step_signaled hs
    exact h.dispatch handleId result wsaRecv accept
  | dataSentToClient number cbTransferred =>
    obtain ⟨-, -, e, -, rfl⟩ := step_dataSentToClient hs
    exact h.dataSentToClient e cbTransferred
  | registers p identifier =>
    obtain ⟨-, -, -, rfl⟩ := step_registers hs
    exact { h with held := fun p hp => (h.held p hp).imp_right (List.mem_append_left _) }
  | receives p =>
    obtain ⟨-, rfl⟩ := step_receives hs
    exact { h with }
  | connects =>
    obtain ⟨sckt, -, rfl⟩ := step_connects hs
    exact { h with }

end Held

/-- **The loop uses registered connections only**, in every run in which no failed send removes the
connection whose `receiveComplete` still runs. -/
theorem registered_while_spared (setup : Setup) (as : List Action)
    (hspared : Along step SparesReceiver (waitForEvents setup) as) :
    Always step Registered (waitForEvents setup) as :=
  (always_of_along (P := fun s => Live s ∧ Held s)
    (fun _ _ _ h ha hs => ⟨h.1.step hs, h.2.step h.1 ha hs⟩)
    ⟨Live.start setup, Held.start setup⟩ hspared).imp fun _ h => h.2.registered

/-- One client has connected and its first bytes are delivered. -/
def delivering (data : Bytes) : List Action :=
  [.connects, .wait, .signaled 0 .failed .pending ⟨.ok 1, .pending, .ok 4⟩, .wait,
    .registers 0 [97], .receives 0, .ioCompletion,
    .signaled 1 (.bytes data) .pending ⟨.ok 2, .pending, .ok 5⟩]

/-- A server with a callback. -/
def listening : Setup := { mCallback := true, hEvent := 0, incoming := 3, events := ∅ }

/-- The callback sends to another client than the one it has heard from. -/
theorem registered_while_spared_run : Always step Registered (waitForEvents listening)
    (delivering [1] ++ [.call (.addConnection 9 2 [98]), .call (.send [1] [98]),
      .wsaSend (.failed 7), .returns .pending, .returns .pending]) :=
  registered_while_spared listening _ (by decide)

/-- **A receive on a deleted connection.** The callback sends to the client it has heard from, and
the `WSASend` fails. -/
theorem stray_receive : ∃ t, run step (waitForEvents listening)
    (delivering [1] ++ [.call (.send [1] [97]), .wsaSend (.failed 7), .returns .pending,
      .returns .pending]) = some t ∧ ¬ Registered t := by
  obtain ⟨t, ht, hp⟩ := exists_run step (waitForEvents listening)
    (delivering [1] ++ [.call (.send [1] [97]), .wsaSend (.failed 7), .returns .pending,
      .returns .pending]) (fun t => .touched 0 false ∈ t.trace) (by decide)
  exact ⟨t, ht, fun h => Bool.false_ne_true (h 0 false hp)⟩

end C11Http.Windows.Server
