import C11Http.Windows.Live

/-! # Deliveries of the windows server

`receiveComplete` and `disconnected` are delivered by the loop for a connection that is registered
when its event is taken up. A step delivers nothing (`Quiet`) or exactly one of the two for such a
connection (`Delivered`, `step_cases`). While `disconnected` runs nothing else is delivered, and
when it returns the connection is registered no longer; so `disconnected` is the last delivery for
every connection (`disconnected_final`). -/

namespace C11Http.Windows.Server

open C11Http.Lib.Run Connections

variable {s t u : Server}

/-- What the loop delivers for a connection: `true` is `disconnected`. -/
def delivery (p : Ptr) : Event → Option Bool
  | .receiveComplete q _ _ => if q = p then some false else none
  | .disconnected q _ => if q = p then some true else none
  | _ => none

/-- Nothing is delivered, no connection built before becomes registered again, and no callback of a
`disconnected` ends. -/
structure Quiet (s t : Server) : Prop where
  trace : ∃ es, t.trace = s.trace ++ es ∧ ∀ e ∈ es, ∀ p, delivery p e = none
  nextPtr : s.nextPtr ≤ t.nextPtr
  alive : ∀ p, p < s.nextPtr → p ∈ alive t → p ∈ alive s
  stack : ∀ p handleId, .disconnected p handleId ∈ s.stack → .disconnected p handleId ∈ t.stack
  left : s.pc = .left → t.pc = .left

namespace Quiet

/-- Nothing but the trace, by events that deliver nothing, and other fields. -/
theorem of_events (es : List Event) (htrace : t.trace = s.trace ++ es)
    (hes : ∀ e ∈ es, ∀ p, delivery p e = none) (hptr : t.nextPtr = s.nextPtr)
    (halive : Server.alive t = Server.alive s) (hstack : t.stack = s.stack)
    (hpc : s.pc = .left → t.pc = .left) : Quiet s t where
  trace := ⟨es, htrace, hes⟩
  nextPtr := hptr.ge
  alive _ _ hp := halive ▸ hp
  stack _ _ hp := hstack ▸ hp
  left := hpc

theorem of_same (htrace : t.trace = s.trace) (hptr : t.nextPtr = s.nextPtr)
    (halive : Server.alive t = Server.alive s) (hstack : t.stack = s.stack)
    (hpc : s.pc = .left → t.pc = .left) : Quiet s t :=
  of_events [] (by rw [htrace, List.append_nil]) (fun _ h => by cases h) hptr halive hstack hpc

theorem refl (s : Server) : Quiet s s := of_same rfl rfl rfl rfl id

theorem trans (h : Quiet s t) (h' : Quiet t u) : Quiet s u where
  trace := by
    obtain ⟨es, he, hes⟩ := h.trace
    obtain ⟨es', he', hes'⟩ := h'.trace
    refine ⟨es ++ es', by rw [he', he, List.append_assoc], fun e hmem => ?_⟩
    rcases List.mem_append.mp hmem with hmem | hmem
    · exact hes e hmem
    · exact hes' e hmem
  nextPtr := h.nextPtr.trans h'.nextPtr
  alive p hp hpu := h.alive p hp (h'.alive p (hp.trans_le h.nextPtr) hpu)
  stack p handleId hp := h'.stack p handleId (h.stack p handleId hp)
  left hpc := h'.left (h.left hpc)

theorem aside (h : Aside s t) : Quiet s t := by
  obtain ⟨targets, sending, rfl⟩ := h
  exact of_same rfl rfl rfl rfl id

theorem crash (s : Server) : Quiet s s.crash := of_same rfl rfl rfl rfl fun _ => rfl

theorem record (s : Server) (es : List Event) (hes : ∀ e ∈ es, ∀ p, delivery p e = none) :
    Quiet s (s.record es) := of_events es rfl hes rfl rfl rfl id

theorem leave (s : Server) (what : String) : Quiet s (s.leave what) :=
  of_events [.threw what] rfl (fun e he p => by rw [List.mem_singleton.mp he]; rfl) rfl rfl rfl
    fun _ => rfl

/-- A callback is called for a send. -/
theorem invoke (s : Server) {e : Event} {f : Frame} (he : ∀ p, delivery p e = none) :
    Quiet s (s.invoke e f) where
  trace := ⟨[e], rfl, fun e' he' p => by rw [List.mem_singleton.mp he']; exact he p⟩
  nextPtr := le_rfl
  alive _ _ hp := hp
  stack _ _ hp := List.mem_cons_of_mem _ hp
  left := id

theorem drop (s : Server) (p : Ptr) : Quiet s (s.drop p) where
  trace := ⟨_, rfl, fun e he q => by
    rcases List.mem_pair.mp he with rfl | rfl
    · rfl
    · rfl⟩
  nextPtr := le_rfl
  alive _ _ hq := (List.erase_sublist.append_right _).subset hq
  stack _ _ hq := hq
  left := id

theorem removeServerConnection (h : Live s) (handle : Handle) :
    Quiet s (s.removeServerConnection handle) :=
  removeServerConnection_rule h.sound handle (refl s) fun p _ => drop s p

theorem removeServerConnectionById (h : Live s) (identifier : Bytes) :
    Quiet s (s.removeServerConnectionById identifier) :=
  removeServerConnectionById_rule h.sound identifier (refl s) fun p _ => drop s p

theorem shutdown (h : Live s) : Quiet s s.shutdown := by
  have hrule := shutdown_rule (P := fun u => Live u ∧ Quiet s u) (s := s) (fun _ hu => hu.1.sound)
    (fun u p hu hp => ⟨hu.1.drop hp, hu.2.trans (drop u p)⟩)
    (fun u hu => ⟨{ hu.1 with }, hu.2.trans (of_same rfl rfl rfl rfl id)⟩)
    ⟨{ h with }, of_same rfl rfl rfl rfl id⟩
  exact hrule.2

/-- A connection that waits for its identifier is registered. -/
theorem enrollInforming (s : Server) {p : Ptr} (identifier : Bytes) (hp : p ∈ s.informing) :
    Quiet s ({ s with informing := s.informing.erase p }.enroll p identifier) where
  trace := ⟨[], by simp [Server.enroll, addConnection, queueReceiveFromConnection],
    fun _ h => by cases h⟩
  nextPtr := le_rfl
  alive q _ hmem := by
    rcases Live.mem_alive_enroll.mp hmem with rfl | hmem
    · exact Live.informing_alive hp
    · exact (List.erase_sublist.append_left _).subset hmem
  stack _ _ hq := hq
  left := id

theorem enrollNew (s : Server) (mSocket : Socket) (hEvent : Handle) (identifier : Bytes) :
    Quiet s ((s.newConnection mSocket hEvent).enroll s.nextPtr identifier) where
  trace := ⟨[], by simp [Server.enroll, addConnection, Server.newConnection,
    queueReceiveFromConnection], fun _ h => by cases h⟩
  nextPtr := Nat.le_succ _
  alive q hq hmem := (Live.mem_alive_enroll.mp hmem).resolve_left (Nat.ne_of_lt hq)
  stack _ _ hq := hq
  left := id

theorem call (h : Live s) (c : Call) : Quiet s (s.call c) := by
  cases c with
  | send data identifier => exact aside (aside_send s data identifier)
  | broadcast data => exact aside (aside_broadcast s data)
  | shutdown => exact shutdown h
  | addConnection mSocket hEvent identifier => exact enrollNew s mSocket hEvent identifier

theorem issue (s : Server) (e : Sending) : Quiet s (s.issue e) :=
  of_events [_] rfl (fun e he p => by rw [List.mem_singleton.mp he]; rfl) rfl rfl rfl id

theorem start (s : Server) (e : Sending) : Quiet s (s.start e) :=
  of_events [_] rfl (fun e he p => by rw [List.mem_singleton.mp he]; rfl) rfl rfl rfl id

theorem failed (s : Server) (p : Ptr) : Quiet s (s.record [.failed p]) :=
  record s _ fun e he p => by rw [List.mem_singleton.mp he]; rfl

theorem wsaSend (h : Live s) (e : Sending) (result : Started) : Quiet s (s.wsaSend e result) := by
  have hfail : Quiet s ((s.issue e).record [.failed e.connection]) :=
    (issue s e).trans (failed _ _)
  have hlive : Live ((s.issue e).record [.failed e.connection]) := { h with }
  cases result with
  | pending => exact (start s e).trans (aside (aside_back _ _))
  | immediate =>
    unfold Server.wsaSend
    split_ifs
    · exact (start s e).trans (invoke _ fun _ => rfl)
    · exact (start s e).trans (aside (aside_back _ _))
  | failed error =>
    unfold Server.wsaSend
    simp only
    split_ifs
    · exact hfail.trans (invoke _ fun _ => rfl)
    · exact hfail.trans ((removeServerConnectionById hlive _).trans (aside (aside_back _ _)))

theorem touch (s : Server) (p : Ptr) : Quiet s (s.touch p) :=
  record s _ fun e he p => by rw [List.mem_singleton.mp he]; rfl

theorem queueReceive (s : Server) (p : Ptr) (wsaRecv : Started) :
    Quiet s (s.queueReceiveFromConnection p wsaRecv) := by
  cases wsaRecv with
  | pending => exact of_same rfl rfl rfl rfl id
  | immediate => exact of_same rfl rfl rfl rfl id
  | failed error =>
    have hreset : Quiet s { s with signaled := s.signaled.erase (s.heap p).hEvent } :=
      of_same rfl rfl rfl rfl id
    exact hreset.trans ((failed _ p).trans (leave _ _))

theorem requeue (s : Server) (p : Ptr) (wsaRecv : Started) : Quiet s (s.requeue p wsaRecv) := by
  unfold Server.requeue
  split_ifs
  · exact refl s
  · exact use_rule ((touch s p).trans (crash _)) fun _ =>
      (touch s p).trans (queueReceive _ p wsaRecv)

theorem resume (h : Live s) (wsaRecv : Started) (f : Frame) : Quiet s (s.resume wsaRecv f) := by
  cases f with
  | receiveComplete p => exact requeue s p wsaRecv
  | disconnected p handleId => exact removeServerConnection h handleId
  | completion => exact refl s
  | sendFailed p caller =>
    exact use_rule (crash s) fun _ =>
      (removeServerConnectionById h _).trans (aside (aside_back _ _))
  | sendComplete caller => exact aside (aside_back _ _)

theorem unwind (s : Server) (what : String) (f : Frame) : Quiet s (s.unwind what f) := by
  cases f with
  | receiveComplete p => exact leave s what
  | disconnected p handleId => exact leave s what
  | completion => exact leave s what
  | sendFailed p caller => exact refl s
  | sendComplete caller => exact refl s

theorem getHandleArray (s : Server) (hpc : s.pc ≠ .left) : Quiet s s.getHandleArray where
  trace := ⟨[], by simp [Server.getHandleArray], fun _ h => by cases h⟩
  nextPtr := le_rfl
  alive q _ hq := by
    rcases List.mem_append.mp hq with hq | hq
    · exact Live.registered_alive (mem_getHandleArray.mp hq)
    · exact Live.informing_alive hq
  stack _ _ hq := hq
  left h := absurd h hpc

theorem accepted (s : Server) (sckt : Socket) (hEvent : Handle) :
    Quiet s (s.accepted sckt hEvent) where
  trace := ⟨[], by simp [Server.accepted, Server.newConnection], fun _ h => by cases h⟩
  nextPtr := Nat.le_succ _
  alive _ _ hq := hq
  stack _ _ hq := hq
  left := id

theorem inform (s : Server) (sckt : Socket) (hEvent : Handle) :
    Quiet s { s.accepted sckt hEvent with informing := s.informing ++ [s.nextPtr] } where
  trace := ⟨[], by simp [Server.accepted, Server.newConnection], fun _ h => by cases h⟩
  nextPtr := Nat.le_succ _
  alive q hq hmem := by
    have hmem' : q ∈ s.mConnections.mContainer ++ (s.informing ++ [s.nextPtr]) := hmem
    simp only [List.mem_append, List.mem_singleton] at hmem'
    rcases hmem' with hmem' | hmem' | rfl
    · exact Live.registered_alive hmem'
    · exact Live.informing_alive hmem'
    · exact absurd hq (lt_irrefl _)
  stack _ _ hq := hq
  left := id

theorem addNewConnection (s : Server) (a : Accept) : Quiet s (s.addNewConnection a) :=
  addNewConnection_rule (crash s)
    (fun u what hu => hu.trans (leave u what))
    (fun _ _ hu => hu.trans (of_same rfl rfl rfl rfl id))
    (fun _ _ hu => hu.trans (of_same rfl rfl rfl rfl id))
    (fun sckt hEvent _ => (accepted s sckt hEvent).trans (failed _ _))
    fun sckt hEvent _ => inform s sckt hEvent

theorem dataSentToClient (s : Server) (e : Send) (cbTransferred : ℕ) :
    Quiet s (s.dataSentToClient e cbTransferred) := by
  have hpop : ∀ rest, Quiet s (s.popTarget e rest) := fun rest => of_same rfl rfl rfl rfl id
  have hover : Quiet s { s with sends := s.sends.erase e } := of_same rfl rfl rfl rfl id
  exact dataSentToClient_rule (fun _ => hover) (hover.trans (crash _)) (crash s)
    (fun _ _ _ rest _ => hpop rest)
    fun _ _ _ rest _ => (hpop rest).trans (invoke _ fun _ => rfl)

end Quiet

/-- One of the two is delivered, for a registered connection. -/
structure Delivered (s t : Server) : Prop where
  idle : s.stack = [] ∧ s.pc ≠ .left
  trace : ∃ p ∈ s.mConnections.mContainer, ∃ registered,
    (∃ identifier data, t.trace = s.trace ++ [.touched p registered,
      .receiveComplete p identifier data]) ∨
    ∃ identifier handleId, t.trace = s.trace ++ [.touched p registered,
      .disconnected p identifier] ∧ .disconnected p handleId ∈ t.stack
  nextPtr : t.nextPtr = s.nextPtr
  alive : alive t = alive s

/-- The receive branch delivers for the connection it has found, or nothing. -/
theorem receiveBranch_cases (handleId : Handle) (result : Overlapped) (wsaRecv : Started)
    (hstack : s.stack = []) (hpc : s.pc ≠ .left) :
    Quiet s (s.receiveBranch handleId result wsaRecv) ∨
      Delivered s (s.receiveBranch handleId result wsaRecv) := by
  unfold receiveBranch
  split
  · exact Or.inl (Quiet.leave s _)
  · rename_i p hfind
    have hp := (getServerConnection_ok hfind).1
    have hcollect : Quiet s (s.collect p) :=
      Quiet.of_events [.touched p _] rfl (fun e he p => by rw [List.mem_singleton.mp he]; rfl)
        rfl rfl rfl id
    cases result with
    | failed => exact Or.inl (hcollect.trans (Quiet.failed _ p))
    | bytes data =>
      simp only
      split_ifs
      · exact Or.inr ⟨⟨hstack, hpc⟩, ⟨p, hp, decide (p ∈ s.mConnections.mContainer),
          Or.inr ⟨(s.heap p).mIdentifier, handleId, List.append_assoc _ _ _, List.mem_cons_self⟩⟩,
          rfl, rfl⟩
      · exact Or.inr ⟨⟨hstack, hpc⟩, ⟨p, hp, decide (p ∈ s.mConnections.mContainer),
          Or.inl ⟨(s.heap p).mIdentifier, data, List.append_assoc _ _ _⟩⟩, rfl, rfl⟩
      · exact Or.inl hcollect
      · exact Or.inl (hcollect.trans (Quiet.requeue _ p wsaRecv))

/-- **A step of the loop delivers nothing, or one thing for a registered connection.** A step that
ends a callback is one from the state without its frame. -/
theorem step_cases {a : Action} (h : Live s) (hs : step s a = some t) :
    Quiet s t ∨ Delivered s t ∨ ∃ f stack, s.stack = f :: stack ∧
      ((∃ wsaRecv, t = { s with stack := stack }.resume wsaRecv f) ∨
        ∃ what, t = { s with stack := stack }.unwind what f) := by
  cases a with
  | call c =>
    obtain ⟨-, -, rfl⟩ := step_call hs
    exact Or.inl (Quiet.call h c)
  | wsaSend result =>
    obtain ⟨e, -, rfl⟩ := step_wsaSend hs
    exact Or.inl (use_rule (Quiet.crash s) fun _ => Quiet.wsaSend h e result)
  | returns wsaRecv =>
    obtain ⟨-, f, stack, hstack, rfl⟩ := step_returns hs
    exact Or.inr (Or.inr ⟨f, stack, hstack, Or.inl ⟨wsaRecv, rfl⟩⟩)
  | throws what =>
    obtain ⟨-, f, stack, hstack, rfl⟩ := step_throws hs
    exact Or.inr (Or.inr ⟨f, stack, hstack, Or.inr ⟨what, rfl⟩⟩)
  | wait =>
    obtain ⟨-, hpc, ⟨-, rfl⟩ | ⟨-, rfl⟩⟩ := step_wait hs
    · exact Or.inl (Quiet.of_same rfl rfl rfl rfl fun hl => by rw [hl] at hpc; cases hpc)
    · exact Or.inl (Quiet.getHandleArray s (by rw [hpc]; decide))
  | ioCompletion =>
    obtain ⟨-, ⟨handles, hpc⟩, ⟨-, rfl⟩ | ⟨-, rfl⟩⟩ := step_ioCompletion hs
    · exact Or.inl (Quiet.of_same rfl rfl rfl rfl fun hl => by rw [hl] at hpc; cases hpc)
    · exact Or.inl (Quiet.getHandleArray s fun hl => by rw [hl] at hpc; cases hpc)
  | waitFailed error =>
    obtain ⟨-, rfl⟩ := step_waitFailed hs
    exact Or.inl (Quiet.leave s _)
  | signaled i result wsaRecv accept =>
    obtain ⟨handles, handleId, hpc, -, halone, -, -, rfl⟩ := step_signaled hs
    have hleft : s.pc ≠ .left := fun hl => by rw [hl] at hpc; cases hpc
    unfold dispatch
    split_ifs
    · exact Or.inl (Quiet.of_same rfl rfl rfl rfl fun hl => absurd hl hleft)
    · have htake : Quiet s { s.takeUp handleId with acceptEx := .idle } :=
        Quiet.of_same rfl rfl rfl rfl fun hl => absurd hl hleft
      exact Or.inl (htake.trans (Quiet.addNewConnection _ accept))
    · have htake : Quiet s (s.takeUp handleId) :=
        Quiet.of_same rfl rfl rfl rfl fun hl => absurd hl hleft
      rcases receiveBranch_cases (s := s.takeUp handleId) handleId result wsaRecv halone.2
        (fun he => Pc.noConfusion he) with hq | hd
      · exact Or.inl (htake.trans hq)
      · exact Or.inr (Or.inl ⟨⟨halone.2, hleft⟩, hd.trace, hd.nextPtr, hd.alive⟩)
  | dataSentToClient number cbTransferred =>
    obtain ⟨-, -, e, -, rfl⟩ := step_dataSentToClient hs
    exact Or.inl (Quiet.dataSentToClient s e cbTransferred)
  | registers p identifier =>
    obtain ⟨-, -, hp, rfl⟩ := step_registers hs
    exact Or.inl (Quiet.enrollInforming s identifier hp)
  | receives p =>
    obtain ⟨-, rfl⟩ := step_receives hs
    exact Or.inl (Quiet.of_same rfl rfl rfl rfl id)
  | connects =>
    obtain ⟨sckt, -, rfl⟩ := step_connects hs
    exact Or.inl (Quiet.of_same rfl rfl rfl rfl id)

/-! ### What becomes of a disconnected connection -/

/-- `disconnected` has been delivered. -/
def Gone (s : Server) (p : Ptr) : Prop := ∃ e ∈ s.trace, delivery p e = some true

/-- No further delivery is possible: the loop has been left, the connection is registered no longer,
or its `disconnected` still runs. -/
def Ended (s : Server) (p : Ptr) : Prop :=
  s.pc = .left ∨ (p < s.nextPtr ∧ p ∉ alive s) ∨ ∃ handleId, .disconnected p handleId ∈ s.stack

/-- **The last delivery is `disconnected`**, and there is at most one. -/
structure DisconnectedLast (s : Server) (p : Ptr) : Prop where
  last : s.trace.Pairwise fun e e' => delivery p e = some true → delivery p e' = none
  once : (s.trace.filter fun e => delivery p e = some true).length ≤ 1

theorem delivery_once {p : Ptr} : ∀ {es : List Event},
    es.Pairwise (fun e e' => delivery p e = some true → delivery p e' = none) →
    (es.filter fun e => delivery p e = some true).length ≤ 1
  | [], _ => Nat.zero_le _
  | e :: es, h => by
    rw [List.pairwise_cons] at h
    by_cases he : delivery p e = some true
    · have hnil : (es.filter fun e => delivery p e = some true) = [] := by
        rw [List.filter_eq_nil_iff]
        intro e' he' hd
        rw [h.1 e' he' he] at hd
        exact absurd hd (by decide)
      rw [List.filter_cons_of_pos (by simpa using he), hnil, List.length_singleton]
    · rw [List.filter_cons_of_neg (by simpa using he)]
      exact delivery_once h.2

theorem gone_of_quiet (h : Quiet s t) {p : Ptr} (hg : Gone t p) : Gone s p := by
  obtain ⟨e, he, hd⟩ := hg
  obtain ⟨es, htrace, hes⟩ := h.trace
  rw [htrace] at he
  rcases List.mem_append.mp he with he | he
  · exact ⟨e, he, hd⟩
  · rw [hes e he p] at hd
    cases hd

theorem ended_of_quiet (h : Quiet s t) {p : Ptr} (he : Ended s p) : Ended t p := by
  rcases he with hl | ⟨hlt, hno⟩ | ⟨handleId, hf⟩
  · exact Or.inl (h.left hl)
  · exact Or.inr (Or.inl ⟨hlt.trans_le h.nextPtr, fun hmem => hno (h.alive p hlt hmem)⟩)
  · exact Or.inr (Or.inr ⟨handleId, h.stack p handleId hf⟩)

theorem last_of_quiet (h : Quiet s t) {p : Ptr}
    (hl : s.trace.Pairwise fun e e' => delivery p e = some true → delivery p e' = none) :
    t.trace.Pairwise fun e e' => delivery p e = some true → delivery p e' = none := by
  obtain ⟨es, htrace, hes⟩ := h.trace
  rw [htrace, List.pairwise_append]
  refine ⟨hl, ?_, fun _ _ e' he' _ => hes e' he' p⟩
  exact List.pairwise_of_forall_mem_list fun _ _ e' he' _ => hes e' he' p

/-- The invariant behind `DisconnectedLast`. -/
structure Closed (s : Server) : Prop where
  live : Live s
  ended : ∀ p, Gone s p → Ended s p
  last : ∀ p, s.trace.Pairwise fun e e' => delivery p e = some true → delivery p e' = none

theorem closed_start (setup : Setup) : Closed (waitForEvents setup) where
  live := Live.start setup
  ended := by
    rintro p ⟨e, he, -⟩
    cases he
  last _ := List.Pairwise.nil

theorem Closed.quiet (h : Closed s) (hlive : Live t) (hq : Quiet s t) : Closed t where
  live := hlive
  ended p hg := ended_of_quiet hq (h.ended p (gone_of_quiet hq hg))
  last p := last_of_quiet hq (h.last p)

/-- A registered connection is not gone while no callback runs. -/
theorem Closed.not_gone (h : Closed s) (hidle : s.stack = [] ∧ s.pc ≠ .left) {p : Ptr}
    (hp : p ∈ s.mConnections.mContainer) : ¬ Gone s p := fun hg => by
  rcases h.ended p hg with hl | ⟨-, hno⟩ | ⟨handleId, hf⟩
  · exact hidle.2 hl
  · exact hno (Live.registered_alive hp)
  · rw [hidle.1] at hf
    cases hf

/-- **A delivery** is the first after which nothing may follow, and only for one connection. -/
theorem Closed.delivered (h : Closed s) (hlive : Live t) (hd : Delivered s t) : Closed t := by
  obtain ⟨p, hp, registered, htrace⟩ := hd.trace
  have hnot := h.not_gone hd.idle hp
  obtain ⟨e, hte, hother, hgone⟩ : ∃ e, t.trace = s.trace ++ [.touched p registered, e] ∧
      (∀ q, q ≠ p → delivery q e = none) ∧
      (delivery p e = some true → ∃ handleId, .disconnected p handleId ∈ t.stack) := by
    rcases htrace with ⟨identifier, data, ht⟩ | ⟨identifier, handleId, ht, hf⟩
    · refine ⟨_, ht, fun q hq => if_neg hq.symm, fun he => ?_⟩
      simp [delivery] at he
    · exact ⟨_, ht, fun q hq => if_neg hq.symm, fun _ => ⟨handleId, hf⟩⟩
  constructor
  · exact hlive
  · rintro q ⟨e', he', hdel⟩
    rw [hte] at he'
    rcases List.mem_append.mp he' with he' | he'
    · rcases h.ended q ⟨e', he', hdel⟩ with hl | ⟨hlt, hno⟩ | ⟨handleId, hf⟩
      · exact absurd hl hd.idle.2
      · exact Or.inr (Or.inl ⟨hd.nextPtr ▸ hlt, hd.alive ▸ hno⟩)
      · rw [hd.idle.1] at hf
        cases hf
    · rcases List.mem_pair.mp he' with rfl | rfl
      · cases hdel
      · by_cases hqp : q = p
        · subst hqp
          exact Or.inr (Or.inr (hgone hdel))
        · rw [hother q hqp] at hdel
          cases hdel
  · intro q
    rw [hte, List.pairwise_append]
    refine ⟨h.last q, by simp [delivery], fun e₁ he₁ e₂ he₂ hd₁ => ?_⟩
    rcases List.mem_pair.mp he₂ with rfl | rfl
    · rfl
    · exact hother q fun hqp => hnot ⟨e₁, he₁, hqp ▸ hd₁⟩

/-- **The end of a callback.** When `disconnected` returns, its connection is registered no longer.
-/
theorem Closed.resumed (h : Closed s) {f : Frame} {stack : List Frame}
    (hstack : s.stack = f :: stack) {wsaRecv : Started}
    (hlive : Live ({ s with stack := stack }.resume wsaRecv f)) :
    Closed ({ s with stack := stack }.resume wsaRecv f) := by
  have hpop := h.live.pop hstack
  have hq := Quiet.resume hpop wsaRecv f
  refine ⟨hlive, fun p hg => ?_, fun p => last_of_quiet hq (h.last p)⟩
  have hg' : Gone s p := gone_of_quiet hq hg
  rcases h.ended p hg' with hl | hout | ⟨handleId, hf⟩
  · exact ended_of_quiet hq (Or.inl hl)
  · exact ended_of_quiet hq (Or.inr (Or.inl hout))
  · have hf' := hf
    rw [hstack] at hf'
    rcases List.mem_cons.mp hf' with rfl | hf'
    · obtain ⟨hlt, hinf, hev⟩ := h.live.frames p handleId hf
      refine Or.inr (Or.inl ⟨hlt.trans_le hq.nextPtr, ?_⟩)
      rcases removeServerConnection_cases hpop.sound handleId with ⟨hno, he⟩ | ⟨q, hqmem, hqev, he⟩
      · simp only [resume]
        rw [he]
        intro hmem
        rcases List.mem_append.mp hmem with hmem | hmem
        · exact hno p hmem hev
        · exact hinf hmem
      · simp only [resume]
        rw [he]
        intro hmem
        rcases List.mem_append.mp hmem with hmem | hmem
        · have hpmem : p ∈ s.mConnections.mContainer := List.mem_of_mem_erase hmem
          obtain rfl := h.live.sound.distinct.inj hpmem hqmem (hev.trans hqev.symm)
          exact h.live.sound.distinct.nodup.not_mem_erase hmem
        · exact hinf hmem
    · exact ended_of_quiet hq (Or.inr (Or.inr ⟨handleId, hf'⟩))

theorem Closed.unwound (h : Closed s) {f : Frame} {stack : List Frame}
    (hstack : s.stack = f :: stack) {what : String}
    (hlive : Live ({ s with stack := stack }.unwind what f)) :
    Closed ({ s with stack := stack }.unwind what f) := by
  have hq := Quiet.unwind { s with stack := stack } what f
  refine ⟨hlive, fun p hg => ?_, fun p => last_of_quiet hq (h.last p)⟩
  have hg' : Gone s p := gone_of_quiet hq hg
  rcases h.ended p hg' with hl | hout | ⟨handleId, hf⟩
  · exact ended_of_quiet hq (Or.inl hl)
  · exact ended_of_quiet hq (Or.inr (Or.inl hout))
  · rw [hstack] at hf
    rcases List.mem_cons.mp hf with rfl | hf
    · exact Or.inl rfl
    · exact ended_of_quiet hq (Or.inr (Or.inr ⟨handleId, hf⟩))

theorem closed_step {a : Action} (h : Closed s) (hs : step s a = some t) : Closed t := by
  have hlive := h.live.step hs
  rcases step_cases h.live hs with hq | hd | ⟨f, stack, hstack, ⟨wsaRecv, rfl⟩ | ⟨what, rfl⟩⟩
  · exact h.quiet hlive hq
  · exact h.delivered hlive hd
  · exact h.resumed hstack hlive
  · exact h.unwound hstack hlive

/-- **Nothing is delivered after `disconnected`**, in every state of every run and for every
connection. -/
theorem disconnected_final (setup : Setup) (as : List Action) :
    Always step (fun s => ∀ p, DisconnectedLast s p) (waitForEvents setup) as :=
  (always_of_inv (fun _ _ _ h hs => closed_step h hs) as (closed_start setup)).imp
    fun _ h p => ⟨h.last p, delivery_once (h.last p)⟩

end C11Http.Windows.Server
