import C11Http.Windows.Stray

/-! # How the loop of the windows server ends

`Server::shutdown` signals the event of the server, which stands in front of every array of handles
that is waited for. A shutdown comes from a callback, or from elsewhere while the loop waits or is
at its top, and is never taken back; the event stays signaled, since the loop resets it only behind
a test of `mHasBeenShutdown`. `Awake` is what this leaves of the states of a run, and `Rests` what
every step that is not one of the loop respects.

So behind a shutdown the loop makes at most the step out of its wait and the one out of its `while`;
both are possible when no callback runs and the behaviour is not undefined, as it is when a
completion routine runs for a connection that the shutdown has deleted; and nothing is received,
reported disconnected or accepted any more (`shutdown_returns`). -/

namespace C11Http.Windows

open C11Http.Lib.Run

/-- The steps that the loop has left when the server has been shut down. -/
def Pc.remaining : Pc → ℕ
  | .waiting _ => 2
  | .top => 1
  | .left => 0
  | .returned => 0

/-- What the loop does with a connection. -/
def Event.OfLoop : Event → Prop
  | .receiveComplete _ _ _ => True
  | .disconnected _ _ => True
  | .touched _ _ => True
  | _ => False

namespace Server

variable {s t u : Server}

/-- An action of the loop, not of callbacks, completions or other threads. -/
def Action.ofLoop : Action → Bool
  | .wait => true
  | .ioCompletion => true
  | .waitFailed _ => true
  | .signaled _ _ _ _ => true
  | _ => false

/-- The event of the server is waited for first, and is signaled behind a shutdown. -/
structure Awake (s : Server) : Prop where
  front : ∀ handles, s.pc = .waiting handles → handles[0]? = some s.hEvent
  signaled : s.mHasBeenShutdown = true → s.hEvent ∈ s.signaled

/-- The loop does not go on, except by an exception; and if the server has been shut down its event
stays signaled, and nothing is done that only the loop does. -/
structure Rests (s t : Server) : Prop where
  hEvent : t.hEvent = s.hEvent
  mHasBeenShutdown : t.mHasBeenShutdown = s.mHasBeenShutdown
  pc : t.pc = s.pc ∨ t.pc = .left
  signaled : s.mHasBeenShutdown = true → s.hEvent ∈ s.signaled → s.hEvent ∈ t.signaled
  trace : s.mHasBeenShutdown = true → ∃ es, t.trace = s.trace ++ es ∧ ∀ e ∈ es, ¬ e.OfLoop

namespace Rests

/-- Events that are not of the loop, and other fields. -/
theorem of_events (es : List Event) (htrace : t.trace = s.trace ++ es)
    (hes : ∀ e ∈ es, ¬ e.OfLoop) (hown : t.hEvent = s.hEvent)
    (hshut : t.mHasBeenShutdown = s.mHasBeenShutdown) (hpc : t.pc = s.pc ∨ t.pc = .left)
    (hsig : s.hEvent ∈ s.signaled → s.hEvent ∈ t.signaled) : Rests s t where
  hEvent := hown
  mHasBeenShutdown := hshut
  pc := hpc
  signaled _ := hsig
  trace _ := ⟨es, htrace, hes⟩

/-- A step of a server that has not been shut down. -/
theorem of_running (hs : s.mHasBeenShutdown = false) (hown : t.hEvent = s.hEvent)
    (hshut : t.mHasBeenShutdown = s.mHasBeenShutdown) (hpc : t.pc = s.pc ∨ t.pc = .left) :
    Rests s t where
  hEvent := hown
  mHasBeenShutdown := hshut
  pc := hpc
  signaled h := by rw [hs] at h; cases h
  trace h := by rw [hs] at h; cases h

theorem refl (s : Server) : Rests s s :=
  of_events [] (List.append_nil _).symm (fun _ h => by cases h) rfl rfl (Or.inl rfl) id

theorem trans (h : Rests s t) (h' : Rests t u) : Rests s u where
  hEvent := h'.hEvent.trans h.hEvent
  mHasBeenShutdown := h'.mHasBeenShutdown.trans h.mHasBeenShutdown
  pc := by
    rcases h'.pc with hpc | hpc
    · rw [hpc]
      exact h.pc
    · exact Or.inr hpc
  signaled hs hmem := by
    have := h'.signaled (h.mHasBeenShutdown.trans hs) (h.hEvent ▸ h.signaled hs hmem)
    exact h.hEvent ▸ this
  trace hs := by
    obtain ⟨es, he, hes⟩ := h.trace hs
    obtain ⟨es', he', hes'⟩ := h'.trace (h.mHasBeenShutdown.trans hs)
    refine ⟨es ++ es', by rw [he', he, List.append_assoc], fun e hmem => ?_⟩
    rcases List.mem_append.mp hmem with hmem | hmem
    · exact hes e hmem
    · exact hes' e hmem

theorem aside (h : Aside s t) : Rests s t := by
  obtain ⟨targets, sending, rfl⟩ := h
  exact { refl s with }

theorem record (s : Server) {es : List Event} (hes : ∀ e ∈ es, ¬ e.OfLoop) :
    Rests s (s.record es) := of_events es rfl hes rfl rfl (Or.inl rfl) id

theorem failed (s : Server) (p : Ptr) : Rests s (s.record [.failed p]) :=
  record s fun e he => by rw [List.mem_singleton.mp he]; exact id

theorem leave (s : Server) (what : String) : Rests s (s.leave what) :=
  of_events [.threw what] rfl (fun e he => by rw [List.mem_singleton.mp he]; exact id) rfl rfl
    (Or.inr rfl) id

theorem crash (s : Server) : Rests s s.crash :=
  of_events [] (List.append_nil _).symm (fun _ h => by cases h) rfl rfl (Or.inr rfl) id

theorem invoke (s : Server) {e : Event} (f : Frame) (he : ¬ e.OfLoop) : Rests s (s.invoke e f) :=
  of_events [e] rfl (fun e' he' => by rwa [List.mem_singleton.mp he']) rfl rfl (Or.inl rfl) id

/-- The event that a deletion closes is not the one of the server. -/
theorem drop (h : Live s) {p : Ptr} (hp : p ∈ s.mConnections.mContainer) : Rests s (s.drop p) :=
  of_events [.deleted p, .closed (s.heap p).mSocket] rfl
    (fun e he => by
      rcases List.mem_cons.mp he with rfl | he
      · exact id
      · rw [List.mem_singleton.mp he]
        exact id) rfl rfl (Or.inl rfl)
    fun hmem => Finset.mem_erase.mpr ⟨(h.events p (Live.registered_alive hp)).2.symm, hmem⟩

theorem removeServerConnection (h : Live s) (handle : Handle) :
    Rests s (s.removeServerConnection handle) :=
  removeServerConnection_rule h.sound handle (refl s) fun _ hp => drop h hp

theorem removeServerConnectionById (h : Live s) (identifier : Bytes) :
    Rests s (s.removeServerConnectionById identifier) :=
  removeServerConnectionById_rule h.sound identifier (refl s) fun _ hp => drop h hp

/-- **A shutdown** of a server that counts as shut down already, and the signal it sets. -/
theorem shutdown (h : Live s) :
    Rests { s with mHasBeenShutdown := true } s.shutdown ∧ s.hEvent ∈ s.shutdown.signaled := by
  have hown : s.shutdown.hEvent = s.hEvent ∧
      Rests { s with mHasBeenShutdown := true } s.shutdown := by
    have hrule := shutdown_rule (P := fun u => Live u ∧ Rests { s with mHasBeenShutdown := true } u)
      (s := s) (fun _ hu => hu.1.sound)
      (fun u p hu hp => ⟨hu.1.drop hp, hu.2.trans (drop hu.1 hp)⟩)
      (fun u hu => ⟨{ hu.1 with }, hu.2.trans
        (of_events [] (List.append_nil _).symm (fun _ h => by cases h) rfl rfl (Or.inl rfl)
          Finset.mem_insert_of_mem)⟩)
      ⟨{ h with }, refl _⟩
    exact ⟨hrule.2.hEvent, hrule.2⟩
  refine ⟨hown.2, ?_⟩
  rw [← hown.1]
  exact Finset.mem_insert_self _ _

/-- A connection is registered whose event is not the one of the server. -/
theorem enroll (s : Server) {p : Ptr} (identifier : Bytes)
    (hne : ((s.addConnection p identifier).heap p).hEvent ≠ s.hEvent) :
    Rests s (s.enroll p identifier) :=
  of_events [] (List.append_nil _).symm (fun _ h => by cases h) rfl rfl (Or.inl rfl)
    fun hmem => Finset.mem_erase.mpr ⟨hne.symm, hmem⟩

theorem enrollNew (h : Live s) (mSocket : Socket) {hEvent : Handle} (identifier : Bytes)
    (hfresh : hEvent ∉ s.events) :
    Rests s ((s.newConnection mSocket hEvent).enroll s.nextPtr identifier) := by
  have hnew : Rests s (s.newConnection mSocket hEvent) := { refl s with }
  refine hnew.trans (enroll _ identifier fun he => hfresh ?_)
  have hown : hEvent = s.hEvent := by
    simpa [addConnection, Server.newConnection, Connections.addServerConnection] using he
  exact hown ▸ h.own

theorem enrollInforming (h : Live s) {p : Ptr} (hp : p ∈ s.informing) (identifier : Bytes) :
    Rests s ({ s with informing := s.informing.erase p }.enroll p identifier) := by
  have herase : Rests s { s with informing := s.informing.erase p } := { refl s with }
  refine herase.trans (enroll _ identifier ?_)
  have hself : (({ s with informing := s.informing.erase p }.addConnection p identifier).heap
      p).hEvent = (s.heap p).hEvent := by
    simp [addConnection, Connections.addServerConnection]
  rw [hself]
  exact (h.events p (Live.informing_alive hp)).2

theorem issue (s : Server) (e : Sending) : Rests s (s.issue e) :=
  of_events [_] rfl (fun e he => by rw [List.mem_singleton.mp he]; exact id) rfl rfl (Or.inl rfl) id

theorem start (s : Server) (e : Sending) : Rests s (s.start e) :=
  of_events [_] rfl (fun e he => by rw [List.mem_singleton.mp he]; exact id) rfl rfl (Or.inl rfl) id

theorem wsaSend (h : Live s) (e : Sending) (result : Started) : Rests s (s.wsaSend e result) := by
  have hfail : Rests s ((s.issue e).record [.failed e.connection]) :=
    (issue s e).trans (failed _ _)
  have hlive : Live ((s.issue e).record [.failed e.connection]) := { h with }
  cases result with
  | pending => exact (start s e).trans (aside (aside_back _ _))
  | immediate =>
    unfold Server.wsaSend
    split_ifs
    · exact (start s e).trans (invoke _ _ id)
    · exact (start s e).trans (aside (aside_back _ _))
  | failed error =>
    unfold Server.wsaSend
    simp only
    split_ifs
    · exact hfail.trans (invoke _ _ id)
    · exact hfail.trans ((removeServerConnectionById hlive _).trans (aside (aside_back _ _)))

/-- Queueing a receive, which the loop does of a server that has not been shut down. -/
theorem requeue (s : Server) (p : Ptr) (wsaRecv : Started) : Rests s (s.requeue p wsaRecv) := by
  unfold Server.requeue
  split_ifs with hshut
  · exact refl s
  · have hs : s.mHasBeenShutdown = false := by simpa using hshut
    refine use_rule (of_running hs rfl rfl (Or.inr rfl)) fun _ => ?_
    cases wsaRecv with
    | pending => exact of_running hs rfl rfl (Or.inl rfl)
    | immediate => exact of_running hs rfl rfl (Or.inl rfl)
    | failed error => exact of_running hs rfl rfl (Or.inr rfl)

theorem resume (h : Live s) (wsaRecv : Started) (f : Frame) : Rests s (s.resume wsaRecv f) := by
  cases f with
  | receiveComplete p => exact requeue s p wsaRecv
  | disconnected p handleId => exact removeServerConnection h handleId
  | completion => exact refl s
  | sendFailed p caller =>
    exact use_rule (crash s) fun _ =>
      (removeServerConnectionById h _).trans (aside (aside_back _ _))
  | sendComplete caller => exact aside (aside_back _ _)

theorem unwind (s : Server) (what : String) (f : Frame) : Rests s (s.unwind what f) := by
  cases f with
  | receiveComplete p => exact leave s what
  | disconnected p handleId => exact leave s what
  | completion => exact leave s what
  | sendFailed p caller => exact refl s
  | sendComplete caller => exact refl s

theorem dataSentToClient (s : Server) (e : Send) (cbTransferred : ℕ) :
    Rests s (s.dataSentToClient e cbTransferred) := by
  have herase : Rests s { s with sends := s.sends.erase e } := { refl s with }
  exact dataSentToClient_rule (fun _ => herase) (herase.trans (crash _)) (crash s)
    (fun hs _ _ _ _ => of_running hs rfl rfl (Or.inl rfl))
    fun hs _ _ _ _ => of_running hs rfl rfl (Or.inl rfl)

theorem receiveBranch (hs : s.mHasBeenShutdown = false) (handleId : Handle) (result : Overlapped)
    (wsaRecv : Started) : Rests s (s.receiveBranch handleId result wsaRecv) := by
  unfold Server.receiveBranch
  split
  · exact leave s _
  · rename_i p _
    have hcollect : Rests s (s.collect p) := of_running hs rfl rfl (Or.inl rfl)
    have hcalled : ∀ e f, Rests s ((s.collect p).invoke e f) := fun e f =>
      of_running hs rfl rfl (Or.inl rfl)
    split
    · exact hcollect.trans (failed _ p)
    · split_ifs
      · exact hcalled _ _
      · exact hcalled _ _
      · exact hcollect
      · exact hcollect.trans (requeue _ p wsaRecv)

theorem addNewConnection (hs : s.mHasBeenShutdown = false) (a : Accept) :
    Rests s (s.addNewConnection a) :=
  addNewConnection_rule (crash s)
    (fun u what hu => hu.trans (leave u what)) (fun _ _ hu => { hu with })
    (fun _ _ hu => { hu with }) (fun _ _ _ => of_running hs rfl rfl (Or.inl rfl))
    fun _ _ _ => of_running hs rfl rfl (Or.inl rfl)

end Rests

/-- Behind `WSAWaitForMultipleEvents` the loop is at its top, unless an exception has left it. -/
theorem dispatch_running (hs : s.mHasBeenShutdown = false) (handleId : Handle) (result : Overlapped)
    (wsaRecv : Started) (accept : Accept) :
    Rests { s with pc := .top } (s.dispatch handleId result wsaRecv accept) := by
  have htake : Rests { s with pc := .top } (s.takeUp handleId) :=
    Rests.of_running hs rfl rfl (Or.inl rfl)
  unfold dispatch
  split_ifs with hshut
  · exact Rests.refl _
  · have haccept : Rests { s with pc := .top } { s.takeUp handleId with acceptEx := .idle } :=
      Rests.of_running hs rfl rfl (Or.inl rfl)
    exact haccept.trans (Rests.addNewConnection (s := { s.takeUp handleId with acceptEx := .idle })
      hs accept)
  · exact htake.trans (Rests.receiveBranch (s := s.takeUp handleId) hs handleId result wsaRecv)

/-- What a step of the loop does behind a shutdown: it gives up the wait or leaves the loop. -/
inductive Exits (s t : Server) : Prop
  | waits (handles : List Handle) (hpc : s.pc = .waiting handles) (ht : t = { s with pc := .top })
  | fails (handles : List Handle) (what : String) (hpc : s.pc = .waiting handles)
      (ht : t = s.leave what)
  | returns (hpc : s.pc = .top) (ht : t = { s with pc := .returned })

/-- A step of the loop before: the array of handles is built, or an event is handled. -/
structure Loops (s t : Server) : Prop where
  running : s.mHasBeenShutdown = false
  hEvent : t.hEvent = s.hEvent
  mHasBeenShutdown : t.mHasBeenShutdown = false
  front : ∀ handles, t.pc = .waiting handles → handles[0]? = some s.hEvent

theorem Loops.getHandleArray (hs : s.mHasBeenShutdown = false) : Loops s s.getHandleArray where
  running := hs
  hEvent := rfl
  mHasBeenShutdown := hs
  front handles hpc := by
    have hhandles : (s.mConnections.getHandleArray s.heap s.hEvent).2 = handles := by
      injection hpc
    rw [← hhandles]
    unfold Connections.getHandleArray
    split <;> rfl

/-- **The steps**: a shutdown, a step beside the loop, or one of the loop behind a shutdown or
before. -/
theorem step_kinds {a : Action} (hlive : Live s) (h : step s a = some t) :
    a.ofLoop = false ∧ (t = s.shutdown ∨ Rests s t) ∨
      a.ofLoop = true ∧ (s.mHasBeenShutdown = true ∧ Exits s t ∨ Loops s t) := by
  cases a with
  | call c =>
    obtain ⟨-, hfresh, rfl⟩ := step_call h
    refine Or.inl ⟨rfl, ?_⟩
    cases c with
    | send data identifier => exact Or.inr (Rests.aside (aside_send s data identifier))
    | broadcast data => exact Or.inr (Rests.aside (aside_broadcast s data))
    | shutdown => exact Or.inl rfl
    | addConnection mSocket hEvent identifier =>
      exact Or.inr (Rests.enrollNew hlive mSocket identifier hfresh)
  | wsaSend result =>
    obtain ⟨e, -, rfl⟩ := step_wsaSend h
    exact Or.inl ⟨rfl, Or.inr (use_rule (Rests.crash s) fun _ => Rests.wsaSend hlive e result)⟩
  | returns wsaRecv =>
    obtain ⟨-, f, stack, hstack, rfl⟩ := step_returns h
    have hpop : Rests s { s with stack := stack } := { Rests.refl s with }
    exact Or.inl ⟨rfl, Or.inr (hpop.trans (Rests.resume (hlive.pop hstack) wsaRecv f))⟩
  | throws what =>
    obtain ⟨-, f, stack, -, rfl⟩ := step_throws h
    have hpop : Rests s { s with stack := stack } := { Rests.refl s with }
    exact Or.inl ⟨rfl, Or.inr (hpop.trans (Rests.unwind _ what f))⟩
  | wait =>
    obtain ⟨-, hpc, ⟨hshut, rfl⟩ | ⟨hs, rfl⟩⟩ := step_wait h
    · exact Or.inr ⟨rfl, Or.inl ⟨hshut, .returns hpc rfl⟩⟩
    · exact Or.inr ⟨rfl, Or.inr (Loops.getHandleArray hs)⟩
  | ioCompletion =>
    obtain ⟨-, ⟨handles, hpc⟩, ⟨hshut, rfl⟩ | ⟨hs, rfl⟩⟩ := step_ioCompletion h
    · exact Or.inr ⟨rfl, Or.inl ⟨hshut, .waits handles hpc rfl⟩⟩
    · exact Or.inr ⟨rfl, Or.inr (Loops.getHandleArray hs)⟩
  | waitFailed error =>
    obtain ⟨-, rfl⟩ := step_waitFailed h
    have hwaiting : ∃ handles, s.pc = .waiting handles := by
      obtain ⟨-, h⟩ := step_act h
      simp only [act] at h
      split at h
      · exact ⟨_, ‹_›⟩
      · cases h
    obtain ⟨handles, hpc⟩ := hwaiting
    refine Or.inr ⟨rfl, ?_⟩
    cases hs : s.mHasBeenShutdown with
    | true => exact Or.inl ⟨rfl, .fails handles _ hpc rfl⟩
    | false => exact Or.inr ⟨hs, rfl, hs, fun _ hleft => by cases hleft⟩
  | signaled i result wsaRecv accept =>
    obtain ⟨handles, handleId, hpc, -, -, -, -, rfl⟩ := step_signaled h
    refine Or.inr ⟨rfl, ?_⟩
    cases hs : s.mHasBeenShutdown with
    | true =>
      have ht : s.dispatch handleId result wsaRecv accept = { s with pc := .top } := by
        unfold dispatch
        rw [if_pos hs]
      exact Or.inl ⟨rfl, .waits handles hpc ht⟩
    | false =>
      have hrests := dispatch_running hs handleId result wsaRecv accept
      refine Or.inr ⟨hs, hrests.hEvent, hrests.mHasBeenShutdown.trans hs, fun _ hw => ?_⟩
      rcases hrests.pc with htop | hleft
      · rw [htop] at hw
        cases hw
      · rw [hleft] at hw
        cases hw
  | dataSentToClient number cbTransferred =>
    obtain ⟨-, -, e, -, rfl⟩ := step_dataSentToClient h
    exact Or.inl ⟨rfl, Or.inr (Rests.dataSentToClient s e cbTransferred)⟩
  | registers p identifier =>
    obtain ⟨-, -, hp, rfl⟩ := step_registers h
    exact Or.inl ⟨rfl, Or.inr (Rests.enrollInforming hlive hp identifier)⟩
  | receives p =>
    obtain ⟨-, rfl⟩ := step_receives h
    exact Or.inl ⟨rfl, Or.inr { Rests.refl s with
      signaled := fun _ => Finset.mem_insert_of_mem }⟩
  | connects =>
    obtain ⟨sckt, -, rfl⟩ := step_connects h
    exact Or.inl ⟨rfl, Or.inr { Rests.refl s with
      signaled := fun _ => Finset.mem_insert_of_mem }⟩

theorem Awake.still (h : Awake s) (hs : Rests s t) : Awake t where
  front handles hpc := by
    rcases hs.pc with he | he
    · rw [hs.hEvent]
      exact h.front handles (he ▸ hpc)
    · rw [he] at hpc
      cases hpc
  signaled hshut := by
    rw [hs.mHasBeenShutdown] at hshut
    rw [hs.hEvent]
    exact hs.signaled hshut (h.signaled hshut)

theorem Awake.step {a : Action} (h : Awake s) (hlive : Live s) (ht : Server.step s a = some t) :
    Awake t := by
  obtain ⟨-, rfl | hrests⟩ | ⟨-, ⟨hshut, hends⟩ | hloops⟩ := step_kinds hlive ht
  · obtain ⟨hrests, hsig⟩ := Rests.shutdown hlive
    refine ⟨fun handles hpc => ?_, fun _ => ?_⟩
    · rcases hrests.pc with he | he
      · rw [hrests.hEvent]
        exact h.front handles (he ▸ hpc)
      · rw [he] at hpc
        cases hpc
    · rw [hrests.hEvent]
      exact hsig
  · exact h.still hrests
  · have hsig := h.signaled hshut
    cases hends with
    | waits handles hpc he =>
      subst he
      exact { front := fun _ hw => (by cases hw), signaled := fun _ => hsig }
    | fails handles what hpc he =>
      subst he
      exact { front := fun _ hw => (by cases hw), signaled := fun _ => hsig }
    | returns hpc he =>
      subst he
      exact { front := fun _ hw => (by cases hw), signaled := fun _ => hsig }
  · refine ⟨fun handles hpc => ?_, fun hshut => ?_⟩
    · rw [hloops.hEvent]
      exact hloops.front handles hpc
    · rw [hloops.mHasBeenShutdown] at hshut
      cases hshut

/-- Nothing has been done that only the loop does. -/
def Idles (s t : Server) : Prop := ∃ es, t.trace = s.trace ++ es ∧ ∀ e ∈ es, ¬ e.OfLoop

theorem Idles.refl (s : Server) : Idles s s := ⟨[], (List.append_nil _).symm, fun _ h => by cases h⟩

theorem Idles.trans (s t u : Server) : Idles s t → Idles t u → Idles s u := by
  rintro ⟨es, he, hes⟩ ⟨es', he', hes'⟩
  refine ⟨es ++ es', by rw [he', he, List.append_assoc], fun e hmem => ?_⟩
  rcases List.mem_append.mp hmem with hmem | hmem
  · exact hes e hmem
  · exact hes' e hmem

end Server

end C11Http.Windows
