import C11Http.Windows.Live

/-! # The connections that operations and callbacks refer to

Pointers of connections stand in the operations that have been started, in the callbacks that run
and in the broadcasts that have not ended, and stay there when the connection is deleted. `Known`
says that each of them is the address of an object that has been registered once: it was built
before, and it does not wait for its identifier. It holds in every state of every run
(`Known.step`). -/

namespace C11Http.Windows

/-- The connections that are left to a `broadcast`. -/
def Caller.rest : Caller → List Ptr
  | .send _ => []
  | .broadcast _ rest => rest

/-- The connections a callback refers to. -/
def Frame.connections : Frame → List Ptr
  | .receiveComplete connection => [connection]
  | .disconnected connection _ => [connection]
  | .completion => []
  | .sendFailed connection caller => connection :: caller.rest
  | .sendComplete caller => caller.rest

namespace Server

open Connections

variable {s t : Server}

/-- An object that has been built and does not wait for its identifier. -/
def Settled (s : Server) (p : Ptr) : Prop := p < s.nextPtr ∧ p ∉ s.informing

theorem Live.settled (h : Live s) {p : Ptr} (hp : p ∈ s.mConnections.mContainer) : Settled s p :=
  ⟨h.fresh p (registered_alive hp), fun hinf => h.not_registered hinf hp⟩

/-- A settled connection that is left is registered. -/
theorem Settled.registered {p : Ptr} (hset : Settled s p) (hp : p ∈ alive s) :
    p ∈ s.mConnections.mContainer :=
  (List.mem_append.mp hp).resolve_right hset.2

/-- A removal builds nothing and registers nothing. -/
theorem Live.settled_removeById (h : Live s) (identifier : Bytes) {p : Ptr} (hp : Settled s p) :
    Settled (s.removeServerConnectionById identifier) p :=
  removeServerConnectionById_rule (P := fun u => Settled u p) h.sound identifier hp fun _ _ => hp

structure Known (s : Server) : Prop where
  sending : ∀ e ∈ s.sending, Settled s e.connection ∧ ∀ p ∈ e.caller.rest, Settled s p
  frames : ∀ f ∈ s.stack, ∀ p ∈ f.connections, Settled s p
  sends : ∀ e ∈ s.sends, Settled s e.connection
  outstanding : ∀ p ∈ s.outstanding, Settled s p
  completed : ∀ p ∈ s.completed, Settled s p

namespace Known

theorem start (setup : Setup) : Known (waitForEvents setup) where
  sending _ h := by cases h
  frames _ h := by cases h
  sends _ h := by cases h
  outstanding _ h := by cases h
  completed _ h := by cases h

/-- Objects are built and leave the list of those that wait. -/
theorem settle (h : Known s) (hset : ∀ p, Settled s p → Settled t p)
    (hsending : t.sending = s.sending) (hstack : t.stack = s.stack) (hsends : t.sends = s.sends)
    (hout : t.outstanding = s.outstanding) (hcomp : t.completed = s.completed) : Known t where
  sending e he := by
    obtain ⟨hc, hrest⟩ := h.sending e (hsending ▸ he)
    exact ⟨hset _ hc, fun p hp => hset p (hrest p hp)⟩
  frames f hf p hp := hset p (h.frames f (hstack ▸ hf) p hp)
  sends e he := hset _ (h.sends e (hsends ▸ he))
  outstanding p hp := hset p (h.outstanding p (hout ▸ hp))
  completed p hp := hset p (h.completed p (hcomp ▸ hp))

theorem leave (h : Known s) (what : String) : Known (s.leave what) := { h with }

theorem crash (h : Known s) : Known s.crash := { h with sending := fun _ he => by cases he }

theorem pop (h : Known s) {f : Frame} {stack : List Frame} (hs : s.stack = f :: stack) :
    Known { s with stack := stack } :=
  { h with frames := fun g hg => h.frames g (hs ▸ List.mem_cons_of_mem f hg) }

theorem invoke (h : Known s) {e : Event} {f : Frame} (hf : ∀ p ∈ f.connections, Settled s p) :
    Known (s.invoke e f) :=
  { h with
    frames := fun g hg => by
      rcases List.mem_cons.mp hg with rfl | hg
      · exact hf
      · exact h.frames g hg }

theorem drop (h : Known s) (p : Ptr) : Known (s.drop p) :=
  { h with
    outstanding := fun q hq => h.outstanding q (List.mem_of_mem_filter hq)
    completed := fun q hq => h.completed q (List.mem_of_mem_filter hq) }

theorem removeServerConnection (h : Known s) (hlive : Live s) (handle : Handle) :
    Known (s.removeServerConnection handle) :=
  removeServerConnection_rule hlive.sound handle h fun p _ => h.drop p

theorem removeServerConnectionById (h : Known s) (hlive : Live s) (identifier : Bytes) :
    Known (s.removeServerConnectionById identifier) :=
  removeServerConnectionById_rule hlive.sound identifier h fun p _ => h.drop p

theorem shutdown (h : Known s) (hlive : Live s) : Known s.shutdown := by
  obtain ⟨-, hknown⟩ := shutdown_rule (s := s) (P := fun u => Live u ∧ Known u)
    (fun _ hu => hu.1.sound) (fun _ p hu hp => ⟨hu.1.drop hp, hu.2.drop p⟩)
    (fun _ hu => ⟨{ hu.1 with }, { hu.2 with }⟩) ⟨{ hlive with }, { h with }⟩
  exact hknown

/-! ### Sends -/

theorem beginSend (h : Known s) {p : Ptr} {caller : Caller} (hp : Settled s p)
    (hrest : ∀ q ∈ caller.rest, Settled s q) (data : Bytes) : Known (s.beginSend data p caller) :=
  { h with
    sending := fun e he => by
      obtain rfl := Option.some.inj he
      exact ⟨hp, hrest⟩ }

theorem sendEach (h : Known s) (data : Bytes) :
    ∀ {ps : List Ptr}, (∀ p ∈ ps, Settled s p) → Known (s.sendEach data ps)
  | [], _ => h
  | p :: ps, hps =>
    have hrest : ∀ q ∈ (Caller.broadcast data ps).rest, Settled s q := fun q hq =>
      hps q (List.mem_cons_of_mem p hq)
    h.beginSend (hps p List.mem_cons_self) hrest data

theorem back (h : Known s) {caller : Caller} (hrest : ∀ p ∈ caller.rest, Settled s p) :
    Known (s.back caller) := by
  cases caller with
  | send identifier => exact { h with }
  | broadcast data rest => exact h.sendEach data hrest

theorem send (h : Known s) (hlive : Live s) (data identifier : Bytes) :
    Known (s.call (.send data identifier)) := by
  simp only [Server.call, Server.send]
  split
  · exact h
  · rename_i p hfind
    have hmap := getServerConnectionById_eq_ok.mp hfind
    exact h.beginSend (hlive.settled (hlive.sound.mapped identifier p hmap).1)
      (fun q hq => by cases hq) data

/-! ### Steps -/

theorem newConnection (h : Known s) (mSocket : Socket) (hEvent : Handle) :
    Known (s.newConnection mSocket hEvent) :=
  h.settle (fun _ hp => ⟨Nat.lt_succ_of_lt hp.1, hp.2⟩) rfl rfl rfl rfl rfl

theorem enroll (h : Known s) {p : Ptr} (hp : Settled s p) (identifier : Bytes) :
    Known (s.enroll p identifier) :=
  { h with
    outstanding := fun q hq => by
      rcases List.mem_append.mp hq with hq | hq
      · exact h.outstanding q hq
      · rw [List.mem_singleton.mp hq]
        exact hp }

theorem enrollNew (h : Known s) (hlive : Live s) (mSocket : Socket) (hEvent : Handle)
    (identifier : Bytes) :
    Known ((s.newConnection mSocket hEvent).enroll s.nextPtr identifier) :=
  (h.newConnection mSocket hEvent).enroll ⟨Nat.lt_succ_self _, fun hinf =>
    absurd (hlive.fresh _ (Live.informing_alive hinf)) (lt_irrefl _)⟩ identifier

theorem enrollInforming (h : Known s) (hlive : Live s) {p : Ptr} (hp : p ∈ s.informing)
    (identifier : Bytes) :
    Known ({ s with informing := s.informing.erase p }.enroll p identifier) := by
  have hnd : (alive s).Nodup := List.Nodup.of_map _ hlive.distinct
  have herase : Known { s with informing := s.informing.erase p } :=
    h.settle (fun _ hq => ⟨hq.1, fun hmem => hq.2 (List.mem_of_mem_erase hmem)⟩)
      rfl rfl rfl rfl rfl
  exact herase.enroll ⟨hlive.fresh p (Live.informing_alive hp),
    hnd.of_append_right.not_mem_erase⟩ identifier

theorem inform (h : Known s) (sckt : Socket) (hEvent : Handle) :
    Known { s.accepted sckt hEvent with informing := s.informing ++ [s.nextPtr] } :=
  h.settle (fun p hp => ⟨Nat.lt_succ_of_lt hp.1, fun hmem => by
    rcases List.mem_append.mp hmem with hmem | hmem
    · exact hp.2 hmem
    · exact absurd (List.mem_singleton.mp hmem) (Nat.ne_of_lt hp.1)⟩) rfl rfl rfl rfl rfl

theorem call (h : Known s) (hlive : Live s) (c : Call) : Known (s.call c) := by
  cases c with
  | send data identifier => exact h.send hlive data identifier
  | broadcast data => exact h.sendEach data fun p hp => hlive.settled hp
  | shutdown => exact h.shutdown hlive
  | addConnection mSocket hEvent identifier => exact h.enrollNew hlive mSocket hEvent identifier

theorem issue (h : Known s) (e : Sending) : Known (s.issue e) :=
  { h with sending := fun _ he => by cases he }

theorem start_send (h : Known s) {e : Sending} (he : Settled s e.connection) : Known (s.start e) :=
  { h.issue e with
    sends := fun e' he' => by
      rcases List.mem_append.mp he' with he' | he'
      · exact h.sends e' he'
      · rw [List.mem_singleton.mp he']
        exact he }

theorem wsaSend (h : Known s) (hlive : Live s) {e : Sending} (he : s.sending = some e)
    (result : Started) : Known (s.wsaSend e result) := by
  obtain ⟨hc, hrest⟩ := h.sending e he
  have hstart : Known (s.start e) := h.start_send hc
  have hfail : Known ((s.issue e).record [.failed e.connection]) := { h.issue e with }
  cases result with
  | pending => exact hstart.back hrest
  | immediate =>
    unfold Server.wsaSend
    split_ifs
    · exact hstart.invoke hrest
    · exact hstart.back hrest
  | failed error =>
    unfold Server.wsaSend
    simp only
    split_ifs
    · refine hfail.invoke fun p hp => ?_
      rcases List.mem_cons.mp hp with rfl | hp
      · exact hc
      · exact hrest p hp
    · have hlive' : Live ((s.issue e).record [.failed e.connection]) := { hlive with }
      have hremoved := hfail.removeServerConnectionById hlive' (s.heap e.connection).mIdentifier
      exact hremoved.back fun p hp => hlive'.settled_removeById _ (hrest p hp)

theorem queueReceive (h : Known s) {p : Ptr} (hp : Settled s p) (wsaRecv : Started) :
    Known (s.queueReceiveFromConnection p wsaRecv) := by
  have hmem : ∀ ps : List Ptr, (∀ q ∈ ps, Settled s q) → ∀ q ∈ ps ++ [p], Settled s q := by
    intro ps hps q hq
    rcases List.mem_append.mp hq with hq | hq
    · exact hps q hq
    · rw [List.mem_singleton.mp hq]
      exact hp
  cases wsaRecv with
  | pending => exact { h with outstanding := hmem _ h.outstanding }
  | immediate => exact { h with completed := hmem _ h.completed }
  | failed error => exact { h with }

theorem requeue (h : Known s) {p : Ptr} (hp : Settled s p) (wsaRecv : Started) :
    Known (s.requeue p wsaRecv) := by
  unfold Server.requeue
  split_ifs
  · exact h
  · have htouch : Known (s.touch p) := { h with }
    exact use_rule htouch.crash fun _ => htouch.queueReceive hp wsaRecv

theorem resume (h : Known s) (hlive : Live s) {f : Frame} (hf : ∀ p ∈ f.connections, Settled s p)
    (wsaRecv : Started) : Known (s.resume wsaRecv f) := by
  cases f with
  | receiveComplete p => exact h.requeue (hf p List.mem_cons_self) wsaRecv
  | disconnected p handleId => exact h.removeServerConnection hlive handleId
  | completion => exact h
  | sendFailed p caller =>
    have hremoved := h.removeServerConnectionById hlive (s.heap p).mIdentifier
    exact use_rule h.crash fun _ => hremoved.back fun q hq =>
      hlive.settled_removeById _ (hf q (List.mem_cons_of_mem p hq))
  | sendComplete caller => exact h.back hf

theorem unwind (h : Known s) (what : String) (f : Frame) : Known (s.unwind what f) := by
  cases f with
  | receiveComplete p => exact h.leave what
  | disconnected p handleId => exact h.leave what
  | completion => exact h.leave what
  | sendFailed p caller => exact h
  | sendComplete caller => exact h

theorem collect (h : Known s) (p : Ptr) : Known (s.collect p) :=
  { h with
    outstanding := fun q hq => by
      have hq' : q ∈ if p ∈ s.completed then s.outstanding else s.outstanding.erase p := hq
      split_ifs at hq'
      · exact h.outstanding q hq'
      · exact h.outstanding q (List.mem_of_mem_erase hq')
    completed := fun q hq => h.completed q (List.mem_of_mem_erase hq) }

theorem receiveBranch (h : Known s) (hlive : Live s) (handleId : Handle) (result : Overlapped)
    (wsaRecv : Started) : Known (s.receiveBranch handleId result wsaRecv) := by
  unfold Server.receiveBranch
  split
  · exact h.leave _
  · rename_i p hfind
    have hp : Settled s p := hlive.settled (getServerConnection_ok hfind).1
    have hcollect := h.collect p
    have hframe : ∀ q ∈ [p], Settled (s.collect p) q := fun q hq =>
      List.mem_singleton.mp hq ▸ hp
    cases result with
    | failed => exact { hcollect with }
    | bytes data =>
      simp only
      split_ifs
      · exact hcollect.invoke hframe
      · exact hcollect.invoke hframe
      · exact hcollect
      · exact hcollect.requeue hp wsaRecv

theorem addNewConnection (h : Known s) (a : Accept) : Known (s.addNewConnection a) :=
  addNewConnection_rule h.crash (fun _ what hu => hu.leave what) (fun _ _ hu => { hu with })
    (fun _ _ hu => { hu with }) (fun sckt hEvent _ => { h.newConnection sckt hEvent with })
    fun sckt hEvent _ => h.inform sckt hEvent

theorem dispatch (h : Known s) (hlive : Live s) (handleId : Handle) (result : Overlapped)
    (wsaRecv : Started) (accept : Accept) :
    Known (s.dispatch handleId result wsaRecv accept) := by
  unfold Server.dispatch
  split_ifs
  · exact { h with }
  · have htake : Known { s.takeUp handleId with acceptEx := .idle } := { h with }
    exact htake.addNewConnection accept
  · have htake : Known (s.takeUp handleId) := { h with }
    exact htake.receiveBranch { hlive with } handleId result wsaRecv

theorem dataSentToClient (h : Known s) (e : Send) (cbTransferred : ℕ) :
    Known (s.dataSentToClient e cbTransferred) := by
  have herase : ∀ e' ∈ s.sends.erase e, Settled s e'.connection := fun e' he' =>
    h.sends e' (List.mem_of_mem_erase he')
  have hover : Known { s with sends := s.sends.erase e } := { h with sends := herase }
  have hpop : ∀ rest, Known (s.popTarget e rest) := fun rest => { h with sends := herase }
  exact dataSentToClient_rule (fun _ => hover) hover.crash h.crash
    (fun _ _ _ rest _ => hpop rest)
    fun _ _ _ rest _ => (hpop rest).invoke fun p hp => by cases hp

/-- **Every step** refers to objects that have been registered. -/
theorem step (h : Known s) (hlive : Live s) {a : Action} (hs : Server.step s a = some t) :
    Known t := by
  cases a with
  | call c =>
    obtain ⟨-, -, rfl⟩ := step_call hs
    exact h.call hlive c
  | wsaSend result =>
    obtain ⟨e, he, rfl⟩ := step_wsaSend hs
    exact use_rule h.crash fun _ => h.wsaSend hlive he result
  | returns wsaRecv =>
    obtain ⟨-, f, stack, hstack, rfl⟩ := step_returns hs
    exact (h.pop hstack).resume (hlive.pop hstack)
      (h.frames f (hstack ▸ List.mem_cons_self)) wsaRecv
  | throws what =>
    obtain ⟨-, f, stack, hstack, rfl⟩ := step_throws hs
    exact (h.pop hstack).unwind what f
  | wait =>
    obtain ⟨-, -, ⟨-, rfl⟩ | ⟨-, rfl⟩⟩ := step_wait hs
    · exact { h with }
    · exact { h with }
  | ioCompletion =>
    obtain ⟨-, -, ⟨-, rfl⟩ | ⟨-, rfl⟩⟩ := step_ioCompletion hs
    · exact { h with }
    · exact { h with }
  | waitFailed error =>
    obtain ⟨-, rfl⟩ := step_waitFailed hs
    exact h.leave _
  | signaled i result wsaRecv accept =>
    obtain ⟨handles, handleId, -, -, -, -, -, rfl⟩ := step_signaled hs
    exact h.dispatch hlive handleId result wsaRecv accept
  | dataSentToClient number cbTransferred =>
    obtain ⟨-, -, e, -, rfl⟩ := step_dataSentToClient hs
    exact h.dataSentToClient e cbTransferred
  | registers p identifier =>
    obtain ⟨-, -, hp, rfl⟩ := step_registers hs
    exact h.enrollInforming hlive hp identifier
  | receives p =>
    obtain ⟨hp, rfl⟩ := step_receives hs
    exact { h with
      outstanding := fun q hq => h.outstanding q (List.mem_of_mem_erase hq)
      completed := fun q hq => by
        rcases List.mem_append.mp hq with hq | hq
        · exact h.completed q hq
        · rw [List.mem_singleton.mp hq]
          exact h.outstanding p hp }
  | connects =>
    obtain ⟨sckt, -, rfl⟩ := step_connects hs
    exact { h with }

end Known

end Server

end C11Http.Windows
