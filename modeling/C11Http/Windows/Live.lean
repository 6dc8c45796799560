import C11Http.Windows.Steps

/-! # Registered connections of the windows server

An invariant of every run of the windows server. The connections that are registered or have been
accepted (`alive`) are objects built before, each with an event of its own that exists and is not
that of the server; the registry is sound; and of the callbacks that run only the first one has been
called by the loop itself, the others by a `send` (`Nested`). -/

namespace C11Http.Windows

/-- A callback that a `send` has called. -/
def Frame.OfSend : Frame → Prop
  | .sendFailed _ _ => True
  | .sendComplete _ => True
  | _ => False

/-- Callbacks inside one another: only the first can be one of the loop. -/
def Nested : List Frame → Prop
  | [] => True
  | f :: stack => (stack ≠ [] → f.OfSend) ∧ Nested stack

namespace Server

open Connections

variable {s t : Server}

/-- The connections that are registered or wait for their identifier. -/
def alive (s : Server) : List Ptr := s.mConnections.mContainer ++ s.informing

structure Live (s : Server) : Prop where
  sound : Sound s.heap s.mConnections
  distinct : ((alive s).map fun p => (s.heap p).hEvent).Nodup
  events : ∀ p ∈ alive s, (s.heap p).hEvent ∈ s.events ∧ (s.heap p).hEvent ≠ s.hEvent
  own : s.hEvent ∈ s.events
  fresh : ∀ p ∈ alive s, p < s.nextPtr
  nested : Nested s.stack
  heard : s.stack ≠ [] → s.mCallback = true
  frames : ∀ p handleId, .disconnected p handleId ∈ s.stack →
    p < s.nextPtr ∧ p ∉ s.informing ∧ (s.heap p).hEvent = handleId

namespace Live

theorem start (setup : Setup) : Live (waitForEvents setup) where
  sound := Sound.empty _
  distinct := List.nodup_nil
  events _ hp := by cases hp
  own := Finset.mem_insert_self _ _
  fresh _ hp := by cases hp
  nested := trivial
  heard h := absurd rfl h
  frames _ _ h := by cases h

theorem aside (h : Live s) (ht : Aside s t) : Live t := by
  obtain ⟨targets, sending, rfl⟩ := ht
  exact { h with }

theorem record (h : Live s) (es : List Event) : Live (s.record es) := { h with }

theorem leave (h : Live s) (what : String) : Live (s.leave what) := { h with }

theorem crash (h : Live s) : Live s.crash := { h with }

theorem registered_alive {p : Ptr} (hp : p ∈ s.mConnections.mContainer) : p ∈ alive s :=
  List.mem_append_left _ hp

theorem informing_alive {p : Ptr} (hp : p ∈ s.informing) : p ∈ alive s :=
  List.mem_append_right _ hp

/-- A connection that waits for its identifier is not registered. -/
theorem not_registered (h : Live s) {p : Ptr} (hp : p ∈ s.informing) :
    p ∉ s.mConnections.mContainer := by
  have hnd : (alive s).Nodup := List.Nodup.of_map _ h.distinct
  unfold alive at hnd
  rw [List.nodup_append] at hnd
  intro hmem
  exact hnd.2.2 p hmem p hp rfl

/-- A callback ends. -/
theorem pop (h : Live s) {f : Frame} {stack : List Frame} (hs : s.stack = f :: stack) :
    Live { s with stack := stack } := by
  have hnested := h.nested
  rw [hs] at hnested
  have hmem : ∀ g ∈ stack, g ∈ s.stack := fun g hg => hs ▸ List.mem_cons_of_mem f hg
  exact { h with
    nested := hnested.2
    heard := fun _ => h.heard (by rw [hs]; exact List.cons_ne_nil _ _)
    frames := fun p handleId hp => h.frames p handleId (hmem _ hp) }

/-- A callback is called. -/
theorem invoke (h : Live s) {e : Event} {f : Frame} (hcb : s.mCallback = true)
    (hf : s.stack ≠ [] → f.OfSend)
    (hframe : ∀ p handleId, f = .disconnected p handleId →
      p < s.nextPtr ∧ p ∉ s.informing ∧ (s.heap p).hEvent = handleId) : Live (s.invoke e f) :=
  { h with
    nested := ⟨hf, h.nested⟩
    heard := fun _ => hcb
    frames := fun p handleId hp => by
      rcases List.mem_cons.mp hp with hp | hp
      · exact hframe p handleId hp.symm
      · exact h.frames p handleId hp }

/-- What is left alive after a deletion has events that are left. -/
theorem drop (h : Live s) {p : Ptr} (hp : p ∈ s.mConnections.mContainer) : Live (s.drop p) := by
  have hsub : List.Sublist (s.mConnections.mContainer.erase p ++ s.informing) (alive s) :=
    List.erase_sublist.append_right _
  have hsound := h.sound.remove (s.heap p).hEvent
  rw [removeServerConnection_mem h.sound.distinct hp] at hsound
  have hne : ∀ q ∈ s.mConnections.mContainer.erase p ++ s.informing, q ≠ p := by
    intro q hq
    rcases List.mem_append.mp hq with hmem | hmem
    · exact ne_of_mem_of_not_mem hmem h.sound.distinct.nodup.not_mem_erase
    · exact fun he => h.not_registered hmem (he ▸ hp)
  exact { h with
    sound := hsound
    distinct := List.Nodup.sublist (hsub.map _) h.distinct
    events := fun q hq => by
      have hqa : q ∈ alive s := hsub.subset hq
      obtain ⟨hmem, hown⟩ := h.events q hqa
      refine ⟨Finset.mem_erase.mpr ⟨fun he => hne q hq ?_, hmem⟩, hown⟩
      exact List.inj_on_of_nodup_map h.distinct hqa (registered_alive hp) he
    own := Finset.mem_erase.mpr ⟨(h.events p (registered_alive hp)).2.symm, h.own⟩
    fresh := fun q hq => h.fresh q (hsub.subset hq) }

theorem removeServerConnection (h : Live s) (handle : Handle) :
    Live (s.removeServerConnection handle) :=
  removeServerConnection_rule h.sound handle h fun _ hp => h.drop hp

theorem removeServerConnectionById (h : Live s) (identifier : Bytes) :
    Live (s.removeServerConnectionById identifier) :=
  removeServerConnectionById_rule h.sound identifier h fun _ hp => h.drop hp

theorem shutdown (h : Live s) : Live s.shutdown :=
  shutdown_rule (P := Live) (fun _ hu => hu.sound) (fun _ _ hu hp => hu.drop hp)
    (fun _ hu => { hu with }) { h with }

/-- A new object changes nothing for the others. -/
theorem newConnection_heap (s : Server) (mSocket : Socket) (hEvent : Handle) {p : Ptr}
    (hp : p < s.nextPtr) : (s.newConnection mSocket hEvent).heap p = s.heap p :=
  Function.update_of_ne (Nat.ne_of_lt hp) _ _

theorem newConnection (h : Live s) (mSocket : Socket) (hEvent : Handle) :
    Live (s.newConnection mSocket hEvent) := by
  have hheap : ∀ p ∈ alive s, (s.newConnection mSocket hEvent).heap p = s.heap p := fun p hp =>
    newConnection_heap s mSocket hEvent (h.fresh p hp)
  have hmap : ∀ ps : List Ptr, (∀ p ∈ ps, p ∈ alive s) →
      (ps.map fun p => ((s.newConnection mSocket hEvent).heap p).hEvent) =
        ps.map fun p => (s.heap p).hEvent := fun ps hps =>
    List.map_congr_left fun p hp => by rw [hheap p (hps p hp)]
  exact { h with
    sound := by
      refine ⟨?_, fun identifier p hp => ?_⟩
      · show (List.map _ s.mConnections.mContainer).Nodup
        rw [hmap _ fun p hp => registered_alive hp]
        exact h.sound.distinct
      · obtain ⟨hmem, hid⟩ := h.sound.mapped identifier p hp
        exact ⟨hmem, by rw [hheap p (registered_alive hmem)]; exact hid⟩
    distinct := by
      show (List.map _ (alive s)).Nodup
      rw [hmap _ fun _ hp => hp]
      exact h.distinct
    events := fun p hp => by
      rw [hheap p hp]
      exact ⟨Finset.mem_insert_of_mem (h.events p hp).1, (h.events p hp).2⟩
    own := Finset.mem_insert_of_mem h.own
    fresh := fun p hp => Nat.lt_succ_of_lt (h.fresh p hp)
    frames := fun p handleId hp => by
      obtain ⟨hlt, hinf, hev⟩ := h.frames p handleId hp
      exact ⟨Nat.lt_succ_of_lt hlt, hinf,
        by rw [newConnection_heap s mSocket hEvent hlt]; exact hev⟩ }

theorem mem_alive_enroll {p q : Ptr} {identifier : Bytes} :
    q ∈ alive (s.enroll p identifier) ↔ q = p ∨ q ∈ alive s := by
  show q ∈ s.mConnections.mContainer ++ [p] ++ s.informing ↔
    q = p ∨ q ∈ s.mConnections.mContainer ++ s.informing
  simp only [List.mem_append, List.mem_singleton]
  tauto

/-- A connection with an event of its own is registered. -/
theorem enroll (h : Live s) {p : Ptr} (identifier : Bytes) (hp : p < s.nextPtr)
    (hnew : p ∉ alive s)
    (hevent : (s.heap p).hEvent ∈ s.events ∧ (s.heap p).hEvent ≠ s.hEvent)
    (hother : ∀ q ∈ alive s, (s.heap q).hEvent ≠ (s.heap p).hEvent) :
    Live (s.enroll p identifier) := by
  have hsame : ∀ q, ((s.enroll p identifier).heap q).hEvent = (s.heap q).hEvent := by
    intro q
    show (Function.update s.heap p ((s.heap p).setIdentifier identifier) q).hEvent = _
    rcases eq_or_ne q p with rfl | hne
    · rw [Function.update_self]
      rfl
    · rw [Function.update_of_ne hne]
  exact { h with
    sound := h.sound.add identifier (fun hmem => hnew (registered_alive hmem))
      fun q hq => hother q (registered_alive hq)
    distinct := by
      simp only [hsame]
      have hperm : (alive (s.enroll p identifier)).Perm (p :: alive s) := by
        show (s.mConnections.mContainer ++ [p] ++ s.informing).Perm
          (p :: (s.mConnections.mContainer ++ s.informing))
        rw [List.append_assoc, List.singleton_append]
        exact List.perm_middle
      rw [(hperm.map _).nodup_iff, List.map_cons, List.nodup_cons]
      refine ⟨fun hin => ?_, h.distinct⟩
      obtain ⟨q, hq, he⟩ := List.mem_map.mp hin
      exact hother q hq he
    events := fun q hq => by
      rw [hsame q]
      rcases mem_alive_enroll.mp hq with rfl | hq
      · exact hevent
      · exact h.events q hq
    fresh := fun q hq => by
      rcases mem_alive_enroll.mp hq with rfl | hq
      · exact hp
      · exact h.fresh q hq
    frames := fun q handleId hq => by
      obtain ⟨hlt, hinf, hev⟩ := h.frames q handleId hq
      exact ⟨hlt, hinf, (hsame q).trans hev⟩ }

/-- `addConnection` of a new object. -/
theorem enrollNew (h : Live s) (mSocket : Socket) {hEvent : Handle} (identifier : Bytes)
    (hfresh : hEvent ∉ s.events) :
    Live ((s.newConnection mSocket hEvent).enroll s.nextPtr identifier) := by
  have hself : ((s.newConnection mSocket hEvent).heap s.nextPtr).hEvent = hEvent := by
    show (Function.update s.heap s.nextPtr _ s.nextPtr : ServerConnection).hEvent = hEvent
    rw [Function.update_self]
  refine (h.newConnection mSocket hEvent).enroll identifier (Nat.lt_succ_self _) (fun hmem => ?_) ?_
    fun q hq => ?_
  · exact absurd (h.fresh _ hmem) (lt_irrefl _)
  · rw [hself]
    exact ⟨Finset.mem_insert_self _ _, fun he => hfresh (by rw [he]; exact h.own)⟩
  · rw [hself, newConnection_heap s mSocket hEvent (h.fresh q hq)]
    exact fun he => hfresh (he ▸ (h.events q hq).1)

/-- An accepted connection is registered. -/
theorem enrollInforming (h : Live s) {p : Ptr} (identifier : Bytes) (hp : p ∈ s.informing) :
    Live ({ s with informing := s.informing.erase p }.enroll p identifier) := by
  have hnd : (alive s).Nodup := List.Nodup.of_map _ h.distinct
  have hsub : List.Sublist (s.mConnections.mContainer ++ s.informing.erase p) (alive s) :=
    List.erase_sublist.append_left _
  have hlive : Live { s with informing := s.informing.erase p } :=
    { h with
      distinct := List.Nodup.sublist (hsub.map _) h.distinct
      events := fun q hq => h.events q (hsub.subset hq)
      fresh := fun q hq => h.fresh q (hsub.subset hq)
      frames := fun q handleId hq => by
        obtain ⟨hlt, hinf, hev⟩ := h.frames q handleId hq
        exact ⟨hlt, fun hmem => hinf (List.mem_of_mem_erase hmem), hev⟩ }
  have hnot : p ∉ s.mConnections.mContainer ++ s.informing.erase p := by
    rw [List.mem_append, not_or]
    exact ⟨h.not_registered hp, (hnd.of_append_right).not_mem_erase⟩
  refine hlive.enroll identifier (h.fresh p (informing_alive hp)) hnot
    (h.events p (informing_alive hp)) fun q hq he => ?_
  have hqp := List.inj_on_of_nodup_map h.distinct (hsub.subset hq) (informing_alive hp) he
  exact hnot (hqp ▸ hq)

/-- A new object is accepted. -/
theorem accepted (h : Live s) (sckt : Socket) (hEvent : Handle) : Live (s.accepted sckt hEvent) :=
  { h.newConnection sckt hEvent with }

theorem inform (h : Live s) (sckt : Socket) {hEvent : Handle} (hfresh : hEvent ∉ s.events) :
    Live { s.accepted sckt hEvent with informing := s.informing ++ [s.nextPtr] } := by
  have hlive := h.accepted sckt hEvent
  have hself : ((s.accepted sckt hEvent).heap s.nextPtr).hEvent = hEvent := by
    show (Function.update s.heap s.nextPtr _ s.nextPtr : ServerConnection).hEvent = hEvent
    rw [Function.update_self]
  have hheap : ∀ q ∈ alive s, (s.accepted sckt hEvent).heap q = s.heap q := fun q hq =>
    newConnection_heap s sckt hEvent (h.fresh q hq)
  have hperm : (s.mConnections.mContainer ++ (s.informing ++ [s.nextPtr])).Perm
      (s.nextPtr :: alive s) := by
    rw [← List.append_assoc]
    exact List.perm_append_singleton _ _
  have hmem : ∀ q ∈ s.mConnections.mContainer ++ (s.informing ++ [s.nextPtr]),
      q = s.nextPtr ∨ q ∈ alive s := fun q hq => List.mem_cons.mp (hperm.mem_iff.mp hq)
  exact { hlive with
    distinct := by
      show (List.map _ (s.mConnections.mContainer ++ (s.informing ++ [s.nextPtr]))).Nodup
      rw [(hperm.map _).nodup_iff, List.map_cons, List.nodup_cons]
      refine ⟨fun hin => ?_, hlive.distinct⟩
      obtain ⟨q, hq, he⟩ := List.mem_map.mp hin
      have he' : ((s.accepted sckt hEvent).heap q).hEvent =
        ((s.accepted sckt hEvent).heap s.nextPtr).hEvent := he
      rw [hself, hheap q hq] at he'
      exact hfresh (he' ▸ (h.events q hq).1)
    events := fun q hq => by
      rcases hmem q hq with rfl | hq
      · show ((s.accepted sckt hEvent).heap s.nextPtr).hEvent ∈ _ ∧ _
        rw [hself]
        exact ⟨Finset.mem_insert_self _ _, fun he => hfresh (by
          have he' : hEvent = s.hEvent := he
          rw [he']
          exact h.own)⟩
      · exact hlive.events q hq
    fresh := fun q hq => by
      rcases hmem q hq with rfl | hq
      · exact Nat.lt_succ_self _
      · exact hlive.fresh q hq
    frames := fun q handleId hq => by
      obtain ⟨hlt, hinf, hev⟩ := hlive.frames q handleId hq
      refine ⟨hlt, ?_, hev⟩
      show q ∉ s.informing ++ [s.nextPtr]
      rw [List.mem_append, List.mem_singleton, not_or]
      exact ⟨hinf, Nat.ne_of_lt (h.frames q handleId hq).1⟩ }

theorem getHandleArray (h : Live s) : Live s.getHandleArray := by
  have hperm : (alive s.getHandleArray).Perm (alive s) := by
    refine List.Perm.append_right _ ?_
    show (s.mConnections.getHandleArray s.heap s.hEvent).1.mContainer.Perm _
    unfold Connections.getHandleArray
    split
    · exact List.Perm.refl _
    · rename_i client rest hc
      rw [hc]
      exact List.perm_append_singleton client rest
  exact { h with
    sound := h.sound.getHandleArray s.hEvent
    distinct := ((hperm.map _).nodup_iff).mpr h.distinct
    events := fun p hp => h.events p (hperm.mem_iff.mp hp)
    fresh := fun p hp => h.fresh p (hperm.mem_iff.mp hp) }

/-! ### Steps -/

theorem call (h : Live s) {c : Call} (hfresh : Call.Fresh s c) : Live (s.call c) := by
  cases c with
  | send data identifier => exact h.aside (aside_send s data identifier)
  | broadcast data => exact h.aside (aside_broadcast s data)
  | shutdown => exact h.shutdown
  | addConnection mSocket hEvent identifier => exact h.enrollNew mSocket identifier hfresh

theorem wsaSend (h : Live s) (e : Sending) (result : Started) : Live (s.wsaSend e result) := by
  have hissue : Live (s.issue e) := { h with }
  have hstart : Live (s.start e) := { h with }
  cases result with
  | pending => exact hstart.aside (aside_back _ _)
  | immediate =>
    unfold Server.wsaSend
    split_ifs with hcb
    · exact hstart.invoke hcb (fun _ => trivial) fun _ _ he => by cases he
    · exact hstart.aside (aside_back _ _)
  | failed error =>
    unfold Server.wsaSend
    simp only
    split_ifs with hcb
    · exact (hissue.record _).invoke hcb (fun _ => trivial) fun _ _ he => by cases he
    · exact ((hissue.record _).removeServerConnectionById _).aside (aside_back _ _)

theorem queueReceive (h : Live s) (p : Ptr) (wsaRecv : Started) :
    Live (s.queueReceiveFromConnection p wsaRecv) := by
  cases wsaRecv with
  | pending => exact { h with }
  | immediate => exact { h with }
  | failed error => exact { h with }

theorem requeue (h : Live s) (p : Ptr) (wsaRecv : Started) : Live (s.requeue p wsaRecv) := by
  unfold Server.requeue
  split_ifs
  · exact h
  · have htouch : Live (s.touch p) := h.record _
    exact use_rule htouch.crash fun _ => htouch.queueReceive p wsaRecv

theorem resume (h : Live s) (wsaRecv : Started) (f : Frame) : Live (s.resume wsaRecv f) := by
  cases f with
  | receiveComplete p => exact h.requeue p wsaRecv
  | disconnected p handleId => exact h.removeServerConnection handleId
  | completion => exact h
  | sendFailed p caller =>
    exact use_rule h.crash fun _ => (h.removeServerConnectionById _).aside (aside_back _ _)
  | sendComplete caller => exact h.aside (aside_back _ _)

theorem unwind (h : Live s) (what : String) (f : Frame) : Live (s.unwind what f) := by
  cases f with
  | receiveComplete p => exact h.leave what
  | disconnected p handleId => exact h.leave what
  | completion => exact h.leave what
  | sendFailed p caller => exact h
  | sendComplete caller => exact h

theorem receiveBranch (h : Live s) (hstack : s.stack = []) (handleId : Handle) (result : Overlapped)
    (wsaRecv : Started) : Live (s.receiveBranch handleId result wsaRecv) := by
  unfold Server.receiveBranch
  split
  · exact h.leave _
  · rename_i p hfind
    obtain ⟨hp, hev⟩ := getServerConnection_ok hfind
    have hcollect : Live (s.collect p) := { h with }
    have hno : (s.collect p).stack ≠ [] → ∀ f : Frame, f.OfSend := fun hne => absurd hstack hne
    cases result with
    | failed => exact hcollect.record _
    | bytes data =>
      simp only
      split_ifs with hcb hlen hlen
      · refine hcollect.invoke hcb (fun hne => hno hne _) fun q handle he => ?_
        cases he
        exact ⟨h.fresh p (registered_alive hp), fun hinf => h.not_registered hinf hp, hev⟩
      · exact hcollect.invoke hcb (fun hne => hno hne _) fun _ _ he => by cases he
      · exact hcollect
      · exact hcollect.requeue p wsaRecv

theorem addNewConnection (h : Live s) {a : Accept} (hfresh : Accept.Fresh s a) :
    Live (s.addNewConnection a) := by
  refine addNewConnection_rule h.crash (fun _ what hu => hu.leave what)
    (fun _ _ hu => { hu with }) (fun _ _ hu => { hu with })
    (fun sckt hEvent _ => (h.accepted sckt hEvent).record _)
    fun sckt hEvent hev => h.inform sckt ?_
  unfold Accept.Fresh at hfresh
  rw [hev] at hfresh
  exact hfresh

theorem dispatch (h : Live s) (hstack : s.stack = []) {accept : Accept}
    (hfresh : Accept.Fresh s accept) (handleId : Handle) (result : Overlapped) (wsaRecv : Started) :
    Live (s.dispatch handleId result wsaRecv accept) := by
  unfold Server.dispatch
  split_ifs
  · exact { h with }
  · have htake : Live { s.takeUp handleId with acceptEx := .idle } := { h with }
    exact htake.addNewConnection hfresh
  · have htake : Live (s.takeUp handleId) := { h with }
    exact htake.receiveBranch hstack handleId result wsaRecv

theorem dataSentToClient (h : Live s) (hstack : s.stack = []) (e : Send) (cbTransferred : ℕ) :
    Live (s.dataSentToClient e cbTransferred) := by
  have hpop : ∀ rest, Live (s.popTarget e rest) := fun rest => { h with }
  have herase : Live { s with sends := s.sends.erase e } := { h with }
  exact dataSentToClient_rule (fun _ => herase) herase.crash h.crash
    (fun _ _ _ rest _ => hpop rest)
    fun _ hcb _ rest _ =>
      (hpop rest).invoke hcb (fun hne => absurd hstack hne) fun _ _ he => by cases he

/-- **The invariant is kept by every step.** -/
theorem step (h : Live s) {a : Action} (hs : Server.step s a = some t) : Live t := by
  cases a with
  | call c =>
    obtain ⟨-, hfresh, rfl⟩ := step_call hs
    exact h.call hfresh
  | wsaSend result =>
    obtain ⟨e, -, rfl⟩ := step_wsaSend hs
    exact use_rule h.crash fun _ => h.wsaSend e result
  | returns wsaRecv =>
    obtain ⟨-, f, stack, hstack, rfl⟩ := step_returns hs
    exact (h.pop hstack).resume wsaRecv f
  | throws what =>
    obtain ⟨-, f, stack, hstack, rfl⟩ := step_throws hs
    exact (h.pop hstack).unwind what f
  | wait =>
    obtain ⟨-, -, ⟨-, rfl⟩ | ⟨-, rfl⟩⟩ := step_wait hs
    · exact { h with }
    · exact h.getHandleArray
  | ioCompletion =>
    obtain ⟨-, -, ⟨-, rfl⟩ | ⟨-, rfl⟩⟩ := step_ioCompletion hs
    · exact { h with }
    · exact h.getHandleArray
  | waitFailed error =>
    obtain ⟨-, rfl⟩ := step_waitFailed hs
    exact h.leave _
  | signaled i result wsaRecv accept =>
    obtain ⟨handles, handleId, -, -, halone, -, hfresh, rfl⟩ := step_signaled hs
    exact h.dispatch halone.2 hfresh handleId result wsaRecv
  | dataSentToClient number cbTransferred =>
    obtain ⟨-, halone, e, -, rfl⟩ := step_dataSentToClient hs
    exact h.dataSentToClient halone.2 e cbTransferred
  | registers p identifier =>
    obtain ⟨-, -, hp, rfl⟩ := step_registers hs
    exact h.enrollInforming identifier hp
  | receives p =>
    obtain ⟨-, rfl⟩ := step_receives hs
    exact { h with }
  | connects =>
    obtain ⟨sckt, -, rfl⟩ := step_connects hs
    exact { h with }

end Live

end Server

end C11Http.Windows
