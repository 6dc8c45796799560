import C11Http.Windows.Known

/-! # Failures on the sockets of clients

What a failure on the socket of one client does to the loop of the windows server. `Serving` is what
is to hold: the loop has not ended by an exception; at its top an `AcceptEx` is outstanding on the
incoming socket, or has completed and is not handled, and each connection whose operation has failed
is deleted with its socket closed; and every connection is there, unless its operation has failed,
it has disconnected, or the server is shut down.

`serving_while_survives`: it holds in every state of a run whose steps all meet `Survives`. The
first receive of an accepted client and each receive that is queued again must be accepted, each
result of `WSAGetOverlappedResult` must be a success, the identifier of a connection whose send has
failed must find it, and no other connection may have taken its handle when `disconnected` returns.
A connection must still be registered when `receiveComplete` or `sendFailed` returns for it, when a
broadcast turns to it, and when a send to it completes. The code has no branch for the other
outcomes: it throws, or removes nothing or another connection, or uses a deleted one. -/

namespace C11Http.Windows

/-- There is a socket with an `AcceptEx` for the next client. -/
def Prepared.Outstanding : Prepared → Prop
  | .ok _ => True
  | _ => False

instance (r : Prepared) : Decidable r.Outstanding := by
  cases r <;> unfold Prepared.Outstanding <;> infer_instance

/-- The receive branch goes on from a result. -/
def Overlapped.Survives (mCallback : Bool) (wsaRecv : Started) : Overlapped → Prop
  | .failed => False
  | .bytes data => mCallback = true ∨ data.length = 0 ∨ wsaRecv.Accepted

/-- The accept branch goes on. -/
def Accept.Survives (a : Accept) : Prop :=
  match a.hEvent with
  | .ok _ => a.wsaRecv.Accepted
  | .error _ => False

instance (b : Bool) (w : Started) (r : Overlapped) : Decidable (r.Survives b w) := by
  cases r <;> unfold Overlapped.Survives <;> infer_instance

instance (a : Accept) : Decidable a.Survives := by
  delta Accept.Survives
  exact match a.hEvent with
    | .ok _ => inferInstance
    | .error _ => instDecidableFalse

/-- The connection whose failure is being reported. -/
def Frame.failure : Frame → Option Ptr
  | .sendFailed connection _ => some connection
  | _ => none

namespace Server

open C11Http.Lib.Run Connections

variable {s t : Server} {owed : List Ptr}

/-- The object is deleted and its socket closed. -/
def Discarded (s : Server) (p : Ptr) : Prop :=
  .deleted p ∈ s.trace ∧ .closed (s.heap p).mSocket ∈ s.trace

/-- The connection may be gone. -/
def Excused (s : Server) (p : Ptr) : Prop :=
  s.mHasBeenShutdown = true ∨ .failed p ∈ s.trace ∨
    ∃ identifier, .disconnected p identifier ∈ s.trace

/-- An `AcceptEx` is outstanding on the incoming socket, or has completed. -/
def Accepts (s : Server) : Prop := ∃ sckt, s.mIncomingSocket = some sckt ∧
  (s.acceptEx = .outstanding sckt ∨ s.acceptEx = .completed sckt)

/-- **The server goes on.** -/
structure Serving (s : Server) : Prop where
  running : s.pc ≠ .left
  accepting : s.pc = .top → s.Alone → Accepts s
  discarded : s.pc = .top → s.Alone → ∀ p, .failed p ∈ s.trace → p ∉ alive s ∧ Discarded s p
  kept : ∀ p, p < s.nextPtr → p ∈ alive s ∨ Excused s p

/-- What is taken for granted: callbacks do not throw, the wait does not fail, and there is a socket
with an `AcceptEx` for the next client. -/
def Assumed : Action → Prop
  | .throws _ => False
  | .waitFailed _ => False
  | .signaled _ _ _ accept => accept.prepared.Outstanding
  | _ => True

/-- The identifier of a connection finds the connection itself, which is registered then. -/
def FindsItself (s : Server) (connection : Ptr) : Prop :=
  s.mConnections.mMapping (s.heap connection).mIdentifier = some connection

/-- The step comes to none of the outcomes that the code has no branch for. -/
def Survives (s : Server) : Action → Prop
  | .signaled i result wsaRecv accept =>
    match s.pc with
    | .waiting handles =>
      match handles[i]? with
      | some handleId =>
        s.mHasBeenShutdown = true ∨
          if handleId = s.hEvent then accept.Survives else result.Survives s.mCallback wsaRecv
      | none => True
    | _ => True
  | .wsaSend result => ∀ e ∈ s.sending, e.connection ∈ s.mConnections.mContainer ∧
      (result.Accepted ∨ s.mCallback = true ∨ FindsItself s e.connection)
  | .dataSentToClient number _ => ∀ e ∈ s.sends.find? (fun e => e.number == number),
      e.connection ∈ s.mConnections.mContainer
  | .returns wsaRecv =>
    match s.stack with
    | .receiveComplete connection :: _ => s.mHasBeenShutdown = true ∨
        connection ∈ s.mConnections.mContainer ∧ wsaRecv.Accepted
    | .disconnected connection handleId :: _ =>
      ∀ p ∈ s.mConnections.mContainer, (s.heap p).hEvent = handleId → p = connection
    | .sendFailed connection _ :: _ => FindsItself s connection
    | _ => True
  | _ => True

instance (s : Server) (p : Ptr) : Decidable (FindsItself s p) := by
  unfold FindsItself; infer_instance

instance (s : Server) (a : Action) : Decidable (Survives s a) := by
  delta Survives
  exact match a with
    | .signaled i _ _ _ =>
      match s.pc with
      | .waiting handles => by
        dsimp only
        exact match handles[i]? with
          | some _ => inferInstance
          | none => instDecidableTrue
      | .top | .left | .returned => instDecidableTrue
    | .wsaSend _ | .dataSentToClient _ _ => inferInstance
    | .returns _ =>
      match s.stack with
      | .receiveComplete _ :: _ | .disconnected _ _ :: _ | .sendFailed _ _ :: _ => inferInstance
      | [] | .completion :: _ | .sendComplete _ :: _ => instDecidableTrue
    | .call _ | .throws _ | .wait | .ioCompletion | .waitFailed _ | .registers _ _ | .receives _
    | .connects => instDecidableTrue

instance (a : Action) : Decidable (Assumed a) := by
  delta Assumed
  exact match a with
    | .throws _ | .waitFailed _ => instDecidableFalse
    | .signaled _ _ _ _ => inferInstance
    | .call _ | .wsaSend _ | .returns _ | .wait | .ioCompletion | .dataSentToClient _ _
    | .registers _ _ | .receives _ | .connects => instDecidableTrue

/-! ### The invariant -/

/-- The connections whose failure is being reported. -/
def failing (s : Server) : List Ptr := s.stack.filterMap Frame.failure

/-- `Serving` with what its proof needs; `owed` are connections that have failed and are about to be
removed. -/
structure Steady (owed : List Ptr) (s : Server) : Prop where
  running : s.pc ≠ .left
  handles : ∀ handles, s.pc = .waiting handles → ∀ h ∈ handles, h ∈ s.events → h = s.hEvent ∨
    ∃ p ∈ s.mConnections.mContainer, (s.heap p).hEvent = h
  targets : s.sends.length + s.sending.toList.length ≤ s.targets.length
  accepting : Accepts s
  objects : ∀ p, p < s.nextPtr → p ∈ alive s ∨ Discarded s p
  failures : ∀ p, .failed p ∈ s.trace → Settled s p ∧
    (p ∈ s.mConnections.mContainer → p ∈ failing s ++ owed)
  caused : ∀ p ∈ failing s ++ owed, .failed p ∈ s.trace
  told : ∀ p handleId, .disconnected p handleId ∈ s.stack →
    ∃ identifier, .disconnected p identifier ∈ s.trace
  kept : ∀ p, p < s.nextPtr → p ∈ alive s ∨ Excused s p

namespace Steady

theorem start (setup : Setup) : Steady [] (waitForEvents setup) where
  running h := by cases h
  handles _ h := by cases h
  targets := le_rfl
  accepting := ⟨setup.incoming, rfl, Or.inl rfl⟩
  objects p hp := absurd hp (Nat.not_lt_zero p)
  failures _ h := by cases h
  caused _ h := by cases h
  told _ _ h := by cases h
  kept p hp := absurd hp (Nat.not_lt_zero p)

/-- **Between callbacks the server serves.** -/
theorem serving (h : Steady [] s) : Serving s where
  running := h.running
  accepting _ _ := h.accepting
  discarded _ halone p hp := by
    obtain ⟨hset, hfailing⟩ := h.failures p hp
    have hnot : p ∉ alive s := by
      intro hmem
      rcases List.mem_append.mp hmem with hmem | hmem
      · have hfail := hfailing hmem
        unfold failing at hfail
        rw [halone.2] at hfail
        cases hfail
      · exact hset.2 hmem
    exact ⟨hnot, (h.objects p hset.1).resolve_left hnot⟩
  kept := h.kept

/-- Events are recorded that are no failures. -/
theorem record (h : Steady owed s) {es : List Event} (hes : ∀ p, .failed p ∉ es) :
    Steady owed (s.record es) :=
  { h with
    objects := fun p hp => (h.objects p hp).imp_right fun hd =>
      ⟨List.mem_append_left _ hd.1, List.mem_append_left _ hd.2⟩
    failures := fun p hp => by
      rcases List.mem_append.mp hp with hp | hp
      · exact h.failures p hp
      · exact absurd hp (hes p)
    caused := fun p hp => List.mem_append_left _ (h.caused p hp)
    told := fun p handleId hp => by
      obtain ⟨identifier, hid⟩ := h.told p handleId hp
      exact ⟨identifier, List.mem_append_left _ hid⟩
    kept := fun p hp => (h.kept p hp).imp_right fun he => by
      rcases he with he | he | ⟨identifier, he⟩
      · exact Or.inl he
      · exact Or.inr (Or.inl (List.mem_append_left _ he))
      · exact Or.inr (Or.inr ⟨identifier, List.mem_append_left _ he⟩) }

/-- An operation of a connection fails. -/
theorem fail (h : Steady owed s) {p : Ptr} (hp : Settled s p) :
    Steady (p :: owed) (s.record [.failed p]) := by
  have hmem : ∀ {e : Event}, e ∈ s.trace → e ∈ s.trace ++ [.failed p] := List.mem_append_left _
  exact { h with
    objects := fun q hq => (h.objects q hq).imp_right fun hd => ⟨hmem hd.1, hmem hd.2⟩
    failures := fun q hq => by
      rcases List.mem_append.mp hq with hq | hq
      · obtain ⟨hset, hfailing⟩ := h.failures q hq
        refine ⟨hset, fun hc => ?_⟩
        rcases List.mem_append.mp (hfailing hc) with hf | hf
        · exact List.mem_append_left _ hf
        · exact List.mem_append_right _ (List.mem_cons_of_mem p hf)
      · obtain rfl := Event.failed.inj (List.mem_singleton.mp hq)
        exact ⟨hp, fun _ => List.mem_append_right _ List.mem_cons_self⟩
    caused := fun q hq => by
      rcases List.mem_append.mp hq with hq | hq
      · exact hmem (h.caused q (List.mem_append_left _ hq))
      · rcases List.mem_cons.mp hq with rfl | hq
        · exact List.mem_append_right _ List.mem_cons_self
        · exact hmem (h.caused q (List.mem_append_right _ hq))
    told := fun q handleId hq => by
      obtain ⟨identifier, hid⟩ := h.told q handleId hq
      exact ⟨identifier, hmem hid⟩
    kept := fun q hq => (h.kept q hq).imp_right fun he => by
      rcases he with he | he | ⟨identifier, he⟩
      · exact Or.inl he
      · exact Or.inr (Or.inl (hmem he))
      · exact Or.inr (Or.inr ⟨identifier, hmem he⟩) }

/-- A callback is called; `sendFailed` takes over the connection that is to be removed. -/
theorem invoke {f : Frame} (h : Steady (f.failure.toList ++ owed) s) {e : Event}
    (he : ∀ p, e ≠ .failed p) (htold : ∀ p handleId, f = .disconnected p handleId →
      ∃ identifier, e = .disconnected p identifier) : Steady owed (s.invoke e f) := by
  have hrecord : Steady (f.failure.toList ++ owed) (s.record [e]) :=
    h.record fun p hp => he p (List.mem_singleton.mp hp).symm
  have hmem : ∀ p, p ∈ failing (s.invoke e f) ++ owed ↔
      p ∈ failing s ++ (f.failure.toList ++ owed) := by
    intro p
    have hcons : failing (s.invoke e f) = f.failure.toList ++ failing s := by
      unfold failing Server.invoke
      cases hf : f.failure with
      | none => simp [hf]
      | some q => simp [hf]
    rw [hcons]
    simp only [List.mem_append]
    tauto
  exact { hrecord with
    failures := fun p hp => (hrecord.failures p hp).imp_right fun hc hmc => (hmem p).mpr (hc hmc)
    caused := fun p hp => hrecord.caused p ((hmem p).mp hp)
    told := fun p handleId hp => by
      rcases List.mem_cons.mp hp with hp | hp
      · obtain ⟨identifier, rfl⟩ := htold p handleId hp.symm
        exact ⟨identifier, List.mem_append_right _ List.mem_cons_self⟩
      · exact hrecord.told p handleId hp }

theorem pop (h : Steady owed s) {f : Frame} {stack : List Frame} (hs : s.stack = f :: stack) :
    Steady (f.failure.toList ++ owed) { s with stack := stack } := by
  have hmem : ∀ p, p ∈ failing s ++ owed ↔
      p ∈ failing { s with stack := stack } ++ (f.failure.toList ++ owed) := by
    intro p
    have hcons : failing s = f.failure.toList ++ failing { s with stack := stack } := by
      unfold failing
      rw [hs]
      cases hf : f.failure with
      | none => simp [hf]
      | some q => simp [hf]
    rw [hcons]
    simp only [List.mem_append]
    tauto
  exact { h with
    failures := fun p hp => (h.failures p hp).imp_right fun hc hmc => (hmem p).mp (hc hmc)
    caused := fun p hp => h.caused p ((hmem p).mpr hp)
    told := fun p handleId hp => h.told p handleId (hs ▸ List.mem_cons_of_mem f hp) }

/-! ### Removals -/

/-- A connection that may be gone is deleted. -/
theorem drop (h : Steady owed s) {p : Ptr} (hp : p ∈ s.mConnections.mContainer)
    (hexcused : Excused s p) : Steady owed (s.drop p) := by
  have hrecord : Steady owed (s.record [.deleted p, .closed (s.heap p).mSocket]) :=
    h.record fun q hq => by simp at hq
  have hgone : ∀ q, q ∈ alive s → q ∈ alive (s.drop p) ∨ q = p := by
    intro q hq
    rcases List.mem_append.mp hq with hq | hq
    · rcases eq_or_ne q p with rfl | hne
      · exact Or.inr rfl
      · exact Or.inl (Live.registered_alive ((List.mem_erase_of_ne hne).mpr hq))
    · exact Or.inl (Live.informing_alive hq)
  have hexcused' : Excused (s.record [.deleted p, .closed (s.heap p).mSocket]) p := by
    rcases hexcused with he | he | ⟨identifier, he⟩
    · exact Or.inl he
    · exact Or.inr (Or.inl (List.mem_append_left _ he))
    · exact Or.inr (Or.inr ⟨identifier, List.mem_append_left _ he⟩)
  exact { hrecord with
    handles := fun handles hpc handle hmem hev => by
      obtain ⟨hne, hev⟩ := Finset.mem_erase.mp hev
      refine (h.handles handles hpc handle hmem hev).imp_right ?_
      rintro ⟨q, hq, rfl⟩
      have hqp : q ≠ p := ne_of_apply_ne (fun r => (s.heap r).hEvent) hne
      exact ⟨q, (List.mem_erase_of_ne hqp).mpr hq, rfl⟩
    objects := fun q hq => by
      rcases hrecord.objects q hq with hmem | hd
      · refine (hgone q hmem).imp_right ?_
        rintro rfl
        exact ⟨by simp [Server.drop, forget], by simp [Server.drop, forget]⟩
      · exact Or.inr hd
    failures := fun q hq => (hrecord.failures q hq).imp_right fun hc hmem =>
      hc (List.mem_of_mem_erase hmem)
    kept := fun q hq => by
      rcases hrecord.kept q hq with hmem | he
      · refine (hgone q hmem).imp_right ?_
        rintro rfl
        exact hexcused'
      · exact Or.inr he }

/-- What was to be removed is gone. -/
theorem settle {p : Ptr} (h : Steady (p :: owed) s) (hp : p ∉ s.mConnections.mContainer) :
    Steady owed s :=
  { h with
    failures := fun q hq => (h.failures q hq).imp_right fun hc hmem => by
      have hne : q ≠ p := ne_of_mem_of_not_mem hmem hp
      simpa [hne] using hc hmem
    caused := fun q hq => by
      rcases List.mem_append.mp hq with hq | hq
      · exact h.caused q (List.mem_append_left _ hq)
      · exact h.caused q (List.mem_append_right _ (List.mem_cons_of_mem p hq)) }

/-- A connection that its identifier finds is registered. -/
theorem registered_of_finds (hlive : Live s) {p : Ptr} (hfinds : FindsItself s p) :
    p ∈ s.mConnections.mContainer := (hlive.sound.mapped _ p hfinds).1

/-- **A failed send removes its connection**, when the identifier finds it. -/
theorem removeFailed {p : Ptr} (h : Steady (p :: owed) s) (hlive : Live s)
    (hfinds : FindsItself s p) :
    Steady owed (s.removeServerConnectionById (s.heap p).mIdentifier) := by
  have hmem := registered_of_finds hlive hfinds
  have hfailed : .failed p ∈ s.trace := h.caused p (List.mem_append_right _ List.mem_cons_self)
  unfold FindsItself at hfinds
  rcases removeServerConnectionById_cases hlive.sound (s.heap p).mIdentifier with
    ⟨hnone, -⟩ | ⟨q, hq, he⟩
  · rw [hnone] at hfinds
    cases hfinds
  · rw [hq, Option.some.injEq] at hfinds
    subst hfinds
    rw [he]
    exact (h.drop hmem (Or.inr (Or.inl hfailed))).settle
      hlive.sound.distinct.nodup.not_mem_erase

theorem shutdown (h : Steady [] s) (hlive : Live s) : Steady [] s.shutdown := by
  have hshut : Steady [] { s with mHasBeenShutdown := true } :=
    { h with kept := fun p hp => (h.kept p hp).imp_right fun _ => Or.inl rfl }
  obtain ⟨-, -, hsteady⟩ := shutdown_rule (s := s)
    (P := fun u => Live u ∧ u.mHasBeenShutdown = true ∧ Steady [] u) (fun _ hu => hu.1.sound)
    (fun _ _ hu hp => ⟨hu.1.drop hp, hu.2.1, hu.2.2.drop hp (Or.inl hu.2.1)⟩)
    (fun _ hu => ⟨{ hu.1 with }, hu.2.1, { hu.2.2 with }⟩) ⟨{ hlive with }, rfl, hshut⟩
  exact hsteady

/-! ### Sends -/

theorem beginSend (h : Steady owed s) (data : Bytes) (p : Ptr) (caller : Caller) :
    Steady owed (s.beginSend data p caller) :=
  { h with
    targets := by
      have := h.targets
      show s.sends.length + 1 ≤ (s.targets ++ [_]).length
      rw [List.length_append, List.length_singleton]
      omega }

theorem sendEach (h : Steady owed s) (data : Bytes) :
    ∀ ps : List Ptr, Steady owed (s.sendEach data ps)
  | [] => h
  | p :: ps => h.beginSend data p (.broadcast data ps)

theorem back (h : Steady owed s) (caller : Caller) : Steady owed (s.back caller) := by
  cases caller with
  | send identifier =>
    exact { h with
      targets := by
        have := h.targets
        show s.sends.length + s.sending.toList.length ≤ (s.targets ++ [identifier]).length
        rw [List.length_append, List.length_singleton]
        omega }
  | broadcast data rest => exact h.sendEach data rest

theorem issue (h : Steady owed s) (e : Sending) : Steady owed (s.issue e) := by
  have hrecord : Steady owed (s.record
      [.sending s.nextSend e.connection (s.heap e.connection).mIdentifier]) :=
    h.record fun p hp => by simp at hp
  exact { hrecord with
    targets := by
      have := h.targets
      show s.sends.length + 0 ≤ s.targets.length
      omega }

theorem start_send (h : Steady owed s) {e : Sending} (he : s.sending = some e) :
    Steady owed (s.start e) :=
  { h.issue e with
    targets := by
      have hle := h.targets
      rw [he, Option.toList_some, List.length_singleton] at hle
      show (s.sends ++ [_]).length + 0 ≤ s.targets.length
      rw [List.length_append, List.length_singleton]
      omega }

/-! ### Steps -/

/-- A new object is built and registered. -/
theorem enrollNew (h : Steady [] s) (hlive : Live s) (mSocket : Socket) (hEvent : Handle)
    (identifier : Bytes) :
    Steady [] ((s.newConnection mSocket hEvent).enroll s.nextPtr identifier) := by
  have hheap : ∀ p, p < s.nextPtr →
      ((s.newConnection mSocket hEvent).enroll s.nextPtr identifier).heap p = s.heap p := by
    intro p hp
    show Function.update _ s.nextPtr _ p = _
    rw [Function.update_of_ne (Nat.ne_of_lt hp)]
    exact Live.newConnection_heap s mSocket hEvent hp
  have hself : (((s.newConnection mSocket hEvent).enroll s.nextPtr identifier).heap
      s.nextPtr).hEvent = hEvent := by
    simp [Server.enroll, addConnection, Server.newConnection, addServerConnection,
      queueReceiveFromConnection]
  exact { h with
    handles := fun handles hpc handle hmem hev => by
      rcases Finset.mem_insert.mp hev with rfl | hev
      · exact Or.inr ⟨s.nextPtr, List.mem_append_right _ List.mem_cons_self, hself⟩
      · refine (h.handles handles hpc handle hmem hev).imp_right ?_
        rintro ⟨p, hp, rfl⟩
        exact ⟨p, List.mem_append_left _ hp, by
          rw [hheap p (hlive.fresh p (Live.registered_alive hp))]⟩
    objects := fun p hp => by
      rcases Nat.lt_succ_iff_lt_or_eq.mp hp with hp | rfl
      · rcases h.objects p hp with hmem | hd
        · exact Or.inl (Live.mem_alive_enroll.mpr (Or.inr hmem))
        · exact Or.inr ⟨hd.1, by rw [hheap p hp]; exact hd.2⟩
      · exact Or.inl (Live.mem_alive_enroll.mpr (Or.inl rfl))
    failures := fun p hp => by
      obtain ⟨hset, hfailing⟩ := h.failures p hp
      refine ⟨⟨Nat.lt_succ_of_lt hset.1, hset.2⟩, fun hmem => ?_⟩
      rcases List.mem_append.mp hmem with hmem | hmem
      · exact hfailing hmem
      · exact absurd (List.mem_singleton.mp hmem) (Nat.ne_of_lt hset.1)
    kept := fun p hp => by
      rcases Nat.lt_succ_iff_lt_or_eq.mp hp with hp | rfl
      · exact (h.kept p hp).imp_left fun hmem => Live.mem_alive_enroll.mpr (Or.inr hmem)
      · exact Or.inl (Live.mem_alive_enroll.mpr (Or.inl rfl)) }

/-- An accepted connection is registered. -/
theorem enrollInforming (h : Steady [] s) {p : Ptr} (hp : p ∈ s.informing) (identifier : Bytes) :
    Steady [] ({ s with informing := s.informing.erase p }.enroll p identifier) := by
  have hheap : ∀ q, ∀ identifier', (Function.update s.heap p
      ((s.heap p).setIdentifier identifier') q).mSocket = (s.heap q).mSocket ∧
      (Function.update s.heap p ((s.heap p).setIdentifier identifier') q).hEvent =
        (s.heap q).hEvent := by
    intro q identifier'
    rcases eq_or_ne q p with rfl | hne
    · rw [Function.update_self]
      exact ⟨rfl, rfl⟩
    · rw [Function.update_of_ne hne]
      exact ⟨rfl, rfl⟩
  have halive : ∀ q, q ∈ alive s →
      q ∈ alive ({ s with informing := s.informing.erase p }.enroll p identifier) := by
    intro q hq
    rcases eq_or_ne q p with rfl | hne
    · exact Live.mem_alive_enroll.mpr (Or.inl rfl)
    · refine Live.mem_alive_enroll.mpr (Or.inr ?_)
      rcases List.mem_append.mp hq with hq | hq
      · exact List.mem_append_left _ hq
      · exact List.mem_append_right _ ((List.mem_erase_of_ne hne).mpr hq)
  exact { h with
    handles := fun handles hpc handle hmem hev =>
      (h.handles handles hpc handle hmem hev).imp_right fun ⟨q, hq, hqev⟩ =>
        ⟨q, List.mem_append_left _ hq, (hheap q identifier).2.trans hqev⟩
    objects := fun q hq => (h.objects q hq).imp (halive q) fun hd => by
      have hclosed := hd.2
      rw [← (hheap q identifier).1] at hclosed
      exact ⟨hd.1, hclosed⟩
    failures := fun q hq => by
      obtain ⟨hset, hfailing⟩ := h.failures q hq
      refine ⟨⟨hset.1, fun hmem => hset.2 (List.mem_of_mem_erase hmem)⟩, fun hmem => ?_⟩
      rcases List.mem_append.mp hmem with hmem | hmem
      · exact hfailing hmem
      · rw [List.mem_singleton.mp hmem] at hset
        exact absurd hp hset.2
    kept := fun q hq => (h.kept q hq).imp_left (halive q) }

theorem call (h : Steady [] s) (hlive : Live s) (c : Call) : Steady [] (s.call c) := by
  cases c with
  | send data identifier =>
    simp only [Server.call, Server.send]
    split
    · exact h
    · exact h.beginSend _ _ _
  | broadcast data => exact h.sendEach data _
  | shutdown => exact h.shutdown hlive
  | addConnection mSocket hEvent identifier => exact h.enrollNew hlive mSocket hEvent identifier

theorem wsaSend (h : Steady [] s) (hlive : Live s) (hknown : Known s) {e : Sending}
    (he : s.sending = some e) {result : Started}
    (hfinds : result.Accepted ∨ s.mCallback = true ∨ FindsItself s e.connection) :
    Steady [] (s.wsaSend e result) := by
  have hstart := h.start_send he
  cases result with
  | pending => exact hstart.back e.caller
  | immediate =>
    unfold Server.wsaSend
    split_ifs
    · exact invoke (f := .sendComplete e.caller) hstart (fun _ he => by cases he)
        fun _ _ he => by cases he
    · exact hstart.back e.caller
  | failed error =>
    have hset : Settled (s.issue e) e.connection := (hknown.sending e he).1
    have hfail := (h.issue e).fail hset
    unfold Server.wsaSend
    simp only
    split_ifs with hcb
    · exact invoke (f := .sendFailed e.connection e.caller) hfail (fun _ he => by cases he)
        fun _ _ he => by cases he
    · have hfinds : FindsItself s e.connection := (hfinds.resolve_left id).resolve_left hcb
      exact (hfail.removeFailed { hlive with } hfinds).back e.caller

theorem queueReceive (h : Steady [] s) (p : Ptr) {wsaRecv : Started}
    (haccepted : wsaRecv.Accepted) : Steady [] (s.queueReceiveFromConnection p wsaRecv) := by
  cases wsaRecv with
  | pending => exact { h with }
  | immediate => exact { h with }
  | failed error => exact haccepted.elim

theorem touch (h : Steady owed s) (p : Ptr) : Steady owed (s.touch p) :=
  h.record fun q hq => by simp at hq

theorem requeue (h : Steady [] s) (p : Ptr) {wsaRecv : Started}
    (haccepted : s.mHasBeenShutdown = true ∨
      p ∈ s.mConnections.mContainer ∧ wsaRecv.Accepted) :
    Steady [] (s.requeue p wsaRecv) := by
  unfold Server.requeue
  split_ifs with hshut
  · exact h
  · obtain ⟨hp, haccepted⟩ := haccepted.resolve_left hshut
    rw [use_mem (s := s.touch p) hp]
    exact (h.touch p).queueReceive p haccepted

theorem resume (h : Steady [] s) (hlive : Live s) {f : Frame} {stack : List Frame}
    (hstack : s.stack = f :: stack) {wsaRecv : Started}
    (hsurvives : Survives s (.returns wsaRecv)) :
    Steady [] ({ s with stack := stack }.resume wsaRecv f) := by
  have hpop := h.pop hstack
  have hlive' := hlive.pop hstack
  simp only [Survives, hstack] at hsurvives
  cases f with
  | receiveComplete p => exact requeue hpop p hsurvives
  | disconnected p handleId =>
    rcases removeServerConnection_cases hlive'.sound handleId with ⟨-, he⟩ | ⟨q, hq, hqev, he⟩
    · simp only [Server.resume]
      rw [he]
      exact hpop
    · obtain rfl := hsurvives q hq hqev
      obtain ⟨identifier, hid⟩ := h.told q handleId (hstack ▸ List.mem_cons_self)
      simp only [Server.resume]
      rw [he]
      exact drop hpop hq (Or.inr (Or.inr ⟨identifier, hid⟩))
  | completion => exact hpop
  | sendFailed p caller =>
    have hp := registered_of_finds hlive' hsurvives
    simp only [Server.resume]
    rw [use_mem hp]
    exact (removeFailed hpop hlive' hsurvives).back caller
  | sendComplete caller => exact back hpop caller

theorem getHandleArray (h : Steady [] s) : Steady [] s.getHandleArray := by
  have halive : ∀ p, p ∈ alive s → p ∈ alive s.getHandleArray := by
    intro p hp
    rcases List.mem_append.mp hp with hp | hp
    · exact Live.registered_alive (mem_getHandleArray.mpr hp)
    · exact Live.informing_alive hp
  exact { h with
    running := fun hl => by cases hl
    handles := fun handles hpc handle hmem _ => by
      obtain rfl := Pc.waiting.inj hpc
      unfold Connections.getHandleArray at hmem
      split at hmem
      · exact Or.inl (List.mem_singleton.mp hmem)
      · rename_i client rest hc
        refine (List.mem_cons.mp hmem).imp_right fun hmem => ?_
        obtain ⟨p, hp, rfl⟩ := List.mem_map.mp hmem
        refine ⟨p, mem_getHandleArray.mpr ?_, rfl⟩
        rw [hc]
        exact (List.perm_append_singleton client rest).mem_iff.mp hp
    objects := fun p hp => (h.objects p hp).imp_left (halive p)
    failures := fun p hp => (h.failures p hp).imp_right fun hc hmem =>
      hc (mem_getHandleArray.mp hmem)
    kept := fun p hp => (h.kept p hp).imp_left (halive p) }

/-- The handle that the wait has returned is that of a registered connection. -/
theorem receiveBranch (h : Steady [] s) (hlive : Live s) {handleId : Handle}
    (hmem : ∃ p ∈ s.mConnections.mContainer, (s.heap p).hEvent = handleId) {result : Overlapped}
    {wsaRecv : Started} (hsurvives : result.Survives s.mCallback wsaRecv) :
    Steady [] (s.receiveBranch handleId result wsaRecv) := by
  obtain ⟨p, hp, rfl⟩ := hmem
  have hfind : s.mConnections.getServerConnection s.heap (s.heap p).hEvent = .ok p :=
    getServerConnection_eq_ok.mpr (hlive.sound.distinct.find hp)
  have hcollect : Steady [] (s.collect p) := { h.touch p with }
  unfold Server.receiveBranch
  rw [hfind]
  cases result with
  | failed => exact hsurvives.elim
  | bytes data =>
    simp only
    split_ifs with hcb hlen hlen
    · refine invoke (f := .disconnected p (s.heap p).hEvent) hcollect (fun _ he => by cases he)
        fun q handleId he => ?_
      cases he
      exact ⟨(s.heap p).mIdentifier, rfl⟩
    · exact invoke (f := .receiveComplete p) hcollect (fun _ he => by cases he)
        fun _ _ he => by cases he
    · exact hcollect
    · exact hcollect.requeue p
        (Or.inr ⟨hp, (hsurvives.resolve_left hcb).resolve_left hlen⟩)

/-- **A client is accepted**, and an `AcceptEx` is outstanding for the next one. -/
theorem addNewConnection (h : Steady [] s) {handleId : Handle} {a : Accept}
    (hprepared : a.prepared.Outstanding) (hsurvives : a.Survives) :
    Steady [] ({ s.takeUp handleId with acceptEx := .idle }.addNewConnection a) := by
  obtain ⟨sckt, hincoming, -⟩ := h.accepting
  obtain ⟨next, hnext⟩ : ∃ next, a.prepared = .ok next := by
    cases hp : a.prepared with
    | ok next => exact ⟨next, rfl⟩
    | noSocket error => exact (hp ▸ hprepared : (Prepared.noSocket error).Outstanding).elim
    | noAcceptEx sckt => exact (hp ▸ hprepared : (Prepared.noAcceptEx sckt).Outstanding).elim
    | refused sckt => exact (hp ▸ hprepared : (Prepared.refused sckt).Outstanding).elim
  have hincoming' : (s.takeUp handleId).mIncomingSocket = some sckt := hincoming
  unfold Accept.Survives at hsurvives
  unfold Server.addNewConnection
  rw [hnext]
  simp only [hincoming']
  cases hev : a.hEvent with
  | error what =>
    rw [hev] at hsurvives
    exact hsurvives.elim
  | ok hEvent =>
    rw [hev] at hsurvives
    have hheap : ∀ p, p < s.nextPtr → (s.accepted sckt hEvent).heap p = s.heap p := fun p hp =>
      Live.newConnection_heap s sckt hEvent hp
    have hinform : Steady [] (prepareForServerConnection
        { { s.takeUp handleId with acceptEx := .idle }.accepted sckt hEvent with
          informing := s.informing ++ [s.nextPtr] } (.ok next)) :=
      { h with
        running := fun hl => by cases hl
        handles := fun _ hpc => by cases hpc
        accepting := ⟨next, rfl, Or.inl rfl⟩
        objects := fun p hp => by
          rcases Nat.lt_succ_iff_lt_or_eq.mp hp with hp | rfl
          · rcases h.objects p hp with hmem | hd
            · exact Or.inl ((List.sublist_append_left s.informing [s.nextPtr]).append_left _
                |>.subset hmem)
            · refine Or.inr ⟨hd.1, ?_⟩
              have hheap' := hheap p hp
              show Event.closed ((s.accepted sckt hEvent).heap p).mSocket ∈ s.trace
              rw [hheap']
              exact hd.2
          · exact Or.inl (Live.informing_alive (List.mem_append_right _ List.mem_cons_self))
        failures := fun p hp => by
          obtain ⟨hset, hfailing⟩ := h.failures p hp
          refine ⟨⟨Nat.lt_succ_of_lt hset.1, fun hmem => ?_⟩, hfailing⟩
          rcases List.mem_append.mp hmem with hmem | hmem
          · exact hset.2 hmem
          · exact absurd (List.mem_singleton.mp hmem) (Nat.ne_of_lt hset.1)
        kept := fun p hp => by
          rcases Nat.lt_succ_iff_lt_or_eq.mp hp with hp | rfl
          · exact (h.kept p hp).imp_left fun hmem =>
              ((List.sublist_append_left s.informing [s.nextPtr]).append_left _).subset hmem
          · exact Or.inl (Live.informing_alive (List.mem_append_right _ List.mem_cons_self)) }
    cases hrecv : a.wsaRecv with
    | failed error =>
      rw [hrecv] at hsurvives
      exact hsurvives.elim
    | pending => exact hinform
    | immediate => exact hinform

theorem dataSentToClient (h : Steady [] s) {e : Send} (he : e ∈ s.sends)
    (hp : e.connection ∈ s.mConnections.mContainer) (cbTransferred : ℕ) :
    Steady [] (s.dataSentToClient e cbTransferred) := by
  have hlen : (s.sends.erase e).length + 1 = s.sends.length := by
    rw [List.length_erase_of_mem he]
    have := List.length_pos_of_mem he
    omega
  have hle := h.targets
  have herase : Steady [] { s with sends := s.sends.erase e } :=
    { h with
      targets := by
        show (s.sends.erase e).length + s.sending.toList.length ≤ s.targets.length
        omega }
  have hpop : ∀ target rest, s.targets = target :: rest → Steady [] (s.popTarget e rest) := by
    intro target rest hcons
    rw [hcons, List.length_cons] at hle
    exact { herase with
      targets := by
        show (s.sends.erase e).length + s.sending.toList.length ≤ rest.length
        omega }
  have hsome : s.targets ≠ [] := fun hnil => by
    rw [hnil, List.length_nil] at hle
    omega
  unfold Server.dataSentToClient
  rw [use_mem (s := { s with sends := s.sends.erase e }) hp]
  unfold Server.complete
  split_ifs with hshut hcb
  · exact herase
  · split
    · rename_i hnil
      exact absurd hnil hsome
    · rename_i target rest hcons
      exact invoke (f := .completion) (hpop target rest hcons) (fun _ he => by cases he)
        fun _ _ he => by cases he
  · split
    · rename_i hnil
      exact absurd hnil hsome
    · rename_i target rest hcons
      exact hpop target rest hcons

/-- **A step that survives** leaves the server serving. -/
theorem step (h : Steady [] s) (hlive : Live s) (hknown : Known s) {a : Action}
    (hassumed : Assumed a) (hsurvives : Survives s a) (hs : Server.step s a = some t) :
    Steady [] t := by
  cases a with
  | call c =>
    obtain ⟨-, -, rfl⟩ := step_call hs
    exact h.call hlive c
  | wsaSend result =>
    obtain ⟨e, he, rfl⟩ := step_wsaSend hs
    obtain ⟨hp, hfinds⟩ := hsurvives e he
    rw [use_mem hp]
    exact h.wsaSend hlive hknown he hfinds
  | returns wsaRecv =>
    obtain ⟨-, f, stack, hstack, rfl⟩ := step_returns hs
    exact h.resume hlive hstack hsurvives
  | throws what => exact hassumed.elim
  | wait =>
    obtain ⟨-, -, ⟨-, rfl⟩ | ⟨-, rfl⟩⟩ := step_wait hs
    · exact { h with
        running := fun hl => by cases hl
        handles := fun _ hpc => by cases hpc }
    · exact h.getHandleArray
  | ioCompletion =>
    obtain ⟨-, -, ⟨-, rfl⟩ | ⟨-, rfl⟩⟩ := step_ioCompletion hs
    · exact { h with
        running := fun hl => by cases hl
        handles := fun _ hpc => by cases hpc }
    · exact h.getHandleArray
  | waitFailed error => exact hassumed.elim
  | signaled i result wsaRecv accept =>
    obtain ⟨handles, handleId, hpc, hget, -, hev, -, rfl⟩ := step_signaled hs
    simp only [Survives, hpc, hget] at hsurvives
    unfold Server.dispatch
    split_ifs with hshut hown
    · exact { h with
        running := fun hl => by cases hl
        handles := fun _ hpc => by cases hpc }
    · rw [if_pos hown] at hsurvives
      exact h.addNewConnection hassumed (hsurvives.resolve_left hshut)
    · rw [if_neg hown] at hsurvives
      have htake : Steady [] (s.takeUp handleId) :=
        { h with
          running := fun hl => by cases hl
          handles := fun _ hpc => by cases hpc }
      have hmem := h.handles handles hpc handleId (List.mem_of_getElem? hget) hev
      exact htake.receiveBranch { hlive with } (hmem.resolve_left hown)
        (hsurvives.resolve_left hshut)
  | dataSentToClient number cbTransferred =>
    obtain ⟨-, -, e, he, rfl⟩ := step_dataSentToClient hs
    exact h.dataSentToClient (List.mem_of_find?_eq_some he) (hsurvives e he) cbTransferred
  | registers p identifier =>
    obtain ⟨-, -, hp, rfl⟩ := step_registers hs
    exact h.enrollInforming hp identifier
  | receives p =>
    obtain ⟨-, rfl⟩ := step_receives hs
    exact { h with }
  | connects =>
    obtain ⟨sckt, hacc, rfl⟩ := step_connects hs
    obtain ⟨sckt', hincoming, hout⟩ := h.accepting
    refine { h with accepting := ⟨sckt', hincoming, Or.inr ?_⟩ }
    rcases hout with hout | hout
    · rw [hacc] at hout
      rw [Accepting.outstanding.inj hout]
    · rw [hacc] at hout
      cases hout

end Steady

/-- **Failures on the sockets of clients do not stop the server**, in every run whose steps come to
none of the outcomes without a branch. -/
theorem serving_while_survives (setup : Setup) (as : List Action) (hassumed : ∀ a ∈ as, Assumed a)
    (hsurvives : Along step Survives (waitForEvents setup) as) :
    Always step Serving (waitForEvents setup) as :=
  (always_of_along (P := fun s => Live s ∧ Known s ∧ Steady [] s)
    (fun _ _ _ h ha hs => ⟨h.1.step hs, h.2.1.step h.1 hs, h.2.2.step h.1 h.2.1 ha.2 ha.1 hs⟩)
    ⟨Live.start setup, Known.start setup, Steady.start setup⟩
    (hsurvives.with_mem hassumed)).imp fun _ h => h.2.2.serving

/-- A server with a callback and no other events. -/
def served : Setup := { mCallback := true, hEvent := 0, incoming := 3, events := ∅ }

/-- A client is accepted and registered, and a send to it fails. -/
def sendFails : List Action :=
  [.connects, .wait, .signaled 0 (.bytes []) .pending ⟨.ok 1, .pending, .ok 4⟩, .wait,
    .registers 0 [97], .call (.send [104] [97]), .wsaSend (.failed 10054),
    .returns .pending]

theorem serving_while_survives_sendFails : Always step Serving (waitForEvents served) sendFails :=
  serving_while_survives served sendFails (by decide) (by decide)

/-- **The receive of an accepted client is refused** and the exception ends the loop. -/
theorem accept_stops_server : ∃ t, run step (waitForEvents served)
    [.connects, .wait, .signaled 0 (.bytes []) .pending ⟨.ok 1, .failed 10054, .ok 4⟩] = some t ∧
      ¬ Serving t := by
  obtain ⟨t, ht, hpc⟩ := exists_run step (waitForEvents served)
    [.connects, .wait, .signaled 0 (.bytes []) .pending ⟨.ok 1, .failed 10054, .ok 4⟩]
    (fun t => t.pc = .left) (by decide)
  exact ⟨t, ht, fun h => h.running hpc⟩

end Server

end C11Http.Windows
