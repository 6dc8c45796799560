import C11Http.Windows.Armed
import C11Http.Windows.Client

/-! # One operation for each `OVERLAPPED`

A connection of the windows server has one `OVERLAPPED`, which its receives and the sends to it
share. The windows client has two, one for its receives and one for its sends. Winsock asks that
each belongs to one outstanding operation at most.

The server queues a receive for every registered connection, so a send to it is a second operation
unless the receive has completed; the client does not wait for one send before the next.
`single_operation_iff`: the rule is kept in every state of a run of the server, and of one of the
client, if and only if no operation is started on a structure that has one. -/

namespace C11Http.Windows

open C11Http.Lib.Run

namespace Server

open Connections

variable {s t u : Server}

/-- The outstanding operations of a connection: its first receive, those queued, and sends. -/
def operations (s : Server) (p : Ptr) : ℕ :=
  s.informing.count p + s.outstanding.count p + (s.sends.map Send.connection).count p

/-- **The `OVERLAPPED` of each connection belongs to one outstanding operation at most.** -/
def OneOperation (s : Server) : Prop := ∀ p ∈ alive s, s.operations p ≤ 1

/-- No send to the connection is outstanding. -/
def Unsent (s : Server) (p : Ptr) : Prop := p ∉ s.sends.map Send.connection

/-- A send is accepted only on a connection without a receive or a send outstanding, and a receive
is queued only on one without a send outstanding. Connections that have been deleted do not count.
-/
def Exclusive (s : Server) : Action → Prop
  | .wsaSend result => result.Accepted → ∀ e ∈ s.sending, e.connection ∈ alive s →
      e.connection ∉ s.outstanding ∧ s.Unsent e.connection
  | .returns .pending => ∀ p, s.stack.head? = some (.receiveComplete p) →
      s.mHasBeenShutdown = false → p ∈ alive s → s.Unsent p
  | .signaled i (.bytes data) .pending _ => ∀ handles handleId p, s.pc = .waiting handles →
      handles[i]? = some handleId → s.mHasBeenShutdown = false → handleId ≠ s.hEvent →
      s.mConnections.getServerConnection s.heap handleId = .ok p →
      s.mCallback = false → data.length ≠ 0 → s.Unsent p
  | _ => True

/-- No operation is started. -/
def Fewer (s t : Server) : Prop := ∀ p ∈ alive t, p ∈ alive s ∧ t.operations p ≤ s.operations p

namespace Fewer

theorem refl (s : Server) : Fewer s s := fun _ hp => ⟨hp, le_rfl⟩

theorem trans (h : Fewer s t) (h' : Fewer t u) : Fewer s u := fun p hp => by
  obtain ⟨hpt, hle'⟩ := h' p hp
  obtain ⟨hps, hle⟩ := h p hpt
  exact ⟨hps, hle'.trans hle⟩

theorem one (h : Fewer s t) (hs : OneOperation s) : OneOperation t := fun p hp => by
  obtain ⟨hps, hle⟩ := h p hp
  exact hle.trans (hs p hps)

theorem of_eq (halive : alive t = alive s) (hcount : ∀ p, t.operations p = s.operations p) :
    Fewer s t := fun p hp => ⟨halive ▸ hp, (hcount p).le⟩

theorem aside (h : Aside s t) : Fewer s t := by
  obtain ⟨targets, sending, rfl⟩ := h
  exact refl s

theorem drop (s : Server) (p : Ptr) : Fewer s (s.drop p) := fun q hq => by
  refine ⟨(List.erase_sublist.append_right _).subset hq, ?_⟩
  have hle : (s.outstanding.filter (· ≠ p)).count q ≤ s.outstanding.count q :=
    List.filter_sublist.count_le q
  show s.informing.count q + (s.outstanding.filter (· ≠ p)).count q +
    (s.sends.map Send.connection).count q ≤ s.operations q
  unfold operations
  omega

theorem removeServerConnection (h : Live s) (handle : Handle) :
    Fewer s (s.removeServerConnection handle) :=
  removeServerConnection_rule h.sound handle (refl s) fun p _ => drop s p

theorem removeServerConnectionById (h : Live s) (identifier : Bytes) :
    Fewer s (s.removeServerConnectionById identifier) :=
  removeServerConnectionById_rule h.sound identifier (refl s) fun p _ => drop s p

theorem shutdown (h : Live s) : Fewer s s.shutdown := by
  obtain ⟨-, hfewer⟩ := shutdown_rule (s := s) (P := fun u => Live u ∧ Fewer s u)
    (fun _ hu => hu.1.sound) (fun u p hu hp => ⟨hu.1.drop hp, hu.2.trans (drop u p)⟩)
    (fun _ hu => ⟨{ hu.1 with }, hu.2⟩) ⟨{ h with }, refl s⟩
  exact hfewer

theorem collect (s : Server) (p : Ptr) : Fewer s (s.collect p) := fun q hq => by
  refine ⟨hq, ?_⟩
  have hle : (s.collect p).outstanding.count q ≤ s.outstanding.count q := by
    show (if p ∈ s.completed then s.outstanding else s.outstanding.erase p).count q ≤ _
    split_ifs
    · exact le_rfl
    · exact List.erase_sublist.count_le q
  exact Nat.add_le_add_right (Nat.add_le_add_left hle _) _

/-- The first receive of a connection has completed, and the next one is queued. -/
theorem enrollInforming (s : Server) {p : Ptr} (hp : p ∈ s.informing) (identifier : Bytes) :
    Fewer s ({ s with informing := s.informing.erase p }.enroll p identifier) := by
  intro q hq
  constructor
  · rcases Live.mem_alive_enroll.mp hq with rfl | hq
    · exact Live.informing_alive hp
    · exact (List.erase_sublist.append_left _).subset hq
  · show (s.informing.erase p).count q + (s.outstanding ++ [p]).count q +
      (s.sends.map Send.connection).count q ≤ s.operations q
    have hpos : 0 < s.informing.count p := List.count_pos_iff.mpr hp
    rw [List.count_append, List.count_erase, List.count_singleton]
    unfold operations
    split_ifs with hpq
    · obtain rfl := beq_iff_eq.mp hpq
      omega
    · omega

theorem removeSend (s : Server) (e : Send) : Fewer s { s with sends := s.sends.erase e } :=
  fun q hq => by
  refine ⟨hq, ?_⟩
  have hle : ((s.sends.erase e).map Send.connection).count q ≤
      (s.sends.map Send.connection).count q := (List.erase_sublist.map _).count_le q
  exact Nat.add_le_add_left hle _

theorem dataSentToClient (s : Server) (e : Send) (cbTransferred : ℕ) :
    Fewer s (s.dataSentToClient e cbTransferred) := by
  have hremove := removeSend s e
  exact dataSentToClient_rule (fun _ => hremove) hremove (refl s) (fun _ _ _ _ _ => hremove)
    fun _ _ _ _ _ => hremove

theorem unwind (s : Server) (what : String) (f : Frame) : Fewer s (s.unwind what f) := by
  cases f with
  | receiveComplete p => exact refl s
  | disconnected p handleId => exact refl s
  | completion => exact refl s
  | sendFailed p caller => exact refl s
  | sendComplete caller => exact refl s

theorem getHandleArray (s : Server) : Fewer s s.getHandleArray := fun q hq => by
  refine ⟨?_, le_rfl⟩
  rcases List.mem_append.mp hq with hq | hq
  · exact Live.registered_alive (mem_getHandleArray.mp hq)
  · exact Live.informing_alive hq

end Fewer

/-! ### Operations that are started -/

/-- A new address has no operation. -/
theorem operations_nextPtr (hlive : Live s) (hknown : Known s) : s.operations s.nextPtr = 0 := by
  have hout : s.nextPtr ∉ s.outstanding := fun h => lt_irrefl _ (hknown.outstanding _ h).1
  have hinf : s.nextPtr ∉ s.informing := fun h =>
    lt_irrefl _ (hlive.fresh _ (Live.informing_alive h))
  have hsent : s.nextPtr ∉ s.sends.map Send.connection := by
    intro h
    obtain ⟨e, he, hc⟩ := List.mem_map.mp h
    exact lt_irrefl _ (hc ▸ (hknown.sends e he).1)
  unfold operations
  rw [List.count_eq_zero_of_not_mem hout, List.count_eq_zero_of_not_mem hinf,
    List.count_eq_zero_of_not_mem hsent]

/-- A new connection has its first receive. -/
theorem OneOperation.add (h : OneOperation s) (hlive : Live s) (hknown : Known s)
    (halive : ∀ q ∈ alive t, q = s.nextPtr ∨ q ∈ alive s)
    (hcount : ∀ q, t.operations q = s.operations q + [s.nextPtr].count q) : OneOperation t := by
  intro q hq
  rw [hcount]
  rcases eq_or_ne q s.nextPtr with rfl | hne
  · rw [operations_nextPtr hlive hknown, List.count_singleton_self]
  · rw [List.count_singleton, if_neg (by simpa using hne.symm)]
    exact h q ((halive q hq).resolve_left hne)

/-- One operation is started for a connection. -/
theorem oneOperation_iff_of_start (h : OneOperation s) {p : Ptr} (halive : alive t = alive s)
    (hcount : ∀ q, t.operations q = s.operations q + [p].count q) :
    OneOperation t ↔ (p ∈ alive s → s.operations p = 0) := by
  constructor
  · intro ht hp
    have hle := ht p (halive ▸ hp)
    rw [hcount, List.count_singleton_self] at hle
    omega
  · intro hzero q hq
    rw [hcount]
    have hqs : q ∈ alive s := halive ▸ hq
    rcases eq_or_ne q p with rfl | hne
    · rw [hzero hqs, List.count_singleton_self]
    · rw [List.count_singleton, if_neg (by simpa using hne.symm)]
      exact h q hqs

theorem unsent_iff {p : Ptr} : s.Unsent p ↔ (s.sends.map Send.connection).count p = 0 :=
  List.count_eq_zero.symm

/-- A send is started. -/
theorem oneOperation_start_iff (h : OneOperation s) (hknown : Known s) {e : Sending}
    (he : s.sending = some e) (hstart : ∀ q, t.operations q = (s.start e).operations q)
    (halive : alive t = alive s) :
    OneOperation t ↔
      (e.connection ∈ alive s → e.connection ∉ s.outstanding ∧ s.Unsent e.connection) := by
  have hcount : ∀ q, t.operations q = s.operations q + [e.connection].count q := by
    intro q
    rw [hstart]
    show s.informing.count q + s.outstanding.count q +
      ((s.sends ++ [_]).map Send.connection).count q = s.operations q + _
    rw [List.map_append, List.count_append]
    unfold operations
    simp only [List.map_cons, List.map_nil]
    omega
  have hinf : s.informing.count e.connection = 0 :=
    List.count_eq_zero.mpr (hknown.sending e he).1.2
  have hzero : s.operations e.connection = 0 ↔
      e.connection ∉ s.outstanding ∧ s.Unsent e.connection := by
    rw [unsent_iff, ← List.count_eq_zero]
    unfold operations
    omega
  rw [oneOperation_iff_of_start h halive hcount, hzero]

/-- A receive is queued for a connection that has none. -/
theorem oneOperation_queue_iff (h : OneOperation s) {p : Ptr} (hset : Settled s p)
    (hnone : p ∈ alive s → s.outstanding.count p = 0) :
    OneOperation (s.queueReceiveFromConnection p .pending) ↔ (p ∈ alive s → s.Unsent p) := by
  have hcount : ∀ q, (s.queueReceiveFromConnection p .pending).operations q =
      s.operations q + [p].count q := by
    intro q
    show s.informing.count q + (s.outstanding ++ [p]).count q +
      (s.sends.map Send.connection).count q = s.operations q + _
    rw [List.count_append]
    unfold operations
    omega
  have hinf : s.informing.count p = 0 := List.count_eq_zero.mpr hset.2
  have halive : alive (s.queueReceiveFromConnection p .pending) = alive s := rfl
  rw [oneOperation_iff_of_start h halive hcount]
  refine forall_congr' fun hp => ?_
  rw [unsent_iff]
  have hout := hnone hp
  unfold operations
  omega

theorem queueReceive_fewer (s : Server) (p : Ptr) {wsaRecv : Started} (hne : wsaRecv ≠ .pending) :
    Fewer s (s.queueReceiveFromConnection p wsaRecv) := by
  cases wsaRecv with
  | pending => exact absurd rfl hne
  | immediate => exact Fewer.refl s
  | failed error => exact Fewer.refl s

/-- **The end of a receive branch.** -/
theorem oneOperation_requeue_iff (h : OneOperation s) {p : Ptr} (hset : Settled s p)
    (hnone : p ∈ alive s → s.outstanding.count p = 0) (wsaRecv : Started) :
    OneOperation (s.requeue p wsaRecv) ↔
      (wsaRecv = .pending → s.mHasBeenShutdown = false → p ∈ alive s → s.Unsent p) := by
  unfold requeue
  split_ifs with hshut
  · refine iff_of_true h fun _ hnot => ?_
    rw [hshut] at hnot
    cases hnot
  · have hnot : s.mHasBeenShutdown = false := by simpa using hshut
    by_cases hp : p ∈ s.mConnections.mContainer
    swap
    · rw [use_deleted (s := s.touch p) hp]
      exact iff_of_true h fun _ _ hmem => absurd (hset.registered hmem) hp
    rw [use_mem (s := s.touch p) hp]
    by_cases hpending : wsaRecv = .pending
    · subst hpending
      rw [oneOperation_queue_iff (s := s.touch p) h hset hnone]
      exact ⟨fun hu _ _ => hu, fun hu => hu rfl hnot⟩
    · exact iff_of_true ((queueReceive_fewer (s.touch p) p hpending).one h)
        fun he => absurd he hpending

/-! ### Steps -/

theorem oneOperation_call (h : OneOperation s) (hlive : Live s) (hknown : Known s) (c : Call) :
    OneOperation (s.call c) := by
  cases c with
  | send data identifier => exact (Fewer.aside (aside_send s data identifier)).one h
  | broadcast data => exact (Fewer.aside (aside_broadcast s data)).one h
  | shutdown => exact (Fewer.shutdown hlive).one h
  | addConnection mSocket hEvent identifier =>
    refine h.add hlive hknown (fun q hq => Live.mem_alive_enroll.mp hq) fun q => ?_
    show s.informing.count q + (s.outstanding ++ [s.nextPtr]).count q +
      (s.sends.map Send.connection).count q = s.operations q + _
    rw [List.count_append]
    unfold operations
    omega

theorem oneOperation_wsaSend_iff (h : OneOperation s) (hlive : Live s) (hknown : Known s)
    {e : Sending} (he : s.sending = some e) (result : Started) :
    OneOperation (s.use e.connection (s.wsaSend e result)) ↔ Exclusive s (.wsaSend result) := by
  have hexcl : Exclusive s (.wsaSend result) ↔ (result.Accepted → e.connection ∈ alive s →
      e.connection ∉ s.outstanding ∧ s.Unsent e.connection) := by
    simp only [Exclusive, he]
    exact ⟨fun hr ha => hr ha e rfl, fun hr ha e' he' => by
      obtain rfl := Option.some.inj he'
      exact hr ha⟩
  rw [hexcl]
  by_cases hp : e.connection ∈ s.mConnections.mContainer
  swap
  · rw [use_deleted hp]
    exact iff_of_true h fun _ hmem => absurd ((hknown.sending e he).1.registered hmem) hp
  rw [use_mem hp]
  have hback : ∀ q, ((s.start e).back e.caller).operations q = (s.start e).operations q := by
    obtain ⟨targets, sending, hb⟩ := aside_back (s.start e) e.caller
    rw [hb]
    exact fun _ => rfl
  have halive : alive ((s.start e).back e.caller) = alive s := by
    obtain ⟨targets, sending, hb⟩ := aside_back (s.start e) e.caller
    rw [hb]
    rfl
  cases result with
  | pending =>
    exact (oneOperation_start_iff h hknown he hback halive).trans
      ⟨fun hr _ => hr, fun hr => hr trivial⟩
  | immediate =>
    unfold Server.wsaSend
    split_ifs
    · exact (oneOperation_start_iff h hknown he (fun _ => rfl) rfl).trans
        ⟨fun hr _ => hr, fun hr => hr trivial⟩
    · exact (oneOperation_start_iff h hknown he hback halive).trans
        ⟨fun hr _ => hr, fun hr => hr trivial⟩
  | failed error =>
    refine iff_of_true ?_ fun ha => ha.elim
    have hlive' : Live ((s.issue e).record [.failed e.connection]) := { hlive with }
    have hfail : Fewer s ((s.issue e).record [.failed e.connection]) :=
      Fewer.of_eq rfl fun _ => rfl
    unfold Server.wsaSend
    simp only
    split_ifs
    · exact hfail.one h
    · exact (hfail.trans ((Fewer.removeServerConnectionById hlive' _).trans
        (Fewer.aside (aside_back _ _)))).one h

theorem oneOperation_resume_iff (h : OneOperation s) (hlive : Live s) (hknown : Known s)
    (hreceives : Receives False [] s) {f : Frame} {stack : List Frame}
    (hstack : s.stack = f :: stack) (wsaRecv : Started) :
    OneOperation ({ s with stack := stack }.resume wsaRecv f) ↔ Exclusive s (.returns wsaRecv) := by
  have hexcl : (∀ p, f ≠ .receiveComplete p) → Exclusive s (.returns wsaRecv) := by
    intro hf
    cases wsaRecv with
    | pending =>
      intro p hp
      rw [hstack] at hp
      exact absurd (Option.some.inj hp) (hf p)
    | immediate => trivial
    | failed error => trivial
  have hlive' := hlive.pop hstack
  cases f with
  | receiveComplete p =>
    have hmem : Frame.receiveComplete p ∈ s.stack := hstack ▸ List.mem_cons_self
    have hset : Settled s p := hknown.frames _ hmem p List.mem_cons_self
    have hnone : p ∈ alive s → s.outstanding.count p = 0 := by
      intro hp
      have hle := hreceives.atMost p hp
      have hpos : 0 < s.receivers.count p :=
        List.count_pos_iff.mpr (List.mem_filterMap.mpr ⟨_, hmem, rfl⟩)
      unfold receives at hle
      omega
    refine (oneOperation_requeue_iff (s := { s with stack := stack }) h hset hnone wsaRecv).trans ?_
    cases wsaRecv with
    | pending =>
      constructor
      · intro hr q hq hshut hmem'
        rw [hstack] at hq
        obtain rfl := Frame.receiveComplete.inj (Option.some.inj hq)
        exact hr rfl hshut hmem'
      · intro hr _ hshut hmem'
        exact hr p (by rw [hstack]; rfl) hshut hmem'
    | immediate => exact iff_of_true (fun he => by cases he) trivial
    | failed error => exact iff_of_true (fun he => by cases he) trivial
  | disconnected p handleId =>
    exact iff_of_true ((Fewer.removeServerConnection hlive' handleId).one h)
      (hexcl fun _ he => by cases he)
  | completion => exact iff_of_true h (hexcl fun _ he => by cases he)
  | sendFailed p caller =>
    have hremoved :
        OneOperation ({ s with stack := stack }.resume wsaRecv (.sendFailed p caller)) :=
      use_rule h fun _ => ((Fewer.removeServerConnectionById hlive' _).trans
        (Fewer.aside (aside_back _ _))).one h
    exact iff_of_true hremoved (hexcl fun _ he => by cases he)
  | sendComplete caller =>
    exact iff_of_true ((Fewer.aside (aside_back _ _)).one h) (hexcl fun _ he => by cases he)

theorem oneOperation_addNewConnection (h : OneOperation s) (hlive : Live s) (hknown : Known s)
    (a : Accept) : OneOperation (s.addNewConnection a) := by
  refine addNewConnection_rule (P := OneOperation) h (fun _ _ hu => hu) (fun _ _ hu => hu)
    (fun _ _ hu => hu) (fun _ _ _ => h) fun sckt hEvent _ => ?_
  refine h.add hlive hknown (fun q hq => ?_) fun q => ?_
  · have hmem : q ∈ s.mConnections.mContainer ++ (s.informing ++ [s.nextPtr]) := hq
    simp only [List.mem_append, List.mem_singleton] at hmem
    rcases hmem with hmem | hmem | rfl
    · exact Or.inr (Live.registered_alive hmem)
    · exact Or.inr (Live.informing_alive hmem)
    · exact Or.inl rfl
  · show (s.informing ++ [s.nextPtr]).count q + s.outstanding.count q +
      (s.sends.map Send.connection).count q = s.operations q + _
    rw [List.count_append]
    unfold operations
    omega

theorem oneOperation_receiveBranch_iff (h : OneOperation s) (hlive : Live s)
    (hreceives : Receives False [] s) (hstack : s.stack = []) (handleId : Handle)
    (result : Overlapped) (wsaRecv : Started) :
    OneOperation (s.receiveBranch handleId result wsaRecv) ↔
      ∀ p data, result = .bytes data → wsaRecv = .pending → s.mHasBeenShutdown = false →
        s.mConnections.getServerConnection s.heap handleId = .ok p →
        s.mCallback = false → data.length ≠ 0 → s.Unsent p := by
  unfold Server.receiveBranch
  cases hfind : s.mConnections.getServerConnection s.heap handleId with
  | error what => exact iff_of_true h fun _ _ _ _ _ hf => by cases hf
  | ok p =>
    have hp := (getServerConnection_ok hfind).1
    have hcollect := (Fewer.collect s p).one h
    cases result with
    | failed => exact iff_of_true hcollect fun _ _ he => by cases he
    | bytes data =>
      simp only
      split_ifs with hcb hlen hlen
      · exact iff_of_true hcollect fun _ _ _ _ _ _ hno => by rw [hcb] at hno; cases hno
      · exact iff_of_true hcollect fun _ _ _ _ _ _ hno => by rw [hcb] at hno; cases hno
      · exact iff_of_true hcollect fun _ _ he _ _ _ _ hne => by cases he; exact absurd hlen hne
      · have hzero : (s.collect p).outstanding.count p = 0 := by
          have hsum := (hreceives.collect hlive hstack hp).1
          unfold receives at hsum
          omega
        rw [oneOperation_requeue_iff (s := s.collect p) hcollect (hlive.settled hp)
          (fun _ => hzero)]
        constructor
        · intro hu q data' _ hpending hshut hq _ _
          cases hq
          exact hu hpending hshut (Live.registered_alive hp)
        · intro hu hpending hshut _
          exact hu p data rfl hpending hshut rfl (by simpa using hcb) hlen

/-- **A step keeps the rule exactly when it starts no second operation.** -/
theorem oneOperation_step_iff (h : OneOperation s) (hlive : Live s) (hknown : Known s)
    (hreceives : Receives False [] s) {a : Action} (hs : step s a = some t) :
    OneOperation t ↔ Exclusive s a := by
  cases a with
  | call c =>
    obtain ⟨-, -, rfl⟩ := step_call hs
    exact iff_of_true (oneOperation_call h hlive hknown c) trivial
  | wsaSend result =>
    obtain ⟨e, he, rfl⟩ := step_wsaSend hs
    exact oneOperation_wsaSend_iff h hlive hknown he result
  | returns wsaRecv =>
    obtain ⟨-, f, stack, hstack, rfl⟩ := step_returns hs
    exact oneOperation_resume_iff h hlive hknown hreceives hstack wsaRecv
  | throws what =>
    obtain ⟨-, f, stack, hstack, rfl⟩ := step_throws hs
    exact iff_of_true ((Fewer.unwind { s with stack := stack } what f).one h) trivial
  | wait =>
    obtain ⟨-, -, ⟨-, rfl⟩ | ⟨-, rfl⟩⟩ := step_wait hs
    · exact iff_of_true h trivial
    · exact iff_of_true ((Fewer.getHandleArray s).one h) trivial
  | ioCompletion =>
    obtain ⟨-, -, ⟨-, rfl⟩ | ⟨-, rfl⟩⟩ := step_ioCompletion hs
    · exact iff_of_true h trivial
    · exact iff_of_true ((Fewer.getHandleArray s).one h) trivial
  | waitFailed error =>
    obtain ⟨-, rfl⟩ := step_waitFailed hs
    exact iff_of_true h trivial
  | signaled i result wsaRecv accept =>
    obtain ⟨handles, handleId, hpc, hget, halone, -, -, rfl⟩ := step_signaled hs
    have hexcl : Exclusive s (.signaled i result wsaRecv accept) ↔
        (s.mHasBeenShutdown = false → handleId ≠ s.hEvent → ∀ p data, result = .bytes data →
          wsaRecv = .pending → s.mHasBeenShutdown = false →
          s.mConnections.getServerConnection s.heap handleId = .ok p →
          s.mCallback = false → data.length ≠ 0 → s.Unsent p) := by
      constructor
      · rintro hr hshut hown p data rfl rfl _ hfind hcb hlen
        exact hr handles handleId p hpc hget hshut hown hfind hcb hlen
      · intro hr
        cases result with
        | failed => trivial
        | bytes data =>
          cases wsaRecv with
          | pending =>
            intro handles' handleId' p hpc' hget' hshut hown hfind hcb hlen
            obtain rfl : handles = handles' := by
              rw [hpc] at hpc'
              exact Pc.waiting.inj hpc'
            obtain rfl : handleId = handleId' := by
              rw [hget] at hget'
              exact Option.some.inj hget'
            exact hr hshut hown p data rfl rfl hshut hfind hcb hlen
          | immediate => trivial
          | failed error => trivial
    rw [hexcl]
    unfold Server.dispatch
    split_ifs with hshut hown
    · exact iff_of_true h fun hnot => by rw [hshut] at hnot; cases hnot
    · exact iff_of_true (oneOperation_addNewConnection
        (s := { s.takeUp handleId with acceptEx := .idle }) h { hlive with } { hknown with } accept)
        fun _ hne => absurd hown hne
    · have hreceives' : Receives False [] (s.takeUp handleId) :=
        ⟨hreceives.atMost, fun hfalse => hfalse.elim⟩
      exact (oneOperation_receiveBranch_iff (s := s.takeUp handleId) h { hlive with } hreceives'
        halone.2 handleId result wsaRecv).trans
        ⟨fun hr _ _ => hr, fun hr => hr (by simpa using hshut) hown⟩
  | dataSentToClient number cbTransferred =>
    obtain ⟨-, -, e, -, rfl⟩ := step_dataSentToClient hs
    exact iff_of_true ((Fewer.dataSentToClient s e cbTransferred).one h) trivial
  | registers p identifier =>
    obtain ⟨-, -, hp, rfl⟩ := step_registers hs
    exact iff_of_true ((Fewer.enrollInforming s hp identifier).one h) trivial
  | receives p =>
    obtain ⟨-, rfl⟩ := step_receives hs
    have hfewer : Fewer s { s with
        outstanding := s.outstanding.erase p
        completed := s.completed ++ [p]
        signaled := insert (s.heap p).hEvent s.signaled } := fun q hq => by
      refine ⟨hq, ?_⟩
      have hle : (s.outstanding.erase p).count q ≤ s.outstanding.count q :=
        List.erase_sublist.count_le q
      exact Nat.add_le_add_right (Nat.add_le_add_left hle _) _
    exact iff_of_true (hfewer.one h) trivial
  | connects =>
    obtain ⟨sckt, -, rfl⟩ := step_connects hs
    exact iff_of_true h trivial

theorem always_oneOperation_iff (setup : Setup) (as : List Action) :
    Always step OneOperation (waitForEvents setup) as ↔
      Along step Exclusive (waitForEvents setup) as :=
  always_iff_along (I := fun s => Live s ∧ Known s ∧ Receives False [] s)
    (fun _ _ _ h _ hs _ => ⟨h.1.step hs, h.2.1.step h.1 hs,
      h.2.2.step h.1 h.2.1 (fun hfalse => hfalse.elim) hs⟩)
    (fun _ _ _ h ho hs => oneOperation_step_iff ho h.1 h.2.1 h.2.2 hs)
    as ⟨Live.start setup, Known.start setup, Receives.start False setup⟩ fun _ hp => by cases hp

end Server

namespace Client

variable {s t : Client}

/-- **Each `OVERLAPPED` of the client belongs to one outstanding operation at most.** -/
def OneOperation (s : Client) : Prop := s.outstanding ≤ 1 ∧ s.sends.length ≤ 1

/-- A send is left pending only when none is outstanding. -/
def Exclusive (s : Client) : Action → Prop
  | .wsaSend .pending => s.sends = []
  | _ => True

/-- No receive is outstanding when the first one is prepared. -/
def Unprepared (s : Client) : Prop := s.pc = .preparing → s.outstanding = 0

/-- No operation is started. -/
structure Fewer (s t : Client) : Prop where
  outstanding : t.outstanding ≤ s.outstanding
  sends : t.sends.length ≤ s.sends.length
  pc : t.pc = .preparing → s.pc = .preparing

namespace Fewer

theorem refl (s : Client) : Fewer s s := ⟨le_rfl, le_rfl, id⟩

theorem call (s : Client) (c : Call) : Fewer s (s.call c) := by
  cases c with
  | sendDataToServer data => exact ⟨le_rfl, le_rfl, id⟩
  | disconnect =>
    show Fewer s s.disconnect
    unfold disconnect
    split_ifs
    · exact ⟨Nat.zero_le _, Nat.zero_le _, id⟩
    · exact refl s

theorem resume (s : Client) (f : Frame) : Fewer s (s.resume f) := by
  cases f with
  | prepare => exact refl s
  | received => exact ⟨le_rfl, le_rfl, id⟩
  | sent => exact ⟨le_rfl, le_rfl, id⟩
  | sending => exact refl s

theorem leave (s : Client) (what : String) : Fewer s (s.leave what) :=
  ⟨le_rfl, le_rfl, fun he => by cases he⟩

theorem unwind (s : Client) (what : String) (f : Frame) : Fewer s (s.unwind what f) := by
  cases f with
  | prepare => exact leave s what
  | received => exact leave s what
  | sent => exact leave s what
  | sending => exact refl s

theorem receiveBranch (s : Client) : Fewer s s.receiveBranch := by
  unfold Client.receiveBranch
  split
  · exact ⟨le_rfl, le_rfl, id⟩
  · exact ⟨le_rfl, le_rfl, id⟩
  · split_ifs
    · exact ⟨le_rfl, le_rfl, id⟩
    · exact ⟨le_rfl, le_rfl, id⟩

theorem sendBranch (s : Client) : Fewer s s.sendBranch := by
  unfold Client.sendBranch
  split
  · exact ⟨le_rfl, le_rfl, id⟩
  · exact ⟨le_rfl, le_rfl, id⟩
  · split
    · exact ⟨le_rfl, le_rfl, fun he => by cases he⟩
    · split_ifs
      · exact ⟨le_rfl, le_rfl, id⟩
      · exact ⟨le_rfl, le_rfl, id⟩

theorem dispatch (s : Client) (index : Index) : Fewer s (s.dispatch index) := by
  have hpc : ∀ {t : Client} {pc : Pc}, pc ≠ .preparing → Fewer { s with pc := pc } t → Fewer s t :=
    fun hne h => ⟨h.outstanding, h.sends, fun he => absurd (h.pc he) hne⟩
  unfold Client.dispatch
  split_ifs
  · cases index with
    | receive => exact hpc (by decide) (receiveBranch _)
    | send => exact hpc (by decide) (sendBranch _)
  · exact ⟨le_rfl, le_rfl, fun he => by cases he⟩

end Fewer

/-- **A step starts nothing, or the first receive, or one send.** -/
theorem step_cases {a : Action} (hs : step s a = some t) :
    (Fewer s t ∧ Exclusive s a) ∨
      (s.pc = .preparing ∧ t.pc = .top ∧ t.outstanding = s.outstanding + 1 ∧ t.sends = s.sends ∧
        Exclusive s a) ∨
      (a = .wsaSend .pending ∧ t.pc = s.pc ∧ t.outstanding = s.outstanding ∧
        t.sends.length = s.sends.length + 1) := by
  cases a with
  | call c =>
    obtain ⟨-, rfl⟩ := step_call hs
    exact Or.inl ⟨Fewer.call s c, trivial⟩
  | wsaRecv result =>
    obtain ⟨-, hpc, -, rfl⟩ := step_wsaRecv hs
    cases result with
    | pending => exact Or.inr (Or.inl ⟨hpc, rfl, rfl, rfl, trivial⟩)
    | immediate count =>
      refine Or.inl ⟨?_, trivial⟩
      unfold prepareClientToReceiveData
      simp only
      split_ifs
      · exact ⟨le_rfl, le_rfl, id⟩
      · exact ⟨le_rfl, le_rfl, id⟩
    | failed error => exact Or.inl ⟨Fewer.leave s _, trivial⟩
  | wsaSend result =>
    obtain ⟨data, -, rfl⟩ := step_wsaSend hs
    cases result with
    | pending =>
      refine Or.inr (Or.inr ⟨rfl, rfl, rfl, ?_⟩)
      show (s.sends ++ [data.length]).length = _
      rw [List.length_append, List.length_singleton]
    | immediate =>
      refine Or.inl ⟨?_, trivial⟩
      unfold wsaSend
      simp only
      split_ifs
      · exact ⟨le_rfl, le_rfl, id⟩
      · exact ⟨le_rfl, le_rfl, id⟩
    | failed error => exact Or.inl ⟨⟨le_rfl, le_rfl, id⟩, trivial⟩
  | returns =>
    obtain ⟨-, f, stack, -, rfl⟩ := step_returns hs
    have hresume := Fewer.resume { s with stack := stack } f
    exact Or.inl ⟨⟨hresume.outstanding, hresume.sends, hresume.pc⟩, trivial⟩
  | throws what =>
    obtain ⟨-, f, stack, -, rfl⟩ := step_throws hs
    have hunwind := Fewer.unwind { s with stack := stack } what f
    exact Or.inl ⟨⟨hunwind.outstanding, hunwind.sends, hunwind.pc⟩, trivial⟩
  | wait =>
    obtain ⟨-, -, ⟨-, rfl⟩ | ⟨-, rfl⟩⟩ := step_wait hs
    · exact Or.inl ⟨⟨le_rfl, le_rfl, fun he => by cases he⟩, trivial⟩
    · exact Or.inl ⟨⟨le_rfl, le_rfl, fun he => by cases he⟩, trivial⟩
  | ioCompletion =>
    obtain ⟨-, -, ⟨-, rfl⟩ | ⟨-, rfl⟩⟩ := step_ioCompletion hs
    · exact Or.inl ⟨Fewer.refl t, trivial⟩
    · exact Or.inl ⟨⟨le_rfl, le_rfl, fun he => by cases he⟩, trivial⟩
  | waitFailed error =>
    obtain ⟨-, rfl⟩ := step_waitFailed hs
    exact Or.inl ⟨Fewer.leave s _, trivial⟩
  | signaled index =>
    obtain ⟨-, -, rfl⟩ := step_signaled hs
    exact Or.inl ⟨Fewer.dispatch s index, trivial⟩
  | arrives data =>
    obtain rfl := step_arrives hs
    exact Or.inl ⟨⟨le_rfl, le_rfl, id⟩, trivial⟩
  | receives count =>
    obtain ⟨-, rfl⟩ := step_receives hs
    exact Or.inl ⟨⟨Nat.sub_le _ _, le_rfl, id⟩, trivial⟩
  | receiveFails =>
    obtain ⟨-, rfl⟩ := step_receiveFails hs
    exact Or.inl ⟨⟨Nat.sub_le _ _, le_rfl, id⟩, trivial⟩
  | sends i result =>
    obtain ⟨hi, rfl⟩ := step_sends hs
    refine Or.inl ⟨⟨le_rfl, ?_, id⟩, trivial⟩
    exact (List.eraseIdx_sublist s.sends i).length_le

theorem unprepared_step {a : Action} (h : Unprepared s) (hs : step s a = some t) :
    Unprepared t := by
  intro hpc
  rcases step_cases hs with ⟨hfewer, -⟩ | ⟨-, htop, -⟩ | ⟨-, hsame, hout, -⟩
  · exact Nat.le_zero.mp ((h (hfewer.pc hpc)) ▸ hfewer.outstanding)
  · rw [htop] at hpc
    cases hpc
  · rw [hout]
    exact h (hsame ▸ hpc)

theorem oneOperation_step_iff (h : OneOperation s) (hun : Unprepared s) {a : Action}
    (hs : step s a = some t) : OneOperation t ↔ Exclusive s a := by
  rcases step_cases hs with ⟨hfewer, hexcl⟩ | ⟨hpc, -, hout, hsends, hexcl⟩ | ⟨rfl, -, hout, hsends⟩
  · exact iff_of_true ⟨hfewer.outstanding.trans h.1, hfewer.sends.trans h.2⟩ hexcl
  · refine iff_of_true ⟨?_, by rw [hsends]; exact h.2⟩ hexcl
    rw [hout, hun hpc]
  · unfold OneOperation
    rw [hout, hsends]
    show _ ↔ s.sends = []
    rw [← List.length_eq_zero_iff]
    have hle := h.1
    omega

theorem always_oneOperation_iff (mCallback : Bool) (mIdentifier : Bytes) (as : List Action) :
    Always step OneOperation (connect mCallback mIdentifier) as ↔
      Along step Exclusive (connect mCallback mIdentifier) as :=
  always_iff_along (I := Unprepared) (fun _ _ _ h _ hs _ => unprepared_step h hs)
    (fun _ _ _ h ho hs => oneOperation_step_iff ho h hs) as (fun _ => rfl)
    ⟨Nat.zero_le _, Nat.zero_le _⟩

end Client

/-- **The rule is kept exactly when no second operation is started**, in every run of the server and
in every run of the client. -/
theorem single_operation_iff (setup : Server.Setup) (as : List Server.Action) (mCallback : Bool)
    (mIdentifier : Bytes) (bs : List Client.Action) :
    (Always Server.step Server.OneOperation (Server.waitForEvents setup) as ↔
      Along Server.step Server.Exclusive (Server.waitForEvents setup) as) ∧
    (Always Client.step Client.OneOperation (Client.connect mCallback mIdentifier) bs ↔
      Along Client.step Client.Exclusive (Client.connect mCallback mIdentifier) bs) :=
  ⟨Server.always_oneOperation_iff setup as,
    Client.always_oneOperation_iff mCallback mIdentifier bs⟩

/-- A server without a callback. -/
def Server.unheard : Server.Setup := { mCallback := false, hEvent := 0, incoming := 3, events := ∅ }

/-- **Two operations on one `OVERLAPPED`**: a send to a client whose receive is outstanding, and two
calls of `sendDataToServer`. -/
theorem second_operation :
    (∃ t, run Server.step (Server.waitForEvents Server.unheard)
      [.call (.addConnection 9 1 [97]), .call (.send [104] [97]), .wsaSend .pending] = some t ∧
      ¬ Server.OneOperation t) ∧
    ∃ t, run Client.step (Client.connect true [97])
      [.wsaRecv .pending, .call (.sendDataToServer [104]), .wsaSend .pending,
        .call (.sendDataToServer [104]), .wsaSend .pending] = some t ∧ ¬ Client.OneOperation t := by
  constructor
  · obtain ⟨t, ht, hmem, htwo⟩ := exists_run Server.step (Server.waitForEvents Server.unheard)
      [.call (.addConnection 9 1 [97]), .call (.send [104] [97]), .wsaSend .pending]
      (fun t => 0 ∈ Server.alive t ∧ t.operations 0 = 2) (by decide)
    refine ⟨t, ht, fun h => ?_⟩
    have hle := h 0 hmem
    omega
  · obtain ⟨t, ht, htwo⟩ := exists_run Client.step (Client.connect true [97])
      [.wsaRecv .pending, .call (.sendDataToServer [104]), .wsaSend .pending,
        .call (.sendDataToServer [104]), .wsaSend .pending] (fun t => t.sends.length = 2)
      (by decide)
    refine ⟨t, ht, fun h => ?_⟩
    have hle := h.2
    omega

end C11Http.Windows
