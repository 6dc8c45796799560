import C11Http.Windows.Known

/-! # The receives of the windows server

Every connection is to have one receive at a time: the first one while it waits for its identifier
(`informing`), then one that is outstanding, or completed and not handled, or for which a callback
of the receive branch runs. `receives` counts them.

* `Receives`: no connection has more than one, and as long as no result of
  `WSAGetOverlappedResult` is dropped, none has fewer;
* `armed_iff`: at the top of the loop each registered connection has exactly one receive outstanding
  or completed, in a whole run, if and only if every result that the loop fetches is of some bytes,
  or of none where a callback is installed. The branches for a failed result and for no bytes
  without a callback neither remove the connection nor queue a receive. -/

namespace C11Http.Windows

/-- The connection for which a callback of the receive branch runs. -/
def Frame.receiver : Frame → Option Ptr
  | .receiveComplete connection => some connection
  | .disconnected connection _ => some connection
  | _ => none

theorem Frame.receiver_mem {f : Frame} {p : Ptr} (h : p ∈ f.receiver) : p ∈ f.connections := by
  cases f with
  | receiveComplete q => exact List.mem_singleton.mpr (Option.some.inj h).symm
  | disconnected q handleId => exact List.mem_singleton.mpr (Option.some.inj h).symm
  | completion => cases h
  | sendFailed q caller => cases h
  | sendComplete caller => cases h

/-- A result for which the loop removes the connection or queues the next receive. -/
def Overlapped.Handled (mCallback : Bool) : Overlapped → Prop
  | .failed => False
  | .bytes data => data.length = 0 → mCallback = true

namespace Server

open C11Http.Lib.Run Connections

variable {s t : Server} {good : Prop} {owed : List Ptr}

def receivers (s : Server) : List Ptr := s.stack.filterMap Frame.receiver

/-- The receives of a connection that are queued or in hand. -/
def receives (s : Server) (p : Ptr) : ℕ :=
  s.informing.count p + s.outstanding.count p + s.completed.count p + s.receivers.count p

/-- Every connection has one receive; the loop is about to queue one for those it owes it. Without
`good`, or when the loop has ended, some may have none. -/
structure Receives (good : Prop) (owed : List Ptr) (s : Server) : Prop where
  atMost : ∀ p ∈ alive s, s.receives p + owed.count p ≤ 1
  atLeast : good → s.pc ≠ .left → s.mHasBeenShutdown = false → ∀ p ∈ alive s,
    1 ≤ s.receives p + owed.count p

namespace Receives

theorem start (good : Prop) (setup : Setup) : Receives good [] (waitForEvents setup) where
  atMost _ h := by cases h
  atLeast _ _ _ _ h := by cases h

/-- The receives of the connections that are left alive are the same. -/
theorem same (h : Receives good owed s) (halive : ∀ p ∈ alive t, p ∈ alive s)
    (hcount : ∀ p ∈ alive t, t.receives p = s.receives p) (hpc : t.pc ≠ .left → s.pc ≠ .left)
    (hshut : t.mHasBeenShutdown = false → s.mHasBeenShutdown = false) : Receives good owed t where
  atMost p hp := by
    rw [hcount p hp]
    exact h.atMost p (halive p hp)
  atLeast hgood hleft hnot p hp := by
    rw [hcount p hp]
    exact h.atLeast hgood (hpc hleft) (hshut hnot) p (halive p hp)

/-- The loop will not queue what it owes. -/
theorem forgive (h : Receives good owed s)
    (hnot : good → s.pc ≠ .left → s.mHasBeenShutdown = false → ∀ p ∈ alive s, p ∉ owed) :
    Receives good [] s where
  atMost p hp := by
    have := h.atMost p hp
    rw [List.count_nil]
    omega
  atLeast hgood hleft hshut p hp := by
    have hle := h.atLeast hgood hleft hshut p hp
    rw [List.count_eq_zero_of_not_mem (hnot hgood hleft hshut p hp)] at hle
    exact hle

theorem aside (h : Receives good owed s) (ht : Aside s t) : Receives good owed t := by
  obtain ⟨targets, sending, rfl⟩ := ht
  exact { h with }

/-- An exception ends the duty to queue receives. -/
theorem leave (h : Receives good owed s) (what : String) : Receives good [] (s.leave what) := by
  have hsame : Receives good owed (s.leave what) :=
    h.same (fun _ hp => hp) (fun _ _ => rfl) (fun hne => absurd rfl hne) id
  exact hsame.forgive fun _ hne => absurd rfl hne

theorem crash (h : Receives good owed s) : Receives good [] s.crash := by
  have hsame : Receives good owed s.crash :=
    h.same (fun _ hp => hp) (fun _ _ => rfl) (fun hne => absurd rfl hne) id
  exact hsame.forgive fun _ hne => absurd rfl hne

/-- A callback of the receive branch has its receive in hand, and gives it back at its end. -/
theorem invoke {f : Frame} (h : Receives good (f.receiver.toList ++ owed) s) (e : Event) :
    Receives good owed (s.invoke e f) := by
  have hcount : ∀ p, (s.invoke e f).receives p = s.receives p + f.receiver.toList.count p := by
    intro p
    unfold receives receivers Server.invoke
    cases hf : f.receiver with
    | none => simp [hf]
    | some q =>
      simp only [List.filterMap_cons, hf, List.count_cons, Option.toList_some, List.count_nil]
      omega
  constructor
  · intro p hp
    have := h.atMost p hp
    rw [List.count_append] at this
    rw [hcount]
    omega
  · intro hgood hleft hshut p hp
    have := h.atLeast hgood hleft hshut p hp
    rw [List.count_append] at this
    rw [hcount]
    omega

theorem pop (h : Receives good owed s) {f : Frame} {stack : List Frame}
    (hs : s.stack = f :: stack) :
    Receives good (f.receiver.toList ++ owed) { s with stack := stack } := by
  have hcount : ∀ p, s.receives p =
      receives { s with stack := stack } p + f.receiver.toList.count p := by
    intro p
    unfold receives receivers
    rw [hs]
    cases hf : f.receiver with
    | none => simp [hf]
    | some q =>
      simp only [List.filterMap_cons, hf, List.count_cons, Option.toList_some, List.count_nil]
      omega
  constructor
  · intro p hp
    have := h.atMost p hp
    rw [hcount] at this
    rw [List.count_append]
    omega
  · intro hgood hleft hshut p hp
    have := h.atLeast hgood hleft hshut p hp
    rw [hcount] at this
    rw [List.count_append]
    omega

/-! ### Removals -/

/-- What is left after a deletion has the receives it had. -/
theorem drop (h : Receives good owed s) (hlive : Live s) (p : Ptr)
    (hp : p ∈ s.mConnections.mContainer) : Receives good owed (s.drop p) := by
  have hne : ∀ q ∈ alive (s.drop p), q ∈ alive s ∧ q ≠ p := by
    intro q hq
    rcases List.mem_append.mp hq with hmem | hmem
    · exact ⟨Live.registered_alive (List.mem_of_mem_erase hmem),
        ne_of_mem_of_not_mem hmem hlive.sound.distinct.nodup.not_mem_erase⟩
    · exact ⟨Live.informing_alive hmem, fun he => hlive.not_registered hmem (he ▸ hp)⟩
  refine h.same (fun q hq => (hne q hq).1) (fun q hq => ?_) id id
  have hfilter : ∀ ps : List Ptr, (ps.filter (· ≠ p)).count q = ps.count q := fun ps =>
    List.count_filter (by simpa using (hne q hq).2)
  show s.informing.count q + (s.outstanding.filter (· ≠ p)).count q +
    (s.completed.filter (· ≠ p)).count q + s.receivers.count q = s.receives q
  rw [hfilter, hfilter]
  rfl

theorem removeServerConnection (h : Receives good owed s) (hlive : Live s) (handle : Handle) :
    Receives good owed (s.removeServerConnection handle) :=
  removeServerConnection_rule hlive.sound handle h fun p hp => h.drop hlive p hp

theorem removeServerConnectionById (h : Receives good owed s) (hlive : Live s)
    (identifier : Bytes) : Receives good owed (s.removeServerConnectionById identifier) :=
  removeServerConnectionById_rule hlive.sound identifier h fun p hp => h.drop hlive p hp

theorem shutdown (h : Receives good owed s) (hlive : Live s) : Receives good owed s.shutdown := by
  obtain ⟨-, hreceives⟩ := shutdown_rule (s := s) (P := fun u => Live u ∧ Receives good owed u)
    (fun _ hu => hu.1.sound) (fun _ p hu hp => ⟨hu.1.drop hp, hu.2.drop hu.1 p hp⟩)
    (fun _ hu => ⟨{ hu.1 with }, { hu.2 with }⟩)
    ⟨{ hlive with }, h.same (fun _ hp => hp) (fun _ _ => rfl) id fun he => by cases he⟩
  exact hreceives

/-! ### New connections -/

/-- A new address has no receive. -/
theorem receives_nextPtr (hlive : Live s) (hknown : Known s) : s.receives s.nextPtr = 0 := by
  have hout : s.nextPtr ∉ s.outstanding := fun h => lt_irrefl _ (hknown.outstanding _ h).1
  have hcomp : s.nextPtr ∉ s.completed := fun h => lt_irrefl _ (hknown.completed _ h).1
  have hinf : s.nextPtr ∉ s.informing := fun h =>
    lt_irrefl _ (hlive.fresh _ (Live.informing_alive h))
  have hrecv : s.nextPtr ∉ s.receivers := by
    intro h
    obtain ⟨f, hf, hr⟩ := List.mem_filterMap.mp h
    exact lt_irrefl _ (hknown.frames f hf _ (Frame.receiver_mem hr)).1
  unfold receives
  rw [List.count_eq_zero_of_not_mem hout, List.count_eq_zero_of_not_mem hcomp,
    List.count_eq_zero_of_not_mem hinf, List.count_eq_zero_of_not_mem hrecv]

/-- A connection with its first receive is alive as well. -/
theorem add (h : Receives good [] s) {p : Ptr} (halive : ∀ q ∈ alive t, q = p ∨ q ∈ alive s)
    (hone : t.receives p = 1) (hcount : ∀ q ∈ alive s, q ≠ p → t.receives q = s.receives q)
    (hpc : t.pc ≠ .left → s.pc ≠ .left)
    (hshut : t.mHasBeenShutdown = false → s.mHasBeenShutdown = false) : Receives good [] t where
  atMost q hq := by
    rcases eq_or_ne q p with rfl | hne
    · exact hone.le
    · have hqs := (halive q hq).resolve_left hne
      rw [hcount q hqs hne]
      exact h.atMost q hqs
  atLeast hgood hleft hnot q hq := by
    rcases eq_or_ne q p with rfl | hne
    · exact hone.ge
    · have hqs := (halive q hq).resolve_left hne
      rw [hcount q hqs hne]
      exact h.atLeast hgood (hpc hleft) (hshut hnot) q hqs

theorem enrollNew (h : Receives good [] s) (hlive : Live s) (hknown : Known s) (mSocket : Socket)
    (hEvent : Handle) (identifier : Bytes) :
    Receives good [] ((s.newConnection mSocket hEvent).enroll s.nextPtr identifier) := by
  have hcount : ∀ q, ((s.newConnection mSocket hEvent).enroll s.nextPtr identifier).receives q =
      s.receives q + [s.nextPtr].count q := by
    intro q
    show s.informing.count q + (s.outstanding ++ [s.nextPtr]).count q + s.completed.count q +
      s.receivers.count q = s.receives q + _
    rw [List.count_append]
    unfold receives
    omega
  refine h.add (p := s.nextPtr) (fun q hq => Live.mem_alive_enroll.mp hq) ?_ ?_ id id
  · rw [hcount, receives_nextPtr hlive hknown, List.count_singleton_self]
  · intro q _ hne
    rw [hcount, List.count_singleton, if_neg (by simpa using hne.symm), Nat.add_zero]

/-- The first receive has completed and the next one is queued. -/
theorem enrollInforming (h : Receives good owed s) {p : Ptr} (hp : p ∈ s.informing)
    (identifier : Bytes) :
    Receives good owed ({ s with informing := s.informing.erase p }.enroll p identifier) := by
  refine h.same (fun q hq => ?_) (fun q _ => ?_) id id
  · rcases Live.mem_alive_enroll.mp hq with rfl | hq
    · exact Live.informing_alive hp
    · exact (List.erase_sublist.append_left _).subset hq
  · show (s.informing.erase p).count q + (s.outstanding ++ [p]).count q + s.completed.count q +
      s.receivers.count q = s.receives q
    have hpos : 0 < s.informing.count p := List.count_pos_iff.mpr hp
    rw [List.count_append, List.count_erase, List.count_singleton]
    unfold receives
    split_ifs with hpq
    · obtain rfl := beq_iff_eq.mp hpq
      omega
    · omega

theorem inform (h : Receives good [] s) (hlive : Live s) (hknown : Known s) (sckt : Socket)
    (hEvent : Handle) :
    Receives good [] { s.accepted sckt hEvent with informing := s.informing ++ [s.nextPtr] } := by
  have hcount : ∀ q, receives
      { s.accepted sckt hEvent with informing := s.informing ++ [s.nextPtr] } q =
        s.receives q + [s.nextPtr].count q := by
    intro q
    show (s.informing ++ [s.nextPtr]).count q + s.outstanding.count q + s.completed.count q +
      s.receivers.count q = s.receives q + _
    rw [List.count_append]
    unfold receives
    omega
  refine h.add (p := s.nextPtr) (fun q hq => ?_) ?_ ?_ id id
  · have hmem : q ∈ s.mConnections.mContainer ++ (s.informing ++ [s.nextPtr]) := hq
    simp only [List.mem_append, List.mem_singleton] at hmem
    rcases hmem with hmem | hmem | rfl
    · exact Or.inr (Live.registered_alive hmem)
    · exact Or.inr (Live.informing_alive hmem)
    · exact Or.inl rfl
  · rw [hcount, receives_nextPtr hlive hknown, List.count_singleton_self]
  · intro q _ hne
    rw [hcount, List.count_singleton, if_neg (by simpa using hne.symm), Nat.add_zero]

/-! ### Receiving -/

/-- A receive that is owed is queued. -/
theorem queueReceive {p : Ptr} (h : Receives good [p] s) (wsaRecv : Started) :
    Receives good [] (s.queueReceiveFromConnection p wsaRecv) := by
  have hset : ∀ t : Server, alive t = alive s → (∀ q, t.receives q = s.receives q + [p].count q) →
      t.pc = s.pc → t.mHasBeenShutdown = s.mHasBeenShutdown → Receives good [] t := by
    intro t halive hcount hpc hshut
    constructor
    · intro q hq
      rw [hcount]
      exact h.atMost q (halive ▸ hq)
    · intro hgood hleft hnot q hq
      rw [hcount]
      exact h.atLeast hgood (hpc ▸ hleft) (hshut ▸ hnot) q (halive ▸ hq)
  cases wsaRecv with
  | pending =>
    refine hset _ rfl (fun q => ?_) rfl rfl
    show s.informing.count q + (s.outstanding ++ [p]).count q + s.completed.count q +
      s.receivers.count q = s.receives q + _
    rw [List.count_append]
    unfold receives
    omega
  | immediate =>
    refine hset _ rfl (fun q => ?_) rfl rfl
    show s.informing.count q + s.outstanding.count q + (s.completed ++ [p]).count q +
      s.receivers.count q = s.receives q + _
    rw [List.count_append]
    unfold receives
    omega
  | failed error =>
    have hreset : Receives good [p]
        ({ s with signaled := s.signaled.erase (s.heap p).hEvent }.record [.failed p]) := { h with }
    exact hreset.leave _

theorem requeue {p : Ptr} (h : Receives good [p] s) (wsaRecv : Started) :
    Receives good [] (s.requeue p wsaRecv) := by
  unfold Server.requeue
  split_ifs with hshut
  · exact h.forgive fun _ _ hnot => by rw [hshut] at hnot; cases hnot
  · have htouch : Receives good [p] (s.touch p) := { h with }
    exact use_rule htouch.crash fun _ => htouch.queueReceive wsaRecv

/-- The receive of a registered connection is fetched. -/
theorem collect (h : Receives good [] s) (hlive : Live s) (hstack : s.stack = []) {p : Ptr}
    (hp : p ∈ s.mConnections.mContainer) :
    (s.collect p).receives p = 0 ∧ Receives good [p] (s.collect p) := by
  have hinf : s.informing.count p = 0 := List.count_eq_zero_of_not_mem fun hmem =>
    hlive.not_registered hmem hp
  have hrecv : s.receivers = [] := by
    unfold receivers
    rw [hstack]
    rfl
  have hcount : ∀ q, (s.collect p).receives q = s.informing.count q +
      (if p ∈ s.completed then s.outstanding else s.outstanding.erase p).count q +
      (s.completed.erase p).count q + s.receivers.count q := fun _ => rfl
  have hzero : (s.collect p).receives p = 0 := by
    have hle := h.atMost p (Live.registered_alive hp)
    rw [hcount, hrecv, hinf]
    unfold receives at hle
    rw [hrecv] at hle
    split_ifs with hmem
    · have hpos : 0 < s.completed.count p := List.count_pos_iff.mpr hmem
      rw [List.count_erase_self]
      simp only [List.count_nil] at hle ⊢
      omega
    · rw [List.count_erase_self, List.count_erase_self, List.count_eq_zero_of_not_mem hmem]
      simp only [List.count_nil] at hle ⊢
      omega
  have hother : ∀ q, q ≠ p → (s.collect p).receives q = s.receives q := by
    intro q hne
    rw [hcount, List.count_erase_of_ne hne]
    split_ifs
    · rfl
    · rw [List.count_erase_of_ne hne]
      rfl
  refine ⟨hzero, ⟨fun q hq => ?_, fun hgood hleft hshut q hq => ?_⟩⟩
  · rcases eq_or_ne q p with rfl | hne
    · rw [hzero, List.count_singleton_self]
    · rw [hother q hne, List.count_singleton, if_neg (by simpa using hne.symm)]
      exact h.atMost q hq
  · rcases eq_or_ne q p with rfl | hne
    · rw [hzero, List.count_singleton_self]
    · rw [hother q hne, List.count_singleton, if_neg (by simpa using hne.symm)]
      exact h.atLeast hgood hleft hshut q hq

/-! ### Steps -/

theorem call (h : Receives good [] s) (hlive : Live s) (hknown : Known s) (c : Call) :
    Receives good [] (s.call c) := by
  cases c with
  | send data identifier => exact h.aside (aside_send s data identifier)
  | broadcast data => exact h.aside (aside_broadcast s data)
  | shutdown => exact h.shutdown hlive
  | addConnection mSocket hEvent identifier =>
    exact h.enrollNew hlive hknown mSocket hEvent identifier

theorem wsaSend (h : Receives good [] s) (hlive : Live s) (e : Sending) (result : Started) :
    Receives good [] (s.wsaSend e result) := by
  have hstart : Receives good [] (s.start e) := { h with }
  have hfail : Receives good [] ((s.issue e).record [.failed e.connection]) := { h with }
  cases result with
  | pending => exact hstart.aside (aside_back _ _)
  | immediate =>
    unfold Server.wsaSend
    split_ifs
    · exact hstart.invoke (f := .sendComplete e.caller) _
    · exact hstart.aside (aside_back _ _)
  | failed error =>
    unfold Server.wsaSend
    simp only
    split_ifs
    · exact hfail.invoke (f := .sendFailed e.connection e.caller) _
    · exact (hfail.removeServerConnectionById { hlive with } _).aside (aside_back _ _)

theorem resume (h : Receives good [] s) (hlive : Live s) {f : Frame} {stack : List Frame}
    (hstack : s.stack = f :: stack) (wsaRecv : Started) :
    Receives good [] ({ s with stack := stack }.resume wsaRecv f) := by
  have hpop := h.pop hstack
  have hlive' := hlive.pop hstack
  cases f with
  | receiveComplete p => exact hpop.requeue wsaRecv
  | disconnected p handleId =>
    have hremoved := hpop.removeServerConnection hlive' handleId
    refine hremoved.forgive fun _ _ _ q hq hmem => ?_
    -- whatever has the handle is removed, so the connection is not alive
    obtain rfl : q = p := List.mem_singleton.mp hmem
    obtain ⟨-, hinf, hev⟩ := hlive.frames q handleId (hstack ▸ List.mem_cons_self)
    rcases removeServerConnection_cases hlive'.sound handleId with ⟨hno, he⟩ | ⟨r, hr, hrev, he⟩
    · rw [he] at hq
      rcases List.mem_append.mp hq with hq | hq
      · exact hno q hq hev
      · exact hinf hq
    · rw [he] at hq
      rcases List.mem_append.mp hq with hq | hq
      · obtain rfl := hlive'.sound.distinct.inj (List.mem_of_mem_erase hq) hr (hev.trans hrev.symm)
        exact hlive'.sound.distinct.nodup.not_mem_erase hq
      · exact hinf hq
  | completion => exact hpop
  | sendFailed p caller =>
    exact use_rule hpop.crash fun _ =>
      (hpop.removeServerConnectionById hlive' _).aside (aside_back _ _)
  | sendComplete caller => exact hpop.aside (aside_back _ _)

theorem unwind (h : Receives good [] s) {f : Frame} {stack : List Frame}
    (hstack : s.stack = f :: stack) (what : String) :
    Receives good [] ({ s with stack := stack }.unwind what f) := by
  have hpop := h.pop hstack
  cases f with
  | receiveComplete p => exact hpop.leave what
  | disconnected p handleId => exact hpop.leave what
  | completion => exact hpop.leave what
  | sendFailed p caller => exact hpop
  | sendComplete caller => exact hpop

theorem getHandleArray (h : Receives good [] s) (hpc : s.pc ≠ .left) :
    Receives good [] s.getHandleArray :=
  h.same (fun q hq => by
    rcases List.mem_append.mp hq with hq | hq
    · exact Live.registered_alive (mem_getHandleArray.mp hq)
    · exact Live.informing_alive hq) (fun _ _ => rfl) (fun _ => hpc) id

/-- **The receive branch** queues the next receive or hands it to a callback, unless it drops the
result. -/
theorem receiveBranch (h : Receives good [] s) (hlive : Live s) (hstack : s.stack = [])
    {handleId : Handle} {result : Overlapped}
    (hhandled : good → ∀ p, s.mConnections.getServerConnection s.heap handleId = .ok p →
      result.Handled s.mCallback) (wsaRecv : Started) :
    Receives good [] (s.receiveBranch handleId result wsaRecv) := by
  unfold Server.receiveBranch
  split
  · exact h.leave _
  · rename_i p hfind
    obtain ⟨-, hcollect⟩ := h.collect hlive hstack (getServerConnection_ok hfind).1
    cases result with
    | failed =>
      have hrecord : Receives good [p] ((s.collect p).record [.failed p]) := { hcollect with }
      exact hrecord.forgive fun hgood => (hhandled hgood p hfind).elim
    | bytes data =>
      simp only
      split_ifs with hcb hlen hlen
      · exact hcollect.invoke (f := .disconnected p handleId) _
      · exact hcollect.invoke (f := .receiveComplete p) _
      · exact hcollect.forgive fun hgood => absurd (hhandled hgood p hfind hlen) hcb
      · exact hcollect.requeue wsaRecv

theorem addNewConnection (h : Receives good [] s) (hlive : Live s) (hknown : Known s) (a : Accept) :
    Receives good [] (s.addNewConnection a) :=
  addNewConnection_rule h.crash (fun _ what hu => hu.leave what) (fun _ _ hu => { hu with })
    (fun _ _ hu => { hu with }) (fun _ _ _ => { h with })
    fun sckt hEvent _ => h.inform hlive hknown sckt hEvent

theorem dataSentToClient (h : Receives good [] s) (e : Send) (cbTransferred : ℕ) :
    Receives good [] (s.dataSentToClient e cbTransferred) := by
  have hpop : ∀ rest, Receives good [] (s.popTarget e rest) := fun rest => { h with }
  have hover : Receives good [] { s with sends := s.sends.erase e } := { h with }
  exact dataSentToClient_rule (fun _ => hover) hover.crash h.crash
    (fun _ _ _ rest _ => hpop rest)
    fun _ _ _ rest _ => (hpop rest).invoke (f := .completion) _

end Receives

/-- The results that the loop fetches are handled. -/
def Rearms (s : Server) : Action → Prop
  | .signaled i result _ _ => ∀ handles handleId p, s.pc = .waiting handles →
      handles[i]? = some handleId → s.mHasBeenShutdown = false → handleId ≠ s.hEvent →
      s.mConnections.getServerConnection s.heap handleId = .ok p → result.Handled s.mCallback
  | _ => True

/-- **A step** leaves each connection with its receive, if it handles the result it fetches. -/
theorem Receives.step (h : Receives good [] s) (hlive : Live s) (hknown : Known s) {a : Action}
    (hrearms : good → Rearms s a) (hs : Server.step s a = some t) : Receives good [] t := by
  cases a with
  | call c =>
    obtain ⟨-, -, rfl⟩ := step_call hs
    exact h.call hlive hknown c
  | wsaSend result =>
    obtain ⟨e, -, rfl⟩ := step_wsaSend hs
    exact use_rule h.crash fun _ => h.wsaSend hlive e result
  | returns wsaRecv =>
    obtain ⟨-, f, stack, hstack, rfl⟩ := step_returns hs
    exact h.resume hlive hstack wsaRecv
  | throws what =>
    obtain ⟨-, f, stack, hstack, rfl⟩ := step_throws hs
    exact h.unwind hstack what
  | wait =>
    obtain ⟨-, hpc, ⟨-, rfl⟩ | ⟨-, rfl⟩⟩ := step_wait hs
    · exact h.same (fun _ hp => hp) (fun _ _ => rfl) (fun _ hl => by rw [hl] at hpc; cases hpc) id
    · exact h.getHandleArray fun hl => by rw [hl] at hpc; cases hpc
  | ioCompletion =>
    obtain ⟨-, ⟨handles, hpc⟩, ⟨-, rfl⟩ | ⟨-, rfl⟩⟩ := step_ioCompletion hs
    · exact h.same (fun _ hp => hp) (fun _ _ => rfl) (fun _ hl => by rw [hl] at hpc; cases hpc) id
    · exact h.getHandleArray fun hl => by rw [hl] at hpc; cases hpc
  | waitFailed error =>
    obtain ⟨-, rfl⟩ := step_waitFailed hs
    exact h.leave _
  | signaled i result wsaRecv accept =>
    obtain ⟨handles, handleId, hpc, hget, halone, -, -, rfl⟩ := step_signaled hs
    have hleft : s.pc ≠ .left := fun hl => by rw [hl] at hpc; cases hpc
    have hmono : ∀ u : Server, alive u = alive s → (∀ p, u.receives p = s.receives p) →
        u.mHasBeenShutdown = s.mHasBeenShutdown → Receives good [] u := fun u halive hcount hshut =>
      h.same (fun _ hp => halive ▸ hp) (fun p _ => hcount p) (fun _ => hleft) fun hn => hshut ▸ hn
    unfold Server.dispatch
    split_ifs with hshut hown
    · exact hmono _ rfl (fun _ => rfl) rfl
    · have htake : Receives good [] { s.takeUp handleId with acceptEx := .idle } :=
        hmono _ rfl (fun _ => rfl) rfl
      exact htake.addNewConnection { hlive with } { hknown with } accept
    · have htake : Receives good [] (s.takeUp handleId) := hmono _ rfl (fun _ => rfl) rfl
      refine htake.receiveBranch { hlive with } halone.2 (fun hgood p hfind => ?_) wsaRecv
      exact hrearms hgood handles handleId p hpc hget (by simpa using hshut) hown hfind
  | dataSentToClient number cbTransferred =>
    obtain ⟨-, -, e, -, rfl⟩ := step_dataSentToClient hs
    exact h.dataSentToClient e cbTransferred
  | registers p identifier =>
    obtain ⟨-, -, hp, rfl⟩ := step_registers hs
    exact h.enrollInforming hp identifier
  | receives p =>
    obtain ⟨hp, rfl⟩ := step_receives hs
    refine h.same (fun _ hq => hq) (fun q _ => ?_) id id
    show s.informing.count q + (s.outstanding.erase p).count q + (s.completed ++ [p]).count q +
      s.receivers.count q = s.receives q
    have hpos : 0 < s.outstanding.count p := List.count_pos_iff.mpr hp
    rw [List.count_append, List.count_erase, List.count_singleton]
    unfold receives
    split_ifs with hpq
    · obtain rfl := beq_iff_eq.mp hpq
      omega
    · omega
  | connects =>
    obtain ⟨sckt, -, rfl⟩ := step_connects hs
    exact { h with }

/-! ### The top of the loop -/

/-- **At the top of the loop each registered connection has exactly one receive** that is
outstanding or has completed and not been handled. -/
def Armed (s : Server) : Prop := s.pc = .top → s.Alone → s.mHasBeenShutdown = false →
  ∀ p ∈ s.mConnections.mContainer, s.outstanding.count p + s.completed.count p = 1

theorem Receives.armed (h : Receives True [] s) (hlive : Live s) : Armed s := by
  intro hpc halone hshut p hp
  have halive := Live.registered_alive hp
  have hmost := h.atMost p halive
  have hleast := h.atLeast trivial (by rw [hpc]; decide) hshut p halive
  have hinf : s.informing.count p = 0 := List.count_eq_zero_of_not_mem fun hmem =>
    hlive.not_registered hmem hp
  have hrecv : s.receivers.count p = 0 := by
    unfold receivers
    rw [halone.2]
    rfl
  unfold receives at hmost hleast
  simp only [List.count_nil] at hmost hleast
  omega

/-- A result that is dropped leaves its connection without a receive. -/
theorem Receives.rearms (h : Receives True [] s) (hlive : Live s) {a : Action}
    (hs : Server.step s a = some t) (ht : Armed t) : Rearms s a := by
  cases a with
  | signaled i result wsaRecv accept =>
    intro handles handleId p hpc hget hshut hown hfind
    obtain ⟨handles', handleId', hpc', hget', halone, -, -, rfl⟩ := step_signaled hs
    obtain rfl : handles = handles' := by
      rw [hpc] at hpc'
      exact Pc.waiting.inj hpc'
    obtain rfl : handleId = handleId' := by
      rw [hget] at hget'
      exact Option.some.inj hget'
    have hp := (getServerConnection_ok hfind).1
    have hleft : s.pc ≠ .left := fun hl => by rw [hl] at hpc; cases hpc
    have htake : Receives True [] (s.takeUp handleId) :=
      h.same (fun _ hq => hq) (fun _ _ => rfl) (fun _ => hleft) id
    obtain ⟨hzero, -⟩ := htake.collect { hlive with } halone.2 hp
    have hfind' : (s.takeUp handleId).mConnections.getServerConnection (s.takeUp handleId).heap
      handleId = .ok p := hfind
    have hnone : ((s.takeUp handleId).collect p).outstanding.count p +
        ((s.takeUp handleId).collect p).completed.count p = 0 := by
      unfold receives at hzero
      omega
    unfold Server.dispatch at ht
    rw [if_neg (by simp [hshut]), if_neg hown] at ht
    unfold Server.receiveBranch at ht
    rw [hfind'] at ht
    cases result with
    | failed =>
      have hone := ht rfl halone hshut p hp
      exact absurd (hnone.symm.trans hone) (by decide)
    | bytes data =>
      intro hlen
      by_contra hcb
      have hcb' : ¬ (s.takeUp handleId).mCallback = true := hcb
      simp only at ht
      rw [if_neg hcb', if_pos hlen] at ht
      have hone := ht rfl halone hshut p hp
      exact absurd (hnone.symm.trans hone) (by decide)
  | _ => trivial

/-- **The registered connections keep a receive armed** in every state of a run if and only if every
result that the loop fetches is handled. -/
theorem armed_iff (setup : Setup) (as : List Action) :
    Always step Armed (waitForEvents setup) as ↔ Along step Rearms (waitForEvents setup) as :=
  always_iff_along (I := fun s => Live s ∧ Known s ∧ Receives True [] s)
    (fun _ _ _ h _ hs ht => ⟨h.1.step hs, h.2.1.step h.1 hs,
      h.2.2.step h.1 h.2.1 (fun _ => h.2.2.rearms h.1 hs ht) hs⟩)
    (fun _ _ _ h _ hs => ⟨h.2.2.rearms h.1 hs, fun hr =>
      (h.2.2.step h.1 h.2.1 (fun _ => hr) hs).armed (h.1.step hs)⟩)
    as ⟨Live.start setup, Known.start setup, Receives.start True setup⟩
    ((Receives.start True setup).armed (Live.start setup))

/-- A server without a callback. -/
def silent : Setup := { mCallback := false, hEvent := 0, incoming := 3, events := ∅ }

/-- **A client that is not heard again.** It has been registered, and `WSAGetOverlappedResult` fails
for its receive. -/
theorem deaf_after_failure : ∃ t, run step (waitForEvents silent)
    [.call (.addConnection 9 1 [97]), .wait, .receives 0,
      .signaled 1 .failed .pending ⟨.ok 2, .pending, .ok 5⟩] = some t ∧ ¬ Armed t := by
  obtain ⟨t, ht, hpc, halone, hshut, hp, hcount⟩ := exists_run step (waitForEvents silent)
    [.call (.addConnection 9 1 [97]), .wait, .receives 0,
      .signaled 1 .failed .pending ⟨.ok 2, .pending, .ok 5⟩]
    (fun t => t.pc = .top ∧ t.Alone ∧ t.mHasBeenShutdown = false ∧
      0 ∈ t.mConnections.mContainer ∧ t.outstanding.count 0 + t.completed.count 0 = 0) (by decide)
  refine ⟨t, ht, fun h => ?_⟩
  have hone := h hpc halone hshut 0 hp
  rw [hcount] at hone
  exact Nat.zero_ne_one hone

end Server

end C11Http.Windows
