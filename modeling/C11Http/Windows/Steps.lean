import C11Http.Windows.Server

/-! # What the steps of the windows server do

What each action of `step` requires and makes of the server, and the parts of a step in terms of
plain updates: `back` and the calls of `send` and `broadcast` change the targets and the send under
way only (`Aside`), and a removal is nothing or the deletion of one registered connection (`drop`).
-/

namespace C11Http.Windows.Server

open C11Http.Lib.Run Connections

variable {s t : Server}

/-! ### The actions -/

/-- A step is an action of a server whose behaviour is not undefined yet. -/
theorem step_act {a : Action} (h : step s a = some t) : s.undefined = false ∧ s.act a = some t := by
  unfold step at h
  split_ifs at h with hundefined
  exact ⟨by simpa using hundefined, h⟩

/-- What a run comes to from undefined behaviour is undefined. -/
theorem defined_of_run {as : List Action} (h : run step s as = some t)
    (ht : t.undefined = false) : s.undefined = false := by
  cases as with
  | nil =>
    rw [run_nil, Option.some.injEq] at h
    rwa [h]
  | cons a as =>
    obtain ⟨u, hu, -⟩ := run_cons_some h
    exact (step_act hu).1

theorem step_call {c : Call} (h : step s (.call c) = some t) :
    s.Running ∧ Call.Fresh s c ∧ t = s.call c := by
  obtain ⟨-, h⟩ := step_act h
  simp only [act] at h
  split_ifs at h with hok
  cases h
  exact ⟨hok.1, hok.2, rfl⟩

theorem step_wsaSend {result : Started} (h : step s (.wsaSend result) = some t) :
    ∃ e, s.sending = some e ∧ t = s.use e.connection (s.wsaSend e result) := by
  obtain ⟨-, h⟩ := step_act h
  simp only [act] at h
  obtain ⟨e, he, rfl⟩ := Option.map_eq_some_iff.mp h
  exact ⟨e, he, rfl⟩

theorem step_returns {wsaRecv : Started} (h : step s (.returns wsaRecv) = some t) :
    s.sending = none ∧ ∃ f stack, s.stack = f :: stack ∧
      t = { s with stack := stack }.resume wsaRecv f := by
  obtain ⟨-, h⟩ := step_act h
  simp only [act] at h
  split at h
  · rename_i f stack hsending hstack
    cases h
    exact ⟨hsending, f, stack, hstack, rfl⟩
  · cases h

theorem step_throws {what : String} (h : step s (.throws what) = some t) :
    s.sending = none ∧ ∃ f stack, s.stack = f :: stack ∧
      t = { s with stack := stack }.unwind what f := by
  obtain ⟨-, h⟩ := step_act h
  simp only [act] at h
  split at h
  · rename_i f stack hsending hstack
    cases h
    exact ⟨hsending, f, stack, hstack, rfl⟩
  · cases h

theorem step_wait (h : step s .wait = some t) :
    s.Alone ∧ s.pc = .top ∧ (s.mHasBeenShutdown = true ∧ t = { s with pc := .returned } ∨
      s.mHasBeenShutdown = false ∧ t = s.getHandleArray) := by
  obtain ⟨-, h⟩ := step_act h
  simp only [act] at h
  split_ifs at h with hok hshut
  · cases h
    exact ⟨hok.1, hok.2, Or.inl ⟨hshut, rfl⟩⟩
  · cases h
    exact ⟨hok.1, hok.2, Or.inr ⟨by simpa using hshut, rfl⟩⟩

theorem step_ioCompletion (h : step s .ioCompletion = some t) :
    s.Alone ∧ (∃ handles, s.pc = .waiting handles) ∧
      (s.mHasBeenShutdown = true ∧ t = { s with pc := .top } ∨
        s.mHasBeenShutdown = false ∧ t = s.getHandleArray) := by
  obtain ⟨-, h⟩ := step_act h
  simp only [act] at h
  split at h
  · rename_i handles hpc
    split_ifs at h with halone hshut
    · cases h
      exact ⟨halone, ⟨handles, hpc⟩, Or.inl ⟨hshut, rfl⟩⟩
    · cases h
      exact ⟨halone, ⟨handles, hpc⟩, Or.inr ⟨by simpa using hshut, rfl⟩⟩
  · cases h

theorem step_waitFailed {error : ℕ} (h : step s (.waitFailed error) = some t) :
    s.Alone ∧ t = s.leave ("WSAWaitForMultipleEvents Error " ++ toString error) := by
  obtain ⟨-, h⟩ := step_act h
  simp only [act] at h
  split at h
  · split_ifs at h with halone
    cases h
    exact ⟨halone, rfl⟩
  · cases h

theorem step_signaled {i : ℕ} {result : Overlapped} {wsaRecv : Started} {accept : Accept}
    (h : step s (.signaled i result wsaRecv accept) = some t) :
    ∃ handles handleId, s.pc = .waiting handles ∧ handles[i]? = some handleId ∧ s.Alone ∧
      handleId ∈ s.events ∧ Accept.Fresh s accept ∧
      t = s.dispatch handleId result wsaRecv accept := by
  obtain ⟨-, h⟩ := step_act h
  simp only [act] at h
  split at h
  · rename_i handles hpc
    split at h
    · rename_i handleId hget
      split_ifs at h with hok
      cases h
      exact ⟨handles, handleId, hpc, hget, hok.1, hok.2.1, hok.2.2.2.2, rfl⟩
    · cases h
  · cases h

theorem step_dataSentToClient {number cbTransferred : ℕ}
    (h : step s (.dataSentToClient number cbTransferred) = some t) :
    (∃ handles, s.pc = .waiting handles) ∧ s.Alone ∧
      ∃ e, s.sends.find? (fun e => e.number == number) = some e ∧
        t = s.dataSentToClient e cbTransferred := by
  obtain ⟨-, h⟩ := step_act h
  simp only [act] at h
  split at h
  · rename_i handles e hpc hfind
    split_ifs at h with hok
    cases h
    exact ⟨⟨handles, hpc⟩, hok.1, e, hfind, rfl⟩
  · cases h

theorem step_registers {p : Ptr} {identifier : Bytes}
    (h : step s (.registers p identifier) = some t) :
    (∃ handles, s.pc = .waiting handles) ∧ s.Alone ∧ p ∈ s.informing ∧
      t = { s with informing := s.informing.erase p }.enroll p identifier := by
  obtain ⟨-, h⟩ := step_act h
  simp only [act] at h
  split at h
  · rename_i handles hpc
    split_ifs at h with hok
    cases h
    exact ⟨⟨handles, hpc⟩, hok.1, hok.2, rfl⟩
  · cases h

theorem step_receives {p : Ptr} (h : step s (.receives p) = some t) :
    p ∈ s.outstanding ∧ t = { s with
      outstanding := s.outstanding.erase p
      completed := s.completed ++ [p]
      signaled := insert (s.heap p).hEvent s.signaled } := by
  obtain ⟨-, h⟩ := step_act h
  simp only [act] at h
  split_ifs at h with hp
  cases h
  exact ⟨hp, rfl⟩

theorem step_connects (h : step s .connects = some t) :
    ∃ sckt, s.acceptEx = .outstanding sckt ∧
      t = { s with acceptEx := .completed sckt, signaled := insert s.hEvent s.signaled } := by
  obtain ⟨-, h⟩ := step_act h
  simp only [act] at h
  split at h
  · rename_i sckt hacc
    cases h
    exact ⟨sckt, hacc, rfl⟩
  · cases h

/-! ### Undefined behaviour -/

theorem use_mem {p : Ptr} (hp : p ∈ s.mConnections.mContainer) (t : Server) : s.use p t = t :=
  if_pos hp

theorem use_deleted {p : Ptr} (hp : p ∉ s.mConnections.mContainer) (t : Server) :
    s.use p t = s.crash := if_neg hp

/-- What holds of undefined behaviour, and with a connection that still exists of how the server
goes on, holds behind the use of a connection. -/
theorem use_rule {P : Server → Prop} {p : Ptr} (hcrash : P s.crash)
    (ht : p ∈ s.mConnections.mContainer → P t) : P (s.use p t) := by
  unfold use
  split_ifs with hp
  · exact ht hp
  · exact hcrash

/-! ### Sends -/

/-- Only the targets and the send under way are different. -/
def Aside (s t : Server) : Prop :=
  ∃ targets sending, t = { s with targets := targets, sending := sending }

theorem aside_beginSend (s : Server) (data : Bytes) (p : Ptr) (caller : Caller) :
    Aside s (s.beginSend data p caller) := ⟨_, _, rfl⟩

theorem aside_sendEach (s : Server) (data : Bytes) : ∀ ps : List Ptr, Aside s (s.sendEach data ps)
  | [] => ⟨_, _, rfl⟩
  | _ :: _ => ⟨_, _, rfl⟩

theorem aside_send (s : Server) (data identifier : Bytes) :
    Aside s (s.call (.send data identifier)) := by
  simp only [call, send]
  split
  · exact ⟨_, _, rfl⟩
  · exact aside_beginSend s _ _ _

theorem aside_broadcast (s : Server) (data : Bytes) : Aside s (s.call (.broadcast data)) :=
  aside_sendEach s data _

theorem aside_back (s : Server) : ∀ caller : Caller, Aside s (s.back caller)
  | .send _ => ⟨_, _, rfl⟩
  | .broadcast data rest => aside_sendEach s data rest

/-! ### Removals -/

/-- A registered connection is removed and deleted. -/
def drop (s : Server) (p : Ptr) : Server :=
  s.forget ({ mContainer := s.mConnections.mContainer.erase p
              mMapping := Function.update s.mConnections.mMapping (s.heap p).mIdentifier none },
    some p)

/-- A removal by handle. -/
theorem removeServerConnection_cases (h : Sound s.heap s.mConnections) (handle : Handle) :
    (∀ p ∈ s.mConnections.mContainer, (s.heap p).hEvent ≠ handle) ∧
        s.removeServerConnection handle = s ∨
      ∃ p ∈ s.mConnections.mContainer, (s.heap p).hEvent = handle ∧
        s.removeServerConnection handle = s.drop p := by
  unfold removeServerConnection
  by_cases hno : ∀ p ∈ s.mConnections.mContainer, (s.heap p).hEvent ≠ handle
  · rw [removeServerConnection_none hno]
    exact Or.inl ⟨hno, rfl⟩
  · push Not at hno
    obtain ⟨p, hp, rfl⟩ := hno
    rw [removeServerConnection_mem h.distinct hp]
    exact Or.inr ⟨p, hp, rfl, rfl⟩

/-- A removal by identifier. -/
theorem removeServerConnectionById_cases (h : Sound s.heap s.mConnections) (identifier : Bytes) :
    s.mConnections.mMapping identifier = none ∧ s.removeServerConnectionById identifier = s ∨
      ∃ p, s.mConnections.mMapping identifier = some p ∧
        s.removeServerConnectionById identifier = s.drop p := by
  unfold removeServerConnectionById
  cases hm : s.mConnections.mMapping identifier with
  | none =>
    refine Or.inl ⟨rfl, ?_⟩
    unfold Connections.removeServerConnectionById
    rw [hm]
    rfl
  | some p =>
    refine Or.inr ⟨p, rfl, ?_⟩
    obtain ⟨-, hid⟩ := h.mapped identifier p hm
    rw [h.removeById_some hm, ← hid]
    rfl

/-- What a deletion keeps, a removal by handle keeps. -/
theorem removeServerConnection_rule {P : Server → Prop} (h : Sound s.heap s.mConnections)
    (handle : Handle) (hs : P s) (hdrop : ∀ p ∈ s.mConnections.mContainer, P (s.drop p)) :
    P (s.removeServerConnection handle) := by
  rcases removeServerConnection_cases h handle with ⟨-, he⟩ | ⟨p, hp, -, he⟩
  · rw [he]
    exact hs
  · rw [he]
    exact hdrop p hp

/-- What a deletion keeps, a removal by identifier keeps. -/
theorem removeServerConnectionById_rule {P : Server → Prop} (h : Sound s.heap s.mConnections)
    (identifier : Bytes) (hs : P s) (hdrop : ∀ p ∈ s.mConnections.mContainer, P (s.drop p)) :
    P (s.removeServerConnectionById identifier) := by
  rcases removeServerConnectionById_cases h identifier with ⟨-, he⟩ | ⟨p, hp, he⟩
  · rw [he]
    exact hs
  · rw [he]
    exact hdrop p (h.mapped identifier p hp).1

/-- What holds before a shutdown and is kept by deletions holds behind it. -/
theorem shutdown_rule {P : Server → Prop} (hsound : ∀ u, P u → Sound u.heap u.mConnections)
    (hdrop : ∀ u p, P u → p ∈ u.mConnections.mContainer → P (u.drop p))
    (hsignal : ∀ u, P u → P { u with signaled := insert u.hEvent u.signaled })
    (h : P { s with mHasBeenShutdown := true }) : P s.shutdown := by
  have hfold : ∀ (ps : List Ptr) (u : Server), P u →
      P (ps.foldl (fun s p => s.removeServerConnection (s.heap p).hEvent) u) := by
    intro ps
    induction ps with
    | nil => exact fun u hu => hu
    | cons p ps ih =>
      intro u hu
      refine ih _ ?_
      exact removeServerConnection_rule (hsound u hu) (u.heap p).hEvent hu fun q hq =>
        hdrop u q hu hq
  exact hsignal _ (hfold _ _ h)

/-! ### Completions -/

/-- What holds behind the completion routine of a send: of the server without the send, if it has
been shut down; of undefined behaviour, for a deleted connection or without a target; and of the
server without the target, which the callback may have been told. -/
theorem dataSentToClient_rule {P : Server → Prop} {e : Send} {cbTransferred : ℕ}
    (hover : s.mHasBeenShutdown = true → P { s with sends := s.sends.erase e })
    (hdeleted : P { s with sends := s.sends.erase e }.crash) (hempty : P s.crash)
    (hpopped : s.mHasBeenShutdown = false → s.mCallback = false → ∀ target rest,
      s.targets = target :: rest → P (s.popTarget e rest))
    (hreported : s.mHasBeenShutdown = false → s.mCallback = true → ∀ target rest,
      s.targets = target :: rest →
        P ((s.popTarget e rest).invoke (.sendComplete e.number target cbTransferred)
          .completion)) :
    P (s.dataSentToClient e cbTransferred) := by
  refine use_rule hdeleted fun _ => ?_
  unfold complete
  by_cases hshut : s.mHasBeenShutdown = true
  · rw [if_pos hshut]
    exact hover hshut
  rw [if_neg hshut]
  have hserves : s.mHasBeenShutdown = false := by simpa using hshut
  cases htargets : s.targets with
  | nil => exact hempty
  | cons target rest =>
    by_cases hcb : s.mCallback = true
    · simp only [if_pos hcb]
      exact hreported hserves hcb target rest htargets
    · simp only [if_neg hcb]
      exact hpopped hserves (by simpa using hcb) target rest htargets

/-! ### Accepting -/

/-- What holds of undefined behaviour and of the server with its new object, refused or not, and is
kept by an exception and by a change of the incoming socket, holds behind the accept branch. -/
theorem addNewConnection_rule {P : Server → Prop} {a : Accept}
    (hcrash : P s.crash) (hleave : ∀ u what, P u → P (u.leave what))
    (hsocket : ∀ u sckt, P u → P { u with mIncomingSocket := some sckt })
    (haccept : ∀ u sckt, P u → P { u with acceptEx := .outstanding sckt })
    (hrefused : ∀ sckt hEvent, a.hEvent = .ok hEvent →
      P ((s.accepted sckt hEvent).record [.failed s.nextPtr]))
    (hinform : ∀ sckt hEvent, a.hEvent = .ok hEvent →
      P { s.accepted sckt hEvent with informing := s.informing ++ [s.nextPtr] }) :
    P (s.addNewConnection a) := by
  unfold addNewConnection
  split
  · exact hcrash
  · rename_i sckt _
    split
    · exact hcrash
    · rename_i hEvent hev
      split
      · exact hleave _ _ (hrefused sckt hEvent hev)
      · have hnew := hinform sckt hEvent hev
        cases a.prepared with
        | noSocket error => exact hleave _ _ hnew
        | noAcceptEx next => exact hleave _ _ (hsocket _ next hnew)
        | refused next => exact hleave _ _ (hsocket _ next hnew)
        | ok next => exact haccept _ next (hsocket _ next hnew)

end C11Http.Windows.Server
