import C11Http.Lib.Outbox
import C11Http.Posix.Calls

/-! # The outgoing queue of a connection of the posix server

`outbox p s` is the queue of the connection `p` as a `Lib.Outbox`: the bytes that wait, whether the
socket is watched, and the history of the queue, read off the trace. A call pushes its messages
(`outbox_call`), a `sendQueuedMessage` drains the queue (`outbox_handing_self`). -/

namespace C11Http.Posix

open C11Http.Lib Connections

/-- The history of the queue of a connection. -/
def entryFor (p : Ptr) : Event → Option (Entry UInt8)
  | .queued p' message => if p' = p then some (.queued message) else none
  | .handed p' buffer result => if p' = p then some (.handed buffer result) else none
  | _ => none

/-- The messages a call queues for a connection. -/
def Call.messages (c : Connections) (p : Ptr) : Call → List Bytes
  | .send data identifier => if c.mMapping identifier = some p then [data] else []
  | .broadcast data => List.replicate (c.mContainer.count p) data
  | .shutdown => []

namespace Server

def outbox (p : Ptr) (s : Server) : Outbox UInt8 :=
  { pending := (s.heap p).mOutgoingBytes
    watched := decide ((s.heap p).mSocket ∈ s.mMasterWrite)
    log := s.trace.filterMap (entryFor p) }

/-! ### Calls push -/

theorem outbox_sendConnection_self (s : Server) (data : Bytes) (p : Ptr) :
    outbox p (s.sendConnection data p) = (outbox p s).push data := by
  unfold outbox Outbox.push sendConnection
  simp [List.filterMap_append, entryFor]

theorem outbox_sendConnection_of_ne (s : Server) (data : Bytes) {p q : Ptr} (h : p ≠ q) :
    Outbox.Watching (outbox p s) (outbox p (s.sendConnection data q)) := by
  have hlog : [Event.queued q data].filterMap (entryFor p) = [] := by
    simp [entryFor, h.symm]
  refine ⟨?_, ?_, fun hw => ?_⟩
  · simp [outbox, sendConnection, Function.update_of_ne h]
  · simp only [outbox, sendConnection, List.filterMap_append, hlog, List.append_nil]
  · have hmem := of_decide_eq_true hw
    refine decide_eq_true ?_
    simp only [sendConnection, Function.update_of_ne h]
    exact Finset.mem_insert_of_mem hmem

theorem outbox_foldl_send (data : Bytes) (p : Ptr) : ∀ (ps : List Ptr) (s : Server),
    Outbox.Watching ((outbox p s).pushAll (List.replicate (ps.count p) data))
      (outbox p (ps.foldl (fun s q => s.sendConnection data q) s))
  | [], s => Outbox.Watching.refl _
  | q :: ps, s => by
    have hrest := outbox_foldl_send data p ps (s.sendConnection data q)
    rcases eq_or_ne q p with rfl | hne
    · rw [outbox_sendConnection_self] at hrest
      rw [List.count_cons_self, List.replicate_succ, Outbox.pushAll_cons]
      exact hrest
    · rw [List.count_cons_of_ne hne]
      exact ((outbox_sendConnection_of_ne s data hne.symm).pushAll _).trans hrest

/-- **A call pushes its messages.** -/
theorem outbox_call (p : Ptr) (s : Server) (c : Call) :
    Outbox.Watching ((outbox p s).pushAll (c.messages s.mConnections p)) (outbox p (s.call c)) := by
  cases c with
  | send data identifier =>
    show Outbox.Watching _ (outbox p (s.send data identifier).1)
    unfold send
    split
    · rename_i what hwhat
      have hnone : s.mConnections.mMapping identifier ≠ some p := by
        intro hp
        rw [getServerConnectionById_eq_ok.mpr hp] at hwhat
        cases hwhat
      simp only [Call.messages, if_neg hnone]
      exact Outbox.Watching.refl _
    · rename_i q hq
      have hmap := getServerConnectionById_eq_ok.mp hq
      rcases eq_or_ne q p with rfl | hne
      · have hpush : outbox q ((s.sendConnection data q).performWakeup) = (outbox q s).push data :=
          outbox_sendConnection_self s data q
        simp only [Call.messages, if_pos hmap, Outbox.pushAll_cons, Outbox.pushAll_nil]
        rw [hpush]
        exact Outbox.Watching.refl _
      · have hnone : s.mConnections.mMapping identifier ≠ some p := by
          rw [hmap]
          exact fun h => hne (Option.some.inj h)
        simp only [Call.messages, if_neg hnone]
        exact outbox_sendConnection_of_ne s data hne.symm
  | broadcast data => exact outbox_foldl_send data p _ s
  | shutdown =>
    have hlog : [Event.closed s.mConnectSocket].filterMap (entryFor p) = [] := rfl
    refine ⟨rfl, ?_, id⟩
    simp only [outbox, call, shutdown, performWakeup, List.filterMap_append, hlog, List.append_nil]
    rfl

theorem outbox_calls (p : Ptr) : ∀ (cs : List Call) (s : Server),
    Outbox.Watching ((outbox p s).pushAll (cs.flatMap (Call.messages s.mConnections p)))
      (outbox p (cs.foldl call s))
  | [], s => Outbox.Watching.refl _
  | c :: cs, s => by
    have hrest := outbox_calls p cs (s.call c)
    rw [(called_call s c).mConnections] at hrest
    rw [List.flatMap_cons, Outbox.pushAll_append]
    exact ((outbox_call p s c).pushAll _).trans hrest

/-- A callback pushes the messages of its calls. -/
theorem outbox_react (p : Ptr) (s : Server) (r : Reaction Call) :
    Outbox.Watching ((outbox p s).pushAll (r.calls.flatMap (Call.messages s.mConnections p)))
      (outbox p (s.react r)) := by
  have h := outbox_calls p r.calls s
  have hthrew : Outbox.Watching (outbox p (r.calls.foldl call s))
      (outbox p ((r.calls.foldl call s).record [.threw])) := by
    refine ⟨rfl, ?_, id⟩
    simp [outbox, record, List.filterMap_append, entryFor]
  unfold react
  cases r.outcome with
  | returns => exact h
  | runtimeError => exact h.trans hthrew
  | other => exact h.trans hthrew

/-! ### A write drains -/

theorem outbox_handing_self (p : Ptr) (s : Server) (result : ℤ) :
    outbox p (s.handing p result) =
      (outbox p s).drain (offered (s.heap p).mOutgoingBytes) result := by
  unfold outbox Outbox.drain handing
  simp [List.filterMap_append, entryFor, ServerConnection.sendQueuedMessage]

theorem outbox_handing_of_ne (s : Server) (result : ℤ) {p q : Ptr} (h : p ≠ q) :
    outbox p (s.handing q result) = outbox p s := by
  simp [outbox, handing, Function.update_of_ne h, List.filterMap_append, entryFor, h.symm]

end Server

end C11Http.Posix
