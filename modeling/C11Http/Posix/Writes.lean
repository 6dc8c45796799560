import C11Http.Posix.Branches
import C11Http.Posix.Order

/-! # Short and failed writes

Runs in which at most one message is queued between two write-ready events, and every `::send` takes
any part of what it is offered or fails. `Kept`: what `::send` has taken, followed by what waits, is
everything queued, and the socket is watched while something waits.

On both sides the queue is swapped out and forgotten whatever `::send` returns, and the socket is
unwatched behind the callback. So a run keeps every byte exactly if every write is complete and no
`sendComplete` that returns has queued anything (`writes_kept_iff`). The client moreover clears its
descriptor set when it enters `waitForEvents`. -/

namespace C11Http.Posix

open C11Http.Lib C11Http.Lib.Run Connections

namespace Server

/-- A call, or the write branch for a watched descriptor. -/
inductive WriteOp
  | call (c : Call)
  | write (i : Fd) (e : Writing)

def writeOp (s : Server) : WriteOp → Option Server
  | .call c => some (s.call c)
  | .write i e =>
    if s.pc ≠ .halted ∧ i ∈ s.mMasterWrite ∧ s.Writable i e then some (s.writeBranch i e) else none

/-- An operation after which at most one message has been queued for `p` since its last write. -/
def writeStep (p : Ptr) (s : Server) (o : WriteOp) : Option Server :=
  (writeOp s o).filter fun t => decide (Outbox.waiting (outbox p t).log ≤ 1)

/-- A write for `p` takes everything, and a `sendComplete` that returns queues nothing for it. -/
def KeepsBytes (p : Ptr) (s : Server) : WriteOp → Prop
  | .call _ => True
  | .write i e => s.mConnections.getServerConnection s.heap i = some p →
      e.result.toNat = (s.heap p).mOutgoingBytes.length ∧
        (s.mCallback = true → toInt (s.heap p).mOutgoingBytes.length = e.result →
          e.sendComplete.outcome = .returns →
            ∀ m ∈ e.sendComplete.calls.flatMap (Call.messages s.mConnections p), m = [])

instance (p : Ptr) (s : Server) (o : WriteOp) : Decidable (KeepsBytes p s o) := by
  cases o <;> unfold KeepsBytes <;> infer_instance

/-- The lookup of the socket of `p` finds `p`. -/
def Found (p : Ptr) (s : Server) : Prop :=
  s.mConnections.getServerConnection s.heap (s.heap p).mSocket = some p

instance (p : Ptr) (s : Server) : Decidable (Found p s) := by
  unfold Found; infer_instance

theorem found_of_alike {p : Ptr} {s t : Server} (h : Alike s t) (hs : Found p s) : Found p t := by
  have hfinder : ∀ sckt,
      serverConnectionFinder t.heap sckt = serverConnectionFinder s.heap sckt := by
    intro sckt
    funext q
    rw [serverConnectionFinder, serverConnectionFinder, h.mSocket]
  unfold Found getServerConnection at hs ⊢
  rw [h.mConnections, h.mSocket, hfinder]
  exact hs

theorem alike_handing (s : Server) (p : Ptr) (result : ℤ) : Alike s (s.handing p result) := by
  refine ⟨rfl, rfl, fun q => ?_⟩
  rcases eq_or_ne q p with rfl | hq
  · simp [handing]
  · simp [handing, Function.update_of_ne hq]

theorem alike_report (s : Server) (p : Ptr) (result : ℤ) (count : ℕ) (r : Reaction Call) :
    Alike s ((s.handing p result).report p count r) := by
  have hcall := called_react ((s.handing p result).record
    [.sendComplete p ((s.handing p result).heap p).mIdentifier count]) r
  exact (alike_handing s p result).trans ⟨hcall.mConnections, hcall.mCallback, hcall.mSocket⟩

theorem alike_writeBranch {s : Server} (hpc : s.pc ≠ .halted) (i : Fd) (e : Writing) :
    Alike s (s.writeBranch i e) := by
  have hhand := fun p => alike_handing s p e.result
  have hreport := fun p count => alike_report s p e.result count e.sendComplete
  apply writeBranch_rule (P := Alike s) hpc
  case unknown => exact fun _ => ⟨rfl, rfl, fun _ => rfl⟩
  case short => exact fun p _ _ => (hhand p).trans ⟨rfl, rfl, fun _ => rfl⟩
  case null => exact fun p _ _ _ _ => (hhand p).trans ⟨rfl, rfl, fun _ => rfl⟩
  case reported => exact fun p count _ _ _ _ => (hreport p count).trans ⟨rfl, rfl, fun _ => rfl⟩
  case escaped => exact fun p count _ _ _ _ => (hreport p count).trans ⟨rfl, rfl, fun _ => rfl⟩

theorem outbox_unwatch_self {p : Ptr} {s : Server} {i : Fd} (h : (s.heap p).mSocket = i) :
    outbox p (s.unwatch i) = (outbox p s).unwatch := by
  subst h
  simp [outbox, unwatch, Outbox.unwatch]

theorem outbox_unwatch_of_ne {p : Ptr} {s : Server} {i : Fd} (h : (s.heap p).mSocket ≠ i) :
    Outbox.Watching (outbox p s) (outbox p (s.unwatch i)) := by
  refine ⟨rfl, rfl, fun hw => decide_eq_true ?_⟩
  exact Finset.mem_erase.mpr ⟨h, of_decide_eq_true hw⟩

/-- What `sendComplete` leaves of the queue of `p` behind a write for `q`. -/
theorem outbox_report (p q : Ptr) (s : Server) (result : ℤ) (count : ℕ) (r : Reaction Call) :
    Outbox.Watching ((outbox p (s.handing q result)).pushAll
        (r.calls.flatMap (Call.messages s.mConnections p)))
      (outbox p ((s.handing q result).report q count r)) := by
  have hrec : Outbox.Watching (outbox p (s.handing q result)) (outbox p ((s.handing q result).record
      [.sendComplete q ((s.handing q result).heap q).mIdentifier count])) := by
    refine ⟨rfl, ?_, id⟩
    simp [outbox, record, List.filterMap_append, entryFor]
  exact (hrec.pushAll _).trans (outbox_react p _ r)

/-- **A write for another connection** pushes the messages its `sendComplete` queues for `p`. -/
theorem outbox_writeBranch_of_ne {p : Ptr} {s : Server} (hpc : s.pc ≠ .halted) (hfound : Found p s)
    {i : Fd} (hi : s.mConnections.getServerConnection s.heap i ≠ some p) (e : Writing) :
    ∃ ms, Outbox.Watching ((outbox p s).pushAll ms) (outbox p (s.writeBranch i e)) := by
  have hsock : (s.heap p).mSocket ≠ i := by
    rintro rfl
    exact hi hfound
  have hne : ∀ q, s.mConnections.getServerConnection s.heap i = some q → p ≠ q := by
    rintro q hq rfl
    exact hi hq
  -- behind a write for `q`, and behind its report
  have hhand : ∀ q, p ≠ q → outbox p (s.handing q e.result) = outbox p s :=
    fun q hq => outbox_handing_of_ne s e.result hq
  have hreport : ∀ q count, p ≠ q → Outbox.Watching
      ((outbox p s).pushAll (e.sendComplete.calls.flatMap (Call.messages s.mConnections p)))
      (outbox p ((s.handing q e.result).report q count e.sendComplete)) := by
    intro q count hq
    have h := outbox_report p q s e.result count e.sendComplete
    rwa [hhand q hq] at h
  have hun : ∀ u : Server, Alike s u → Outbox.Watching (outbox p u) (outbox p (u.unwatch i)) :=
    fun u hu => outbox_unwatch_of_ne (by rw [hu.mSocket]; exact hsock)
  apply writeBranch_rule
    (P := fun t => ∃ ms, Outbox.Watching ((outbox p s).pushAll ms) (outbox p t)) hpc
  case unknown => exact fun _ => ⟨[], hun s ⟨rfl, rfl, fun _ => rfl⟩⟩
  case short =>
    intro q hq _
    have h := hun _ (alike_handing s q e.result)
    rw [hhand q (hne q hq)] at h
    exact ⟨[], h⟩
  case null =>
    intro q count hq _ _
    refine ⟨[], ?_⟩
    rw [Outbox.pushAll_nil, ← hhand q (hne q hq)]
    exact ⟨rfl, rfl, id⟩
  case reported =>
    exact fun q count hq _ _ _ => ⟨_, (hreport q count (hne q hq)).trans
      (hun _ (alike_report s q e.result count e.sendComplete))⟩
  case escaped =>
    exact fun q count hq _ _ _ => ⟨_, (hreport q count (hne q hq)).trans ⟨rfl, rfl, id⟩⟩

/-- What has been taken is everything exactly when the result says so. -/
theorem taken_eq_iff {s : Server} {p : Ptr} {i : Fd} {e : Writing} (hw : s.Writable i e)
    (hp : s.mConnections.getServerConnection s.heap i = some p) :
    taken (offered (s.heap p).mOutgoingBytes) e.result = (outbox p s).pending ↔
      e.result.toNat = (s.heap p).mOutgoingBytes.length := by
  unfold Writable at hw
  rw [hp] at hw
  exact taken_offered_eq_iff hw

/-- **A write for `p`** keeps its bytes exactly when it is complete and, if the callback returns,
nothing has been queued meanwhile. -/
theorem writeBranch_kept_iff {p : Ptr} {s : Server} (hpc : s.pc ≠ .halted) {i : Fd} {e : Writing}
    (hp : s.mConnections.getServerConnection s.heap i = some p) (hw : s.Writable i e)
    (hs : (outbox p s).Kept taken) (hone : Outbox.waiting (outbox p (s.writeBranch i e)).log ≤ 1) :
    ((outbox p (s.writeBranch i e)).Kept taken ↔ KeepsBytes p s (.write i e)) ∧
      (outbox p (s.writeBranch i e)).Settled := by
  obtain ⟨-, rfl⟩ := getServerConnection_some hp
  have hsame : ∀ q, s.mConnections.getServerConnection s.heap (s.heap p).mSocket = some q →
      q = p := fun q hq => Option.some.inj (hq.symm.trans hp)
  have htaken := taken_eq_iff hw hp
  have hhand := outbox_handing_self p s e.result
  have hun : ∀ u : Server, Alike s u →
      outbox p (u.unwatch (s.heap p).mSocket) = (outbox p u).unwatch :=
    fun u hu => outbox_unwatch_self (hu.mSocket p)
  have hkeeps : KeepsBytes p s (.write (s.heap p).mSocket e) ↔
      e.result.toNat = (s.heap p).mOutgoingBytes.length ∧
        (s.mCallback = true → toInt (s.heap p).mOutgoingBytes.length = e.result →
          e.sendComplete.outcome = .returns →
            ∀ m ∈ e.sendComplete.calls.flatMap (Call.messages s.mConnections p), m = []) :=
    ⟨fun h => h hp, fun h _ => h⟩
  rw [hkeeps, ← htaken]
  revert hone
  apply writeBranch_rule (P := fun t => Outbox.waiting (outbox p t).log ≤ 1 →
    ((outbox p t).Kept taken ↔ taken (offered (s.heap p).mOutgoingBytes) e.result =
        (outbox p s).pending ∧
      (s.mCallback = true → toInt (s.heap p).mOutgoingBytes.length = e.result →
        e.sendComplete.outcome = .returns →
          ∀ m ∈ e.sendComplete.calls.flatMap (Call.messages s.mConnections p), m = [])) ∧
      (outbox p t).Settled) hpc
  case unknown =>
    intro hnone
    rw [hp] at hnone
    cases hnone
  case short =>
    intro q hq hc hone
    obtain rfl := hsame q hq
    rw [hun _ (alike_handing s q e.result), hhand] at hone ⊢
    refine ⟨?_, Outbox.drain_settled _ _ _⟩
    have hne := ServerConnection.sendQueuedMessage_none hc
    have hnil : Outbox.waiting (((outbox q s).drain (offered (s.heap q).mOutgoingBytes)
        e.result).pushAll []).log ≤ 1 := hone
    refine (Outbox.write_kept_iff hs _ _ hnil).trans (and_congr_right fun _ => ?_)
    exact iff_of_true (fun m hm => absurd hm (List.not_mem_nil)) fun _ heq => absurd heq hne
  case null =>
    intro q count hq _ hnull hone
    obtain rfl := hsame q hq
    have hhalt : outbox q (s.handing q e.result).halt =
        (outbox q s).drain (offered (s.heap q).mOutgoingBytes) e.result := hhand
    rw [hhalt] at hone ⊢
    refine ⟨?_, Outbox.drain_settled _ _ _⟩
    have hnil : Outbox.waiting (((outbox q s).drain (offered (s.heap q).mOutgoingBytes)
        e.result).pushAll []).log ≤ 1 := hone
    refine (Outbox.drain_kept_iff hs _ _ hnil (Outbox.Watching.refl _)).trans
      (and_iff_left ?_).symm
    exact fun hcb => absurd (hnull.symm.trans hcb) Bool.false_ne_true
  case reported =>
    intro q count hq hc hcb ho hone
    obtain rfl := hsame q hq
    have hwatch := outbox_report q q s e.result count e.sendComplete
    rw [hhand] at hwatch
    rw [hun _ (alike_report s q e.result count e.sendComplete)] at hone ⊢
    have hsettled := hwatch.settled (Outbox.pushAll_settled (Outbox.drain_settled _ _ _) _)
    have hlog : Outbox.waiting (((outbox q s).drain (offered (s.heap q).mOutgoingBytes)
        e.result).pushAll (e.sendComplete.calls.flatMap
          (Call.messages s.mConnections q))).log ≤ 1 := by
      rw [← hwatch.log]
      exact hone
    refine ⟨?_, hsettled⟩
    rw [hwatch.unwatch]
    refine (Outbox.write_kept_iff hs _ _ hlog).trans (and_congr_right fun _ => ?_)
    have heq := ServerConnection.sendQueuedMessage_some hc
    exact ⟨fun hall _ _ _ => hall, fun hall => hall hcb heq ho⟩
  case escaped =>
    intro q count hq hc hcb ho hone
    obtain rfl := hsame q hq
    have hwatch := outbox_report q q s e.result count e.sendComplete
    rw [hhand] at hwatch
    have hhalt : Outbox.Watching (outbox q ((s.handing q e.result).report q count e.sendComplete))
        (outbox q ((s.handing q e.result).report q count e.sendComplete).halt) := ⟨rfl, rfl, id⟩
    have hall := hwatch.trans hhalt
    refine ⟨?_, hall.settled (Outbox.pushAll_settled (Outbox.drain_settled _ _ _) _)⟩
    rw [hall.log] at hone
    rw [Outbox.drain_kept_iff hs _ _ hone hall]
    exact (and_iff_left fun _ _ hret => absurd hret ho).symm

theorem writeStep_some {p : Ptr} {s t : Server} {o : WriteOp} (h : writeStep p s o = some t) :
    writeOp s o = some t ∧ Outbox.waiting (outbox p t).log ≤ 1 := by
  obtain ⟨ht, hone⟩ := Option.filter_eq_some_iff.mp h
  exact ⟨ht, of_decide_eq_true hone⟩

/-- **One operation**: it keeps the bytes of `p` exactly when the condition holds of it. -/
theorem writeStep_kept_iff {p : Ptr} {s t : Server} {o : WriteOp} (hfound : Found p s)
    (hsettled : (outbox p s).Settled) (hs : (outbox p s).Kept taken)
    (h : writeStep p s o = some t) :
    ((outbox p t).Kept taken ↔ KeepsBytes p s o) ∧ (outbox p t).Settled ∧ Found p t := by
  obtain ⟨ht, hone⟩ := writeStep_some h
  -- what only pushes messages for `p` keeps everything
  have hpush : ∀ ms, Outbox.Watching ((outbox p s).pushAll ms) (outbox p t) →
      (outbox p t).Kept taken ∧ (outbox p t).Settled := by
    intro ms hw
    rw [hw.log] at hone
    exact ⟨hw.kept (Outbox.pushAll_kept hs hsettled hone),
      hw.settled (Outbox.pushAll_settled hsettled ms)⟩
  cases o with
  | call c =>
    cases ht
    obtain ⟨hk, hset⟩ := hpush _ (outbox_call p s c)
    exact ⟨iff_of_true hk trivial, hset, found_of_alike (.of_called (called_call s c)) hfound⟩
  | write i e =>
    simp only [writeOp] at ht
    split_ifs at ht with hguard
    cases ht
    obtain ⟨hpc, -, hw⟩ := hguard
    have hfound' := found_of_alike (alike_writeBranch hpc i e) hfound
    by_cases hp : s.mConnections.getServerConnection s.heap i = some p
    · obtain ⟨hiff, hset⟩ := writeBranch_kept_iff hpc hp hw hs hone
      exact ⟨hiff, hset, hfound'⟩
    · obtain ⟨ms, hwatch⟩ := outbox_writeBranch_of_ne hpc hfound hp e
      obtain ⟨hk, hset⟩ := hpush ms hwatch
      exact ⟨iff_of_true hk fun h => absurd h hp, hset, hfound'⟩

theorem NewQueue.kept {p : Ptr} {s : Server} (h : NewQueue p s) : (outbox p s).Kept taken :=
  ⟨h.inOrder taken, fun hne => absurd h.1 hne⟩

theorem writeRun_kept_iff {p : Ptr} {s : Server} (hnew : NewQueue p s) (hfound : Found p s)
    (ops : List WriteOp) :
    Always (writeStep p) (fun s => (outbox p s).Kept taken) s ops ↔
      Along (writeStep p) (KeepsBytes p) s ops :=
  always_iff_along (I := fun s => (outbox p s).Settled ∧ Found p s)
    (fun _ _ _ hI hP ht _ => (writeStep_kept_iff hI.2 hI.1 hP ht).2)
    (fun _ _ _ hI hP ht => (writeStep_kept_iff hI.2 hI.1 hP ht).1) ops
    ⟨fun _ => hnew.1, hfound⟩ hnew.kept

end Server

namespace Client

/-- An action after which at most one message has been queued since the last write. -/
def writeStep (c : Client) (a : Action) : Option Client :=
  (step c a).filter fun d => decide (Outbox.waiting d.outbox.log ≤ 1)

/-- The write branch is next, and the socket is ready. -/
def Flushing (c : Client) : Prop :=
  match c.pc with
  | .write writeFds => c.mSocket ∈ writeFds
  | _ => False

instance (c : Client) : Decidable c.Flushing := by
  unfold Flushing
  cases c.pc <;> infer_instance

/-- A write takes everything, and a `sendComplete` that returns queues nothing; nothing waits when
`waitForEvents` is entered. -/
def KeepsBytes (c : Client) : Action → Prop
  | .waitForEvents => c.mOutgoingBytes = []
  | .write result sendComplete => c.Flushing →
      result.toNat = c.mOutgoingBytes.length ∧
        (c.mCallback = true → sendComplete.outcome = .returns →
          ∀ m ∈ sendComplete.calls.flatMap messages, m = [])
  | _ => True

instance (c : Client) (a : Action) : Decidable (KeepsBytes c a) := by
  cases a <;> unfold KeepsBytes <;> infer_instance

theorem outbox_goto (c : Client) (pc : ClientPc) : (c.goto pc).outbox = c.outbox := by
  unfold goto
  split <;> rfl

theorem outbox_unwatch (c : Client) : c.unwatch.outbox = c.outbox.unwatch := by
  simp [outbox, unwatch, Outbox.unwatch]

theorem outbox_report (c : Client) (count : ℕ) (r : Reaction ClientCall) :
    Outbox.Watching (c.outbox.pushAll (r.calls.flatMap messages)) (c.report count r).outbox := by
  have hrecord : Outbox.Watching c.outbox (c.record [.sendComplete c.mIdentifier count]).outbox :=
    outbox_record rfl
  exact (hrecord.pushAll _).trans (outbox_react _ r)

theorem outbox_deliver (c : Client) (data : Bytes) (r : Reaction ClientCall) :
    Outbox.Watching (c.outbox.pushAll (r.calls.flatMap messages)) (c.deliver data r).outbox := by
  have hrecord : Outbox.Watching c.outbox (c.record [.receiveComplete c.mIdentifier data]).outbox :=
    outbox_record rfl
  exact (hrecord.pushAll _).trans (outbox_react _ r)

/-- The read branch pushes the messages that `receiveComplete` queues. -/
theorem outbox_readBranch (c : Client) (recv : Recv) (receiveComplete : Reaction ClientCall) :
    ∃ ms, Outbox.Watching (c.outbox.pushAll ms) (c.readBranch recv receiveComplete).outbox := by
  have hrecv : Outbox.Watching c.outbox (c.record [.received recv.data]).outbox :=
    outbox_record rfl
  unfold readBranch
  rcases recv with strerror | data
  · exact ⟨[], hrecv.trans (outbox_record rfl)⟩
  · by_cases hlen : data.length = 0
    · simp only [if_pos hlen]
      exact ⟨[], hrecv.trans ⟨rfl, rfl, id⟩⟩
    · simp only [if_neg hlen]
      by_cases hcb : (c.record [.received (Recv.bytes data).data]).mCallback = true
      · have hdeliver := (hrecv.pushAll _).trans
          (outbox_deliver (c.record [.received (Recv.bytes data).data]) data receiveComplete)
        simp only [if_pos hcb]
        cases receiveComplete.outcome with
        | returns => exact ⟨_, hdeliver⟩
        | runtimeError => exact ⟨_, hdeliver.trans ⟨rfl, rfl, id⟩⟩
        | other => exact ⟨_, hdeliver.trans ⟨rfl, rfl, id⟩⟩
      · simp only [if_neg hcb]
        exact ⟨[], hrecv⟩

/-- **A write** keeps the bytes exactly when it is complete and, if the callback returns, nothing
has been queued meanwhile. -/
theorem writeBranch_kept_iff {c : Client} {result : ℤ} {sendComplete : Reaction ClientCall}
    (hw : SendResult (offered c.mOutgoingBytes) result) (hc : c.outbox.Kept taken)
    (hone : Outbox.waiting (c.writeBranch result sendComplete).outbox.log ≤ 1) :
    ((c.writeBranch result sendComplete).outbox.Kept taken ↔
      result.toNat = c.mOutgoingBytes.length ∧
        (c.mCallback = true → sendComplete.outcome = .returns →
          ∀ m ∈ sendComplete.calls.flatMap messages, m = [])) ∧
      (c.writeBranch result sendComplete).outbox.Settled := by
  have htaken : taken (offered c.mOutgoingBytes) result = c.outbox.pending ↔
      result.toNat = c.mOutgoingBytes.length := taken_offered_eq_iff hw
  have hwatch := outbox_report (c.handing result) (expected c.mOutgoingBytes) sendComplete
  rw [outbox_handing] at hwatch
  have hdrain := Outbox.drain_settled c.outbox (offered c.mOutgoingBytes) result
  have hsettled := hwatch.settled (Outbox.pushAll_settled hdrain _)
  rw [← htaken]
  unfold writeBranch at hone ⊢
  by_cases hcb : c.mCallback = true
  · simp only [if_pos hcb] at hone ⊢
    -- an exception leaves the loop before the socket is unwatched
    have hleft : ∀ u : Client, Outbox.Watching u.outbox u.leave.outbox := fun u => ⟨rfl, rfl, id⟩
    have hescape : sendComplete.outcome ≠ .returns → Outbox.waiting ((c.handing result).report
        (expected c.mOutgoingBytes) sendComplete).leave.outbox.log ≤ 1 →
        (((c.handing result).report (expected c.mOutgoingBytes)
            sendComplete).leave.outbox.Kept taken ↔
          taken (offered c.mOutgoingBytes) result = c.outbox.pending ∧
            (c.mCallback = true → sendComplete.outcome = .returns →
              ∀ m ∈ sendComplete.calls.flatMap messages, m = [])) ∧
          ((c.handing result).report (expected c.mOutgoingBytes)
            sendComplete).leave.outbox.Settled := by
      intro ho hone
      have hall := hwatch.trans (hleft _)
      rw [hall.log] at hone
      refine ⟨?_, hall.settled (Outbox.pushAll_settled hdrain _)⟩
      rw [Outbox.drain_kept_iff hc _ _ hone hall]
      exact (and_iff_left fun _ hret => absurd hret ho).symm
    cases ho : sendComplete.outcome with
    | returns =>
      simp only [ho] at hone
      rw [outbox_unwatch] at hone ⊢
      refine ⟨?_, hsettled⟩
      have hlog : Outbox.waiting ((c.outbox.drain (offered c.mOutgoingBytes) result).pushAll
          (sendComplete.calls.flatMap messages)).log ≤ 1 := by
        rw [← hwatch.log]
        exact hone
      rw [hwatch.unwatch]
      refine (Outbox.write_kept_iff hc _ _ hlog).trans (and_congr_right fun _ => ?_)
      exact ⟨fun hall _ _ => hall, fun hall => hall hcb rfl⟩
    | runtimeError =>
      simp only [ho] at hone hescape
      exact hescape (by decide) hone
    | other =>
      simp only [ho] at hone hescape
      exact hescape (by decide) hone
  · simp only [if_neg hcb] at hone ⊢
    rw [outbox_unwatch, outbox_handing] at hone ⊢
    refine ⟨?_, hdrain⟩
    have hnil : Outbox.waiting ((c.outbox.drain (offered c.mOutgoingBytes) result).pushAll
        []).log ≤ 1 := hone
    refine (Outbox.write_kept_iff hc _ _ hnil).trans (and_congr_right fun _ => ?_)
    exact iff_of_true (fun m hm => absurd hm List.not_mem_nil) fun h => absurd h hcb

theorem writeStep_some {c d : Client} {a : Action} (h : writeStep c a = some d) :
    step c a = some d ∧ Outbox.waiting d.outbox.log ≤ 1 := by
  obtain ⟨hd, hone⟩ := Option.filter_eq_some_iff.mp h
  exact ⟨hd, of_decide_eq_true hone⟩

/-- **One action**: it keeps the bytes exactly when the condition holds of it. -/
theorem writeStep_kept_iff {c d : Client} {a : Action} (hsettled : c.outbox.Settled)
    (hc : c.outbox.Kept taken) (h : writeStep c a = some d) :
    (d.outbox.Kept taken ↔ KeepsBytes c a) ∧ d.outbox.Settled := by
  obtain ⟨hd, hone⟩ := writeStep_some h
  -- what only pushes messages keeps everything
  have hpush : ∀ ms, Outbox.Watching (c.outbox.pushAll ms) d.outbox →
      d.outbox.Kept taken ∧ d.outbox.Settled := by
    intro ms hw
    rw [hw.log] at hone
    exact ⟨hw.kept (Outbox.pushAll_kept hc hsettled hone),
      hw.settled (Outbox.pushAll_settled hsettled ms)⟩
  cases a with
  | call k =>
    cases hd
    obtain ⟨hk, hset⟩ := hpush _ (outbox_call c k)
    exact ⟨iff_of_true hk trivial, hset⟩
  | waitForEvents =>
    simp only [step] at hd
    split_ifs at hd
    cases hd
    refine ⟨?_, hsettled⟩
    constructor
    · rintro ⟨-, hw⟩
      by_contra hne
      have hmem : c.mSocket ∈ (∅ : Finset Fd) := of_decide_eq_true (hw hne)
      exact absurd hmem (Finset.notMem_empty _)
    · exact fun hnil => ⟨hc.1, fun hne => absurd hnil hne⟩
  | select result =>
    simp only [step] at hd
    split_ifs at hd
    rcases result with _ | ⟨readFds, writeFds⟩
    · cases hd
      have hthrew : Outbox.Watching c.outbox (c.record [.threw]).outbox := outbox_record rfl
      obtain ⟨hk, hset⟩ := hpush [] (hthrew.trans ⟨rfl, rfl, id⟩)
      exact ⟨iff_of_true hk trivial, hset⟩
    · simp only at hd
      split_ifs at hd
      cases hd
      exact ⟨iff_of_true ⟨hc.1, hc.2⟩ trivial, hsettled⟩
  | read recv receiveComplete =>
    simp only [step] at hd
    split at hd
    · rename_i readFds writeFds hpc
      split_ifs at hd with hlen hready
      · cases hd
        obtain ⟨ms, hw⟩ := outbox_readBranch c recv receiveComplete
        obtain ⟨hk, hset⟩ := hpush ms (by rw [outbox_goto]; exact hw)
        exact ⟨iff_of_true hk trivial, hset⟩
      · cases hd
        obtain ⟨hk, hset⟩ := hpush [] (by rw [outbox_goto]; exact Outbox.Watching.refl _)
        exact ⟨iff_of_true hk trivial, hset⟩
    · cases hd
  | write result sendComplete =>
    simp only [step] at hd
    split at hd
    · rename_i writeFds hpc
      have hflush : c.Flushing ↔ c.mSocket ∈ writeFds := by
        unfold Flushing
        rw [hpc]
      split_ifs at hd with hw hready
      · cases hd
        rw [outbox_goto] at hone ⊢
        obtain ⟨hiff, hset⟩ := writeBranch_kept_iff hw hc hone
        refine ⟨hiff.trans ⟨fun hk _ => hk, fun hk => hk (hflush.mpr hready)⟩, hset⟩
      · cases hd
        rw [outbox_goto]
        exact ⟨iff_of_true hc fun hf => absurd (hflush.mp hf) hready, hsettled⟩
    · cases hd

theorem NewQueue.kept {c : Client} (h : c.NewQueue) : c.outbox.Kept taken :=
  ⟨h.inOrder taken, fun hne => absurd h.1 hne⟩

theorem writeRun_kept_iff {c : Client} (hnew : c.NewQueue) (as : List Action) :
    Always writeStep (fun c => c.outbox.Kept taken) c as ↔ Along writeStep KeepsBytes c as :=
  always_iff_along (I := fun c => c.outbox.Settled)
    (fun _ _ _ hI hP hd _ => (writeStep_kept_iff hI hP hd).2)
    (fun _ _ _ hI hP hd => (writeStep_kept_iff hI hP hd).1) as (fun _ => hnew.1) hnew.kept

end Client

/-- **No byte is lost exactly in the runs whose writes are complete** and whose `sendComplete`
queues nothing, for every connection of the server and for the client. -/
theorem writes_kept_iff {p : Ptr} {s : Server} (hs : Server.NewQueue p s)
    (hfound : Server.Found p s) (ops : List Server.WriteOp) {c : Client} (hc : c.NewQueue)
    (as : List Client.Action) :
    (Always (Server.writeStep p) (fun s => (Server.outbox p s).Kept taken) s ops ↔
      Along (Server.writeStep p) (Server.KeepsBytes p) s ops) ∧
    (Always Client.writeStep (fun c => c.outbox.Kept taken) c as ↔
      Along Client.writeStep Client.KeepsBytes c as) :=
  ⟨Server.writeRun_kept_iff hs hfound ops, Client.writeRun_kept_iff hc as⟩

instance (o : Outbox UInt8) : Decidable (o.Kept taken) := by
  unfold Outbox.Kept Outbox.InOrder; infer_instance

/-- The write-ready passes of a server with one client on descriptor 6, and of a client. -/
def serverWrite (result : ℤ) : Server.WriteOp := .write 6 (Server.writing result)

def clientWrite (result : ℤ) : List Client.Action :=
  [.select (some (∅, {3})), .read (.bytes []) ⟨[], .returns⟩, .write result ⟨[], .returns⟩]

theorem writes_kept_iff_complete :
    ∃ s, run Server.step (Server.waitForEvents Server.listening) Server.greet = some s ∧
      Always (Server.writeStep 0) (fun s => (Server.outbox 0 s).Kept taken) s
        [.call (.send [104, 105] [97]), serverWrite 2, .call (.send [106] [97])] ∧
      Always Client.writeStep (fun c => c.outbox.Kept taken) smallClient
        (.waitForEvents :: .call (.sendDataToServer [104, 105]) :: clientWrite 2) := by
  obtain ⟨s, hrun, hnew, hfound, hkeeps⟩ := exists_run Server.step
    (Server.waitForEvents Server.listening) Server.greet
    (fun s => Server.NewQueue 0 s ∧ Server.Found 0 s ∧
      Along (Server.writeStep 0) (Server.KeepsBytes 0) s
        [.call (.send [104, 105] [97]), serverWrite 2, .call (.send [106] [97])]) (by decide)
  have hiff := writes_kept_iff hnew hfound
    [.call (.send [104, 105] [97]), serverWrite 2, .call (.send [106] [97])]
    (show smallClient.NewQueue from ⟨rfl, rfl⟩)
    (.waitForEvents :: .call (.sendDataToServer [104, 105]) :: clientWrite 2)
  exact ⟨s, hrun, hiff.1.mpr hkeeps, hiff.2.mpr (by decide)⟩

/-- **A short write** loses what it has not taken, on the server and on the client: of `"hi"` one
byte is gone, none waits, and the socket is not watched. -/
theorem writes_short_lose :
    (∃ s, run Server.step (Server.waitForEvents Server.listening) Server.greet = some s ∧
      Server.NewQueue 0 s ∧ Server.Found 0 s ∧ ∃ t, run (Server.writeStep 0) s
        [.call (.send [104, 105] [97]), serverWrite 1] = some t ∧
          (Server.outbox 0 t).gone taken = [104] ∧ (Server.outbox 0 t).pending = [] ∧
          ¬ (Server.outbox 0 t).Kept taken) ∧
    smallClient.NewQueue ∧ ∃ d, run Client.writeStep smallClient
      (.waitForEvents :: .call (.sendDataToServer [104, 105]) :: clientWrite 1) = some d ∧
        d.outbox.gone taken = [104] ∧ d.outbox.pending = [] ∧ ¬ d.outbox.Kept taken := by
  constructor
  · obtain ⟨s, hrun, hnew, hfound, hany⟩ := exists_run Server.step
      (Server.waitForEvents Server.listening) Server.greet
      (fun s => Server.NewQueue 0 s ∧ Server.Found 0 s ∧ (run (Server.writeStep 0) s
        [.call (.send [104, 105] [97]), serverWrite 1]).any (fun t => decide
          ((Server.outbox 0 t).gone taken = [104] ∧ (Server.outbox 0 t).pending = [] ∧
            ¬ (Server.outbox 0 t).Kept taken)) = true) (by decide)
    exact ⟨s, hrun, hnew, hfound, exists_run _ _ _ _ hany⟩
  · exact ⟨⟨rfl, rfl⟩, exists_run _ _ _
      (fun d : Client => d.outbox.gone taken = [104] ∧ d.outbox.pending = [] ∧
        ¬ d.outbox.Kept taken) (by decide)⟩

end C11Http.Posix
