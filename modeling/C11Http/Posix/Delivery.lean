import C11Http.Posix.Sending
import C11Http.Posix.Wire

/-! # Messages from end to end

Under what conditions the two callbacks are told the messages themselves. A queue is filled at the
front, drained whole and never refilled with what `::send` leaves; so the messages stay in order if
at most one waits at a time and every `::send` takes everything (`Orderly`). Then what a callback
has been told, what is on its way and what waits is, in this order, everything that was queued at
the other end (`messages_delivered`). -/

namespace C11Http.Posix

open C11Http.Lib C11Http.Lib.Run Connections

namespace Server

variable {p : Ptr} {s t : Server}

/-- A write of the connection takes everything that waits. -/
def WritesAll (p : Ptr) (s : Server) : Action → Prop
  | .write e => s.target = some p → e.result.toNat = (s.heap p).mOutgoingBytes.length
  | _ => True

instance (p : Ptr) (s : Server) : ∀ a : Action, Decidable (WritesAll p s a)
  | .write e => inferInstanceAs
      (Decidable (s.target = some p → e.result.toNat = (s.heap p).mOutgoingBytes.length))
  | .call _ => .isTrue trivial
  | .select _ => .isTrue trivial
  | .read _ _ _ => .isTrue trivial

/-! ### The queue of a connection -/

theorem pushes_of_events {l : List Event}
    (hp : (t.heap p).mOutgoingBytes = (s.heap p).mOutgoingBytes) (ht : t.trace = s.trace ++ l)
    (he : l.filterMap (entryFor p) = []) : Outbox.Pushes (outbox p s) (outbox p t) := by
  refine .of_eq hp ?_
  simp only [outbox, ht, List.filterMap_append, he, List.append_nil]

theorem pushes_of_eq (hp : (t.heap p).mOutgoingBytes = (s.heap p).mOutgoingBytes)
    (ht : t.trace = s.trace) : Outbox.Pushes (outbox p s) (outbox p t) :=
  pushes_of_events hp (ht.trans (List.append_nil _).symm) rfl

theorem pushes_reported (p : Ptr) (s : Server) {e : Event} (h : entryFor p e = none)
    (r : Reaction Call) : Outbox.Pushes (outbox p s) (outbox p ((s.record [e]).react r)) := by
  have hrecord : Outbox.Pushes (outbox p s) (outbox p (s.record [e])) :=
    pushes_of_events (l := [e]) rfl rfl (by simp [h])
  exact hrecord.trans (.of_watching (outbox_react p _ r))

theorem pushes_removeServerConnection (p : Ptr) (s : Server) (sckt : Fd) :
    Outbox.Pushes (outbox p s) (outbox p (s.removeServerConnection sckt)) := by
  unfold removeServerConnection
  split
  · exact pushes_of_eq rfl rfl
  · exact pushes_of_events rfl rfl rfl

theorem pushes_accepting (p : Ptr) (s : Server) (a : Attempt) :
    Outbox.Pushes (outbox p s) (outbox p (s.accepting a)) :=
  pushes_of_events (l := a.events) rfl rfl
    (filterMap_events a (fun _ => rfl) (fun _ _ => rfl) (fun _ _ => rfl))

theorem pushes_allocate (hp : p < s.nextPtr) (client : ServerConnection) :
    Outbox.Pushes (outbox p s) (outbox p (s.allocate client)) :=
  pushes_of_eq (by simp only [allocate, Function.update_of_ne hp.ne]) rfl

theorem pushes_acceptBranch (hp : p < s.nextPtr) (a : Attempt) (connected : Reaction Call) :
    Outbox.Pushes (outbox p s) (outbox p (s.acceptBranch a connected)) := by
  have halloc : ∀ client,
      Outbox.Pushes (outbox p s) (outbox p ((s.accepting a).allocate client)) :=
    fun client => (pushes_accepting p s a).trans (pushes_allocate (s := s.accepting a) hp client)
  have hgreet : ∀ client,
      Outbox.Pushes (outbox p s) (outbox p (s.greeting a client connected)) :=
    fun client => (halloc client).trans (pushes_reported p _ rfl connected)
  apply acceptBranch_rule (P := fun t => Outbox.Pushes (outbox p s) (outbox p t))
  case rejected => exact fun _ _ => pushes_accepting p s a
  case null => exact fun client _ _ => (halloc client).trans (pushes_of_eq rfl rfl)
  case registered => exact fun client _ _ _ => (hgreet client).trans (pushes_of_eq rfl rfl)
  case swallowed => exact fun client _ _ _ => hgreet client
  case escaped => exact fun client _ _ _ => (hgreet client).trans (pushes_of_eq rfl rfl)

theorem pushes_dropConnection (p q : Ptr) (s : Server) (sckt : Fd) (disconnected : Reaction Call) :
    Outbox.Pushes (outbox p s) (outbox p (s.dropConnection sckt q disconnected)) := by
  have hd : Outbox.Pushes (outbox p s) (outbox p (s.disconnect q disconnected)) :=
    pushes_reported p s rfl disconnected
  apply dropConnection_rule (P := fun t => Outbox.Pushes (outbox p s) (outbox p t))
  case silent => exact fun _ => pushes_removeServerConnection p s sckt
  case reported => exact fun _ _ => hd.trans (pushes_removeServerConnection p _ sckt)
  case escaped => exact fun _ _ => hd.trans (pushes_of_eq rfl rfl)

theorem pushes_handleServerConnection (p : Ptr) (s : Server) (i : Fd) (e : Reading) :
    Outbox.Pushes (outbox p s) (outbox p (s.handleServerConnection i e)) := by
  have hrecv : ∀ q, Outbox.Pushes (outbox p s) (outbox p (s.receiving q e.recv)) := by
    intro q
    refine pushes_of_events (l := [.received (s.heap q).mSocket e.recv.data]) ?_ rfl rfl
    rcases eq_or_ne p q with rfl | hne
    · simp [receiving]
    · simp [receiving, Function.update_of_ne hne]
  have hdeliver : ∀ q data, Outbox.Pushes (outbox p s)
      (outbox p ((s.receiving q e.recv).deliver q data e.receiveComplete)) :=
    fun q data => (hrecv q).trans (pushes_reported p _ rfl _)
  apply handleServerConnection_rule (P := fun t => Outbox.Pushes (outbox p s) (outbox p t))
  case unknown => exact fun _ => .refl _
  case failed => exact fun q _ _ _ => (hrecv q).trans (pushes_dropConnection p q _ i _)
  case silent => exact fun q _ _ _ _ => hrecv q
  case delivered => exact fun q data _ _ _ _ => hdeliver q data
  case thrown =>
    exact fun q data _ _ _ _ => (hdeliver q data).trans (pushes_dropConnection p q _ i _)
  case escaped => exact fun q data _ _ _ _ => (hdeliver q data).trans (pushes_of_eq rfl rfl)

theorem pushes_goto (p : Ptr) (s : Server) (pc : Pc) :
    Outbox.Pushes (outbox p s) (outbox p (s.goto pc)) := by
  rw [outbox_goto]
  exact .refl _

/-- A write of another connection. -/
theorem pushes_writeBranch_of_ne (hpc : s.pc ≠ .halted) {i : Fd} (e : Writing)
    (hi : s.mConnections.getServerConnection s.heap i ≠ some p) :
    Outbox.Pushes (outbox p s) (outbox p (s.writeBranch i e)) := by
  have hhand : ∀ q, s.mConnections.getServerConnection s.heap i = some q →
      Outbox.Pushes (outbox p s) (outbox p (s.handing q e.result)) := by
    intro q hq
    rw [outbox_handing_of_ne s e.result (by rintro rfl; exact hi hq)]
    exact .refl _
  have hreport : ∀ q count, s.mConnections.getServerConnection s.heap i = some q →
      Outbox.Pushes (outbox p s)
        (outbox p ((s.handing q e.result).report q count e.sendComplete)) :=
    fun q count hq => (hhand q hq).trans (pushes_reported p _ rfl _)
  apply writeBranch_rule (P := fun t => Outbox.Pushes (outbox p s) (outbox p t)) hpc
  case unknown => exact fun _ => pushes_of_eq rfl rfl
  case short => exact fun q hq _ => (hhand q hq).trans (pushes_of_eq rfl rfl)
  case null => exact fun q _ hq _ _ => (hhand q hq).trans (pushes_of_eq rfl rfl)
  case reported => exact fun q n hq _ _ _ => (hreport q n hq).trans (pushes_of_eq rfl rfl)
  case escaped => exact fun q n hq _ _ _ => (hreport q n hq).trans (pushes_of_eq rfl rfl)

/-- A write of the connection: the queue is drained, then filled by `sendComplete`. -/
theorem pushes_writeBranch_self (hpc : s.pc ≠ .halted) {i : Fd} (e : Writing)
    (hi : s.mConnections.getServerConnection s.heap i = some p) :
    Outbox.Pushes ((outbox p s).drain (offered (s.heap p).mOutgoingBytes) e.result)
      (outbox p (s.writeBranch i e)) := by
  have hsame : ∀ q, s.mConnections.getServerConnection s.heap i = some q → q = p :=
    fun q hq => Option.some.inj (hq.symm.trans hi)
  have hhand : Outbox.Pushes ((outbox p s).drain (offered (s.heap p).mOutgoingBytes) e.result)
      (outbox p (s.handing p e.result)) := by
    rw [outbox_handing_self]
    exact .refl _
  have hreport : ∀ n, Outbox.Pushes
      ((outbox p s).drain (offered (s.heap p).mOutgoingBytes) e.result)
        (outbox p ((s.handing p e.result).report p n e.sendComplete)) :=
    fun n => hhand.trans (pushes_reported p _ rfl _)
  apply writeBranch_rule (P := fun t => Outbox.Pushes
    ((outbox p s).drain (offered (s.heap p).mOutgoingBytes) e.result) (outbox p t)) hpc
  case unknown =>
    intro hnone
    rw [hi] at hnone
    cases hnone
  case short =>
    intro q hq _
    obtain rfl := hsame q hq
    exact hhand.trans (pushes_of_eq rfl rfl)
  case null =>
    intro q _ hq _ _
    obtain rfl := hsame q hq
    exact hhand.trans (pushes_of_eq rfl rfl)
  case reported =>
    intro q n hq _ _ _
    obtain rfl := hsame q hq
    exact (hreport n).trans (pushes_of_eq rfl rfl)
  case escaped =>
    intro q n hq _ _ _
    obtain rfl := hsame q hq
    exact (hreport n).trans (pushes_of_eq rfl rfl)

/-- The messages of the connection are in order, and none waits that was not queued since the last
write. -/
def Ordered (p : Ptr) (s : Server) : Prop := (outbox p s).InOrder taken ∧ (outbox p s).Settled

theorem ordered_call (hs : Ordered p s) (c : Call)
    (hone : Outbox.waiting (outbox p (s.call c)).log ≤ 1) : Ordered p (s.call c) :=
  (Outbox.Pushes.of_watching (outbox_call p s c)).inOrder hs.1 hs.2 hone

/-- **A step keeps the order** if it writes everything that waits and leaves at most one message. -/
theorem ordered_step {a : Action} (hp : p < s.nextPtr) (hs : Ordered p s) (hall : WritesAll p s a)
    (hone : Outbox.waiting (outbox p t).log ≤ 1) (h : s.step a = some t) : Ordered p t := by
  have hpushes : Outbox.Pushes (outbox p s) (outbox p t) → Ordered p t :=
    fun hpush => hpush.inOrder hs.1 hs.2 hone
  cases a with
  | call c =>
    obtain ⟨-, rfl⟩ := step_call h
    exact ordered_call hs c hone
  | select result =>
    obtain ⟨-, -, ⟨-, rfl⟩ | ⟨readFds, writeFds, -, -, rfl⟩⟩ := step_select h
    · exact hpushes (pushes_of_eq rfl rfl)
    · exact hpushes (pushes_of_eq rfl rfl)
  | read attempt connected e =>
    obtain ⟨i, fdmax, readFds, writeFds, -, -, rfl⟩ := step_read h
    refine hpushes (Outbox.Pushes.trans ?_ (pushes_goto p _ _))
    unfold readBranch
    split_ifs
    · exact pushes_acceptBranch hp attempt connected
    · exact pushes_handleServerConnection p s i e
    · exact .refl _
  | write e =>
    obtain ⟨i, fdmax, readFds, writeFds, hpc, hw, rfl⟩ := step_write h
    have hne : s.pc ≠ .halted := by
      rw [hpc]
      exact Pc.noConfusion
    by_cases hi : i ∈ writeFds
    · rw [if_pos hi] at hpushes hone ⊢
      by_cases hself : s.mConnections.getServerConnection s.heap i = some p
      · have htarget : s.target = some p := by
          simp only [target, flushing, hpc, if_pos hi]
          exact hself
        refine Outbox.Pushes.drain_inOrder ?_ hs.1 ((taken_eq_iff hw hself).mpr (hall htarget))
          hone
        exact (pushes_writeBranch_self hne e hself).trans (pushes_goto p _ _)
      · exact hpushes ((pushes_writeBranch_of_ne hne e hself).trans (pushes_goto p _ _))
    · rw [if_neg hi] at hpushes ⊢
      exact hpushes (pushes_goto p s _)

end Server

namespace Client

variable {c d : Client}

/-- A write takes everything that waits. -/
def WritesAll (c : Client) : Action → Prop
  | .write result _ => c.Flushing → result.toNat = c.mOutgoingBytes.length
  | _ => True

instance (c : Client) : ∀ a : Action, Decidable (WritesAll c a)
  | .write result _ => inferInstanceAs
      (Decidable (c.Flushing → result.toNat = c.mOutgoingBytes.length))
  | .call _ => .isTrue trivial
  | .waitForEvents => .isTrue trivial
  | .select _ => .isTrue trivial
  | .read _ _ => .isTrue trivial

theorem pushes_writeBranch (c : Client) (result : ℤ) (sendComplete : Reaction ClientCall) :
    Outbox.Pushes (c.outbox.drain (offered c.mOutgoingBytes) result)
      (c.writeBranch result sendComplete).outbox := by
  have hwatch := outbox_report (c.handing result) (expected c.mOutgoingBytes) sendComplete
  rw [outbox_handing] at hwatch
  have hreport := Outbox.Pushes.of_watching hwatch
  unfold writeBranch
  split_ifs
  · cases sendComplete.outcome with
    | returns => exact hreport.trans (.of_eq rfl rfl)
    | runtimeError => exact hreport.trans (.of_eq rfl rfl)
    | other => exact hreport.trans (.of_eq rfl rfl)
  · rw [← outbox_handing]
    exact .of_eq rfl rfl

/-- The messages are in order, and none waits that was not queued since the last write. -/
def Ordered (c : Client) : Prop := c.outbox.InOrder taken ∧ c.outbox.Settled

/-- **A step keeps the order** if it writes everything that waits and leaves at most one message. -/
theorem ordered_step {a : Action} (hc : c.Ordered) (hall : c.WritesAll a)
    (hone : Outbox.waiting d.outbox.log ≤ 1) (h : step c a = some d) : d.Ordered := by
  have hpushes : Outbox.Pushes c.outbox d.outbox → d.Ordered :=
    fun hpush => hpush.inOrder hc.1 hc.2 hone
  cases a with
  | call k =>
    cases h
    exact hpushes (.of_watching (outbox_call c k))
  | waitForEvents =>
    obtain rfl := step_waitForEvents h
    exact hpushes (.of_eq rfl rfl)
  | select result =>
    simp only [step] at h
    split_ifs at h
    rcases result with _ | ⟨readFds, writeFds⟩
    · cases h
      have hthrew : Outbox.Watching c.outbox (c.record [.threw]).outbox := outbox_record rfl
      exact hpushes (.of_eq hthrew.pending hthrew.log)
    · simp only at h
      split_ifs at h
      cases h
      exact hpushes (.of_eq rfl rfl)
  | read recv receiveComplete =>
    obtain ⟨readFds, writeFds, -, rfl⟩ := step_read h
    refine hpushes ?_
    rw [outbox_goto]
    split_ifs
    · obtain ⟨ms, hwatch⟩ := outbox_readBranch c recv receiveComplete
      exact .of_watching hwatch
    · exact .refl _
  | write result sendComplete =>
    have hresult : SendResult (offered c.mOutgoingBytes) result := by
      simp only [step] at h
      split at h
      · split_ifs at h with hw
        · exact hw
        · exact hw
      · cases h
    obtain ⟨writeFds, -, hflush, rfl⟩ := step_write h
    rw [outbox_goto] at hone
    unfold Ordered
    rw [outbox_goto]
    by_cases hready : c.mSocket ∈ writeFds
    · rw [if_pos hready] at hone ⊢
      exact (pushes_writeBranch c result sendComplete).drain_inOrder hc.1
        ((taken_offered_eq_iff hresult).mpr (hall (hflush.mpr hready))) hone
    · rw [if_neg hready] at hone ⊢
      exact (Outbox.Pushes.refl _).inOrder hc.1 hc.2 hone

end Client

/-- The object of the client's connection. -/
def ServerStage.connection : ServerStage → Option Ptr
  | .built p _ => some p
  | _ => none

namespace Session

/-- At most one message waits for the client. -/
def OneWaits (p : Ptr) (server : Server) : Prop :=
  Outbox.waiting (Server.outbox p server).log ≤ 1

instance (p : Ptr) (server : Server) : Decidable (OneWaits p server) := by
  unfold OneWaits; infer_instance

/-- At either end every `::send` takes everything, and at most one message waits; the identifier is
taken whole; removals are of the last connection. -/
def Orderly (s : Session) : Action → Prop
  | .sendIdentifier result => result.toNat = s.client.mIdentifier.length
  | .client a => s.client.WritesAll a ∧
      ∀ c ∈ s.client.step a, Outbox.waiting c.outbox.log ≤ 1
  | .server a => Server.RemovesLast s.server a ∧ ∀ p ∈ s.serverStage.connection,
      Server.WritesAll p s.server a ∧ ∀ t ∈ s.server.step a, OneWaits p t
  | .call c => ∀ p ∈ s.serverStage.connection, OneWaits p (s.server.call c)
  | _ => True

instance (s : Session) : ∀ a : Action, Decidable (s.Orderly a)
  | .sendIdentifier result => inferInstanceAs
      (Decidable (result.toNat = s.client.mIdentifier.length))
  | .client a => inferInstanceAs (Decidable (s.client.WritesAll a ∧
      ∀ c ∈ s.client.step a, Outbox.waiting c.outbox.log ≤ 1))
  | .server a => inferInstanceAs (Decidable (Server.RemovesLast s.server a ∧
      ∀ p ∈ s.serverStage.connection,
        Server.WritesAll p s.server a ∧ ∀ t ∈ s.server.step a, OneWaits p t))
  | .call c => inferInstanceAs
      (Decidable (∀ p ∈ s.serverStage.connection, OneWaits p (s.server.call c)))
  | .connect => .isTrue trivial
  | .recvAck _ => .isTrue trivial
  | .accept _ => .isTrue trivial
  | .sendAck _ => .isTrue trivial
  | .identify _ _ _ => .isTrue trivial
  | .arriveUp _ => .isTrue trivial
  | .arriveDown _ => .isTrue trivial

/-- Both queues are in order. -/
structure Ordering (s : Session) : Prop where
  client : s.client.Ordered
  server : ∀ p registered, s.serverStage = .built p registered → Server.Ordered p s.server

variable {s t : Session} {identifier : Bytes}

theorem Ordering.start (setup : Server.Setup) {client : Client} (hnew : client.NewQueue) :
    (start setup client).Ordering where
  client := ⟨hnew.inOrder taken, fun _ => hnew.1⟩
  server _ _ h := by cases h

theorem Ordering.of_server (h : s.Ordering) (hclient : t.client = s.client)
    (hserver : t.server = s.server)
    (hstage : ∀ p registered, t.serverStage = .built p registered →
      s.serverStage = .built p registered) : t.Ordering where
  client := by
    rw [hclient]
    exact h.client
  server p r hp := by
    rw [hserver]
    exact h.server p r (hstage p r hp)

/-- A new connection has no message. -/
theorem ordered_identify (hhand : s.Handshaking) {a : Attempt} {connected : Reaction Call}
    {pc : Pc} (hafter : (s.identify a connected pc).Handshaking) :
    Server.Ordered s.server.nextPtr ((s.server.acceptBranch a connected).goto pc) := by
  have hadv := (Server.advanced_acceptBranch hhand.server.fresh a connected).goto pc
  have hlog : (Server.outbox s.server.nextPtr
      ((s.server.acceptBranch a connected).goto pc)).log = [] :=
    ((hadv.moved _).idle fun hr => lt_irrefl _ (hhand.server.fresh _ hr)).trans
      (hhand.server.untouched _ le_rfl)
  have hsourced : (Server.outbox s.server.nextPtr
      ((s.server.acceptBranch a connected).goto pc)).Sourced taken :=
    hafter.server.sourced s.server.nextPtr
  unfold Outbox.Sourced Outbox.gone Outbox.queued at hsourced
  rw [hlog] at hsourced
  have hpending : (Server.outbox s.server.nextPtr
      ((s.server.acceptBranch a connected).goto pc)).pending = [] :=
    List.subperm_nil.mp hsourced
  refine ⟨?_, fun _ => hpending⟩
  unfold Outbox.InOrder Outbox.gone Outbox.queued
  rw [hlog, hpending]
  rfl

theorem Ordering.wireStep {a : Action} (h : s.Ordering) (hhand : s.Handshaking)
    (horderly : s.Orderly a) (ht : s.wireStep a = some t) : t.Ordering := by
  have hafter := handshaking_wireStep hhand ht
  obtain ⟨b, u, rfl, -, hu, -, rfl⟩ | ⟨hne, ht⟩ := step_wire ht
  · refine ⟨h.client, fun p r hp => ?_⟩
    have hstage : s.serverStage = .built p r := hp
    obtain ⟨hall, hone⟩ := horderly.2 p (by rw [hstage]; rfl)
    exact Server.ordered_step (hhand.server.allocated p r hstage) (h.server p r hstage) hall
      (hone u hu) hu
  · cases a with
    | connect =>
      simp only [step] at ht
      split_ifs at ht
      cases ht
      exact h.of_server rfl rfl fun _ _ => id
    | recvAck n =>
      simp only [step] at ht
      split_ifs at ht
      cases ht
      exact h.of_server rfl rfl fun _ _ => id
    | sendIdentifier result =>
      simp only [step] at ht
      split_ifs at ht
      cases ht
      exact h.of_server rfl rfl fun _ _ => id
    | client a =>
      simp only [step] at ht
      split_ifs at ht
      obtain ⟨c, hc, hc'⟩ := Option.bind_eq_some_iff.mp ht
      split_ifs at hc'
      cases hc'
      exact ⟨Client.ordered_step h.client horderly.1 (horderly.2 c hc) hc, h.server⟩
    | accept fd =>
      simp only [step] at ht
      split_ifs at ht
      cases ht
      exact h.of_server rfl rfl fun _ _ hp => by cases hp
    | sendAck result =>
      simp only [step] at ht
      split at ht
      · split_ifs at ht
        cases ht
        exact h.of_server rfl rfl fun _ _ hp => by cases hp
      · cases ht
    | identify poll recv connected =>
      obtain ⟨fd, result, pc, -, -, rfl⟩ := step_identify ht
      refine ⟨h.client, fun p r hp => ?_⟩
      have hp' : p = s.server.nextPtr := by
        unfold Session.identify at hp
        simp only at hp
        split at hp
        · cases hp
        · exact (ServerStage.built.inj hp).1.symm
      rw [hp']
      exact ordered_identify hhand hafter
    | server b => exact absurd rfl (hne b)
    | call c =>
      cases ht
      refine ⟨h.client, fun p r hp => ?_⟩
      have hstage : s.serverStage = .built p r := hp
      exact Server.ordered_call (h.server p r hstage) c (horderly p (by rw [hstage]; rfl))
    | arriveUp n =>
      cases ht
      exact h.of_server rfl rfl fun _ _ => id
    | arriveDown n =>
      cases ht
      exact h.of_server rfl rfl fun _ _ => id

/-- **Everything queued at one end has been told at the other, is on its way or waits**, in this
order. Downstream the handshake may have taken too little of the acknowledgement, which is then told
as data. -/
structure Delivered (identifier : Bytes) (s : Session) : Prop where
  up : ∀ p registered, s.serverStage = .built p registered →
    passed p s.server.trace ++ s.up.buffer ++ s.up.transit ++ s.client.mOutgoingBytes =
      identifier ++ s.client.outbox.queued
  down : s.ackBuff.map Prod.snd = ack → ∀ p registered, s.serverStage = .built p registered →
    Client.passed s.client.trace ++ (s.down.buffer ++ s.down.transit).map Prod.snd ++
      (s.server.heap p).mOutgoingBytes = (Server.outbox p s.server).queued

theorem Ordering.delivered (h : s.Ordering) (hhand : s.Handshaking) (hlisten : s.Listening)
    (htalk : s.Talking identifier { result | result.toNat = identifier.length })
    (hcb : s.client.mCallback = true) : s.Delivered identifier where
  up p registered hp := by
    have hrun : s.clientStage = .running := by
      by_contra hne
      exact hhand.named p registered hp (hhand.unnamed hne)
    obtain ⟨result, hall, -, hsent⟩ := htalk.sent hrun
    have hid : taken identifier result = identifier := by
      unfold taken
      rw [show result.toNat = identifier.length from hall, List.take_length]
    have horder : Client.sentBy s.client.trace ++ s.client.mOutgoingBytes =
        s.client.outbox.queued := h.client.1
    rw [hlisten.exact p registered hp, ← horder, ← List.append_assoc, ← hid, ← hsent]
    rfl
  down hack p registered hp := by
    obtain ⟨acknowledgement, hpre, hbuff, hsent⟩ := htalk.downstream hhand hcb
    have hwhole : acknowledgement = ack := by
      rw [hack] at hbuff
      exact hpre.eq_of_length_le hbuff.length_le
    have happ : s.appData = sentBy p s.server.trace := by
      unfold appData
      rw [hp]
    have horder : sentBy p s.server.trace ++ (s.server.heap p).mOutgoingBytes =
        (Server.outbox p s.server).queued := (h.server p registered hp).1
    rw [hack, hwhole, List.append_assoc, List.append_cancel_left_eq, happ] at hsent
    rw [hsent, horder]

end Session

/-- **The messages arrive**: while every `::send` takes everything and at most one message waits at
either end, both callbacks are told the messages queued at the other end, in order and whole. -/
theorem Session.messages_delivered (setup : Server.Setup) (hcb : setup.mCallback = true)
    (mIdentifier : Bytes) (mSocket : Fd) (mWakeupPipe : Fd × Fd) (mMasterWrite : Finset Fd)
    (as : List Session.Action)
    (horderly : Along Session.wireStep Session.Orderly (Session.start setup
      (.connected true mIdentifier mSocket mWakeupPipe mMasterWrite)) as) :
    Always Session.wireStep (Session.Delivered mIdentifier) (Session.start setup
      (.connected true mIdentifier mSocket mWakeupPipe mMasterWrite)) as := by
  have hall : Always Session.wireStep
      (fun s => s.Handshaking ∧ s.Listening ∧
        s.Talking mIdentifier { result | result.toNat = mIdentifier.length } ∧ s.Ordering ∧
          s.client.mCallback = true)
      (Session.start setup (.connected true mIdentifier mSocket mWakeupPipe mMasterWrite)) as := by
    refine always_of_along (fun s a t hs hR ht => ?_)
      ⟨Session.handshaking_start setup _, .start setup _ hcb, .start setup rfl rfl,
        .start setup ⟨rfl, rfl⟩, rfl⟩ horderly
    obtain ⟨hhand, hlisten, htalk, horder, hcb⟩ := hs
    refine ⟨Session.handshaking_wireStep hhand ht, hlisten.wireStep hhand ?_ ht,
      htalk.wireStep hhand ?_ ht, horder.wireStep hhand hR ht, ?_⟩
    · cases a with
      | server a => exact hR.1
      | _ => trivial
    · rintro result rfl
      rw [← htalk.mIdentifier]
      exact hR
    · obtain ⟨b, c, -, hc, rfl⟩ | ⟨-, heq⟩ := Session.client_wireStep ht
      · exact (Client.grown_step hc).mCallback.trans hcb
      · rw [heq]
        exact hcb
  exact hall.imp fun s hs => hs.2.2.2.1.delivered hs.1 hs.2.1 hs.2.2.1 hs.2.2.2.2

/-- After the client's `"c"` the server sends it `"hi"`. -/
def Session.conversation : List Session.Action :=
  Session.threeBytes ++ [.call (.send [104, 105] [97, 98])] ++
    (Server.Action.write (Server.writing 0) ::
      Server.Action.select (some (∅, {6})) :: Server.skip 6 ++
      [Server.Action.read Server.noAttempt Server.returns (Server.reading []),
        Server.Action.write (Server.writing 2)]).map .server ++
    [.arriveDown 2, .client (.select (some ({3}, ∅))),
      .client (.read (.bytes [104, 105]) ⟨[], .returns⟩)]

theorem Session.messages_delivered_conversation : ∃ t,
    run Session.wireStep (Session.start Server.listening Session.twoLetters)
      Session.conversation = some t ∧
    (passed 0 t.server.trace = [97, 98, 99] ∧ Client.passed t.client.trace = [104, 105]) ∧
    t.Delivered [97, 98] := by
  obtain ⟨t, hrun, htold⟩ := exists_run Session.wireStep
    (Session.start Server.listening Session.twoLetters) Session.conversation
    (fun t => passed 0 t.server.trace = [97, 98, 99] ∧
      Client.passed t.client.trace = [104, 105]) (by decide)
  exact ⟨t, hrun, htold, (Session.messages_delivered Server.listening rfl [97, 98] 3 (4, 5) ∅
    Session.conversation (by decide +kernel)).last hrun⟩

end C11Http.Posix
