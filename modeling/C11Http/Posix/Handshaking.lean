import C11Http.Posix.Handshake

/-! # What holds during the handshake

`Handshaking s` is an invariant of the client and the server together (`handshaking_step`). It
carries the argument of the handshake: while the client has not sent its identifier, the server has
received nothing, so the constructor of its connection has not completed, the connection is not
registered, and no message can have been queued for it or sent to it. The stream to the client
therefore begins with what was sent of the acknowledgement, and the rest of it is what the
connection has sent. -/

namespace C11Http.Posix

open C11Http.Lib C11Http.Lib.Run

/-- The server during a handshake. The queues account for what was sent, nothing has happened yet to
the objects to come, and the connection of the client has no message from before its registration.
-/
structure ServerSide (server : Server) (stage : ServerStage) : Prop where
  fresh : server.Fresh
  sourced : ∀ p, (Server.outbox p server).Sourced taken
  untouched : ∀ p, server.nextPtr ≤ p → (Server.outbox p server).log = []
  allocated : ∀ p registered, stage = .built p registered → p < server.nextPtr
  unregistered : ∀ p, stage = .built p none →
    ¬ server.mConnections.Reached p ∧ (Server.outbox p server).log = []
  registered : ∀ p n, stage = .built p (some n) →
    n ≤ server.trace.length ∧ (server.trace.take n).filterMap (entryFor p) = []

namespace ServerSide

variable {server t : Server} {stage : ServerStage}

theorem advanced (h : ServerSide server stage) (ha : Advanced server t) : ServerSide t stage where
  fresh := ha.fresh
  sourced p := (ha.moved p).sourced (h.sourced p)
  untouched p hp := by
    have hle : server.nextPtr ≤ p := ha.nextPtr.trans hp
    have hnot : ¬ server.mConnections.Reached p := fun hr => (h.fresh p hr).not_ge hle
    exact ((ha.moved p).idle hnot).trans (h.untouched p hle)
  allocated p r hp := (h.allocated p r hp).trans_le ha.nextPtr
  unregistered p hp := by
    obtain ⟨hnot, hlog⟩ := h.unregistered p hp
    have hlt := h.allocated p none hp
    exact ⟨fun hr => hnot (ha.reached p hlt hr), ((ha.moved p).idle hnot).trans hlog⟩
  registered p n hp := by
    obtain ⟨hle, hnil⟩ := h.registered p n hp
    obtain ⟨es, he⟩ := ha.trace
    rw [← he, List.length_append, List.take_append_of_le_length hle]
    exact ⟨by omega, hnil⟩

/-- As long as no object has been built, the stage does not matter. -/
theorem of_stage {stage' : ServerStage} (h : ServerSide server stage)
    (hstage : ∀ p registered, stage' ≠ .built p registered) : ServerSide server stage' :=
  { h with
    allocated := fun p r hp => absurd hp (hstage p r)
    unregistered := fun p hp => absurd hp (hstage p none)
    registered := fun p n hp => absurd hp (hstage p (some n)) }

/-- **The accept branch**: the new connection has no message when it is registered, and if it is not
registered none can ever reach it. -/
theorem accepted (h : ServerSide server stage) {a : Attempt} {client : ServerConnection}
    (ha : a.construct = .ok client) (connected : Reaction Call) (pc : Pc) :
    ServerSide ((server.acceptBranch a connected).goto pc)
      (.built server.nextPtr
        (if server.nextPtr ∈ ((server.acceptBranch a connected).goto pc).mConnections.mContainer
          then some ((server.acceptBranch a connected).goto pc).trace.length else none)) := by
  have hadv := (Server.advanced_acceptBranch h.fresh a connected).goto pc
  have hnot : ¬ server.mConnections.Reached server.nextPtr := fun hr => lt_irrefl _ (h.fresh _ hr)
  have hlog : (Server.outbox server.nextPtr ((server.acceptBranch a connected).goto pc)).log = [] :=
    ((hadv.moved _).idle hnot).trans (h.untouched _ le_rfl)
  have hkept : ServerSide ((server.acceptBranch a connected).goto pc) .listening :=
    (h.advanced hadv).of_stage fun _ _ => ServerStage.noConfusion
  refine { hkept with allocated := ?_, unregistered := ?_, registered := ?_ }
  · intro p r hp
    obtain ⟨rfl, -⟩ := ServerStage.built.inj hp
    rw [Server.goto_nextPtr]
    exact (Server.acceptBranch_built connected ha).1
  · intro p hp
    obtain ⟨rfl, hr⟩ := ServerStage.built.inj hp
    split_ifs at hr with hmem
    refine ⟨fun hreached => hmem ?_, hlog⟩
    rw [Server.goto_mConnections] at hreached ⊢
    exact Server.acceptBranch_reached h.fresh hreached
  · intro p n hp
    obtain ⟨rfl, hr⟩ := ServerStage.built.inj hp
    split_ifs at hr with hmem
    obtain rfl := Option.some.inj hr
    rw [List.take_length]
    exact ⟨le_rfl, hlog⟩

theorem start (setup : Server.Setup) (stage : ServerStage)
    (hstage : ∀ p registered, stage ≠ .built p registered) :
    ServerSide (Server.waitForEvents setup) stage where
  fresh := Server.fresh_start setup
  sourced _ := (List.nil_sublist _).subperm
  untouched _ _ := rfl
  allocated p r hp := absurd hp (hstage p r)
  unregistered p hp := absurd hp (hstage p none)
  registered p n hp := absurd hp (hstage p (some n))

end ServerSide

namespace Session

/-- What the connection of the client has sent. -/
def appData (s : Session) : Bytes :=
  match s.serverStage with
  | .built p _ => sentBy p s.server.trace
  | _ => []

theorem appData_of_not_built {s : Session}
    (h : ∀ p registered, s.serverStage ≠ .built p registered) : s.appData = [] := by
  unfold appData
  split
  · rename_i p r hp
    exact absurd hp (h p r)
  · rfl

/-- The stream to the client: first what was sent of the acknowledgement, and the `recv` of the
handshake has read nothing else; then what the connection has sent. -/
structure Downstream (s : Session) (acknowledgement : Bytes) : Prop where
  acknowledges : acknowledgement <+: ack
  early : s.serverStage = .listening ∨ (∃ fd, s.serverStage = .accepted fd) → acknowledgement = []
  sent : s.down.sent = acknowledgement.map (Origin.ack, ·) ++ s.appData.map (Origin.message, ·)
  ackBuff : s.ackBuff <+: acknowledgement.map (Origin.ack, ·)

structure Handshaking (s : Session) : Prop where
  server : ServerSide s.server s.serverStage
  unread : (∀ p registered, s.serverStage ≠ .built p registered) → s.up.read = []
  unnamed : s.clientStage ≠ .running → s.up.sent = []
  named : ∀ p registered, s.serverStage = .built p registered → s.up.sent ≠ []
  unacked : s.clientStage = .created ∨ s.clientStage = .connected →
    s.ackBuff = [] ∧ s.down.read = []
  ackRead : s.ackBuff <+: s.down.read
  down : ∃ acknowledgement, s.Downstream acknowledgement

theorem handshaking_start (setup : Server.Setup) (client : Client) :
    (start setup client).Handshaking where
  server := ServerSide.start setup _ fun _ _ => ServerStage.noConfusion
  unread _ := rfl
  unnamed _ := rfl
  named _ _ hp := ServerStage.noConfusion hp
  unacked _ := ⟨rfl, rfl⟩
  ackRead := List.prefix_rfl
  down := ⟨[], List.nil_prefix, fun _ => rfl, rfl, List.prefix_rfl⟩

namespace Handshaking

variable {s : Session}

/-! ### The client -/

theorem recvAck (h : s.Handshaking) (hstage : s.clientStage = .connected) (n : ℕ) :
    Handshaking { s with
      clientStage := .acknowledged, ackBuff := s.down.buffer.take n, down := s.down.recv n } := by
  have hup : s.up.sent = [] := h.unnamed (by rw [hstage]; decide)
  have hnot : ∀ p registered, s.serverStage ≠ .built p registered :=
    fun p r hp => h.named p r hp hup
  obtain ⟨-, hread⟩ := h.unacked (Or.inr hstage)
  obtain ⟨acknowledgement, hd⟩ := h.down
  have hsent : s.down.sent = acknowledgement.map (Origin.ack, ·) := by
    rw [hd.sent, appData_of_not_built hnot, List.map_nil, List.append_nil]
  have hbuffer : s.down.buffer.take n <+: acknowledgement.map (Origin.ack, ·) := by
    have hpre := s.down.read_buffer_isPrefix
    rw [hread, List.nil_append, hsent] at hpre
    exact (List.take_prefix n _).trans hpre
  refine { h with
    unnamed := fun _ => hup
    unacked := fun hs => by rcases hs with hs | hs <;> cases hs
    ackRead := ?_
    down := ⟨acknowledgement, { hd with sent := ?_, ackBuff := hbuffer }⟩ }
  · rw [Stream.read_recv, hread, List.nil_append]
  · rw [Stream.sent_recv]
    exact hd.sent

theorem sendIdentifier (h : s.Handshaking) (hstage : s.clientStage = .acknowledged) (xs : Bytes) :
    Handshaking { s with clientStage := .running, up := s.up.send xs } := by
  have hup : s.up.sent = [] := h.unnamed (by rw [hstage]; decide)
  obtain ⟨acknowledgement, hd⟩ := h.down
  exact { h with
    unnamed := fun hs => absurd rfl hs
    named := fun p r hp => absurd hup (h.named p r hp)
    unacked := fun hs => by rcases hs with hs | hs <;> cases hs
    down := ⟨acknowledgement, { hd with }⟩ }

theorem clientTo (h : s.Handshaking) (hstage : s.clientStage = .running) (c : Client) :
    (s.clientTo c).Handshaking := by
  obtain ⟨acknowledgement, hd⟩ := h.down
  refine { h with
    unnamed := fun hs => absurd hstage hs
    named := fun p r hp => ?_
    unacked := fun hs => ?_
    ackRead := h.ackRead.trans (List.prefix_append _ _)
    down := ⟨acknowledgement, { hd with sent := ?_ }⟩ }
  · have hne := h.named p r hp
    simp only [Session.clientTo, Stream.sent_send]
    exact List.append_ne_nil_of_left_ne_nil hne _
  · rw [show (s.clientTo c).clientStage = s.clientStage from rfl, hstage] at hs
    rcases hs with hs | hs <;> cases hs
  · simp only [Session.clientTo, Stream.sent_recv]
    exact hd.sent

/-! ### The server -/

theorem sendAck (h : s.Handshaking) {fd : Fd} (hstage : s.serverStage = .accepted fd)
    (result : ℤ) :
    Handshaking { s with
      serverStage := .acked fd result
      down := s.down.send ((taken ack result).map (Origin.ack, ·)) } := by
  have hnot : ∀ p registered, s.serverStage ≠ .built p registered := fun p r hp => by
    rw [hstage] at hp
    cases hp
  obtain ⟨acknowledgement, hd⟩ := h.down
  obtain rfl := hd.early (Or.inr ⟨fd, hstage⟩)
  have hsent : s.down.sent = [] := by
    rw [hd.sent, appData_of_not_built hnot]
    rfl
  refine { h with
    server := h.server.of_stage fun _ _ => ServerStage.noConfusion
    unread := fun _ => h.unread hnot
    named := fun p r hp => ServerStage.noConfusion hp
    down := ⟨taken ack result, taken_isPrefix _ _, fun hs => ?_, ?_, ?_⟩ }
  · rcases hs with hs | ⟨fd', hs⟩ <;> cases hs
  · rw [Stream.sent_send, hsent]
    simp [appData]
  · rw [List.prefix_nil.mp hd.ackBuff]
    exact List.nil_prefix

/-- **The server goes on**, in its loop or by a call: what its connection sends is all that enters
the stream. -/
theorem serverTo (h : s.Handshaking) {t : Server} (ha : Advanced s.server t) :
    (s.serverTo t).Handshaking := by
  obtain ⟨acknowledgement, hd⟩ := h.down
  refine { h with
    server := h.server.advanced ha
    unacked := fun hs => ?_
    ackRead := ?_
    down := ⟨acknowledgement, { hd with sent := ?_ }⟩ }
  · refine ⟨(h.unacked hs).1, ?_⟩
    rw [← (h.unacked hs).2]
    unfold Session.serverTo
    cases s.serverStage <;> rfl
  · have hread : (s.serverTo t).down.read = s.down.read := by
      unfold Session.serverTo
      cases s.serverStage <;> rfl
    rw [hread]
    exact h.ackRead
  · obtain ⟨es, he⟩ := ha.trace
    have hsent := hd.sent
    unfold Session.serverTo appData at *
    cases hstage : s.serverStage with
    | built p registered =>
      simp only [hstage] at hsent ⊢
      rw [Stream.sent_send, hsent, ← he, List.drop_left, List.append_assoc, ← List.map_append]
      simp [sentBy]
    | listening => simpa only [hstage] using hsent
    | accepted fd => simpa only [hstage] using hsent
    | acked fd result => simpa only [hstage] using hsent
    | failed => simpa only [hstage] using hsent

/-- A constructor that throws leaves no object, and has read nothing. -/
theorem identify_failed (h : s.Handshaking) {fd : Fd} {result : ℤ}
    (hstage : s.serverStage = .acked fd result) {a : Attempt} (hfd : a.accept = .ok fd)
    {what : String} (hc : a.construct = .error what) (connected : Reaction Call) (pc : Pc) :
    (s.identify a connected pc).Handshaking := by
  have hnot : ∀ p registered, s.serverStage ≠ .built p registered := fun p r hp => by
    rw [hstage] at hp
    cases hp
  have hfailed : (s.identify a connected pc).serverStage = .failed := by
    unfold Session.identify
    simp only [hc]
  have hnot' : ∀ p registered, (s.identify a connected pc).serverStage ≠ .built p registered :=
    fun p r hp => by rw [hfailed] at hp; cases hp
  have hup : (s.identify a connected pc).up.read = [] ∧
      (s.identify a connected pc).up.sent = s.up.sent := by
    unfold Session.identify
    cases hpoll : a.poll with
    | some strerror => exact ⟨h.unread hnot, rfl⟩
    | none =>
      have hdata : a.recv.data = [] := by
        by_contra hne
        obtain ⟨c, hok⟩ := (Attempt.construct_isOk_iff a).mpr ⟨⟨fd, hfd⟩, hpoll, hne⟩
        rw [hc] at hok
        cases hok
      simp [h.unread hnot, hdata]
  have hadv := (Server.advanced_acceptBranch h.server.fresh a connected).goto pc
  obtain ⟨acknowledgement, hd⟩ := h.down
  refine ⟨?_, fun _ => hup.1, fun hs => hup.2.trans (h.unnamed hs),
    fun p r hp => absurd hp (hnot' p r), h.unacked, h.ackRead, acknowledgement, hd.acknowledges,
    fun hs => ?_, ?_, hd.ackBuff⟩
  · rw [hfailed]
    exact (h.server.advanced hadv).of_stage fun _ _ => ServerStage.noConfusion
  · rw [hfailed] at hs
    rcases hs with hs | ⟨fd', hs⟩ <;> cases hs
  · rw [appData_of_not_built hnot', ← appData_of_not_built hnot]
    exact hd.sent

/-- **A constructor that completes** has read a byte, so the client has gone on past its `recv`; the
connection has sent nothing yet. -/
theorem identify_built (h : s.Handshaking) {fd : Fd} {result : ℤ}
    (hstage : s.serverStage = .acked fd result) {a : Attempt} (ha : a.recv.data <+: s.up.buffer)
    {connection : ServerConnection} (hc : a.construct = .ok connection)
    (connected : Reaction Call) (pc : Pc) : (s.identify a connected pc).Handshaking := by
  have hnot : ∀ p registered, s.serverStage ≠ .built p registered := fun p r hp => by
    rw [hstage] at hp
    cases hp
  have hside := h.server.accepted hc connected pc
  have hbuilt : (s.identify a connected pc).serverStage = .built s.server.nextPtr
      (if s.server.nextPtr ∈
          ((s.server.acceptBranch a connected).goto pc).mConnections.mContainer
        then some ((s.server.acceptBranch a connected).goto pc).trace.length else none) := by
    unfold Session.identify
    simp only [hc]
  have hsent : (s.identify a connected pc).up.sent = s.up.sent := by
    unfold Session.identify
    cases a.poll <;> simp
  have hnamed : s.up.sent ≠ [] := by
    have hne : a.recv.data ≠ [] :=
      ((Attempt.construct_isOk_iff a).mp ⟨connection, hc⟩).2.2
    have hbuffer : s.up.buffer ≠ [] := fun hnil => hne (List.prefix_nil.mp (hnil ▸ ha))
    unfold Stream.sent
    simp [hbuffer]
  have hdata : (s.identify a connected pc).appData = [] := by
    have hadv := (Server.advanced_acceptBranch h.server.fresh a connected).goto pc
    have hlog := ((hadv.moved s.server.nextPtr).idle
      fun hr => lt_irrefl _ (h.server.fresh _ hr)).trans (h.server.untouched _ le_rfl)
    unfold Session.appData
    rw [hbuilt]
    exact congrArg (List.flatMap (Entry.sent taken)) hlog
  obtain ⟨acknowledgement, hd⟩ := h.down
  refine ⟨?_, fun hb => absurd hbuilt (hb _ _), fun hs => hsent.trans (h.unnamed hs),
    fun p r hp => by rw [hsent]; exact hnamed, h.unacked, h.ackRead, acknowledgement,
    hd.acknowledges, fun hs => ?_, ?_, hd.ackBuff⟩
  · rw [hbuilt]
    exact hside
  · rw [hbuilt] at hs
    rcases hs with hs | ⟨fd', hs⟩ <;> cases hs
  · rw [hdata, ← appData_of_not_built hnot]
    exact hd.sent

end Handshaking

/-- What the end of the accept branch requires and does. -/
theorem step_identify {s t : Session} {poll : Option String} {recv : Recv}
    {connected : Reaction Call} (h : s.step (.identify poll recv connected) = some t) :
    ∃ fd result pc, s.serverStage = .acked fd result ∧ recv.data <+: s.up.buffer ∧
      t = s.identify { accept := .ok fd, ackResult := result, poll := poll, recv := recv }
        connected pc := by
  simp only [step] at h
  split at h
  · rename_i fd result i fdmax readFds writeFds hstage hpc
    split_ifs at h with hif
    cases h
    exact ⟨fd, result, _, hstage, hif.1, rfl⟩
  · cases h

/-- **The steps of a handshake are one step of the loop**, which the network and the client may
interrupt. -/
theorem identify_server {s : Session} {a : Attempt} {connected : Reaction Call} {e : Reading}
    {i fdmax : ℕ} {readFds writeFds : Finset Fd}
    (hpc : s.server.pc = .scan i fdmax readFds writeFds .read) (hready : i ∈ readFds)
    (hsocket : i = s.server.mConnectSocket) (hr : s.server.Readable a e) :
    s.server.step (.read a connected e) =
      some (s.identify a connected (.scan i fdmax readFds writeFds .write)).server := by
  have hbranch : s.server.readBranch i readFds a connected e =
      s.server.acceptBranch a connected := by
    rw [Server.readBranch, if_pos hready, if_pos hsocket]
  simp only [Server.step, hpc, if_pos hr, hbranch]
  rfl

/-- **The invariant of the handshake** is kept by every step. -/
theorem handshaking_step {s t : Session} {a : Action} (h : s.Handshaking)
    (ht : s.step a = some t) : t.Handshaking := by
  obtain ⟨acknowledgement, hd⟩ := h.down
  cases a with
  | connect =>
    simp only [step] at ht
    split_ifs at ht with hstage
    cases ht
    exact { h with
      unnamed := fun _ => h.unnamed (by rw [hstage]; decide)
      unacked := fun _ => h.unacked (Or.inl hstage)
      down := ⟨acknowledgement, { hd with }⟩ }
  | recvAck n =>
    simp only [step] at ht
    split_ifs at ht with hif
    cases ht
    exact h.recvAck hif.1 n
  | sendIdentifier result =>
    simp only [step] at ht
    split_ifs at ht with hif
    cases ht
    exact h.sendIdentifier hif.1 _
  | client a =>
    simp only [step] at ht
    split_ifs at ht with hstage
    obtain ⟨c, -, hc⟩ := Option.bind_eq_some_iff.mp ht
    split_ifs at hc with hread
    cases hc
    exact h.clientTo hstage c
  | accept fd =>
    simp only [step] at ht
    split_ifs at ht with hif
    cases ht
    have hnot : ∀ p registered, s.serverStage ≠ .built p registered := fun p r hp => by
      rw [hif.1] at hp
      cases hp
    have hdata : s.appData = [] := appData_of_not_built hnot
    refine { h with
      server := h.server.of_stage fun _ _ => ServerStage.noConfusion
      unread := fun _ => h.unread hnot
      named := fun _ _ hp => ServerStage.noConfusion hp
      down := ⟨acknowledgement, { hd with early := fun _ => hd.early (Or.inl hif.1), sent := ?_ }⟩ }
    rw [hd.sent, hdata]
    rfl
  | sendAck result =>
    simp only [step] at ht
    split at ht
    · rename_i fd hstage
      split_ifs at ht with hres
      cases ht
      exact h.sendAck hstage result
    · cases ht
  | identify poll recv connected =>
    obtain ⟨fd, result, pc, hstage, hdata, rfl⟩ := step_identify ht
    cases hc : ({ accept := .ok fd, ackResult := result, poll, recv } : Attempt).construct with
    | error what => exact h.identify_failed hstage rfl hc connected pc
    | ok connection => exact h.identify_built hstage hdata hc connected pc
  | server a =>
    simp only [step] at ht
    split_ifs at ht with hout
    obtain ⟨u, hu, rfl⟩ := Option.map_eq_some_iff.mp ht
    exact h.serverTo (Server.advanced_step h.server.fresh hu)
  | call c =>
    cases ht
    exact h.serverTo (Server.advanced_call h.server.fresh c)
  | arriveUp n =>
    cases ht
    refine { h with
      unnamed := fun hs => ?_
      named := fun p r hp => ?_
      down := ⟨acknowledgement, { hd with }⟩ }
    · rw [Stream.sent_arrive]
      exact h.unnamed hs
    · rw [Stream.sent_arrive]
      exact h.named p r hp
  | arriveDown n =>
    cases ht
    refine { h with down := ⟨acknowledgement, { hd with sent := ?_ }⟩ }
    rw [Stream.sent_arrive]
    exact hd.sent

end Session

end C11Http.Posix
