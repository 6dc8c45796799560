import C11Http.Posix.Handshaking

/-! # The identifier the server takes

The server takes for the identifier of a client whatever its first `recv` returns. Nothing marks the
end of the identifier in the stream, and the socket has been made non-blocking by then, so that
`recv` may return a part of the identifier, or the identifier and messages behind it. The server has
the identifier of the client exactly in the runs in which that `recv` returns as many bytes as the
identifier has, of a stream that begins with it (`identified_iff`). -/

namespace C11Http.Posix

open C11Http.Lib C11Http.Lib.Run

namespace Session

/-- A constructor that has completed has the identifier. -/
def Identified (identifier : Bytes) (s : Session) : Prop :=
  ∀ p registered, s.serverStage = .built p registered →
    (s.server.heap p).mIdentifier = identifier

/-- A `recv` of the constructor that returns bytes returns as many as the identifier has, and the
client has sent the identifier first. -/
def TakesIdentifier (identifier : Bytes) (s : Session) : Action → Prop
  | .identify none recv _ =>
    recv.data ≠ [] → recv.data.length = identifier.length ∧ identifier <+: s.up.sent
  | _ => True

variable {s t : Session} {identifier : Bytes}

/-- Once built, an object keeps its identifier. -/
theorem Identified.serverTo (hs : s.Identified identifier) (h : s.Handshaking) {t : Server}
    (ha : Advanced s.server t) : (s.serverTo t).Identified identifier := by
  intro p registered hp
  exact (ha.mIdentifier p (h.server.allocated p registered hp)).trans (hs p registered hp)

/-- **What the constructor takes** is the identifier exactly if it has the right length and the
stream begins with the identifier. -/
theorem identify_identified_iff (h : s.Handshaking) {fd : Fd} {result : ℤ}
    (hstage : s.serverStage = .acked fd result) {a : Attempt} (hfd : a.accept = .ok fd)
    (ha : a.recv.data <+: s.up.buffer) (connected : Reaction Call) (pc : Pc) :
    (s.identify a connected pc).Identified identifier ↔
      (a.poll = none → a.recv.data ≠ [] →
        a.recv.data.length = identifier.length ∧ identifier <+: s.up.sent) := by
  have hread : s.up.read = [] := h.unread fun p r hp => by
    rw [hstage] at hp
    cases hp
  have hpre : a.recv.data <+: s.up.sent := by
    have hbuffer := s.up.read_buffer_isPrefix
    rw [hread, List.nil_append] at hbuffer
    exact ha.trans hbuffer
  have hok := Attempt.construct_isOk_iff a
  cases hc : a.construct with
  | error what =>
    refine iff_of_true (fun p registered hp => ?_) fun hpoll hne => ?_
    · unfold Session.identify at hp
      simp only [hc] at hp
      cases hp
    · obtain ⟨c, hc'⟩ := hok.mpr ⟨⟨fd, hfd⟩, hpoll, hne⟩
      rw [hc] at hc'
      cases hc'
  | ok connection =>
    obtain ⟨-, hpoll, hne⟩ := hok.mp ⟨connection, hc⟩
    have hid : ((s.server.acceptBranch a connected).heap s.server.nextPtr).mIdentifier =
        a.recv.data := (Server.acceptBranch_built connected hc).2
    have hidentified : (s.identify a connected pc).Identified identifier ↔
        a.recv.data = identifier := by
      unfold Identified Session.identify
      simp only [hc, Server.goto_heap]
      constructor
      · intro hall
        rw [← hall _ _ rfl, hid]
      · intro heq p registered hp
        obtain ⟨rfl, -⟩ := ServerStage.built.inj hp
        rw [hid, heq]
    rw [hidentified]
    constructor
    · rintro rfl - -
      exact ⟨rfl, hpre⟩
    · intro htakes
      obtain ⟨hlen, hbegins⟩ := htakes hpoll hne
      exact (List.prefix_of_prefix_length_le hpre hbegins hlen.le).eq_of_length hlen

theorem identified_step_iff (h : s.Handshaking) (hs : s.Identified identifier) {a : Action}
    (ht : s.step a = some t) : t.Identified identifier ↔ s.TakesIdentifier identifier a := by
  cases a with
  | identify poll recv connected =>
    obtain ⟨fd, result, pc, hstage, hdata, rfl⟩ := step_identify ht
    rw [identify_identified_iff h hstage rfl hdata connected]
    rcases poll with _ | strerror
    · exact ⟨fun hall => hall rfl, fun htakes _ => htakes⟩
    · exact iff_of_true (fun hpoll => by cases hpoll) trivial
  | connect =>
    simp only [step] at ht
    split_ifs at ht
    cases ht
    exact iff_of_true hs trivial
  | recvAck n =>
    simp only [step] at ht
    split_ifs at ht
    cases ht
    exact iff_of_true hs trivial
  | sendIdentifier result =>
    simp only [step] at ht
    split_ifs at ht
    cases ht
    exact iff_of_true hs trivial
  | client a =>
    simp only [step] at ht
    split_ifs at ht
    obtain ⟨c, -, hc⟩ := Option.bind_eq_some_iff.mp ht
    split_ifs at hc
    cases hc
    exact iff_of_true hs trivial
  | accept fd =>
    simp only [step] at ht
    split_ifs at ht
    cases ht
    exact iff_of_true (fun _ _ hp => ServerStage.noConfusion hp) trivial
  | sendAck result =>
    simp only [step] at ht
    split at ht
    · split_ifs at ht
      cases ht
      exact iff_of_true (fun _ _ hp => ServerStage.noConfusion hp) trivial
    · cases ht
  | server a =>
    simp only [step] at ht
    split_ifs at ht
    obtain ⟨u, hu, rfl⟩ := Option.map_eq_some_iff.mp ht
    exact iff_of_true (hs.serverTo h (Server.advanced_step h.server.fresh hu)) trivial
  | call c =>
    cases ht
    exact iff_of_true (hs.serverTo h (Server.advanced_call h.server.fresh c)) trivial
  | arriveUp n =>
    cases ht
    exact iff_of_true hs trivial
  | arriveDown n =>
    cases ht
    exact iff_of_true hs trivial

/-- **The server has the identifier of the client exactly in the runs in which it takes it whole and
alone.** -/
theorem identified_iff (setup : Server.Setup) (client : Client) (as : List Action) :
    Always step (Identified client.mIdentifier) (start setup client) as ↔
      Along step (TakesIdentifier client.mIdentifier) (start setup client) as :=
  always_iff_along (I := Handshaking) (fun _ _ _ h _ ht _ => handshaking_step h ht)
    (fun _ _ _ h hs ht => identified_step_iff h hs ht) as (handshaking_start setup client)
    fun _ _ hp => ServerStage.noConfusion hp

/-! ### Two ways to be misread -/

/-- A client on descriptor 3, named `"ab"`, for the server that listens on descriptor 3. -/
def twoLetters : Client := .connected true [97, 98] 3 (4, 5) ∅

/-- Up to the sending of the identifier. -/
def introduce : List Action :=
  (Server.Action.select (some ({3}, ∅)) :: Server.skip 3).map Action.server ++
    [.connect, .accept 6, .sendAck 3, .arriveDown 3, .recvAck 3, .sendIdentifier 2]

/-- The client sends a first message, `"c"`. -/
def hurry : List Action :=
  [.client .waitForEvents, .client (.call (.sendDataToServer [99])),
    .client (.select (some (∅, {3}))), .client (.read (.bytes []) ⟨[], .returns⟩),
    .client (.write 1 ⟨[], .returns⟩)]

/-- The server takes `data` for the identifier. -/
def Misreads (data : Bytes) (s : Session) : Prop :=
  s.serverStage = .built 0 (some 4) ∧ (s.server.heap 0).mIdentifier = data

instance (data : Bytes) (s : Session) : Decidable (s.Misreads data) := by
  unfold Misreads; infer_instance

theorem Misreads.not_identified {data : Bytes} (h : s.Misreads data) (hne : data ≠ identifier) :
    ¬ s.Identified identifier := fun hall => hne (h.2.symm.trans (hall 0 (some 4) h.1))

/-- **The identifier may be cut**, and data that follow it may be taken for a part of it. -/
theorem identifier_misread :
    (∃ t, run step (start Server.listening twoLetters)
        (introduce ++ [.arriveUp 1, .identify none (.bytes [97]) Server.returns]) = some t ∧
      t.Misreads [97] ∧ ¬ t.Identified twoLetters.mIdentifier) ∧
    ∃ t, run step (start Server.listening twoLetters) (introduce ++ hurry ++
        [.arriveUp 3, .identify none (.bytes [97, 98, 99]) Server.returns]) = some t ∧
      t.Misreads [97, 98, 99] ∧ ¬ t.Identified twoLetters.mIdentifier := by
  constructor
  · obtain ⟨t, hrun, hmis⟩ := exists_run step (start Server.listening twoLetters)
      (introduce ++ [.arriveUp 1, .identify none (.bytes [97]) Server.returns])
      (Misreads [97]) (by decide)
    exact ⟨t, hrun, hmis, hmis.not_identified (by decide)⟩
  · obtain ⟨t, hrun, hmis⟩ := exists_run step (start Server.listening twoLetters)
      (introduce ++ hurry ++
        [.arriveUp 3, .identify none (.bytes [97, 98, 99]) Server.returns])
      (Misreads [97, 98, 99]) (by decide)
    exact ⟨t, hrun, hmis, hmis.not_identified (by decide)⟩

end Session

end C11Http.Posix
