import C11Http.Posix.Identifier

/-! # When the two constructors can complete

While the server is in the constructor of a connection it serves nobody else, and the client on the
other side is in its own constructor, or has left it. Each waits for bytes of the other: the client
for the acknowledgement, the server for the identifier. Neither looks at what its own `::send` has
returned.

`canMeet_iff`: in the middle of a handshake, however it was reached and whatever else has happened,
the two constructors can still complete, without a failure and by themselves, exactly if nothing one
of them waits for has got lost already (`Unhindered`). So they never wait for each other; but after
a `::send` that has failed, or of an empty identifier, one of them waits for bytes that no
constructor sends. The server then serves none of its clients until some other bytes come. -/

namespace C11Http.Posix

open C11Http.Lib C11Http.Lib.Run

namespace Session

/-- A step of one of the two constructors in which no call fails, or a delivery. -/
def Action.Meets : Action → Prop
  | .connect => True
  | .recvAck n => 0 < n
  | .sendIdentifier result => 0 < result
  | .accept _ => True
  | .sendAck result => 0 < result
  | .identify poll recv _ => poll = none ∧ recv.data ≠ []
  | .arriveUp _ => True
  | .arriveDown _ => True
  | .client _ => False
  | .server _ => False
  | .call _ => False

/-- Both constructors can complete. -/
def CanMeet (s : Session) : Prop :=
  ∃ as t, (∀ a ∈ as, a.Meets) ∧ run step s as = some t ∧ t.clientStage = .running ∧
    ∃ p registered, t.serverStage = .built p registered

/-- Nothing that the client or the server waits for is missing. -/
def Unhindered (s : Session) : Prop :=
  match s.clientStage with
  | .running => s.up.sent ≠ []
  | .connected => s.client.mIdentifier ≠ [] ∧
      ∀ fd result, s.serverStage = .acked fd result → 0 < result
  | _ => s.client.mIdentifier ≠ []

/-- The server while it is in the constructor. -/
structure Inside (s : Session) : Prop where
  scanning : ¬ s.serverStage.Outside →
    ∃ i fdmax readFds writeFds, s.server.pc = .scan i fdmax readFds writeFds .read
  connected : ¬ s.serverStage.Outside → s.clientStage ≠ .created
  acked : ∀ fd result, s.serverStage = .acked fd result →
    s.down.sent = (taken ack result).map (Origin.ack, ·)

variable {s t : Session}

/-! ### The server in the constructor -/

theorem not_built (h : ¬ s.serverStage.Outside) : ∀ p registered,
    s.serverStage ≠ .built p registered := by
  intro p registered hp
  rw [hp] at h
  exact h trivial

theorem acked_not_outside {fd : Fd} {result : ℤ} (h : s.serverStage = .acked fd result) :
    ¬ s.serverStage.Outside := by
  rw [h]
  exact id

theorem inside_of_outside (h : s.serverStage.Outside) : s.Inside where
  scanning hno := absurd h hno
  connected hno := absurd h hno
  acked _ _ hs := absurd h (acked_not_outside hs)

/-- Before the acknowledgement nothing is sent to the client. -/
theorem down_sent_of_accepted (h : s.Handshaking) {fd : Fd} (hs : s.serverStage = .accepted fd) :
    s.down.sent = [] := by
  obtain ⟨acknowledgement, hd⟩ := h.down
  obtain rfl := hd.early (Or.inr ⟨fd, hs⟩)
  rw [hd.sent, appData_of_not_built fun p r hp => by rw [hs] at hp; cases hp]
  rfl

/-- The client goes on, or the network. -/
theorem Inside.same (h : s.Inside) (hstage : t.serverStage = s.serverStage)
    (hserver : t.server = s.server) (hdown : t.down.sent = s.down.sent)
    (hclient : s.clientStage ≠ .created → t.clientStage ≠ .created) : t.Inside where
  scanning hno := by
    rw [hserver]
    exact h.scanning (hstage ▸ hno)
  connected hno := hclient (h.connected (hstage ▸ hno))
  acked fd result hs := by
    rw [hdown]
    exact h.acked fd result (hstage ▸ hs)

theorem inside_step {a : Action} (hh : s.Handshaking) (h : s.Inside) (ht : s.step a = some t) :
    t.Inside := by
  cases a with
  | connect =>
    simp only [step] at ht
    split_ifs at ht
    cases ht
    exact h.same rfl rfl rfl fun _ => ClientStage.noConfusion
  | recvAck n =>
    simp only [step] at ht
    split_ifs at ht
    cases ht
    exact h.same rfl rfl (Stream.sent_recv _ _) fun _ => ClientStage.noConfusion
  | sendIdentifier result =>
    simp only [step] at ht
    split_ifs at ht
    cases ht
    exact h.same rfl rfl rfl fun _ => ClientStage.noConfusion
  | client a =>
    simp only [step] at ht
    split_ifs at ht
    obtain ⟨c, -, hc⟩ := Option.bind_eq_some_iff.mp ht
    split_ifs at hc
    cases hc
    exact h.same rfl rfl (Stream.sent_recv _ _) id
  | accept fd =>
    simp only [step] at ht
    split_ifs at ht with hok
    cases ht
    refine ⟨fun _ => ?_, fun _ => hok.2.1, fun _ _ hs => ServerStage.noConfusion hs⟩
    have hacc := hok.2.2.1
    unfold Server.Accepting at hacc
    split at hacc
    · rename_i i fdmax readFds writeFds hpc
      exact ⟨i, fdmax, readFds, writeFds, hpc⟩
    · exact hacc.elim
  | sendAck result =>
    simp only [step] at ht
    split at ht
    · rename_i fd hstage
      split_ifs at ht
      cases ht
      have hno : ¬ s.serverStage.Outside := by rw [hstage]; exact id
      refine ⟨fun _ => h.scanning hno, fun _ => h.connected hno, fun fd' result' hs => ?_⟩
      obtain ⟨-, rfl⟩ := ServerStage.acked.inj hs
      rw [Stream.sent_send, down_sent_of_accepted hh hstage, List.nil_append]
    · cases ht
  | identify poll recv connected =>
    obtain ⟨fd, result, pc, -, -, rfl⟩ := step_identify ht
    refine inside_of_outside ?_
    unfold Session.identify
    simp only
    split <;> trivial
  | server a =>
    simp only [step] at ht
    split_ifs at ht with hout
    obtain ⟨u, -, rfl⟩ := Option.map_eq_some_iff.mp ht
    exact inside_of_outside hout
  | call c =>
    cases ht
    by_cases hout : s.serverStage.Outside
    · exact inside_of_outside hout
    · have hdown : (s.serverTo (s.server.call c)).down = s.down := by
        unfold Session.serverTo
        cases hstage : s.serverStage with
        | built p registered => exact absurd hstage (not_built hout p registered)
        | _ => rfl
      refine ⟨fun hno => ?_, h.connected, fun fd result hs => ?_⟩
      · obtain ⟨i, fdmax, readFds, writeFds, hpc⟩ := h.scanning hno
        exact ⟨i, fdmax, readFds, writeFds, (Server.called_call s.server c).pc.trans hpc⟩
      · rw [hdown]
        exact h.acked fd result hs
  | arriveUp n =>
    cases ht
    exact h.same rfl rfl rfl id
  | arriveDown n =>
    cases ht
    exact h.same rfl rfl (Stream.sent_arrive _ _) id

/-! ### Completing -/

theorem CanMeet.step {a : Action} (ha : a.Meets) (ht : s.step a = some t) (h : t.CanMeet) :
    s.CanMeet := by
  obtain ⟨as, u, has, hrun, hu⟩ := h
  refine ⟨a :: as, u, fun b hb => ?_, by rw [run_cons, ht]; exact hrun, hu⟩
  rcases List.mem_cons.mp hb with rfl | hb
  · exact ha
  · exact has b hb

/-- All that is on its way arrives, and there is something to read. -/
theorem buffer_arrive {α : Type*} {c : Stream α} (hread : c.read = []) (hsent : c.sent ≠ []) :
    (c.arrive c.transit.length).buffer ≠ [] := by
  intro hnil
  refine hsent ?_
  have hall : c.buffer ++ c.transit = [] := by
    simpa [Stream.arrive] using hnil
  unfold Stream.sent
  rw [hread, List.nil_append, hall]

/-- What the client has to name itself by, whole. -/
theorem sendIdentifier_whole (s : Session) :
    SendResult s.client.mIdentifier s.client.mIdentifier.length ∧
      taken s.client.mIdentifier s.client.mIdentifier.length = s.client.mIdentifier := by
  refine ⟨⟨by omega, le_rfl⟩, ?_⟩
  unfold taken
  rw [Int.toNat_natCast, List.take_length]

/-- The client is through: the server takes a first byte for the identifier. -/
theorem canMeet_running (hh : s.Handshaking) (h : s.Inside) {fd : Fd} {result : ℤ}
    (hstage : s.serverStage = .acked fd result) (hclient : s.clientStage = .running)
    (hsent : s.up.sent ≠ []) : s.CanMeet := by
  have hno := acked_not_outside hstage
  obtain ⟨i, fdmax, readFds, writeFds, hpc⟩ := h.scanning hno
  have hbuffer := buffer_arrive (hh.unread (not_built hno)) hsent
  obtain ⟨x, rest, hx⟩ := List.exists_cons_of_ne_nil hbuffer
  refine CanMeet.step (a := .arriveUp s.up.transit.length) trivial rfl ?_
  -- one byte is enough for the constructor of the connection to complete
  let attempt : Attempt :=
    { accept := .ok fd, ackResult := result, poll := none, recv := .bytes [x] }
  obtain ⟨c, hc⟩ := attempt.construct_isOk_iff.mpr ⟨⟨fd, rfl⟩, rfl, List.cons_ne_nil x []⟩
  let arrived : Session := { s with up := s.up.arrive s.up.transit.length }
  have ht : arrived.step (.identify none (.bytes [x]) Server.returns) =
      some (arrived.identify attempt Server.returns (.scan i fdmax readFds writeFds .write)) := by
    simp only [Session.step, arrived, hstage, hpc]
    rw [if_pos ⟨by rw [hx]; exact ⟨rest, rfl⟩, show 1 ≤ maxBufferSize by decide⟩]
  have hmeets : (Action.identify none (.bytes [x]) Server.returns).Meets :=
    ⟨rfl, List.cons_ne_nil x []⟩
  refine CanMeet.step hmeets ht ?_
  have hbuilt : ∃ p registered, (arrived.identify attempt Server.returns
      (.scan i fdmax readFds writeFds .write)).serverStage = .built p registered := by
    unfold Session.identify
    simp only [hc]
    exact ⟨_, _, rfl⟩
  exact ⟨[], _, fun b hb => absurd hb (List.not_mem_nil), rfl, hclient, hbuilt⟩

/-- The client has read, or given up reading, the acknowledgement: it sends its identifier. -/
theorem canMeet_acknowledged (hh : s.Handshaking) (h : s.Inside) {fd : Fd} {result : ℤ}
    (hstage : s.serverStage = .acked fd result) (hclient : s.clientStage = .acknowledged)
    (hname : s.client.mIdentifier ≠ []) : s.CanMeet := by
  obtain ⟨hres, htaken⟩ := sendIdentifier_whole s
  have ht : s.step (.sendIdentifier s.client.mIdentifier.length) = some { s with
      clientStage := .running
      up := s.up.send (taken s.client.mIdentifier s.client.mIdentifier.length) } := by
    simp only [step]
    rw [if_pos ⟨hclient, hres⟩]
  have hpos : 0 < s.client.mIdentifier.length := List.length_pos_iff.mpr hname
  refine CanMeet.step (by simpa [Action.Meets] using hpos) ht ?_
  refine canMeet_running (handshaking_step hh ht) (inside_step hh h ht) hstage rfl ?_
  rw [Stream.sent_send, htaken]
  exact List.append_ne_nil_of_right_ne_nil _ hname

/-- The client is in the `recv` of the acknowledgement: a byte of it has been sent. -/
theorem canMeet_connected (hh : s.Handshaking) (h : s.Inside) {fd : Fd} {result : ℤ}
    (hstage : s.serverStage = .acked fd result) (hclient : s.clientStage = .connected)
    (hname : s.client.mIdentifier ≠ []) (hresult : 0 < result) : s.CanMeet := by
  have hsent : s.down.sent ≠ [] := by
    rw [h.acked fd result hstage]
    unfold taken ack
    obtain ⟨n, hn⟩ : ∃ n, result.toNat = n + 1 := ⟨result.toNat - 1, by omega⟩
    rw [hn]
    exact List.cons_ne_nil _ _
  have hbuffer := buffer_arrive (hh.unacked (Or.inr hclient)).2 hsent
  refine CanMeet.step (a := .arriveDown s.down.transit.length) trivial rfl ?_
  have hh' := handshaking_step (a := .arriveDown s.down.transit.length) hh rfl
  have h' := inside_step (a := .arriveDown s.down.transit.length) hh h rfl
  have ht : step { s with down := s.down.arrive s.down.transit.length } (.recvAck 1) =
      some { s with
        clientStage := .acknowledged
        ackBuff := (s.down.arrive s.down.transit.length).buffer.take 1
        down := (s.down.arrive s.down.transit.length).recv 1 } := by
    simp only [step]
    rw [if_pos ⟨hclient, by decide, List.length_pos_iff.mpr hbuffer⟩]
  refine CanMeet.step (a := .recvAck 1) Nat.one_pos ht ?_
  exact canMeet_acknowledged (handshaking_step hh' ht) (inside_step hh' h' ht) hstage rfl hname

/-- The acknowledgement has been sent. -/
theorem canMeet_acked (hh : s.Handshaking) (h : s.Inside) {fd : Fd} {result : ℤ}
    (hstage : s.serverStage = .acked fd result) (hu : s.Unhindered) : s.CanMeet := by
  unfold Unhindered at hu
  cases hclient : s.clientStage with
  | created => exact absurd hclient (h.connected (acked_not_outside hstage))
  | connected =>
    simp only [hclient] at hu
    exact canMeet_connected hh h hstage hclient hu.1 (hu.2 fd result hstage)
  | acknowledged =>
    simp only [hclient] at hu
    exact canMeet_acknowledged hh h hstage hclient hu
  | running =>
    simp only [hclient] at hu
    exact canMeet_running hh h hstage hclient hu

/-- **Neither side waits for the other** as long as nothing it waits for is missing. -/
theorem canMeet_of_unhindered (hh : s.Handshaking) (h : s.Inside) (hno : ¬ s.serverStage.Outside)
    (hu : s.Unhindered) : s.CanMeet := by
  cases hstage : s.serverStage with
  | listening => exact absurd (by rw [hstage]; trivial) hno
  | failed => exact absurd (by rw [hstage]; trivial) hno
  | built p registered => exact absurd hstage (not_built hno p registered)
  | acked fd result => exact canMeet_acked hh h hstage hu
  | accepted fd =>
    have ht : s.step (.sendAck 3) = some { s with
        serverStage := .acked fd 3
        down := s.down.send ((taken ack 3).map (Origin.ack, ·)) } := by
      simp only [step, hstage]
      rw [if_pos (by decide)]
    refine CanMeet.step (a := .sendAck 3) (by unfold Action.Meets; omega) ht ?_
    refine canMeet_acked (handshaking_step hh ht) (inside_step hh h ht) rfl ?_
    unfold Unhindered at hu ⊢
    cases hclient : s.clientStage with
    | connected =>
      simp only [hclient] at hu ⊢
      refine ⟨hu.1, fun fd' result' hs => ?_⟩
      obtain ⟨-, rfl⟩ := ServerStage.acked.inj hs
      omega
    | created => simpa only [hclient] using hu
    | acknowledged => simpa only [hclient] using hu
    | running => simpa only [hclient] using hu

/-! ### Waiting for good -/

/-- The server is in the constructor, and something is missing. -/
structure Hindered (s : Session) : Prop where
  inside : ¬ s.serverStage.Outside
  missing : ¬ s.Unhindered

/-- **What is missing stays missing**: no step of the two constructors makes up for it. -/
theorem hindered_step {a : Action} (hh : s.Handshaking) (h : s.Inside) (hind : s.Hindered)
    (ha : a.Meets) (ht : s.step a = some t) : t.Hindered := by
  obtain ⟨hno, hmissing⟩ := hind
  unfold Unhindered at hmissing
  cases a with
  | connect =>
    simp only [step] at ht
    split_ifs at ht with hclient
    exact absurd hclient (h.connected hno)
  | recvAck n =>
    simp only [step] at ht
    split_ifs at ht with hif
    obtain ⟨hclient, -, hn⟩ := hif
    cases ht
    refine ⟨hno, fun hname => hmissing ?_⟩
    simp only [Unhindered] at hname
    simp only [hclient]
    refine ⟨hname, fun fd result hs => ?_⟩
    -- the byte that was read had been sent
    by_contra hresult
    have hnil : s.down.sent = [] := by
      have hzero : result.toNat = 0 := by omega
      rw [h.acked fd result hs, taken, hzero]
      rfl
    have hbuffer : s.down.buffer = [] := by
      unfold Stream.sent at hnil
      simp only [List.append_eq_nil_iff] at hnil
      exact hnil.1.2
    rw [hbuffer] at hn
    exact absurd hn (Nat.not_le_of_lt ha)
  | sendIdentifier result =>
    simp only [step] at ht
    split_ifs at ht with hif
    obtain ⟨hclient, -, hle⟩ := hif
    simp only [hclient, not_not] at hmissing
    rw [hmissing] at hle
    exact absurd ha (by simpa [Action.Meets] using hle)
  | accept fd =>
    simp only [step] at ht
    split_ifs at ht with hok
    exact absurd (by rw [hok.1]; trivial) hno
  | sendAck result =>
    simp only [step] at ht
    split at ht
    · rename_i fd hstage
      split_ifs at ht
      cases ht
      refine ⟨id, fun hu => hmissing ?_⟩
      unfold Unhindered at hu
      cases hclient : s.clientStage with
      | connected =>
        simp only [hclient] at hu ⊢
        exact ⟨hu.1, fun fd' result' hs => by rw [hstage] at hs; cases hs⟩
      | created => simpa only [hclient] using hu
      | acknowledged => simpa only [hclient] using hu
      | running => simpa only [hclient] using hu
    · cases ht
  | identify poll recv connected =>
    obtain ⟨fd, result, pc, hstage, hdata, -⟩ := step_identify ht
    -- the byte that was read had been sent, by a client that was through
    exfalso
    have hsent : s.up.sent ≠ [] := by
      intro hnil
      unfold Stream.sent at hnil
      simp only [List.append_eq_nil_iff] at hnil
      rw [hnil.1.2, List.prefix_nil] at hdata
      exact ha.2 hdata
    have hclient : s.clientStage = .running := by
      by_contra hclient
      exact hsent (hh.unnamed hclient)
    simp only [hclient] at hmissing
    exact hmissing hsent
  | arriveUp n =>
    cases ht
    refine ⟨hno, fun hu => hmissing ?_⟩
    unfold Unhindered at hu
    cases hclient : s.clientStage with
    | running => simpa only [hclient, Stream.sent_arrive] using hu
    | created => simpa only [hclient] using hu
    | connected => simpa only [hclient] using hu
    | acknowledged => simpa only [hclient] using hu
  | arriveDown n =>
    cases ht
    exact ⟨hno, hmissing⟩
  | client a => exact ha.elim
  | server a => exact ha.elim
  | call c => exact ha.elim

/-- What holds in every handshake of every run. -/
theorem inside_run {as : List Action} (hh : s.Handshaking) (h : s.Inside)
    (hrun : run step s as = some t) : t.Handshaking ∧ t.Inside :=
  (always_of_inv (P := fun s => s.Handshaking ∧ s.Inside)
    (fun _ _ _ hi ht => ⟨handshaking_step hi.1 ht, inside_step hi.1 hi.2 ht⟩) as ⟨hh, h⟩).last hrun

theorem hindered_run : ∀ {as : List Action} {s : Session}, s.Handshaking → s.Inside →
    s.Hindered → (∀ a ∈ as, a.Meets) → run step s as = some t → t.Hindered
  | [], s, _, _, hind, _, hrun => by
    cases hrun
    exact hind
  | a :: as, s, hh, h, hind, has, hrun => by
    obtain ⟨u, hu, hrest⟩ := Option.bind_eq_some_iff.mp ((run_cons s a as).symm.trans hrun)
    exact hindered_run (handshaking_step hh hu) (inside_step hh h hu)
      (hindered_step hh h hind (has a List.mem_cons_self) hu)
      (fun b hb => has b (List.mem_cons_of_mem _ hb)) hrest

theorem canMeet_iff_of_inside (hh : s.Handshaking) (h : s.Inside)
    (hno : ¬ s.serverStage.Outside) : s.CanMeet ↔ s.Unhindered := by
  refine ⟨?_, canMeet_of_unhindered hh h hno⟩
  rintro ⟨as, t, has, hrun, -, p, registered, hbuilt⟩
  by_contra hmissing
  have hind := hindered_run hh h ⟨hno, hmissing⟩ has hrun
  exact not_built hind.inside p registered hbuilt

end Session

open Session in
/-- **A handshake under way can complete** exactly if nothing that one of the two sides waits for
has got lost. -/
theorem Session.canMeet_iff (setup : Server.Setup) (client : Client) {as : List Session.Action}
    {s : Session} (hrun : run Session.step (Session.start setup client) as = some s)
    (hinside : ¬ s.serverStage.Outside) : s.CanMeet ↔ s.Unhindered := by
  obtain ⟨hh, h⟩ :=
    inside_run (handshaking_start setup client) (inside_of_outside trivial) hrun
  exact canMeet_iff_of_inside hh h hinside

/-- The server has accepted the client named `"ab"`, and its `::send` of the acknowledgement has
returned `result`. -/
def Session.greeted (result : ℤ) : List Session.Action :=
  (Server.Action.select (some ({3}, ∅)) :: Server.skip 3).map Session.Action.server ++
    [.connect, .accept 6, .sendAck result]

open Session in
theorem Session.canMeet_iff_greeted :
    (∃ s, run step (start Server.listening twoLetters) (greeted 3) = some s ∧ s.CanMeet) ∧
    ∃ s, run step (start Server.listening twoLetters) (greeted (-1)) = some s ∧ ¬ s.CanMeet := by
  constructor
  · obtain ⟨s, hrun, hstage, hclient, hname⟩ := exists_run step
      (start Server.listening twoLetters) (greeted 3)
      (fun s => s.serverStage = .acked 6 3 ∧ s.clientStage = .connected ∧
        s.client.mIdentifier = [97, 98]) (by decide)
    refine ⟨s, hrun, (Session.canMeet_iff Server.listening twoLetters hrun
      (acked_not_outside hstage)).mpr ?_⟩
    unfold Unhindered
    rw [hclient]
    refine ⟨by rw [hname]; decide, fun fd result hs => ?_⟩
    obtain ⟨-, rfl⟩ := ServerStage.acked.inj (hstage.symm.trans hs)
    decide
  · obtain ⟨s, hrun, hstage, hclient⟩ := exists_run step
      (start Server.listening twoLetters) (greeted (-1))
      (fun s => s.serverStage = .acked 6 (-1) ∧ s.clientStage = .connected) (by decide)
    refine ⟨s, hrun, fun hmeet => ?_⟩
    have hu := (Session.canMeet_iff Server.listening twoLetters hrun
      (acked_not_outside hstage)).mp hmeet
    unfold Unhindered at hu
    rw [hclient] at hu
    exact absurd (hu.2 6 (-1) hstage) (by decide)

end C11Http.Posix
