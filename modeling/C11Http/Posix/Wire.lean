import C11Http.Posix.ClientTrace
import C11Http.Posix.Identifier
import C11Http.Posix.Receive
import C11Http.Posix.Trace

/-! # The streams between a client and the server

A session leaves to the system what the server receives from the client behind the handshake.
`wireStep` takes it from the stream: while the connection of the client is registered, what `recv`
returns on its socket is what has arrived there.

`upstream_exact` and `downstream_exact` account for every byte of the two streams. What the callback
of the server is told of the client, followed by what is still on its way, is what the client has
sent; and the other way round. The server's side needs a registry that keeps its connections apart,
so removals have to be of the last connection. -/

namespace C11Http.Posix

open C11Http.Lib C11Http.Lib.Run Connections

/-- What the callback is told that the client of a connection has sent: first its identifier. -/
def passedOn (p : Ptr) : Event → Option Bytes
  | .connected q identifier => if q = p then some identifier else none
  | .receiveComplete q _ data => if q = p then some data else none
  | _ => none

def passed (p : Ptr) (es : List Event) : Bytes := (es.filterMap (passedOn p)).flatten

/-- What the callback of a client is told that the server has sent. -/
def Client.passed (es : List ClientEvent) : Bytes :=
  es.flatMap fun e =>
    match e with
    | .receiveComplete _ data => data
    | _ => []

/-- The descriptor in the constructor of the connection. -/
def ServerStage.descriptor : ServerStage → Option Fd
  | .accepted fd => some fd
  | .acked fd _ => some fd
  | _ => none

namespace Session

/-- What the server takes from the stream in going to `t`. -/
def fromClient (s : Session) (t : Server) : Bytes :=
  match s.serverStage with
  | .built p _ =>
    if p ∈ s.server.mConnections.mContainer then
      ((t.trace.drop s.server.trace.length).filterMap (received (s.server.heap p).mSocket)).flatten
    else []
  | _ => []

/-- The loop of the server has gone on to `t`. -/
def loopTo (s : Session) (t : Server) : Session :=
  { s.serverTo t with up := s.up.recv (s.fromClient t).length }

def wireStep (s : Session) : Action → Option Session
  | .server a =>
    if s.serverStage.Outside then
      (s.server.step a).bind fun t =>
        if s.fromClient t <+: s.up.buffer then some (s.loopTo t) else none
    else none
  | a => s.step a

/-- A removal of the server is of the last connection. -/
def RemovesLast (s : Session) : Action → Prop
  | .server a => Server.RemovesLast s.server a
  | _ => True

instance (s : Session) (a : Action) : Decidable (s.RemovesLast a) := by
  cases a <;> unfold RemovesLast <;> infer_instance

end Session

namespace Server

variable {s t : Server} {a : Action}

/-! ### What the callback is told -/

theorem passedOn_ofLoop (p : Ptr) : ∀ e, ofLoop e = false → passedOn p e = none := by
  intro e he
  cases e <;> first | rfl | cases he

theorem received_ofLoop (fd : Fd) : ∀ e, ofLoop e = false → Posix.received fd e = none := by
  intro e he
  cases e <;> first | rfl | cases he

theorem passed_cons (p : Ptr) (e : Event) (es : List Event) :
    passed p (e :: es) = (passedOn p e).getD [] ++ passed p es := by
  unfold passed
  rw [List.filterMap_cons]
  cases passedOn p e <;> rfl

@[simp] theorem passed_append (p : Ptr) (es fs : List Event) :
    passed p (es ++ fs) = passed p es ++ passed p fs := by
  simp [passed]

theorem passed_step (p : Ptr) (h : s.step a = some t) :
    passed p t.trace = passed p s.trace ++ passed p (s.happened a) := by
  unfold passed
  rw [filterMap_step (passedOn_ofLoop p) h, List.flatten_append]

theorem passed_of_called (p : Ptr) (h : Called s t) : passed p t.trace = passed p s.trace := by
  unfold passed
  rw [← filterMap_loopTrace (passedOn_ofLoop p), ← filterMap_loopTrace (passedOn_ofLoop p),
    loopTrace_of_called h]

theorem passed_goto (p : Ptr) (s : Server) (pc : Pc) :
    passed p (s.goto pc).trace = passed p s.trace := by
  unfold goto
  split <;> rfl

theorem passed_removed (p : Ptr) (s : Server) (sckt : Fd) : passed p (s.removed sckt) = [] := by
  unfold removed
  split <;> rfl

theorem passed_dropped (p : Ptr) (s : Server) (sckt : Fd) (q : Ptr) (r : Reaction Call) :
    passed p (s.dropped sckt q r) = [] := by
  have hremoved := passed_removed p s sckt
  unfold dropped
  split_ifs
  · exact hremoved
  · rfl
  · exact hremoved

theorem received_removed (fd : Fd) (s : Server) (sckt : Fd) :
    (s.removed sckt).filterMap (Posix.received fd) = [] := by
  unfold removed
  split <;> rfl

theorem received_dropped (fd : Fd) (s : Server) (sckt : Fd) (q : Ptr) (r : Reaction Call) :
    (s.dropped sckt q r).filterMap (Posix.received fd) = [] := by
  have hremoved := received_removed fd s sckt
  unfold dropped
  split_ifs
  · exact hremoved
  · rfl
  · exact hremoved

/-- A connection attempt tells of the new object only, and only if there is one. -/
theorem passed_attempted (p : Ptr) (s : Server) (a : Attempt) :
    passed p (s.attempted a) =
      match a.construct with
      | .error _ => []
      | .ok client => if s.mCallback ∧ s.nextPtr = p then client.mIdentifier else [] := by
  have hevents : passed p a.events = [] := by
    unfold passed
    rw [filterMap_events a (fun _ => rfl) (fun _ _ => rfl) (fun _ _ => rfl)]
    rfl
  unfold attempted
  rw [passed_append, hevents, List.nil_append]
  cases a.construct with
  | error what => rfl
  | ok client =>
    by_cases hcb : s.mCallback = true
    · by_cases hp : s.nextPtr = p
      · simp [passed, passedOn, hcb, hp]
      · simp [passed, passedOn, hcb, hp]
    · simp [passed, hcb]

theorem passed_handled (p : Ptr) (s : Server) (hcb : s.mCallback = true) (i : Fd) (e : Reading) :
    passed p (s.handled i e) =
      if s.mConnections.getServerConnection s.heap i = some p then e.recv.data else [] := by
  unfold handled
  cases hq : s.mConnections.getServerConnection s.heap i with
  | none => rfl
  | some q =>
    have hdropped := passed_dropped p s i q e.disconnected
    by_cases hdata : e.recv.data = []
    · simp only [if_pos hdata]
      rw [passed_cons, hdropped, hdata, ite_self]
      rfl
    · have hrest : passed p
          (if e.receiveComplete.outcome = .runtimeError then s.dropped i q e.disconnected else []) =
          [] := by
        split_ifs
        · exact hdropped
        · rfl
      simp only [if_neg hdata, if_pos hcb, Option.some.injEq]
      rw [passed_cons, passed_cons, hrest, List.append_nil]
      by_cases hqp : q = p
      · simp [passedOn, hqp]
      · simp [passedOn, hqp]

theorem passed_written (p : Ptr) (s : Server) (i : Fd) (e : Writing) :
    passed p (s.written i e) = [] := by
  unfold written
  split
  · rfl
  · split
    · rfl
    · split_ifs <;> rfl

theorem received_handled (fd : Fd) (s : Server) (i : Fd) (e : Reading) :
    ((s.handled i e).filterMap (Posix.received fd)).flatten =
      match s.mConnections.getServerConnection s.heap i with
      | none => []
      | some q => if (s.heap q).mSocket = fd then e.recv.data else [] := by
  unfold handled
  cases s.mConnections.getServerConnection s.heap i with
  | none => rfl
  | some q =>
    have hdropped := received_dropped fd s i q e.disconnected
    have hrest : (if e.recv.data = [] then s.dropped i q e.disconnected
        else if s.mCallback then
          .receiveComplete q (s.heap q).mIdentifier e.recv.data ::
            if e.receiveComplete.outcome = .runtimeError then s.dropped i q e.disconnected else []
        else []).filterMap (Posix.received fd) = [] := by
      split_ifs
      · exact hdropped
      · exact hdropped
      · rfl
      · rfl
    simp only [List.filterMap_cons, hrest]
    by_cases hfd : (s.heap q).mSocket = fd
    · simp [Posix.received, hfd]
    · simp [Posix.received, hfd]

theorem received_written (fd : Fd) (s : Server) (i : Fd) (e : Writing) :
    (s.written i e).filterMap (Posix.received fd) = [] := by
  unfold written
  split
  · rfl
  · split
    · rfl
    · split_ifs <;> rfl

/-- **What is received on the socket of a registered connection is passed on**, in the same step. -/
theorem passed_happened_of_mem (hs : s.Live) (hcb : s.mCallback = true) {p : Ptr}
    (hp : p ∈ s.mConnections.mContainer) (h : s.step a = some t) :
    passed p (s.happened a) =
      ((s.happened a).filterMap (Posix.received (s.heap p).mSocket)).flatten := by
  obtain ⟨hnil, -⟩ | ⟨attempt, connected, e, pc, -, hr, hap, -⟩ |
    ⟨attempt, connected, e, i, pc, -, hap, -⟩ | ⟨e, i, pc, -, -, hap, -⟩ := happened_cases h
  · rw [hnil]
    rfl
  · have hne : s.nextPtr ≠ p := (hs.fresh p (Or.inl hp)).ne'
    have hfd : ¬ (attempt.accept = .ok (s.heap p).mSocket ∧ attempt.poll = none) :=
      fun hacc => (fits_of_readable hr _ hacc.1).1 (hs.opened p hp)
    have hreceived : (s.attempted attempt).filterMap (Posix.received (s.heap p).mSocket) = [] := by
      unfold attempted
      rw [List.filterMap_append, received_events, if_neg hfd, List.nil_append]
      split
      · rfl
      · split
        · rfl
        · rfl
    rw [hap, hreceived, passed_attempted]
    split
    · rfl
    · rw [if_neg fun hq => hne hq.2]
      rfl
  · rw [hap, passed_handled p s hcb, received_handled]
    cases hq : s.mConnections.getServerConnection s.heap i with
    | none => rfl
    | some q =>
      obtain ⟨hmem, -⟩ := getServerConnection_some hq
      by_cases hqp : q = p
      · simp [hqp]
      · have hsock : (s.heap q).mSocket ≠ (s.heap p).mSocket :=
          fun heq => hqp (hs.distinct.inj hmem hp heq)
        simp [hqp, hsock]
  · rw [hap, passed_written, received_written]
    rfl

/-- Nothing is told of an object that is not registered and not made in the step. -/
theorem passed_happened_of_notMem (hcb : s.mCallback = true) {p : Ptr}
    (hp : p ∉ s.mConnections.mContainer) (hlt : p < s.nextPtr ∨ t.nextPtr ≤ p)
    (h : s.step a = some t) : passed p (s.happened a) = [] := by
  obtain ⟨hnil, -⟩ | ⟨attempt, connected, e, pc, -, -, hap, rfl⟩ |
    ⟨attempt, connected, e, i, pc, -, hap, -⟩ | ⟨e, i, pc, -, -, hap, -⟩ := happened_cases h
  · rw [hnil]
    rfl
  · rw [hap, passed_attempted]
    cases hc : attempt.construct with
    | error what => rfl
    | ok client =>
      have hlt' : s.nextPtr < (s.acceptBranch attempt connected).nextPtr :=
        (acceptBranch_built connected hc).1
      rw [goto_nextPtr] at hlt
      refine if_neg ?_
      rintro ⟨-, rfl⟩
      rcases hlt with hlt | hlt
      · exact lt_irrefl _ hlt
      · exact absurd hlt hlt'.not_ge
  · rw [hap, passed_handled p s hcb, if_neg fun hq => hp (getServerConnection_some hq).1]
  · rw [hap, passed_written]

theorem passed_acceptBranch (p : Ptr) (s : Server) (a : Attempt) (connected : Reaction Call) :
    passed p (s.acceptBranch a connected).trace =
      passed p s.trace ++ passed p (s.attempted a) := by
  unfold passed
  rw [← filterMap_loopTrace (passedOn_ofLoop p), ← filterMap_loopTrace (passedOn_ofLoop p),
    loopTrace_acceptBranch, List.filterMap_append, List.flatten_append]

end Server

namespace Client

theorem sentBy_append (es fs : List ClientEvent) : sentBy (es ++ fs) = sentBy es ++ sentBy fs := by
  simp [sentBy]

theorem heardBy_append (es fs : List ClientEvent) :
    heardBy (es ++ fs) = heardBy es ++ heardBy fs := List.flatMap_append

theorem passed_append (es fs : List ClientEvent) : passed (es ++ fs) = passed es ++ passed fs :=
  List.flatMap_append

theorem heardBy_filter (es : List ClientEvent) :
    heardBy (es.filter ClientEvent.ofLoop) = heardBy es := by
  induction es with
  | nil => rfl
  | cons e es ih =>
    rw [← List.singleton_append, List.filter_append, heardBy_append, heardBy_append, ih]
    cases e <;> rfl

theorem passed_filter (es : List ClientEvent) :
    passed (es.filter ClientEvent.ofLoop) = passed es := by
  induction es with
  | nil => rfl
  | cons e es ih =>
    rw [← List.singleton_append, List.filter_append, passed_append, passed_append, ih]
    cases e <;> rfl

/-- **What the client receives is passed on**, in the same step. -/
theorem passed_happened {c : Client} (hcb : c.mCallback = true) (a : Action) :
    passed (c.happened a) = heardBy (c.happened a) := by
  have hheard : ∀ recv, passed (c.heard recv) = heardBy (c.heard recv) := by
    intro recv
    unfold heard
    by_cases hdata : recv.data = []
    · simp [passed, heardBy, hdata]
    · simp [passed, heardBy, hdata, hcb]
  have hwritten : ∀ result, passed (c.written result) = heardBy (c.written result) := by
    intro result
    unfold written
    rw [if_pos hcb]
    rfl
  unfold happened
  split
  · split
    · split_ifs
      · exact hheard _
      · rfl
    · rfl
  · split
    · split_ifs
      · exact hwritten _
      · rfl
    · rfl
  · rfl

end Client

namespace Session

variable {s t : Session} {identifier : Bytes} {results : Set ℤ}

/-! ### The server's side -/

/-- What the loop takes, seen from its events. -/
theorem fromClient_eq {u : Server} {a : Server.Action} (hs : s.server.Fresh)
    (h : s.server.step a = some u) {p : Ptr} {registered : Option ℕ}
    (hstage : s.serverStage = .built p registered) :
    s.fromClient u = if p ∈ s.server.mConnections.mContainer then
      ((s.server.happened a).filterMap (received (s.server.heap p).mSocket)).flatten else [] := by
  have hreceived : (u.trace.drop s.server.trace.length).filterMap
      (received (s.server.heap p).mSocket) =
        (s.server.happened a).filterMap (received (s.server.heap p).mSocket) := by
    obtain ⟨es, he⟩ := (Server.advanced_step hs h).trace
    have hstep := Server.filterMap_step (Server.received_ofLoop (s.server.heap p).mSocket) h
    rw [← he, List.filterMap_append, List.append_cancel_left_eq] at hstep
    rw [← he, List.drop_left]
    exact hstep
  unfold fromClient
  simp only [hstage, hreceived]

theorem fromClient_of_not_built {u : Server}
    (h : ∀ p registered, s.serverStage ≠ .built p registered) : s.fromClient u = [] := by
  unfold fromClient
  split
  · rename_i p r hp
    exact absurd hp (h p r)
  · rfl

theorem Handshaking.loopTo (h : s.Handshaking) {u : Server} (ha : Advanced s.server u) :
    (s.loopTo u).Handshaking := by
  have hto := h.serverTo ha
  obtain ⟨acknowledgement, hd⟩ := hto.down
  refine { hto with
    unread := fun hnot => ?_
    unnamed := fun hs => ?_
    named := fun p r hp => ?_
    down := ⟨acknowledgement, { hd with }⟩ }
  · have hread := hto.unread hnot
    have hnil : s.fromClient u = [] := fromClient_of_not_built hnot
    show (s.up.recv (s.fromClient u).length).read = []
    rw [hnil, Stream.read_recv, List.length_nil, List.take_zero, List.append_nil]
    exact hread
  · show (s.up.recv _).sent = []
    rw [Stream.sent_recv]
    exact hto.unnamed hs
  · show (s.up.recv _).sent ≠ []
    rw [Stream.sent_recv]
    exact hto.named p r hp

theorem step_wire {a : Action} (h : s.wireStep a = some t) :
    (∃ b u, a = .server b ∧ s.serverStage.Outside ∧ s.server.step b = some u ∧
      s.fromClient u <+: s.up.buffer ∧ t = s.loopTo u) ∨
    (∀ b, a ≠ .server b) ∧ s.step a = some t := by
  cases a with
  | server b =>
    simp only [wireStep] at h
    split_ifs at h with hout
    obtain ⟨u, hu, hu'⟩ := Option.bind_eq_some_iff.mp h
    split_ifs at hu' with hpre
    cases hu'
    exact Or.inl ⟨b, u, rfl, hout, hu, hpre, rfl⟩
  | _ => exact Or.inr ⟨fun _ => Action.noConfusion, h⟩

/-- The invariant of the handshake holds with the streams connected, too. -/
theorem handshaking_wireStep {a : Action} (h : s.Handshaking) (ht : s.wireStep a = some t) :
    t.Handshaking := by
  obtain ⟨b, u, rfl, -, hu, -, rfl⟩ | ⟨-, ht⟩ := step_wire ht
  · exact h.loopTo (Server.advanced_step h.server.fresh hu)
  · exact handshaking_step h ht

/-- The registry keeps the connections apart, and the callback of the server has been told what was
read of the stream. -/
structure Listening (s : Session) : Prop where
  live : s.server.Live
  callback : s.server.mCallback = true
  fits : ∀ fd, s.serverStage.descriptor = some fd →
    fd ∉ s.server.openFds ∧ fd ≠ s.server.mConnectSocket
  exact : ∀ p registered, s.serverStage = .built p registered →
    passed p s.server.trace = s.up.read
  untold : ∀ p, s.server.nextPtr ≤ p → passed p s.server.trace = []

namespace Listening

theorem start (setup : Server.Setup) (client : Client) (hcb : setup.mCallback = true) :
    (start setup client).Listening where
  live := Server.Live.start setup
  callback := hcb
  fits _ h := by cases h
  exact _ _ h := by cases h
  untold _ _ := rfl

/-- What leaves the server and what was read alone. -/
theorem of_server (h : s.Listening) (hserver : t.server = s.server)
    (hstage : t.serverStage = s.serverStage) (hread : t.up.read = s.up.read) : t.Listening := by
  obtain ⟨h1, h2, h3, h4, h5⟩ := h
  constructor
  all_goals rw [hserver]
  · exact h1
  · exact h2
  · rw [hstage]
    exact h3
  · rw [hstage, hread]
    exact h4
  · exact h5

/-- A call, from outside of the loop. -/
theorem called (h : s.Listening) {u : Server} (hcall : Called s.server u) :
    (s.serverTo u).Listening where
  live := h.live.framed (.of_called hcall)
  callback := hcall.mCallback.trans h.callback
  fits fd hfd := by
    obtain ⟨hopen, hne⟩ := h.fits fd hfd
    refine ⟨fun hmem => hopen (hcall.opens hmem), ?_⟩
    show fd ≠ u.mConnectSocket
    rw [hcall.mConnectSocket]
    exact hne
  exact p r hp := (Server.passed_of_called p hcall).trans (h.exact p r hp)
  untold p hp := by
    have hp' : s.server.nextPtr ≤ p := hcall.nextPtr ▸ hp
    exact (Server.passed_of_called p hcall).trans (h.untold p hp')

/-- **The loop of the server**: what it takes from the stream is what it tells. -/
theorem looped (h : s.Listening) (hhand : s.Handshaking) {a : Server.Action} {u : Server}
    (hout : s.serverStage.Outside) (hlast : Server.RemovesLast s.server a)
    (hu : s.server.step a = some u) (hpre : s.fromClient u <+: s.up.buffer) :
    (s.loopTo u).Listening where
  live := Server.live_step h.live hlast hu
  callback := (Server.constant_step h.live.fresh hu).2.trans h.callback
  fits fd hfd := by
    have hstage : s.serverStage.descriptor = some fd := hfd
    cases hs : s.serverStage with
    | accepted fd' => rw [hs] at hout; exact hout.elim
    | acked fd' result => rw [hs] at hout; exact hout.elim
    | listening => rw [hs] at hstage; cases hstage
    | failed => rw [hs] at hstage; cases hstage
    | built p r => rw [hs] at hstage; cases hstage
  exact p r hp := by
    have hstage : s.serverStage = .built p r := hp
    have hlt := hhand.server.allocated p r hstage
    have htake : s.up.buffer.take (s.fromClient u).length = s.fromClient u :=
      (List.prefix_iff_eq_take.mp hpre).symm
    show passed p u.trace = (s.up.recv (s.fromClient u).length).read
    rw [Stream.read_recv, htake, Server.passed_step p hu, h.exact p r hstage,
      fromClient_eq h.live.fresh hu hstage]
    congr 1
    split_ifs with hmem
    · exact Server.passed_happened_of_mem h.live h.callback hmem hu
    · exact Server.passed_happened_of_notMem h.callback hmem (Or.inl hlt) hu
  untold p hp := by
    have hadv := Server.advanced_step h.live.fresh hu
    have hle : s.server.nextPtr ≤ p := hadv.nextPtr.trans hp
    have hnot : p ∉ s.server.mConnections.mContainer :=
      fun hmem => (h.live.fresh p (Or.inl hmem)).not_ge hle
    show passed p u.trace = []
    rw [Server.passed_step p hu, h.untold p hle,
      Server.passed_happened_of_notMem h.callback hnot (Or.inr hp) hu]
    rfl

/-- **The end of the constructor**: the new connection has been told of with what was read, its
identifier, if there is one. -/
theorem identified (h : s.Listening) (hhand : s.Handshaking) {fd : Fd} {result : ℤ}
    (hstage : s.serverStage = .acked fd result) {poll : Option String} {recv : Recv}
    (hdata : recv.data <+: s.up.buffer) (connected : Reaction Call) (pc : Pc) :
    (s.identify { accept := .ok fd, ackResult := result, poll, recv } connected pc).Listening := by
  set a : Attempt := { accept := .ok fd, ackResult := result, poll, recv } with ha
  have hfits : Server.Fits s.server a := by
    intro fd' hacc
    cases hacc
    exact h.fits fd (by rw [hstage]; rfl)
  have hnot : ∀ p r, s.serverStage ≠ .built p r := fun p r hp => by
    rw [hstage] at hp
    cases hp
  have hread : s.up.read = [] := hhand.unread hnot
  have hlive : (s.server.acceptBranch a connected).Live ∧
      (s.server.acceptBranch a connected).mCallback = true := by
    rcases Server.acceptBranch_effect_of_fits h.live.fresh connected hfits with hf | hadd
    · exact ⟨h.live.framed hf, hf.mCallback.trans h.callback⟩
    · refine ⟨h.live.added hadd, ?_⟩
      obtain ⟨u, hu, heq⟩ := hadd
      rw [heq]
      exact hu.framed.mCallback.trans h.callback
  have hgoto := Server.framed_goto (s.server.acceptBranch a connected) pc
  have htold : ∀ p, passed p ((s.server.acceptBranch a connected).goto pc).trace =
      passed p s.server.trace ++ passed p (s.server.attempted a) := by
    intro p
    rw [Server.passed_goto]
    exact Server.passed_acceptBranch p s.server a connected
  have hother : ∀ p, p ≠ s.server.nextPtr → passed p (s.server.attempted a) = [] := by
    intro p hp
    rw [Server.passed_attempted]
    split
    · rfl
    · exact if_neg fun hq => hp hq.2.symm
  have hnext : s.server.nextPtr ≤ ((s.server.acceptBranch a connected).goto pc).nextPtr := by
    have hadv := Server.advanced_acceptBranch h.live.fresh a connected
    exact (hadv.goto pc).nextPtr
  refine ⟨hlive.1.framed hgoto, hgoto.mCallback.trans hlive.2, ?_, ?_, ?_⟩
  · intro fd' hfd
    simp only [Session.identify] at hfd
    split at hfd <;> cases hfd
  · intro p r hp
    cases hc : a.construct with
    | error what =>
      simp only [Session.identify, hc] at hp
      cases hp
    | ok client =>
      simp only [Session.identify, hc] at hp
      obtain ⟨rfl, -⟩ := ServerStage.built.inj hp
      obtain ⟨-, hpoll, hid, -, -⟩ := Attempt.construct_ok hc
      have htake : s.up.buffer.take recv.data.length = recv.data :=
        (List.prefix_iff_eq_take.mp hdata).symm
      have hup : (s.identify a connected pc).up = s.up.recv recv.data.length := by
        simp only [Session.identify, hpoll]
        rfl
      show passed s.server.nextPtr ((s.server.acceptBranch a connected).goto pc).trace = _
      rw [htold, h.untold _ le_rfl, Server.passed_attempted, hc, hup, Stream.read_recv, hread,
        htake]
      simp only [h.callback, and_self, if_true, List.nil_append]
      exact hid
  · intro p hp
    have hle := hnext.trans hp
    show passed p ((s.server.acceptBranch a connected).goto pc).trace = []
    rw [htold, h.untold p hle, List.nil_append]
    cases hc : a.construct with
    | error what =>
      rw [Server.passed_attempted, hc]
    | ok client =>
      have hlt := (Server.acceptBranch_built (s := s.server) connected hc).1
      refine hother p fun heq => ?_
      have hle' : ((s.server.acceptBranch a connected).goto pc).nextPtr ≤ p := hp
      rw [Server.goto_nextPtr, heq] at hle'
      exact absurd hle' hlt.not_ge

/-- **A step of a session** keeps the account of the stream if it removes no connection but the last
one. -/
theorem wireStep {a : Action} (h : s.Listening) (hhand : s.Handshaking) (hlast : s.RemovesLast a)
    (ht : s.wireStep a = some t) : t.Listening := by
  obtain ⟨b, u, rfl, hout, hu, hpre, rfl⟩ | ⟨hne, ht⟩ := step_wire ht
  · exact h.looped hhand hout hlast hu hpre
  · cases a with
    | connect =>
      simp only [step] at ht
      split_ifs at ht
      cases ht
      exact h.of_server rfl rfl rfl
    | recvAck n =>
      simp only [step] at ht
      split_ifs at ht
      cases ht
      exact h.of_server rfl rfl rfl
    | sendIdentifier result =>
      simp only [step] at ht
      split_ifs at ht
      cases ht
      exact h.of_server rfl rfl rfl
    | client a =>
      simp only [step] at ht
      split_ifs at ht
      obtain ⟨c, -, hc⟩ := Option.bind_eq_some_iff.mp ht
      split_ifs at hc
      cases hc
      exact h.of_server rfl rfl rfl
    | accept fd =>
      simp only [step] at ht
      split_ifs at ht with hif
      cases ht
      obtain ⟨-, -, hacc, hfd⟩ := hif
      have hopen : s.server.mConnectSocket ∈ s.server.openFds := by
        unfold Server.Accepting at hacc
        split at hacc
        · exact hacc.2.2
        · exact hacc.elim
      refine { h with fits := fun fd' hfd' => ?_, exact := fun _ _ hp => ?_ }
      · cases hfd'
        exact ⟨hfd, fun heq => hfd (heq ▸ hopen)⟩
      · cases hp
    | sendAck result =>
      simp only [step] at ht
      split at ht
      · rename_i fd hstage
        split_ifs at ht
        cases ht
        refine { h with fits := fun fd' hfd' => ?_, exact := fun _ _ hp => ?_ }
        · cases hfd'
          exact h.fits fd (by rw [hstage]; rfl)
        · cases hp
      · cases ht
    | identify poll recv connected =>
      obtain ⟨fd, result, pc, hstage, hdata, rfl⟩ := step_identify ht
      exact h.identified hhand hstage hdata connected pc
    | server b => exact absurd rfl (hne b)
    | call c =>
      cases ht
      exact h.called (Server.called_call s.server c)
    | arriveUp n =>
      cases ht
      exact h.of_server rfl rfl rfl
    | arriveDown n =>
      cases ht
      exact h.of_server rfl rfl rfl

end Listening

/-! ### The client's side -/

/-- The client has put its identifier into the stream, as far as `::send` has taken it, and then
what its loop has sent; and its callback has been told what was read of the other stream behind the
handshake. Of the result of that `::send` it is known that it is in `results`. -/
structure Talking (identifier : Bytes) (results : Set ℤ) (s : Session) : Prop where
  mIdentifier : s.client.mIdentifier = identifier
  silent : s.clientStage ≠ .running → s.client.trace = []
  sent : s.clientStage = .running → ∃ result ∈ results, SendResult identifier result ∧
    s.up.sent = taken identifier result ++ Client.sentBy s.client.trace
  read : s.down.read.map Prod.snd = s.ackBuff.map Prod.snd ++ Client.heardBy s.client.trace
  exact : s.client.mCallback = true →
    Client.passed s.client.trace = Client.heardBy s.client.trace

namespace Talking

theorem start (setup : Server.Setup) {client : Client} (hnew : client.trace = [])
    (hid : client.mIdentifier = identifier) : (start setup client).Talking identifier results where
  mIdentifier := hid
  silent _ := hnew
  sent h := by cases h
  read := by
    show [] = [] ++ Client.heardBy client.trace
    rw [hnew]
    rfl
  exact _ := by
    show Client.passed client.trace = Client.heardBy client.trace
    rw [hnew]
    rfl

/-- What leaves the client, what it has sent and what it has read alone. -/
theorem of_client (h : s.Talking identifier results) (hclient : t.client = s.client)
    (hstage : t.clientStage = s.clientStage) (hack : t.ackBuff = s.ackBuff)
    (hsent : t.up.sent = s.up.sent) (hread : t.down.read = s.down.read) :
    t.Talking identifier results := by
  obtain ⟨h1, h2, h3, h4, h5⟩ := h
  constructor
  all_goals rw [hclient]
  · exact h1
  · rw [hstage]
    exact h2
  · rw [hstage, hsent]
    exact h3
  · rw [hread, hack]
    exact h4
  · exact h5

theorem recvAck (h : s.Talking identifier results) (hhand : s.Handshaking)
    (hstage : s.clientStage = .connected) (n : ℕ) :
    Talking identifier results { s with
      clientStage := .acknowledged, ackBuff := s.down.buffer.take n, down := s.down.recv n } := by
  have htrace : s.client.trace = [] := h.silent (by rw [hstage]; decide)
  obtain ⟨-, hread⟩ := hhand.unacked (Or.inr hstage)
  refine { h with silent := fun _ => htrace, sent := fun hs => ?_, read := ?_ }
  · cases hs
  · show (s.down.recv n).read.map Prod.snd = _
    rw [Stream.read_recv, hread, htrace]
    exact (List.append_nil _).symm

theorem sendIdentifier (h : s.Talking identifier results) (hhand : s.Handshaking)
    (hstage : s.clientStage = .acknowledged) {result : ℤ}
    (hresult : SendResult s.client.mIdentifier result) (hmem : result ∈ results) :
    Talking identifier results { s with
      clientStage := .running, up := s.up.send (taken s.client.mIdentifier result) } := by
  have hrun : s.clientStage ≠ .running := by rw [hstage]; decide
  refine { h with silent := fun hs => absurd rfl hs, sent := fun _ => ⟨result, hmem, ?_, ?_⟩ }
  · rw [← h.mIdentifier]
    exact hresult
  · show (s.up.send (taken s.client.mIdentifier result)).sent = _
    rw [Stream.sent_send, hhand.unnamed hrun, h.silent hrun, h.mIdentifier]
    exact (List.append_nil _).symm

/-- **The loop of the client**: what it takes from the stream is what it tells. -/
theorem looped (h : s.Talking identifier results) (hstage : s.clientStage = .running)
    {a : Client.Action} {c : Client} (hc : s.client.step a = some c)
    (hpre : Client.heardBy (c.trace.drop s.client.trace.length) <+: s.down.buffer.map Prod.snd) :
    (s.clientTo c).Talking identifier results := by
  have hgrown := Client.grown_step hc
  obtain ⟨all, hall, hhappened⟩ := hgrown.trace
  have hdrop : c.trace.drop s.client.trace.length = all := by rw [hall, List.drop_left]
  rw [hdrop] at hpre
  refine ⟨hgrown.mIdentifier.trans h.mIdentifier, fun hs => absurd hstage hs, fun _ => ?_, ?_, ?_⟩
  · obtain ⟨result, hmem, hresult, hsent⟩ := h.sent hstage
    refine ⟨result, hmem, hresult, ?_⟩
    show (s.up.send (Client.sentBy (c.trace.drop s.client.trace.length))).sent =
      taken identifier result ++ Client.sentBy c.trace
    rw [Stream.sent_send, hsent, hdrop, hall, List.append_assoc, ← Client.sentBy_append]
  · show (s.down.recv (Client.heardBy (c.trace.drop s.client.trace.length)).length).read.map
      Prod.snd = s.ackBuff.map Prod.snd ++ Client.heardBy c.trace
    rw [Stream.read_recv, List.map_append, h.read, hdrop, List.map_take,
      ← List.prefix_iff_eq_take.mp hpre, hall, Client.heardBy_append, List.append_assoc]
  · intro hcb
    have hcb' : s.client.mCallback = true := hgrown.mCallback.symm.trans hcb
    show Client.passed c.trace = Client.heardBy c.trace
    rw [hall, Client.passed_append, Client.heardBy_append, h.exact hcb', ← Client.passed_filter all,
      ← Client.heardBy_filter all, hhappened, Client.passed_happened hcb' a]

theorem wireStep {a : Action} (h : s.Talking identifier results) (hhand : s.Handshaking)
    (hresults : ∀ result, a = .sendIdentifier result → result ∈ results)
    (ht : s.wireStep a = some t) : t.Talking identifier results := by
  obtain ⟨b, u, rfl, -, -, -, rfl⟩ | ⟨hne, ht⟩ := step_wire ht
  · refine h.of_client rfl rfl rfl (Stream.sent_recv _ _) ?_
    show (s.serverTo u).down.read = s.down.read
    unfold Session.serverTo
    cases s.serverStage <;> rfl
  · cases a with
    | connect =>
      simp only [step] at ht
      split_ifs at ht with hstage
      cases ht
      exact { h with
        silent := fun _ => h.silent (by rw [hstage]; decide)
        sent := fun hs => by cases hs }
    | recvAck n =>
      simp only [step] at ht
      split_ifs at ht with hif
      cases ht
      exact h.recvAck hhand hif.1 n
    | sendIdentifier result =>
      simp only [step] at ht
      split_ifs at ht with hif
      cases ht
      exact h.sendIdentifier hhand hif.1 hif.2 (hresults result rfl)
    | client a =>
      simp only [step] at ht
      split_ifs at ht with hstage
      obtain ⟨c, hc, hc'⟩ := Option.bind_eq_some_iff.mp ht
      split_ifs at hc' with hpre
      cases hc'
      exact h.looped hstage hc hpre
    | accept fd =>
      simp only [step] at ht
      split_ifs at ht
      cases ht
      exact h.of_client rfl rfl rfl rfl rfl
    | sendAck result =>
      simp only [step] at ht
      split at ht
      · split_ifs at ht
        cases ht
        exact h.of_client rfl rfl rfl rfl rfl
      · cases ht
    | identify poll recv connected =>
      obtain ⟨fd, result, pc, -, -, rfl⟩ := step_identify ht
      refine h.of_client rfl rfl rfl ?_ rfl
      unfold Session.identify
      cases poll <;> simp
    | server b => exact absurd rfl (hne b)
    | call c =>
      cases ht
      refine h.of_client rfl rfl rfl rfl ?_
      unfold Session.serverTo
      cases s.serverStage <;> rfl
    | arriveUp n =>
      cases ht
      exact h.of_client rfl rfl rfl (Stream.sent_arrive _ _) rfl
    | arriveDown n =>
      cases ht
      exact h.of_client rfl rfl rfl rfl rfl

end Talking

/-- The client takes a step of its own, or none. -/
theorem client_wireStep {a : Action} (ht : s.wireStep a = some t) :
    (∃ b c, a = .client b ∧ s.client.step b = some c ∧ t = s.clientTo c) ∨
      (∀ b, a ≠ .client b) ∧ t.client = s.client := by
  obtain ⟨b, u, rfl, -, -, -, rfl⟩ | ⟨hne, ht⟩ := step_wire ht
  · exact Or.inr ⟨fun _ => Action.noConfusion, rfl⟩
  · cases a with
    | client b =>
      simp only [step] at ht
      split_ifs at ht
      obtain ⟨c, hc, hc'⟩ := Option.bind_eq_some_iff.mp ht
      split_ifs at hc'
      cases hc'
      exact Or.inl ⟨b, c, rfl, hc, rfl⟩
    | server b => exact absurd rfl (hne b)
    | identify poll recv connected =>
      obtain ⟨fd, result, pc, -, -, rfl⟩ := step_identify ht
      exact Or.inr ⟨fun _ => Action.noConfusion, rfl⟩
    | sendAck result =>
      simp only [step] at ht
      split at ht
      · split_ifs at ht
        cases ht
        exact Or.inr ⟨fun _ => Action.noConfusion, rfl⟩
      · cases ht
    | _ =>
      simp only [step] at ht
      try split_ifs at ht
      cases ht
      exact Or.inr ⟨fun _ => Action.noConfusion, rfl⟩

/-! ### The two streams -/

/-- **Upstream, every byte is accounted for**: what the callback of the server is told of the client
and what is still on its way is what the client has put into the stream. -/
def UpstreamExact (identifier : Bytes) (s : Session) : Prop :=
  ∀ p registered, s.serverStage = .built p registered → ∃ result, SendResult identifier result ∧
    passed p s.server.trace ++ s.up.buffer ++ s.up.transit =
      taken identifier result ++ Client.sentBy s.client.trace

/-- **Downstream, every byte is accounted for**: the handshake has taken a part of the
acknowledgement; that, what the callback of the client is told and what is still on its way is what
was sent of the acknowledgement and then what the connection has sent. -/
def DownstreamExact (s : Session) : Prop :=
  ∃ acknowledgement, acknowledgement <+: ack ∧ s.ackBuff.map Prod.snd <+: acknowledgement ∧
    s.ackBuff.map Prod.snd ++ Client.passed s.client.trace ++
      (s.down.buffer ++ s.down.transit).map Prod.snd = acknowledgement ++ s.appData

theorem Talking.upstream (h : s.Talking identifier results) (hhand : s.Handshaking)
    (hlisten : s.Listening) : s.UpstreamExact identifier := by
  intro p registered hp
  have hrun : s.clientStage = .running := by
    by_contra hne
    exact hhand.named p registered hp (hhand.unnamed hne)
  obtain ⟨result, -, hresult, hsent⟩ := h.sent hrun
  refine ⟨result, hresult, ?_⟩
  rw [hlisten.exact p registered hp]
  exact hsent

theorem Talking.downstream (h : s.Talking identifier results) (hhand : s.Handshaking)
    (hcb : s.client.mCallback = true) : s.DownstreamExact := by
  obtain ⟨acknowledgement, hd⟩ := hhand.down
  have hsnd : ∀ (o : Origin) (xs : Bytes), (xs.map (o, ·)).map Prod.snd = xs := by
    intro o xs
    rw [List.map_map]
    exact List.map_id xs
  refine ⟨acknowledgement, hd.acknowledges, ?_, ?_⟩
  · have hpre := hd.ackBuff.map Prod.snd
    rwa [hsnd] at hpre
  · have hsent := congrArg (List.map Prod.snd) hd.sent
    rw [List.map_append, hsnd, hsnd] at hsent
    rw [h.exact hcb, ← h.read, ← List.map_append, ← List.append_assoc]
    exact hsent

end Session

/-- **From the client's `sendDataToServer` to the server's `receiveComplete`**: in every run of a
client, a server and the network between them, whatever the callbacks do, while the removals of the
server are of the last connection. -/
theorem Session.upstream_exact (setup : Server.Setup) (hcb : setup.mCallback = true)
    (mCallback : Bool) (mIdentifier : Bytes) (mSocket : Fd) (mWakeupPipe : Fd × Fd)
    (mMasterWrite : Finset Fd) (as : List Session.Action)
    (hlast : Along Session.wireStep Session.RemovesLast (Session.start setup
      (.connected mCallback mIdentifier mSocket mWakeupPipe mMasterWrite)) as) :
    Always Session.wireStep (Session.UpstreamExact mIdentifier) (Session.start setup
      (.connected mCallback mIdentifier mSocket mWakeupPipe mMasterWrite)) as := by
  have hall : Always Session.wireStep
      (fun s => s.Handshaking ∧ s.Listening ∧ s.Talking mIdentifier Set.univ) (Session.start setup
        (.connected mCallback mIdentifier mSocket mWakeupPipe mMasterWrite)) as := by
    refine always_of_along (fun s a t hs hR ht => ?_)
      ⟨Session.handshaking_start setup _, .start setup _ hcb, .start setup rfl rfl⟩ hlast
    obtain ⟨hhand, hlisten, htalk⟩ := hs
    exact ⟨Session.handshaking_wireStep hhand ht, hlisten.wireStep hhand hR ht,
      htalk.wireStep hhand (fun _ _ => trivial) ht⟩
  exact hall.imp fun s hs => hs.2.2.upstream hs.1 hs.2.1

/-- The client named `"ab"` sends `"c"`; the server takes all three bytes in two receives. -/
def Session.threeBytes : List Session.Action :=
  Session.introduce ++ Session.hurry ++
    [.arriveUp 3, .identify none (.bytes [97, 98]) Server.returns] ++
    (Server.Action.write (Server.writing 0) :: Server.skip 1 ++
      Server.Action.select (some ({6}, ∅)) :: Server.skip 6 ++
      [Server.Action.read Server.noAttempt Server.returns (Server.reading [99])]).map .server

theorem Session.upstream_exact_threeBytes : ∃ t,
    run Session.wireStep (Session.start Server.listening Session.twoLetters)
      Session.threeBytes = some t ∧
    passed 0 t.server.trace = [97, 98, 99] ∧ t.UpstreamExact [97, 98] := by
  obtain ⟨t, hrun, htold⟩ := exists_run Session.wireStep
    (Session.start Server.listening Session.twoLetters) Session.threeBytes
    (fun t => passed 0 t.server.trace = [97, 98, 99]) (by decide)
  exact ⟨t, hrun, htold, (Session.upstream_exact Server.listening rfl true [97, 98] 3 (4, 5) ∅
    Session.threeBytes (by decide)).last hrun⟩

/-- **From the server's `send` to the client's `receiveComplete`**: in every run. -/
theorem Session.downstream_exact (setup : Server.Setup) (mIdentifier : Bytes) (mSocket : Fd)
    (mWakeupPipe : Fd × Fd) (mMasterWrite : Finset Fd) (as : List Session.Action) :
    Always Session.wireStep Session.DownstreamExact (Session.start setup
      (.connected true mIdentifier mSocket mWakeupPipe mMasterWrite)) as := by
  have hall : Always Session.wireStep
      (fun s => (s.Handshaking ∧ s.Talking mIdentifier Set.univ) ∧ s.client.mCallback = true)
        (Session.start setup
          (.connected true mIdentifier mSocket mWakeupPipe mMasterWrite)) as := by
    refine always_of_inv (fun s a t hs ht => ?_) as
      ⟨⟨Session.handshaking_start setup _, .start setup rfl rfl⟩, rfl⟩
    obtain ⟨⟨hhand, htalk⟩, hcb⟩ := hs
    refine ⟨⟨Session.handshaking_wireStep hhand ht,
      htalk.wireStep hhand (fun _ _ => trivial) ht⟩, ?_⟩
    obtain ⟨b, c, -, hc, rfl⟩ | ⟨-, heq⟩ := Session.client_wireStep ht
    · exact (Client.grown_step hc).mCallback.trans hcb
    · rw [heq]
      exact hcb
  exact hall.imp fun s hs => hs.1.2.downstream hs.1.1 hs.2

end C11Http.Posix
