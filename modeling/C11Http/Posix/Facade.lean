import C11Http.Posix.Accept
import C11Http.Posix.ClientTrace
import C11Http.Posix.Interest
import C11Http.Posix.Stranded
import C11Http.Posix.Trace

/-! # The loops behind tcp::Server and tcp::Client

`tcp::Server` and `tcp::Client` hide the platform classes. They register a `PlatformCallback`, which
hands on what is received to the pure virtual `receiveComplete` of the user and does nothing in the
other functions. So the user acts between two passes and in `receiveComplete`, never in `connected`,
`sendComplete` or `disconnected`: an action of the facade is an action of the platform class in
which those return at once (`ServerAction.platform`, `ClientAction.platform`).

What goes wrong in the platform classes by a callback cannot happen then (`server_behind`): the
write interest of a message is never lost, a client whose handshake succeeds is registered, and the
only exception that leaves `waitForEvents` is that of `select`. Of the client, data is stranded only
if it is given to it before `waitForEvents` (`client_behind`).

Both `waitForEvents` are declared to throw `std::runtime_error` only. So what the user's
`receiveComplete` throws of another type does not leave them: it ends the program. -/

namespace C11Http.Posix.Tcp

open C11Http.Lib C11Http.Lib.Run Connections

/-! ### The server -/

/-- What the system and the user of `tcp::Server` do in a step. -/
inductive ServerAction
  | call (c : Call)
  | select (result : Option (Finset Fd × Finset Fd))
  | read (attempt : Attempt) (recv : Recv) (receiveComplete : Reaction Call)
  | write (result : ℤ)

/-- `PlatformCallback` of the server: `connected`, `sendComplete` and `disconnected` do nothing. -/
def ServerAction.platform : ServerAction → Server.Action
  | .call c => .call c
  | .select result => .select result
  | .read attempt recv receiveComplete =>
    .read attempt Server.returns
      { recv := recv, receiveComplete := receiveComplete, disconnected := Server.returns }
  | .write result => .write { result := result, sendComplete := Server.returns }

def serverStep (s : Server) (a : ServerAction) : Option Server := s.step a.platform

/-- The first arrival at the top of the loop; the callback is the `PlatformCallback`. -/
def waitForEvents (setup : Server.Setup) : Server :=
  .waitForEvents { setup with mCallback := true }

/-- The user's `receiveComplete` is called. -/
def tells : Event → Bool
  | .receiveComplete _ _ _ => true
  | _ => false

/-- An exception leaves `waitForEvents`: `select` fails. -/
def Leaves : ServerAction → Prop
  | .select none => True
  | _ => False

/-- The user's `receiveComplete` throws something else than a `runtime_error`, which no handler of
the loop catches and `waitForEvents` does not declare: the program ends. -/
def Terminates (s : Server) : ServerAction → Prop
  | .read attempt recv receiveComplete => receiveComplete.outcome = .other ∧
      (s.happened (ServerAction.read attempt recv receiveComplete).platform).any tells = true
  | _ => False

/-- What a step behind the facade does: it breaks off the loop in these two cases only, and a
connection attempt is all or nothing exactly if `accept` fails or the handshake succeeds. -/
def Sound (s : Server) (a : ServerAction) : Prop :=
  ∀ t, serverStep s a = some t → (t.pc = .halted ↔ Leaves a ∨ Terminates s a) ∧
    ∀ attempt ∈ Server.attempts s a.platform,
      (Server.AllOrNothing s t attempt ↔
        (∃ what, attempt.accept = .error what) ∨ attempt.poll = none ∧ attempt.recv.data ≠ [])

variable {s t : Server}

theorem removeServerConnection_pc (s : Server) (sckt : Fd) :
    (s.removeServerConnection sckt).pc = s.pc := by
  unfold Server.removeServerConnection
  split <;> rfl

theorem reported_pc (s : Server) (es : List Event) (r : Reaction Call) :
    ((s.record es).react r).pc = s.pc := (Server.called_react (s.record es) r).pc

theorem attempted_tells (s : Server) (a : Attempt) : (s.attempted a).any tells = false := by
  have hevents : a.events.any tells = false := by
    unfold Attempt.events
    cases a.accept with
    | error what => rfl
    | ok fd => cases a.poll <;> rfl
  unfold Server.attempted
  rw [List.any_append, hevents]
  cases a.construct with
  | error what => rfl
  | ok client => cases s.mCallback <;> rfl

theorem acceptBranch_pc (s : Server) (hcb : s.mCallback = true) (a : Attempt) :
    (s.acceptBranch a Server.returns).pc = s.pc := by
  have hgreet : ∀ client, (s.greeting a client Server.returns).pc = s.pc :=
    fun client => reported_pc ((s.accepting a).allocate client) _ _
  apply Server.acceptBranch_rule (P := fun t => t.pc = s.pc)
  case rejected => exact fun _ _ => rfl
  case null => exact fun _ _ hnull => absurd (hnull.symm.trans hcb) Bool.false_ne_true
  case registered => exact fun client _ _ _ => hgreet client
  case swallowed => exact fun _ _ _ ho => by cases ho
  case escaped => exact fun _ _ _ ho => by cases ho

theorem dropConnection_pc (s : Server) (sckt : Fd) (p : Ptr) :
    (s.dropConnection sckt p Server.returns).pc = s.pc := by
  have hd : (s.disconnect p Server.returns).pc = s.pc := reported_pc s _ _
  apply Server.dropConnection_rule (P := fun t => t.pc = s.pc)
  case silent => exact fun _ => removeServerConnection_pc s sckt
  case reported => exact fun _ _ => (removeServerConnection_pc _ sckt).trans hd
  case escaped => exact fun _ ho => absurd rfl ho

/-- The read of a connection breaks off the loop exactly if `receiveComplete` is called and throws
what no handler catches. -/
theorem handleServerConnection_pc_iff (hcb : s.mCallback = true) (hpc : s.pc ≠ .halted) (i : Fd)
    (recv : Recv) (r : Reaction Call) :
    (s.handleServerConnection i ⟨recv, r, Server.returns⟩).pc = .halted ↔
      r.outcome = .other ∧ (s.handled i ⟨recv, r, Server.returns⟩).any tells = true := by
  have hdeliver : ∀ p data,
      ((s.receiving p recv).deliver p data r).pc = s.pc := fun p data => reported_pc _ _ _
  have hremoved : ∀ sckt, (s.removed sckt).any tells = false := by
    intro sckt
    unfold Server.removed
    split <;> rfl
  have hdropped : ∀ p, (s.dropped i p Server.returns).any tells = false := by
    intro p
    simp [Server.dropped, hcb, Server.returns, hremoved, tells]
  -- what is told of a receive of the connection that is found
  have htells : ∀ p, s.mConnections.getServerConnection s.heap i = some p → r.outcome = .other →
      ((s.handled i ⟨recv, r, Server.returns⟩).any tells = true ↔ recv.data ≠ []) := by
    intro p hp ho
    unfold Server.handled
    simp only [hp]
    by_cases hdata : recv.data = []
    · rw [if_pos hdata, List.any_cons, hdropped]
      exact iff_of_false (by simp [tells]) fun hne => hne hdata
    · rw [if_neg hdata, if_pos hcb]
      exact iff_of_true (by simp [tells]) hdata
  apply Server.handleServerConnection_rule (e := ⟨recv, r, Server.returns⟩)
    (P := fun t => t.pc = .halted ↔
      r.outcome = .other ∧ (s.handled i ⟨recv, r, Server.returns⟩).any tells = true)
  case unknown =>
    intro hnone
    refine iff_of_false hpc fun h => ?_
    have hany := h.2
    simp only [Server.handled, hnone] at hany
    cases hany
  case failed =>
    intro p what hp hr
    have hdata : recv.data = [] := by
      by_contra hne
      obtain ⟨res, hok⟩ := ((s.heap p).performReceive_isOk_iff recv).mpr hne
      rw [hr] at hok
      cases hok
    refine iff_of_false (fun h => hpc ?_) fun h => (htells p hp h.1).mp h.2 hdata
    exact (dropConnection_pc (s.receiving p recv) i p).symm.trans h
  case silent => exact fun _ _ _ _ hnull => absurd (hnull.symm.trans hcb) Bool.false_ne_true
  case delivered =>
    intro p data _ _ _ ho
    refine iff_of_false (fun h => hpc ((hdeliver p data).symm.trans h)) fun h => ?_
    have ho' : r.outcome = .returns := ho
    rw [ho'] at h
    cases h.1
  case thrown =>
    intro p data _ _ _ ho
    refine iff_of_false (fun h => hpc ?_) fun h => ?_
    · exact (hdeliver p data).symm.trans ((dropConnection_pc _ i p).symm.trans h)
    · have ho' : r.outcome = .runtimeError := ho
      rw [ho'] at h
      cases h.1
  case escaped =>
    intro p data hp hr _ ho
    obtain ⟨rfl, hne⟩ := ServerConnection.performReceive_ok hr
    exact iff_of_true rfl ⟨ho, (htells p hp ho).mpr hne⟩

theorem writeBranch_pc (hcb : s.mCallback = true) (hpc : s.pc ≠ .halted) (i : Fd) (result : ℤ) :
    (s.writeBranch i ⟨result, Server.returns⟩).pc = s.pc := by
  have hreport : ∀ p count, ((s.handing p result).report p count Server.returns).pc = s.pc :=
    fun p count => Server.report_pc (s.handing p result) p count Server.returns
  apply Server.writeBranch_rule (P := fun t => t.pc = s.pc) (e := ⟨result, Server.returns⟩) hpc
  case unknown => exact fun _ => rfl
  case short => exact fun _ _ _ => rfl
  case null => exact fun _ _ _ _ hnull => absurd (hnull.symm.trans hcb) Bool.false_ne_true
  case reported => exact fun p count _ _ _ _ => hreport p count
  case escaped => exact fun _ _ _ _ _ ho => absurd rfl ho

theorem goto_halted_iff {pc : Pc} (hpc : pc ≠ .halted) :
    (s.goto pc).pc = .halted ↔ s.pc = .halted := by
  unfold Server.goto
  split_ifs with h
  · exact Iff.rfl
  · exact iff_of_false hpc h

/-- **One step behind the facade.** -/
theorem sound_step (hs : s.Fresh) (hcb : s.mCallback = true) (a : ServerAction) : Sound s a := by
  intro t h
  have h' : s.step a.platform = some t := h
  have hpc : s.pc ≠ .halted := by
    intro hhalted
    cases a <;> simp [ServerAction.platform, Server.step, hhalted] at h'
  cases a with
  | call c =>
    obtain ⟨hpc', rfl⟩ := Server.step_call h'
    refine ⟨iff_of_false (fun hhalted => ?_) (Or.elim · id id), fun attempt hatt => by cases hatt⟩
    rw [(Server.called_call s c).pc] at hhalted
    exact hpc hhalted
  | select result =>
    obtain ⟨-, -, ⟨rfl, rfl⟩ | ⟨R, W, rfl, -, rfl⟩⟩ := Server.step_select h'
    · exact ⟨iff_of_true rfl (Or.inl trivial), fun attempt hatt => by cases hatt⟩
    · exact ⟨iff_of_false (fun hhalted => by cases hhalted) (Or.elim · id id),
        fun attempt hatt => by cases hatt⟩
  | read attempt recv receiveComplete =>
    obtain ⟨i, fdmax, R, W, hpc', hr, rfl⟩ := Server.step_read h'
    rw [goto_halted_iff Pc.noConfusion]
    have hevents : s.happened (ServerAction.read attempt recv receiveComplete).platform =
        if i ∈ R then if i = s.mConnectSocket then s.attempted attempt
          else s.handled i ⟨recv, receiveComplete, Server.returns⟩ else [] := by
      simp only [ServerAction.platform, Server.happened, hpc']
    have hattempts : Server.attempts s (ServerAction.read attempt recv receiveComplete).platform =
        if i ∈ R ∧ i = s.mConnectSocket then some attempt else none := by
      simp only [ServerAction.platform, Server.attempts, hpc']
    have hends : Leaves (.read attempt recv receiveComplete) ∨
          Terminates s (.read attempt recv receiveComplete) ↔
        receiveComplete.outcome = .other ∧
          (s.happened (ServerAction.read attempt recv receiveComplete).platform).any tells =
            true := or_iff_right id
    unfold Server.readBranch
    rw [hends, hevents, hattempts]
    by_cases hi : i ∈ R
    · by_cases hc : i = s.mConnectSocket
      · rw [if_pos hi, if_pos hc, if_pos hi, if_pos hc, if_pos ⟨hi, hc⟩, attempted_tells]
        constructor
        · rw [acceptBranch_pc s hcb attempt]
          exact iff_of_false hpc fun hthrows => Bool.false_ne_true hthrows.2
        · intro attempt' hatt
          obtain rfl := Option.some.inj hatt
          rw [Server.goto_allOrNothing, Server.acceptBranch_allOrNothing_iff hs hcb hr]
          unfold Server.Settles
          simp [Server.returns]
      · rw [if_pos hi, if_neg hc, if_pos hi, if_neg hc, if_neg fun hif => hc hif.2]
        exact ⟨handleServerConnection_pc_iff hcb hpc i recv receiveComplete,
          fun attempt' hatt => by cases hatt⟩
    · rw [if_neg hi, if_neg hi, if_neg fun hif => hi hif.1]
      exact ⟨iff_of_false hpc fun hthrows => Bool.false_ne_true hthrows.2,
        fun attempt' hatt => by cases hatt⟩
  | write result =>
    obtain ⟨i, fdmax, R, W, hpc', hw, rfl⟩ := Server.step_write h'
    refine ⟨iff_of_false (fun hhalted => ?_) (Or.elim · id id), fun attempt hatt => by cases hatt⟩
    rw [goto_halted_iff (by split_ifs <;> exact Pc.noConfusion)] at hhalted
    split_ifs at hhalted
    · exact hpc ((writeBranch_pc hcb hpc i result).symm.trans hhalted)
    · exact hpc hhalted

/-- No callback of the facade queues a message behind the back of the write branch. -/
theorem keepsInterest_platform (hs : s.Live) (a : ServerAction) (h : serverStep s a = some t) :
    Server.KeepsInterest s a.platform := by
  constructor
  · intro attempt hatt fd hfd p hp
    cases a with
    | call c => cases hatt
    | select result => cases hatt
    | write result => cases hatt
    | read attempt' recv receiveComplete =>
      obtain ⟨i, fdmax, R, W, hpc, hr, -⟩ := Server.step_read h
      simp only [ServerAction.platform, Server.attempts, hpc] at hatt
      split_ifs at hatt
      · obtain rfl := Option.some.inj hatt
        have hacc : attempt'.accept = .ok fd := by
          cases hacc : attempt'.accept with
          | error what => rw [hacc] at hfd; cases hfd
          | ok fd' => rw [hacc] at hfd; cases hfd; rfl
        have hfits := (Server.fits_of_readable hr fd hacc).1
        exact fun heq => hfits (heq ▸ hs.opened p hp)
      · cases hatt
  · intro w hw _ _ _ c hc
    cases a with
    | call c => cases hw
    | select result => cases hw
    | read attempt recv receiveComplete => cases hw
    | write result =>
      obtain ⟨i, fdmax, R, W, hpc, -, -⟩ := Server.step_write h
      simp only [ServerAction.platform, Server.writes, hpc] at hw
      split_ifs at hw
      · obtain ⟨p, -, rfl⟩ := Option.map_eq_some_iff.mp hw
        cases hc
      · cases hw

/-- **Behind `tcp::Server`** no queued message loses its write interest, and every step is sound, as
long as removals are of the last connection. -/
theorem server_behind (setup : Server.Setup) (as : List ServerAction)
    (hlast : Along serverStep (fun s a => Server.RemovesLast s a.platform)
      (waitForEvents setup) as) :
    Always serverStep Server.InterestKept (waitForEvents setup) as ∧
      Along serverStep Sound (waitForEvents setup) as := by
  have hlive :
      Always serverStep (fun s => s.Live ∧ s.mCallback = true) (waitForEvents setup) as := by
    refine always_of_along (fun s a t hs hR h => ?_) ⟨Server.Live.start _, rfl⟩ hlast
    exact ⟨Server.live_step hs.1 hR h, (Server.constant_step hs.1.fresh h).2.trans hs.2⟩
  have hkeeps : Along serverStep (fun s a => Server.KeepsInterest s a.platform)
      (waitForEvents setup) as :=
    hlive.along fun s a t hs h => keepsInterest_platform hs.1 a h
  have htended : Always serverStep Server.Tended (waitForEvents setup) as :=
    always_of_along (fun s a t hs hk h => Server.tended_step hs hk h) (Server.Tended.start _) hkeeps
  exact ⟨htended.imp fun _ hs _ => hs.watched,
    hlive.along fun s a t hs _ => sound_step hs.1.fresh hs.2 a⟩

/-- The steps over `n` descriptors that are not ready. -/
def skip : ℕ → List ServerAction
  | 0 => []
  | n + 1 => .read Server.noAttempt (.bytes []) Server.returns :: .write 0 :: skip n

/-- A client named `"a"` is accepted and is sent a message. -/
def hello : List ServerAction :=
  .select (some ({3}, ∅)) :: skip 3 ++
    [.read Server.attempt (.bytes []) Server.returns, .write 0] ++ skip 1 ++
    [.call (.send [104] [97])]

theorem server_behind_hello : ∃ t, run serverStep (waitForEvents Server.listening) hello = some t ∧
    t.pc = .top ∧ (t.heap 0).mOutgoingBytes = [104] ∧ t.InterestKept := by
  obtain ⟨t, hrun, htop, hbytes⟩ := exists_run serverStep (waitForEvents Server.listening) hello
    (fun t => t.pc = .top ∧ (t.heap 0).mOutgoingBytes = [104]) (by decide)
  exact ⟨t, hrun, htop, hbytes, (server_behind Server.listening hello (by decide)).1.last hrun⟩

/-! ### The client -/

/-- What the system and the user of `tcp::Client` do in a step. -/
inductive ClientAction
  | call (c : ClientCall)
  | waitForEvents
  | select (result : Option (Finset Fd × Finset Fd))
  | read (recv : Recv) (receiveComplete : Reaction ClientCall)
  | write (result : ℤ)

/-- `PlatformCallback` of the client: `sendComplete` does nothing. -/
def ClientAction.platform : ClientAction → Client.Action
  | .call c => .call c
  | .waitForEvents => .waitForEvents
  | .select result => .select result
  | .read recv receiveComplete => .read recv receiveComplete
  | .write result => .write result { calls := [], outcome := .returns }

def clientStep (c : Client) (a : ClientAction) : Option Client := c.step a.platform

/-- When `waitForEvents` is entered, nothing waits. -/
def EntersEmpty (c : Client) (a : ClientAction) : Prop :=
  a = .waitForEvents → c.mConnected = true → c.mOutgoingBytes = []

theorem unstranded_platform_iff (c : Client) (a : ClientAction) :
    Client.Unstranded c a.platform ↔ EntersEmpty c a := by
  unfold EntersEmpty
  cases a with
  | call k => exact iff_of_true trivial fun h => by cases h
  | waitForEvents => exact ⟨fun h _ => h, fun h => h rfl⟩
  | select result => exact iff_of_true trivial fun h => by cases h
  | read recv receiveComplete => exact iff_of_true trivial fun h => by cases h
  | write result =>
    exact iff_of_true (fun _ _ _ _ _ m hm => by cases hm) fun h => by cases h

/-- The read branch is next, and the socket is ready. -/
def Hearing (c : Client) : Prop :=
  match c.pc with
  | .read readFds _ => c.mSocket ∈ readFds
  | _ => False

/-- An exception leaves `waitForEvents` of the client: `select` or the receive fails, or the user's
`receiveComplete` throws a `runtime_error`. -/
def ClientLeaves (c : Client) : ClientAction → Prop
  | .select none => True
  | .read recv receiveComplete => Hearing c ∧ ((∃ strerror, recv = .failed strerror) ∨
      recv.data ≠ [] ∧ receiveComplete.outcome = .runtimeError)
  | _ => False

/-- The user's `receiveComplete` throws something else, which ends the program. -/
def ClientTerminates (c : Client) : ClientAction → Prop
  | .read recv receiveComplete => Hearing c ∧ recv.data ≠ [] ∧ receiveComplete.outcome = .other
  | _ => False

variable {c d : Client}

theorem client_react_pc (c : Client) (r : Reaction ClientCall) : (c.react r).pc = c.pc := by
  have h := Client.calls_pc r.calls c
  unfold Client.react
  cases r.outcome <;> exact h

theorem client_goto_left_iff {pc : ClientPc} (hpc : pc ≠ .left) :
    (c.goto pc).pc = .left ↔ c.pc = .left := by
  unfold Client.goto
  split_ifs with h
  · exact Iff.rfl
  · exact iff_of_false hpc h

theorem client_readBranch_pc_iff (hcb : c.mCallback = true) (hpc : c.pc ≠ .left) (recv : Recv)
    (r : Reaction ClientCall) : (c.readBranch recv r).pc = .left ↔
      ((∃ strerror, recv = .failed strerror) ∨ recv.data ≠ [] ∧ r.outcome = .runtimeError) ∨
        recv.data ≠ [] ∧ r.outcome = .other := by
  have hdeliver : ∀ (u : Client) data, (u.deliver data r).pc = u.pc := fun u data =>
    client_react_pc _ r
  unfold Client.readBranch
  cases recv with
  | failed strerror => exact iff_of_true rfl (Or.inl (Or.inl ⟨strerror, rfl⟩))
  | bytes data =>
    have hcb' : (c.record [.received (Recv.bytes data).data]).mCallback = true := hcb
    by_cases hdata : data.length = 0
    · simp only [if_pos hdata]
      have hnil : data = [] := List.eq_nil_of_length_eq_zero hdata
      refine iff_of_false hpc ?_
      rintro ((⟨strerror, h⟩ | ⟨hne, -⟩) | ⟨hne, -⟩)
      · cases h
      · exact hne hnil
      · exact hne hnil
    · simp only [if_neg hdata, if_pos hcb']
      have hne : data ≠ [] := fun hnil => hdata (by rw [hnil]; rfl)
      cases ho : r.outcome with
      | returns =>
        have hsame := hdeliver (c.record [.received (Recv.bytes data).data]) data
        refine iff_of_false (fun h => hpc (hsame.symm.trans h)) ?_
        rintro ((⟨strerror, h⟩ | ⟨-, h⟩) | ⟨-, h⟩) <;> cases h
      | runtimeError => exact iff_of_true rfl (Or.inl (Or.inr ⟨hne, rfl⟩))
      | other => exact iff_of_true rfl (Or.inr ⟨hne, rfl⟩)

theorem client_writeBranch_pc (c : Client) (result : ℤ) :
    (c.writeBranch result { calls := [], outcome := .returns }).pc = c.pc := by
  unfold Client.writeBranch
  split_ifs
  · exact Client.report_pc (c.handing result) _ _
  · rfl

/-- The loop of the client is broken off in these cases only. -/
def ClientSound (c : Client) (a : ClientAction) : Prop :=
  ∀ d, clientStep c a = some d → c.pc ≠ .left →
    (d.pc = .left ↔ ClientLeaves c a ∨ ClientTerminates c a)

theorem clientSound_step (hcb : c.mCallback = true) (a : ClientAction) : ClientSound c a := by
  intro d h hpc
  cases a with
  | call k =>
    cases h
    exact iff_of_false (fun hleft => hpc ((Client.call_pc c k).symm.trans hleft)) (Or.elim · id id)
  | waitForEvents =>
    rw [Client.step_waitForEvents h]
    exact iff_of_false (fun hleft => by cases hleft) (Or.elim · id id)
  | select result =>
    have h' : c.step (.select result) = some d := h
    simp only [Client.step] at h'
    split_ifs at h'
    cases result with
    | none =>
      cases h'
      exact iff_of_true rfl (Or.inl trivial)
    | some ready =>
      simp only at h'
      split_ifs at h'
      cases h'
      exact iff_of_false (fun hleft => by cases hleft) (Or.elim · id id)
  | read recv receiveComplete =>
    obtain ⟨R, W, hpc', rfl⟩ := Client.step_read h
    have hends : ClientLeaves c (.read recv receiveComplete) ∨
          ClientTerminates c (.read recv receiveComplete) ↔ c.mSocket ∈ R ∧
        (((∃ strerror, recv = .failed strerror) ∨
            recv.data ≠ [] ∧ receiveComplete.outcome = .runtimeError) ∨
          recv.data ≠ [] ∧ receiveComplete.outcome = .other) := by
      unfold ClientLeaves ClientTerminates Hearing
      rw [hpc', ← and_or_left]
    rw [client_goto_left_iff (fun h => by cases h), hends]
    by_cases hready : c.mSocket ∈ R
    · rw [if_pos hready, client_readBranch_pc_iff hcb hpc]
      exact (and_iff_right hready).symm
    · rw [if_neg hready]
      exact iff_of_false hpc fun hif => hready hif.1
  | write result =>
    obtain ⟨W, -, -, rfl⟩ := Client.step_write h
    rw [client_goto_left_iff (fun h => by cases h)]
    refine iff_of_false (fun hleft => hpc ?_) (Or.elim · id id)
    split_ifs at hleft
    · exact (client_writeBranch_pc c result).symm.trans hleft
    · exact hleft

/-- **Behind `tcp::Client`** the loop is broken off in these cases only, and data is stranded in a
run exactly if some waits when `waitForEvents` is entered. -/
theorem client_behind (mIdentifier : Bytes) (mSocket : Fd) (mWakeupPipe : Fd × Fd)
    (mMasterWrite : Finset Fd) (as : List ClientAction) :
    let c := Client.connected true mIdentifier mSocket mWakeupPipe mMasterWrite
    (Always clientStep Client.Served c as ↔ Along clientStep EntersEmpty c as) ∧
      Along clientStep ClientSound c as := by
  intro c
  have hcallback : Always clientStep (fun c => c.mCallback = true) c as :=
    always_of_inv (fun c a d hcb h => (Client.grown_step h).mCallback.trans hcb) as rfl
  refine ⟨?_, hcallback.along fun c a d hcb _ => clientSound_step hcb a⟩
  exact always_iff_along (I := Client.ServedInside)
    (fun _ _ _ hI _ h hd => Client.servedInside_step hI h hd)
    (fun c a _ hI _ h => (Client.served_step_iff hI h).trans (unstranded_platform_iff c a)) as
    (fun hout => absurd rfl hout) (fun htop => by cases htop)

end C11Http.Posix.Tcp
