import C11Http.Posix.Accept

/-! # What becomes of the accepted descriptors

Every descriptor that `accept` has returned to the posix server is accounted for: it is the socket
of a registered connection, or it has been closed when its connection was removed, or it is leaked.
Leaked descriptors stay open for good; they are those of the attempts in which the handshake or the
`connected` callback fails behind `accept`. So the open descriptors are those the server began with,
the registered and the leaked ones (`accounted_always`), and a run leaks nothing exactly if
every connection attempt in it settles (`leakFree_iff`).

Both hold in the runs that remove the last connection of the vector only, as otherwise a connection
is closed that stays registered.

`Opens s t fds`: from `s` to `t` the descriptors `fds` are accepted, and no other is opened or
closed, but for the listening socket. -/

namespace C11Http.Posix

open C11Http.Lib.Run Connections

def acceptedFd : Event → Option Fd
  | .accepted fd => some fd
  | _ => none

/-- The closing of another descriptor than the listening one. -/
def closedFd (mConnectSocket : Fd) : Event → Option Fd
  | .closed fd => if fd = mConnectSocket then none else some fd
  | _ => none

/-- The descriptors an attempt has accepted. -/
def Attempt.fds (a : Attempt) : List Fd :=
  match a.accept with
  | .error _ => []
  | .ok fd => [fd]

namespace Server

def acceptedFds (s : Server) : List Fd := s.trace.filterMap acceptedFd

def closedFds (s : Server) : List Fd := s.trace.filterMap (closedFd s.mConnectSocket)

/-- The sockets of the registered connections. -/
def registeredFds (s : Server) : List Fd := s.mConnections.sockets s.heap

/-- **The accepted descriptors are accounted for**: they are registered, leaked or closed, and what
is open beside the descriptors of the beginning is registered or leaked. -/
structure Accounted (base : Finset Fd) (s : Server) (leaked : List Fd) : Prop where
  balance : s.acceptedFds.Perm (s.registeredFds ++ leaked ++ s.closedFds)
  once : (s.registeredFds ++ leaked).Nodup
  new : ∀ fd ∈ s.registeredFds ++ leaked, fd ∉ base
  opened : ∀ fd, fd ≠ s.mConnectSocket →
    (fd ∈ s.openFds ↔ fd ∈ base ∨ fd ∈ s.registeredFds ++ leaked)

/-- Nothing has leaked. -/
def LeakFree (s : Server) : Prop := s.acceptedFds.Perm (s.registeredFds ++ s.closedFds)

/-- The connection attempt of a step, if there is one, settles. -/
def Settled (s : Server) : Action → Prop
  | .read attempt connected e =>
    (attempts s (.read attempt connected e)).isSome = true → Settles attempt connected
  | _ => True

structure Opens (s t : Server) (fds : List Fd) : Prop where
  mConnectSocket : t.mConnectSocket = s.mConnectSocket
  accepted : t.acceptedFds = s.acceptedFds ++ fds
  closed : t.closedFds = s.closedFds
  opened : ∀ fd, fd ≠ s.mConnectSocket → (fd ∈ t.openFds ↔ fd ∈ s.openFds ∨ fd ∈ fds)

variable {s t u : Server}

namespace Opens

theorem refl (s : Server) : Opens s s [] :=
  ⟨rfl, (List.append_nil _).symm, rfl, fun _ _ => by simp⟩

theorem trans {fds fds' : List Fd} (h : Opens s t fds) (h' : Opens t u fds') :
    Opens s u (fds ++ fds') where
  mConnectSocket := h'.mConnectSocket.trans h.mConnectSocket
  accepted := by rw [h'.accepted, h.accepted, List.append_assoc]
  closed := h'.closed.trans h.closed
  opened fd hfd := by
    rw [h'.opened fd (h.mConnectSocket ▸ hfd), h.opened fd hfd, List.mem_append, or_assoc]

theorem next {fds : List Fd} (h : Opens s t fds) (h' : Opens t u []) : Opens s u fds := by
  have htrans := h.trans h'
  rwa [List.append_nil] at htrans

/-- Events that neither accept nor close. -/
theorem of_events {l : List Event} (hconnect : t.mConnectSocket = s.mConnectSocket)
    (hopen : t.openFds = s.openFds) (ht : t.trace = s.trace ++ l)
    (hacc : l.filterMap acceptedFd = []) (hclose : ∀ fd, l.filterMap (closedFd fd) = []) :
    Opens s t [] where
  mConnectSocket := hconnect
  accepted := by rw [acceptedFds, ht, List.filterMap_append, hacc]; rfl
  closed := by rw [closedFds, ht, hconnect, List.filterMap_append, hclose, List.append_nil]; rfl
  opened fd _ := by simp [hopen]

/-- The same trace and the same open descriptors. -/
theorem of_eq (hconnect : t.mConnectSocket = s.mConnectSocket) (hopen : t.openFds = s.openFds)
    (ht : t.trace = s.trace) : Opens s t [] :=
  of_events (l := []) hconnect hopen (ht.trans (List.append_nil _).symm) rfl fun _ => rfl

/-- Calls close the listening socket at most. -/
theorem of_called (h : Called s t) : Opens s t [] := by
  obtain ⟨es, he, hes⟩ := h.trace
  have hacc : es.filterMap acceptedFd = [] := by
    rw [List.filterMap_eq_nil_iff]
    intro e hmem
    have hcall := hes e hmem
    cases e <;> first | rfl | exact hcall.elim
  have hclose : es.filterMap (closedFd s.mConnectSocket) = [] := by
    rw [List.filterMap_eq_nil_iff]
    intro e hmem
    have hcall := hes e hmem
    cases e <;> first | rfl | exact hcall.elim | exact if_pos hcall
  refine ⟨h.mConnectSocket, ?_, ?_, fun fd hfd => ?_⟩
  · rw [acceptedFds, he, List.filterMap_append, hacc]
    rfl
  · rw [closedFds, he, h.mConnectSocket, List.filterMap_append, hclose, List.append_nil]
    rfl
  · rw [List.mem_nil_iff, or_false]
    exact ⟨fun hmem => h.opens hmem, fun hmem => h.closes fd hmem hfd⟩

end Opens

/-! ### The branches -/

/-- A report to the callback, and what the callback does then. -/
theorem opens_reported (s : Server) {e : Event} (hacc : acceptedFd e = none)
    (hclose : ∀ fd, closedFd fd e = none) (r : Reaction Call) :
    Opens s ((s.record [e]).react r) [] :=
  (Opens.of_events (s := s) (t := s.record [e]) (l := [e]) rfl rfl rfl (by simp [hacc])
    (by simp [hclose])).next (.of_called (called_react _ r))

theorem opens_accepting (s : Server) (a : Attempt) : Opens s (s.accepting a) a.fds := by
  have hacc : a.events.filterMap acceptedFd = a.fds := by
    unfold Attempt.events Attempt.fds
    cases a.accept with
    | error what => rfl
    | ok fd => cases a.poll <;> rfl
  have hclose : a.events.filterMap (closedFd s.mConnectSocket) = [] :=
    filterMap_events a (fun _ => rfl) (fun _ _ => rfl) (fun _ _ => rfl)
  refine ⟨rfl, ?_, ?_, fun fd _ => ?_⟩
  · unfold acceptedFds accepting
    rw [List.filterMap_append, hacc]
  · unfold closedFds accepting
    rw [List.filterMap_append, hclose, List.append_nil]
  · show fd ∈ a.opened s.openFds ↔ _
    unfold Attempt.opened Attempt.fds
    cases a.accept with
    | error what => simp
    | ok fd' => simp [or_comm]

theorem opens_acceptBranch (s : Server) (a : Attempt) (connected : Reaction Call) :
    Opens s (s.acceptBranch a connected) a.fds := by
  have hallocated : ∀ client, Opens s ((s.accepting a).allocate client) a.fds :=
    fun client => (opens_accepting s a).next (.of_eq rfl rfl rfl)
  have hgreet : ∀ client, Opens s (s.greeting a client connected) a.fds :=
    fun client => (hallocated client).next (opens_reported _ rfl (fun _ => rfl) connected)
  apply acceptBranch_rule (P := fun t => Opens s t a.fds)
  case rejected => exact fun _ _ => opens_accepting s a
  case null => exact fun client _ _ => (hallocated client).next (.of_eq rfl rfl rfl)
  case registered => exact fun client _ _ _ => (hgreet client).next (.of_eq rfl rfl rfl)
  case swallowed => exact fun client _ _ _ => hgreet client
  case escaped => exact fun client _ _ _ => (hgreet client).next (.of_eq rfl rfl rfl)

/-- What the removal of a connection is preceded by. -/
structure Dropping (s : Server) (i : Fd) (e : Reading) (p : Ptr) (u : Server) : Prop where
  found : s.mConnections.getServerConnection s.heap i = some p
  fails : e.recv.data = [] ∨ e.receiveComplete.outcome = .runtimeError
  told : e.disconnected.outcome = .returns
  opens : Opens s u []
  framed : Framed s u

theorem opens_handleServerConnection (hs : s.Fresh) (hcb : s.mCallback = true) (i : Fd)
    (e : Reading) :
    Opens s (s.handleServerConnection i e) [] ∧ Framed s (s.handleServerConnection i e) ∨
      ∃ p u, Dropping s i e p u ∧ s.handleServerConnection i e = u.removeServerConnection i := by
  have hrecv : ∀ p, Opens s (s.receiving p e.recv) [] := fun p =>
    .of_events (l := [.received (s.heap p).mSocket e.recv.data]) rfl rfl rfl rfl fun _ => rfl
  have hdeliver : ∀ p data,
      Opens s ((s.receiving p e.recv).deliver p data e.receiveComplete) [] :=
    fun p data => (hrecv p).next (opens_reported _ rfl (fun _ => rfl) _)
  have hframed : ∀ p, Framed s (s.receiving p e.recv) := fun p => framed_receiving s p e.recv
  have hframed' : ∀ p data,
      Framed s ((s.receiving p e.recv).deliver p data e.receiveComplete) :=
    fun p data => (hframed p).trans hs (framed_deliver _ p data _)
  have hdrop : ∀ p u, s.mConnections.getServerConnection s.heap i = some p →
      (e.recv.data = [] ∨ e.receiveComplete.outcome = .runtimeError) →
      Opens s u [] → Framed s u →
      Opens s (u.dropConnection i p e.disconnected) [] ∧
          Framed s (u.dropConnection i p e.disconnected) ∨
        ∃ q v, Dropping s i e q v ∧
          u.dropConnection i p e.disconnected = v.removeServerConnection i := by
    intro p u hp hfails hopens hu
    have hd : Opens s (u.disconnect p e.disconnected) [] :=
      hopens.next (opens_reported u rfl (fun _ => rfl) _)
    have hfd : Framed s (u.disconnect p e.disconnected) :=
      hu.trans hs (framed_disconnect u p e.disconnected)
    apply dropConnection_rule (P := fun t => Opens s t [] ∧ Framed s t ∨
      ∃ q v, Dropping s i e q v ∧ t = v.removeServerConnection i)
    case silent =>
      exact fun hnull => absurd (hnull.symm.trans (hu.mCallback.trans hcb)) Bool.false_ne_true
    case reported => exact fun _ ho => Or.inr ⟨p, _, ⟨hp, hfails, ho, hd, hfd⟩, rfl⟩
    case escaped =>
      exact fun _ _ => Or.inl ⟨hd.next (.of_eq rfl rfl rfl), hfd.trans hs (framed_halt _)⟩
  apply handleServerConnection_rule (P := fun t => Opens s t [] ∧ Framed s t ∨
    ∃ p u, Dropping s i e p u ∧ t = u.removeServerConnection i)
  case unknown => exact fun _ => Or.inl ⟨.refl s, Framed.refl s⟩
  case failed =>
    intro p what hp hr
    have hdata : e.recv.data = [] := by
      by_contra hne
      obtain ⟨res, hok⟩ := ((s.heap p).performReceive_isOk_iff e.recv).mpr hne
      rw [hr] at hok
      cases hok
    exact hdrop p _ hp (Or.inl hdata) (hrecv p) (hframed p)
  case silent => exact fun _ _ _ _ hnull => absurd (hnull.symm.trans hcb) Bool.false_ne_true
  case delivered => exact fun p data _ _ _ _ => Or.inl ⟨hdeliver p data, hframed' p data⟩
  case thrown =>
    exact fun p data hp _ _ ho => hdrop p _ hp (Or.inr ho) (hdeliver p data) (hframed' p data)
  case escaped =>
    exact fun p data _ _ _ _ => Or.inl ⟨(hdeliver p data).next (.of_eq rfl rfl rfl),
      (hframed' p data).trans hs (framed_halt _)⟩

theorem opens_writeBranch (hpc : s.pc ≠ .halted) (i : Fd) (e : Writing) :
    Opens s (s.writeBranch i e) [] := by
  have hhand : ∀ p, Opens s (s.handing p e.result) [] := fun p =>
    .of_events (l := [.handed p ((s.heap p).sendQueuedMessage e.result).2.1 e.result])
      rfl rfl rfl rfl fun _ => rfl
  have hreport : ∀ p count, Opens s ((s.handing p e.result).report p count e.sendComplete) [] :=
    fun p count => (hhand p).next (opens_reported _ rfl (fun _ => rfl) _)
  apply writeBranch_rule (P := fun t => Opens s t []) hpc
  case unknown => exact fun _ => .of_eq rfl rfl rfl
  case short => exact fun p _ _ => (hhand p).next (.of_eq rfl rfl rfl)
  case null => exact fun p _ _ _ _ => (hhand p).next (.of_eq rfl rfl rfl)
  case reported => exact fun p count _ _ _ _ => (hreport p count).next (.of_eq rfl rfl rfl)
  case escaped => exact fun p count _ _ _ _ => (hreport p count).next (.of_eq rfl rfl rfl)

theorem opens_goto (s : Server) (pc : Pc) : Opens s (s.goto pc) [] := by
  unfold goto
  split_ifs
  · exact .refl s
  · exact .of_eq rfl rfl rfl

/-! ### The registered sockets -/

theorem registeredFds_framed (hs : s.Fresh) (h : Framed s t) :
    t.registeredFds = s.registeredFds := by
  unfold registeredFds sockets
  rw [h.mConnections]
  exact List.map_congr_left fun p hp => h.mSocket p (hs p (Or.inl hp))

theorem registeredFds_goto (s : Server) (pc : Pc) :
    (s.goto pc).registeredFds = s.registeredFds := by
  unfold registeredFds
  rw [goto_mConnections, goto_heap]

/-- An attempt registers the descriptor it has accepted exactly if it settles. -/
theorem registeredFds_acceptBranch (hs : s.Fresh) (hcb : s.mCallback = true) {a : Attempt}
    (connected : Reaction Call) {e : Reading} (hr : s.Readable a e) :
    a.fds = [] ∧ Settles a connected ∧
        (s.acceptBranch a connected).registeredFds = s.registeredFds ∨
      ∃ fd, a.fds = [fd] ∧ a.accept = .ok fd ∧
        (Settles a connected ∧
            (s.acceptBranch a connected).registeredFds = s.registeredFds ++ [fd] ∨
          ¬ Settles a connected ∧
            (s.acceptBranch a connected).registeredFds = s.registeredFds) := by
  -- a client that is not registered leaks its descriptor
  have hunsettled : ∀ client (t : Server), a.construct = .ok client → connected.outcome ≠ .returns →
      t.registeredFds = s.registeredFds → ∃ fd, a.fds = [fd] ∧ a.accept = .ok fd ∧
        (Settles a connected ∧ t.registeredFds = s.registeredFds ++ [fd] ∨
          ¬ Settles a connected ∧ t.registeredFds = s.registeredFds) := by
    intro client t ha ho ht
    have hacc := (Attempt.construct_ok ha).1
    refine ⟨client.mSocket, by simp only [Attempt.fds, hacc], hacc, Or.inr ⟨?_, ht⟩⟩
    rintro (⟨what, herr⟩ | ⟨-, -, hret⟩)
    · rw [hacc] at herr
      cases herr
    · exact ho hret
  have hgreet : ∀ client, (s.greeting a client connected).registeredFds = s.registeredFds :=
    fun client => registeredFds_framed hs (framed_greeting s hs a client connected)
  apply acceptBranch_rule (P := fun t =>
    a.fds = [] ∧ Settles a connected ∧ t.registeredFds = s.registeredFds ∨
      ∃ fd, a.fds = [fd] ∧ a.accept = .ok fd ∧
        (Settles a connected ∧ t.registeredFds = s.registeredFds ++ [fd] ∨
          ¬ Settles a connected ∧ t.registeredFds = s.registeredFds))
  case rejected =>
    intro what ha
    cases hacc : a.accept with
    | error strerror =>
      exact Or.inl ⟨by simp only [Attempt.fds, hacc], Or.inl ⟨strerror, hacc⟩, rfl⟩
    | ok fd =>
      refine Or.inr ⟨fd, by simp only [Attempt.fds, hacc], rfl, Or.inr ⟨?_, rfl⟩⟩
      rintro (⟨strerror, herr⟩ | ⟨hpoll, hdata, -⟩)
      · rw [hacc] at herr
        cases herr
      · obtain ⟨client, hok⟩ := a.construct_isOk_iff.mpr ⟨⟨fd, hacc⟩, hpoll, hdata⟩
        rw [ha] at hok
        cases hok
  case null => exact fun client _ hnull => absurd (hnull.symm.trans hcb) Bool.false_ne_true
  case registered =>
    intro client ha _ ho
    obtain ⟨hacc, hpoll, hid, hne, -⟩ := Attempt.construct_ok ha
    have hu := greeted hs connected ha hr
    have hsock : ((s.greeting a client connected).heap s.nextPtr).mSocket = client.mSocket :=
      Except.ok.inj (hu.accept.symm.trans hacc)
    refine Or.inr ⟨client.mSocket, by simp only [Attempt.fds, hacc], hacc,
      Or.inl ⟨Or.inr ⟨hpoll, hid ▸ hne, ho⟩, ?_⟩⟩
    rw [← hgreet client, ← hsock]
    exact List.map_append
  case swallowed =>
    exact fun client ha _ ho => Or.inr (hunsettled client _ ha (by rw [ho]; decide) (hgreet client))
  case escaped =>
    exact fun client ha _ ho => Or.inr (hunsettled client _ ha (by rw [ho]; decide) (hgreet client))

/-! ### A step -/

/-- What a step does to the descriptors. -/
inductive Change (s : Server) (a : Action) (t : Server) : Prop
  | nothing (opens : Opens s t []) (registered : t.registeredFds = s.registeredFds)
      (settled : Settled s a)
  | registers (fd : Fd) (opens : Opens s t [fd]) (new : fd ∉ s.openFds)
      (other : fd ≠ s.mConnectSocket) (registered : t.registeredFds = s.registeredFds ++ [fd])
      (settled : Settled s a)
  | leaks (fd : Fd) (opens : Opens s t [fd]) (new : fd ∉ s.openFds)
      (other : fd ≠ s.mConnectSocket) (registered : t.registeredFds = s.registeredFds)
      (unsettled : ¬ Settled s a)
  | closes (fd : Fd) (mConnectSocket : t.mConnectSocket = s.mConnectSocket)
      (accepted : t.acceptedFds = s.acceptedFds) (closed : t.closedFds = s.closedFds ++ [fd])
      (registered : s.registeredFds = t.registeredFds ++ [fd])
      (opened : ∀ fd', fd' ≠ s.mConnectSocket → (fd' ∈ t.openFds ↔ fd' ∈ s.openFds ∧ fd' ≠ fd))
      (settled : Settled s a)

/-- The removal of the last connection closes its socket. -/
theorem change_remove {a : Action} (hs : s.Live) {p : Ptr} (hopens : Opens s u [])
    (hframed : Framed s u) (hlast : s.mConnections.mContainer.getLast? = some p) (pc : Pc)
    (hsettled : Settled s a) :
    Change s a ((u.removeServerConnection (s.heap p).mSocket).goto pc) := by
  obtain ⟨xs, hc⟩ := List.getLast?_eq_some_iff.mp hlast
  have hp : p ∈ s.mConnections.mContainer := by
    rw [hc]
    exact List.mem_append_right _ (List.mem_singleton_self p)
  have hsock := hframed.mSocket p (hs.fresh p (Or.inl hp))
  have hc' : u.mConnections.mContainer = xs ++ [p] := by rw [hframed.mConnections, hc]
  have hconnect : (s.heap p).mSocket ≠ u.mConnectSocket := by
    rw [hopens.mConnectSocket]
    exact hs.connect p hp
  have hremove := removeServerConnection_of_last (hs.framed hframed) hc'
  rw [hsock] at hremove
  have hgoto := opens_goto (u.removeServerConnection (s.heap p).mSocket) pc
  refine .closes (s.heap p).mSocket ?_ ?_ ?_ ?_ (fun fd hfd => ?_) hsettled
  · rw [hgoto.mConnectSocket, hremove]
    exact hopens.mConnectSocket
  · rw [hgoto.accepted, List.append_nil, hremove]
    unfold acceptedFds
    rw [List.filterMap_append]
    exact (List.append_nil _).trans (hopens.accepted.trans (List.append_nil _))
  · rw [hgoto.closed, hremove]
    unfold closedFds
    rw [List.filterMap_append]
    have hclosed : u.trace.filterMap (closedFd u.mConnectSocket) = s.closedFds := hopens.closed
    have hfd : closedFd u.mConnectSocket (.closed (s.heap p).mSocket) = some (s.heap p).mSocket :=
      if_neg hconnect
    rw [hclosed, List.filterMap_cons_none rfl, List.filterMap_cons_some hfd, List.filterMap_nil]
    rfl
  · rw [registeredFds_goto, ← registeredFds_framed hs.fresh hframed, hremove]
    unfold registeredFds sockets
    rw [hc', List.map_append, List.map_singleton, hsock]
  · have hne : fd ≠ (u.removeServerConnection (s.heap p).mSocket).mConnectSocket := by
      rw [hremove]
      exact fun heq => hfd (heq.trans hopens.mConnectSocket)
    rw [hgoto.opened fd hne, hremove]
    show fd ∈ u.openFds.erase _ ∨ fd ∈ [] ↔ _
    rw [Finset.mem_erase, hopens.opened fd hfd]
    simp [and_comm]

theorem change_step {a : Action} (hs : s.Live) (hcb : s.mCallback = true)
    (hlast : RemovesLast s a) (h : s.step a = some t) : Change s a t := by
  cases a with
  | call c =>
    obtain ⟨-, rfl⟩ := step_call h
    have hcalled := called_call s c
    exact .nothing (.of_called hcalled) (registeredFds_framed hs.fresh (.of_called hcalled)) trivial
  | select result =>
    obtain ⟨-, -, ⟨-, rfl⟩ | ⟨_, _, -, -, rfl⟩⟩ := step_select h
    · exact .nothing (.of_eq rfl rfl rfl) rfl trivial
    · exact .nothing (.of_eq rfl rfl rfl) rfl trivial
  | read attempt connected e =>
    obtain ⟨i, fdmax, R, W, hpc, hr, rfl⟩ := step_read h
    have hattempts : attempts s (.read attempt connected e) =
        if i ∈ R ∧ i = s.mConnectSocket then some attempt else none := by
      simp only [attempts, hpc]
    have hsettled : Settled s (.read attempt connected e) ↔
        (i ∈ R ∧ i = s.mConnectSocket → Settles attempt connected) := by
      have hdef : Settled s (.read attempt connected e) ↔
          ((attempts s (.read attempt connected e)).isSome = true → Settles attempt connected) :=
        Iff.rfl
      rw [hdef, hattempts]
      split_ifs with hif
      · exact ⟨fun h _ => h rfl, fun h _ => h hif⟩
      · exact iff_of_true (fun hsome => by cases hsome) fun hif' => absurd hif' hif
    unfold readBranch
    split_ifs with hi hc
    · have hopens := (opens_acceptBranch s attempt connected).next
        (opens_goto _ (.scan i fdmax R W .write))
      obtain ⟨hnil, hsettles, hreg⟩ | ⟨fd, hfds, hacc, hreg⟩ :=
        registeredFds_acceptBranch hs.fresh hcb connected hr
      · rw [hnil] at hopens
        exact .nothing hopens ((registeredFds_goto _ _).trans hreg)
          (hsettled.mpr fun _ => hsettles)
      · rw [hfds] at hopens
        obtain ⟨hnew, hother⟩ := fits_of_readable hr fd hacc
        rcases hreg with ⟨hsettles, hreg⟩ | ⟨hsettles, hreg⟩
        · exact .registers fd hopens hnew hother ((registeredFds_goto _ _).trans hreg)
            (hsettled.mpr fun _ => hsettles)
        · exact .leaks fd hopens hnew hother ((registeredFds_goto _ _).trans hreg)
            fun hset => hsettles (hsettled.mp hset ⟨hi, hc⟩)
    · have hset := hsettled.mpr fun hif => absurd hif.2 hc
      obtain ⟨hopens, hframed⟩ | ⟨p, u, hdrop, heq⟩ :=
        opens_handleServerConnection hs.fresh hcb i e
      · exact .nothing (hopens.next (opens_goto _ _))
          ((registeredFds_goto _ _).trans (registeredFds_framed hs.fresh hframed)) hset
      · have hremoves : removes s (.read attempt connected e) = some p := by
          have hfails : e.recv.data = [] ∨
              s.mCallback = true ∧ e.receiveComplete.outcome = .runtimeError :=
            hdrop.fails.imp id fun ho => ⟨hcb, ho⟩
          simp only [removes, hpc, if_pos (⟨hi, hc, hfails, fun _ => hdrop.told⟩ : _ ∧ _ ∧ _ ∧ _),
            hdrop.found]
        rw [heq, ← (getServerConnection_some hdrop.found).2]
        exact change_remove hs hdrop.opens hdrop.framed (hlast p hremoves) _ hset
    · exact .nothing (opens_goto s _) (registeredFds_goto s _)
        (hsettled.mpr fun hif => absurd hif.1 hi)
  | write e =>
    obtain ⟨i, fdmax, R, W, hpc, -, rfl⟩ := step_write h
    have hne : s.pc ≠ .halted := by
      rw [hpc]
      exact Pc.noConfusion
    by_cases hi : i ∈ W
    · rw [if_pos hi]
      refine .nothing ((opens_writeBranch hne i e).next (opens_goto _ _)) ?_ trivial
      rw [registeredFds_goto]
      rcases writeBranch_effect hs.fresh hne i e with hf | ⟨u, hu, heq⟩
      · exact registeredFds_framed hs.fresh hf
      · have hsame : (u.unwatch i).registeredFds = u.registeredFds := rfl
        rw [heq, hsame]
        exact registeredFds_framed hs.fresh hu
    · rw [if_neg hi]
      exact .nothing (opens_goto s _) (registeredFds_goto s _) trivial

/-! ### Runs -/

/-- **A step keeps the accounts.** -/
theorem accounted_change {a : Action} {base : Finset Fd} {leaked : List Fd}
    (h : Accounted base s leaked) (hbase : s.mConnectSocket ∈ base) (hc : Change s a t) :
    ∃ leaked, Accounted base t leaked := by
  obtain ⟨hbalance, honce, hnew, hopened⟩ := h
  -- what is accounted for is open, so that it is not accepted again
  have hopen : ∀ fd, fd ∉ s.openFds → fd ∉ s.registeredFds ++ leaked := by
    intro fd hfd hmem
    have hne : fd ≠ s.mConnectSocket := fun heq => hnew fd hmem (heq ▸ hbase)
    exact hfd ((hopened fd hne).mpr (Or.inr hmem))
  have hbase' : ∀ fd, fd ∉ s.openFds → fd ≠ s.mConnectSocket → fd ∉ base :=
    fun fd hfd hne hmem => hfd ((hopened fd hne).mpr (Or.inl hmem))
  rw [List.perm_iff_count] at hbalance
  cases hc with
  | nothing hopens hreg _ =>
    refine ⟨leaked, List.perm_iff_count.mpr fun fd => ?_, ?_, ?_, fun fd hfd => ?_⟩
    · rw [hopens.accepted, hopens.closed, hreg, List.append_nil]
      exact hbalance fd
    · rw [hreg]
      exact honce
    · rw [hreg]
      exact hnew
    · rw [hopens.mConnectSocket] at hfd
      rw [hopens.opened fd hfd, hopened fd hfd, hreg]
      simp
  | registers fd hopens hfresh hother hreg _ =>
    have hnot := hopen fd hfresh
    rw [List.mem_append, not_or] at hnot
    refine ⟨leaked, List.perm_iff_count.mpr fun fd' => ?_, ?_, ?_, fun fd' hfd' => ?_⟩
    · have hcount := hbalance fd'
      rw [hopens.accepted, hopens.closed, hreg]
      simp only [List.count_append] at hcount ⊢
      omega
    · rw [hreg, List.append_assoc, List.singleton_append, List.nodup_middle, List.nodup_cons]
      exact ⟨fun hmem => (List.mem_append.mp hmem).elim hnot.1 hnot.2, honce⟩
    · intro fd' hmem
      rw [hreg, List.append_assoc, List.mem_append, List.singleton_append, List.mem_cons] at hmem
      rcases hmem with hmem | rfl | hmem
      · exact hnew fd' (List.mem_append_left _ hmem)
      · exact hbase' fd' hfresh hother
      · exact hnew fd' (List.mem_append_right _ hmem)
    · rw [hopens.mConnectSocket] at hfd'
      rw [hopens.opened fd' hfd', hopened fd' hfd', hreg]
      simp only [List.mem_append, List.mem_singleton]
      tauto
  | leaks fd hopens hfresh hother hreg _ =>
    have hnot := hopen fd hfresh
    refine ⟨leaked ++ [fd], List.perm_iff_count.mpr fun fd' => ?_, ?_, ?_, fun fd' hfd' => ?_⟩
    · have hcount := hbalance fd'
      rw [hopens.accepted, hopens.closed, hreg]
      simp only [List.count_append] at hcount ⊢
      omega
    · rw [hreg, ← List.append_assoc, ← List.concat_eq_append, List.nodup_concat]
      exact ⟨hnot, honce⟩
    · intro fd' hmem
      rw [hreg, ← List.append_assoc, List.mem_append, List.mem_singleton] at hmem
      rcases hmem with hmem | rfl
      · exact hnew fd' hmem
      · exact hbase' fd' hfresh hother
    · rw [hopens.mConnectSocket] at hfd'
      rw [hopens.opened fd' hfd', hopened fd' hfd', hreg]
      simp only [List.mem_append, List.mem_singleton]
      tauto
  | closes fd hconnect haccepted hclosed hreg hopens _ =>
    rw [hreg, List.append_assoc, List.singleton_append] at honce hnew
    rw [List.nodup_middle, List.nodup_cons] at honce
    have hrest : ∀ fd' ∈ t.registeredFds ++ leaked, fd' ∉ base := by
      intro fd' hmem
      refine hnew fd' ?_
      rw [List.mem_append, List.mem_cons]
      exact (List.mem_append.mp hmem).imp id Or.inr
    refine ⟨leaked, List.perm_iff_count.mpr fun fd' => ?_, honce.2, hrest, fun fd' hfd' => ?_⟩
    · have hcount := hbalance fd'
      rw [haccepted, hclosed]
      rw [hreg] at hcount
      simp only [List.count_append] at hcount ⊢
      omega
    · rw [hconnect] at hfd'
      rw [hopens fd' hfd', hopened fd' hfd', hreg]
      have hfd : fd ∉ base := hnew fd (by simp)
      have hother : fd' = fd → fd' ∉ base ∧ fd' ∉ t.registeredFds ++ leaked := by
        rintro rfl
        exact ⟨hfd, honce.1⟩
      simp only [List.mem_append, List.mem_singleton] at hother ⊢
      tauto

/-- **A step from a state without leaks** leads to one without leaks exactly if its connection
attempt settles. -/
theorem leakFree_change_iff {a : Action} (h : s.LeakFree) (hc : Change s a t) :
    t.LeakFree ↔ Settled s a := by
  have hcount := List.perm_iff_count.mp h
  cases hc with
  | nothing hopens hreg hsettled =>
    refine iff_of_true (List.perm_iff_count.mpr fun fd => ?_) hsettled
    rw [hopens.accepted, hopens.closed, hreg, List.append_nil]
    exact hcount fd
  | registers fd hopens _ _ hreg hsettled =>
    refine iff_of_true (List.perm_iff_count.mpr fun fd' => ?_) hsettled
    have hfd' := hcount fd'
    rw [hopens.accepted, hopens.closed, hreg]
    simp only [List.count_append] at hfd' ⊢
    omega
  | leaks fd hopens _ _ hreg hunsettled =>
    refine iff_of_false (fun ht => ?_) hunsettled
    have hlen := List.Perm.length_eq h
    have hlen' := List.Perm.length_eq ht
    rw [hopens.accepted, hopens.closed, hreg] at hlen'
    simp only [List.length_append, List.length_singleton] at hlen hlen'
    omega
  | closes fd _ haccepted hclosed hreg _ hsettled =>
    refine iff_of_true (List.perm_iff_count.mpr fun fd' => ?_) hsettled
    have hfd' := hcount fd'
    rw [haccepted, hclosed]
    rw [hreg] at hfd'
    simp only [List.count_append] at hfd' ⊢
    omega

theorem Accounted.start (setup : Setup) :
    Accounted (waitForEvents setup).openFds (waitForEvents setup) [] where
  balance := List.Perm.refl _
  once := List.nodup_nil
  new _ hfd := by cases hfd
  opened _ _ := by simp [registeredFds, sockets, waitForEvents, Connections.new]

theorem leakFree_start (setup : Setup) : (waitForEvents setup).LeakFree := List.Perm.refl _

/-- The accounts hold in every state of every run that removes the last connection of the vector
only. -/
theorem accounted_always (setup : Setup) (hcb : setup.mCallback = true) (as : List Action)
    (hlast : Along step RemovesLast (waitForEvents setup) as) :
    Always step (fun s => ∃ leaked, Accounted (waitForEvents setup).openFds s leaked)
      (waitForEvents setup) as := by
  have hmem : (waitForEvents setup).mConnectSocket ∈ (waitForEvents setup).openFds :=
    Finset.mem_union_left _ (Finset.mem_insert_self _ _)
  refine (always_of_along (P := fun s => (s.Live ∧ s.mCallback = true) ∧
    s.mConnectSocket ∈ (waitForEvents setup).openFds ∧
    ∃ leaked, Accounted (waitForEvents setup).openFds s leaked) ?_
    ⟨⟨Live.start setup, hcb⟩, hmem, [], Accounted.start setup⟩ hlast).imp fun _ h => h.2.2
  rintro s a t ⟨⟨hlive, hcb⟩, hbase, leaked, hacc⟩ hR h
  obtain ⟨hconnect, hcallback⟩ := constant_step hlive.fresh h
  exact ⟨⟨live_step hlive hR h, hcallback.trans hcb⟩, hconnect ▸ hbase,
    accounted_change hacc hbase (change_step hlive hcb hR h)⟩

/-- **A run leaks nothing exactly if every connection attempt in it settles**, while removals are of
the last connection. -/
theorem leakFree_iff (setup : Setup) (hcb : setup.mCallback = true) (as : List Action)
    (hlast : Along step RemovesLast (waitForEvents setup) as) :
    Always step LeakFree (waitForEvents setup) as ↔ Along step Settled (waitForEvents setup) as :=
  always_iff_along_while (I := fun s => s.Live ∧ s.mCallback = true) (P := LeakFree)
    (Q := RemovesLast) (R := Settled)
    (fun _ _ _ hI _ hQ h _ => ⟨live_step hI.1 hQ h, (constant_step hI.1.fresh h).2.trans hI.2⟩)
    (fun _ _ _ hI hP hQ h => leakFree_change_iff hP (change_step hI.1 hI.2 hQ h)) as
    ⟨Live.start setup, hcb⟩ (leakFree_start setup) hlast

theorem leakFree_iff_hangUp : ∃ t, run step (waitForEvents listening) (greet ++ hangUp) = some t ∧
    (Always step LeakFree (waitForEvents listening) (greet ++ hangUp) ↔
      Along step Settled (waitForEvents listening) (greet ++ hangUp)) := by
  obtain ⟨t, hrun, -⟩ := exists_run step (waitForEvents listening) (greet ++ hangUp)
    (fun t => t.pc = .top) (by decide)
  exact ⟨t, hrun, leakFree_iff listening rfl (greet ++ hangUp) (by decide)⟩

end Server

end C11Http.Posix
