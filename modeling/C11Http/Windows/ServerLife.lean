import C11Http.Windows.Ledger
import C11Http.Windows.Shutdown

/-! # The windows server from its constructor to its destructor

`Server::Server` and `Server::~Server` around the runs of the loop. An exception that leaves the
constructor destroys the base class `Overlap`, whose destructor reads the `OVERLAPPED` through a
pointer that is null before `createOverlap`; what the raw pointers to sockets refer to stays open.
The destructor shuts down and closes the two sockets of the server, the incoming one through a
pointer that an accept can have left null.

`connections_left`: the destructor is reached and defined exactly if the run is and no accept of it
has done so; and then all connections have been deleted once, and all sockets and events closed, but
for those of the clients that are still waiting for their identifier. -/

namespace C11Http.Windows

open C11Http.Lib.Run Connections

/-- What the system does in the constructor of the server: the results of `WSAStartup` and
`getaddrinfo`, the event, the listening socket, the errors of `bind` and `listen`, and the socket
for the first client. -/
structure Construction where
  wsaStartup : ℕ
  createOverlap : Except String Handle
  getaddrinfo : ℕ
  socket : Except ℕ Socket
  bind : Option ℕ
  listen : Option ℕ
  prepared : Prepared

/-- How the constructor ends: by an exception, with the sockets that stay open; by the use of a null
pointer; or with a server and the socket it listens on. -/
inductive Constructed
  | threw (what : String) (leaked : List Socket)
  | undefined
  | built (mServerSocket : Socket) (s : Server)

namespace Server

/-- `Server::createServerSocket` and `prepareForServerConnection` in the constructor. -/
def createServerSocket (setup : Socket → Setup) (c : Construction) : Constructed :=
  if c.getaddrinfo ≠ 0 then .threw ("getaddrinfo Error " ++ toString c.getaddrinfo) []
  else
    match c.socket with
    | .error error => .threw ("Socket Creation Error " ++ toString error) []
    | .ok sckt =>
      match c.bind, c.listen, c.prepared with
      | some error, _, _ => .threw ("bind Error " ++ toString error) [sckt]
      | none, some error, _ => .threw ("listen Error " ++ toString error) []
      | none, none, .noSocket error =>
        .threw ("Socket Creation Error " ++ toString error) [sckt]
      | none, none, .noAcceptEx next =>
        .threw "Failed to obtain AcceptEx() pointer" [sckt, next]
      | none, none, .refused next => .threw "AcceptEx Error()" [sckt, next]
      | none, none, .ok next => .built sckt (waitForEvents (setup next))

/-- `Server::Server`, where `events` exist already. -/
def construct (mCallback : Bool) (events : Finset Handle) (c : Construction) : Constructed :=
  if c.wsaStartup ≠ 0 then .undefined
  else
    match c.createOverlap with
    | .error _ => .undefined
    | .ok hEvent =>
      createServerSocket (fun next =>
        { mCallback := mCallback, hEvent := hEvent, incoming := next, events := events }) c

/-- `Server::~Server`, with the destructors of `mConnections` and of `Overlap`; it is none where the
behaviour is undefined, before or in it. -/
def destructor (mServerSocket : Socket) (s : Server) : Option Server :=
  let t := s.shutdown
  match s.undefined, t.mIncomingSocket with
  | true, _ => none
  | false, none => none
  | false, some sckt =>
    some { t with
      mIncomingSocket := none
      mConnections := .empty
      events := t.events.erase t.hEvent
      trace := t.trace ++ [.closed mServerSocket, .closed sckt] ++
        t.mConnections.mContainer.flatMap fun p => [.deleted p, .closed (t.heap p).mSocket] }

variable {s t u : Server}

theorem construct_built {mCallback : Bool} {events : Finset Handle} {c : Construction}
    {mServerSocket : Socket} (h : construct mCallback events c = .built mServerSocket s) :
    ∃ hEvent next, c.createOverlap = .ok hEvent ∧ c.prepared = .ok next ∧
      s = waitForEvents
        { mCallback := mCallback, hEvent := hEvent, incoming := next, events := events } := by
  unfold construct at h
  split_ifs at h
  split at h
  · cases h
  · rename_i hEvent hov
    unfold createServerSocket at h
    split_ifs at h
    split at h
    · cases h
    · split at h
      · cases h
      · cases h
      · cases h
      · cases h
      · cases h
      · rename_i next _ _ hprepared
        cases h
        exact ⟨hEvent, next, hov, hprepared, rfl⟩

theorem accounted_start (setup : Setup) (hfresh : setup.hEvent ∉ setup.events) :
    Accounted setup.events [setup.incoming] (waitForEvents setup) where
  incoming := ⟨setup.incoming, rfl, List.Perm.refl _⟩
  objects := List.Perm.refl _
  closed := rfl
  events := by
    show insert setup.hEvent setup.events = insert setup.hEvent (setup.events ∪ ∅)
    rw [Finset.union_empty]
  foreign _ hp := by cases hp
  own := hfresh

/-- What a shutdown leaves as it is. -/
theorem shutdown_frame (hlive : Live s) : s.shutdown.mIncomingSocket = s.mIncomingSocket ∧
    s.shutdown.informing = s.informing ∧ s.shutdown.heap = s.heap ∧
    s.shutdown.mConnections.mContainer = [] := by
  have hrule := shutdown_rule (s := s)
    (P := fun u => Live u ∧ u.mIncomingSocket = s.mIncomingSocket ∧ u.informing = s.informing)
    (fun _ hu => hu.1.sound) (fun _ _ hu hp => ⟨hu.1.drop hp, hu.2⟩)
    (fun _ hu => ⟨{ hu.1 with }, hu.2⟩) ⟨{ hlive with }, rfl, rfl⟩
  obtain ⟨hheap, hconn, -⟩ := shutdown_registry s
  rw [hlive.sound.shutdown_eq] at hconn
  exact ⟨hrule.2.1, hrule.2.2, hheap, by rw [hconn]; rfl⟩

/-- What the destructor leaves of a server with an incoming socket. -/
theorem destructor_left {base : Finset Handle} {sockets : List Socket} (mServerSocket : Socket)
    (h : Accounted base sockets s) (hlive : Live s) (hdefined : s.undefined = false) :
    ∃ u, destructor mServerSocket s = some u ∧
      (List.range u.nextPtr).Perm (u.deletedPtrs ++ s.informing) ∧
      (u.closedSockets ++ s.informing.map fun p => (s.heap p).mSocket).Perm
        (mServerSocket :: sockets) ∧
      u.events = base ∪ (s.informing.map fun p => (s.heap p).hEvent).toFinset := by
  obtain ⟨hincoming, hinforming, hheap, hnone⟩ := shutdown_frame hlive
  have hacc := h.shutdown hlive
  have hlive' := hlive.shutdown
  obtain ⟨sckt, hin, hbuilt⟩ := hacc.incoming
  have halive : alive s.shutdown = s.informing := by
    unfold alive
    rw [hnone, hinforming]
    rfl
  have hobjects := hacc.objects
  rw [halive] at hobjects
  refine ⟨_, by
    unfold destructor
    simp only [hdefined, hin, hnone, List.flatMap_nil, List.append_nil]
    rfl, ?_, ?_, ?_⟩
  · refine hobjects.trans (List.perm_append_comm.trans (List.Perm.append_right _ ?_))
    show List.Perm _ (List.filterMap deletedPtr (s.shutdown.trace ++ [_, _]))
    rw [List.filterMap_append]
    exact (List.append_nil _).symm ▸ List.Perm.refl _
  · have hclosed : List.filterMap closedSocket
        (s.shutdown.trace ++ [.closed mServerSocket, .closed sckt]) =
        (s.shutdown.deletedPtrs.map fun p => (s.heap p).mSocket) ++ [mServerSocket, sckt] := by
      rw [List.filterMap_append, ← hheap, ← hacc.closed]
      rfl
    show (List.filterMap closedSocket (s.shutdown.trace ++ [_, _]) ++ _).Perm _
    rw [hclosed]
    have hsockets : s.shutdown.builtSockets.Perm
        ((s.shutdown.deletedPtrs.map fun p => (s.heap p).mSocket) ++
          s.informing.map fun p => (s.heap p).mSocket) := by
      unfold builtSockets
      rw [hheap, ← List.map_append]
      exact (hobjects.trans List.perm_append_comm).map _
    rw [List.append_assoc]
    refine List.Perm.trans ?_ (hbuilt.cons mServerSocket)
    refine List.Perm.trans ?_ ((hsockets.symm.cons sckt).cons mServerSocket)
    exact List.perm_middle.trans (List.perm_middle.cons mServerSocket)
  · have hown : s.shutdown.hEvent ∉ base ∪ s.shutdown.aliveEvents := by
      rw [Finset.mem_union, not_or]
      refine ⟨hacc.own, fun hmem => ?_⟩
      obtain ⟨p, hp, he⟩ := List.mem_map.mp (List.mem_toFinset.mp hmem)
      exact (hlive'.events p hp).2 he
    show s.shutdown.events.erase s.shutdown.hEvent = _
    rw [hacc.events, Finset.erase_insert hown, aliveEvents, halive, hheap]

/-- **What a windows server leaves.** From a constructor that has succeeded, over any run, to the
destructor: the destructor is defined exactly if the run is and every accept has replaced the
incoming socket; then each connection object has been deleted once and each socket the server has
had closed once, and the events are those of before, but for the clients that wait for their
identifier. -/
theorem connections_left {mCallback : Bool} {events : Finset Handle} {c : Construction}
    {mServerSocket : Socket} (hbuilt : construct mCallback events c = .built mServerSocket s)
    (hfresh : ∀ hEvent, c.createOverlap = .ok hEvent → hEvent ∉ events) {as : List Action}
    (hrun : run step s as = some t) :
    ((destructor mServerSocket t).isSome = true ↔
        t.undefined = false ∧ Along step Replaces s as) ∧
      ∀ u, destructor mServerSocket t = some u →
        (List.range u.nextPtr).Perm (u.deletedPtrs ++ t.informing) ∧
        (u.closedSockets ++ t.informing.map fun p => (t.heap p).mSocket).Perm
          (mServerSocket :: (c.prepared.sockets ++ s.opened as)) ∧
        u.events = events ∪ (t.informing.map fun p => (t.heap p).hEvent).toFinset := by
  obtain ⟨hEvent, next, hov, hprepared, rfl⟩ := construct_built hbuilt
  have hlive : Live t := (always_of_inv (P := Live) (fun _ _ _ hs hu => hs.step hu) as
    (Live.start _)).last hrun
  have hstart := accounted_start
    { mCallback := mCallback, hEvent := hEvent, incoming := next, events := events }
    (hfresh hEvent hov)
  have hframe := (shutdown_frame hlive).1
  by_cases hdefined : t.undefined = false
  swap
  · have hundefined : destructor mServerSocket t = none := by
      unfold destructor
      simp only [show t.undefined = true by simpa using hdefined]
    rw [hundefined]
    exact ⟨iff_of_false Bool.false_ne_true fun h => hdefined h.1, fun _ h => by cases h⟩
  have hreplaces := replaces_iff as (Live.start _) hstart hrun hdefined
  rw [hreplaces]
  by_cases hin : t.mIncomingSocket = none
  · have hundefined : destructor mServerSocket t = none := by
      unfold destructor
      simp only [hdefined, hframe, hin]
    rw [hundefined]
    exact ⟨iff_of_false Bool.false_ne_true fun h => h.2 hin, fun _ h => by cases h⟩
  · have hacc := accounted_run as (Live.start _) hstart (hreplaces.mpr hin) hrun
    obtain ⟨u, hu, hleft⟩ := destructor_left mServerSocket hacc hlive hdefined
    rw [hu]
    refine ⟨iff_of_true rfl ⟨hdefined, hin⟩, fun v hv => ?_⟩
    rw [Option.some.injEq] at hv
    rw [← hv, hprepared]
    exact hleft

/-- The system serves the constructor with the listening socket 2. -/
def constructing : Construction :=
  { wsaStartup := 0, createOverlap := .ok 0, getaddrinfo := 0, socket := .ok 2, bind := none
    listen := none, prepared := .ok 3 }

/-- A client is registered and another one accepted, whose identifier does not come. -/
def twoClients : List Action :=
  [.connects, .wait, .signaled 0 .failed .pending ⟨.ok 1, .pending, .ok 4⟩, .wait,
    .registers 0 [97], .connects, .ioCompletion,
    .signaled 0 .failed .pending ⟨.ok 2, .pending, .ok 5⟩, .call .shutdown, .wait]

theorem connections_left_twoClients : ∃ t u,
    construct true ∅ constructing = .built 2 (waitForEvents listening) ∧
      run step (waitForEvents listening) twoClients = some t ∧ t.pc = .returned ∧
      destructor 2 t = some u ∧ u.deletedPtrs = [0] ∧
      (List.range u.nextPtr).Perm (u.deletedPtrs ++ t.informing) := by
  have hbuilt : construct true ∅ constructing = .built 2 (waitForEvents listening) := rfl
  obtain ⟨t, hrun, hpc, hdone⟩ := exists_run step (waitForEvents listening) twoClients
    (fun t => t.pc = .returned ∧ (destructor 2 t).any (fun u => u.deletedPtrs = [0]) = true)
    (by decide)
  have hleft := connections_left hbuilt (fun _ _ hmem => by cases hmem) hrun
  cases hu : destructor 2 t with
  | none =>
    rw [hu] at hdone
    cases hdone
  | some u =>
    rw [hu] at hdone
    exact ⟨t, u, hbuilt, hrun, hpc, hu, of_decide_eq_true hdone, (hleft.2 u hu).1⟩

end Server

end C11Http.Windows
