import Mathlib.Data.Finset.Dedup
import Mathlib.Data.Finset.Lattice.Lemmas
import C11Http.Windows.Stray

/-! # What becomes of the connections of the windows server

Every `ServerConnection` the windows server has built is registered, waits for its identifier, or
has been deleted, once, which closes its socket and its event; a connection that waits belongs to
nobody but whoever is to register it. `Accounted` is this balance for the objects, the sockets and
the events, in every state in which the server has an incoming socket.

It loses that socket for good when an accept fails between the `delete` of the old one and the
`new Socket` for the next client, and then the loop is left (`Stranded`); an accept that fails to
create the event of its connection is undefined. A run that does not become undefined keeps the
socket exactly if each accept in it gets to a new one (`accounted_step`, `lost_run`, `Replaces`). -/

namespace C11Http.Windows

open C11Http.Lib.Run Connections

def deletedPtr : Event → Option Ptr
  | .deleted p => some p
  | _ => none

def closedSocket : Event → Option Socket
  | .closed sckt => some sckt
  | _ => none

/-- The socket that `prepareForServerConnection` has created. -/
def Prepared.sockets : Prepared → List Socket
  | .noSocket _ => []
  | .noAcceptEx sckt => [sckt]
  | .refused sckt => [sckt]
  | .ok sckt => [sckt]

/-- The sockets that an accept creates. -/
def Accept.sockets (a : Accept) : List Socket :=
  match a.hEvent, a.wsaRecv with
  | .error _, _ => []
  | _, .failed _ => []
  | _, _ => a.prepared.sockets

/-- The accept puts a new socket in the place of the incoming one. -/
def Accept.Replaces (a : Accept) : Prop :=
  match a.hEvent with
  | .error _ => False
  | .ok _ => a.wsaRecv.Accepted ∧ a.prepared.sockets ≠ []

instance : (a : Accept) → Decidable a.Replaces
  | ⟨.error _, _, _⟩ => .isFalse id
  | ⟨.ok _, wsaRecv, prepared⟩ =>
    inferInstanceAs (Decidable (wsaRecv.Accepted ∧ prepared.sockets ≠ []))

namespace Server

def deletedPtrs (s : Server) : List Ptr := s.trace.filterMap deletedPtr

def closedSockets (s : Server) : List Socket := s.trace.filterMap closedSocket

/-- The sockets of the objects that have been built. -/
def builtSockets (s : Server) : List Socket :=
  (List.range s.nextPtr).map fun p => (s.heap p).mSocket

/-- The events of the connections that are left. -/
def aliveEvents (s : Server) : Finset Handle := ((alive s).map fun p => (s.heap p).hEvent).toFinset

/-- The accept that a step makes. -/
def acceptOf (s : Server) : Action → Option Accept
  | .signaled i _ _ accept =>
    match s.pc with
    | .waiting handles =>
      if handles[i]? = some s.hEvent ∧ s.mHasBeenShutdown = false then some accept else none
    | _ => none
  | _ => none

/-- The sockets that a step brings to the server. -/
def opens (s : Server) : Action → List Socket
  | .call (.addConnection mSocket _ _) => [mSocket]
  | a =>
    match s.acceptOf a with
    | none => []
    | some accept => accept.sockets

/-- The sockets that a run brings to the server. -/
def opened : Server → List Action → List Socket
  | _, [] => []
  | s, a :: as =>
    match step s a with
    | none => []
    | some t => s.opens a ++ opened t as

/-- The accept of the step, if there is one, leaves the server with an incoming socket. -/
def Replaces (s : Server) (a : Action) : Prop := ∀ accept ∈ s.acceptOf a, accept.Replaces

instance (s : Server) (a : Action) : Decidable (s.Replaces a) := by
  unfold Replaces
  infer_instance

/-- **The connections are accounted for.** Beside `base`, the events are those of the server and of
the connections that are left; `sockets` are all that the server has had. -/
structure Accounted (base : Finset Handle) (sockets : List Socket) (s : Server) : Prop where
  incoming : ∃ sckt, s.mIncomingSocket = some sckt ∧ (sckt :: s.builtSockets).Perm sockets
  objects : (List.range s.nextPtr).Perm (alive s ++ s.deletedPtrs)
  closed : s.closedSockets = s.deletedPtrs.map fun p => (s.heap p).mSocket
  events : s.events = insert s.hEvent (base ∪ s.aliveEvents)
  foreign : ∀ p ∈ alive s, (s.heap p).hEvent ∉ base
  own : s.hEvent ∉ base

/-- The incoming socket is lost and the loop is left. -/
structure Stranded (s : Server) : Prop where
  incoming : s.mIncomingSocket = none
  left : s.pc = .left
  alone : s.Alone

/-- The server will not have an incoming socket again, or its behaviour is undefined. -/
def Lost (s : Server) : Prop := s.undefined = true ∨ Stranded s

/-- Nothing is built, deleted, opened or closed. -/
structure Keeps (s t : Server) : Prop where
  alive : (Server.alive t).Perm (Server.alive s)
  nextPtr : t.nextPtr = s.nextPtr
  mSocket : ∀ p, (t.heap p).mSocket = (s.heap p).mSocket
  handle : ∀ p, (t.heap p).hEvent = (s.heap p).hEvent
  deleted : t.deletedPtrs = s.deletedPtrs
  closed : t.closedSockets = s.closedSockets
  events : t.events = s.events
  hEvent : t.hEvent = s.hEvent
  incoming : t.mIncomingSocket = s.mIncomingSocket

variable {s t u : Server} {base : Finset Handle} {sockets : List Socket}

/-- An identifier is set; the sockets and the events stay. -/
theorem enroll_heap (s : Server) (p : Ptr) (identifier : Bytes) (q : Ptr) :
    ((s.enroll p identifier).heap q).mSocket = (s.heap q).mSocket ∧
      ((s.enroll p identifier).heap q).hEvent = (s.heap q).hEvent := by
  have hheap : (s.enroll p identifier).heap =
      Function.update s.heap p ((s.heap p).setIdentifier identifier) := rfl
  rw [hheap]
  rcases eq_or_ne q p with rfl | hne
  · rw [Function.update_self]
    exact ⟨rfl, rfl⟩
  · rw [Function.update_of_ne hne]
    exact ⟨rfl, rfl⟩

namespace Keeps

/-- The same connections, objects and handles, and events that are no ends. -/
theorem of_events (es : List Event) (htrace : t.trace = s.trace ++ es)
    (hdel : es.filterMap deletedPtr = []) (hclosed : es.filterMap closedSocket = [])
    (hconn : t.mConnections = s.mConnections) (hinf : t.informing = s.informing)
    (hptr : t.nextPtr = s.nextPtr) (hheap : t.heap = s.heap) (hev : t.events = s.events)
    (hown : t.hEvent = s.hEvent) (hin : t.mIncomingSocket = s.mIncomingSocket) : Keeps s t where
  alive := by
    unfold Server.alive
    rw [hconn, hinf]
  nextPtr := hptr
  mSocket p := by rw [hheap]
  handle p := by rw [hheap]
  deleted := by rw [deletedPtrs, htrace, List.filterMap_append, hdel, List.append_nil]; rfl
  closed := by rw [closedSockets, htrace, List.filterMap_append, hclosed, List.append_nil]; rfl
  events := hev
  hEvent := hown
  incoming := hin

theorem refl (s : Server) : Keeps s s :=
  of_events [] (List.append_nil _).symm rfl rfl rfl rfl rfl rfl rfl rfl rfl

theorem trans (h : Keeps s t) (h' : Keeps t u) : Keeps s u where
  alive := h'.alive.trans h.alive
  nextPtr := h'.nextPtr.trans h.nextPtr
  mSocket p := (h'.mSocket p).trans (h.mSocket p)
  handle p := (h'.handle p).trans (h.handle p)
  deleted := h'.deleted.trans h.deleted
  closed := h'.closed.trans h.closed
  events := h'.events.trans h.events
  hEvent := h'.hEvent.trans h.hEvent
  incoming := h'.incoming.trans h.incoming

theorem aside (h : Aside s t) : Keeps s t := by
  obtain ⟨targets, sending, rfl⟩ := h
  exact { refl s with }

/-- Another event than the end of a connection is recorded. -/
theorem event (s : Server) {e : Event} (hdel : deletedPtr e = none)
    (hclosed : closedSocket e = none) (ht : t = { s with trace := s.trace ++ [e] }) :
    Keeps s t := by
  subst ht
  exact of_events [e] rfl (by simp [hdel]) (by simp [hclosed]) rfl rfl rfl rfl rfl rfl rfl

theorem leave (s : Server) (what : String) : Keeps s (s.leave what) :=
  { event s (e := .threw what) rfl rfl rfl with }

theorem crash (s : Server) : Keeps s s.crash := { refl s with }

theorem failed (s : Server) (p : Ptr) : Keeps s (s.record [.failed p]) := event s rfl rfl rfl

theorem touch (s : Server) (p : Ptr) : Keeps s (s.touch p) := event s rfl rfl rfl

theorem invoke (s : Server) {e : Event} (f : Frame) (hdel : deletedPtr e = none)
    (hclosed : closedSocket e = none) : Keeps s (s.invoke e f) :=
  { event s hdel hclosed rfl with }

theorem issue (s : Server) (e : Sending) : Keeps s (s.issue e) :=
  of_events [_] rfl rfl rfl rfl rfl rfl rfl rfl rfl rfl

theorem start (s : Server) (e : Sending) : Keeps s (s.start e) :=
  of_events [_] rfl rfl rfl rfl rfl rfl rfl rfl rfl rfl

theorem requeue (s : Server) (p : Ptr) (wsaRecv : Started) : Keeps s (s.requeue p wsaRecv) := by
  unfold Server.requeue
  split_ifs
  · exact refl s
  · have htouch := touch s p
    refine use_rule (htouch.trans (crash _)) fun _ => ?_
    cases wsaRecv with
    | pending => exact { htouch with }
    | immediate => exact { htouch with }
    | failed error =>
      have hreset : Keeps s { s.touch p with
        signaled := (s.touch p).signaled.erase (s.heap p).hEvent } := { htouch with }
      exact hreset.trans ((failed _ p).trans (leave _ _))

theorem getHandleArray (s : Server) : Keeps s s.getHandleArray :=
  { refl s with
    alive := by
      refine List.Perm.append_right _ ?_
      show (s.mConnections.getHandleArray s.heap s.hEvent).1.mContainer.Perm _
      unfold Connections.getHandleArray
      split
      · exact List.Perm.refl _
      · rename_i client rest hc
        rw [hc]
        exact List.perm_append_singleton client rest }

theorem dataSentToClient (s : Server) (e : Send) (cbTransferred : ℕ) :
    Keeps s (s.dataSentToClient e cbTransferred) := by
  have hpop : ∀ rest, Keeps s (s.popTarget e rest) := fun rest => { refl s with }
  have herase : Keeps s { s with sends := s.sends.erase e } := { refl s with }
  exact dataSentToClient_rule (fun _ => herase) (herase.trans (crash _)) (crash s)
    (fun _ _ _ rest _ => hpop rest)
    fun _ _ _ rest _ => (hpop rest).trans (invoke _ _ rfl rfl)

theorem receiveBranch (s : Server) (handleId : Handle) (result : Overlapped) (wsaRecv : Started) :
    Keeps s (s.receiveBranch handleId result wsaRecv) := by
  unfold Server.receiveBranch
  split
  · exact leave s _
  · rename_i p _
    have hcollect : Keeps s (s.collect p) := { touch s p with }
    split
    · exact hcollect.trans (failed _ p)
    · split_ifs
      · exact hcollect.trans (invoke _ _ rfl rfl)
      · exact hcollect.trans (invoke _ _ rfl rfl)
      · exact hcollect
      · exact hcollect.trans (requeue _ p wsaRecv)

theorem unwind (s : Server) (what : String) (f : Frame) : Keeps s (s.unwind what f) := by
  cases f with
  | receiveComplete p => exact leave s what
  | disconnected p handleId => exact leave s what
  | completion => exact leave s what
  | sendFailed p caller => exact refl s
  | sendComplete caller => exact refl s

/-- A connection that waits for its identifier is registered. -/
theorem enrollInforming (s : Server) {p : Ptr} (identifier : Bytes) (hp : p ∈ s.informing) :
    Keeps s ({ s with informing := s.informing.erase p }.enroll p identifier) := by
  have hperm : (s.mConnections.mContainer ++ [p] ++ s.informing.erase p).Perm
      (s.mConnections.mContainer ++ s.informing) := by
    rw [List.append_assoc, List.singleton_append]
    exact (List.perm_cons_erase hp).symm.append_left _
  exact { refl s with
    alive := hperm
    mSocket := fun q => (enroll_heap { s with informing := s.informing.erase p } p identifier q).1
    handle := fun q => (enroll_heap { s with informing := s.informing.erase p } p identifier q).2 }

end Keeps

namespace Accounted

theorem keeps (h : Accounted base sockets s) (hk : Keeps s t) : Accounted base sockets t where
  incoming := by
    obtain ⟨sckt, hin, hperm⟩ := h.incoming
    refine ⟨sckt, hk.incoming.trans hin, ?_⟩
    unfold builtSockets
    simp only [hk.nextPtr, hk.mSocket]
    exact hperm
  objects := by
    rw [hk.nextPtr, hk.deleted]
    exact h.objects.trans (hk.alive.symm.append_right _)
  closed := by
    rw [hk.closed, hk.deleted]
    simp only [hk.mSocket]
    exact h.closed
  events := by
    rw [hk.events, hk.hEvent, h.events]
    unfold aliveEvents
    simp only [hk.handle]
    rw [List.toFinset_eq_of_perm _ _ (hk.alive.symm.map _)]
  foreign p hp := by
    rw [hk.handle]
    exact h.foreign p (hk.alive.mem_iff.mp hp)
  own := by
    rw [hk.hEvent]
    exact h.own

/-- **A deletion** moves one connection to those that have been deleted. -/
theorem drop (h : Accounted base sockets s) (hlive : Live s) {p : Ptr}
    (hp : p ∈ s.mConnections.mContainer) : Accounted base sockets (s.drop p) := by
  have halive : (alive s).Perm (p :: alive (s.drop p)) :=
    (List.perm_cons_erase hp).append_right _
  have hdel : (s.drop p).deletedPtrs = s.deletedPtrs ++ [p] := List.filterMap_append
  have hclosed : (s.drop p).closedSockets = s.closedSockets ++ [(s.heap p).mSocket] :=
    List.filterMap_append
  have hnd : ((s.heap p).hEvent :: (alive (s.drop p)).map fun q => (s.heap q).hEvent).Nodup :=
    (halive.map _).nodup_iff.mp hlive.distinct
  constructor
  · exact h.incoming
  · rw [hdel]
    refine h.objects.trans ((halive.append_right _).trans ?_)
    rw [List.cons_append, ← List.append_assoc]
    exact (List.perm_append_singleton _ _).symm
  · rw [hclosed, hdel, h.closed, List.map_append]
    rfl
  · have hev : s.events = insert s.hEvent (base ∪ insert (s.heap p).hEvent
        (s.drop p).aliveEvents) := by
      rw [h.events, aliveEvents, List.toFinset_eq_of_perm _ _ (halive.map _), List.map_cons,
        List.toFinset_cons]
      rfl
    have hown := (hlive.events p (Live.registered_alive hp)).2
    have hnew : (s.heap p).hEvent ∉ insert s.hEvent (base ∪ (s.drop p).aliveEvents) := by
      simp only [Finset.mem_insert, Finset.mem_union, not_or]
      refine ⟨hown, h.foreign p (Live.registered_alive hp), fun hmem => ?_⟩
      exact (List.nodup_cons.mp hnd).1 (List.mem_toFinset.mp hmem)
    show s.events.erase (s.heap p).hEvent = _
    rw [hev, Finset.union_insert, Finset.insert_comm, Finset.erase_insert hnew]
    rfl
  · exact fun q hq => h.foreign q (halive.mem_iff.mpr (List.mem_cons_of_mem p hq))
  · exact h.own

theorem removeServerConnection (h : Accounted base sockets s) (hlive : Live s) (handle : Handle) :
    Accounted base sockets (s.removeServerConnection handle) :=
  removeServerConnection_rule hlive.sound handle h fun _ hp => h.drop hlive hp

theorem removeServerConnectionById (h : Accounted base sockets s) (hlive : Live s)
    (identifier : Bytes) : Accounted base sockets (s.removeServerConnectionById identifier) :=
  removeServerConnectionById_rule hlive.sound identifier h fun _ hp => h.drop hlive hp

theorem shutdown (h : Accounted base sockets s) (hlive : Live s) :
    Accounted base sockets s.shutdown :=
  (shutdown_rule (P := fun u => Live u ∧ Accounted base sockets u) (fun _ hu => hu.1.sound)
    (fun _ _ hu hp => ⟨hu.1.drop hp, hu.2.drop hu.1 hp⟩)
    (fun u hu => ⟨{ hu.1 with }, hu.2.keeps { Keeps.refl u with }⟩)
    ⟨{ hlive with }, h.keeps { Keeps.refl s with }⟩).2

/-- **A new object**, at the next address and with an event of its own, that is left. -/
theorem build (h : Accounted base sockets s) (hlive : Live s) (sckt next : Socket)
    {hEvent : Handle} (hfresh : hEvent ∉ s.events) {sockets' : List Socket}
    (hsockets : ∀ ps, (s.mIncomingSocket.toList ++ ps).Perm sockets →
      (next :: (ps ++ [sckt])).Perm sockets')
    (halive : (alive t).Perm (s.nextPtr :: alive s)) (hptr : t.nextPtr = s.nextPtr + 1)
    (hheap : ∀ p, (t.heap p).mSocket = ((s.newConnection sckt hEvent).heap p).mSocket ∧
      (t.heap p).hEvent = ((s.newConnection sckt hEvent).heap p).hEvent)
    (htrace : t.trace = s.trace) (hev : t.events = insert hEvent s.events)
    (hown : t.hEvent = s.hEvent) (hin : t.mIncomingSocket = some next) :
    Accounted base sockets' t := by
  have hself : (t.heap s.nextPtr).mSocket = sckt ∧ (t.heap s.nextPtr).hEvent = hEvent := by
    have hnew : (s.newConnection sckt hEvent).heap s.nextPtr =
        { mSocket := sckt, hEvent := hEvent, mIdentifier := [] } := Function.update_self _ _ _
    obtain ⟨hsckt, hh⟩ := hheap s.nextPtr
    rw [hsckt, hh, hnew]
    exact ⟨rfl, rfl⟩
  have hold : ∀ p < s.nextPtr, (t.heap p).mSocket = (s.heap p).mSocket ∧
      (t.heap p).hEvent = (s.heap p).hEvent := fun p hp => by
    obtain ⟨hsckt, hh⟩ := hheap p
    rw [hsckt, hh, Live.newConnection_heap s sckt hEvent hp]
    exact ⟨rfl, rfl⟩
  have hdel : t.deletedPtrs = s.deletedPtrs := by rw [deletedPtrs, htrace]; rfl
  have hbefore : ∀ p ∈ alive s ++ s.deletedPtrs, p < s.nextPtr := fun p hp =>
    List.mem_range.mp (h.objects.mem_iff.mpr hp)
  have hforeign : hEvent ∉ base := fun hmem => hfresh <| by
    rw [h.events]
    exact Finset.mem_insert_of_mem (Finset.mem_union_left _ hmem)
  constructor
  · obtain ⟨first, hfirst, hperm⟩ := h.incoming
    refine ⟨next, hin, ?_⟩
    have hbuilt : t.builtSockets = s.builtSockets ++ [sckt] := by
      unfold builtSockets
      rw [hptr, List.range_succ, List.map_append, List.map_singleton, hself.1]
      congr 1
      exact List.map_congr_left fun p hp => (hold p (List.mem_range.mp hp)).1
    rw [hbuilt]
    exact hsockets _ (by rw [hfirst]; exact hperm)
  · rw [hptr, List.range_succ, hdel]
    refine (List.perm_append_singleton _ _).trans ?_
    refine (h.objects.cons s.nextPtr).trans ?_
    rw [← List.cons_append]
    exact halive.symm.append_right _
  · rw [closedSockets, htrace, hdel]
    refine h.closed.trans (List.map_congr_left fun p hp => ?_)
    exact (hold p (hbefore p (List.mem_append_right _ hp))).1.symm
  · have hevents : t.aliveEvents = insert hEvent s.aliveEvents := by
      unfold aliveEvents
      rw [List.toFinset_eq_of_perm _ _ (halive.map _), List.map_cons, List.toFinset_cons, hself.2]
      congr 2
      exact List.map_congr_left fun p hp => (hold p (hlive.fresh p hp)).2
    rw [hev, hown, h.events, hevents, Finset.union_insert, Finset.insert_comm]
  · intro p hp
    rcases List.mem_cons.mp (halive.mem_iff.mp hp) with rfl | hp
    · rw [hself.2]
      exact hforeign
    · rw [(hold p (hlive.fresh p hp)).2]
      exact h.foreign p hp
  · rw [hown]
    exact h.own

theorem enrollNew (h : Accounted base sockets s) (hlive : Live s) (mSocket : Socket)
    {hEvent : Handle} (identifier : Bytes) (hfresh : hEvent ∉ s.events) :
    Accounted base (sockets ++ [mSocket])
      ((s.newConnection mSocket hEvent).enroll s.nextPtr identifier) := by
  obtain ⟨next, hin, -⟩ := h.incoming
  refine h.build hlive mSocket next hfresh (fun ps hps => ?_) ?_ rfl
    (enroll_heap (s.newConnection mSocket hEvent) s.nextPtr identifier) rfl rfl rfl hin
  · rw [hin] at hps
    exact hps.append_right [mSocket]
  · show (s.mConnections.mContainer ++ [s.nextPtr] ++ s.informing).Perm
      (s.nextPtr :: (s.mConnections.mContainer ++ s.informing))
    rw [List.append_assoc, List.singleton_append]
    exact List.perm_middle

/-- The client of an accept that gets to a new socket. -/
theorem inform (h : Accounted base sockets s) (hlive : Live s) (next : Socket) {sckt : Socket}
    {hEvent : Handle} (hin : s.mIncomingSocket = some sckt) (hfresh : hEvent ∉ s.events) :
    Accounted base (sockets ++ [next])
      { s.accepted sckt hEvent with
        informing := s.informing ++ [s.nextPtr]
        mIncomingSocket := some next } := by
  refine h.build hlive sckt next hfresh (fun ps hps => ?_) ?_ rfl
    (fun _ => ⟨rfl, rfl⟩) rfl rfl rfl rfl
  · rw [hin] at hps
    refine List.Perm.trans ?_ (List.perm_append_singleton next sockets).symm
    exact ((List.perm_append_singleton sckt ps).trans hps).cons next
  · show (s.mConnections.mContainer ++ (s.informing ++ [s.nextPtr])).Perm
      (s.nextPtr :: (s.mConnections.mContainer ++ s.informing))
    rw [← List.append_assoc]
    exact List.perm_append_singleton _ _

theorem addNewConnection (h : Accounted base sockets s) (hlive : Live s) (halone : s.Alone)
    {a : Accept} (hfresh : Accept.Fresh s a) :
    a.Replaces ∧ Accounted base (sockets ++ a.sockets) (s.addNewConnection a) ∨
      ¬ a.Replaces ∧ Lost (s.addNewConnection a) := by
  obtain ⟨sckt, hin, -⟩ := h.incoming
  obtain ⟨hEvent, wsaRecv, prepared⟩ := a
  unfold Server.addNewConnection
  rw [hin]
  cases hEvent with
  | error what => exact Or.inr ⟨id, Or.inl rfl⟩
  | ok hEvent =>
    have hnew : hEvent ∉ s.events := hfresh
    have hinform := fun next => h.inform hlive next hin hnew
    cases wsaRecv with
    | failed error => exact Or.inr ⟨fun hr => hr.1, Or.inr ⟨rfl, rfl, halone⟩⟩
    | pending =>
      cases prepared with
      | noSocket error => exact Or.inr ⟨fun hr => hr.2 rfl, Or.inr ⟨rfl, rfl, halone⟩⟩
      | noAcceptEx next =>
        exact Or.inl ⟨⟨trivial, List.cons_ne_nil _ _⟩, (hinform next).keeps (Keeps.leave _ _)⟩
      | refused next =>
        exact Or.inl ⟨⟨trivial, List.cons_ne_nil _ _⟩, (hinform next).keeps (Keeps.leave _ _)⟩
      | ok next => exact Or.inl ⟨⟨trivial, List.cons_ne_nil _ _⟩, { hinform next with }⟩
    | immediate =>
      cases prepared with
      | noSocket error => exact Or.inr ⟨fun hr => hr.2 rfl, Or.inr ⟨rfl, rfl, halone⟩⟩
      | noAcceptEx next =>
        exact Or.inl ⟨⟨trivial, List.cons_ne_nil _ _⟩, (hinform next).keeps (Keeps.leave _ _)⟩
      | refused next =>
        exact Or.inl ⟨⟨trivial, List.cons_ne_nil _ _⟩, (hinform next).keeps (Keeps.leave _ _)⟩
      | ok next => exact Or.inl ⟨⟨trivial, List.cons_ne_nil _ _⟩, { hinform next with }⟩

theorem wsaSend (h : Accounted base sockets s) (hlive : Live s) (e : Sending) (result : Started) :
    Accounted base sockets (s.wsaSend e result) := by
  have hstart : Accounted base sockets (s.start e) := h.keeps (Keeps.start s e)
  have hfail : Accounted base sockets ((s.issue e).record [.failed e.connection]) :=
    h.keeps ((Keeps.issue s e).trans (Keeps.failed _ _))
  have hlive' : Live ((s.issue e).record [.failed e.connection]) := { hlive with }
  cases result with
  | pending => exact hstart.keeps (Keeps.aside (aside_back _ _))
  | immediate =>
    unfold Server.wsaSend
    split_ifs
    · exact hstart.keeps (Keeps.invoke _ _ rfl rfl)
    · exact hstart.keeps (Keeps.aside (aside_back _ _))
  | failed error =>
    unfold Server.wsaSend
    simp only
    split_ifs
    · exact hfail.keeps (Keeps.invoke _ _ rfl rfl)
    · exact (hfail.removeServerConnectionById hlive' _).keeps (Keeps.aside (aside_back _ _))

theorem resume (h : Accounted base sockets s) (hlive : Live s) (wsaRecv : Started) (f : Frame) :
    Accounted base sockets (s.resume wsaRecv f) := by
  cases f with
  | receiveComplete p => exact h.keeps (Keeps.requeue s p wsaRecv)
  | disconnected p handleId => exact h.removeServerConnection hlive handleId
  | completion => exact h
  | sendFailed p caller =>
    exact use_rule (h.keeps (Keeps.crash s)) fun _ =>
      (h.removeServerConnectionById hlive _).keeps (Keeps.aside (aside_back _ _))
  | sendComplete caller => exact h.keeps (Keeps.aside (aside_back _ _))

theorem dispatch (h : Accounted base sockets s) (hlive : Live s) (halone : s.Alone)
    {handles : List Handle} {i : ℕ} {handleId : Handle} (hpc : s.pc = .waiting handles)
    (hget : handles[i]? = some handleId) (result : Overlapped) (wsaRecv : Started)
    {accept : Accept} (hfresh : Accept.Fresh s accept) :
    let a := Action.signaled i result wsaRecv accept
    s.Replaces a ∧
        Accounted base (sockets ++ s.opens a) (s.dispatch handleId result wsaRecv accept) ∨
      ¬ s.Replaces a ∧ Lost (s.dispatch handleId result wsaRecv accept) := by
  intro a
  have hacceptOf : s.acceptOf a =
      if handles[i]? = some s.hEvent ∧ s.mHasBeenShutdown = false then some accept else none := by
    simp only [a, acceptOf, hpc]
  have hother : s.acceptOf a = none →
      Accounted base sockets (s.dispatch handleId result wsaRecv accept) →
      s.Replaces a ∧ Accounted base (sockets ++ s.opens a)
        (s.dispatch handleId result wsaRecv accept) := by
    intro hnone hacc
    have hopens : s.opens a = [] := by
      show (match s.acceptOf a with
        | none => []
        | some accept => accept.sockets) = []
      rw [hnone]
    rw [hopens, List.append_nil]
    refine ⟨fun accept' he => ?_, hacc⟩
    rw [hnone] at he
    cases he
  unfold Server.dispatch at hother ⊢
  split_ifs at hother ⊢ with hshut hown
  · refine Or.inl (hother ?_ (h.keeps { Keeps.refl s with }))
    rw [hacceptOf, if_neg fun hc => by rw [hshut] at hc; cases hc.2]
  · have hsome : s.acceptOf a = some accept := by
      rw [hacceptOf, if_pos ⟨hget.trans (congrArg some hown), by simpa using hshut⟩]
    have hopens : s.opens a = accept.sockets := by
      show (match s.acceptOf a with
        | none => []
        | some accept => accept.sockets) = accept.sockets
      rw [hsome]
    have hreplaces : s.Replaces a ↔ accept.Replaces := by
      unfold Replaces
      rw [hsome]
      exact ⟨fun hr => hr accept rfl, fun hr accept' he => Option.some.inj he ▸ hr⟩
    rw [hopens, hreplaces]
    have htake : Accounted base sockets { s.takeUp handleId with acceptEx := .idle } :=
      h.keeps { Keeps.refl s with }
    exact htake.addNewConnection { hlive with } halone hfresh
  · refine Or.inl (hother ?_ ((h.keeps (t := s.takeUp handleId) { Keeps.refl s with }).keeps
      (Keeps.receiveBranch _ handleId result wsaRecv)))
    rw [hacceptOf, if_neg fun hc => hown (Option.some.inj (hget.symm.trans hc.1))]

end Accounted

/-- **A step** keeps the balance with the sockets it brings, or loses the incoming socket. -/
theorem accounted_step (h : Accounted base sockets s) (hlive : Live s) {a : Action}
    (ht : step s a = some t) :
    s.Replaces a ∧ Accounted base (sockets ++ s.opens a) t ∨ ¬ s.Replaces a ∧ Lost t := by
  have hnone : s.acceptOf a = none → s.opens a = [] → Accounted base sockets t →
      s.Replaces a ∧ Accounted base (sockets ++ s.opens a) t := by
    intro hnone hopens hacc
    rw [hopens, List.append_nil]
    refine ⟨fun accept he => ?_, hacc⟩
    rw [hnone] at he
    cases he
  cases a with
  | call c =>
    obtain ⟨-, hfresh, rfl⟩ := step_call ht
    refine Or.inl ?_
    cases c with
    | send data identifier =>
      exact hnone rfl rfl (h.keeps (Keeps.aside (aside_send s data identifier)))
    | broadcast data => exact hnone rfl rfl (h.keeps (Keeps.aside (aside_broadcast s data)))
    | shutdown => exact hnone rfl rfl (h.shutdown hlive)
    | addConnection mSocket hEvent identifier =>
      exact ⟨fun _ he => (Option.not_mem_none _ he).elim,
        h.enrollNew hlive mSocket identifier hfresh⟩
  | wsaSend result =>
    obtain ⟨e, -, rfl⟩ := step_wsaSend ht
    exact Or.inl (hnone rfl rfl
      (use_rule (h.keeps (Keeps.crash s)) fun _ => h.wsaSend hlive e result))
  | returns wsaRecv =>
    obtain ⟨-, f, stack, hstack, rfl⟩ := step_returns ht
    have hpop : Accounted base sockets { s with stack := stack } := h.keeps { Keeps.refl s with }
    exact Or.inl (hnone rfl rfl (hpop.resume (hlive.pop hstack) wsaRecv f))
  | throws what =>
    obtain ⟨-, f, stack, -, rfl⟩ := step_throws ht
    have hpop : Accounted base sockets { s with stack := stack } := h.keeps { Keeps.refl s with }
    exact Or.inl (hnone rfl rfl (hpop.keeps (Keeps.unwind _ what f)))
  | wait =>
    obtain ⟨-, -, ⟨-, rfl⟩ | ⟨-, rfl⟩⟩ := step_wait ht
    · exact Or.inl (hnone rfl rfl (h.keeps { Keeps.refl s with }))
    · exact Or.inl (hnone rfl rfl (h.keeps (Keeps.getHandleArray s)))
  | ioCompletion =>
    obtain ⟨-, -, ⟨-, rfl⟩ | ⟨-, rfl⟩⟩ := step_ioCompletion ht
    · exact Or.inl (hnone rfl rfl (h.keeps { Keeps.refl s with }))
    · exact Or.inl (hnone rfl rfl (h.keeps (Keeps.getHandleArray s)))
  | waitFailed error =>
    obtain ⟨-, rfl⟩ := step_waitFailed ht
    exact Or.inl (hnone rfl rfl (h.keeps (Keeps.leave s _)))
  | signaled i result wsaRecv accept =>
    obtain ⟨handles, handleId, hpc, hget, halone, -, hfresh, rfl⟩ := step_signaled ht
    exact h.dispatch hlive halone hpc hget result wsaRecv hfresh
  | dataSentToClient number cbTransferred =>
    obtain ⟨-, -, e, -, rfl⟩ := step_dataSentToClient ht
    exact Or.inl (hnone rfl rfl (h.keeps (Keeps.dataSentToClient s e cbTransferred)))
  | registers p identifier =>
    obtain ⟨-, -, hp, rfl⟩ := step_registers ht
    exact Or.inl (hnone rfl rfl (h.keeps (Keeps.enrollInforming s identifier hp)))
  | receives p =>
    obtain ⟨-, rfl⟩ := step_receives ht
    exact Or.inl (hnone rfl rfl (h.keeps { Keeps.refl s with }))
  | connects =>
    obtain ⟨sckt, -, rfl⟩ := step_connects ht
    exact Or.inl (hnone rfl rfl (h.keeps { Keeps.refl s with }))

/-- The loop that has been left stays where it is. -/
theorem stranded_step (h : Stranded s) {a : Action} (ht : step s a = some t) : Stranded t := by
  obtain ⟨hsending, hstack⟩ := h.alone
  have hwait : ∀ handles, s.pc ≠ .waiting handles := fun handles hpc => by
    rw [h.left] at hpc
    cases hpc
  cases a with
  | call c =>
    obtain ⟨⟨-, hrun | ⟨hpc, -⟩⟩, -, -⟩ := step_call ht
    · exact absurd hstack hrun
    · exact absurd h.left hpc
  | wsaSend result =>
    obtain ⟨e, he, -⟩ := step_wsaSend ht
    rw [hsending] at he
    cases he
  | returns wsaRecv =>
    obtain ⟨-, f, stack, he, -⟩ := step_returns ht
    rw [hstack] at he
    cases he
  | throws what =>
    obtain ⟨-, f, stack, he, -⟩ := step_throws ht
    rw [hstack] at he
    cases he
  | wait =>
    obtain ⟨-, hpc, -⟩ := step_wait ht
    rw [h.left] at hpc
    cases hpc
  | ioCompletion =>
    obtain ⟨-, ⟨handles, hpc⟩, -⟩ := step_ioCompletion ht
    exact absurd hpc (hwait handles)
  | waitFailed error =>
    obtain ⟨-, rfl⟩ := step_waitFailed ht
    exact { h with left := rfl }
  | signaled i result wsaRecv accept =>
    obtain ⟨handles, -, hpc, -⟩ := step_signaled ht
    exact absurd hpc (hwait handles)
  | dataSentToClient number cbTransferred =>
    obtain ⟨⟨handles, hpc⟩, -⟩ := step_dataSentToClient ht
    exact absurd hpc (hwait handles)
  | registers p identifier =>
    obtain ⟨⟨handles, hpc⟩, -⟩ := step_registers ht
    exact absurd hpc (hwait handles)
  | receives p =>
    obtain ⟨-, rfl⟩ := step_receives ht
    exact { h with }
  | connects =>
    obtain ⟨sckt, -, rfl⟩ := step_connects ht
    exact { h with }

/-- A run whose accepts all get to a new socket keeps the balance. -/
theorem accounted_run : ∀ (as : List Action) {s t : Server} {sockets : List Socket}, Live s →
    Accounted base sockets s → Along step Replaces s as → run step s as = some t →
    Accounted base (sockets ++ s.opened as) t
  | [], s, t, sockets, _, h, _, hrun => by
    rw [run_nil, Option.some.injEq] at hrun
    subst hrun
    show Accounted base (sockets ++ []) s
    rwa [List.append_nil]
  | a :: as, s, t, sockets, hlive, h, halong, hrun => by
    obtain ⟨u, hu, hrun⟩ := run_cons_some hrun
    obtain ⟨hreplaces, halong⟩ := halong u hu
    rcases accounted_step h hlive hu with ⟨-, hacc⟩ | ⟨hno, -⟩
    · have hrest := accounted_run as (hlive.step hu) hacc halong hrun
      have hopened : s.opened (a :: as) = s.opens a ++ u.opened as := by
        simp only [opened, hu]
      rw [hopened, ← List.append_assoc]
      exact hrest
    · exact absurd hreplaces hno

theorem lost_run (h : Lost s) {as : List Action} (hrun : run step s as = some t) : Lost t := by
  have hstep : ∀ (u : Server) (a : Action) (v : Server), Lost u → step u a = some v → Lost v := by
    rintro u a v (hundefined | hstranded) hv
    · rw [(step_act hv).1] at hundefined
      cases hundefined
    · exact Or.inr (stranded_step hstranded hv)
  exact (always_of_inv hstep as h).last hrun

/-- **The incoming socket is there at the end of a run**, if that is not undefined, exactly if every
accept in it has replaced it. -/
theorem replaces_iff : ∀ (as : List Action) {s t : Server} {sockets : List Socket}, Live s →
    Accounted base sockets s → run step s as = some t → t.undefined = false →
    (Along step Replaces s as ↔ t.mIncomingSocket ≠ none)
  | [], s, t, sockets, _, h, hrun, _ => by
    rw [run_nil, Option.some.injEq] at hrun
    subst hrun
    obtain ⟨sckt, hin, -⟩ := h.incoming
    rw [hin]
    exact iff_of_true trivial (Option.some_ne_none sckt)
  | a :: as, s, t, sockets, hlive, h, hrun, hdefined => by
    obtain ⟨u, hu, hrun⟩ := run_cons_some hrun
    have hcons : Along step Replaces s (a :: as) ↔ s.Replaces a ∧ Along step Replaces u as :=
      ⟨fun halong => halong u hu, fun halong v hv => Option.some.inj (hu.symm.trans hv) ▸ halong⟩
    rw [hcons]
    rcases accounted_step h hlive hu with ⟨hyes, hacc⟩ | ⟨hno, hlost⟩
    · rw [replaces_iff as (hlive.step hu) hacc hrun hdefined]
      exact and_iff_right hyes
    · refine iff_of_false (fun halong => hno halong.1) fun hin => ?_
      rcases lost_run hlost hrun with hundefined | hstranded
      · rw [hdefined] at hundefined
        cases hundefined
      · exact hin hstranded.incoming

end Server

end C11Http.Windows
