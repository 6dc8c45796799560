import C11Http.Lib.Release
import C11Http.Windows.Lookup
import C11Http.Windows.Server

/-! # Shutting down the windows server

What `Server::shutdown`, `Server::~Server` and `Connections::~Connections` do with the registered
connections: which they use and which they delete, in order (`Connections.shutdown`, `destroy`).
`shutdown` walks over a copy of the vector and removes each connection by the handle of its event.

In a sound registry the vector is at every turn what is left of the copy, so `find_if` finds the
connection at the front. Each registered connection is deleted once, none is used behind its
deletion, and nothing is left, in the map neither, though a removal erases the identifier of a
namesake: what the map still holds is registered (`shutdown_empties`). -/

namespace C11Http.Windows

open C11Http.Lib.Run C11Http.Lib.Release

namespace Connections

/-- What `removeServerConnection` by handle does with connections: `find_if` uses each up to the one
it finds, whose identifier is read before it is deleted. -/
def removal (heap : Heap) (c : Connections) (handle : Handle) : List (Access Ptr) :=
  (c.mContainer.takeWhile fun p => !serverConnectionFinder heap handle p).map .use ++
    match c.mContainer.find? (serverConnectionFinder heap handle) with
    | none => []
    | some victim => [.use victim, .use victim, .release victim]

/-- The loop of `Server::shutdown` over the connections that are left of its copy: the socket of
each is read twice, then its handle. -/
def shutdownEach (heap : Heap) : Connections → List Ptr → Connections × List (Access Ptr)
  | c, [] => (c, [])
  | c, connection :: rest =>
    let r := shutdownEach heap (c.removeServerConnection heap (heap connection).hEvent).1 rest
    (r.1, [.use connection, .use connection, .use connection] ++
      c.removal heap (heap connection).hEvent ++ r.2)

/-- `Server::shutdown` on the registry. -/
def shutdown (heap : Heap) (c : Connections) : Connections × List (Access Ptr) :=
  c.shutdownEach heap c.getConnections

/-- `Connections::~Connections`. -/
def destroy (c : Connections) : Connections × List (Access Ptr) :=
  (empty, c.mContainer.map .release)

/-! ### A removal deletes what it returns -/

theorem released_removal (heap : Heap) (c : Connections) (handle : Handle) :
    released (c.removal heap handle) = (c.removeServerConnection heap handle).2.toList := by
  have huses : ∀ l : List Ptr, released (l.map Access.use) = [] := by
    intro l
    induction l with
    | nil => rfl
    | cons p l ih => rw [List.map_cons, released_use_cons, ih]
  unfold removal removeServerConnection
  rw [released_append, huses, List.nil_append]
  cases c.mContainer.find? (serverConnectionFinder heap handle) with
  | none => rfl
  | some victim => rfl

/-- The front of the vector is found at once. -/
theorem removal_front {heap : Heap} {c : Connections} {p : Ptr} {rest : List Ptr}
    (hc : c.mContainer = p :: rest) :
    c.removal heap (heap p).hEvent = [.use p, .use p, .release p] := by
  have hp : serverConnectionFinder heap (heap p).hEvent p = true :=
    serverConnectionFinder_eq_true.mpr rfl
  unfold removal
  rw [hc, List.find?_cons_of_pos hp, List.takeWhile_cons_of_neg (by simp [hp])]
  rfl

theorem removeServerConnection_front {heap : Heap} {c : Connections} {p : Ptr} {rest : List Ptr}
    (hc : c.mContainer = p :: rest) :
    c.removeServerConnection heap (heap p).hEvent =
      ({ mContainer := rest
         mMapping := Function.update c.mMapping (heap p).mIdentifier none }, some p) := by
  have hp : serverConnectionFinder heap (heap p).hEvent p = true :=
    serverConnectionFinder_eq_true.mpr rfl
  unfold removeServerConnection
  rw [hc, List.find?_cons_of_pos hp]
  simp only [List.eraseP_cons_of_pos hp]

/-! ### The loop -/

/-- What one turn of the loop does with its connection. -/
def turn (p : Ptr) : List (Access Ptr) :=
  [.use p, .use p, .use p, .use p, .use p, .release p]

theorem proper_turn (p : Ptr) : Proper (turn p) := by
  unfold turn Proper
  simp

theorem subject_turn {p : Ptr} {a : Access Ptr} (ha : a ∈ turn p) : a.subject = p := by
  unfold turn at ha
  simp only [List.mem_cons, List.not_mem_nil, or_false] at ha
  rcases ha with rfl | rfl | rfl | rfl | rfl | rfl <;> rfl

/-- **The loop, while the vector is what is left of the copy**: one turn for each connection, in
order, and none is left. -/
theorem shutdownEach_self (heap : Heap) (l : List Ptr) {c : Connections} (hc : c.mContainer = l) :
    (c.shutdownEach heap l).2 = l.flatMap turn ∧ (c.shutdownEach heap l).1.mContainer = [] := by
  induction l generalizing c with
  | nil => exact ⟨rfl, hc⟩
  | cons p rest ih =>
    have hrest := ih (c := (c.removeServerConnection heap (heap p).hEvent).1)
      (by rw [removeServerConnection_front hc])
    refine ⟨?_, hrest.2⟩
    have hlog : (c.shutdownEach heap (p :: rest)).2 =
        [.use p, .use p, .use p] ++ c.removal heap (heap p).hEvent ++
          ((c.removeServerConnection heap (heap p).hEvent).1.shutdownEach heap rest).2 := rfl
    rw [hlog, removal_front hc, hrest.1]
    rfl

theorem Sound.shutdownEach {heap : Heap} (l : List Ptr) {c : Connections} (h : Sound heap c) :
    Sound heap (c.shutdownEach heap l).1 := by
  induction l generalizing c with
  | nil => exact h
  | cons p rest ih => exact ih (h.remove (heap p).hEvent)

theorem released_flatMap_turn (l : List Ptr) : released (l.flatMap turn) = l := by
  induction l with
  | nil => rfl
  | cons p rest ih =>
    rw [List.flatMap_cons, released_append, ih]
    rfl

/-- A sound registry without connections has no entry in its map. -/
theorem Sound.eq_empty {heap : Heap} {c : Connections} (h : Sound heap c)
    (hc : c.mContainer = []) : c = Connections.empty := by
  have hmap : c.mMapping = fun _ => none := by
    funext identifier
    cases hm : c.mMapping identifier with
    | none => rfl
    | some p =>
      have hmem := (h.mapped identifier p hm).1
      rw [hc] at hmem
      cases hmem
  obtain ⟨container, mapping⟩ := c
  obtain rfl : container = [] := hc
  obtain rfl : mapping = fun _ => none := hmap
  rfl

/-- **Shutting down a sound registry** takes one turn for each connection and empties it. -/
theorem Sound.shutdown_eq {heap : Heap} {c : Connections} (h : Sound heap c) :
    c.shutdown heap = (Connections.empty, c.mContainer.flatMap turn) := by
  obtain ⟨hlog, hnone⟩ := shutdownEach_self heap c.mContainer rfl
  exact Prod.ext ((h.shutdownEach c.mContainer).eq_empty hnone) hlog

end Connections

namespace Server

open Connections

/-! ### The server -/

/-- Deletions in the trace of the server, with the sockets they close. -/
def deletions (heap : Heap) (log : List (Access Ptr)) : List Event :=
  (released log).flatMap fun p => [.deleted p, .closed (heap p).mSocket]

theorem deletions_append (heap : Heap) (log log' : List (Access Ptr)) :
    deletions heap (log ++ log') = deletions heap log ++ deletions heap log' := by
  unfold deletions
  rw [released_append, List.flatMap_append]

@[simp] theorem forget_heap (s : Server) (r : Connections × Option Ptr) :
    (s.forget r).heap = s.heap := by
  unfold forget
  split <;> rfl

@[simp] theorem forget_mConnections (s : Server) (r : Connections × Option Ptr) :
    (s.forget r).mConnections = r.1 := by
  unfold forget
  split <;> rfl

theorem forget_trace (s : Server) (r : Connections × Option Ptr) :
    (s.forget r).trace =
      s.trace ++ r.2.toList.flatMap fun p => [.deleted p, .closed (s.heap p).mSocket] := by
  unfold forget
  split
  · rename_i h; rw [h]; exact (List.append_nil _).symm
  · rename_i h; rw [h]; rfl

/-- **The loop of the server does to its registry what the registry's loop does.** -/
theorem foldl_removeServerConnection (l : List Ptr) (s : Server) :
    let t := l.foldl (fun s connection => s.removeServerConnection (s.heap connection).hEvent) s
    let r := s.mConnections.shutdownEach s.heap l
    t.heap = s.heap ∧ t.mConnections = r.1 ∧ t.trace = s.trace ++ deletions s.heap r.2 := by
  induction l generalizing s with
  | nil => exact ⟨rfl, rfl, (List.append_nil _).symm⟩
  | cons p rest ih =>
    have hheap : (s.removeServerConnection (s.heap p).hEvent).heap = s.heap := forget_heap s _
    have hconn : (s.removeServerConnection (s.heap p).hEvent).mConnections =
        (s.mConnections.removeServerConnection s.heap (s.heap p).hEvent).1 :=
      forget_mConnections s _
    obtain ⟨hh, hc, ht⟩ := ih (s.removeServerConnection (s.heap p).hEvent)
    rw [hheap, hconn] at hc ht
    rw [hheap] at hh
    refine ⟨hh, hc, ht.trans ?_⟩
    have hlog : (s.mConnections.shutdownEach s.heap (p :: rest)).2 =
        [.use p, .use p, .use p] ++ s.mConnections.removal s.heap (s.heap p).hEvent ++
          ((s.mConnections.removeServerConnection s.heap (s.heap p).hEvent).1.shutdownEach
            s.heap rest).2 := rfl
    have hone : (s.removeServerConnection (s.heap p).hEvent).trace = s.trace ++
        deletions s.heap (s.mConnections.removal s.heap (s.heap p).hEvent) := by
      unfold deletions
      rw [released_removal]
      exact forget_trace s _
    rw [hone, hlog, deletions_append, deletions_append, ← List.append_assoc]
    rfl

theorem shutdown_registry (s : Server) :
    s.shutdown.heap = s.heap ∧ s.shutdown.mConnections = (s.mConnections.shutdown s.heap).1 ∧
      s.shutdown.trace = s.trace ++ deletions s.heap (s.mConnections.shutdown s.heap).2 :=
  foldl_removeServerConnection s.mConnections.getConnections { s with mHasBeenShutdown := true }

/-- `Server::~Server` on the registry: `shutdown`, then the destructor of `mConnections`. -/
def destroy (s : Server) : List (Access Ptr) :=
  (s.mConnections.shutdown s.heap).2 ++ s.shutdown.mConnections.destroy.2

/-- **What a shutdown does to the registry**: it deletes each registered connection once, uses none
behind its deletion and leaves nothing; a second one and the destructors delete nothing. -/
structure Empties (s : Server) : Prop where
  nodup : s.mConnections.mContainer.Nodup
  once : released (s.mConnections.shutdown s.heap).2 = s.mConnections.mContainer
  deleted : s.shutdown.trace = s.trace ++
    s.mConnections.mContainer.flatMap fun p => [.deleted p, .closed (s.heap p).mSocket]
  proper : Proper (s.mConnections.shutdown s.heap).2
  container : s.shutdown.mConnections.mContainer = []
  mapping : ∀ identifier, s.shutdown.mConnections.mMapping identifier = none
  second : (s.shutdown.mConnections.shutdown s.shutdown.heap).2 = [] ∧
    s.shutdown.shutdown.trace = s.shutdown.trace
  destructor : s.shutdown.destroy = []

theorem empties_of_sound {s : Server} (h : Sound s.heap s.mConnections) : Empties s := by
  obtain ⟨hheap, hconn, htrace⟩ := shutdown_registry s
  have hnd := h.distinct.nodup
  rw [h.shutdown_eq] at hconn htrace
  have hagain : s.shutdown.mConnections.shutdown s.shutdown.heap = (Connections.empty, []) := by
    rw [hconn]
    rfl
  obtain ⟨-, hconn', htrace'⟩ := shutdown_registry s.shutdown
  rw [hagain] at hconn' htrace'
  constructor
  · exact hnd
  · rw [h.shutdown_eq, released_flatMap_turn]
  · rw [htrace, deletions, released_flatMap_turn]
  · rw [h.shutdown_eq]
    exact proper_flatMap proper_turn (fun _ _ ha => subject_turn ha) hnd
  · rw [hconn]; rfl
  · intro identifier
    rw [hconn]
    rfl
  · exact ⟨congrArg Prod.snd hagain, htrace'.trans (List.append_nil _)⟩
  · unfold destroy
    rw [hagain, hconn']
    rfl

/-- **Shutting down empties every registry that can be reached.** -/
theorem shutdown_empties (srv : Server) (heap : Heap) (ops : List Lookup.Op) :
    Always Lookup.step
      (fun s => Empties { srv with heap := s.heap, mConnections := s.connections })
      (Lookup.start heap) ops :=
  (always_of_inv (fun _ _ _ h hs => Lookup.inv_step h hs) ops (Lookup.inv_start heap)).imp
    fun _ h => empties_of_sound h.sound

end Server

end C11Http.Windows
