import Mathlib.Data.Finset.Basic
import Mathlib.Data.List.Nodup
import C11Http.Lib.RemoveIf
import C11Http.Posix.Connection

/-! # The registry of the posix server

`server/posix/Connections.cpp`: the vector of registered connections, the map from identifiers, the
set of descriptors `select` reads from (a reference to the caller's `fd_set`), and the largest
descriptor. Connections are pointers into a heap; `removeServerConnection` also returns the object
it deletes, whose contents a later read still finds in the heap.

If the sockets of the registered connections are different, `removeServerConnection` takes the
connection out of the vector but erases and deletes the *last* one (`removeServerConnection_mem`),
which is the same object only if the connection was the last (`removeServerConnection_last`). -/

namespace C11Http.Posix

open C11Http.Lib.RemoveIf

/-- The objects by their addresses. -/
abbrev Heap := Ptr → ServerConnection

structure Connections where
  mContainer : List Ptr
  mMapping : Bytes → Option Ptr
  mRead : Finset Fd
  mFdMax : ℤ

/-- `ServerConnectionFinder`: the predicate "has this socket". -/
def serverConnectionFinder (heap : Heap) (mSocket : Fd) (rhs : Ptr) : Bool :=
  mSocket == (heap rhs).mSocket

@[simp] theorem serverConnectionFinder_eq_true {heap : Heap} {sckt : Fd} {p : Ptr} :
    serverConnectionFinder heap sckt p = true ↔ (heap p).mSocket = sckt := by
  unfold serverConnectionFinder
  rw [beq_iff_eq, eq_comm]

@[simp] theorem serverConnectionFinder_eq_false {heap : Heap} {sckt : Fd} {p : Ptr} :
    serverConnectionFinder heap sckt p = false ↔ (heap p).mSocket ≠ sckt := by
  rw [← Bool.not_eq_true, serverConnectionFinder_eq_true]

namespace Connections

/-- The constructor, over the `fd_set` of the caller. -/
def new (read : Finset Fd) : Connections :=
  { mContainer := [], mMapping := fun _ => none, mRead := read, mFdMax := -1 }

def addServerConnection (heap : Heap) (c : Connections) (client : Ptr) : Connections :=
  { mContainer := c.mContainer ++ [client]
    mMapping := Function.update c.mMapping (heap client).mIdentifier (some client)
    mFdMax := max c.mFdMax (heap client).mSocket
    mRead := insert (heap client).mSocket c.mRead }

/-- The largest socket of a vector of connections, `-1` for none. -/
def largest (heap : Heap) (ps : List Ptr) : ℤ :=
  ps.foldl (fun m p => max m ((heap p).mSocket : ℤ)) (-1)

/-- `removeServerConnection`, with the object it deletes. -/
def removeServerConnection (heap : Heap) (c : Connections) (sckt : Fd) :
    Connections × Option Ptr :=
  let c := { c with mRead := c.mRead.erase sckt }
  let (vector, iter) := removeIf (serverConnectionFinder heap sckt) c.mContainer
  match vector[iter]? with
  | none => ({ c with mContainer := vector }, none)
  | some victim =>
    ({ c with
        mContainer := vector.eraseIdx iter
        mMapping := Function.update c.mMapping (heap victim).mIdentifier none
        mFdMax := largest heap (vector.eraseIdx iter) }, some victim)

def getConnections (c : Connections) : List Ptr := c.mContainer

/-- `getServerConnection` by socket: the first connection with it, a null pointer for none. -/
def getServerConnection (heap : Heap) (c : Connections) (sckt : Fd) : Option Ptr :=
  c.mContainer.find? (serverConnectionFinder heap sckt)

/-- `getServerConnection` by identifier. -/
def getServerConnectionById (c : Connections) (identifier : Bytes) : Except String Ptr :=
  match c.mMapping identifier with
  | none => .error "Connection not found"
  | some p => .ok p

def getMax (c : Connections) : ℤ := c.mFdMax

/-! ### Looking up -/

theorem getServerConnection_some {heap : Heap} {c : Connections} {sckt : Fd} {p : Ptr}
    (h : c.getServerConnection heap sckt = some p) :
    p ∈ c.mContainer ∧ (heap p).mSocket = sckt :=
  ⟨List.mem_of_find?_eq_some h, serverConnectionFinder_eq_true.mp (List.find?_some h)⟩

theorem getServerConnection_none {heap : Heap} {c : Connections} {sckt : Fd} :
    c.getServerConnection heap sckt = none ↔ ∀ p ∈ c.mContainer, (heap p).mSocket ≠ sckt := by
  unfold getServerConnection
  simp only [List.find?_eq_none, serverConnectionFinder_eq_true]

theorem getServerConnectionById_eq_ok {c : Connections} {identifier : Bytes} {p : Ptr} :
    c.getServerConnectionById identifier = .ok p ↔ c.mMapping identifier = some p := by
  unfold getServerConnectionById
  split
  · rename_i h; simp [h]
  · rename_i q h; simp [h]

/-- The sockets of the registered connections. -/
def sockets (heap : Heap) (c : Connections) : List Fd := c.mContainer.map fun p => (heap p).mSocket

theorem mem_sockets {heap : Heap} {c : Connections} {fd : Fd} :
    fd ∈ c.sockets heap ↔ ∃ p ∈ c.mContainer, (heap p).mSocket = fd := List.mem_map

/-- The registered connections have different sockets. -/
def SocketsDistinct (heap : Heap) (c : Connections) : Prop :=
  (c.mContainer.map fun p => (heap p).mSocket).Nodup

theorem SocketsDistinct.inj {heap : Heap} {c : Connections} (h : c.SocketsDistinct heap)
    {p q : Ptr} (hp : p ∈ c.mContainer) (hq : q ∈ c.mContainer)
    (hpq : (heap p).mSocket = (heap q).mSocket) : p = q :=
  List.inj_on_of_nodup_map h hp hq hpq

theorem SocketsDistinct.sublist {heap : Heap} {c d : Connections} (h : c.SocketsDistinct heap)
    (hs : d.mContainer.Sublist c.mContainer) : d.SocketsDistinct heap :=
  List.Nodup.sublist (hs.map _) h

/-- The connections before and behind `p` in the vector have other sockets. -/
theorem SocketsDistinct.split {heap : Heap} {c : Connections} (h : c.SocketsDistinct heap)
    {xs ys : List Ptr} {p : Ptr} (hc : c.mContainer = xs ++ p :: ys) :
    (∀ q ∈ xs, (heap q).mSocket ≠ (heap p).mSocket) ∧
      ∀ q ∈ ys, (heap q).mSocket ≠ (heap p).mSocket := by
  unfold SocketsDistinct at h
  rw [hc, List.map_append, List.map_cons, List.nodup_append] at h
  obtain ⟨-, hnd, hdis⟩ := h
  refine ⟨fun q hq => hdis _ (List.mem_map_of_mem hq) _ (by simp), fun q hq he => ?_⟩
  exact (List.nodup_cons.mp hnd).1 (he ▸ List.mem_map_of_mem hq)

/-- A connection a call can reach: registered, or in the map. -/
def Reached (c : Connections) (p : Ptr) : Prop :=
  p ∈ c.mContainer ∨ ∃ identifier, c.mMapping identifier = some p

/-! ### Adding and removing -/

theorem SocketsDistinct.add {heap : Heap} {c : Connections} (h : c.SocketsDistinct heap)
    {client : Ptr} (hnew : ∀ p ∈ c.mContainer, (heap p).mSocket ≠ (heap client).mSocket) :
    (c.addServerConnection heap client).SocketsDistinct heap := by
  unfold SocketsDistinct at h ⊢
  simp only [addServerConnection, List.map_append, List.map_cons, List.map_nil]
  refine List.Nodup.append h (List.nodup_singleton _) ?_
  rw [List.disjoint_singleton]
  intro hmem
  obtain ⟨p, hp, hs⟩ := List.mem_map.mp hmem
  exact hnew p hp hs

/-- Removing an unregistered socket only clears its descriptor. -/
theorem removeServerConnection_none {heap : Heap} {c : Connections} {sckt : Fd}
    (h : ∀ p ∈ c.mContainer, (heap p).mSocket ≠ sckt) :
    c.removeServerConnection heap sckt = ({ c with mRead := c.mRead.erase sckt }, none) := by
  unfold removeServerConnection
  have hno : ∀ p ∈ c.mContainer, serverConnectionFinder heap sckt p = false := fun p hp =>
    serverConnectionFinder_eq_false.mpr (h p hp)
  simp only [removeIf_of_forall hno, List.getElem?_length]

/-- **Removing a registered connection** takes it out of the vector, but the object erased from the
map and deleted is the last one of the vector. -/
theorem removeServerConnection_mem {heap : Heap} {c : Connections} (h : c.SocketsDistinct heap)
    {xs ys : List Ptr} {p victim : Ptr} (hc : c.mContainer = xs ++ p :: ys)
    (hv : c.mContainer.getLast? = some victim) :
    c.removeServerConnection heap (heap p).mSocket =
      ({ mContainer := xs ++ ys
         mMapping := Function.update c.mMapping (heap victim).mIdentifier none
         mRead := c.mRead.erase (heap p).mSocket
         mFdMax := largest heap (xs ++ ys) }, some victim) := by
  obtain ⟨hxs, hys⟩ := h.split hc
  have hlast : (p :: ys).getLast (by simp) = victim := by
    rw [hc, List.getLast?_append_of_ne_nil _ (by simp), List.getLast?_eq_some_getLast (by simp),
      Option.some.injEq] at hv
    exact hv
  have hrem : removeIf (serverConnectionFinder heap (heap p).mSocket) (xs ++ p :: ys) =
      (xs ++ ys ++ [victim], (xs ++ ys).length) := by
    rw [removeIf_append (by simp) (fun q hq => serverConnectionFinder_eq_false.mpr (hxs q hq))
      (fun q hq => serverConnectionFinder_eq_false.mpr (hys q hq)), hlast]
  unfold removeServerConnection
  simp only [hc, hrem, List.getElem?_concat_length, List.eraseIdx_append_of_length_le le_rfl,
    Nat.sub_self, List.eraseIdx_cons_zero, List.append_nil]

/-- **Only a connection that is the last of the vector is itself deleted.** -/
theorem removeServerConnection_last {heap : Heap} {c : Connections} (h : c.SocketsDistinct heap)
    {xs : List Ptr} {p : Ptr} (hc : c.mContainer = xs ++ [p]) :
    c.removeServerConnection heap (heap p).mSocket =
      ({ mContainer := xs
         mMapping := Function.update c.mMapping (heap p).mIdentifier none
         mRead := c.mRead.erase (heap p).mSocket
         mFdMax := largest heap xs }, some p) := by
  have hv : c.mContainer.getLast? = some p := by rw [hc]; simp
  rw [removeServerConnection_mem h hc hv, List.append_nil]

/-- A removal leaves only connections that were there, in the vector and in the map. -/
theorem removeServerConnection_subset {heap : Heap} {c : Connections} {sckt : Fd} {p : Ptr} :
    (p ∈ (c.removeServerConnection heap sckt).1.mContainer → p ∈ c.mContainer) ∧
      ∀ identifier, (c.removeServerConnection heap sckt).1.mMapping identifier = some p →
        c.mMapping identifier = some p := by
  have hvec : ∀ q ∈ (removeIf (serverConnectionFinder heap sckt) c.mContainer).1,
      q ∈ c.mContainer := by
    intro q hq
    rcases List.mem_append.mp hq with hq | hq
    · exact (kept_sublist c.mContainer).subset hq
    · exact List.mem_of_mem_drop hq
  unfold removeServerConnection
  simp only
  split
  · exact ⟨hvec p, fun _ h => h⟩
  · rename_i victim _
    refine ⟨fun hp => hvec p (List.mem_of_mem_eraseIdx hp), fun identifier hid => ?_⟩
    simp only at hid
    rcases eq_or_ne identifier (heap victim).mIdentifier with rfl | hne
    · rw [Function.update_self] at hid
      cases hid
    · rwa [Function.update_of_ne hne] at hid

theorem Reached.of_remove {heap : Heap} {c : Connections} {sckt : Fd} {p : Ptr}
    (h : (c.removeServerConnection heap sckt).1.Reached p) : c.Reached p :=
  h.imp removeServerConnection_subset.1
    fun ⟨identifier, hid⟩ => ⟨identifier, removeServerConnection_subset.2 identifier hid⟩

theorem Reached.of_add {heap : Heap} {c : Connections} {client p : Ptr}
    (h : (c.addServerConnection heap client).Reached p) : c.Reached p ∨ p = client := by
  rcases h with h | ⟨identifier, h⟩
  · rcases List.mem_append.mp h with h | h
    · exact Or.inl (Or.inl h)
    · exact Or.inr (List.mem_singleton.mp h)
  · simp only [addServerConnection] at h
    rcases eq_or_ne identifier (heap client).mIdentifier with rfl | hne
    · rw [Function.update_self, Option.some.injEq] at h
      exact Or.inr h.symm
    · rw [Function.update_of_ne hne] at h
      exact Or.inl (Or.inr ⟨identifier, h⟩)

/-- A removal leaves some of the registered connections, in their order. -/
theorem removeServerConnection_sublist {heap : Heap} {c : Connections}
    (h : c.SocketsDistinct heap) (sckt : Fd) :
    (c.removeServerConnection heap sckt).1.mContainer.Sublist c.mContainer := by
  by_cases hno : ∀ p ∈ c.mContainer, (heap p).mSocket ≠ sckt
  · rw [removeServerConnection_none hno]
  · push Not at hno
    obtain ⟨p, hp, rfl⟩ := hno
    obtain ⟨xs, ys, hc⟩ := List.append_of_mem hp
    obtain ⟨victim, hv⟩ : ∃ v, c.mContainer.getLast? = some v :=
      ⟨_, List.getLast?_eq_some_getLast (List.ne_nil_of_mem hp)⟩
    rw [removeServerConnection_mem h hc hv, hc]
    exact (List.sublist_cons_self p ys).append_left xs

/-- Every entry of the map is a registered connection under its own identifier. -/
def MapRegistered (heap : Heap) (c : Connections) : Prop :=
  ∀ identifier p, c.mMapping identifier = some p →
    p ∈ c.mContainer ∧ (heap p).mIdentifier = identifier

theorem MapRegistered.add {heap : Heap} {c : Connections} (h : MapRegistered heap c)
    (client : Ptr) : MapRegistered heap (c.addServerConnection heap client) := by
  intro identifier p hp
  simp only [addServerConnection, List.mem_append, List.mem_singleton] at hp ⊢
  rcases eq_or_ne identifier (heap client).mIdentifier with rfl | hne
  · rw [Function.update_self, Option.some.injEq] at hp
    subst hp
    exact ⟨Or.inr rfl, rfl⟩
  · rw [Function.update_of_ne hne] at hp
    exact ⟨Or.inl (h _ _ hp).1, (h _ _ hp).2⟩

/-- Taking a connection out of the vector and its own identifier out of the map. -/
theorem MapRegistered.remove {heap : Heap} {c d : Connections} (h : MapRegistered heap c)
    {xs ys : List Ptr} {p : Ptr} (hc : c.mContainer = xs ++ p :: ys) (hd : d.mContainer = xs ++ ys)
    (hm : d.mMapping = Function.update c.mMapping (heap p).mIdentifier none) :
    MapRegistered heap d := by
  intro identifier q hq
  rw [hm] at hq
  rcases eq_or_ne identifier (heap p).mIdentifier with rfl | hne
  · rw [Function.update_self] at hq
    cases hq
  · rw [Function.update_of_ne hne] at hq
    obtain ⟨hmem, hid⟩ := h _ _ hq
    refine ⟨?_, hid⟩
    rw [hc, List.mem_append, List.mem_cons] at hmem
    rw [hd, List.mem_append]
    rcases hmem with hmem | rfl | hmem
    · exact Or.inl hmem
    · exact absurd hid.symm hne
    · exact Or.inr hmem

end Connections

end C11Http.Posix
