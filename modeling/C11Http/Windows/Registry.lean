import Mathlib.Data.List.Nodup
import Mathlib.Logic.Function.Basic

/-! # The registry of the windows server

`server/windows/Connections.cpp` and what it needs of `ServerConnection.cpp` and `Overlap.h`: the
vector of registered connections and the map from identifiers. A connection is a pointer into a
heap; an object is identified with its address, so addresses are not used twice, but the handle of
its event may be one that was closed before. `removeServerConnection` also returns the object it
deletes.

`Sound` says that the registered connections have different event handles and that every entry of
the map is a registered connection under its own identifier. It is kept by all operations. -/

namespace C11Http.Windows

abbrev Bytes := List UInt8

/-- The handle of an event. -/
abbrev Handle := ℕ

/-- A `SOCKET`. -/
abbrev Socket := ℕ

/-- The address of a `ServerConnection` object. -/
abbrev Ptr := ℕ

/-- A connection: its socket, the event of its one `OVERLAPPED`, its identifier. -/
structure ServerConnection where
  mSocket : Socket
  hEvent : Handle
  mIdentifier : Bytes
  deriving Inhabited

/-- The objects by their addresses. -/
abbrev Heap := Ptr → ServerConnection

def ServerConnection.setIdentifier (c : ServerConnection) (identifier : Bytes) : ServerConnection :=
  { c with mIdentifier := identifier }

@[simp] theorem ServerConnection.setIdentifier_mSocket (c : ServerConnection) (identifier : Bytes) :
    (c.setIdentifier identifier).mSocket = c.mSocket := rfl

@[simp] theorem ServerConnection.setIdentifier_hEvent (c : ServerConnection) (identifier : Bytes) :
    (c.setIdentifier identifier).hEvent = c.hEvent := rfl

@[simp] theorem ServerConnection.setIdentifier_mIdentifier (c : ServerConnection)
    (identifier : Bytes) : (c.setIdentifier identifier).mIdentifier = identifier := rfl

structure Connections where
  mContainer : List Ptr
  mMapping : Bytes → Option Ptr

/-- `ServerConnectionFinder`: the predicate "has this event handle". -/
def serverConnectionFinder (heap : Heap) (mHandle : Handle) (rhs : Ptr) : Bool :=
  mHandle == (heap rhs).hEvent

@[simp] theorem serverConnectionFinder_eq_true {heap : Heap} {handle : Handle} {p : Ptr} :
    serverConnectionFinder heap handle p = true ↔ (heap p).hEvent = handle := by
  unfold serverConnectionFinder
  rw [beq_iff_eq, eq_comm]

namespace Connections

def empty : Connections := { mContainer := [], mMapping := fun _ => none }

/-- `getHandleArray`: the front of the vector goes to its end; the handles are those of the server
and then of the vector in its new order. -/
def getHandleArray (heap : Heap) (c : Connections) (serverHandle : Handle) :
    Connections × List Handle :=
  match c.mContainer with
  | [] => (c, [serverHandle])
  | client :: rest =>
    ({ c with mContainer := rest ++ [client] },
      serverHandle :: (rest ++ [client]).map fun p => (heap p).hEvent)

/-- `removeServerConnection` by handle, with the object it deletes. -/
def removeServerConnection (heap : Heap) (c : Connections) (handle : Handle) :
    Connections × Option Ptr :=
  match c.mContainer.find? (serverConnectionFinder heap handle) with
  | none => (c, none)
  | some victim =>
    ({ mContainer := c.mContainer.eraseP (serverConnectionFinder heap handle)
       mMapping := Function.update c.mMapping (heap victim).mIdentifier none }, some victim)

/-- `removeServerConnection` by identifier. -/
def removeServerConnectionById (heap : Heap) (c : Connections) (identifier : Bytes) :
    Connections × Option Ptr :=
  match c.mMapping identifier with
  | none => (c, none)
  | some p => c.removeServerConnection heap (heap p).hEvent

/-- `getServerConnection` by handle. -/
def getServerConnection (heap : Heap) (c : Connections) (handle : Handle) : Except String Ptr :=
  match c.mContainer.find? (serverConnectionFinder heap handle) with
  | none => .error "Failed to find client"
  | some p => .ok p

/-- `getServerConnection` by identifier. -/
def getServerConnectionById (c : Connections) (identifier : Bytes) : Except String Ptr :=
  match c.mMapping identifier with
  | none => .error "Failed to find client"
  | some p => .ok p

/-- `addServerConnection`, with the heap in which the object has its identifier. -/
def addServerConnection (heap : Heap) (c : Connections) (client : Ptr) (identifier : Bytes) :
    Heap × Connections :=
  (Function.update heap client ((heap client).setIdentifier identifier),
    { mContainer := c.mContainer ++ [client]
      mMapping := Function.update c.mMapping identifier (some client) })

def getConnections (c : Connections) : List Ptr := c.mContainer

/-! ### Looking up -/

theorem getServerConnection_eq_ok {heap : Heap} {c : Connections} {handle : Handle} {p : Ptr} :
    c.getServerConnection heap handle = .ok p ↔
      c.mContainer.find? (serverConnectionFinder heap handle) = some p := by
  unfold getServerConnection
  split
  · rename_i h; simp [h]
  · rename_i q h; simp [h]

theorem getServerConnection_ok {heap : Heap} {c : Connections} {handle : Handle} {p : Ptr}
    (h : c.getServerConnection heap handle = .ok p) :
    p ∈ c.mContainer ∧ (heap p).hEvent = handle := by
  have hfind := getServerConnection_eq_ok.mp h
  exact ⟨List.mem_of_find?_eq_some hfind,
    serverConnectionFinder_eq_true.mp (List.find?_some hfind)⟩

theorem getServerConnectionById_eq_ok {c : Connections} {identifier : Bytes} {p : Ptr} :
    c.getServerConnectionById identifier = .ok p ↔ c.mMapping identifier = some p := by
  unfold getServerConnectionById
  split
  · rename_i h; simp [h]
  · rename_i q h; simp [h]

/-- The registered connections have different event handles. -/
def HandlesDistinct (heap : Heap) (c : Connections) : Prop :=
  (c.mContainer.map fun p => (heap p).hEvent).Nodup

theorem HandlesDistinct.nodup {heap : Heap} {c : Connections} (h : c.HandlesDistinct heap) :
    c.mContainer.Nodup :=
  List.Nodup.of_map _ h

theorem HandlesDistinct.inj {heap : Heap} {c : Connections} (h : c.HandlesDistinct heap)
    {p q : Ptr} (hp : p ∈ c.mContainer) (hq : q ∈ c.mContainer)
    (hpq : (heap p).hEvent = (heap q).hEvent) : p = q :=
  List.inj_on_of_nodup_map h hp hq hpq

/-- The handle of a registered connection finds it and no other. -/
theorem HandlesDistinct.find {heap : Heap} {c : Connections} (h : c.HandlesDistinct heap)
    {p : Ptr} (hp : p ∈ c.mContainer) :
    c.mContainer.find? (serverConnectionFinder heap (heap p).hEvent) = some p := by
  cases hf : c.mContainer.find? (serverConnectionFinder heap (heap p).hEvent) with
  | none =>
    exact absurd (serverConnectionFinder_eq_true.mpr rfl) (List.find?_eq_none.mp hf p hp)
  | some q =>
    have hq := List.mem_of_find?_eq_some hf
    have he := serverConnectionFinder_eq_true.mp (List.find?_some hf)
    rw [h.inj hq hp he]

theorem HandlesDistinct.eraseP {heap : Heap} {c : Connections} (h : c.HandlesDistinct heap)
    {p : Ptr} (hp : p ∈ c.mContainer) :
    c.mContainer.eraseP (serverConnectionFinder heap (heap p).hEvent) = c.mContainer.erase p := by
  obtain ⟨xs, ys, hc⟩ := List.append_of_mem hp
  have hxs : ∀ q ∈ xs, (heap q).hEvent ≠ (heap p).hEvent := by
    intro q hq he
    have hqc : q ∈ c.mContainer := hc ▸ List.mem_append_left _ hq
    obtain rfl := h.inj hqc hp he
    have hnd := h.nodup
    rw [hc, List.nodup_append] at hnd
    exact hnd.2.2 q hq q (List.mem_cons_self) rfl
  have hmem : p ∉ xs := fun hpx => hxs p hpx rfl
  rw [hc, List.eraseP_append_right _ fun q hq => by simpa using hxs q hq,
    List.eraseP_cons_of_pos (serverConnectionFinder_eq_true.mpr rfl),
    List.erase_append_right _ hmem, List.erase_cons_head]

/-! ### Removing -/

theorem removeServerConnection_none {heap : Heap} {c : Connections} {handle : Handle}
    (h : ∀ p ∈ c.mContainer, (heap p).hEvent ≠ handle) :
    c.removeServerConnection heap handle = (c, none) := by
  have hf : c.mContainer.find? (serverConnectionFinder heap handle) = none :=
    List.find?_eq_none.mpr fun p hp he => h p hp (serverConnectionFinder_eq_true.mp he)
  unfold removeServerConnection
  rw [hf]

/-- **Removing a registered connection by its handle** deletes it and erases its identifier. -/
theorem removeServerConnection_mem {heap : Heap} {c : Connections} (h : c.HandlesDistinct heap)
    {p : Ptr} (hp : p ∈ c.mContainer) :
    c.removeServerConnection heap (heap p).hEvent =
      ({ mContainer := c.mContainer.erase p
         mMapping := Function.update c.mMapping (heap p).mIdentifier none }, some p) := by
  unfold removeServerConnection
  rw [h.find hp, h.eraseP hp]

/-! ### Sound registries -/

structure Sound (heap : Heap) (c : Connections) : Prop where
  distinct : c.HandlesDistinct heap
  mapped : ∀ identifier p, c.mMapping identifier = some p →
    p ∈ c.mContainer ∧ (heap p).mIdentifier = identifier

namespace Sound

variable {heap : Heap} {c : Connections}

theorem empty (heap : Heap) : Sound heap empty where
  distinct := List.nodup_nil
  mapped _ _ h := by cases h

theorem add (h : Sound heap c) {client : Ptr} (identifier : Bytes) (hnew : client ∉ c.mContainer)
    (hhandle : ∀ p ∈ c.mContainer, (heap p).hEvent ≠ (heap client).hEvent) :
    Sound (c.addServerConnection heap client identifier).1
      (c.addServerConnection heap client identifier).2 := by
  have hsame : ∀ p ∈ c.mContainer, (c.addServerConnection heap client identifier).1 p = heap p :=
    fun p hp => Function.update_of_ne (ne_of_mem_of_not_mem hp hnew) _ _
  have hself : (c.addServerConnection heap client identifier).1 client =
    (heap client).setIdentifier identifier := Function.update_self _ _ _
  constructor
  · have hmap : (c.mContainer.map fun p =>
        ((c.addServerConnection heap client identifier).1 p).hEvent) =
          c.mContainer.map fun p => (heap p).hEvent :=
      List.map_congr_left fun p hp => by rw [hsame p hp]
    unfold HandlesDistinct
    show (List.map _ (c.mContainer ++ [client])).Nodup
    rw [List.map_append, hmap, List.map_cons, List.map_nil, hself]
    refine List.Nodup.append h.distinct (List.nodup_singleton _) ?_
    rw [List.disjoint_singleton]
    intro hmem
    obtain ⟨p, hp, he⟩ := List.mem_map.mp hmem
    exact hhandle p hp he
  · intro key p hp
    show p ∈ c.mContainer ++ [client] ∧ _
    have hp' : Function.update c.mMapping identifier (some client) key = some p := hp
    rcases eq_or_ne key identifier with rfl | hne
    · rw [Function.update_self, Option.some.injEq] at hp'
      subst hp'
      exact ⟨by simp, by rw [hself]; rfl⟩
    · rw [Function.update_of_ne hne] at hp'
      obtain ⟨hmem, hid⟩ := h.mapped key p hp'
      exact ⟨List.mem_append_left _ hmem, by rw [hsame p hmem]; exact hid⟩

/-- **A removal by handle** keeps a registry sound. -/
theorem remove (h : Sound heap c) (handle : Handle) :
    Sound heap (c.removeServerConnection heap handle).1 := by
  by_cases hno : ∀ p ∈ c.mContainer, (heap p).hEvent ≠ handle
  · rw [removeServerConnection_none hno]
    exact h
  · push Not at hno
    obtain ⟨p, hp, rfl⟩ := hno
    rw [removeServerConnection_mem h.distinct hp]
    refine ⟨List.Nodup.sublist (List.Sublist.map _ List.erase_sublist) h.distinct, ?_⟩
    intro key q hq
    simp only at hq
    rcases eq_or_ne key (heap p).mIdentifier with rfl | hne
    · rw [Function.update_self] at hq
      cases hq
    · rw [Function.update_of_ne hne] at hq
      obtain ⟨hmem, hid⟩ := h.mapped key q hq
      have hqp : q ≠ p := by
        rintro rfl
        exact hne hid.symm
      exact ⟨(List.mem_erase_of_ne hqp).mpr hmem, hid⟩

/-- **A removal by identifier** deletes the connection that the lookup would have returned. -/
theorem removeById_some (h : Sound heap c) {identifier : Bytes} {p : Ptr}
    (hp : c.mMapping identifier = some p) :
    c.removeServerConnectionById heap identifier =
      ({ mContainer := c.mContainer.erase p
         mMapping := Function.update c.mMapping identifier none }, some p) := by
  obtain ⟨hmem, hid⟩ := h.mapped identifier p hp
  unfold removeServerConnectionById
  rw [hp]
  simp only
  rw [removeServerConnection_mem h.distinct hmem, hid]

theorem getHandleArray (h : Sound heap c) (serverHandle : Handle) :
    Sound heap (c.getHandleArray heap serverHandle).1 := by
  unfold Connections.getHandleArray
  split
  · exact h
  · rename_i client rest hc
    have hperm : (rest ++ [client]).Perm c.mContainer := by
      rw [hc]
      exact List.perm_append_singleton client rest
    refine ⟨((hperm.map _).nodup_iff).mpr h.distinct, fun key p hp => ?_⟩
    obtain ⟨hmem, hid⟩ := h.mapped key p hp
    exact ⟨hperm.mem_iff.mpr hmem, hid⟩

end Sound

/-- The rotation moves nothing in or out. -/
theorem mem_getHandleArray {heap : Heap} {c : Connections} {serverHandle : Handle} {p : Ptr} :
    p ∈ (c.getHandleArray heap serverHandle).1.mContainer ↔ p ∈ c.mContainer := by
  unfold Connections.getHandleArray
  split
  · exact Iff.rfl
  · rename_i client rest hc
    rw [hc]
    exact (List.perm_append_singleton client rest).mem_iff

@[simp] theorem getHandleArray_mMapping (heap : Heap) (c : Connections) (serverHandle : Handle) :
    (c.getHandleArray heap serverHandle).1.mMapping = c.mMapping := by
  unfold Connections.getHandleArray
  split <;> rfl

end Connections

end C11Http.Windows
