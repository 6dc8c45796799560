import C11Http.Lib.Run
import C11Http.Posix.Registry

/-! # What the posix registry deletes

Runs of `addServerConnection` and `removeServerConnection` from an empty registry. A connection that
is added is a new object, and its socket differs from those registered then. `Faithful` says that
the registry has deleted exactly the connections that were registered when their own socket was
removed, that nothing deleted can still be looked up, and that nothing that has left the vector is
still in the map.

The registry stays faithful exactly as long as every removal of a registered connection is that of
the last one of the vector (`faithful_iff_removesLast`): a removal deletes the object in the slot
behind the elements that stay, which is the last one. -/

namespace C11Http.Posix.Deletion

open C11Http.Lib.Run C11Http.Lib.RemoveIf Connections

/-- The two operations. -/
inductive Op
  | add (client : Ptr)
  | remove (sckt : Fd)

/-- The registry with its history: the objects added and deleted, and those that were registered
when their own socket was passed to `removeServerConnection`. -/
structure State where
  connections : Connections
  added : List Ptr
  deleted : List Ptr
  removed : List Ptr

/-- An empty registry over the caller's `fd_set`. -/
def start (read : Finset Fd) : State :=
  { connections := .new read, added := [], deleted := [], removed := [] }

variable (heap : Heap)

def step (s : State) : Op → Option State
  | .add client =>
    if client ∉ s.added ∧ ∀ p ∈ s.connections.mContainer, (heap p).mSocket ≠ (heap client).mSocket
    then some { s with connections := s.connections.addServerConnection heap client
                       added := s.added ++ [client] }
    else none
  | .remove sckt =>
    let (connections, victim) := s.connections.removeServerConnection heap sckt
    some { s with connections := connections
                  deleted := s.deleted ++ victim.toList
                  removed := s.removed ++
                    s.connections.mContainer.filter (serverConnectionFinder heap sckt) }

/-- **The registry deletes exactly what it removes.** -/
structure Faithful (s : State) : Prop where
  deleted_eq : s.deleted = s.removed
  gone : ∀ p ∈ s.deleted, p ∉ s.connections.getConnections ∧
    (∀ sckt, s.connections.getServerConnection heap sckt ≠ some p) ∧
    ∀ identifier, s.connections.getServerConnectionById identifier ≠ .ok p
  unmapped : ∀ p ∈ s.added, p ∉ s.connections.mContainer →
    ∀ identifier, s.connections.mMapping identifier ≠ some p

/-- The removal of a registered connection is that of the last one of the vector. -/
def RemovesLast (s : State) : Op → Prop
  | .add _ => True
  | .remove sckt => ∀ p ∈ s.connections.mContainer, (heap p).mSocket = sckt →
      s.connections.mContainer.getLast? = some p

/-- What holds besides in every state of a faithful run. -/
structure Inv (s : State) : Prop where
  distinct : s.connections.SocketsDistinct heap
  mapped : MapRegistered heap s.connections
  added : ∀ p ∈ s.connections.mContainer, p ∈ s.added
  deleted : ∀ p ∈ s.deleted, p ∈ s.added ∧ p ∉ s.connections.mContainer

variable {heap}

/-- A lookup only finds registered connections, so a deleted one is not found. -/
theorem Inv.faithful {s : State} (h : Inv heap s) (heq : s.deleted = s.removed) :
    Faithful heap s where
  deleted_eq := heq
  gone p hp := by
    obtain ⟨-, hno⟩ := h.deleted p hp
    refine ⟨hno, fun sckt hs => hno (getServerConnection_some hs).1, fun identifier hi => ?_⟩
    exact hno (h.mapped _ _ (getServerConnectionById_eq_ok.mp hi)).1
  unmapped p _ hno identifier hi := hno (h.mapped _ _ hi).1

theorem inv_start (read : Finset Fd) : Inv heap (start read) where
  distinct := by simp [start, new, SocketsDistinct]
  mapped := fun identifier p h => by simp [start, new] at h
  added := by simp [start, new]
  deleted := by simp [start]

theorem inv_add {s t : State} (h : Inv heap s) {client : Ptr}
    (hs : step heap s (.add client) = some t) : Inv heap t ∧ t.deleted = s.deleted ∧
      t.removed = s.removed := by
  simp only [step] at hs
  split_ifs at hs with hok
  obtain ⟨hnew, hsock⟩ := hok
  cases hs
  refine ⟨⟨h.distinct.add hsock, h.mapped.add client, fun p hp => ?_, fun p hp => ?_⟩, rfl, rfl⟩
  · simp only [addServerConnection, List.mem_append, List.mem_singleton] at hp ⊢
    exact hp.imp (h.added p) id
  · obtain ⟨ha, hno⟩ := h.deleted p hp
    simp only [addServerConnection, List.mem_append, List.mem_singleton, not_or]
    exact ⟨Or.inl ha, hno, fun he => hnew (he ▸ ha)⟩

/-- The only registered connection with the socket of `p` is `p`. -/
theorem filter_finder {c : Connections} (h : c.SocketsDistinct heap) {xs ys : List Ptr} {p : Ptr}
    (hc : c.mContainer = xs ++ p :: ys) :
    c.mContainer.filter (serverConnectionFinder heap (heap p).mSocket) = [p] := by
  obtain ⟨hxs, hys⟩ := h.split hc
  have hx : xs.filter (serverConnectionFinder heap (heap p).mSocket) = [] :=
    List.filter_eq_nil_iff.mpr fun q hq => by simpa using hxs q hq
  have hy : ys.filter (serverConnectionFinder heap (heap p).mSocket) = [] :=
    List.filter_eq_nil_iff.mpr fun q hq => by simpa using hys q hq
  rw [hc, List.filter_append, List.filter_cons_of_pos (by simp), hx, hy]
  rfl

/-- A removal that finds nothing changes nothing but the descriptor set. -/
theorem step_remove_none {s t : State} {sckt : Fd}
    (hno : ∀ p ∈ s.connections.mContainer, (heap p).mSocket ≠ sckt)
    (hs : step heap s (.remove sckt) = some t) :
    t = { s with connections :=
            { s.connections with mRead := s.connections.mRead.erase sckt } } := by
  have hf : s.connections.mContainer.filter (serverConnectionFinder heap sckt) = [] :=
    List.filter_eq_nil_iff.mpr fun q hq => by simpa using hno q hq
  simp only [step, removeServerConnection_none hno, hf, Option.toList_none, List.append_nil] at hs
  cases hs
  rfl

/-- A removal that finds `p` records `p` as removed and the last of the vector as deleted. -/
theorem step_remove_mem {s t : State} (h : s.connections.SocketsDistinct heap) {xs ys : List Ptr}
    {p victim : Ptr} (hc : s.connections.mContainer = xs ++ p :: ys)
    (hv : s.connections.mContainer.getLast? = some victim)
    (hs : step heap s (.remove (heap p).mSocket) = some t) :
    t.added = s.added ∧ t.deleted = s.deleted ++ [victim] ∧ t.removed = s.removed ++ [p] ∧
      t.connections.mContainer = xs ++ ys ∧ t.connections.mMapping =
        Function.update s.connections.mMapping (heap victim).mIdentifier none := by
  simp only [step, removeServerConnection_mem h hc hv, filter_finder h hc,
    Option.toList_some] at hs
  cases hs
  exact ⟨rfl, rfl, rfl, rfl, rfl⟩

/-- Removing and deleting one and the same connection keeps the invariant. -/
theorem inv_remove {s t : State} (h : Inv heap s) {xs ys : List Ptr} {p : Ptr}
    (hc : s.connections.mContainer = xs ++ p :: ys) (hadd : t.added = s.added)
    (hdel : t.deleted = s.deleted ++ [p]) (hcont : t.connections.mContainer = xs ++ ys)
    (hmap : t.connections.mMapping =
      Function.update s.connections.mMapping (heap p).mIdentifier none) : Inv heap t := by
  have hsub : t.connections.mContainer.Sublist s.connections.mContainer := by
    rw [hcont, hc]
    exact (List.sublist_cons_self p ys).append_left xs
  have hnot : p ∉ xs ++ ys := by
    have hnd : s.connections.mContainer.Nodup := List.Nodup.of_map _ h.distinct
    rw [hc] at hnd
    exact (List.nodup_middle.mp hnd).notMem
  refine ⟨h.distinct.sublist hsub, h.mapped.remove hc hcont hmap, fun q hq => ?_, fun q hq => ?_⟩
  · rw [hadd]
    exact h.added q (hsub.subset hq)
  · rw [hdel, List.mem_append, List.mem_singleton] at hq
    rw [hadd]
    rcases hq with hq | rfl
    · obtain ⟨ha, hn⟩ := h.deleted q hq
      exact ⟨ha, fun hmem => hn (hsub.subset hmem)⟩
    · exact ⟨h.added q (by rw [hc]; simp), by rw [hcont]; exact hnot⟩

/-- **One removal** leaves the registry faithful exactly when it is that of the last connection. -/
theorem faithful_remove_iff {s t : State} (h : Inv heap s) (hf : Faithful heap s) {sckt : Fd}
    (hs : step heap s (.remove sckt) = some t) :
    (Faithful heap t ↔ RemovesLast heap s (.remove sckt)) ∧ (Faithful heap t → Inv heap t) := by
  by_cases hno : ∀ p ∈ s.connections.mContainer, (heap p).mSocket ≠ sckt
  · have ht := step_remove_none hno hs
    have hinv : Inv heap t := by
      subst ht
      exact ⟨h.distinct, h.mapped, h.added, h.deleted⟩
    refine ⟨⟨fun _ p hp hsock => absurd hsock (hno p hp), fun _ => ?_⟩, fun _ => hinv⟩
    exact hinv.faithful (by rw [ht]; exact hf.deleted_eq)
  · push Not at hno
    obtain ⟨p, hp, rfl⟩ := hno
    obtain ⟨xs, ys, hc⟩ := List.append_of_mem hp
    obtain ⟨victim, hv⟩ : ∃ v, s.connections.mContainer.getLast? = some v :=
      ⟨_, List.getLast?_eq_some_getLast (List.ne_nil_of_mem hp)⟩
    obtain ⟨hadd, hdel, hrem, hcont, hmap⟩ := step_remove_mem h.distinct hc hv hs
    have hlast : RemovesLast heap s (.remove (heap p).mSocket) ↔ victim = p := by
      constructor
      · intro hl
        have hp' := hl p hp rfl
        rw [hv, Option.some.injEq] at hp'
        exact hp'
      · rintro rfl q hq hsock
        rw [h.distinct.inj hq hp hsock]
        exact hv
    -- the lists of the deleted and of the removed connections grow by `victim` and by `p`
    have heq : Faithful heap t → victim = p := fun hf' => by
      have hlists := hf'.deleted_eq
      rw [hdel, hrem, hf.deleted_eq, List.append_cancel_left_eq] at hlists
      simpa using hlists
    have hinv : victim = p → Inv heap t := by
      rintro rfl
      exact inv_remove h hc hadd hdel hcont hmap
    refine ⟨⟨fun hf' => hlast.mpr (heq hf'), fun hl => ?_⟩, fun hf' => hinv (heq hf')⟩
    have hvp := hlast.mp hl
    exact (hinv hvp).faithful (by rw [hdel, hrem, hf.deleted_eq, hvp])

theorem inv_step {s t : State} (h : Inv heap s) (hf : Faithful heap s) {o : Op}
    (hs : step heap s o = some t) :
    (Faithful heap t ↔ RemovesLast heap s o) ∧ (Faithful heap t → Inv heap t) := by
  cases o with
  | add client =>
    obtain ⟨hinv, hd, hr⟩ := inv_add h hs
    exact ⟨⟨fun _ => trivial, fun _ => hinv.faithful (by rw [hd, hr, hf.deleted_eq])⟩,
      fun _ => hinv⟩
  | remove sckt => exact faithful_remove_iff h hf hs

/-- **The registry deletes exactly what it removes as long as it removes the last connection.** In
every run from an empty registry, every state reached is faithful if and only if every removal of a
registered connection is that of the last one of the vector. -/
theorem faithful_iff_removesLast (heap : Heap) (read : Finset Fd) (ops : List Op) :
    Always (step heap) (Faithful heap) (start read) ops ↔
      Along (step heap) (RemovesLast heap) (start read) ops :=
  always_iff_along (fun _ _ _ hI hP hs => (inv_step hI hP hs).2)
    (fun _ _ _ hI hP hs => (inv_step hI hP hs).1) ops (inv_start read)
    ((inv_start read).faithful rfl)

/-! ### Removing the first of two connections -/

/-- Two connections, on descriptors 5 and 6. -/
def twoConnections : Heap := fun p =>
  { mOutgoingBytes := [], mSocket := p + 5, mBuffer := [], mIdentifier := [97 + UInt8.ofNat p] }

/-- **The first of two connections is removed and the second one deleted**: it is still registered.
-/
theorem removes_first_deletes_second :
    ¬ ∀ (heap : Heap) (read : Finset Fd) (ops : List Op),
      Always (step heap) (Faithful heap) (start read) ops := by
  intro h
  have hlast := (h twoConnections ∅ [.add 0, .add 1, .remove 5]).last rfl
  have hgone := (hlast.gone 1 (by decide)).1
  exact hgone (by decide)

end C11Http.Posix.Deletion
