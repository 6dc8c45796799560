import C11Http.Lib.Run
import C11Http.Windows.Registry

/-! # Looking up connections of the windows server

Runs of the operations of `Connections` from an empty one. A client that is added is a new object
whose event handle is none of those registered; its identifier is arbitrary. A lookup by identifier
never finds a deleted connection, and a removal by identifier deletes the one it would have found
(`lookups_safe`).

Identifiers need not be different. A removal erases the identifier of the connection it deletes,
also when the entry is that of another one; so all registered connections can be looked up exactly
as long as no removal deletes one that shares its identifier (`addressable_iff_unshared`). -/

namespace C11Http.Windows.Lookup

open C11Http.Lib.Run Connections

inductive Op
  | add (client : Ptr) (identifier : Bytes)
  | removeByHandle (handle : Handle)
  | removeByIdentifier (identifier : Bytes)
  | getHandleArray (serverHandle : Handle)

/-- The registry with the objects, those added so far and those deleted. -/
structure State where
  heap : Heap
  connections : Connections
  added : List Ptr
  deleted : List Ptr

/-- An empty registry. The events of the objects are those in the heap. -/
def start (heap : Heap) : State :=
  { heap := heap, connections := empty, added := [], deleted := [] }

/-- The registry after a removal. -/
def State.removed (s : State) (r : Connections × Option Ptr) : State :=
  { s with connections := r.1, deleted := s.deleted ++ r.2.toList }

def step (s : State) : Op → Option State
  | .add client identifier =>
    if client ∉ s.added ∧
        ∀ p ∈ s.connections.mContainer, (s.heap p).hEvent ≠ (s.heap client).hEvent then
      some { s with
        heap := (s.connections.addServerConnection s.heap client identifier).1
        connections := (s.connections.addServerConnection s.heap client identifier).2
        added := s.added ++ [client] }
    else none
  | .removeByHandle handle => some (s.removed (s.connections.removeServerConnection s.heap handle))
  | .removeByIdentifier identifier =>
    some (s.removed (s.connections.removeServerConnectionById s.heap identifier))
  | .getHandleArray serverHandle =>
    some { s with connections := (s.connections.getHandleArray s.heap serverHandle).1 }

/-- What holds in every state: the registry is sound, what is registered has been added, and what is
deleted is not registered. -/
structure Inv (s : State) : Prop where
  sound : Sound s.heap s.connections
  added : ∀ p ∈ s.connections.mContainer, p ∈ s.added
  deleted : ∀ p ∈ s.deleted, p ∈ s.added ∧ p ∉ s.connections.mContainer

variable {s t : State}

theorem inv_start (heap : Heap) : Inv (start heap) where
  sound := Sound.empty heap
  added _ hp := by cases hp
  deleted _ hp := by cases hp

theorem step_add {client : Ptr} {identifier : Bytes}
    (h : step s (.add client identifier) = some t) :
    client ∉ s.added ∧
      (∀ p ∈ s.connections.mContainer, (s.heap p).hEvent ≠ (s.heap client).hEvent) ∧
      t = { s with
        heap := (s.connections.addServerConnection s.heap client identifier).1
        connections := (s.connections.addServerConnection s.heap client identifier).2
        added := s.added ++ [client] } := by
  simp only [step] at h
  split_ifs at h with hnew
  cases h
  exact ⟨hnew.1, hnew.2, rfl⟩

/-- A removal by handle deletes a registered connection or does nothing. -/
theorem removal_cases (h : Sound s.heap s.connections) (handle : Handle) :
    s.connections.removeServerConnection s.heap handle = (s.connections, none) ∨
      ∃ p ∈ s.connections.mContainer, (s.heap p).hEvent = handle ∧
        s.connections.removeServerConnection s.heap handle =
          ({ mContainer := s.connections.mContainer.erase p
             mMapping := Function.update s.connections.mMapping (s.heap p).mIdentifier none },
            some p) := by
  by_cases hno : ∀ p ∈ s.connections.mContainer, (s.heap p).hEvent ≠ handle
  · exact Or.inl (removeServerConnection_none hno)
  · push Not at hno
    obtain ⟨p, hp, rfl⟩ := hno
    exact Or.inr ⟨p, hp, rfl, removeServerConnection_mem h.distinct hp⟩

theorem Inv.removeByHandle (h : Inv s) (handle : Handle) :
    Inv (s.removed (s.connections.removeServerConnection s.heap handle)) := by
  have hsound := h.sound.remove handle
  rcases removal_cases h.sound handle with he | ⟨p, hp, -, he⟩
  · rw [he] at hsound ⊢
    refine ⟨hsound, h.added, fun q hq => h.deleted q ?_⟩
    simpa [State.removed] using hq
  · rw [he] at hsound ⊢
    refine ⟨hsound, fun q hq => h.added q (List.mem_of_mem_erase hq), fun q hq => ?_⟩
    have hq' : q ∈ s.deleted ∨ q = p := by simpa [State.removed] using hq
    rcases hq' with hq | rfl
    · obtain ⟨hadded, hno⟩ := h.deleted q hq
      exact ⟨hadded, fun hmem => hno (List.mem_of_mem_erase hmem)⟩
    · exact ⟨h.added q hp, h.sound.distinct.nodup.not_mem_erase⟩

/-- A removal by identifier is one by handle, or does nothing. -/
theorem Inv.removeByIdentifier (h : Inv s) (identifier : Bytes) :
    Inv (s.removed (s.connections.removeServerConnectionById s.heap identifier)) := by
  unfold removeServerConnectionById
  cases hm : s.connections.mMapping identifier with
  | none =>
    refine ⟨h.sound, h.added, fun q hq => h.deleted q ?_⟩
    simpa [State.removed] using hq
  | some p => exact h.removeByHandle (s.heap p).hEvent

theorem inv_step {op : Op} (h : Inv s) (hs : step s op = some t) : Inv t := by
  cases op with
  | add client identifier =>
    obtain ⟨hnew, hhandle, rfl⟩ := step_add hs
    have hclient : client ∉ s.connections.mContainer := fun hmem => hnew (h.added client hmem)
    refine ⟨h.sound.add identifier hclient hhandle, fun p hp => ?_, fun p hp => ?_⟩
    · have hp' : p ∈ s.connections.mContainer ++ [client] := hp
      rw [List.mem_append, List.mem_singleton] at hp' ⊢
      exact hp'.imp (h.added p) id
    · obtain ⟨hadded, hno⟩ := h.deleted p hp
      refine ⟨List.mem_append_left _ hadded, ?_⟩
      show p ∉ s.connections.mContainer ++ [client]
      rw [List.mem_append, List.mem_singleton, not_or]
      exact ⟨hno, fun he => hnew (he ▸ hadded)⟩
  | removeByHandle handle =>
    cases hs
    exact h.removeByHandle handle
  | removeByIdentifier identifier =>
    cases hs
    exact h.removeByIdentifier identifier
  | getHandleArray serverHandle =>
    cases hs
    refine ⟨h.sound.getHandleArray serverHandle, fun p hp => h.added p (mem_getHandleArray.mp hp),
      fun p hp => ⟨(h.deleted p hp).1, fun hmem => (h.deleted p hp).2 (mem_getHandleArray.mp hmem)⟩⟩

/-! ### Lookups by identifier -/

/-- **What can be looked up by identifier**: registered connections only, each under its own
identifier, and none that is deleted; a removal by identifier deletes the one that would have been
found and no other, after which nothing is found. -/
structure Safe (s : State) : Prop where
  nodup : s.connections.mContainer.Nodup
  mapped : ∀ identifier p, s.connections.mMapping identifier = some p →
    p ∈ s.connections.mContainer ∧ (s.heap p).mIdentifier = identifier
  lookup : ∀ identifier p, s.connections.getServerConnectionById identifier = .ok p →
    p ∈ s.added ∧ p ∉ s.deleted
  removal : ∀ identifier p, s.connections.getServerConnectionById identifier = .ok p →
    ∃ t, step s (.removeByIdentifier identifier) = some t ∧ t.deleted = s.deleted ++ [p] ∧
      t.connections.mContainer = s.connections.mContainer.erase p ∧
      t.connections.getServerConnectionById identifier = .error "Failed to find client"
  absent : ∀ identifier what, s.connections.getServerConnectionById identifier = .error what →
    step s (.removeByIdentifier identifier) = some s

theorem Inv.safe (h : Inv s) : Safe s where
  nodup := h.sound.distinct.nodup
  mapped := h.sound.mapped
  lookup identifier p hp := by
    have hmem := (h.sound.mapped identifier p (getServerConnectionById_eq_ok.mp hp)).1
    exact ⟨h.added p hmem, fun hdel => (h.deleted p hdel).2 hmem⟩
  removal identifier p hp := by
    refine ⟨_, rfl, ?_⟩
    rw [h.sound.removeById_some (getServerConnectionById_eq_ok.mp hp)]
    refine ⟨rfl, rfl, ?_⟩
    unfold getServerConnectionById State.removed
    simp only [Function.update_self]
  absent identifier what hwhat := by
    unfold getServerConnectionById at hwhat
    split at hwhat
    · rename_i hnone
      simp only [step, removeServerConnectionById, hnone, State.removed, Option.toList_none,
        List.append_nil]
    · cases hwhat

/-- **Lookups by identifier are safe in every run.** -/
theorem lookups_safe (heap : Heap) (ops : List Op) : Always step Safe (start heap) ops :=
  (always_of_inv (fun _ _ _ h hs => inv_step h hs) ops (inv_start heap)).imp fun _ h => h.safe

/-! ### Which connections can be addressed -/

/-- Every registered connection has an identifier that can be looked up. -/
def Addressable (s : State) : Prop :=
  ∀ identifier, (∃ p ∈ s.connections.mContainer, (s.heap p).mIdentifier = identifier) →
    ∃ q, s.connections.getServerConnectionById identifier = .ok q

/-- No other registered connection has the identifier of `p`. -/
def Unshared (s : State) (p : Ptr) : Prop :=
  ∀ q ∈ s.connections.mContainer, (s.heap q).mIdentifier = (s.heap p).mIdentifier → q = p

/-- A removal deletes no connection that shares its identifier. -/
def RemovesUnshared (s : State) : Op → Prop
  | .removeByHandle handle =>
    ∀ p, s.connections.getServerConnection s.heap handle = .ok p → Unshared s p
  | .removeByIdentifier identifier =>
    ∀ p, s.connections.getServerConnectionById identifier = .ok p → Unshared s p
  | _ => True

/-- In terms of the map. -/
theorem addressable_iff_mapped : Addressable s ↔ ∀ p ∈ s.connections.mContainer,
    ∃ q, s.connections.mMapping (s.heap p).mIdentifier = some q := by
  unfold Addressable
  simp only [getServerConnectionById_eq_ok]
  constructor
  · intro h p hp
    exact h _ ⟨p, hp, rfl⟩
  · rintro h _ ⟨p, hp, rfl⟩
    exact h p hp

theorem addressable_start (heap : Heap) : Addressable (start heap) := by
  rintro identifier ⟨p, hp, -⟩
  cases hp

theorem addressable_add (hinv : Inv s) (h : Addressable s) {client : Ptr} {identifier : Bytes}
    (hs : step s (.add client identifier) = some t) : Addressable t := by
  obtain ⟨hnew, -, rfl⟩ := step_add hs
  rw [addressable_iff_mapped] at h ⊢
  intro p hp
  show ∃ q, Function.update s.connections.mMapping identifier (some client)
    (Function.update s.heap client
      ((s.heap client).setIdentifier identifier) p).mIdentifier = some q
  have hp' : p ∈ s.connections.mContainer ++ [client] := hp
  rcases List.mem_append.mp hp' with hmem | hmem
  · have hpc : p ≠ client := ne_of_mem_of_not_mem (hinv.added p hmem) hnew
    rw [Function.update_of_ne hpc]
    rcases eq_or_ne (s.heap p).mIdentifier identifier with he | hne
    · exact ⟨client, by rw [he, Function.update_self]⟩
    · rw [Function.update_of_ne hne]
      exact h p hmem
  · obtain rfl := List.mem_singleton.mp hmem
    rw [Function.update_self, ServerConnection.setIdentifier_mIdentifier, Function.update_self]
    exact ⟨p, rfl⟩

/-- **What is left after the deletion of `p`** can be addressed exactly if `p` shares its identifier
with nobody. -/
theorem addressable_removed_iff (hinv : Inv s) (h : Addressable s) {p : Ptr} :
    Addressable (s.removed ({ mContainer := s.connections.mContainer.erase p
                              mMapping := Function.update s.connections.mMapping
                                (s.heap p).mIdentifier none }, some p)) ↔ Unshared s p := by
  have hnd := hinv.sound.distinct.nodup
  rw [addressable_iff_mapped] at h ⊢
  show (∀ q ∈ s.connections.mContainer.erase p, ∃ r, Function.update s.connections.mMapping
    (s.heap p).mIdentifier none (s.heap q).mIdentifier = some r) ↔ _
  constructor
  · intro ht q hq hid
    by_contra hne
    obtain ⟨r, hr⟩ := ht q ((List.mem_erase_of_ne hne).mpr hq)
    rw [hid, Function.update_self] at hr
    cases hr
  · intro hun q hq
    have hqp : q ≠ p := ne_of_mem_of_not_mem hq hnd.not_mem_erase
    have hqc := List.mem_of_mem_erase hq
    have hne : (s.heap q).mIdentifier ≠ (s.heap p).mIdentifier := fun he => hqp (hun q hqc he)
    rw [Function.update_of_ne hne]
    exact h q hqc

theorem addressable_remove_iff (hinv : Inv s) (h : Addressable s) (handle : Handle) :
    Addressable (s.removed (s.connections.removeServerConnection s.heap handle)) ↔
      ∀ p, s.connections.getServerConnection s.heap handle = .ok p → Unshared s p := by
  rcases removal_cases hinv.sound handle with he | ⟨p, hp, rfl, he⟩
  · have hnone : ∀ p, s.connections.getServerConnection s.heap handle ≠ .ok p := by
      intro p hp
      obtain ⟨hmem, rfl⟩ := getServerConnection_ok hp
      rw [removeServerConnection_mem hinv.sound.distinct hmem] at he
      cases (Prod.ext_iff.mp he).2
    rw [he]
    refine ⟨fun _ p hp => absurd hp (hnone p), fun _ => ?_⟩
    rwa [State.removed, Option.toList_none, List.append_nil]
  · rw [he, addressable_removed_iff hinv h]
    have hfind := getServerConnection_eq_ok.mpr (hinv.sound.distinct.find hp)
    constructor
    · intro hun q hq
      rw [hfind, Except.ok.injEq] at hq
      exact hq ▸ hun
    · intro hun
      exact hun p hfind

theorem addressable_step_iff {op : Op} (hinv : Inv s) (h : Addressable s)
    (hs : step s op = some t) : Addressable t ↔ RemovesUnshared s op := by
  cases op with
  | add client identifier => exact iff_of_true (addressable_add hinv h hs) trivial
  | removeByHandle handle =>
    cases hs
    exact addressable_remove_iff hinv h handle
  | removeByIdentifier identifier =>
    cases hs
    simp only [RemovesUnshared, getServerConnectionById_eq_ok]
    cases hm : s.connections.mMapping identifier with
    | none =>
      have he : s.connections.removeServerConnectionById s.heap identifier =
          (s.connections, none) := by
        unfold removeServerConnectionById
        rw [hm]
      rw [he]
      refine ⟨fun _ p hp => ?_, fun _ => ?_⟩
      · cases hp
      · rwa [State.removed, Option.toList_none, List.append_nil]
    | some p =>
      obtain ⟨-, hid⟩ := hinv.sound.mapped identifier p hm
      rw [hinv.sound.removeById_some hm, ← hid, addressable_removed_iff hinv h]
      constructor
      · intro hun q hq
        rw [Option.some.injEq] at hq
        exact hq ▸ hun
      · intro hun
        exact hun p rfl
  | getHandleArray serverHandle =>
    cases hs
    refine iff_of_true ?_ trivial
    rintro identifier ⟨p, hp, hid⟩
    obtain ⟨q, hq⟩ := h identifier ⟨p, mem_getHandleArray.mp hp, hid⟩
    refine ⟨q, ?_⟩
    rw [getServerConnectionById_eq_ok] at hq ⊢
    simp only [getHandleArray_mMapping]
    exact hq

/-- **Every registered client stays addressable** exactly as long as no removal deletes one that
shares its identifier with another. -/
theorem addressable_iff_unshared (heap : Heap) (ops : List Op) :
    Always step Addressable (start heap) ops ↔ Along step RemovesUnshared (start heap) ops :=
  always_iff_along (fun _ _ _ h _ hs _ => inv_step h hs)
    (fun _ _ _ hinv h hs => addressable_step_iff hinv h hs) ops (inv_start heap)
    (addressable_start heap)

/-- Objects whose event handle is their address. -/
def ownHandles : Heap := fun p => { mSocket := p, hEvent := p, mIdentifier := [] }

/-- **Two clients named `"x"`**: when the second one leaves, the first can no longer be looked up.
-/
theorem namesake_not_addressable :
    ∃ t, run step (start ownHandles)
        [.add 0 [120], .add 1 [120], .removeByHandle 1] = some t ∧
      t.connections.mContainer = [0] ∧ (t.heap 0).mIdentifier = [120] ∧
        t.connections.getServerConnectionById [120] = .error "Failed to find client" ∧
        ¬ Addressable t := by
  refine ⟨_, rfl, rfl, rfl, rfl, fun h => ?_⟩
  obtain ⟨q, hq⟩ := h [120] ⟨0, List.mem_singleton_self _, rfl⟩
  cases hq

end C11Http.Windows.Lookup
