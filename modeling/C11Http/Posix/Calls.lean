import C11Http.Posix.Loop

/-! # What calls can change

`Called s t`: the server `t` comes from `s` by calls of `send`, `broadcast` and `shutdown`, and by
callbacks that make only such calls. They leave the registry, the sockets and the identifiers of the
objects and the place in the loop alone; they only add to the write set, and only sockets of
connections that are registered or in the map; where they touch a queue its socket is watched; they
close no descriptor but that of the listening socket; and their events are none of a receive, of a
delivery or of a deletion. -/

namespace C11Http.Posix

open Connections

/-- The bytes received on a descriptor. -/
def received (fd : Fd) : Event → Option Bytes
  | .received fd' data => if fd' = fd then some data else none
  | _ => none

/-- The payload of a `receiveComplete` for a connection. -/
def payload (p : Ptr) : Event → Option Bytes
  | .receiveComplete p' _ data => if p' = p then some data else none
  | _ => none

/-- The deliveries of `connected`. -/
def connectedTo : Event → Option (Ptr × Bytes)
  | .connected p identifier => some (p, identifier)
  | _ => none

/-- The objects deleted. -/
def deletedBy : Event → Option Ptr
  | .deleted p => some p
  | _ => none

/-- The events of calls and of what becomes of a callback. -/
def OfCall (mConnectSocket : Fd) : Event → Prop
  | .queued _ _ => True
  | .threw => True
  | .closed fd => fd = mConnectSocket
  | _ => False

structure Called (s t : Server) : Prop where
  mConnections : t.mConnections = s.mConnections
  mConnectSocket : t.mConnectSocket = s.mConnectSocket
  mCallback : t.mCallback = s.mCallback
  mWakeupPipe : t.mWakeupPipe = s.mWakeupPipe
  nextPtr : t.nextPtr = s.nextPtr
  pc : t.pc = s.pc
  mSocket : ∀ p, (t.heap p).mSocket = (s.heap p).mSocket
  mIdentifier : ∀ p, (t.heap p).mIdentifier = (s.heap p).mIdentifier
  watches : s.mMasterWrite ⊆ t.mMasterWrite
  watched : ∀ fd ∈ t.mMasterWrite, fd ∈ s.mMasterWrite ∨
    ∃ p, s.mConnections.Reached p ∧ (s.heap p).mSocket = fd
  touched : ∀ p, (t.heap p).mOutgoingBytes = (s.heap p).mOutgoingBytes ∨
    (s.heap p).mSocket ∈ t.mMasterWrite
  closes : ∀ fd ∈ s.openFds, fd ≠ s.mConnectSocket → fd ∈ t.openFds
  opens : t.openFds ⊆ s.openFds
  trace : ∃ es, t.trace = s.trace ++ es ∧ ∀ e ∈ es, OfCall s.mConnectSocket e

namespace Called

theorem refl (s : Server) : Called s s where
  mConnections := rfl
  mConnectSocket := rfl
  mCallback := rfl
  mWakeupPipe := rfl
  nextPtr := rfl
  pc := rfl
  mSocket _ := rfl
  mIdentifier _ := rfl
  watches := Finset.Subset.refl _
  watched _ h := Or.inl h
  touched _ := Or.inl rfl
  closes _ h _ := h
  opens := Finset.Subset.refl _
  trace := ⟨[], by simp, by simp⟩

theorem trans {s t u : Server} (h : Called s t) (h' : Called t u) : Called s u where
  mConnections := h'.mConnections.trans h.mConnections
  mConnectSocket := h'.mConnectSocket.trans h.mConnectSocket
  mCallback := h'.mCallback.trans h.mCallback
  mWakeupPipe := h'.mWakeupPipe.trans h.mWakeupPipe
  nextPtr := h'.nextPtr.trans h.nextPtr
  pc := h'.pc.trans h.pc
  mSocket p := (h'.mSocket p).trans (h.mSocket p)
  mIdentifier p := (h'.mIdentifier p).trans (h.mIdentifier p)
  watches := h.watches.trans h'.watches
  watched fd hfd := by
    rcases h'.watched fd hfd with hfd | ⟨p, hp, rfl⟩
    · exact h.watched fd hfd
    · rw [h.mConnections] at hp
      exact Or.inr ⟨p, hp, (h.mSocket p).symm⟩
  touched p := by
    rcases h'.touched p with hp' | hp'
    · rcases h.touched p with hp | hp
      · exact Or.inl (hp'.trans hp)
      · exact Or.inr (h'.watches hp)
    · rw [h.mSocket p] at hp'
      exact Or.inr hp'
  closes fd hfd hne := h'.closes fd (h.closes fd hfd hne) (by rw [h.mConnectSocket]; exact hne)
  opens := h'.opens.trans h.opens
  trace := by
    obtain ⟨es, he, hes⟩ := h.trace
    obtain ⟨es', he', hes'⟩ := h'.trace
    refine ⟨es ++ es', by rw [he', he, List.append_assoc], fun e hmem => ?_⟩
    rcases List.mem_append.mp hmem with hmem | hmem
    · exact hes e hmem
    · rw [h.mConnectSocket] at hes'
      exact hes' e hmem

/-- An event that no call has, such as a delivery, is read off the trace as before. -/
theorem filterMap_trace {s t : Server} (h : Called s t) {β : Type} {f : Event → Option β}
    (hf : ∀ e, OfCall s.mConnectSocket e → f e = none) :
    t.trace.filterMap f = s.trace.filterMap f := by
  obtain ⟨es, he, hes⟩ := h.trace
  have hnil : es.filterMap f = [] := List.filterMap_eq_nil_iff.mpr fun e hmem => hf e (hes e hmem)
  rw [he, List.filterMap_append, hnil, List.append_nil]

theorem received_trace {s t : Server} (h : Called s t) (fd : Fd) :
    t.trace.filterMap (received fd) = s.trace.filterMap (received fd) :=
  h.filterMap_trace fun e he => by cases e <;> first | rfl | exact he.elim

theorem payload_trace {s t : Server} (h : Called s t) (p : Ptr) :
    t.trace.filterMap (payload p) = s.trace.filterMap (payload p) :=
  h.filterMap_trace fun e he => by cases e <;> first | rfl | exact he.elim

theorem connectedTo_trace {s t : Server} (h : Called s t) :
    t.trace.filterMap connectedTo = s.trace.filterMap connectedTo :=
  h.filterMap_trace fun e he => by cases e <;> first | rfl | exact he.elim

theorem deletedBy_trace {s t : Server} (h : Called s t) :
    t.trace.filterMap deletedBy = s.trace.filterMap deletedBy :=
  h.filterMap_trace fun e he => by cases e <;> first | rfl | exact he.elim

end Called

namespace Server

theorem called_performWakeup (s : Server) : Called s s.performWakeup := by
  have h := Called.refl s
  exact { h with }

theorem called_sendConnection {s : Server} {p : Ptr} (hp : s.mConnections.Reached p)
    (data : Bytes) : Called s (s.sendConnection data p) where
  mConnections := rfl
  mConnectSocket := rfl
  mCallback := rfl
  mWakeupPipe := rfl
  nextPtr := rfl
  pc := rfl
  mSocket q := by
    rcases eq_or_ne q p with rfl | hq
    · simp [sendConnection]
    · simp [sendConnection, Function.update_of_ne hq]
  mIdentifier q := by
    rcases eq_or_ne q p with rfl | hq
    · simp [sendConnection]
    · simp [sendConnection, Function.update_of_ne hq]
  watches := Finset.subset_insert _ _
  watched fd hfd := by
    rcases Finset.mem_insert.mp hfd with rfl | hfd
    · exact Or.inr ⟨p, hp, rfl⟩
    · exact Or.inl hfd
  touched q := by
    rcases eq_or_ne q p with rfl | hq
    · exact Or.inr (Finset.mem_insert_self _ _)
    · exact Or.inl (by simp [sendConnection, Function.update_of_ne hq])
  closes _ h _ := h
  opens := Finset.Subset.refl _
  trace := ⟨[.queued p data], rfl, by simp [OfCall]⟩

theorem called_send (s : Server) (data identifier : Bytes) :
    Called s (s.send data identifier).1 := by
  unfold send
  split
  · exact Called.refl s
  · rename_i p hp
    have hmap := getServerConnectionById_eq_ok.mp hp
    exact (called_sendConnection (Or.inr ⟨identifier, hmap⟩) data).trans (called_performWakeup _)

theorem called_foldl_send (data : Bytes) : ∀ (ps : List Ptr) (s : Server),
    (∀ p ∈ ps, s.mConnections.Reached p) →
      Called s (ps.foldl (fun s p => s.sendConnection data p) s)
  | [], s, _ => Called.refl s
  | p :: ps, s, h =>
    (called_sendConnection (h p (by simp)) data).trans
      (called_foldl_send data ps _ fun q hq => h q (by simp [hq]))

theorem called_broadcast (s : Server) (data : Bytes) : Called s (s.broadcast data) :=
  (called_foldl_send data _ s fun _ hp => Or.inl hp).trans (called_performWakeup _)

theorem called_shutdown (s : Server) : Called s s.shutdown := by
  have h := Called.refl s
  exact { h with
    closes := fun fd hfd hne => Finset.mem_erase.mpr ⟨hne, hfd⟩
    opens := Finset.erase_subset _ _
    trace := ⟨[.closed s.mConnectSocket], rfl, by simp [OfCall]⟩ }

theorem called_call (s : Server) (c : Call) : Called s (s.call c) := by
  cases c with
  | send data identifier => exact called_send s data identifier
  | broadcast data => exact called_broadcast s data
  | shutdown => exact called_shutdown s

theorem called_calls : ∀ (cs : List Call) (s : Server), Called s (cs.foldl call s)
  | [], s => Called.refl s
  | c :: cs, s => (called_call s c).trans (called_calls cs _)

/-- **A reaction of a callback changes what calls can change.** -/
theorem called_react (s : Server) (r : Reaction Call) : Called s (s.react r) := by
  have h := called_calls r.calls s
  have hthrew : Called (r.calls.foldl call s) ((r.calls.foldl call s).record [.threw]) :=
    { Called.refl (r.calls.foldl call s) with trace := ⟨[.threw], rfl, by simp [OfCall]⟩ }
  unfold react
  cases r.outcome with
  | returns => exact h
  | runtimeError => exact h.trans hthrew
  | other => exact h.trans hthrew

end Server

/-- The same registry, over objects with the same sockets. -/
structure Alike (s t : Server) : Prop where
  mConnections : t.mConnections = s.mConnections
  mCallback : t.mCallback = s.mCallback
  mSocket : ∀ p, (t.heap p).mSocket = (s.heap p).mSocket

theorem Alike.trans {s t u : Server} (h : Alike s t) (h' : Alike t u) : Alike s u :=
  ⟨h'.mConnections.trans h.mConnections, h'.mCallback.trans h.mCallback,
    fun p => (h'.mSocket p).trans (h.mSocket p)⟩

theorem Alike.of_called {s t : Server} (h : Called s t) : Alike s t :=
  ⟨h.mConnections, h.mCallback, h.mSocket⟩

end C11Http.Posix
