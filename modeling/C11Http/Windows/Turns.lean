import C11Http.Lib.Rotation
import C11Http.Windows.Lookup

/-! # The turns of the connections of the windows server

`getHandleArray` "rotates handles to prevent starvation of connections": a connection has its turn
when its event stands right behind that of the server. A run of the registry is watched for one
connection `c`, which stays registered; `turns` records for every call whether `c` has its turn, and
`N` bounds the registered connections.

A call moves the front of the vector to its end, and `c` has its turn when it is second and comes to
the front. A removal of the connection before it brings `c` to the front as well, but the next call
moves it to the end: its turn is lost (`turns_lost`). As long as that does not happen, every `N`
consecutive calls give `c` a turn (`fair_of_kept`). -/

namespace C11Http.Windows.Turns

open C11Http.Lib C11Http.Lib.Run Connections

/-- The registry, with what is known of one connection. -/
structure Watch where
  lookup : Lookup.State
  turns : List Bool
  moved : Bool

def watch (s : Lookup.State) : Watch := { lookup := s, turns := [], moved := false }

/-- `c` is at the front of the vector. -/
def Front (s : Lookup.State) (c : Ptr) : Prop := Rotation.First c s.connections.mContainer

/-- The event of `c` is the first that `getHandleArray` returns behind that of the server. -/
def Turn (s : Lookup.State) (serverHandle : Handle) (c : Ptr) : Prop :=
  (s.connections.getHandleArray s.heap serverHandle).2[1]? = some (s.heap c).hEvent

instance (s : Lookup.State) (c : Ptr) : Decidable (Front s c) := by unfold Front; infer_instance

instance (s : Lookup.State) (serverHandle : Handle) (c : Ptr) : Decidable (Turn s serverHandle c) :=
  by unfold Turn; infer_instance

/-- What is watched, when an operation leads from `w` to `t`. -/
def Watch.next (w : Watch) (c : Ptr) (t : Lookup.State) : Lookup.Op → Watch
  | .getHandleArray serverHandle =>
    { lookup := t, turns := w.turns ++ [decide (Turn w.lookup serverHandle c)], moved := false }
  | .add _ _ => { w with lookup := t }
  | _ => { w with lookup := t, moved := w.moved || decide (Front t c ∧ ¬ Front w.lookup c) }

/-- An operation that leaves `c` registered and no more than `N` connections. -/
def step (N : ℕ) (c : Ptr) (w : Watch) (op : Lookup.Op) : Option Watch :=
  match Lookup.step w.lookup op with
  | none => none
  | some t =>
    if c ∈ t.connections.mContainer ∧ t.connections.mContainer.length ≤ N then some (w.next c t op)
    else none

/-- No turn is lost: if a removal has brought `c` to the front, the next call finds it there alone.
-/
def Kept (w : Watch) : Lookup.Op → Prop
  | .getHandleArray _ => w.moved = true → w.lookup.connections.mContainer.length ≤ 1
  | _ => True

instance decidableKept (w : Watch) : ∀ op, Decidable (Kept w op)
  | .getHandleArray _ =>
    inferInstanceAs (Decidable (w.moved = true → w.lookup.connections.mContainer.length ≤ 1))
  | .add _ _ => .isTrue trivial
  | .removeByHandle _ => .isTrue trivial
  | .removeByIdentifier _ => .isTrue trivial

theorem step_some {N : ℕ} {c : Ptr} {w v : Watch} {op : Lookup.Op} (h : step N c w op = some v) :
    ∃ t, Lookup.step w.lookup op = some t ∧ c ∈ t.connections.mContainer ∧
      t.connections.mContainer.length ≤ N ∧ v = w.next c t op := by
  unfold step at h
  split at h
  · cases h
  · rename_i t ht
    split_ifs at h with hok
    cases h
    exact ⟨t, ht, hok.1, hok.2, rfl⟩

/-! ### The rotation of the vector -/

theorem getHandleArray_mContainer (heap : Heap) (c : Connections) (serverHandle : Handle) :
    (c.getHandleArray heap serverHandle).1.mContainer = Rotation.rotate c.mContainer := by
  unfold getHandleArray
  split
  · rename_i hc; rw [hc]; rfl
  · rename_i hc; rw [hc]; rfl

theorem getHandleArray_handles (heap : Heap) (c : Connections) (serverHandle : Handle) :
    (c.getHandleArray heap serverHandle).2 =
      serverHandle :: (Rotation.rotate c.mContainer).map fun p => (heap p).hEvent := by
  unfold getHandleArray
  split
  · rename_i hc; rw [hc]; rfl
  · rename_i hc; rw [hc]; rfl

/-- **The connection that has its turn** is at the front behind the rotation. -/
theorem turn_iff {s : Lookup.State} (h : Sound s.heap s.connections) {c : Ptr}
    (hc : c ∈ s.connections.mContainer) (serverHandle : Handle) :
    Turn s serverHandle c ↔ Rotation.First c (Rotation.rotate s.connections.mContainer) := by
  unfold Turn Rotation.First
  rw [getHandleArray_handles, List.getElem?_cons_succ, ← List.head?_eq_getElem?, List.head?_map]
  cases hl : Rotation.rotate s.connections.mContainer with
  | nil =>
    rw [← Rotation.mem_rotate, hl] at hc
    cases hc
  | cons p rest =>
    have hp : p ∈ s.connections.mContainer := by
      rw [← Rotation.mem_rotate, hl]
      exact List.mem_cons_self
    rw [List.head?_cons, Option.map_some, Option.some.injEq, Option.some.injEq]
    exact ⟨fun he => h.distinct.inj hp hc he, fun he => by rw [he]⟩

/-! ### Runs -/

/-- What holds as long as no turn is lost. -/
structure Inv (N : ℕ) (c : Ptr) (w : Watch) : Prop where
  lookup : Lookup.Inv w.lookup
  due : Rotation.Due N c w.lookup.connections.mContainer (Rotation.idle w.turns) w.moved
  fair : Rotation.Fair N w.turns

variable {N : ℕ} {c : Ptr} {w v : Watch}

theorem inv_watch {s : Lookup.State} (h : Lookup.Inv s) (hc : c ∈ s.connections.mContainer)
    (hN : s.connections.mContainer.length ≤ N) : Inv N c (watch s) where
  lookup := h
  due := Rotation.Due.start hc hN
  fair := Rotation.fair_nil ((List.length_pos_of_mem hc).trans_le hN)

/-- A vector of one connection is not changed by a rotation. -/
theorem rotate_alone {l : List Ptr} (hc : c ∈ l) (hl : l.length ≤ 1) :
    Rotation.First c (Rotation.rotate l) := by
  match l, hl with
  | [], _ => cases hc
  | [p], _ => exact congrArg some (List.mem_singleton.mp hc).symm

theorem Inv.getHandleArray (h : Inv N c w) {serverHandle : Handle}
    (hkept : Kept w (.getHandleArray serverHandle)) {t : Lookup.State} (ht : Lookup.Inv t)
    (hrot : t.connections.mContainer = Rotation.rotate w.lookup.connections.mContainer) :
    Inv N c (w.next c t (.getHandleArray serverHandle)) := by
  have hturn := turn_iff h.lookup.sound h.due.mem serverHandle
  have hdue : Rotation.Due N c t.connections.mContainer
      (Rotation.idle (w.turns ++ [decide (Turn w.lookup serverHandle c)])) false := by
    rw [hrot, Rotation.idle_concat]
    by_cases hfirst : Turn w.lookup serverHandle c
    · rw [decide_eq_true hfirst]
      exact h.due.turn (hturn.mp hfirst)
    · rw [decide_eq_false hfirst]
      refine h.due.rotate (fun hf => hfirst (hturn.mpr hf)) fun _ => ?_
      by_contra hmoved
      have halone := hkept (by simpa using hmoved)
      exact hfirst (hturn.mpr (rotate_alone h.due.mem halone))
  exact ⟨ht, hdue, Rotation.fair_concat h.fair hdue.waited_lt⟩

/-- A removal takes away one connection other than `c`, or none. -/
theorem Inv.removed (h : Inv N c w) {t : Lookup.State} (ht : Lookup.Inv t)
    (hc : c ∈ t.connections.mContainer) (hrem : t.connections.mContainer =
      w.lookup.connections.mContainer ∨ ∃ p ∈ w.lookup.connections.mContainer,
        t.connections.mContainer = w.lookup.connections.mContainer.erase p) :
    Inv N c { w with
      lookup := t
      moved := w.moved || decide (Front t c ∧ ¬ Front w.lookup c) } := by
  have hnd := h.lookup.sound.distinct.nodup
  refine ⟨ht, ?_, h.fair⟩
  rcases hrem with he | ⟨p, hp, he⟩
  · have hfront : ¬ (Front t c ∧ ¬ Front w.lookup c) := by
      rintro ⟨hf, hnf⟩
      unfold Front at hf hnf
      exact hnf (he ▸ hf)
    rw [he, decide_eq_false hfront, Bool.or_false]
    exact h.due
  · have hpc : p ≠ c := by
      rintro rfl
      rw [he] at hc
      exact hnd.not_mem_erase hc
    show Rotation.Due N c t.connections.mContainer _ _
    rw [he]
    refine h.due.erase hpc fun hm => ?_
    rw [Bool.or_eq_false_iff, decide_eq_false_iff_not, not_and_not_right] at hm
    exact ⟨hm.1, fun hf => hm.2 (by unfold Front; rwa [he])⟩

theorem inv_step {op : Lookup.Op} (h : Inv N c w) (hkept : Kept w op)
    (hs : step N c w op = some v) : Inv N c v := by
  obtain ⟨t, ht, hc, hN, rfl⟩ := step_some hs
  have hinv := Lookup.inv_step h.lookup ht
  cases op with
  | add client identifier =>
    obtain ⟨-, -, rfl⟩ := Lookup.step_add ht
    exact ⟨hinv, h.due.append client hN, h.fair⟩
  | removeByHandle handle =>
    refine h.removed hinv hc ?_
    cases ht
    rcases Lookup.removal_cases h.lookup.sound handle with he | ⟨p, hp, -, he⟩
    · rw [he]; exact Or.inl rfl
    · rw [he]; exact Or.inr ⟨p, hp, rfl⟩
  | removeByIdentifier identifier =>
    refine h.removed hinv hc ?_
    cases ht
    cases hm : w.lookup.connections.mMapping identifier with
    | none =>
      refine Or.inl ?_
      unfold removeServerConnectionById Lookup.State.removed
      rw [hm]
    | some p =>
      rw [h.lookup.sound.removeById_some hm]
      exact Or.inr ⟨p, (h.lookup.sound.mapped identifier p hm).1, rfl⟩
  | getHandleArray serverHandle =>
    refine h.getHandleArray hkept hinv ?_
    cases ht
    exact getHandleArray_mContainer _ _ _

/-- **Every `N` consecutive calls give `c` a turn**, as long as no turn of it is lost. -/
theorem fair_of_kept (heap : Heap) (before : List Lookup.Op) {s : Lookup.State}
    (hs : run Lookup.step (Lookup.start heap) before = some s) {c : Ptr}
    (hc : c ∈ s.connections.mContainer) {N : ℕ} (hN : s.connections.mContainer.length ≤ N)
    (ops : List Lookup.Op) (hkept : Along (step N c) Kept (watch s) ops) :
    Always (step N c) (fun w => Rotation.Fair N w.turns) (watch s) ops := by
  have hinv : Lookup.Inv s :=
    (always_of_inv (fun _ _ _ h hs => Lookup.inv_step h hs) before (Lookup.inv_start heap)).last hs
  have hrun : Always (step N c) (Inv N c) (watch s) ops :=
    always_of_along (fun _ _ _ h hk hs => inv_step h hk hs) (inv_watch hinv hc hN) hkept
  exact hrun.imp fun _ h => h.fair

/-- Two clients, and two calls: the second client has its turn, then the first. -/
theorem fair_pair : ∃ s, run Lookup.step (Lookup.start Lookup.ownHandles)
      [.add 0 [97], .add 1 [98]] = some s ∧
    Always (step 2 1) (fun w => Rotation.Fair 2 w.turns) (watch s)
      [.getHandleArray 9, .getHandleArray 9] :=
  ⟨_, rfl, fair_of_kept Lookup.ownHandles [.add 0 [97], .add 1 [98]] rfl (by decide) (by decide) _
    (by decide)⟩

/-- **A client that never has its turn**: each time it is second, the one before it leaves, and
another one comes. -/
theorem turns_lost : ∃ s, run Lookup.step (Lookup.start Lookup.ownHandles)
      [.add 0 [97], .add 1 [98]] = some s ∧ 1 ∈ s.connections.mContainer ∧
    ∃ w, run (step 2 1) (watch s)
        [.removeByHandle 0, .add 2 [99], .getHandleArray 9,
          .removeByHandle 2, .add 3 [100], .getHandleArray 9] = some w ∧
      ¬ Rotation.Fair 2 w.turns := by
  refine ⟨_, rfl, by decide, _, rfl, fun hfair => ?_⟩
  have hmem : true ∈ [false, false] := hfair [false, false] ⟨[], [], rfl⟩ rfl
  simp at hmem

end C11Http.Windows.Turns
