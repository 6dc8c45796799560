import C11Http.Lib.Run
import C11Http.Windows.Registry

/-! # The wait of the windows server

`performWaitForEvents` of `server/windows/Server.cpp` and its caller in single steps, beside another
thread that may call `shutdown` at any moment. `shutdown` sets `mHasBeenShutdown` and then removes
the connections, which the `removed` actions do. Completion routines, which run inside of the wait,
and what `waitForEvents` does with an event may change the registry; in the loop nothing else does.

Every way out of the loop of `performWaitForEvents` goes through the vector `handles`, which is
empty until the loop has been through its body. `Usable` says that the vector is only indexed in
range, that a handle that has been returned can be looked up unless the server has been shut down,
and that the `getServerConnection` behind the test in `waitForEvents` finds it. It holds exactly as
long as no `shutdown` comes between the first test of `waitForEvents` and the first one of
`performWaitForEvents`, and none removes the connection of the handle between the test behind the
call and the lookup (`usable_iff`). -/

namespace C11Http.Windows.Waiting

open C11Http.Lib.Run Connections

/-- What callbacks and handlers do to the registry. -/
inductive Change
  | add (client : Ptr) (identifier : Bytes)
  | removeByHandle (handle : Handle)
  | removeByIdentifier (identifier : Bytes)

/-- The place in the two functions: the tests of `waitForEvents`, `if(!mHasBeenShutdown)` behind the
call included; in `performWaitForEvents` the first test of its loop and the later ones, the wait,
and behind the loop the test and the index. -/
inductive Pc
  | loop
  | entered
  | testing
  | waiting
  | signaled (wait_rc : ℕ)
  | indexing (wait_rc : ℕ)
  | returned (handleId : Handle)
  | examining (handleId : Handle)
  | handling
  | left
  | done
  deriving DecidableEq

/-- `strayed` says that `handles` has been indexed out of range. -/
structure State where
  heap : Heap
  mConnections : Connections
  mHasBeenShutdown : Bool
  hEvent : Handle
  handles : List Handle
  strayed : Bool
  pc : Pc

namespace State

def goto (s : State) (pc : Pc) : State := { s with pc := pc }

/-- The heap and the registry behind a change. -/
def change (s : State) : Change → State
  | .add client identifier =>
    { s with
      heap := (s.mConnections.addServerConnection s.heap client identifier).1
      mConnections := (s.mConnections.addServerConnection s.heap client identifier).2 }
  | .removeByHandle handle =>
    { s with mConnections := (s.mConnections.removeServerConnection s.heap handle).1 }
  | .removeByIdentifier identifier =>
    { s with mConnections := (s.mConnections.removeServerConnectionById s.heap identifier).1 }

/-- `return handles[i]`. -/
def returnHandle (s : State) (i : ℕ) : State :=
  match s.handles[i]? with
  | none => { s with strayed := true }.goto .left
  | some handle => s.goto (.returned handle)

/-- The body of the loop, up to the wait. -/
def getHandleArray (s : State) : State :=
  { s with
    mConnections := (s.mConnections.getHandleArray s.heap s.hEvent).1
    handles := (s.mConnections.getHandleArray s.heap s.hEvent).2 }.goto .waiting

/-- The next step of the loop. A test of the loop of `performWaitForEvents` that finds the server
shut down is followed by another one, which finds the same. -/
def next (s : State) : Option State :=
  match s.pc with
  | .loop =>
    some (if s.mHasBeenShutdown then s.goto .done else { s with handles := [] }.goto .entered)
  | .entered => some (if s.mHasBeenShutdown then s.returnHandle 0 else s.getHandleArray)
  | .testing => some (if s.mHasBeenShutdown then s.returnHandle 0 else s.getHandleArray)
  | .signaled wait_rc =>
    some (if s.mHasBeenShutdown then s.returnHandle 0 else s.goto (.indexing wait_rc))
  | .indexing wait_rc => some (s.returnHandle wait_rc)
  | .returned handleId =>
    some (if s.mHasBeenShutdown then s.goto .loop else s.goto (.examining handleId))
  | .examining handleId =>
    some (if s.hEvent = handleId then s.goto .handling
      else
        match s.mConnections.getServerConnection s.heap handleId with
        | .error _ => s.goto .left
        | .ok _ => s.goto .handling)
  | _ => none

end State

/-- A step of the loop; what the wait returns, `WSA_WAIT_IO_COMPLETION` with what the completion
routines have done, an index, or an error; what is done with an event, which may throw; and the
steps of `shutdown`. -/
inductive Action
  | next
  | ioCompletion (changes : List Change)
  | signaled (wait_rc : ℕ)
  | waitFailed
  | handled (changes : List Change)
  | throws (changes : List Change)
  | shutdown
  | removed (handle : Handle)

def step (s : State) : Action → Option State
  | .next => s.next
  | .ioCompletion changes =>
    if s.pc = .waiting then some ((changes.foldl State.change s).goto .testing) else none
  | .signaled wait_rc =>
    if s.pc = .waiting ∧ wait_rc < s.handles.length then some (s.goto (.signaled wait_rc)) else none
  | .waitFailed => if s.pc = .waiting then some (s.goto .left) else none
  | .handled changes =>
    if s.pc = .handling then some ((changes.foldl State.change s).goto .loop) else none
  | .throws changes =>
    if s.pc = .handling then some ((changes.foldl State.change s).goto .left) else none
  | .shutdown => some { s with mHasBeenShutdown := true }
  | .removed handle =>
    if s.mHasBeenShutdown then some (s.change (.removeByHandle handle)) else none

/-- The server when `waitForEvents` is called. -/
def start (heap : Heap) (mConnections : Connections) (hEvent : Handle) (mHasBeenShutdown : Bool) :
    State :=
  { heap := heap, mConnections := mConnections, mHasBeenShutdown := mHasBeenShutdown
    hEvent := hEvent, handles := [], strayed := false, pc := .loop }

/-- The handle is the one of the server, or `getServerConnection` finds it. -/
def Found (s : State) (handleId : Handle) : Prop := handleId = s.hEvent ∨
  ∃ connection, s.mConnections.getServerConnection s.heap handleId = .ok connection

/-- **The handle that is returned is usable**, and none is read out of range. A handle is examined
only if the server was not shut down when it was returned, and then its lookup does not throw. -/
structure Usable (s : State) : Prop where
  inRange : s.strayed = false
  returned : ∀ handleId, s.pc = .returned handleId → s.mHasBeenShutdown = false → Found s handleId
  examined : ∀ handleId, s.pc = .examining handleId → Found s handleId

/-- The server has not been shut down at the first test of `performWaitForEvents`, and a `shutdown`
does not remove the only connection of a handle that is about to be looked up. -/
def InTime (s : State) : Action → Prop
  | .next => s.pc = .entered → s.mHasBeenShutdown = false
  | .removed handle => s.pc = .examining handle → handle = s.hEvent ∨
      1 < s.mConnections.mContainer.countP (serverConnectionFinder s.heap handle)
  | _ => True

instance (s : State) (a : Action) : Decidable (InTime s a) := by
  cases a <;> unfold InTime <;> infer_instance

/-! ### The invariant -/

/-- The vector holds the event of the server and those of the registered connections. -/
def Current (s : State) : Prop :=
  s.handles = s.hEvent :: s.mConnections.mContainer.map fun p => (s.heap p).hEvent

/-- What is known of `handles` at a place of the loop. -/
def Known (s : State) : Pc → Prop
  | .entered => s.handles = []
  | .testing => s.handles ≠ []
  | .waiting => s.handles ≠ [] ∧ (s.mHasBeenShutdown = false → Current s)
  | .signaled wait_rc => wait_rc < s.handles.length ∧ (s.mHasBeenShutdown = false → Current s)
  | .indexing wait_rc => wait_rc < s.handles.length ∧ (s.mHasBeenShutdown = false → Current s)
  | _ => True

def Inv (s : State) : Prop := Known s s.pc

variable {s t : State} {handleId : Handle}

theorem getServerConnection_isOk_iff {heap : Heap} {c : Connections} {handle : Handle} :
    (∃ p, c.getServerConnection heap handle = .ok p) ↔
      ∃ p ∈ c.mContainer, (heap p).hEvent = handle := by
  constructor
  · rintro ⟨p, hp⟩
    exact ⟨p, getServerConnection_ok hp⟩
  · rintro ⟨p, hp, he⟩
    have hfound := List.find?_isSome.mpr ⟨p, hp, serverConnectionFinder_eq_true.mpr he⟩
    obtain ⟨q, hq⟩ := Option.isSome_iff_exists.mp hfound
    exact ⟨q, getServerConnection_eq_ok.mpr hq⟩

/-- A handle of the vector is that of the server or finds a connection. -/
theorem Current.found (h : Current s) {handleId : Handle} (hmem : handleId ∈ s.handles) :
    Found s handleId := by
  unfold Current at h
  rw [h, List.mem_cons] at hmem
  refine hmem.imp id fun hmap => getServerConnection_isOk_iff.mpr ?_
  obtain ⟨p, hp, he⟩ := List.mem_map.mp hmap
  exact ⟨p, hp, he⟩

/-- What a removal leaves in the registry. -/
theorem removed_mContainer (heap : Heap) (c : Connections) (handle : Handle) :
    (c.removeServerConnection heap handle).1.mContainer =
      c.mContainer.eraseP (serverConnectionFinder heap handle) := by
  unfold removeServerConnection
  split
  · rename_i hnone
    exact (List.eraseP_of_forall_not (List.find?_eq_none.mp hnone)).symm
  · rfl

/-- Without the first element that is looked for there is another one, if there were two. -/
theorem exists_eraseP_iff {α : Type*} (f : α → Bool) (l : List α) :
    (∃ a ∈ l.eraseP f, f a = true) ↔ 1 < l.countP f := by
  rw [← List.countP_pos_iff]
  by_cases h : ∃ a ∈ l, f a = true
  · obtain ⟨a, ha, hfa⟩ := h
    obtain ⟨b, l₁, l₂, -, hb, hl, herase⟩ := List.exists_of_eraseP ha hfa
    rw [herase, hl, List.countP_append, List.countP_append, List.countP_cons, if_pos hb]
    omega
  · push Not at h
    rw [List.eraseP_of_forall_not h, List.countP_eq_zero.mpr h]
    decide

/-- **A removal** keeps what is found, but for a handle of which it takes the only connection. -/
theorem found_removed_iff (h : Found s handleId) (handle : Handle) :
    Found (s.change (.removeByHandle handle)) handleId ↔ (handleId = handle → handle = s.hEvent ∨
      1 < s.mConnections.mContainer.countP (serverConnectionFinder s.heap handle)) := by
  have hiff : Found (s.change (.removeByHandle handle)) handleId ↔ handleId = s.hEvent ∨
      ∃ p ∈ s.mConnections.mContainer.eraseP (serverConnectionFinder s.heap handle),
        (s.heap p).hEvent = handleId := by
    rw [← removed_mContainer]
    exact or_congr_right getServerConnection_isOk_iff
  rw [hiff]
  by_cases he : handleId = handle
  · subst he
    simp only [← serverConnectionFinder_eq_true, exists_eraseP_iff, true_imp_iff]
  · refine iff_of_true ?_ fun hsame => absurd hsame he
    refine h.imp_right fun hfound => ?_
    obtain ⟨p, hp, hev⟩ := getServerConnection_isOk_iff.mp hfound
    refine ⟨p, (List.mem_eraseP_of_neg fun hfinds => he ?_).mpr hp, hev⟩
    rw [← hev]
    exact serverConnectionFinder_eq_true.mp hfinds

theorem current_getHandleArray (s : State) : Current s.getHandleArray := by
  show (s.mConnections.getHandleArray s.heap s.hEvent).2 = _ :: List.map _
    (s.mConnections.getHandleArray s.heap s.hEvent).1.mContainer
  unfold Connections.getHandleArray
  split
  · rename_i hnil
    rw [hnil]
    rfl
  · rfl

/-! ### The steps -/

/-- What a step does that returns `handles[i]`. -/
theorem returnHandle_some {i : ℕ} (h : i < s.handles.length) :
    ∃ handle ∈ s.handles, s.returnHandle i = s.goto (.returned handle) := by
  refine ⟨s.handles[i], List.getElem_mem h, ?_⟩
  unfold State.returnHandle
  rw [List.getElem?_eq_getElem h]

theorem returnHandle_nil {i : ℕ} (h : s.handles = []) : (s.returnHandle i).strayed = true := by
  unfold State.returnHandle
  rw [h]
  rfl

theorem inv_goto_left (s : State) : Inv (s.goto .left) := trivial

theorem inv_returnHandle (s : State) (i : ℕ) : Inv (s.returnHandle i) := by
  unfold State.returnHandle
  split <;> exact trivial

theorem inv_getHandleArray (s : State) : Inv s.getHandleArray := by
  have hcur := current_getHandleArray s
  refine ⟨fun hnil => ?_, fun _ => hcur⟩
  unfold Current at hcur
  rw [hnil] at hcur
  cases hcur

/-- The place stays where it is, and the vector with it. -/
theorem Inv.shut (h : Inv s) (hhandles : t.handles = s.handles) (hpc : t.pc = s.pc)
    (hshut : t.mHasBeenShutdown = true) : Inv t := by
  unfold Inv at h ⊢
  rw [hpc]
  cases hs : s.pc with
  | entered => rw [hs] at h; exact hhandles.trans h
  | testing => rw [hs] at h; exact fun hnil => h (hhandles.symm.trans hnil)
  | waiting =>
    rw [hs] at h
    exact ⟨fun hnil => h.1 (hhandles.symm.trans hnil), fun hno => by rw [hshut] at hno; cases hno⟩
  | signaled wait_rc =>
    rw [hs] at h
    exact ⟨hhandles ▸ h.1, fun hno => by rw [hshut] at hno; cases hno⟩
  | indexing wait_rc =>
    rw [hs] at h
    exact ⟨hhandles ▸ h.1, fun hno => by rw [hshut] at hno; cases hno⟩
  | _ => trivial

@[simp] theorem change_handles (s : State) (k : Change) : (s.change k).handles = s.handles := by
  cases k <;> rfl

@[simp] theorem change_strayed (s : State) (k : Change) : (s.change k).strayed = s.strayed := by
  cases k <;> rfl

theorem foldl_change (ks : List Change) (s : State) :
    (ks.foldl State.change s).handles = s.handles ∧
      (ks.foldl State.change s).strayed = s.strayed := by
  induction ks generalizing s with
  | nil => exact ⟨rfl, rfl⟩
  | cons k ks ih =>
    obtain ⟨hh, hs⟩ := ih (s.change k)
    exact ⟨hh.trans (change_handles s k), hs.trans (change_strayed s k)⟩

/-- What the next step of the loop can be. -/
inductive Next (s : State) : State → Prop
  | enters (hpc : s.pc = .loop) : Next s ({ s with handles := [] }.goto .entered)
  | waits (hpc : s.pc = .entered ∨ s.pc = .testing) (hshut : s.mHasBeenShutdown = false) :
      Next s s.getHandleArray
  | late (hpc : s.pc = .entered) (hshut : s.mHasBeenShutdown = true) : Next s (s.returnHandle 0)
  | ends (hpc : s.pc = .testing ∨ ∃ wait_rc, s.pc = .signaled wait_rc)
      (hshut : s.mHasBeenShutdown = true) : Next s (s.returnHandle 0)
  | wakes (wait_rc : ℕ) (hpc : s.pc = .signaled wait_rc) : Next s (s.goto (.indexing wait_rc))
  | indexes (wait_rc : ℕ) (hpc : s.pc = .indexing wait_rc) : Next s (s.returnHandle wait_rc)
  | examines (handleId : Handle) (hpc : s.pc = .returned handleId)
      (hshut : s.mHasBeenShutdown = false) : Next s (s.goto (.examining handleId))
  | leaves (pc : Pc) (hs : s.pc ≠ .entered)
      (hpc : pc = .loop ∨ pc = .done ∨ pc = .left ∨ pc = .handling) : Next s (s.goto pc)

theorem next_cases (h : s.next = some t) : Next s t := by
  unfold State.next at h
  cases hpc : s.pc with
  | loop =>
    simp only [hpc] at h
    cases h
    split_ifs
    · exact .leaves _ (by rw [hpc]; simp) (by simp)
    · exact .enters hpc
  | entered =>
    simp only [hpc] at h
    cases h
    split_ifs with hshut
    · exact .late hpc hshut
    · exact .waits (Or.inl hpc) (by simpa using hshut)
  | testing =>
    simp only [hpc] at h
    cases h
    split_ifs with hshut
    · exact .ends (Or.inl hpc) hshut
    · exact .waits (Or.inr hpc) (by simpa using hshut)
  | signaled wait_rc =>
    simp only [hpc] at h
    cases h
    split_ifs with hshut
    · exact .ends (Or.inr ⟨wait_rc, hpc⟩) hshut
    · exact .wakes wait_rc hpc
  | indexing wait_rc =>
    simp only [hpc] at h
    cases h
    exact .indexes wait_rc hpc
  | returned handleId =>
    simp only [hpc] at h
    cases h
    split_ifs with hshut
    · exact .leaves _ (by rw [hpc]; simp) (by simp)
    · exact .examines handleId hpc (by simpa using hshut)
  | examining handleId =>
    simp only [hpc] at h
    cases h
    split_ifs
    · exact .leaves _ (by rw [hpc]; simp) (by simp)
    · split <;> exact .leaves _ (by rw [hpc]; simp) (by simp)
  | waiting => simp only [hpc] at h; cases h
  | handling => simp only [hpc] at h; cases h
  | left => simp only [hpc] at h; cases h
  | done => simp only [hpc] at h; cases h

/-- **A step keeps what is known of the vector.** -/
theorem inv_step {a : Action} (h : Inv s) (hs : step s a = some t) : Inv t := by
  cases a with
  | next =>
    cases next_cases hs with
    | enters hpc => exact rfl
    | waits hpc hshut => exact inv_getHandleArray s
    | late hpc hshut => exact inv_returnHandle s 0
    | ends hpc hshut => exact inv_returnHandle s 0
    | wakes wait_rc hpc =>
      unfold Inv at h
      rw [hpc] at h
      exact h
    | indexes wait_rc hpc => exact inv_returnHandle s wait_rc
    | examines handleId hpc hshut => exact trivial
    | leaves pc hne hpc => rcases hpc with rfl | rfl | rfl | rfl <;> exact trivial
  | ioCompletion changes =>
    simp only [step] at hs
    split_ifs at hs with hpc
    cases hs
    unfold Inv at h
    rw [hpc] at h
    exact fun hnil => h.1 ((foldl_change changes s).1.symm.trans hnil)
  | signaled wait_rc =>
    simp only [step] at hs
    split_ifs at hs with hpc
    cases hs
    unfold Inv at h
    rw [hpc.1] at h
    exact ⟨hpc.2, h.2⟩
  | waitFailed =>
    simp only [step] at hs
    split_ifs at hs
    cases hs
    exact inv_goto_left s
  | handled changes =>
    simp only [step] at hs
    split_ifs at hs
    cases hs
    exact trivial
  | throws changes =>
    simp only [step] at hs
    split_ifs at hs
    cases hs
    exact inv_goto_left _
  | shutdown =>
    cases hs
    exact h.shut rfl rfl rfl
  | removed handle =>
    simp only [step] at hs
    split_ifs at hs with hshut
    cases hs
    exact h.shut rfl rfl hshut

/-- At a place behind which no handle has been returned there is nothing to find. -/
theorem usable_of_not_returned (hstrayed : t.strayed = false)
    (hpc : ∀ handleId, t.pc ≠ .returned handleId ∧ t.pc ≠ .examining handleId) : Usable t :=
  ⟨hstrayed, fun handleId hret => absurd hret (hpc handleId).1,
    fun handleId hexam => absurd hexam (hpc handleId).2⟩

/-- Returning a handle of the vector. -/
theorem usable_returnHandle {i : ℕ} (hs : s.strayed = false) (hi : i < s.handles.length)
    (hcur : s.mHasBeenShutdown = false → Current s) : Usable (s.returnHandle i) := by
  obtain ⟨handle, hmem, he⟩ := returnHandle_some hi
  rw [he]
  refine ⟨hs, fun handleId hret hshut => ?_, fun _ hexam => by cases hexam⟩
  obtain rfl : handle = handleId := Pc.returned.inj hret
  exact (hcur hshut).found hmem

/-- **One step**: it is usable exactly when no shutdown comes at one of the two places. -/
theorem usable_step_iff {a : Action} (h : Inv s) (hu : Usable s) (hs : step s a = some t) :
    Usable t ↔ InTime s a := by
  have hgoto : ∀ (u : State) (pc : Pc), u.strayed = false → (∀ handleId, pc ≠ .returned handleId ∧
      pc ≠ .examining handleId) → Usable (u.goto pc) := fun u pc hstr hpc =>
    usable_of_not_returned hstr hpc
  have hfold : ∀ (ks : List Change) (pc : Pc), (∀ handleId, pc ≠ .returned handleId ∧
      pc ≠ .examining handleId) → Usable ((ks.foldl State.change s).goto pc) :=
    fun ks pc hpc => hgoto _ pc ((foldl_change ks s).2.trans hu.inRange) hpc
  cases a with
  | next =>
    unfold Inv at h
    have hnot : s.pc ≠ .entered → InTime s .next := fun hne hpc => absurd hpc hne
    cases next_cases hs with
    | enters hpc => exact iff_of_true (hgoto _ _ hu.inRange (by simp)) (hnot (by rw [hpc]; decide))
    | waits hpc hshut => exact iff_of_true (hgoto _ _ hu.inRange (by simp)) fun _ => hshut
    | late hpc hshut =>
      rw [hpc] at h
      refine iff_of_false (fun ht => ?_) fun hin => ?_
      · exact Bool.false_ne_true (ht.inRange.symm.trans (returnHandle_nil h))
      · exact Bool.false_ne_true ((hin hpc).symm.trans hshut)
    | ends hpc hshut =>
      have hlen : 0 < s.handles.length := by
        rcases hpc with hpc | ⟨wait_rc, hpc⟩
        · rw [hpc] at h
          exact List.length_pos_of_ne_nil h
        · rw [hpc] at h
          exact (Nat.zero_le _).trans_lt h.1
      refine iff_of_true (usable_returnHandle hu.inRange hlen fun hno => ?_) (hnot ?_)
      · rw [hshut] at hno
        cases hno
      · rcases hpc with hpc | ⟨wait_rc, hpc⟩ <;> rw [hpc] <;> simp
    | wakes wait_rc hpc =>
      exact iff_of_true (hgoto _ _ hu.inRange (by simp)) (hnot (by rw [hpc]; simp))
    | indexes wait_rc hpc =>
      rw [hpc] at h
      exact iff_of_true (usable_returnHandle hu.inRange h.1 h.2) (hnot (by rw [hpc]; simp))
    | examines handleId hpc hshut =>
      refine iff_of_true ⟨hu.inRange, fun _ hret => (by cases hret), fun handleId' hexam => ?_⟩
        (hnot (by rw [hpc]; simp))
      obtain rfl := Pc.examining.inj hexam
      exact hu.returned handleId hpc hshut
    | leaves pc hne hpc =>
      refine iff_of_true (hgoto _ _ hu.inRange ?_) (hnot hne)
      rcases hpc with rfl | rfl | rfl | rfl <;> simp
  | ioCompletion changes =>
    simp only [step] at hs
    split_ifs at hs
    cases hs
    exact iff_of_true (hfold changes _ (by simp)) trivial
  | signaled wait_rc =>
    simp only [step] at hs
    split_ifs at hs
    cases hs
    exact iff_of_true (hgoto _ _ hu.inRange (by simp)) trivial
  | waitFailed =>
    simp only [step] at hs
    split_ifs at hs
    cases hs
    exact iff_of_true (hgoto _ _ hu.inRange (by simp)) trivial
  | handled changes =>
    simp only [step] at hs
    split_ifs at hs
    cases hs
    exact iff_of_true (hfold changes _ (by simp)) trivial
  | throws changes =>
    simp only [step] at hs
    split_ifs at hs
    cases hs
    exact iff_of_true (hfold changes _ (by simp)) trivial
  | shutdown =>
    cases hs
    exact iff_of_true ⟨hu.inRange, fun _ _ hno => (by cases hno), hu.examined⟩ trivial
  | removed handle =>
    simp only [step] at hs
    split_ifs at hs with hshut
    cases hs
    have hnot : ∀ handleId, s.pc = .returned handleId → s.mHasBeenShutdown = false →
        Found (s.change (.removeByHandle handle)) handleId := fun _ _ hno =>
      absurd (hshut.symm.trans hno) (by decide)
    by_cases hexam : ∃ handleId, s.pc = .examining handleId
    · -- the handle that is about to be looked up
      obtain ⟨handleId, hexam⟩ := hexam
      have hiff := found_removed_iff (hu.examined handleId hexam) handle
      have hintime : InTime s (.removed handle) ↔ (handleId = handle → handle = s.hEvent ∨
          1 < s.mConnections.mContainer.countP (serverConnectionFinder s.heap handle)) := by
        simp only [InTime, hexam, Pc.examining.injEq]
      rw [hintime, ← hiff]
      refine ⟨fun ht => ht.examined handleId hexam, fun hfound => ⟨hu.inRange, hnot, ?_⟩⟩
      intro handleId' hexam'
      obtain rfl : handleId = handleId' := Pc.examining.inj (hexam.symm.trans hexam')
      exact hfound
    · refine iff_of_true ⟨hu.inRange, hnot, fun handleId hpc => ?_⟩ fun hpc => ?_
      · exact absurd ⟨handleId, hpc⟩ hexam
      · exact absurd ⟨handle, hpc⟩ hexam

/-- **Every handle that is returned is usable** exactly in the runs in which no `shutdown` comes
between the first test of `waitForEvents` and the first one of `performWaitForEvents`, and none
removes the only connection of the handle between the test behind the call and the lookup. -/
theorem usable_iff (heap : Heap) (mConnections : Connections) (hEvent : Handle)
    (mHasBeenShutdown : Bool) (as : List Action) :
    Always step Usable (start heap mConnections hEvent mHasBeenShutdown) as ↔
      Along step InTime (start heap mConnections hEvent mHasBeenShutdown) as :=
  always_iff_along (I := Inv) (fun _ _ _ h _ hs _ => inv_step h hs)
    (fun _ _ _ h hu hs => usable_step_iff h hu hs) as trivial
    (usable_of_not_returned rfl fun _ => ⟨Pc.noConfusion, Pc.noConfusion⟩)

/-- Connections whose event is their address. -/
def ownEvents : Heap := fun p => { mSocket := p, hEvent := p, mIdentifier := [] }

/-- **A `shutdown` between the two tests**: the first handle of an empty vector is returned, also
when clients are registered; and one between the test behind the call and the lookup of a handle
that was returned before it: the lookup throws. -/
theorem shutdown_strays :
    (∃ s, run step (start ownEvents { empty with mContainer := [1, 2] } 9 false)
        [.next, .shutdown, .next] = some s ∧ s.handles = [] ∧ s.strayed = true ∧ ¬ Usable s) ∧
      ∃ s, run step (start ownEvents { empty with mContainer := [1] } 9 false)
          [.next, .next, .signaled 1, .next, .next, .next, .shutdown, .removed 1] = some s ∧
        s.pc = .examining 1 ∧ s.next.map State.pc = some .left ∧ ¬ Usable s := by
  refine ⟨⟨_, rfl, rfl, rfl, fun h => Bool.false_ne_true (h.inRange.symm.trans rfl)⟩,
    _, rfl, rfl, rfl, fun h => ?_⟩
  rcases h.examined 1 rfl with hown | ⟨connection, hfound⟩
  · exact absurd hown (by decide)
  · cases hfound

end C11Http.Windows.Waiting
