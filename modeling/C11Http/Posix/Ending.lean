import C11Http.Posix.Pass

/-! # How the loop of the posix server ends

`waitForEvents` runs while the server has not been shut down. A `shutdown`, between two passes or by
a callback in the middle of one, is never taken back, so that the pass under way is the last: from
any state in which the server has been shut down the loop makes at most the steps this pass still
has, whatever is ready and whatever the callbacks do, it never gets stuck in between, and there is
no further `select` (`shutdown_ends`).

`Kept` collects what a relation between states has to respect so that every step respects it. -/

namespace C11Http.Posix.Server

open C11Http.Lib.Run

/-- The relation holds over every change the calls and the branches of the loop are made of. -/
structure Kept (R : Server → Server → Prop) : Prop where
  refl : ∀ s, R s s
  trans : ∀ s t u, R s t → R t u → R s u
  record : ∀ s es, R s (s.record es)
  sendConnection : ∀ s data p, R s (s.sendConnection data p)
  performWakeup : ∀ s, R s s.performWakeup
  shutdown : ∀ s, R s s.shutdown
  accepting : ∀ s a, R s (s.accepting a)
  allocate : ∀ s client, R s (s.allocate client)
  addServerConnection : ∀ s p, R s (s.addServerConnection p)
  removeServerConnection : ∀ s sckt, R s (s.removeServerConnection sckt)
  receiving : ∀ s p r, R s (s.receiving p r)
  handing : ∀ s p result, R s (s.handing p result)
  unwatch : ∀ s i, R s (s.unwatch i)
  place : ∀ s pc, R s { s with pc := pc }

namespace Kept

variable {R : Server → Server → Prop} (hR : Kept R)
include hR

theorem goto (s : Server) (pc : Pc) : R s (s.goto pc) := by
  unfold Server.goto
  split_ifs
  · exact hR.refl s
  · exact hR.place s pc

theorem call (s : Server) (c : Call) : R s (s.call c) := by
  cases c with
  | send data identifier =>
    simp only [Server.call, Server.send]
    split
    · exact hR.refl s
    · exact hR.trans _ _ _ (hR.sendConnection s data _) (hR.performWakeup _)
  | broadcast data =>
    have hsends : ∀ (ps : List Ptr) (s : Server),
        R s (ps.foldl (fun s connection => s.sendConnection data connection) s) := by
      intro ps
      induction ps with
      | nil => exact hR.refl
      | cons p ps ih =>
        exact fun s => hR.trans _ _ _ (hR.sendConnection s data p) (ih _)
    exact hR.trans _ _ _ (hsends _ s) (hR.performWakeup _)
  | shutdown => exact hR.shutdown s

theorem react (s : Server) (r : Reaction Call) : R s (s.react r) := by
  have hcalls : ∀ (cs : List Call) (s : Server), R s (cs.foldl Server.call s) := by
    intro cs
    induction cs with
    | nil => exact hR.refl
    | cons c cs ih => exact fun s => hR.trans _ _ _ (hR.call s c) (ih _)
  unfold Server.react
  cases r.outcome with
  | returns => exact hcalls r.calls s
  | runtimeError => exact hR.trans _ _ _ (hcalls r.calls s) (hR.record _ _)
  | other => exact hR.trans _ _ _ (hcalls r.calls s) (hR.record _ _)

/-- A report to the callback, and what the callback does then. -/
theorem reported (s : Server) (es : List Event) (r : Reaction Call) :
    R s ((s.record es).react r) := hR.trans _ _ _ (hR.record s es) (hR.react _ r)

theorem acceptBranch (s : Server) (a : Attempt) (connected : Reaction Call) :
    R s (s.acceptBranch a connected) := by
  have hallocated : ∀ client, R s ((s.accepting a).allocate client) :=
    fun client => hR.trans _ _ _ (hR.accepting s a) (hR.allocate _ client)
  have hgreet : ∀ client, R s (s.greeting a client connected) :=
    fun client => hR.trans _ _ _ (hallocated client) (hR.reported _ _ connected)
  apply acceptBranch_rule (P := R s)
  case rejected => exact fun _ _ => hR.accepting s a
  case null => exact fun client _ _ => hR.trans _ _ _ (hallocated client) (hR.place _ _)
  case registered =>
    exact fun client _ _ _ => hR.trans _ _ _ (hgreet client) (hR.addServerConnection _ _)
  case swallowed => exact fun client _ _ _ => hgreet client
  case escaped => exact fun client _ _ _ => hR.trans _ _ _ (hgreet client) (hR.place _ _)

theorem dropConnection (s : Server) (sckt : Fd) (p : Ptr) (disconnected : Reaction Call) :
    R s (s.dropConnection sckt p disconnected) := by
  have hd : R s (s.disconnect p disconnected) := hR.reported s _ disconnected
  apply dropConnection_rule (P := R s)
  case silent => exact fun _ => hR.removeServerConnection s sckt
  case reported => exact fun _ _ => hR.trans _ _ _ hd (hR.removeServerConnection _ sckt)
  case escaped => exact fun _ _ => hR.trans _ _ _ hd (hR.place _ _)

theorem handleServerConnection (s : Server) (i : Fd) (e : Reading) :
    R s (s.handleServerConnection i e) := by
  have hdeliver : ∀ p data, R s ((s.receiving p e.recv).deliver p data e.receiveComplete) :=
    fun p data => hR.trans _ _ _ (hR.receiving s p e.recv) (hR.reported _ _ _)
  apply handleServerConnection_rule (P := R s)
  case unknown => exact fun _ => hR.refl s
  case failed =>
    exact fun p _ _ _ => hR.trans _ _ _ (hR.receiving s p e.recv) (hR.dropConnection _ _ _ _)
  case silent => exact fun p _ _ _ _ => hR.receiving s p e.recv
  case delivered => exact fun p data _ _ _ _ => hdeliver p data
  case thrown =>
    exact fun p data _ _ _ _ => hR.trans _ _ _ (hdeliver p data) (hR.dropConnection _ _ _ _)
  case escaped => exact fun p data _ _ _ _ => hR.trans _ _ _ (hdeliver p data) (hR.place _ _)

theorem writeBranch {s : Server} (hpc : s.pc ≠ .halted) (i : Fd) (e : Writing) :
    R s (s.writeBranch i e) := by
  have hhand : ∀ p, R s (s.handing p e.result) := fun p => hR.handing s p e.result
  have hreport : ∀ p count, R s ((s.handing p e.result).report p count e.sendComplete) :=
    fun p count => hR.trans _ _ _ (hhand p) (hR.reported _ _ _)
  apply writeBranch_rule (P := R s) hpc
  case unknown => exact fun _ => hR.unwatch s i
  case short => exact fun p _ _ => hR.trans _ _ _ (hhand p) (hR.unwatch _ i)
  case null => exact fun p _ _ _ _ => hR.trans _ _ _ (hhand p) (hR.place _ _)
  case reported => exact fun p count _ _ _ _ => hR.trans _ _ _ (hreport p count) (hR.unwatch _ i)
  case escaped => exact fun p count _ _ _ _ => hR.trans _ _ _ (hreport p count) (hR.place _ _)

/-- **What every change respects, every step respects.** -/
theorem step {s t : Server} {a : Action} (h : s.step a = some t) : R s t := by
  cases a with
  | call c =>
    obtain ⟨-, rfl⟩ := step_call h
    exact hR.call s c
  | select result =>
    obtain ⟨-, -, ⟨-, rfl⟩ | ⟨_, _, -, -, rfl⟩⟩ := step_select h
    · exact hR.place s _
    · exact hR.place s _
  | read attempt connected e =>
    obtain ⟨i, fdmax, readFds, writeFds, -, -, rfl⟩ := step_read h
    refine hR.trans _ _ _ ?_ (hR.goto _ _)
    unfold readBranch
    split_ifs
    · exact hR.acceptBranch s attempt connected
    · exact hR.handleServerConnection s i e
    · exact hR.refl s
  | write e =>
    obtain ⟨i, fdmax, readFds, writeFds, hpc, -, rfl⟩ := step_write h
    have hne : s.pc ≠ .halted := by
      rw [hpc]
      exact Pc.noConfusion
    refine hR.trans _ _ _ ?_ (hR.goto _ _)
    split_ifs
    · exact hR.writeBranch hne i e
    · exact hR.refl s

end Kept

variable {s t : Server}

/-! ### After a shutdown -/

/-- A shutdown is not taken back. -/
theorem kept_shutdown :
    Kept fun s t => s.mHasBeenShutdown = true → t.mHasBeenShutdown = true where
  refl _ h := h
  trans _ _ _ hst htu h := htu (hst h)
  record _ _ h := h
  sendConnection _ _ _ h := h
  performWakeup _ h := h
  shutdown _ _ := rfl
  accepting _ _ h := h
  allocate _ _ h := h
  addServerConnection _ _ h := h
  removeServerConnection s sckt h := by
    unfold Server.removeServerConnection
    split <;> exact h
  receiving _ _ _ h := h
  handing _ _ _ h := h
  unwatch _ _ h := h
  place _ _ h := h

/-- **No step waits for another party**: in the middle of a pass the loop goes on, also when nothing
is accepted, nothing received and nothing written. -/
theorem exists_scans (h : s.pc.remaining ≠ 0) : ∃ a t, a.Scans ∧ s.step a = some t := by
  cases hpc : s.pc with
  | top => exact absurd (by rw [hpc]; rfl) h
  | halted => exact absurd (by rw [hpc]; rfl) h
  | scan i fdmax readFds writeFds phase =>
    cases phase with
    | read =>
      have hr : s.Readable noAttempt (reading []) :=
        ⟨trivial, Nat.zero_le _, Nat.zero_le _⟩
      have hstep : (s.step (.read noAttempt returns (reading []))).isSome := by
        simp only [Server.step, hpc, if_pos hr, Option.isSome_some]
      exact ⟨.read noAttempt returns (reading []), _, trivial, (Option.some_get hstep).symm⟩
    | write =>
      have hw : s.Writable i (writing 0) := by
        unfold Writable
        split
        · trivial
        · exact ⟨by decide, Int.natCast_nonneg _⟩
      have hstep : (s.step (.write (writing 0))).isSome := by
        simp only [Server.step, hpc, if_pos hw, Option.isSome_some]
      exact ⟨.write (writing 0), _, trivial, (Option.some_get hstep).symm⟩

/-- An action of the loop, not a call from elsewhere. -/
def Action.ofLoop : Action → Bool
  | .call _ => false
  | _ => true

/-- A step after a shutdown: a call at the top, or one of the steps that the pass still has. -/
theorem remaining_after_shutdown {a : Action} (hshut : s.mHasBeenShutdown = true)
    (h : s.step a = some t) :
    (if a.ofLoop then 1 else 0) + t.pc.remaining ≤ s.pc.remaining := by
  cases a with
  | call c =>
    obtain ⟨hpc, rfl⟩ := step_call h
    simp [Action.ofLoop, (called_call s c).pc]
  | select result =>
    obtain ⟨-, hnot, -⟩ := step_select h
    rw [hshut] at hnot
    cases hnot
  | read attempt connected e =>
    obtain ⟨hne, hhalted | hlt⟩ := remaining_step (a := .read attempt connected e) trivial h
    · rw [hhalted]
      exact Nat.one_le_iff_ne_zero.mpr hne
    · simp only [Action.ofLoop, if_true]
      omega
  | write e =>
    obtain ⟨hne, hhalted | hlt⟩ := remaining_step (a := .write e) trivial h
    · rw [hhalted]
      exact Nat.one_le_iff_ne_zero.mpr hne
    · simp only [Action.ofLoop, if_true]
      omega

/-- **A shutdown ends the loop.** From a state in which the server has been shut down, every run
makes at most the steps that the pass under way still has; as long as there are some it can go on,
and when there are none there is no further `select`. -/
theorem shutdown_ends : ∀ (bs : List Action) {s t : Server}, s.mHasBeenShutdown = true →
    run step s bs = some t →
    (bs.filter Action.ofLoop).length + t.pc.remaining ≤ s.pc.remaining ∧
      (t.pc.remaining ≠ 0 → ∃ a u, a.Scans ∧ t.step a = some u) ∧
      ∀ result, t.step (.select result) = none := by
  intro bs s t hshut hrun
  have hshut' : t.mHasBeenShutdown = true :=
    (always_of_inv (fun _ _ _ h ht => kept_shutdown.step ht h) bs hshut).last hrun
  have hlower : ∀ (u : Server) (a : Action) (v : Server), u.mHasBeenShutdown = true →
      step u a = some v → v.mHasBeenShutdown = true ∧
        (if a.ofLoop then 1 else 0) + v.pc.remaining ≤ u.pc.remaining := fun u a v h hv =>
    ⟨kept_shutdown.step hv h, remaining_after_shutdown h hv⟩
  refine ⟨length_filter_add_le_of_rank hlower hshut hrun, exists_scans, fun result => ?_⟩
  simp [Server.step, hshut']

/-- A client is accepted, and `connected` shuts the server down. -/
def shutdownInside : List Action :=
  .select (some ({3}, ∅)) :: skip 3 ++
    [.read attempt { calls := [.shutdown], outcome := .returns } (reading [])]

theorem shutdown_ends_inside : ∃ s t,
    run step (waitForEvents listening) shutdownInside = some s ∧ s.pc.remaining = 3 ∧
      run step s (.write (writing 0) :: skip 1) = some t ∧ t.pc = .top ∧
      ∀ result, t.step (.select result) = none := by
  obtain ⟨s, hs, hshut, hrem⟩ := exists_run step (waitForEvents listening) shutdownInside
    (fun s => s.mHasBeenShutdown = true ∧ s.pc.remaining = 3) (by decide)
  obtain ⟨t, ht, htop⟩ := exists_run step (waitForEvents listening)
    (shutdownInside ++ .write (writing 0) :: skip 1) (fun t => t.pc = .top) (by decide +kernel)
  rw [run_append, hs] at ht
  exact ⟨s, t, hs, hrem, ht, htop, (shutdown_ends _ hshut ht).2.2⟩

end C11Http.Posix.Server
