import C11Http.Posix.Writes

/-! # Data that waits in the posix client

At the top of every iteration of `waitForEvents`, data that waits should be watched: `select` does
not report the socket as writable otherwise, and the data stays until more is given to the client.

`sendDataToServer` watches the socket whenever it is called. But the descriptor set is cleared when
`waitForEvents` is entered, and the socket is unwatched behind `sendComplete`, whatever the callback
has queued. `stranded_iff`: nothing is stranded exactly in the runs in which nothing waits at the
entry and no `sendComplete` that returns leaves a connected client with new data. -/

namespace C11Http.Posix

open C11Http.Lib C11Http.Lib.Run

/-- The call closes the connection, if there is one. -/
def ClientCall.Disconnects : ClientCall → Prop
  | .sendDataToServer _ => False
  | .disconnect _ => True

instance : ∀ k : ClientCall, Decidable k.Disconnects
  | .sendDataToServer _ => .isFalse id
  | .disconnect _ => .isTrue trivial

namespace Client

/-- At the top of the loop of a connected client, whatever waits is watched. -/
def Served (c : Client) : Prop :=
  c.pc = .top → c.mConnected = true → c.mOutgoingBytes ≠ [] → c.mSocket ∈ c.mMasterWrite

/-- Nothing waits at the entry of `waitForEvents`, and a `sendComplete` that returns with the client
connected queues nothing. -/
def Unstranded (c : Client) : Action → Prop
  | .waitForEvents => c.mConnected = true → c.mOutgoingBytes = []
  | .write _ sendComplete => c.Flushing → c.mCallback = true → sendComplete.outcome = .returns →
      c.mConnected = true → (∀ k ∈ sendComplete.calls, ¬ k.Disconnects) →
        ∀ m ∈ sendComplete.calls.flatMap messages, m = []
  | _ => True

/-- The same inside the loop, at every place. -/
def ServedInside (c : Client) : Prop :=
  c.pc ≠ .outside → c.pc ≠ .left → c.mConnected = true → c.outbox.Armed

variable {c d : Client}

theorem outbox_armed_iff :
    c.outbox.Armed ↔ (c.mOutgoingBytes ≠ [] → c.mSocket ∈ c.mMasterWrite) := by
  unfold Outbox.Armed outbox
  simp only [decide_eq_true_eq]

theorem served_iff : c.Served ↔ (c.pc = .top → c.mConnected = true → c.outbox.Armed) := by
  rw [outbox_armed_iff]
  exact Iff.rfl

/-! ### The connection -/

@[simp] theorem call_pc (c : Client) (k : ClientCall) : (c.call k).pc = c.pc := by
  cases k with
  | sendDataToServer data =>
    show (c.sendDataToServer data).pc = c.pc
    unfold sendDataToServer
    split <;> rfl
  | disconnect poll =>
    show (c.disconnect poll).1.pc = c.pc
    unfold disconnect
    split
    · cases poll <;> rfl
    · rfl

/-- **Only `disconnect` ends the connection.** -/
theorem call_mConnected (c : Client) (k : ClientCall) :
    (c.call k).mConnected = true ↔ c.mConnected = true ∧ ¬ k.Disconnects := by
  cases k with
  | sendDataToServer data =>
    show (c.sendDataToServer data).mConnected = true ↔ _
    have hsame : (c.sendDataToServer data).mConnected = c.mConnected := by
      unfold sendDataToServer
      split <;> rfl
    rw [hsame]
    exact (and_iff_left id).symm
  | disconnect poll =>
    show (c.disconnect poll).1.mConnected = true ↔ _
    have hoff : (c.disconnect poll).1.mConnected = false := by
      unfold disconnect
      split
      · cases poll <;> rfl
      · rename_i hoff
        simpa using hoff
    rw [hoff]
    exact iff_of_false Bool.false_ne_true fun h => h.2 trivial

theorem calls_mConnected (ks : List ClientCall) (c : Client) :
    (ks.foldl call c).mConnected = true ↔ c.mConnected = true ∧ ∀ k ∈ ks, ¬ k.Disconnects := by
  induction ks generalizing c with
  | nil => exact (and_iff_left fun k hk => absurd hk List.not_mem_nil).symm
  | cons k ks ih =>
    rw [List.foldl_cons, ih, call_mConnected, List.forall_mem_cons, and_assoc]

theorem react_mConnected (c : Client) (r : Reaction ClientCall) :
    (c.react r).mConnected = true ↔ c.mConnected = true ∧ ∀ k ∈ r.calls, ¬ k.Disconnects := by
  rw [← calls_mConnected r.calls c]
  unfold react
  cases r.outcome <;> exact Iff.rfl

theorem calls_pc (ks : List ClientCall) (c : Client) : (ks.foldl call c).pc = c.pc := by
  induction ks generalizing c with
  | nil => rfl
  | cons k ks ih => rw [List.foldl_cons, ih, call_pc]

theorem report_pc (c : Client) (count : ℕ) (r : Reaction ClientCall) :
    (c.report count r).pc = c.pc := by
  have h := calls_pc r.calls (c.record [.sendComplete c.mIdentifier count])
  unfold report react
  cases r.outcome <;> exact h

/-- The read branch does not connect. -/
theorem mConnected_of_readBranch {recv : Recv} {receiveComplete : Reaction ClientCall}
    (h : (c.readBranch recv receiveComplete).mConnected = true) : c.mConnected = true := by
  unfold readBranch at h
  rcases recv with strerror | data
  · exact h
  · by_cases hlen : data.length = 0
    · simp only [if_pos hlen] at h
      cases h
    · simp only [if_neg hlen] at h
      by_cases hcb : (c.record [.received (Recv.bytes data).data]).mCallback = true
      · simp only [if_pos hcb] at h
        have hreact : ∀ u : Client, (u.deliver data receiveComplete).mConnected = true →
            u.mConnected = true := fun u hu => ((react_mConnected _ _).mp hu).1
        cases ho : receiveComplete.outcome <;> simp only [ho] at h <;>
          exact hreact (c.record [.received (Recv.bytes data).data]) h
      · simp only [if_neg hcb] at h
        exact h

theorem goto_pc (c : Client) (pc : ClientPc) : (c.goto pc).pc = .left ∨ (c.goto pc).pc = pc := by
  unfold goto
  split
  · rename_i hleft; exact Or.inl hleft
  · exact Or.inr rfl

theorem goto_mConnected (c : Client) (pc : ClientPc) : (c.goto pc).mConnected = c.mConnected := by
  unfold goto
  split <;> rfl

/-! ### The steps -/

theorem step_waitForEvents (h : step c .waitForEvents = some d) :
    d = { c with mMasterWrite := ∅, pc := .top } := by
  simp only [step] at h
  split_ifs at h
  cases h
  rfl

/-- `select` leaves the loop, or a pass begins. -/
theorem step_select {result : Option (Finset Fd × Finset Fd)}
    (h : step c (.select result) = some d) :
    c.pc = .top ∧ d.outbox = c.outbox ∧ d.mConnected = c.mConnected ∧
      (d.pc = .left ∨ ∃ readFds writeFds, d.pc = .read readFds writeFds) := by
  simp only [step] at h
  split_ifs at h with htop
  rcases result with _ | ⟨readFds, writeFds⟩
  · cases h
    refine ⟨htop.1, ?_, rfl, Or.inl rfl⟩
    unfold outbox leave record
    simp only [List.filterMap_append, List.filterMap_cons, entry, List.filterMap_nil,
      List.append_nil]
  · simp only at h
    split_ifs at h
    cases h
    exact ⟨htop.1, rfl, rfl, Or.inr ⟨readFds, writeFds, rfl⟩⟩

theorem step_read {recv : Recv} {receiveComplete : Reaction ClientCall}
    (h : step c (.read recv receiveComplete) = some d) : ∃ readFds writeFds,
      c.pc = .read readFds writeFds ∧ d = (if c.mSocket ∈ readFds then
        c.readBranch recv receiveComplete else c).goto (.write writeFds) := by
  simp only [step] at h
  split at h
  · rename_i readFds writeFds hpc
    split_ifs at h <;> cases h <;> exact ⟨readFds, writeFds, hpc, by simp [*]⟩
  · cases h

theorem step_write {result : ℤ} {sendComplete : Reaction ClientCall}
    (h : step c (.write result sendComplete) = some d) : ∃ writeFds, c.pc = .write writeFds ∧
      (c.Flushing ↔ c.mSocket ∈ writeFds) ∧ d = (if c.mSocket ∈ writeFds then
        c.writeBranch result sendComplete else c).goto .top := by
  simp only [step] at h
  split at h
  · rename_i writeFds hpc
    have hflush : c.Flushing ↔ c.mSocket ∈ writeFds := by
      unfold Flushing
      rw [hpc]
    split_ifs at h <;> cases h <;> exact ⟨writeFds, hpc, hflush, by simp [*]⟩
  · cases h

/-- What arrives at the top has been served exactly if, connected, it is. -/
theorem served_goto_top {u : Client} (hpc : u.pc ≠ .left) :
    (u.goto .top).Served ↔ (u.mConnected = true → u.outbox.Armed) := by
  rw [served_iff, outbox_goto, goto_mConnected]
  refine ⟨fun h => h ?_, fun h _ => h⟩
  unfold goto
  rw [if_neg hpc]

theorem served_goto_left {u : Client} (hpc : u.pc = .left) (pc : ClientPc) :
    (u.goto pc).Served := by
  unfold goto
  rw [if_pos hpc]
  intro htop
  rw [hpc] at htop
  cases htop

/-- **A write** leaves data that is not watched exactly if its `sendComplete` queues some and
returns with the client connected. -/
theorem served_writeBranch_iff {writeFds : Finset Fd} (hpc : c.pc = .write writeFds) (result : ℤ)
    (sendComplete : Reaction ClientCall) :
    ((c.writeBranch result sendComplete).goto .top).Served ↔
      (c.mCallback = true → sendComplete.outcome = .returns → c.mConnected = true →
        (∀ k ∈ sendComplete.calls, ¬ k.Disconnects) →
          ∀ m ∈ sendComplete.calls.flatMap messages, m = []) := by
  have hin : ∀ u : Client, u.pc = c.pc → u.pc ≠ .left := by
    intro u hu hleft
    rw [hu, hpc] at hleft
    cases hleft
  unfold writeBranch
  by_cases hcb : c.mCallback = true
  · simp only [if_pos hcb]
    have hwatch := outbox_report (c.handing result) (expected c.mOutgoingBytes) sendComplete
    rw [outbox_handing] at hwatch
    have hnil : ((c.handing result).report (expected c.mOutgoingBytes)
        sendComplete).outbox.pending = [] ↔
          ∀ m ∈ sendComplete.calls.flatMap messages, m = [] := by
      rw [hwatch.pending, Outbox.pushAll_pending]
      simp [Outbox.drain]
    have hconn : ((c.handing result).report (expected c.mOutgoingBytes)
        sendComplete).mConnected = true ↔
          c.mConnected = true ∧ ∀ k ∈ sendComplete.calls, ¬ k.Disconnects :=
      react_mConnected _ _
    have hescape : ∀ u : Client, sendComplete.outcome ≠ .returns →
        ((u.leave.goto .top).Served ↔
          (c.mCallback = true → sendComplete.outcome = .returns → c.mConnected = true →
            (∀ k ∈ sendComplete.calls, ¬ k.Disconnects) →
              ∀ m ∈ sendComplete.calls.flatMap messages, m = [])) :=
      fun u ho => iff_of_true (served_goto_left (u := u.leave) rfl .top)
        fun _ hret => absurd hret ho
    cases ho : sendComplete.outcome with
    | returns =>
      have hpc' : ((c.handing result).report (expected c.mOutgoingBytes)
          sendComplete).unwatch.pc = c.pc := report_pc _ _ _
      rw [served_goto_top (hin _ hpc'), outbox_unwatch, Outbox.armed_unwatch_iff, hnil]
      constructor
      · intro h _ _ hc hk
        exact h (hconn.mpr ⟨hc, hk⟩)
      · intro h hc
        exact h hcb rfl (hconn.mp hc).1 (hconn.mp hc).2
    | runtimeError =>
      rw [ho] at hescape
      exact hescape _ (by decide)
    | other =>
      rw [ho] at hescape
      exact hescape _ (by decide)
  · simp only [if_neg hcb]
    have hpc' : (c.handing result).unwatch.pc = c.pc := rfl
    rw [served_goto_top (hin _ hpc'), outbox_unwatch, Outbox.armed_unwatch_iff]
    exact iff_of_true (fun _ => rfl) fun h => absurd h hcb

/-- **One action**: nothing is stranded behind it exactly when the condition holds of it. -/
theorem served_step_iff {a : Action} (hin : c.ServedInside) (h : step c a = some d) :
    d.Served ↔ Unstranded c a := by
  cases a with
  | call k =>
    cases h
    refine iff_of_true (served_iff.mpr fun htop hconn => ?_) trivial
    rw [call_pc] at htop
    have hc := hin (by rw [htop]; decide) (by rw [htop]; decide) ((call_mConnected c k).mp hconn).1
    exact (outbox_call c k).armed (hc.pushAll _)
  | waitForEvents =>
    rw [step_waitForEvents h]
    constructor
    · intro hs hconn
      by_contra hne
      exact absurd (hs rfl hconn hne) (Finset.notMem_empty _)
    · exact fun hnil _ hconn hne => absurd (hnil hconn) hne
  | select result =>
    obtain ⟨-, -, -, hleft | ⟨readFds, writeFds, hread⟩⟩ := step_select h
    · refine iff_of_true (fun htop => ?_) trivial
      rw [hleft] at htop
      cases htop
    · refine iff_of_true (fun htop => ?_) trivial
      rw [hread] at htop
      cases htop
  | read recv receiveComplete =>
    obtain ⟨readFds, writeFds, -, rfl⟩ := step_read h
    refine iff_of_true (fun htop => ?_) trivial
    rcases goto_pc (if c.mSocket ∈ readFds then c.readBranch recv receiveComplete else c)
      (.write writeFds) with hpc | hpc
    · rw [hpc] at htop
      cases htop
    · rw [hpc] at htop
      cases htop
  | write result sendComplete =>
    obtain ⟨writeFds, hpc, hflush, rfl⟩ := step_write h
    show _ ↔ (c.Flushing → _)
    rw [hflush]
    by_cases hready : c.mSocket ∈ writeFds
    · rw [if_pos hready, served_writeBranch_iff hpc]
      exact ⟨fun h _ => h, fun h => h hready⟩
    · rw [if_neg hready]
      have hleft : c.pc ≠ .left := by rw [hpc]; exact fun h => by cases h
      refine iff_of_true ((served_goto_top hleft).mpr fun hconn => ?_) fun h => absurd h hready
      exact hin (by rw [hpc]; exact fun h => by cases h) hleft hconn

theorem servedInside_step {a : Action} (hin : c.ServedInside) (h : step c a = some d)
    (hd : d.Served) : d.ServedInside := by
  intro hout hleft hconn
  cases a with
  | call k =>
    cases h
    rw [call_pc] at hout hleft
    have hc := hin hout hleft ((call_mConnected c k).mp hconn).1
    exact (outbox_call c k).armed (hc.pushAll _)
  | waitForEvents =>
    obtain rfl := step_waitForEvents h
    exact served_iff.mp hd rfl hconn
  | select result =>
    obtain ⟨htop, hbox, hconn', -⟩ := step_select h
    rw [hbox]
    rw [hconn'] at hconn
    exact hin (by rw [htop]; decide) (by rw [htop]; decide) hconn
  | read recv receiveComplete =>
    obtain ⟨readFds, writeFds, hpc, rfl⟩ := step_read h
    rw [goto_mConnected] at hconn
    rw [outbox_goto]
    have hinside := hin (by rw [hpc]; exact fun h => by cases h)
      (by rw [hpc]; exact fun h => by cases h)
    by_cases hready : c.mSocket ∈ readFds
    · rw [if_pos hready] at hconn ⊢
      obtain ⟨ms, hw⟩ := outbox_readBranch c recv receiveComplete
      exact hw.armed ((hinside (mConnected_of_readBranch hconn)).pushAll ms)
    · rw [if_neg hready] at hconn ⊢
      exact hinside hconn
  | write result sendComplete =>
    obtain ⟨writeFds, -, -, rfl⟩ := step_write h
    rcases goto_pc (if c.mSocket ∈ writeFds then c.writeBranch result sendComplete else c)
      .top with hpc | hpc
    · exact absurd hpc hleft
    · exact served_iff.mp hd hpc hconn

/-- **No data is stranded in a run exactly if nothing waits at its entry** and no `sendComplete`
that returns leaves the connected client with data. -/
theorem stranded_iff (mCallback : Bool) (mIdentifier : Bytes) (mSocket : Fd) (mWakeupPipe : Fd × Fd)
    (mMasterWrite : Finset Fd) (as : List Action) :
    let c := connected mCallback mIdentifier mSocket mWakeupPipe mMasterWrite
    Always step Served c as ↔ Along step Unstranded c as :=
  always_iff_along (I := ServedInside) (fun _ _ _ hI _ hs hd => servedInside_step hI hs hd)
    (fun _ _ _ hI _ hs => served_step_iff hI hs) as (fun hout => absurd rfl hout)
    (fun htop => by cases htop)

/-- **Data given before `waitForEvents`**, and data given by `sendComplete`: it waits, and the
socket is not watched. -/
theorem early_data_stranded :
    (∃ d, run step (connected true [97] 3 (4, 5) ∅)
        [.call (.sendDataToServer [104, 105]), .waitForEvents] = some d ∧
      d.pc = .top ∧ d.mConnected = true ∧ d.mOutgoingBytes = [104, 105] ∧ d.mMasterWrite = ∅ ∧
        ¬ d.Served) ∧
    ∃ d, run step (connected true [97] 3 (4, 5) ∅)
        [.waitForEvents, .call (.sendDataToServer [104, 105]), .select (some (∅, {3})),
          .read (.bytes []) ⟨[], .returns⟩,
          .write 2 ⟨[.sendDataToServer [106]], .returns⟩] = some d ∧
      d.pc = .top ∧ d.mConnected = true ∧ d.mOutgoingBytes = [106] ∧ d.mMasterWrite = ∅ ∧
        ¬ d.Served := by
  have hno : ∀ d : Client, d.pc = .top → d.mConnected = true → d.mOutgoingBytes ≠ [] →
      d.mMasterWrite = ∅ → ¬ d.Served := by
    intro d htop hconn hne hw hs
    have hmem := hs htop hconn hne
    rw [hw] at hmem
    exact absurd hmem (Finset.notMem_empty _)
  refine ⟨⟨_, rfl, rfl, rfl, rfl, rfl, hno _ rfl rfl (List.cons_ne_nil _ _) rfl⟩,
    ⟨_, rfl, rfl, rfl, rfl, rfl, hno _ rfl rfl (List.cons_ne_nil _ _) rfl⟩⟩

end Client

end C11Http.Posix
