import C11Http.Posix.Stranded

/-! # What the posix client reports

`Callback.h`: "A send to a connection has completed, with count bytes sent". `Honest` compares the
counts of all `sendComplete`s with the bytes that `::send` has accepted.

The write branch notes in `sendSuccessful` whether `::send` took everything and does not look at it
again: it reports what it has offered. `honest_iff`: the client is honest in a run if every `::send`
that it reports accepts the count, and, where the queue stays below 2^32 bytes, only if. A longer
queue is reported short, since its length is stored in an `int`. -/

namespace C11Http.Posix

open C11Http.Lib C11Http.Lib.Run

namespace ClientEvent

def reported : ClientEvent → ℕ
  | .sendComplete _ count => count
  | _ => 0

def accepted : ClientEvent → ℕ
  | .handed _ result => result.toNat
  | _ => 0

end ClientEvent

namespace Client

/-- The sum of the counts that `sendComplete` has been called with. -/
def reported (c : Client) : ℕ := (c.trace.map ClientEvent.reported).sum

/-- The number of bytes that `::send` has accepted. -/
def accepted (c : Client) : ℕ := (c.trace.map ClientEvent.accepted).sum

/-- **Only what has been sent is reported.** -/
def Honest (c : Client) : Prop := c.reported ≤ c.accepted

/-- A `::send` that is reported accepts the count of the report. -/
def Complete (c : Client) : Action → Prop
  | .write result _ => c.Flushing → c.mCallback = true → expected c.mOutgoingBytes ≤ result.toNat
  | _ => True

/-- The length of the queue of a reported `::send` is below 2^32. -/
def Small (c : Client) : Action → Prop
  | .write _ _ => c.Flushing → c.mCallback = true → c.mOutgoingBytes.length < 4294967296
  | _ => True

instance (c : Client) : Decidable c.Honest := by
  unfold Honest; infer_instance

instance (c : Client) : ∀ a : Action, Decidable (Complete c a)
  | .write result _ => inferInstanceAs
      (Decidable (c.Flushing → c.mCallback = true → expected c.mOutgoingBytes ≤ result.toNat))
  | .call _ | .waitForEvents | .select _ | .read _ _ => .isTrue trivial

instance (c : Client) : ∀ a : Action, Decidable (Small c a)
  | .write _ _ => inferInstanceAs
      (Decidable (c.Flushing → c.mCallback = true → c.mOutgoingBytes.length < 4294967296))
  | .call _ | .waitForEvents | .select _ | .read _ _ => .isTrue trivial

variable {c d u : Client}

/-- Nothing is sent and nothing reported between `c` and `d`. -/
structure Silent (c d : Client) : Prop where
  mCallback : d.mCallback = c.mCallback
  reported : d.reported = c.reported
  accepted : d.accepted = c.accepted

namespace Silent

theorem refl (c : Client) : Silent c c := ⟨rfl, rfl, rfl⟩

theorem trans (h : Silent c d) (h' : Silent d u) : Silent c u :=
  ⟨h'.mCallback.trans h.mCallback, h'.reported.trans h.reported, h'.accepted.trans h.accepted⟩

end Silent

theorem silent_record (c : Client) {e : ClientEvent} (hr : e.reported = 0) (ha : e.accepted = 0) :
    Silent c (c.record [e]) := by
  refine ⟨rfl, ?_, ?_⟩
  · simp [reported, record, hr]
  · simp [accepted, record, ha]

/-- What only changes other members is silent. -/
theorem silent_of_trace (hcb : d.mCallback = c.mCallback) (ht : d.trace = c.trace) : Silent c d :=
  ⟨hcb, by unfold reported; rw [ht], by unfold accepted; rw [ht]⟩

theorem silent_call (c : Client) (k : ClientCall) : Silent c (c.call k) := by
  cases k with
  | sendDataToServer data =>
    show Silent c (c.sendDataToServer data)
    unfold sendDataToServer
    split
    · exact (silent_record c (e := .queued data) rfl rfl).trans (silent_of_trace rfl rfl)
    · exact Silent.refl c
  | disconnect poll =>
    show Silent c (c.disconnect poll).1
    unfold disconnect
    split
    · cases poll with
      | some strerror => exact silent_of_trace rfl rfl
      | none =>
        exact (silent_record c (e := .closed c.mSocket) rfl rfl).trans (silent_of_trace rfl rfl)
    · exact Silent.refl c

theorem silent_calls (ks : List ClientCall) (c : Client) : Silent c (ks.foldl call c) := by
  induction ks generalizing c with
  | nil => exact Silent.refl c
  | cons k ks ih => exact (silent_call c k).trans (ih _)

theorem silent_react (c : Client) (r : Reaction ClientCall) : Silent c (c.react r) := by
  have h := silent_calls r.calls c
  unfold react
  cases r.outcome with
  | returns => exact h
  | runtimeError => exact h.trans (silent_record _ rfl rfl)
  | other => exact h.trans (silent_record _ rfl rfl)

theorem silent_leave (c : Client) : Silent c c.leave := silent_of_trace rfl rfl

theorem silent_goto (c : Client) (pc : ClientPc) : Silent c (c.goto pc) := by
  unfold goto
  split
  · exact Silent.refl c
  · exact silent_of_trace rfl rfl

theorem silent_readBranch (c : Client) (recv : Recv) (receiveComplete : Reaction ClientCall) :
    Silent c (c.readBranch recv receiveComplete) := by
  have hrecv : Silent c (c.record [.received recv.data]) := silent_record c rfl rfl
  have hdeliver : ∀ data,
      Silent c ((c.record [.received recv.data]).deliver data receiveComplete) :=
    fun data => hrecv.trans ((silent_record _ rfl rfl).trans (silent_react _ _))
  unfold readBranch
  cases recv with
  | failed strerror => exact hrecv.trans ((silent_record _ rfl rfl).trans (silent_leave _))
  | bytes data =>
    dsimp only
    split
    · exact hrecv.trans (silent_of_trace rfl rfl)
    · split
      · cases receiveComplete.outcome with
        | returns => exact hdeliver data
        | runtimeError => exact (hdeliver data).trans (silent_leave _)
        | other => exact (hdeliver data).trans (silent_leave _)
      · exact hrecv

/-- What a write does to the two sums. -/
structure Told (c d : Client) (result : ℤ) (count : ℕ) : Prop where
  mCallback : d.mCallback = c.mCallback
  accepted : d.accepted = c.accepted + result.toNat
  reported : d.reported = c.reported + count

theorem Told.silent {result : ℤ} {count : ℕ} (h : Told c d result count) (h' : Silent d u) :
    Told c u result count :=
  ⟨h'.mCallback.trans h.mCallback, h'.accepted.trans h.accepted, h'.reported.trans h.reported⟩

theorem told_handing (c : Client) (result : ℤ) : Told c (c.handing result) result 0 := by
  refine ⟨rfl, ?_, ?_⟩
  · simp [accepted, handing, ClientEvent.accepted]
  · simp [reported, handing, ClientEvent.reported]

theorem told_report (c : Client) (result : ℤ) (count : ℕ) (sendComplete : Reaction ClientCall) :
    Told c ((c.handing result).report count sendComplete) result count := by
  have hhand := told_handing c result
  have hrecord : Told c ((c.handing result).record [.sendComplete c.mIdentifier count]) result
      count := by
    refine ⟨rfl, ?_, ?_⟩
    · rw [← hhand.accepted]
      simp [accepted, record, ClientEvent.accepted]
    · have hr := hhand.reported
      rw [Nat.add_zero] at hr
      rw [← hr]
      simp [reported, record, ClientEvent.reported]
  exact hrecord.silent (silent_react _ _)

/-- The count that a write is reported with, 0 if there is no callback. -/
def told (c : Client) : ℕ := if c.mCallback = true then expected c.mOutgoingBytes else 0

/-- **A write** is reported as complete, whatever `::send` has accepted. -/
theorem told_writeBranch (c : Client) (result : ℤ) (sendComplete : Reaction ClientCall) :
    Told c (c.writeBranch result sendComplete) result c.told := by
  unfold writeBranch told
  split
  · have hreport := told_report c result (expected c.mOutgoingBytes) sendComplete
    cases sendComplete.outcome with
    | returns => exact hreport.silent (silent_of_trace rfl rfl)
    | runtimeError => exact hreport.silent (silent_leave _)
    | other => exact hreport.silent (silent_leave _)
  · exact (told_handing c result).silent (silent_of_trace rfl rfl)

/-- **What an action does to the two sums**: it writes, or it leaves them alone. -/
theorem step_tally {a : Action} (h : step c a = some d) :
    (Silent c d ∧ ∀ result sendComplete, a = .write result sendComplete → ¬ c.Flushing) ∨
      ∃ result sendComplete, a = .write result sendComplete ∧ c.Flushing ∧
        SendResult (offered c.mOutgoingBytes) result ∧ Told c d result c.told := by
  have hother : (∀ result sendComplete, a ≠ .write result sendComplete) → Silent c d →
      Silent c d ∧ ∀ result sendComplete, a = .write result sendComplete → ¬ c.Flushing :=
    fun hne hsilent => ⟨hsilent, fun result sendComplete ha => absurd ha (hne result sendComplete)⟩
  cases a with
  | call k =>
    cases h
    exact .inl (hother (by simp) (silent_call c k))
  | waitForEvents =>
    obtain rfl := step_waitForEvents h
    exact .inl (hother (by simp) (silent_of_trace rfl rfl))
  | select result =>
    refine .inl (hother (by simp) ?_)
    simp only [step] at h
    split_ifs at h
    rcases result with _ | ⟨readFds, writeFds⟩
    · cases h
      exact (silent_record c rfl rfl).trans (silent_leave _)
    · simp only at h
      split_ifs at h
      cases h
      exact silent_of_trace rfl rfl
  | read recv receiveComplete =>
    obtain ⟨readFds, writeFds, -, rfl⟩ := step_read h
    refine .inl (hother (by simp) (Silent.trans ?_ (silent_goto _ _)))
    split
    · exact silent_readBranch c recv receiveComplete
    · exact Silent.refl c
  | write result sendComplete =>
    have hresult : SendResult (offered c.mOutgoingBytes) result := by
      simp only [step] at h
      split at h
      · split_ifs at h with hw
        · exact hw
        · exact hw
      · cases h
    obtain ⟨writeFds, -, hflush, rfl⟩ := step_write h
    by_cases hready : c.mSocket ∈ writeFds
    · rw [if_pos hready]
      exact .inr ⟨result, sendComplete, rfl, hflush.mpr hready, hresult,
        (told_writeBranch c result sendComplete).silent (silent_goto _ _)⟩
    · rw [if_neg hready]
      refine .inl ⟨silent_goto _ _, fun _ _ _ => ?_⟩
      rwa [hflush]

theorem expected_eq {bytesToSend : Bytes} (h : bytesToSend.length < 4294967296) :
    expected bytesToSend = bytesToSend.length := toInt_emod h

/-- With a callback, everything accepted has been reported. -/
def Even (c : Client) : Prop := c.mCallback = true → c.reported = c.accepted

/-- A short queue does not take more than it is reported with. -/
theorem result_le_told {result : ℤ} (hcb : c.mCallback = true)
    (hsmall : c.mOutgoingBytes.length < 4294967296)
    (hresult : SendResult (offered c.mOutgoingBytes) result) : result.toNat ≤ c.told := by
  have hle := (offered_isPrefix c.mOutgoingBytes).length_le
  have hmax := hresult.2
  unfold told
  rw [if_pos hcb, expected_eq hsmall]
  omega

theorem honest_step {a : Action} (hc : c.Honest) (hcomplete : Complete c a)
    (h : step c a = some d) : d.Honest := by
  unfold Honest at hc ⊢
  obtain ⟨hsilent, -⟩ | ⟨result, sendComplete, rfl, hflush, -, htold⟩ := step_tally h
  · rw [hsilent.reported, hsilent.accepted]
    exact hc
  · have hcount : c.told ≤ result.toNat := by
      unfold told
      split
      next hcb => exact hcomplete hflush hcb
      next => exact Nat.zero_le _
    rw [htold.reported, htold.accepted]
    exact Nat.add_le_add hc hcount

/-- **One action**, the sums being equal before it and the queue short: it leaves an honest client
exactly when the condition holds of it. -/
theorem honest_step_iff {a : Action} (heven : c.Even) (hc : c.Honest) (hsmall : Small c a)
    (h : step c a = some d) : d.Honest ↔ Complete c a := by
  refine ⟨fun hd => ?_, fun hcomplete => honest_step hc hcomplete h⟩
  obtain ⟨-, hquiet⟩ | ⟨result, sendComplete, rfl, -, -, htold⟩ := step_tally h
  · cases a with
    | write result sendComplete => exact fun hflush => absurd hflush (hquiet _ _ rfl)
    | _ => trivial
  · intro hflush hcb
    have heq := heven hcb
    unfold Honest at hd
    rw [htold.reported, htold.accepted, told, if_pos hcb] at hd
    omega

theorem even_step {a : Action} (heven : c.Even) (hsmall : Small c a) (h : step c a = some d)
    (hd : d.Honest) : d.Even := by
  intro hcb
  unfold Honest at hd
  obtain ⟨hsilent, -⟩ | ⟨result, sendComplete, rfl, hflush, hresult, htold⟩ := step_tally h
  · rw [hsilent.mCallback] at hcb
    rw [hsilent.reported, hsilent.accepted, heven hcb]
  · rw [htold.mCallback] at hcb
    have hle := result_le_told hcb (hsmall hflush hcb) hresult
    have heq := heven hcb
    rw [htold.reported, htold.accepted] at hd ⊢
    omega

/-- **The client reports no more than `::send` has accepted** if every `::send` that it reports
accepts the count; with queues below 2^32 bytes, only if. -/
theorem honest_iff (mCallback : Bool) (mIdentifier : Bytes) (mSocket : Fd) (mWakeupPipe : Fd × Fd)
    (mMasterWrite : Finset Fd) (as : List Action) :
    let c := connected mCallback mIdentifier mSocket mWakeupPipe mMasterWrite
    (Along step Complete c as → Always step Honest c as) ∧
      (Along step Small c as → (Always step Honest c as ↔ Along step Complete c as)) := by
  intro c
  have hhonest : c.Honest := le_rfl
  have heven : c.Even := fun _ => rfl
  constructor
  · exact always_of_along (fun _ _ _ hc hR h => honest_step hc hR h) hhonest
  · exact always_iff_along_while (I := Even) (fun _ _ _ hI _ hQ h hd => even_step hI hQ h hd)
      (fun _ _ _ hI hP hQ h => honest_step_iff hI hP hQ h) as heven hhonest

/-- Of `"hi"` the `::send` of the first run accepts both bytes; in the second, it fails. -/
theorem honest_iff_small :
    let c := connected true [97] 3 (4, 5) ∅
    Always step Honest c (.waitForEvents :: .call (.sendDataToServer [104, 105]) :: clientWrite 2) ∧
      ¬ Always step Honest c
        (.waitForEvents :: .call (.sendDataToServer [104, 105]) :: clientWrite (-1)) := by
  intro c
  refine ⟨(honest_iff true [97] 3 (4, 5) ∅ _).1 (by decide), ?_⟩
  exact mt ((honest_iff true [97] 3 (4, 5) ∅ _).2 (by decide)).mp (by decide)

/-- **A failed write is reported**: `::send` returns -1 for `"hi"`, and `sendComplete` is called
with 2. -/
theorem failed_write_reported :
    ∃ d, run step (connected true [97] 3 (4, 5) ∅)
        (.waitForEvents :: .call (.sendDataToServer [104, 105]) :: clientWrite (-1)) = some d ∧
      d.trace = [.queued [104, 105], .handed [104, 105] (-1), .sendComplete [97] 2] ∧
      d.accepted = 0 ∧ d.reported = 2 ∧ ¬ d.Honest :=
  exists_run _ _ _ (fun d : Client => d.trace = [.queued [104, 105], .handed [104, 105] (-1),
    .sendComplete [97] 2] ∧ d.accepted = 0 ∧ d.reported = 2 ∧ ¬ d.Honest) (by decide +kernel)

end Client

end C11Http.Posix
