import C11Http.Posix.Stranded

/-! # What a step of the client writes into its trace

The counterpart of what is said of the server: the loop of the client receives, writes and calls the
callback, and `happened` lists these events of one step. `Grown c d es` says that from `c` to `d`
the events `es` have happened in the loop, besides the messages that were queued, what was thrown
and what was closed; the identifier and the callback stay. -/

namespace C11Http.Posix

open C11Http.Lib C11Http.Lib.Run

/-- An event of the loop, not of a call, and not one that only comes with another. -/
def ClientEvent.ofLoop : ClientEvent → Bool
  | .queued _ => false
  | .threw => false
  | .closed _ => false
  | _ => true

namespace Client

/-- The read branch. -/
def heard (c : Client) (recv : Recv) : List ClientEvent :=
  .received recv.data ::
    if recv.data ≠ [] ∧ c.mCallback = true then [.receiveComplete c.mIdentifier recv.data] else []

/-- The write branch. -/
def written (c : Client) (result : ℤ) : List ClientEvent :=
  .handed (offered c.mOutgoingBytes) result ::
    if c.mCallback then [.sendComplete c.mIdentifier (expected c.mOutgoingBytes)] else []

/-- What the loop does in a step. -/
def happened (c : Client) : Action → List ClientEvent
  | .read recv _ =>
    match c.pc with
    | .read readFds _ => if c.mSocket ∈ readFds then c.heard recv else []
    | _ => []
  | .write result _ =>
    match c.pc with
    | .write writeFds => if c.mSocket ∈ writeFds then c.written result else []
    | _ => []
  | _ => []

structure Grown (c d : Client) (es : List ClientEvent) : Prop where
  mCallback : d.mCallback = c.mCallback
  mIdentifier : d.mIdentifier = c.mIdentifier
  trace : ∃ all, d.trace = c.trace ++ all ∧ all.filter ClientEvent.ofLoop = es

variable {c d u : Client}

namespace Grown

theorem refl (c : Client) : Grown c c [] := ⟨rfl, rfl, [], (List.append_nil _).symm, rfl⟩

theorem trans {es fs : List ClientEvent} (h : Grown c d es) (h' : Grown d u fs) :
    Grown c u (es ++ fs) := by
  obtain ⟨all, hall, hes⟩ := h.trace
  obtain ⟨all', hall', hfs⟩ := h'.trace
  refine ⟨h'.mCallback.trans h.mCallback, h'.mIdentifier.trans h.mIdentifier, all ++ all', ?_, ?_⟩
  · rw [hall', hall, List.append_assoc]
  · rw [List.filter_append, hes, hfs]

/-- What changes other members only. -/
theorem of_trace (hcb : d.mCallback = c.mCallback) (hid : d.mIdentifier = c.mIdentifier)
    (ht : d.trace = c.trace) : Grown c d [] :=
  ⟨hcb, hid, [], by rw [ht, List.append_nil], rfl⟩

end Grown

theorem grown_record (c : Client) (es : List ClientEvent) :
    Grown c (c.record es) (es.filter ClientEvent.ofLoop) := ⟨rfl, rfl, es, rfl, rfl⟩

theorem grown_call (c : Client) (k : ClientCall) : Grown c (c.call k) [] := by
  cases k with
  | sendDataToServer data =>
    show Grown c (c.sendDataToServer data) []
    unfold sendDataToServer
    split_ifs
    · exact ⟨rfl, rfl, [.queued data], rfl, rfl⟩
    · exact Grown.refl c
  | disconnect poll =>
    show Grown c (c.disconnect poll).1 []
    unfold disconnect
    split_ifs
    · cases poll with
      | some strerror => exact Grown.of_trace rfl rfl rfl
      | none => exact ⟨rfl, rfl, [.closed c.mSocket], rfl, rfl⟩
    · exact Grown.refl c

theorem grown_calls (ks : List ClientCall) (c : Client) : Grown c (ks.foldl call c) [] := by
  induction ks generalizing c with
  | nil => exact Grown.refl c
  | cons k ks ih => exact (grown_call c k).trans (ih _)

theorem grown_react (c : Client) (r : Reaction ClientCall) : Grown c (c.react r) [] := by
  have h := grown_calls r.calls c
  unfold react
  cases r.outcome with
  | returns => exact h
  | runtimeError => exact h.trans (grown_record _ [.threw])
  | other => exact h.trans (grown_record _ [.threw])

theorem grown_leave (c : Client) : Grown c c.leave [] := .of_trace rfl rfl rfl

theorem grown_goto (c : Client) (pc : ClientPc) : Grown c (c.goto pc) [] := by
  unfold goto
  split
  · exact Grown.refl c
  · exact Grown.of_trace rfl rfl rfl

/-- A report to the callback, and what the callback does then. -/
theorem grown_reported (c : Client) {e : ClientEvent} (h : e.ofLoop = true)
    (r : Reaction ClientCall) : Grown c ((c.record [e]).react r) [e] := by
  have hrecord := grown_record c [e]
  rw [List.filter_cons_of_pos h, List.filter_nil] at hrecord
  exact hrecord.trans (grown_react _ r)

theorem grown_readBranch (c : Client) (recv : Recv) (receiveComplete : Reaction ClientCall) :
    Grown c (c.readBranch recv receiveComplete) (c.heard recv) := by
  have hrecv : Grown c (c.record [.received recv.data]) [.received recv.data] := grown_record c _
  have hdeliver : ∀ data, Grown c ((c.record [.received recv.data]).deliver data receiveComplete)
      [.received recv.data, .receiveComplete c.mIdentifier data] := by
    intro data
    have hreport := grown_reported (c.record [.received recv.data])
      (e := .receiveComplete c.mIdentifier data) rfl receiveComplete
    exact hrecv.trans hreport
  have hsilent : ¬ (recv.data ≠ [] ∧ c.mCallback = true) →
      c.heard recv = [.received recv.data] := by
    intro h
    unfold heard
    rw [if_neg h]
  have htold : recv.data ≠ [] → c.mCallback = true →
      c.heard recv = [.received recv.data, .receiveComplete c.mIdentifier recv.data] := by
    intro hne hcb
    unfold heard
    rw [if_pos ⟨hne, hcb⟩]
  unfold readBranch
  cases recv with
  | failed strerror =>
    rw [hsilent fun h => h.1 rfl]
    exact hrecv.trans ((grown_record _ [.threw]).trans (grown_leave _))
  | bytes data =>
    by_cases hlen : data.length = 0
    · rw [hsilent fun h => h.1 (List.length_eq_zero_iff.mp hlen)]
      simp only [if_pos hlen]
      exact hrecv.trans (Grown.of_trace rfl rfl rfl)
    · have hne : data ≠ [] := fun hnil => hlen (List.length_eq_zero_iff.mpr hnil)
      by_cases hcb : c.mCallback = true
      · have hcb' : (c.record [.received (Recv.bytes data).data]).mCallback = true := hcb
        rw [htold hne hcb]
        simp only [if_neg hlen, if_pos hcb']
        cases receiveComplete.outcome with
        | returns => exact hdeliver data
        | runtimeError => exact (hdeliver data).trans (grown_leave _)
        | other => exact (hdeliver data).trans (grown_leave _)
      · have hcb' : ¬ (c.record [.received (Recv.bytes data).data]).mCallback = true := hcb
        rw [hsilent fun h => hcb h.2]
        simp only [if_neg hlen, if_neg hcb']
        exact hrecv

theorem grown_writeBranch (c : Client) (result : ℤ) (sendComplete : Reaction ClientCall) :
    Grown c (c.writeBranch result sendComplete) (c.written result) := by
  have hhand : Grown c (c.handing result) [.handed (offered c.mOutgoingBytes) result] :=
    ⟨rfl, rfl, [.handed (offered c.mOutgoingBytes) result], rfl, rfl⟩
  unfold writeBranch written
  by_cases hcb : c.mCallback = true
  · have hreport : Grown c ((c.handing result).report (expected c.mOutgoingBytes) sendComplete)
        [.handed (offered c.mOutgoingBytes) result,
          .sendComplete c.mIdentifier (expected c.mOutgoingBytes)] :=
      hhand.trans (grown_reported (c.handing result)
        (e := .sendComplete c.mIdentifier (expected c.mOutgoingBytes)) rfl sendComplete)
    simp only [if_pos hcb]
    cases sendComplete.outcome with
    | returns => exact hreport.trans (Grown.of_trace rfl rfl rfl)
    | runtimeError => exact hreport.trans (grown_leave _)
    | other => exact hreport.trans (grown_leave _)
  · simp only [if_neg hcb]
    exact hhand.trans (Grown.of_trace rfl rfl rfl)

/-- **What a step adds to the events of the loop.** -/
theorem grown_step {a : Action} (h : step c a = some d) : Grown c d (c.happened a) := by
  cases a with
  | call k =>
    cases h
    exact grown_call c k
  | waitForEvents =>
    obtain rfl := step_waitForEvents h
    exact Grown.of_trace rfl rfl rfl
  | select result =>
    simp only [step] at h
    split_ifs at h
    rcases result with _ | ⟨readFds, writeFds⟩
    · cases h
      exact (grown_record c [.threw]).trans (grown_leave _)
    · simp only at h
      split_ifs at h
      cases h
      exact Grown.of_trace rfl rfl rfl
  | read recv receiveComplete =>
    simp only [step] at h
    split at h
    · rename_i readFds writeFds hpc
      simp only [happened, hpc]
      split_ifs at h with hlen hready
      · cases h
        rw [if_pos hready]
        have hread := (grown_readBranch c recv receiveComplete).trans
          (grown_goto _ (.write writeFds))
        rwa [List.append_nil] at hread
      · cases h
        rw [if_neg hready]
        exact grown_goto c _
    · cases h
  | write result sendComplete =>
    simp only [step] at h
    split at h
    · rename_i writeFds hpc
      simp only [happened, hpc]
      split_ifs at h with hres hready
      · cases h
        rw [if_pos hready]
        have hwrite := (grown_writeBranch c result sendComplete).trans (grown_goto _ .top)
        rwa [List.append_nil] at hwrite
      · cases h
        rw [if_neg hready]
        exact grown_goto c _
    · cases h

end Client

end C11Http.Posix
