import C11Http.Posix.Protocol
import C11Http.Posix.SelectSets

/-! # What a pass of the loop does for a connection

A pass goes over the descriptors from `0` to the largest, with two steps for each. For every
connection that is registered when `select` returns, a pass that comes to its end has done the
following (`pass_serves`), whatever the other connections, the callbacks and the listening socket
have done in it: if the socket was ready for reading, the callback has been told what was received
or that the connection is closed, or both, otherwise nothing; if it was ready for writing and the
connection has not been dropped before, the connection has written once, otherwise not.

The invariant `Passing` follows the connection `p` with the socket `k` through the pass: as long as
the loop is before the read branch of `k` nothing has happened to `p`, behind it what was to be read
is read, and behind the write branch of `k` what was to be written is written. -/

namespace C11Http.Posix

open C11Http.Lib C11Http.Lib.Run Connections

/-- What a receive tells the callback of a connection. -/
def readingNotice (p : Ptr) : Event → Option Turn
  | .receiveComplete q _ _ => if q = p then some .message else none
  | .disconnected q _ => if q = p then some .closing else none
  | _ => none

/-- What a connection hands to `::send`. -/
def handedFor (p : Ptr) : Event → Option Bytes
  | .handed q buffer _ => if q = p then some buffer else none
  | _ => none

/-- How many steps a pass still has. -/
def Pc.remaining : Pc → ℕ
  | .scan i fdmax _ _ .read => 2 * (fdmax - i) + 2
  | .scan i fdmax _ _ .write => 2 * (fdmax - i) + 1
  | _ => 0

/-- The pass is behind the read branch of descriptor `k`. -/
def Pc.pastRead (k : Fd) : Pc → Bool
  | .scan i _ _ _ .read => decide (k < i)
  | .scan i _ _ _ .write => decide (k ≤ i)
  | _ => true

/-- The pass is behind the write branch of descriptor `k`. -/
def Pc.pastWrite (k : Fd) : Pc → Bool
  | .scan i _ _ _ _ => decide (k < i)
  | _ => true

namespace Server

/-- A step over a descriptor. -/
def Action.Scans : Action → Prop
  | .read _ _ _ => True
  | .write _ => True
  | _ => False

instance : ∀ a : Action, Decidable a.Scans
  | .read _ _ _ => .isTrue trivial
  | .write _ => .isTrue trivial
  | .call _ => .isFalse id
  | .select _ => .isFalse id

/-- What has been done for the connection since the state `s`: it has been read, if `r`, and has
been written, if `w` and it was still registered. -/
structure Served (r w : Bool) (p : Ptr) (s t : Server) (turns : List Turn)
    (buffers : List Bytes) : Prop where
  told : t.trace.filterMap (readingNotice p) = s.trace.filterMap (readingNotice p) ++ turns
  handed : t.trace.filterMap (handedFor p) = s.trace.filterMap (handedFor p) ++ buffers
  read : if r = true then turns = [.message] ∨ turns = [.closing] ∨ turns = [.message, .closing]
    else turns = []
  written : buffers.length = if w = true ∧ .closing ∉ turns then 1 else 0
  registered : p ∈ t.mConnections.mContainer ↔ .closing ∉ turns

/-- **A pass serves a connection** as `select` has reported it. -/
def Serves (readFds writeFds : Finset Fd) (s t : Server) (p : Ptr) : Prop :=
  ∃ turns buffers, Served (decide ((s.heap p).mSocket ∈ readFds))
    (decide ((s.heap p).mSocket ∈ writeFds)) p s t turns buffers

variable {s t : Server} {p : Ptr} {r w : Bool}

theorem readingNotice_ofLoop (p : Ptr) : ∀ e, ofLoop e = false → readingNotice p e = none := by
  intro e he
  cases e <;> first | rfl | cases he

theorem handedFor_ofLoop (p : Ptr) : ∀ e, ofLoop e = false → handedFor p e = none := by
  intro e he
  cases e <;> first | rfl | cases he

/-! ### The largest socket -/

theorem largest_congr {heap heap' : Heap} {ps : List Ptr}
    (h : ∀ q ∈ ps, (heap' q).mSocket = (heap q).mSocket) :
    largest heap' ps = largest heap ps := by
  induction ps using List.reverseRecOn with
  | nil => rfl
  | append_singleton ps q ih =>
    have hps : ∀ q' ∈ ps, (heap' q').mSocket = (heap q').mSocket :=
      fun q' hq' => h q' (List.mem_append_left _ hq')
    have hq : (heap' q).mSocket = (heap q).mSocket :=
      h q (List.mem_append_right _ (List.mem_singleton_self q))
    rw [largest_concat, largest_concat, ih hps, hq]

/-- The registry knows its largest socket. -/
def Measured (s : Server) : Prop :=
  s.mConnections.mFdMax = largest s.heap s.mConnections.mContainer

theorem Measured.framed (h : s.Measured) (hs : s.Live) (hf : Framed s t) : t.Measured := by
  have hsock : ∀ q ∈ s.mConnections.mContainer, (t.heap q).mSocket = (s.heap q).mSocket :=
    fun q hq => hf.mSocket q (hs.fresh q (Or.inl hq))
  unfold Measured
  rw [hf.mConnections, h, largest_congr hsock]

theorem measured_step {a : Action} (h : s.Measured) (hs : s.Live) (ht : s.step a = some t) :
    t.Measured := by
  rcases step_effect hs.fresh ht with hf | ⟨v, pc, rfl, ⟨attempt, -, u, hu, rfl⟩ |
    ⟨q, -, u, hu, rfl⟩ | ⟨-, u, i, hu, rfl⟩⟩
  · exact h.framed hs hf
  · have hu' := h.framed hs hu.framed
    unfold Measured at hu' ⊢
    rw [goto_mConnections, goto_heap]
    show max u.mConnections.mFdMax ((u.heap s.nextPtr).mSocket : ℤ) =
      largest u.heap (_ ++ [s.nextPtr])
    rw [hu', largest_concat]
  · have hu' := h.framed hs hu
    unfold Measured
    rw [goto_mConnections, goto_heap, removeServerConnection_heap,
      removeServerConnection_mConnections]
    exact (removeServerConnection_sockets (hs.framed hu).distinct hu' _).2.2
  · have hu' := h.framed hs hu
    unfold Measured at hu' ⊢
    rw [goto_mConnections, goto_heap]
    exact hu'

/-- A registered connection is among the descriptors of a pass. -/
theorem Measured.le_fdmax (h : s.Measured) (hp : p ∈ s.mConnections.mContainer) :
    (s.heap p).mSocket ≤ s.fdmax := by
  have hle : ((s.heap p).mSocket : ℤ) ≤ s.mConnections.getMax := by
    unfold getMax
    rw [h]
    exact le_largest hp
  exact SelectSets.le_fdmax hle (le_max_right _ _)

/-! ### What the events of a step say -/

theorem readingNotice_removed (p : Ptr) (s : Server) (sckt : Fd) :
    (s.removed sckt).filterMap (readingNotice p) = [] := by
  unfold removed
  split <;> rfl

theorem readingNotice_dropped (p : Ptr) (hcb : s.mCallback = true) (sckt : Fd) (q : Ptr)
    (d : Reaction Call) :
    (s.dropped sckt q d).filterMap (readingNotice p) = if q = p then [.closing] else [] := by
  have hrest : (if d.outcome = .returns then s.removed sckt else []).filterMap
      (readingNotice p) = [] := by
    split_ifs
    · exact readingNotice_removed p s sckt
    · rfl
  unfold dropped
  rw [if_pos hcb, List.filterMap_cons, hrest]
  by_cases hqp : q = p
  · simp [readingNotice, hqp]
  · simp [readingNotice, hqp]

theorem readingNotice_handled (p : Ptr) (hcb : s.mCallback = true) (i : Fd) (e : Reading) :
    (s.handled i e).filterMap (readingNotice p) =
      if s.mConnections.getServerConnection s.heap i = some p then
        (if e.recv.data = [] then [] else [.message]) ++
          if Reading.Fails e then [.closing] else []
      else [] := by
  unfold handled Reading.Fails
  cases hq : s.mConnections.getServerConnection s.heap i with
  | none => rfl
  | some q =>
    have hdropped := readingNotice_dropped p hcb i q e.disconnected
    by_cases hdata : e.recv.data = []
    · simp only [hdata, if_true, true_or, List.nil_append, Option.some.injEq]
      rw [List.filterMap_cons]
      exact hdropped
    · simp only [hdata, if_false, false_or, hcb, if_true, Option.some.injEq]
      rw [List.filterMap_cons, List.filterMap_cons]
      by_cases hqp : q = p
      · subst hqp
        by_cases ho : e.receiveComplete.outcome = .runtimeError
        · simp [readingNotice, ho, hdropped]
        · simp [readingNotice, ho]
      · by_cases ho : e.receiveComplete.outcome = .runtimeError
        · simp [readingNotice, hqp, ho, hdropped]
        · simp [readingNotice, hqp, ho]

theorem readingNotice_attempted (p : Ptr) (s : Server) (a : Attempt) :
    (s.attempted a).filterMap (readingNotice p) = [] := by
  have hevents : a.events.filterMap (readingNotice p) = [] :=
    filterMap_events a (fun _ => rfl) (fun _ _ => rfl) (fun _ _ => rfl)
  unfold attempted
  rw [List.filterMap_append, hevents, List.nil_append]
  cases a.construct with
  | error what => rfl
  | ok client => cases s.mCallback <;> rfl

theorem readingNotice_written (p : Ptr) (s : Server) (i : Fd) (e : Writing) :
    (s.written i e).filterMap (readingNotice p) = [] := by
  unfold written
  cases s.mConnections.getServerConnection s.heap i with
  | none => rfl
  | some q =>
    cases hc : ((s.heap q).sendQueuedMessage e.result).2.2 with
    | none => simp [hc, readingNotice]
    | some count => cases hcb : s.mCallback <;> simp [hc, readingNotice]

theorem handedFor_removed (p : Ptr) (s : Server) (sckt : Fd) :
    (s.removed sckt).filterMap (handedFor p) = [] := by
  unfold removed
  split <;> rfl

theorem handedFor_dropped (p : Ptr) (s : Server) (sckt : Fd) (q : Ptr) (d : Reaction Call) :
    (s.dropped sckt q d).filterMap (handedFor p) = [] := by
  have hremoved := handedFor_removed p s sckt
  unfold dropped
  split_ifs
  · exact hremoved
  · rfl
  · exact hremoved

theorem handedFor_handled (p : Ptr) (s : Server) (i : Fd) (e : Reading) :
    (s.handled i e).filterMap (handedFor p) = [] := by
  unfold handled
  cases s.mConnections.getServerConnection s.heap i with
  | none => rfl
  | some q =>
    have hdropped := handedFor_dropped p s i q e.disconnected
    simp only
    split_ifs
    · exact hdropped
    · exact hdropped
    · rfl
    · rfl

theorem handedFor_attempted (p : Ptr) (s : Server) (a : Attempt) :
    (s.attempted a).filterMap (handedFor p) = [] := by
  have hevents : a.events.filterMap (handedFor p) = [] :=
    filterMap_events a (fun _ => rfl) (fun _ _ => rfl) (fun _ _ => rfl)
  unfold attempted
  rw [List.filterMap_append, hevents, List.nil_append]
  cases a.construct with
  | error what => rfl
  | ok client => cases s.mCallback <;> rfl

theorem handedFor_written (p : Ptr) (s : Server) (i : Fd) (e : Writing) :
    (s.written i e).filterMap (handedFor p) =
      if s.mConnections.getServerConnection s.heap i = some p then
        [offered (s.heap p).mOutgoingBytes]
      else [] := by
  unfold written
  cases hq : s.mConnections.getServerConnection s.heap i with
  | none => rfl
  | some q =>
    by_cases hqp : q = p
    · subst hqp
      cases hc : ((s.heap q).sendQueuedMessage e.result).2.2 with
      | none => simp [handedFor, hc]
      | some count => cases hcb : s.mCallback <;> simp [handedFor, hc]
    · cases hc : ((s.heap q).sendQueuedMessage e.result).2.2 with
      | none => simp [handedFor, hc, hqp]
      | some count => cases hcb : s.mCallback <;> simp [handedFor, hc, hqp]

/-! ### Who stays registered -/

/-- A connection stays registered, unless it is the one that is removed. -/
theorem mem_step_iff {a : Action} (hs : s.Live) (hlast : RemovesLast s a) (hp : p < s.nextPtr)
    (hne : removes s a ≠ some p) (h : s.step a = some t) :
    p ∈ t.mConnections.mContainer ↔ p ∈ s.mConnections.mContainer := by
  rcases step_effect hs.fresh h with hf | ⟨v, pc, rfl, ⟨attempt, -, u, hu, rfl⟩ |
    ⟨q, hq, u, hu, rfl⟩ | ⟨-, u, i, hu, rfl⟩⟩
  · rw [hf.mConnections]
  · rw [goto_mConnections]
    show p ∈ u.mConnections.mContainer ++ [s.nextPtr] ↔ _
    rw [hu.framed.mConnections, List.mem_append, List.mem_singleton]
    exact ⟨fun hmem => hmem.resolve_right hp.ne, Or.inl⟩
  · obtain ⟨xs, hc⟩ := List.getLast?_eq_some_iff.mp (hlast q hq)
    have hqp : p ≠ q := fun heq => hne (heq ▸ hq)
    have hqmem : q ∈ s.mConnections.mContainer := removes_mem hq
    have hsock := hu.mSocket q (hs.fresh q (Or.inl hqmem))
    have hc' : u.mConnections.mContainer = xs ++ [q] := by rw [hu.mConnections, hc]
    rw [goto_mConnections, ← hsock, removeServerConnection_of_last (hs.framed hu) hc', hc]
    show p ∈ xs ↔ _
    rw [List.mem_append, List.mem_singleton]
    exact ⟨Or.inl, fun hmem => hmem.resolve_right hqp⟩
  · rw [goto_mConnections]
    show p ∈ u.mConnections.mContainer ↔ _
    rw [hu.mConnections]

/-- The socket of an object stays. -/
theorem mSocket_step {a : Action} (hs : s.Fresh) (hp : p < s.nextPtr) (h : s.step a = some t) :
    (t.heap p).mSocket = (s.heap p).mSocket := by
  rcases step_effect hs h with hf | ⟨v, pc, rfl, ⟨attempt, -, u, hu, rfl⟩ |
    ⟨q, -, u, hu, rfl⟩ | ⟨-, u, i, hu, rfl⟩⟩
  · exact hf.mSocket p hp
  · rw [goto_heap]
    exact hu.framed.mSocket p hp
  · rw [goto_heap, removeServerConnection_heap]
    exact hu.mSocket p hp
  · rw [goto_heap]
    exact hu.mSocket p hp

theorem getServerConnection_of_mem (hs : s.Live) (hp : p ∈ s.mConnections.mContainer) :
    s.mConnections.getServerConnection s.heap (s.heap p).mSocket = some p := by
  cases hq : s.mConnections.getServerConnection s.heap (s.heap p).mSocket with
  | none => exact absurd rfl (getServerConnection_none.mp hq p hp)
  | some q =>
    obtain ⟨hmem, heq⟩ := getServerConnection_some hq
    rw [List.inj_on_of_nodup_map hs.distinct hmem hp heq]

/-! ### The steps at other descriptors, and at the one of the connection -/

/-- The descriptor the loop is at. -/
def At (s : Server) (i : Fd) (readFds writeFds : Finset Fd) (phase : Phase) : Prop :=
  ∃ fdmax, s.pc = .scan i fdmax readFds writeFds phase

/-- A step at another descriptor does nothing for the connection. -/
theorem Served.elsewhere {turns : List Turn} {buffers : List Bytes} {a : Action} {i k : Fd}
    {readFds writeFds : Finset Fd} {phase : Phase} (h : Served r w p s t turns buffers)
    (ht : t.Live) (hlast : RemovesLast t a) (hcb : t.mCallback = true) (hp : p < t.nextPtr)
    (hk : (t.heap p).mSocket = k) (hi : i ≠ k) (hpc : t.At i readFds writeFds phase) {u : Server}
    (hu : t.step a = some u) : Served r w p s u turns buffers := by
  obtain ⟨fdmax, hpc⟩ := hpc
  have hother : t.mConnections.getServerConnection t.heap i ≠ some p := by
    intro hq
    exact hi ((getServerConnection_some hq).2.symm.trans hk)
  have hkeeps : removes t a ≠ some p := by
    intro hq
    obtain ⟨-, _, _, _, _, _, _, -, hpc', -, -⟩ := removes_some hq
    rw [hpc, Pc.scan.injEq] at hpc'
    exact hi (hpc'.1.trans hk)
  have hquiet : (t.happened a).filterMap (readingNotice p) = [] ∧
      (t.happened a).filterMap (handedFor p) = [] := by
    obtain ⟨hnil, -⟩ | ⟨attempt, connected, e, pc, -, -, hap, -⟩ |
      ⟨attempt, connected, e, j, pc, rfl, hap, -⟩ | ⟨e, j, pc, rfl, -, hap, -⟩ := happened_cases hu
    · rw [hnil]
      exact ⟨rfl, rfl⟩
    · rw [hap]
      exact ⟨readingNotice_attempted p t attempt, handedFor_attempted p t attempt⟩
    · simp only [happened, hpc]
      cases phase with
      | read =>
        simp only
        split_ifs
        · exact ⟨readingNotice_attempted p t attempt, handedFor_attempted p t attempt⟩
        · rw [readingNotice_handled p hcb, if_neg hother]
          exact ⟨rfl, handedFor_handled p t i e⟩
        · exact ⟨rfl, rfl⟩
      | write => exact ⟨rfl, rfl⟩
    · simp only [happened, hpc]
      cases phase with
      | read => exact ⟨rfl, rfl⟩
      | write =>
        simp only
        split_ifs
        · rw [handedFor_written, if_neg hother]
          exact ⟨readingNotice_written p t i e, rfl⟩
        · exact ⟨rfl, rfl⟩
  refine ⟨?_, ?_, h.read, h.written, ?_⟩
  · rw [filterMap_step (readingNotice_ofLoop p) hu, hquiet.1, List.append_nil]
    exact h.told
  · rw [filterMap_step (handedFor_ofLoop p) hu, hquiet.2, List.append_nil]
    exact h.handed
  · rw [mem_step_iff ht hlast hp hkeeps hu]
    exact h.registered

/-- **The read branch of the connection** does what is to be read. -/
theorem Served.atRead {turns : List Turn} {buffers : List Bytes} {a : Action}
    {readFds writeFds : Finset Fd} (h : Served false false p s t turns buffers)
    (ht : t.Live) (hlast : RemovesLast t a) (hcb : t.mCallback = true) (hp : p < t.nextPtr)
    (hpc : t.At (t.heap p).mSocket readFds writeFds .read) {u : Server} (hu : t.step a = some u)
    (hne : u.pc ≠ .halted) :
    ∃ turns, Served (decide ((t.heap p).mSocket ∈ readFds)) false p s u turns [] := by
  obtain ⟨fdmax, hpc⟩ := hpc
  obtain ⟨htold, hhanded, hread, hwritten, hmem⟩ := h
  obtain rfl : turns = [] := hread
  obtain rfl : buffers = [] := List.eq_nil_of_length_eq_zero hwritten
  have hp' : p ∈ t.mConnections.mContainer := hmem.mpr (List.not_mem_nil)
  have hfound := getServerConnection_of_mem ht hp'
  rw [List.append_nil] at htold hhanded
  cases a with
  | call c => exact absurd ((step_call hu).1.symm.trans hpc) Pc.noConfusion
  | select result => exact absurd ((step_select hu).1.symm.trans hpc) Pc.noConfusion
  | write e =>
    obtain ⟨i, n, R, W, hpc', -, -⟩ := step_write hu
    rw [hpc] at hpc'
    cases hpc'
  | read attempt connected e =>
    obtain ⟨i, n, R, W, hpc', hr, heq⟩ := step_read hu
    rw [hpc, Pc.scan.injEq] at hpc'
    obtain ⟨rfl, rfl, rfl, rfl, -⟩ := hpc'
    have htold' := filterMap_step (readingNotice_ofLoop p) hu
    have hhanded' := filterMap_step (handedFor_ofLoop p) hu
    simp only [happened, hpc] at htold' hhanded'
    by_cases hin : (t.heap p).mSocket ∈ readFds
    · have hsock := ht.connect p hp'
      rw [if_pos hin, if_neg hsock] at htold' hhanded'
      rw [readingNotice_handled p hcb, if_pos hfound, htold] at htold'
      rw [handedFor_handled, hhanded] at hhanded'
      by_cases hfails : Reading.Fails e
      · -- the connection is dropped
        have hgone : p ∉ u.mConnections.mContainer := by
          intro hmem'
          rw [heq, goto_mConnections] at hmem'
          unfold readBranch at heq hmem'
          rw [if_pos hin, if_neg hsock] at heq hmem'
          have hhalted := handleServerConnection_gone ht hcb hfound hfails hmem'
          refine hne ?_
          rw [heq]
          unfold goto
          rw [if_pos hhalted]
          exact hhalted
        rw [if_pos hfails] at htold'
        refine ⟨_, htold', hhanded', ?_, rfl, ?_⟩
        · rw [decide_eq_true hin, if_pos rfl]
          by_cases hdata : e.recv.data = []
          · rw [if_pos hdata]
            exact Or.inr (Or.inl rfl)
          · rw [if_neg hdata]
            exact Or.inr (Or.inr rfl)
        · exact ⟨fun hmem' => absurd hmem' hgone, fun hnot => absurd (by simp) hnot⟩
      · have hdata : e.recv.data ≠ [] := fun hnil => hfails (Or.inl hnil)
        have hkeeps : removes t (.read attempt connected e) ≠ some p := by
          intro hq
          simp only [removes, hpc] at hq
          split_ifs at hq with hif
          exact hfails (hif.2.2.1.imp id And.right)
        rw [if_neg hdata, if_neg hfails, List.append_nil] at htold'
        refine ⟨_, htold', hhanded', ?_, rfl, ?_⟩
        · rw [decide_eq_true hin, if_pos rfl]
          exact Or.inl rfl
        · rw [mem_step_iff ht hlast hp hkeeps hu]
          exact ⟨fun _ => by decide, fun _ => hp'⟩
    · have hkeeps : removes t (.read attempt connected e) ≠ some p := by
        intro hq
        simp only [removes, hpc] at hq
        split_ifs at hq with hif
        exact hin hif.1
      rw [if_neg hin, List.filterMap_nil, htold] at htold'
      rw [if_neg hin, List.filterMap_nil, hhanded] at hhanded'
      refine ⟨[], htold', hhanded', ?_, rfl, ?_⟩
      · rw [decide_eq_false hin]
        rfl
      · rw [mem_step_iff ht hlast hp hkeeps hu]
        exact ⟨fun _ => List.not_mem_nil, fun _ => hp'⟩

/-- **The write branch of the connection** writes once, if it is still registered. -/
theorem Served.atWrite {turns : List Turn} {buffers : List Bytes} {a : Action}
    {readFds writeFds : Finset Fd} (h : Served r false p s t turns buffers)
    (ht : t.Live) (hlast : RemovesLast t a) (hp : p < t.nextPtr)
    (hpc : t.At (t.heap p).mSocket readFds writeFds .write) {u : Server} (hu : t.step a = some u) :
    ∃ buffers, Served r (decide ((t.heap p).mSocket ∈ writeFds)) p s u turns buffers := by
  obtain ⟨fdmax, hpc⟩ := hpc
  obtain ⟨htold, hhanded, hread, hwritten, hmem⟩ := h
  obtain rfl : buffers = [] := List.eq_nil_of_length_eq_zero hwritten
  rw [List.append_nil] at hhanded
  cases a with
  | call c => exact absurd ((step_call hu).1.symm.trans hpc) Pc.noConfusion
  | select result => exact absurd ((step_select hu).1.symm.trans hpc) Pc.noConfusion
  | read attempt connected e =>
    obtain ⟨i, n, R, W, hpc', -, -⟩ := step_read hu
    rw [hpc] at hpc'
    cases hpc'
  | write e =>
    have hkeeps : removes t (.write e) ≠ some p := by
      intro hq
      cases hq
    have hmem' := mem_step_iff ht hlast hp hkeeps hu
    have htold' := filterMap_step (readingNotice_ofLoop p) hu
    have hhanded' := filterMap_step (handedFor_ofLoop p) hu
    have hquiet : (t.happened (.write e)).filterMap (readingNotice p) = [] := by
      simp only [happened, hpc]
      split_ifs
      · exact readingNotice_written p t _ e
      · rfl
    rw [hquiet, List.append_nil, htold] at htold'
    simp only [happened, hpc] at hhanded'
    rw [hhanded] at hhanded'
    by_cases hin : (t.heap p).mSocket ∈ writeFds
    · rw [if_pos hin, handedFor_written] at hhanded'
      refine ⟨_, htold', hhanded', hread, ?_, hmem'.trans hmem⟩
      by_cases hclosing : .closing ∉ turns
      · rw [if_pos (getServerConnection_of_mem ht (hmem.mpr hclosing)),
          if_pos ⟨decide_eq_true hin, hclosing⟩]
        rfl
      · have hnone : t.mConnections.getServerConnection t.heap (t.heap p).mSocket ≠ some p :=
          fun hq => hclosing (hmem.mp (getServerConnection_some hq).1)
        rw [if_neg hnone, if_neg fun hif => hclosing hif.2]
        rfl
    · rw [if_neg hin, List.filterMap_nil] at hhanded'
      refine ⟨[], htold', hhanded', hread, ?_, hmem'.trans hmem⟩
      rw [decide_eq_false hin, if_neg fun hif => Bool.false_ne_true hif.1]
      rfl

/-! ### The steps of a pass -/

/-- What a step of a pass does to the place in the loop. -/
theorem scans_step {a : Action} (ha : a.Scans) (h : s.step a = some t) :
    ∃ i fdmax readFds writeFds phase, s.pc = .scan i fdmax readFds writeFds phase ∧
      (t.pc = .halted ∨ t.pc = match phase with
        | .read => .scan i fdmax readFds writeFds .write
        | .write => if i < fdmax then .scan (i + 1) fdmax readFds writeFds .read else .top) := by
  cases a with
  | call c => exact ha.elim
  | select result => exact ha.elim
  | read attempt connected e =>
    obtain ⟨i, fdmax, readFds, writeFds, hpc, -, rfl⟩ := step_read h
    exact ⟨i, fdmax, readFds, writeFds, .read, hpc, goto_pc _ _⟩
  | write e =>
    obtain ⟨i, fdmax, readFds, writeFds, hpc, -, rfl⟩ := step_write h
    exact ⟨i, fdmax, readFds, writeFds, .write, hpc, goto_pc _ _⟩

/-- **Every step of a pass is one less to go**, unless it leaves the loop. -/
theorem remaining_step {a : Action} (ha : a.Scans) (h : s.step a = some t) :
    s.pc.remaining ≠ 0 ∧ (t.pc = .halted ∨ t.pc.remaining + 1 = s.pc.remaining) := by
  obtain ⟨i, fdmax, readFds, writeFds, phase, hpc, hnext⟩ := scans_step ha h
  rw [hpc]
  cases phase with
  | read =>
    refine ⟨Nat.succ_ne_zero _, hnext.imp_right fun hnext => ?_⟩
    rw [hnext]
    rfl
  | write =>
    refine ⟨Nat.succ_ne_zero _, hnext.imp_right fun hnext => ?_⟩
    rw [hnext]
    simp only [Pc.remaining]
    split_ifs with hlt
    · simp only
      omega
    · simp only
      omega

theorem step_of_halted {a : Action} (h : s.pc = .halted) : s.step a = none := by
  cases a <;> simp [step, h]

/-- A run of a pass is as long as what it leaves to go. -/
theorem length_of_scans : ∀ {bs : List Action} {s : Server}, run step s bs = some t →
    (∀ b ∈ bs, b.Scans) → t.pc ≠ .halted → bs.length + t.pc.remaining = s.pc.remaining := by
  intro bs
  induction bs with
  | nil =>
    intro s hrun _ _
    rw [run_nil, Option.some.injEq] at hrun
    rw [hrun, List.length_nil, Nat.zero_add]
  | cons b bs ih =>
    intro s hrun hscan hne
    obtain ⟨u, hu, hrun⟩ := run_cons_some hrun
    have hrest := ih hrun (fun c hc => hscan c (List.mem_cons_of_mem b hc)) hne
    obtain ⟨-, hhalted | hlt⟩ := remaining_step (hscan b List.mem_cons_self) hu
    · cases bs with
      | nil =>
        rw [run_nil, Option.some.injEq] at hrun
        exact absurd (hrun ▸ hhalted) hne
      | cons c cs =>
        rw [run_cons, step_of_halted hhalted] at hrun
        cases hrun
    · rw [List.length_cons]
      omega

/-- The pass on its way, seen from a connection that was registered at its start `s`. -/
structure Passing (s : Server) (p : Ptr) (fdmax : ℕ) (readFds writeFds : Finset Fd) (t : Server) :
    Prop where
  live : t.Live
  callback : t.mCallback = true
  allocated : p < t.nextPtr
  socket : (t.heap p).mSocket = (s.heap p).mSocket
  place : ∀ i n R W phase, t.pc = .scan i n R W phase → n = fdmax ∧ R = readFds ∧ W = writeFds
  served : t.pc ≠ .halted → ∃ turns buffers,
    Served (t.pc.pastRead (s.heap p).mSocket && decide ((s.heap p).mSocket ∈ readFds))
      (t.pc.pastWrite (s.heap p).mSocket && decide ((s.heap p).mSocket ∈ writeFds))
      p s t turns buffers

theorem Passing.step {fdmax : ℕ} {readFds writeFds : Finset Fd} {a : Action} {u : Server}
    (h : Passing s p fdmax readFds writeFds t) (hle : (s.heap p).mSocket ≤ fdmax) (ha : a.Scans)
    (hlast : RemovesLast t a) (hu : t.step a = some u) :
    Passing s p fdmax readFds writeFds u := by
  obtain ⟨i, n, R, W, phase, hpc, hnext⟩ := scans_step ha hu
  obtain ⟨rfl, rfl, rfl⟩ := h.place i n R W phase hpc
  have hadv := advanced_step h.live.fresh hu
  have hne : t.pc ≠ .halted := by
    rw [hpc]
    exact Pc.noConfusion
  obtain ⟨turns, buffers, hserved⟩ := h.served hne
  rw [hpc] at hserved
  refine ⟨live_step h.live hlast hu, (constant_step h.live.fresh hu).2.trans h.callback,
    h.allocated.trans_le hadv.nextPtr,
    (mSocket_step h.live.fresh h.allocated hu).trans h.socket, ?_, fun hne' => ?_⟩
  · intro j m R' W' phase' hpc'
    rcases hnext with hnext | hnext
    · rw [hnext] at hpc'
      cases hpc'
    · rw [hnext] at hpc'
      cases phase with
      | read =>
        cases hpc'
        exact ⟨rfl, rfl, rfl⟩
      | write =>
        simp only at hpc'
        split_ifs at hpc'
        cases hpc'
        exact ⟨rfl, rfl, rfl⟩
  · have hnext := hnext.resolve_left hne'
    have hat : t.At i R W phase := ⟨n, hpc⟩
    have helsewhere : i ≠ (s.heap p).mSocket → _ := fun hi =>
      hserved.elsewhere h.live hlast h.callback h.allocated h.socket hi hat hu
    rw [hnext]
    cases phase with
    | read =>
      simp only [Pc.pastRead, Pc.pastWrite] at hserved helsewhere ⊢
      by_cases hi : i = (s.heap p).mSocket
      · subst hi
        rw [decide_eq_false (lt_irrefl _), Bool.false_and, Bool.false_and] at hserved
        rw [← h.socket] at hat
        obtain ⟨turns, hread⟩ := hserved.atRead h.live hlast h.callback h.allocated hat hu hne'
        rw [h.socket] at hread
        rw [decide_eq_true le_rfl, decide_eq_false (lt_irrefl _), Bool.true_and, Bool.false_and]
        exact ⟨turns, [], hread⟩
      · have hiff : (s.heap p).mSocket ≤ i ↔ (s.heap p).mSocket < i :=
          ⟨fun hle => lt_of_le_of_ne hle (Ne.symm hi), le_of_lt⟩
        rw [decide_eq_decide.mpr hiff]
        exact ⟨turns, buffers, helsewhere hi⟩
    | write =>
      have hpast : (if i < n then Pc.scan (i + 1) n R W .read else .top).pastRead
          (s.heap p).mSocket = decide ((s.heap p).mSocket ≤ i) ∧
          (if i < n then Pc.scan (i + 1) n R W .read else .top).pastWrite
          (s.heap p).mSocket = decide ((s.heap p).mSocket ≤ i) := by
        split_ifs with hlt
        · simp only [Pc.pastRead, Pc.pastWrite, Nat.lt_succ_iff, and_self]
        · simp only [Pc.pastRead, Pc.pastWrite, decide_eq_true (hle.trans (not_lt.mp hlt)),
            and_self]
      simp only at hnext ⊢
      rw [hpast.1, hpast.2]
      simp only [Pc.pastRead, Pc.pastWrite] at hserved helsewhere
      by_cases hi : i = (s.heap p).mSocket
      · subst hi
        rw [decide_eq_false (lt_irrefl _), Bool.false_and] at hserved
        rw [← h.socket] at hat
        obtain ⟨buffers, hwrite⟩ := hserved.atWrite h.live hlast h.allocated hat hu
        rw [h.socket] at hwrite
        rw [decide_eq_true le_rfl, Bool.true_and, Bool.true_and]
        rw [decide_eq_true le_rfl, Bool.true_and] at hwrite
        exact ⟨turns, buffers, hwrite⟩
      · have hiff : (s.heap p).mSocket ≤ i ↔ (s.heap p).mSocket < i :=
          ⟨fun hle => lt_of_le_of_ne hle (Ne.symm hi), le_of_lt⟩
        have hsame := helsewhere hi
        rw [← decide_eq_decide.mpr hiff] at hsame
        exact ⟨turns, buffers, hsame⟩

/-- The pass of a registered connection, when `select` has returned. -/
theorem Passing.start (hs : s.Live) (hcb : s.mCallback = true) (hp : p ∈ s.mConnections.mContainer)
    (readFds writeFds : Finset Fd) :
    Passing s p s.fdmax readFds writeFds
      { s with pc := .scan 0 s.fdmax readFds writeFds .read } where
  live := hs.framed { Framed.refl s with }
  callback := hcb
  allocated := hs.fresh p (Or.inl hp)
  socket := rfl
  place i n R W phase hpc := by
    cases hpc
    exact ⟨rfl, rfl, rfl⟩
  served _ := by
    refine ⟨[], [], (List.append_nil _).symm, (List.append_nil _).symm, ?_, ?_, ?_⟩
    · simp [Pc.pastRead]
    · simp [Pc.pastWrite]
    · simp [hp]

theorem measured_start (setup : Setup) : (waitForEvents setup).Measured := rfl

/-- **A pass serves every connection**: when it comes to its end, every connection that was
registered at its start has been read and written as `select` has reported it, once. -/
theorem pass_serves {setup : Setup} (hcb : setup.mCallback = true) {as bs : List Action}
    {readFds writeFds : Finset Fd} {s t : Server}
    (hrun : run step (waitForEvents setup) as = some s)
    (hpass : run step s (.select (some (readFds, writeFds)) :: bs) = some t)
    (hscan : ∀ b ∈ bs, b.Scans) (htop : t.pc = .top)
    (hlast : Along step RemovesLast (waitForEvents setup)
      (as ++ .select (some (readFds, writeFds)) :: bs)) :
    bs.length = 2 * (s.fdmax + 1) ∧
      ∀ p ∈ s.mConnections.mContainer, Serves readFds writeFds s t p := by
  have hinv : s.Live ∧ s.Measured := by
    refine (always_of_along (P := fun s => s.Live ∧ s.Measured) (fun s a t hs hR ht => ?_)
      ⟨Live.start setup, measured_start setup⟩ hlast.left).last hrun
    exact ⟨live_step hs.1 hR ht, measured_step hs.2 hs.1 ht⟩
  obtain ⟨hlive, hmeasured⟩ := hinv
  have hcb' : s.mCallback = true := (constant_run hrun).2.trans hcb
  obtain ⟨u, hu, hpass⟩ := run_cons_some hpass
  have hlast' : Along step RemovesLast u bs := (hlast.right hrun u hu).2
  obtain ⟨-, -, ⟨hnone, -⟩ | ⟨R, W, hsets, -, rfl⟩⟩ := step_select hu
  · cases hnone
  · cases hsets
    have hne : t.pc ≠ .halted := by
      rw [htop]
      exact Pc.noConfusion
    constructor
    · have hlen := length_of_scans hpass hscan hne
      rw [htop] at hlen
      simp only [Pc.remaining] at hlen
      omega
    · intro p hp
      have hpassing := (always_of_along (P := Passing s p s.fdmax readFds writeFds)
        (fun t a u ht hR hu => ht.step (hmeasured.le_fdmax hp) hR.2 hR.1 hu)
        (Passing.start hlive hcb' hp readFds writeFds) (hlast'.with_mem hscan)).last hpass
      obtain ⟨turns, buffers, hserved⟩ := hpassing.served hne
      rw [htop] at hserved
      simp only [Pc.pastRead, Pc.pastWrite, Bool.true_and] at hserved
      exact ⟨turns, buffers, hserved⟩

/-- A pass in which descriptor 6 is ready for reading and for writing. -/
def exchange : List Action :=
  skip 6 ++ [.read noAttempt returns (reading [1, 2]), .write (writing 1)]

/-- A client that is accepted, is sent a byte and sends two. -/
theorem pass_serves_exchange : ∃ s t,
    run step (waitForEvents listening) (greet ++ [.call (.broadcast [7])]) = some s ∧
      run step s (.select (some ({6}, {6})) :: exchange) = some t ∧
      exchange.length = 2 * (s.fdmax + 1) ∧ ∀ p ∈ s.mConnections.mContainer,
        Serves {6} {6} s t p := by
  obtain ⟨t, hrun, htop⟩ := exists_run step (waitForEvents listening)
    ((greet ++ [.call (.broadcast [7])]) ++ .select (some ({6}, {6})) :: exchange)
    (fun t => t.pc = .top) (by decide +kernel)
  rw [run_append] at hrun
  obtain ⟨s, hs, ht⟩ := Option.bind_eq_some_iff.mp hrun
  exact ⟨s, t, hs, ht, pass_serves rfl hs ht (by decide) htop (by decide +kernel)⟩

end Server

end C11Http.Posix
