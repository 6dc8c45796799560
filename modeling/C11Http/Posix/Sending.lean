import C11Http.Posix.Filling
import C11Http.Posix.Writes

/-! # What the posix server sends and reports

`SendsOnce`: the buffers given to `::send` for a connection are made of whole messages, each message
in one buffer at most, and the counts of `sendComplete` add up to the length of the buffers that
`::send` took to the end.

`sendQueuedMessage` keeps the size of the buffer in an `int`, which it compares with what `::send`
returns. From 2^31 bytes on that is another number: a buffer that has been sent is then not
reported, and one of 2^32 - 1 bytes is reported when `::send` fails. `sendsOnce_iff`: a run whose
writes for the connection compare as the size itself would keeps `SendsOnce`, and, where the queue
stays below 2^32 bytes, no other run does. -/

namespace C11Http.Posix

open C11Http.Lib C11Http.Lib.Run Connections

namespace Server

/-- **Each message is sent whole and at most once, and what is reported is what was sent.** -/
structure SendsOnce (p : Ptr) (s : Server) : Prop where
  whole : (outbox p s).Whole
  told : s.told p = (outbox p s).full

/-- The connection whose queue is written next. -/
def target (s : Server) : Option Ptr := s.flushing.bind (s.mConnections.getServerConnection s.heap)

/-- The queue is offered whole, and its size compares with the result of `::send` as it does when
it is stored in an `int`. -/
def Exact (p : Ptr) (s : Server) : Action → Prop
  | .write e => s.target = some p →
      offered (s.heap p).mOutgoingBytes = (s.heap p).mOutgoingBytes ∧
        (toInt (s.heap p).mOutgoingBytes.length = e.result ↔
          e.result = (s.heap p).mOutgoingBytes.length)
  | _ => True

/-- The queue is below 2^32 bytes when it is written. -/
def Small (p : Ptr) (s : Server) : Action → Prop
  | .write _ => s.target = some p → (s.heap p).mOutgoingBytes.length < 4294967296
  | _ => True

instance (p : Ptr) (s : Server) (a : Action) : Decidable (Exact p s a) := by
  cases a <;> unfold Exact <;> infer_instance

instance (p : Ptr) (s : Server) (a : Action) : Decidable (Small p s a) := by
  cases a <;> unfold Small <;> infer_instance

/-- A queue below 2^31 bytes is compared exactly. -/
theorem exact_of_lt {p : Ptr} {s : Server} {e : Writing}
    (h : (s.heap p).mOutgoingBytes.length < 2147483648) : Exact p s (.write e) := by
  intro _
  rw [toInt_eq h]
  exact ⟨offered_eq (by omega), eq_comm⟩

variable {p : Ptr} {s t : Server}

/-! ### A write -/

theorem told_handing (p q : Ptr) (s : Server) (result : ℤ) :
    (s.handing q result).told p = s.told p := by
  simp only [told, handing, List.filterMap_append, List.filterMap_cons, completion,
    List.filterMap_nil, List.append_nil]

theorem filled_handing_of_ne {q : Ptr} (h : p ≠ q) (s : Server) (result : ℤ) :
    Filled p s (s.handing q result) := by
  have heq := outbox_handing_of_ne s result h
  exact ⟨.of_eq (by rw [heq]) (by rw [heq]), fun _ => by rw [heq], told_handing p q s result⟩

/-- The `sendComplete` of another connection. -/
theorem filled_report_of_ne {q : Ptr} (h : p ≠ q) (s : Server) (count : ℕ) (r : Reaction Call) :
    Filled p s (s.report q count r) :=
  filled_reported p s rfl (by simp [completion, Ne.symm h]) r

theorem told_report (p : Ptr) (s : Server) (count : ℕ) (r : Reaction Call) :
    (s.report p count r).told p = s.told p + count := by
  unfold report
  rw [(filled_react p _ r).told]
  simp [told, record, List.filterMap_append, completion]

theorem filling_report (p : Ptr) (s : Server) (count : ℕ) (r : Reaction Call) :
    Outbox.Filling (outbox p s) (outbox p (s.report p count r)) := by
  have hrecord : Outbox.Filling (outbox p s)
      (outbox p (s.record [.sendComplete p (s.heap p).mIdentifier count])) :=
    .of_eq rfl (by simp [outbox, record, List.filterMap_append, entryFor])
  exact hrecord.trans (filled_react p _ r).filling

/-- **A write for another connection** only fills the queue. -/
theorem filled_writeBranch_of_ne (hpc : s.pc ≠ .halted) {i : Fd} (e : Writing)
    (hi : s.mConnections.getServerConnection s.heap i ≠ some p) :
    Filled p s (s.writeBranch i e) := by
  have hne : ∀ q, s.mConnections.getServerConnection s.heap i = some q → p ≠ q := by
    rintro q hq rfl
    exact hi hq
  have hreport : ∀ q count, p ≠ q →
      Filled p s ((s.handing q e.result).report q count e.sendComplete) :=
    fun q count hq =>
      (filled_handing_of_ne hq s e.result).trans rfl (filled_report_of_ne hq _ count _)
  have hcon : ∀ q count,
      ((s.handing q e.result).report q count e.sendComplete).mConnections = s.mConnections :=
    fun q count => reported_mConnections _ _ _
  apply writeBranch_rule (P := Filled p s) hpc
  case unknown => exact fun _ => filled_unwatch p s i
  case short =>
    exact fun q hq _ => (filled_handing_of_ne (hne q hq) s _).trans rfl (filled_unwatch p _ i)
  case null =>
    exact fun q _ hq _ _ => (filled_handing_of_ne (hne q hq) s _).trans rfl (filled_halt p _)
  case reported =>
    exact fun q count hq _ _ _ =>
      (hreport q count (hne q hq)).trans (hcon q count) (filled_unwatch p _ i)
  case escaped =>
    exact fun q count hq _ _ _ =>
      (hreport q count (hne q hq)).trans (hcon q count) (filled_halt p _)

/-- The count of the report of a write, 0 if it is not reported. -/
def count (s : Server) (p : Ptr) (result : ℤ) : ℕ :=
  ((s.heap p).sendQueuedMessage result).2.2.getD 0

/-- What a write does to the queue of its connection and to what has been reported for it. -/
structure Written (p : Ptr) (s t : Server) (result : ℤ) : Prop where
  filling : Outbox.Filling
    ((outbox p s).drain (offered (s.heap p).mOutgoingBytes) result) (outbox p t)
  told : t.told p = s.told p + s.count p result

theorem Written.filled {result : ℤ} {u : Server} (h : Written p s t result) (h' : Filled p t u) :
    Written p s u result :=
  ⟨h.filling.trans h'.filling, h'.told.trans h.told⟩

/-- **A write for the connection** drains its queue. -/
theorem written_writeBranch (hcb : s.mCallback = true) (hpc : s.pc ≠ .halted) {i : Fd}
    (e : Writing) (hi : s.mConnections.getServerConnection s.heap i = some p) :
    Written p s (s.writeBranch i e) e.result := by
  have hsame : ∀ q, s.mConnections.getServerConnection s.heap i = some q → q = p :=
    fun q hq => Option.some.inj (hq.symm.trans hi)
  have hhand : Outbox.Filling ((outbox p s).drain (offered (s.heap p).mOutgoingBytes) e.result)
      (outbox p (s.handing p e.result)) := by
    rw [outbox_handing_self]
    exact .refl _
  have hreport : ∀ n, ((s.heap p).sendQueuedMessage e.result).2.2 = some n →
      Written p s ((s.handing p e.result).report p n e.sendComplete) e.result := by
    intro n hn
    refine ⟨hhand.trans (filling_report p _ n _), ?_⟩
    rw [told_report, told_handing, count, hn, Option.getD_some]
  apply writeBranch_rule (P := fun t => Written p s t e.result) hpc
  case unknown =>
    intro hnone
    rw [hi] at hnone
    cases hnone
  case short =>
    intro q hq hnone
    obtain rfl := hsame q hq
    have hwritten : Written q s (s.handing q e.result) e.result := by
      refine ⟨hhand, ?_⟩
      rw [told_handing, count, hnone, Option.getD_none, Nat.add_zero]
    exact hwritten.filled (filled_unwatch q _ i)
  case null =>
    intro q _ _ _ hnull
    rw [hcb] at hnull
    cases hnull
  case reported =>
    intro q n hq hn _ _
    obtain rfl := hsame q hq
    exact (hreport n hn).filled (filled_unwatch q _ i)
  case escaped =>
    intro q n hq hn _ _
    obtain rfl := hsame q hq
    exact (hreport n hn).filled (filled_halt q _)

/-- **A step writes the queue of the connection, or only fills it.** -/
theorem step_queue (p : Ptr) (hcb : s.mCallback = true) {a : Action} (h : s.step a = some t) :
    (Filled p s t ∧ ∀ e, a = .write e → s.target ≠ some p) ∨
      ∃ e, a = .write e ∧ s.target = some p ∧ Written p s t e.result := by
  obtain ⟨hfilled, hnone⟩ | ⟨e, i, pc, rfl, hi, -, hpc, rfl⟩ := filled_step p h
  · refine .inl ⟨hfilled, fun e he => ?_⟩
    unfold target
    rw [hnone e he]
    exact (Option.some_ne_none p).symm
  · have htarget : s.target = s.mConnections.getServerConnection s.heap i := by
      unfold target
      rw [hi]
      rfl
    by_cases hp : s.mConnections.getServerConnection s.heap i = some p
    · exact .inr ⟨e, rfl, htarget.trans hp, (written_writeBranch hcb hpc e hp).filled
        (filled_goto (Filled.refl p _) pc)⟩
    · refine .inl ⟨filled_goto (filled_writeBranch_of_ne hpc e hp) pc, fun _ _ => ?_⟩
      rw [htarget]
      exact hp

/-! ### What is reported -/

/-- An exact comparison reports the buffer if and only if it has been sent. -/
theorem count_of_exact {result : ℤ}
    (h : toInt (s.heap p).mOutgoingBytes.length = result ↔
      result = (s.heap p).mOutgoingBytes.length) :
    s.count p result = if result = (s.heap p).mOutgoingBytes.length then
      (s.heap p).mOutgoingBytes.length else 0 := by
  rw [count, ServerConnection.sendQueuedMessage_count]
  by_cases heq : result = (s.heap p).mOutgoingBytes.length
  · have hlt := lt_of_toInt_eq ((h.mpr heq).trans heq)
    have hmod := toInt_emod (n := (s.heap p).mOutgoingBytes.length) (by omega)
    rw [if_pos (h.mpr heq), if_pos heq, Option.getD_some, hmod]
  · rw [if_neg (mt h.mp heq), if_neg heq, Option.getD_none]

/-- Below 2^32 bytes, no other one does. -/
theorem exact_of_count {result : ℤ} (hlt : (s.heap p).mOutgoingBytes.length < 4294967296)
    (h : s.count p result = if result = (s.heap p).mOutgoingBytes.length then
      (s.heap p).mOutgoingBytes.length else 0) :
    toInt (s.heap p).mOutgoingBytes.length = result ↔
      result = (s.heap p).mOutgoingBytes.length := by
  by_cases hzero : (s.heap p).mOutgoingBytes.length = 0
  · rw [hzero]
    exact eq_comm
  · rw [count, ServerConnection.sendQueuedMessage_count] at h
    constructor
    · intro hint
      by_contra hne
      rw [if_pos hint, if_neg hne, Option.getD_some, toInt_emod hlt] at h
      exact hzero h
    · intro heq
      by_contra hne
      rw [if_neg hne, if_pos heq] at h
      exact hzero h.symm

theorem SendsOnce.filled (hs : SendsOnce p s) (h : Filled p s t) : SendsOnce p t where
  whole := h.filling.whole hs.whole
  told := by rw [h.told, h.filling.full_eq, hs.told]

/-- A write of the whole queue is accounted for exactly if its report is. -/
theorem SendsOnce.written_iff {result : ℤ} (hs : SendsOnce p s) (h : Written p s t result)
    (hoffered : offered (s.heap p).mOutgoingBytes = (s.heap p).mOutgoingBytes) :
    SendsOnce p t ↔ s.count p result = if result = (s.heap p).mOutgoingBytes.length then
      (s.heap p).mOutgoingBytes.length else 0 := by
  have hwhole : (outbox p t).Whole := h.filling.whole (hs.whole.drain hoffered result)
  have hfull : (outbox p t).full = (outbox p s).full +
      if result = (s.heap p).mOutgoingBytes.length then (s.heap p).mOutgoingBytes.length
        else 0 := by
    rw [h.filling.full_eq, Outbox.drain_full, hoffered]
  have htold : t.told p = (outbox p t).full ↔ s.count p result =
      if result = (s.heap p).mOutgoingBytes.length then (s.heap p).mOutgoingBytes.length
        else 0 := by
    rw [h.told, hfull, hs.told, Nat.add_left_cancel_iff]
  exact ⟨fun ht => htold.mp ht.told, fun hcount => ⟨hwhole, htold.mpr hcount⟩⟩

theorem sendsOnce_step {a : Action} (hcb : s.mCallback = true) (hs : SendsOnce p s)
    (hexact : Exact p s a) (h : s.step a = some t) : SendsOnce p t := by
  obtain ⟨hfilled, -⟩ | ⟨e, rfl, htarget, hwritten⟩ := step_queue p hcb h
  · exact hs.filled hfilled
  · obtain ⟨hoffered, hcompare⟩ := hexact htarget
    exact (hs.written_iff hwritten hoffered).mpr (count_of_exact hcompare)

/-- **One step**, the queue being short: it keeps the account exactly when the condition holds. -/
theorem sendsOnce_step_iff {a : Action} (hcb : s.mCallback = true) (hs : SendsOnce p s)
    (hsmall : Small p s a) (h : s.step a = some t) : SendsOnce p t ↔ Exact p s a := by
  refine ⟨fun ht => ?_, fun hexact => sendsOnce_step hcb hs hexact h⟩
  obtain ⟨-, hother⟩ | ⟨e, rfl, htarget, hwritten⟩ := step_queue p hcb h
  · cases a with
    | write e => exact fun htarget => absurd htarget (hother e rfl)
    | _ => trivial
  · have hlt := hsmall htarget
    have hoffered := offered_eq hlt
    exact fun _ => ⟨hoffered, exact_of_count hlt ((hs.written_iff hwritten hoffered).mp ht)⟩

theorem sendsOnce_start (p : Ptr) (setup : Setup) : SendsOnce p (waitForEvents setup) :=
  ⟨Outbox.whole_new rfl rfl, rfl⟩

/-- **Every message is sent whole and at most once and every complete write reported, no other
one**, if the size of the queue compares as it should in every write; with queues below 2^32 bytes,
only if. -/
theorem sendsOnce_iff (setup : Setup) (hcb : setup.mCallback = true) (p : Ptr) (as : List Action) :
    (Along step (Exact p) (waitForEvents setup) as →
      Always step (SendsOnce p) (waitForEvents setup) as) ∧
    (Along step (Small p) (waitForEvents setup) as →
      (Always step (SendsOnce p) (waitForEvents setup) as ↔
        Along step (Exact p) (waitForEvents setup) as)) := by
  have hconstant : ∀ s a t, s.Fresh ∧ s.mCallback = true → step s a = some t →
      t.Fresh ∧ t.mCallback = true := fun s a t hs ht =>
    ⟨fresh_step hs.1 ht, (constant_step hs.1 ht).2.trans hs.2⟩
  have hstart : (waitForEvents setup).Fresh ∧ (waitForEvents setup).mCallback = true :=
    ⟨fresh_start setup, hcb⟩
  constructor
  · intro h
    have hall : Always step (fun s => (s.Fresh ∧ s.mCallback = true) ∧ SendsOnce p s)
        (waitForEvents setup) as :=
      always_of_along (fun s a t hs hexact ht =>
        ⟨hconstant s a t hs.1 ht, sendsOnce_step hs.1.2 hs.2 hexact ht⟩)
        ⟨hstart, sendsOnce_start p setup⟩ h
    exact hall.imp fun _ hs => hs.2
  · exact always_iff_along_while (I := fun s => s.Fresh ∧ s.mCallback = true)
      (fun s a t hI _ _ ht _ => hconstant s a t hI ht)
      (fun _ _ _ hI hs hsmall ht => sendsOnce_step_iff hI.2 hs hsmall ht) as hstart
      (sendsOnce_start p setup)

theorem sendsOnce_iff_greet :
    Always step (SendsOnce 0) (waitForEvents listening)
        (greet ++ .call (.send [104, 105] [97]) :: .select (some (∅, {6})) :: skip 6 ++
          [.read noAttempt returns (reading []), .write (writing 2)]) ∧
      Always step (SendsOnce 0) (waitForEvents listening)
        (greet ++ .call (.broadcast [104, 105]) :: .select (some (∅, {6})) :: skip 6 ++
          [.read noAttempt returns (reading []), .write (writing 1)]) :=
  ⟨(sendsOnce_iff listening rfl 0 _).1 (by decide +kernel),
    ((sendsOnce_iff listening rfl 0 _).2 (by decide +kernel)).mpr (by decide +kernel)⟩

/-- The first pass of a server that accepts a client named `"a"` on descriptor 0. -/
def greetZero : List Action :=
  .select (some ({3}, ∅)) :: skip 3 ++
    [.read { attempt with accept := .ok 0 } returns (reading []), .write (writing 0)] ++ skip 1

/-- A pass in which `select` reports only descriptor 0, as ready for writing, writes its queue. -/
theorem run_write_zero (hcb : s.mCallback = true) (hpc : s.pc = .top)
    (hshutdown : s.mHasBeenShutdown = false) (hsel : s.Selectable ∅ {0})
    (hfound : s.mConnections.getServerConnection s.heap 0 = some p) {result : ℤ}
    (hresult : SendResult (offered (s.heap p).mOutgoingBytes) result) :
    ∃ t, run step s [.select (some (∅, {0})), .read noAttempt returns (reading []),
      .write (writing result)] = some t ∧ Written p s t result := by
  obtain ⟨v, hv⟩ : ∃ v, v = { s with pc := .scan 0 s.fdmax ∅ {0} .write } := ⟨_, rfl⟩
  have hselect : step s (.select (some (∅, {0}))) =
      some { s with pc := .scan 0 s.fdmax ∅ {0} .read } := by
    simp only [step, if_pos (And.intro hpc hshutdown), if_pos hsel]
  have hread : step { s with pc := .scan 0 s.fdmax ∅ {0} .read }
      (.read noAttempt returns (reading [])) = some v := by
    rw [hv]
    rfl
  have hfoundv : v.mConnections.getServerConnection v.heap 0 = some p := by
    rw [hv]
    exact hfound
  have hwrite : step v (.write (writing result)) = some ((v.writeBranch 0 (writing result)).goto
      (if 0 < s.fdmax then .scan 1 s.fdmax ∅ {0} .read else .top)) := by
    have hw : v.Writable 0 (writing result) := by
      unfold Writable
      rw [hfoundv, hv]
      exact hresult
    rw [hv] at hw ⊢
    simp only [step, if_pos hw, if_pos (Finset.mem_singleton_self 0)]
  have hwritten : Written p v (v.writeBranch 0 (writing result)) result := by
    refine written_writeBranch ?_ ?_ (writing result) hfoundv
    · rw [hv]
      exact hcb
    · rw [hv]
      exact Pc.noConfusion
  have hdone := hwritten.filled (filled_goto (Filled.refl p _)
    (if 0 < s.fdmax then .scan 1 s.fdmax ∅ {0} .read else .top))
  refine ⟨(v.writeBranch 0 (writing result)).goto
    (if 0 < s.fdmax then .scan 1 s.fdmax ∅ {0} .read else .top), ?_, ?_⟩
  · rw [run_cons, hselect, Option.bind_some, run_cons, hread, Option.bind_some, run_cons, hwrite,
      Option.bind_some, run_nil]
  · rw [hv] at hdone ⊢
    exact ⟨hdone.filling, hdone.told⟩

/-- **A failed write that is reported**: a message of 2^32 - 1 bytes is sent to the client on
descriptor 0, and `::send` returns -1. -/
theorem unsent_reported : ∃ m t, m.length = 4294967295 ∧
    run step (waitForEvents listening) (greetZero ++ [.call (.send m [97]),
      .select (some (∅, {0})), .read noAttempt returns (reading []), .write (writing (-1))]) =
        some t ∧
      t.told 0 = 4294967295 ∧ (outbox 0 t).full = 0 ∧ ¬ SendsOnce 0 t := by
  obtain ⟨s, hrun, hpc, hshutdown, hmap, hfound, hnew, hsocket, htold, hready⟩ :=
    exists_run step (waitForEvents listening) greetZero (fun s => s.pc = .top ∧
      s.mHasBeenShutdown = false ∧ s.mConnections.mMapping [97] = some 0 ∧ Found 0 s ∧
      NewQueue 0 s ∧ (s.heap 0).mSocket = 0 ∧ s.told 0 = 0 ∧
      (s.sendConnection [] 0).Selectable ∅ {0}) (by decide +kernel)
  obtain ⟨m, hm⟩ : ∃ m : Bytes, m.length = 4294967295 :=
    ⟨List.replicate 4294967295 0, List.length_replicate⟩
  -- the message waits, alone
  obtain ⟨u, hu⟩ : ∃ u, u = s.call (.send m [97]) := ⟨_, rfl⟩
  have hcalled : Called s u := hu ▸ called_call s _
  have hsend : step s (.call (.send m [97])) = some u := by
    rw [hu]
    exact if_pos hpc
  have hcall : u = (s.sendConnection m 0).performWakeup := by
    rw [hu]
    show (s.send m [97]).1 = _
    unfold send
    rw [getServerConnectionById_eq_ok.mpr hmap]
  have hlen : (u.heap 0).mOutgoingBytes.length = 4294967295 := by
    have hnil : (s.heap 0).mOutgoingBytes = [] := hnew.1
    rw [hcall, ← hm]
    simp [sendConnection, performWakeup, hnil]
  have hfull : (outbox 0 u).full = 0 := by
    rw [hu, (filled_call 0 s _).filling.full_eq, Outbox.full, hnew.2]
    rfl
  -- it is written, and `::send` fails
  have hfoundu : u.mConnections.getServerConnection u.heap 0 = some 0 := by
    have h := found_of_alike (.of_called hcalled) hfound
    unfold Found at h
    rwa [hcalled.mSocket, hsocket] at h
  have hselu : u.Selectable ∅ {0} := by
    rw [hcall]
    exact hready
  have hshutdownu : u.mHasBeenShutdown = false := by
    rw [hcall]
    exact hshutdown
  obtain ⟨t, hpass, hwritten⟩ := run_write_zero
    (hcalled.mCallback.trans (constant_run hrun).2) (hcalled.pc.trans hpc) hshutdownu hselu hfoundu
    (show SendResult (offered (u.heap 0).mOutgoingBytes) (-1) from ⟨le_rfl, by omega⟩)
  have hcount : u.count 0 (-1) = 4294967295 := by
    have hint : toInt 4294967295 = -1 := by decide +kernel
    rw [count, ServerConnection.sendQueuedMessage_count, hlen, if_pos hint, hint]
    decide +kernel
  have htold' : t.told 0 = 4294967295 := by
    rw [hwritten.told, hcalled.told, htold, hcount]
  have hfull' : (outbox 0 t).full = 0 := by
    have hne : ¬ (-1 : ℤ) = (offered (u.heap 0).mOutgoingBytes).length := by omega
    rw [hwritten.filling.full_eq, Outbox.drain_full, hfull, if_neg hne]
  refine ⟨m, t, hm, ?_, htold', hfull', fun hs => ?_⟩
  · rw [run_append, hrun, Option.bind_some, run_cons, hsend, Option.bind_some]
    exact hpass
  · have heq := hs.told
    rw [htold', hfull'] at heq
    cases heq

end Server

end C11Http.Posix
