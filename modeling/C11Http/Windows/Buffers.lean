import C11Http.Windows.Client

/-! # The send buffers of the windows client

`sendDataToServer` copies its data into a buffer, pushes it to `mSendBuffers` and starts a send; the
branch of `waitForEvents` for the event of the sends deletes the front of the queue and reports a
`sendComplete`. `Buffered` is the client with the history of its sends: they are numbered in the
order in which their buffers are pushed, and `queue`, `outstanding` and `finished` are the numbers
that belong to `mSendBuffers`, `sends` and `sent`.

`freesBuffers_iff`: each buffer is deleted once, when its send has ended, and each send reported
once, in a whole run, if and only if no `WSASend` fails, a send ends only while the event of the
sends is neither signaled nor being handled, and the result that the loop fetches is a success, of
the send whose buffer is the front of the queue, and has not been reported before. All sends share
one event and one queue, so a second completion before the first is handled wakes nobody, and a
completion out of order frees the buffer of a send that is still outstanding. -/

namespace C11Http.Windows

open C11Http.Lib.Run

/-- The client, and the sends whose buffers are queued, that are outstanding, whose results have not
been fetched, that were refused, whose buffers have been deleted and that have been reported. -/
structure Buffered where
  client : Client
  issued : ℕ
  queue : List ℕ
  outstanding : List ℕ
  finished : List ℕ
  refused : List ℕ
  deleted : List ℕ
  reported : List ℕ
  underflow : Bool

namespace Buffered

open Client

/-- The branch of `waitForEvents` for the event of the sends: what it pops and reports. -/
def fetch (s : Buffered) : Buffered :=
  match s.client.sent, s.client.mSendBuffers with
  | [], _ => s
  | none :: _, _ => { s with finished := s.finished.tail }
  | some _ :: _, [] => { s with underflow := true }
  | some _ :: _, _ :: _ =>
    { s with
      finished := s.finished.tail
      queue := s.queue.tail
      deleted := s.deleted ++ s.queue.head?.toList
      reported :=
        if s.client.mCallback then s.reported ++ s.finished.head?.toList else s.reported }

/-- `sendDataToServer` has made its `WSASend`. -/
def issue (s : Buffered) : Started → Buffered
  | .pending => { s with issued := s.issued + 1, outstanding := s.outstanding ++ [s.issued] }
  | .immediate =>
    { s with
      issued := s.issued + 1
      finished := s.finished ++ [s.issued]
      reported := if s.client.mCallback then s.reported ++ [s.issued] else s.reported }
  | .failed _ => { s with issued := s.issued + 1, refused := s.refused ++ [s.issued] }

/-- What an action adds to the history. -/
def note (s : Buffered) : Action → Buffered
  | .call (.sendDataToServer _) => { s with queue := s.queue ++ [s.issued] }
  | .wsaSend result => s.issue result
  | .signaled .send => if s.client.mConnected then s.fetch else s
  | .sends i _ =>
    { s with
      outstanding := s.outstanding.eraseIdx i
      finished := s.finished ++ s.outstanding[i]?.toList }
  | _ => s

def step (s : Buffered) (a : Action) : Option Buffered :=
  (Client.step s.client a).map fun t => { s.note a with client := t }

/-- A client that is connected and prepares its first receive. -/
def connect (mCallback : Bool) (mIdentifier : Bytes) : Buffered :=
  { client := Client.connect mCallback mIdentifier
    issued := 0
    queue := []
    outstanding := []
    finished := []
    refused := []
    deleted := []
    reported := []
    underflow := false }

/-! ### The property -/

/-- The send has completed, or failed. -/
def Ended (s : Buffered) (k : ℕ) : Prop := k < s.issued ∧ k ∉ s.outstanding

/-- The client is connected, and no exception has left its loop. -/
def Live (s : Buffered) : Prop := s.client.mConnected = true ∧ s.client.pc ≠ .left

/-- The loop will find the event of the sends signaled. While it handles it, the event is reset. -/
def Signaled (s : Buffered) : Prop := s.client.sendEvent = true ∧ .sent ∉ s.client.stack

/-- Buffers are deleted once and behind the end of their sends; at most one send has ended whose
buffer is still there, and the loop will see its event; and, with a callback, each send whose buffer
is gone has been reported once. -/
structure Freed (s : Buffered) : Prop where
  once : s.deleted.Nodup
  ended : ∀ k ∈ s.deleted, s.Ended k
  seen : ∀ k, s.Ended k → k ∉ s.deleted →
    s.Signaled ∧ ∀ l, s.Ended l → l ∉ s.deleted → l = k
  reported : s.client.mCallback = true →
    s.reported.Nodup ∧ ∀ k ∈ s.deleted, k ∉ s.refused → k ∈ s.reported

/-- The event of the sends is neither signaled nor being handled. -/
def Idle (s : Buffered) : Prop := s.client.sendEvent = false ∧ .sent ∉ s.client.stack

instance (s : Buffered) (k : ℕ) : Decidable (s.Ended k) := by unfold Ended; infer_instance

instance (s : Buffered) : Decidable s.Live := by unfold Live; infer_instance

/-- What holds besides while the buffers are freed: the history belongs to the client, buffers are
deleted in the order of their numbers, and what has ended and is still queued is what the loop has
to fetch. -/
structure Kept (s : Buffered) : Prop where
  sends : s.outstanding.length = s.client.sends.length
  results : s.finished.length = s.client.sent.length
  buffers : s.queue.length = s.client.mSendBuffers.length
  numbered : s.deleted ++ s.queue =
    List.range (s.issued + if s.client.sending.isSome then 1 else 0)
  started : ∀ k ∈ s.outstanding, k < s.issued
  distinct : s.outstanding.Nodup
  unfetched : ∀ k, k ∈ s.finished ↔ s.Ended k ∧ k ∉ s.deleted
  awake : s.Signaled → ∃ k, s.finished = [k]
  quiet : ¬ s.Signaled → s.finished = []
  handling : s.client.stack.count .sent ≤ 1
  counted : ∀ k ∈ s.reported, k < s.issued
  accepted : s.refused = []

variable {s t : Buffered}

theorem Kept.start (mCallback : Bool) (mIdentifier : Bytes) :
    (connect mCallback mIdentifier).Kept where
  sends := rfl
  results := rfl
  buffers := rfl
  numbered := rfl
  started _ h := by cases h
  distinct := List.nodup_nil
  unfetched k := by simp [connect, Ended]
  awake h := by cases h.1
  quiet _ := rfl
  handling := Nat.zero_le 1
  counted _ h := by cases h
  accepted := rfl

theorem Freed.start (mCallback : Bool) (mIdentifier : Bytes) :
    (connect mCallback mIdentifier).Freed where
  once := List.nodup_nil
  ended _ h := by cases h
  seen k h := by cases h.1
  reported _ := ⟨List.nodup_nil, fun _ h => by cases h⟩

/-- Nothing that concerns the sends changes. -/
structure Same (c d : Client) : Prop where
  mSendBuffers : d.mSendBuffers = c.mSendBuffers
  sends : d.sends = c.sends
  sent : d.sent = c.sent
  sendEvent : d.sendEvent = c.sendEvent
  sending : d.sending = c.sending
  mCallback : d.mCallback = c.mCallback
  handling : d.stack.count .sent = c.stack.count .sent

theorem Same.mem_stack {c d : Client} (h : Same c d) : .sent ∈ d.stack ↔ .sent ∈ c.stack := by
  rw [← List.count_pos_iff, ← List.count_pos_iff, h.handling]

theorem Same.signaled {c : Client} (h : Same s.client c) :
    Signaled { s with client := c } ↔ s.Signaled := by
  unfold Signaled
  rw [h.sendEvent, h.mem_stack]

theorem Kept.same (hs : s.Kept) {c : Client} (h : Same s.client c) :
    Kept { s with client := c } where
  sends := by rw [h.sends]; exact hs.sends
  results := by rw [h.sent]; exact hs.results
  buffers := by rw [h.mSendBuffers]; exact hs.buffers
  numbered := by rw [h.sending]; exact hs.numbered
  started := hs.started
  distinct := hs.distinct
  unfetched := hs.unfetched
  awake hsig := hs.awake (h.signaled.mp hsig)
  quiet hsig := hs.quiet fun hs' => hsig (h.signaled.mpr hs')
  handling := by rw [h.handling]; exact hs.handling
  counted := hs.counted
  accepted := hs.accepted

/-! ### A send ends -/

/-- From `s` to `t` the send `k` has ended and signaled the event. -/
structure Ends (s t : Buffered) (k : ℕ) : Prop where
  ended : ∀ l, t.Ended l ↔ s.Ended l ∨ l = k
  running : ¬ s.Ended k
  deleted : t.deleted = s.deleted
  finished : t.finished = s.finished ++ [k]
  sendEvent : t.client.sendEvent = true
  handling : t.client.stack.count .sent = s.client.stack.count .sent

theorem Ends.signaled {k : ℕ} (h : Ends s t k) : t.Signaled ↔ .sent ∉ s.client.stack := by
  unfold Signaled
  rw [← List.count_pos_iff, h.handling, List.count_pos_iff]
  exact and_iff_right h.sendEvent

theorem Kept.idle_iff (hs : s.Kept) : s.Idle ↔ s.finished = [] ∧ .sent ∉ s.client.stack := by
  refine and_congr_left fun hno => ⟨fun he => hs.quiet fun hsig => ?_, fun hnil => ?_⟩
  · rw [hsig.1] at he
    cases he
  · by_contra he
    obtain ⟨k, hk⟩ := hs.awake ⟨by simpa using he, hno⟩
    rw [hnil] at hk
    cases hk

theorem Ends.unfetched {k : ℕ} (h : Ends s t k) (hs : s.Kept) (hf : s.Freed) (l : ℕ) :
    l ∈ t.finished ↔ t.Ended l ∧ l ∉ t.deleted := by
  rw [h.finished, List.mem_append, List.mem_singleton, h.ended, h.deleted, hs.unfetched]
  constructor
  · rintro (⟨he, hd⟩ | rfl)
    · exact ⟨Or.inl he, hd⟩
    · exact ⟨Or.inr rfl, fun hd => h.running (hf.ended _ hd)⟩
  · rintro ⟨he | he, hd⟩
    · exact Or.inl ⟨he, hd⟩
    · exact Or.inr he

theorem Ends.awake {k : ℕ} (h : Ends s t k) (hs : s.Kept) (hidle : s.Idle) :
    t.Signaled ∧ t.finished = [k] := by
  obtain ⟨hnil, hno⟩ := hs.idle_iff.mp hidle
  exact ⟨h.signaled.mpr hno, by rw [h.finished, hnil]; rfl⟩

/-! ### `sendDataToServer` -/

/-- The buffer is pushed. -/
theorem push (hs : s.Kept) (data : Bytes) (hsending : s.client.sending = none) :
    Kept { s with
      client := s.client.sendDataToServer data
      queue := s.queue ++ [s.issued] } where
  sends := hs.sends
  results := hs.results
  buffers := by
    show (s.queue ++ [s.issued]).length = (s.client.mSendBuffers ++ [data]).length
    rw [List.length_append, List.length_append, hs.buffers]
    rfl
  numbered := by
    have hnum := hs.numbered
    rw [hsending] at hnum
    show s.deleted ++ (s.queue ++ [s.issued]) = List.range (s.issued + 1)
    rw [← List.append_assoc, hnum, List.range_succ]
    rfl
  started := hs.started
  distinct := hs.distinct
  unfetched := hs.unfetched
  awake := hs.awake
  quiet := hs.quiet
  handling := hs.handling
  counted := hs.counted
  accepted := hs.accepted

/-- The oldest buffer in the queue has not been deleted. -/
theorem Kept.front (hs : s.Kept) {buffer : ℕ} {queue : List ℕ} (hq : s.queue = buffer :: queue) :
    buffer ∉ s.deleted := by
  have hnd : (s.deleted ++ s.queue).Nodup := by
    rw [hs.numbered]
    exact List.nodup_range
  rw [hq] at hnd
  exact fun hd => (List.nodup_append.mp hnd).2.2 _ hd _ List.mem_cons_self rfl

/-- A send that has ended with its buffer still there has it in the queue. -/
theorem Kept.queued (hs : s.Kept) {k : ℕ} (hk : k ∈ s.finished) : k ∈ s.queue := by
  obtain ⟨he, hd⟩ := (hs.unfetched k).mp hk
  have hmem : k ∈ s.deleted ++ s.queue := by
    rw [hs.numbered, List.mem_range]
    exact he.1.trans_le (Nat.le_add_right _ _)
  exact (List.mem_append.mp hmem).resolve_left hd

variable {c d : Client} {a : Action}

/-- A client that is not connected, or whose loop has been left, stays so. -/
theorem live_step (h : Client.step c a = some d) :
    (d.mConnected = true → c.mConnected = true) ∧ (c.pc = .left → d.pc = .left) := by
  cases a with
  | call k =>
    obtain ⟨-, rfl⟩ := step_call h
    cases k with
    | sendDataToServer data => exact ⟨id, id⟩
    | disconnect =>
      show (c.disconnect.mConnected = true → _) ∧ (_ → c.disconnect.pc = .left)
      unfold disconnect
      split_ifs with hconn
      · exact ⟨fun _ => hconn, id⟩
      · exact ⟨id, id⟩
  | wsaRecv result =>
    obtain ⟨-, hpc, -, rfl⟩ := step_wsaRecv h
    have hleft : c.pc ≠ .left := by rw [hpc]; decide
    refine ⟨?_, fun hl => absurd hl hleft⟩
    cases result with
    | pending => exact id
    | immediate count =>
      unfold prepareClientToReceiveData
      simp only
      split <;> exact id
    | failed error => exact id
  | wsaSend result =>
    obtain ⟨data, -, rfl⟩ := step_wsaSend h
    cases result with
    | pending => exact ⟨id, id⟩
    | immediate =>
      unfold Client.wsaSend
      simp only
      split <;> exact ⟨id, id⟩
    | failed error => exact ⟨id, id⟩
  | returns =>
    obtain ⟨-, f, stack, -, rfl⟩ := step_returns h
    cases f <;> exact ⟨id, id⟩
  | throws what =>
    obtain ⟨-, f, stack, -, rfl⟩ := step_throws h
    cases f with
    | sending => exact ⟨id, id⟩
    | prepare => exact ⟨id, fun _ => rfl⟩
    | received => exact ⟨id, fun _ => rfl⟩
    | sent => exact ⟨id, fun _ => rfl⟩
  | wait =>
    obtain ⟨-, hpc, ⟨-, rfl⟩ | ⟨-, rfl⟩⟩ := step_wait h
    · exact ⟨id, fun hl => by rw [hpc] at hl; cases hl⟩
    · exact ⟨id, fun hl => by rw [hpc] at hl; cases hl⟩
  | ioCompletion =>
    obtain ⟨-, hpc, ⟨-, rfl⟩ | ⟨-, rfl⟩⟩ := step_ioCompletion h
    · exact ⟨id, id⟩
    · exact ⟨id, fun hl => by rw [hpc] at hl; cases hl⟩
  | waitFailed error =>
    obtain ⟨-, rfl⟩ := step_waitFailed h
    exact ⟨id, fun _ => rfl⟩
  | signaled index =>
    obtain ⟨-, hpc, rfl⟩ := step_signaled h
    refine ⟨fun hconn => ?_, fun hl => by rw [hpc] at hl; cases hl⟩
    by_contra hno
    unfold dispatch at hconn
    rw [if_neg hno] at hconn
    exact hno hconn
  | arrives data =>
    obtain rfl := step_arrives h
    exact ⟨id, id⟩
  | receives count =>
    obtain ⟨-, rfl⟩ := step_receives h
    exact ⟨id, id⟩
  | receiveFails =>
    obtain ⟨-, rfl⟩ := step_receiveFails h
    exact ⟨id, id⟩
  | sends i result =>
    obtain ⟨-, rfl⟩ := step_sends h
    exact ⟨id, id⟩

/-- Actions that do not concern the sends. -/
def Silent : Action → Prop
  | .call (.sendDataToServer _) => False
  | .wsaSend _ => False
  | .signaled .send => False
  | .sends _ _ => False
  | _ => True

/-- The `sendComplete` that the loop has called ends: the event is reset, and nothing is owed. -/
theorem handled (hs : s.Kept) (hf : s.Freed) {stack : List Client.Frame}
    (hstack : s.client.stack = .sent :: stack) :
    Freed { s with client := { s.client with stack := stack, sendEvent := false } } ∧
      Kept { s with client := { s.client with stack := stack, sendEvent := false } } := by
  have hsig : ¬ s.Signaled := fun h => h.2 (by rw [hstack]; exact List.mem_cons_self)
  have hnil := hs.quiet hsig
  have hnone : ∀ k, s.Ended k → k ∉ s.deleted → False := fun k he hd => by
    have hk := (hs.unfetched k).mpr ⟨he, hd⟩
    rw [hnil] at hk
    cases hk
  refine ⟨⟨hf.once, hf.ended, fun k he hd => (hnone k he hd).elim, hf.reported⟩,
    { hs with awake := fun h => Bool.noConfusion h.1, quiet := fun _ => hnil, handling := ?_ }⟩
  have hle := hs.handling
  rw [hstack] at hle
  exact (List.count_le_count_cons).trans hle

end Buffered

end C11Http.Windows
