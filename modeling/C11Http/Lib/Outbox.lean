import Mathlib.Data.Int.Notation
import Mathlib.Data.List.Perm.Subperm

/-! # An outgoing queue that is filled at the front and drained whole

The sender's side of a stream: `pending` is what still waits, `watched` says whether the owner is
told when the stream can take more, and `log` is the history. `push` puts a message *before* what
waits; `drain` empties the queue, whatever part of it went out.

What a handed buffer and its result contribute to the stream is a parameter `part`. `InOrder` says
that what is gone, followed by what waits, is what was queued; `Kept` that moreover whatever waits
is watched.

* `pushAll_inOrder_iff`: messages are pushed in order exactly when it does not matter that they are
  put before what waits, and the last of them first;
* `drain_inOrder_iff`: a drain stays in order exactly when everything that waited is gone;
* `write_kept_iff`: a drain after which nobody watches keeps everything exactly when moreover the
  messages pushed meanwhile are empty;
* `Pushes.inOrder`, `Pushes.drain_inOrder`: with at most one message between two drains, and drains
  that take everything, the order is kept;
* `pushAll_sourced`, `drain_sourced`: what is gone was queued, whatever becomes of the order. -/

namespace C11Http.Lib

/-- An entry of the history: a message queued, or a buffer handed over with a result. -/
inductive Entry (α : Type*)
  | queued (message : List α)
  | handed (buffer : List α) (result : ℤ)

/-- What an entry queues. -/
def Entry.message {α : Type*} : Entry α → List α
  | .queued message => message
  | .handed _ _ => []

/-- What an entry sends. -/
def Entry.sent {α : Type*} (part : List α → ℤ → List α) : Entry α → List α
  | .queued _ => []
  | .handed buffer result => part buffer result

structure Outbox (α : Type*) where
  pending : List α
  watched : Bool
  log : List (Entry α)

namespace Outbox

variable {α : Type*} (part : List α → ℤ → List α)

/-- Everything queued so far, in the order in which it was queued. -/
def queued (o : Outbox α) : List α := o.log.flatMap Entry.message

/-- Everything gone so far. -/
def gone (o : Outbox α) : List α := o.log.flatMap (Entry.sent part)

/-- The messages queued since the last buffer was handed over, counted entry by entry. -/
def count (n : ℕ) : Entry α → ℕ
  | .queued _ => n + 1
  | .handed _ _ => 0

/-- How many messages were queued since the last buffer was handed over. -/
def waiting (log : List (Entry α)) : ℕ := log.foldl count 0

/-- Queue `m` before what waits. -/
def push (o : Outbox α) (m : List α) : Outbox α :=
  { pending := m ++ o.pending, watched := true, log := o.log ++ [.queued m] }

/-- Queue several messages, one after another. -/
def pushAll (o : Outbox α) (ms : List (List α)) : Outbox α := ms.foldl push o

/-- Empty the queue, handing over `buffer`. -/
def drain (o : Outbox α) (buffer : List α) (result : ℤ) : Outbox α :=
  { o with pending := [], log := o.log ++ [.handed buffer result] }

/-- Stop watching. -/
def unwatch (o : Outbox α) : Outbox α := { o with watched := false }

/-- **In order**: what is gone and then what waits is what was queued. -/
def InOrder (o : Outbox α) : Prop := o.gone part ++ o.pending = o.queued

/-- **Nothing is lost**: in order, and whatever waits is watched. -/
def Kept (o : Outbox α) : Prop := o.InOrder part ∧ (o.pending ≠ [] → o.watched = true)

/-- Whatever waits is watched. -/
def Armed (o : Outbox α) : Prop := o.pending ≠ [] → o.watched = true

/-- **Nothing is invented**: what is gone and what waits was queued, each element once. -/
def Sourced (o : Outbox α) : Prop := (o.gone part ++ o.pending).Subperm o.queued

/-- If no message has been queued since the last drain, nothing waits. -/
def Settled (o : Outbox α) : Prop := waiting o.log = 0 → o.pending = []

/-- The same queue and history, watched at least as much. -/
structure Watching (o o' : Outbox α) : Prop where
  pending : o'.pending = o.pending
  log : o'.log = o.log
  watched : o.watched = true → o'.watched = true

/-! ### What pushing and draining do -/

@[simp] theorem pushAll_nil (o : Outbox α) : o.pushAll [] = o := rfl

@[simp] theorem pushAll_cons (o : Outbox α) (m : List α) (ms : List (List α)) :
    o.pushAll (m :: ms) = (o.push m).pushAll ms := rfl

theorem pushAll_pending : ∀ (ms : List (List α)) (o : Outbox α),
    (o.pushAll ms).pending = ms.reverse.flatten ++ o.pending
  | [], _ => rfl
  | m :: ms, o => by
    rw [pushAll_cons, pushAll_pending ms]
    simp [push]

theorem pushAll_log : ∀ (ms : List (List α)) (o : Outbox α),
    (o.pushAll ms).log = o.log ++ ms.map Entry.queued
  | [], o => by simp
  | m :: ms, o => by
    rw [pushAll_cons, pushAll_log ms]
    simp [push]

theorem pushAll_watched : ∀ (ms : List (List α)) (o : Outbox α),
    o.watched = true ∨ ms ≠ [] → (o.pushAll ms).watched = true
  | [], _, h => h.resolve_right fun hne => hne rfl
  | _ :: ms, _, _ => pushAll_watched ms _ (Or.inl rfl)

theorem flatMap_message_map (ms : List (List α)) :
    (ms.map Entry.queued).flatMap Entry.message = ms.flatten := by
  induction ms with
  | nil => rfl
  | cons m ms ih => simp [Entry.message, ih]

theorem flatMap_sent_map (ms : List (List α)) :
    (ms.map Entry.queued).flatMap (Entry.sent part) = [] := by
  induction ms with
  | nil => rfl
  | cons m ms ih => simp [Entry.sent, ih]

theorem waiting_pushAll (ms : List (List α)) (o : Outbox α) :
    waiting (o.pushAll ms).log = waiting o.log + ms.length := by
  have hfold : ∀ (ms : List (List α)) (n : ℕ), (ms.map Entry.queued).foldl count n =
      n + ms.length := by
    intro ms
    induction ms with
    | nil => exact fun n => rfl
    | cons m ms ih =>
      intro n
      rw [List.map_cons, List.foldl_cons, ih, List.length_cons, count]
      omega
  unfold waiting
  rw [pushAll_log, List.foldl_append, hfold]

theorem waiting_drain (o : Outbox α) (buffer : List α) (result : ℤ) :
    waiting (o.drain buffer result).log = 0 := by
  unfold waiting drain
  rw [List.foldl_append]
  rfl

variable {part}

theorem Watching.refl (o : Outbox α) : Watching o o := ⟨rfl, rfl, id⟩

theorem Watching.inOrder_iff {o o' : Outbox α} (h : Watching o o') :
    o'.InOrder part ↔ o.InOrder part := by
  unfold InOrder gone queued
  rw [h.pending, h.log]

theorem Watching.kept {o o' : Outbox α} (h : Watching o o') (hk : o.Kept part) : o'.Kept part :=
  ⟨h.inOrder_iff.mpr hk.1, fun hne => h.watched (hk.2 (h.pending ▸ hne))⟩

theorem Watching.armed {o o' : Outbox α} (h : Watching o o') (ha : o.Armed) : o'.Armed :=
  fun hne => h.watched (ha (h.pending ▸ hne))

theorem Watching.settled {o o' : Outbox α} (h : Watching o o') (hs : o.Settled) : o'.Settled := by
  unfold Settled at hs ⊢
  rw [h.pending, h.log]
  exact hs

theorem Watching.pushAll {o o' : Outbox α} (h : Watching o o') (ms : List (List α)) :
    Watching (o.pushAll ms) (o'.pushAll ms) := by
  refine ⟨?_, ?_, fun hw => ?_⟩
  · rw [pushAll_pending, pushAll_pending, h.pending]
  · rw [pushAll_log, pushAll_log, h.log]
  · rcases ms with _ | ⟨m, ms⟩
    · exact h.watched hw
    · exact pushAll_watched _ _ (Or.inr (by simp))

theorem Watching.trans {o o' o'' : Outbox α} (h : Watching o o') (h' : Watching o' o'') :
    Watching o o'' :=
  ⟨h'.pending.trans h.pending, h'.log.trans h.log, fun hw => h'.watched (h.watched hw)⟩

/-- Unwatched, the two are the same. -/
theorem Watching.unwatch {o o' : Outbox α} (h : Watching o o') : o'.unwatch = o.unwatch := by
  obtain ⟨pending, watched, log⟩ := o
  obtain ⟨pending', watched', log'⟩ := o'
  obtain ⟨rfl, rfl, -⟩ := h
  rfl

/-- What is pushed is watched. -/
theorem Armed.pushAll {o : Outbox α} (h : o.Armed) (ms : List (List α)) : (o.pushAll ms).Armed := by
  rcases ms with _ | ⟨m, ms⟩
  · exact h
  · exact fun _ => pushAll_watched _ _ (Or.inr (by simp))

/-- Unwatched, nothing may wait. -/
theorem armed_unwatch_iff {o : Outbox α} : o.unwatch.Armed ↔ o.pending = [] := by
  constructor
  · intro h
    by_contra hne
    exact Bool.false_ne_true (h hne)
  · exact fun hnil hne => absurd hnil hne

theorem pushAll_append (o : Outbox α) (ms ns : List (List α)) :
    o.pushAll (ms ++ ns) = (o.pushAll ms).pushAll ns := List.foldl_append

/-! ### Order -/

/-- **Messages are pushed in order** exactly when it does not matter on which side of what waits
they are put, and in which order. -/
theorem pushAll_inOrder_iff {o : Outbox α} (h : o.InOrder part) (ms : List (List α)) :
    (o.pushAll ms).InOrder part ↔
      ms.reverse.flatten ++ o.pending = o.pending ++ ms.flatten := by
  unfold InOrder gone queued at h ⊢
  rw [pushAll_pending, pushAll_log, List.flatMap_append, List.flatMap_append, flatMap_message_map,
    flatMap_sent_map, List.append_nil, ← h, List.append_assoc, List.append_cancel_left_eq]

/-- **A drain stays in order** exactly when everything that waited is gone. -/
theorem drain_inOrder_iff {o : Outbox α} (h : o.InOrder part) (buffer : List α) (result : ℤ) :
    (o.drain buffer result).InOrder part ↔ part buffer result = o.pending := by
  unfold InOrder gone queued at h ⊢
  simp only [drain, List.flatMap_append, List.flatMap_cons, List.flatMap_nil, List.append_nil,
    Entry.sent, Entry.message]
  rw [← h, List.append_cancel_left_eq]

/-! ### Loss -/

/-- With at most one message since the last drain, it is pushed onto an empty queue. -/
theorem pushAll_inOrder {o : Outbox α} (h : o.InOrder part) (hs : o.Settled) {ms : List (List α)}
    (hms : waiting (o.pushAll ms).log ≤ 1) : (o.pushAll ms).InOrder part := by
  rw [waiting_pushAll] at hms
  rcases ms with _ | ⟨m, ms⟩
  · exact h
  · rw [List.length_cons] at hms
    have hnil : ms = [] := List.length_eq_zero_iff.mp (by omega)
    have hempty : o.pending = [] := hs (by omega)
    refine (pushAll_inOrder_iff h _).mpr ?_
    rw [hnil, hempty]
    simp

/-- A message that is pushed onto an empty queue is watched. -/
theorem pushAll_kept {o : Outbox α} (h : o.Kept part) (hs : o.Settled) {ms : List (List α)}
    (hms : waiting (o.pushAll ms).log ≤ 1) : (o.pushAll ms).Kept part :=
  ⟨pushAll_inOrder h.1 hs hms, Armed.pushAll h.2 ms⟩

theorem pushAll_settled {o : Outbox α} (hs : o.Settled) (ms : List (List α)) :
    (o.pushAll ms).Settled := by
  intro hw
  rw [waiting_pushAll] at hw
  have hnil : ms = [] := List.length_eq_zero_iff.mp (by omega)
  rw [hnil]
  exact hs (by omega)

theorem drain_settled (o : Outbox α) (buffer : List α) (result : ℤ) :
    (o.drain buffer result).Settled := fun _ => rfl

/-- With at most one message behind it, a drain stays in order as it does without. -/
theorem drain_pushAll_inOrder_iff {o : Outbox α} (h : o.InOrder part) (buffer : List α) (result : ℤ)
    {ms : List (List α)} (hms : waiting ((o.drain buffer result).pushAll ms).log ≤ 1) :
    ((o.drain buffer result).pushAll ms).InOrder part ↔ part buffer result = o.pending := by
  have hlen : ms.length ≤ 1 := by
    rw [waiting_pushAll, waiting_drain] at hms
    omega
  have hrev : ms.reverse = ms := by
    match ms, hlen with
    | [], _ => rfl
    | [_], _ => rfl
  have hio : ((o.drain buffer result).pushAll ms).InOrder part ↔
      (o.drain buffer result).InOrder part := by
    unfold InOrder gone queued
    rw [pushAll_pending, pushAll_log, hrev, List.flatMap_append, List.flatMap_append,
      flatMap_message_map, flatMap_sent_map]
    simp only [drain, List.append_nil]
    rw [List.append_cancel_right_eq]
  rw [hio, drain_inOrder_iff h buffer result]

/-- **A drain with at most one message behind it keeps everything**, while it is watched, exactly
when everything that waited is gone. -/
theorem drain_kept_iff {o o' : Outbox α} (h : o.Kept part) (buffer : List α) (result : ℤ)
    {ms : List (List α)} (hms : waiting ((o.drain buffer result).pushAll ms).log ≤ 1)
    (ho' : Watching ((o.drain buffer result).pushAll ms) o') :
    o'.Kept part ↔ part buffer result = o.pending := by
  rw [← drain_pushAll_inOrder_iff h.1 buffer result hms, ← ho'.inOrder_iff]
  refine ⟨fun hk => hk.1, fun hio => ho'.kept ⟨ho'.inOrder_iff.mp hio, fun hne => ?_⟩⟩
  refine pushAll_watched _ _ (Or.inr fun hnil => hne ?_)
  rw [hnil]
  rfl

/-- **A write with at most one message queued during it loses nothing** exactly when everything that
waited is gone and the message, which is no longer watched, is empty. -/
theorem write_kept_iff {o : Outbox α} (h : o.Kept part) (buffer : List α) (result : ℤ)
    {ms : List (List α)} (hms : waiting ((o.drain buffer result).pushAll ms).log ≤ 1) :
    ((o.drain buffer result).pushAll ms).unwatch.Kept part ↔
      part buffer result = o.pending ∧ ∀ m ∈ ms, m = [] := by
  rw [← drain_kept_iff h buffer result hms (Watching.refl _)]
  have hpend : ((o.drain buffer result).pushAll ms).pending = ms.reverse.flatten := by
    rw [pushAll_pending]
    simp [drain]
  have hempty : ms.reverse.flatten = [] ↔ ∀ m ∈ ms, m = [] := by simp
  rw [← hempty, ← hpend]
  unfold Kept
  constructor
  · rintro ⟨hio, hw⟩
    have hnil : ((o.drain buffer result).pushAll ms).pending = [] := by
      by_contra hne
      exact Bool.false_ne_true (hw hne)
    exact ⟨⟨hio, fun hne => absurd hnil hne⟩, hnil⟩
  · rintro ⟨⟨hio, -⟩, hnil⟩
    exact ⟨hio, fun hne => absurd hnil hne⟩

/-! ### Order, watched or not -/

/-- Messages are pushed, and it does not matter who watches. -/
def Pushes (o o' : Outbox α) : Prop :=
  ∃ ms, o'.pending = (o.pushAll ms).pending ∧ o'.log = (o.pushAll ms).log

namespace Pushes

variable {o o' o'' : Outbox α}

theorem refl (o : Outbox α) : Pushes o o := ⟨[], rfl, rfl⟩

theorem of_watching {ms : List (List α)} (h : Watching (o.pushAll ms) o') : Pushes o o' :=
  ⟨ms, h.pending, h.log⟩

theorem of_eq (hp : o'.pending = o.pending) (hl : o'.log = o.log) : Pushes o o' := ⟨[], hp, hl⟩

theorem trans (h : Pushes o o') (h' : Pushes o' o'') : Pushes o o'' := by
  obtain ⟨ms, hp, hl⟩ := h
  obtain ⟨ns, hp', hl'⟩ := h'
  refine ⟨ms ++ ns, ?_, ?_⟩
  · rw [hp', pushAll_append, pushAll_pending, pushAll_pending ns, hp]
  · rw [hl', pushAll_append, pushAll_log, pushAll_log ns, hl]

/-- With at most one message since the last drain, what is in order stays so. -/
theorem inOrder (h : Pushes o o') (ho : o.InOrder part) (hs : o.Settled)
    (hone : waiting o'.log ≤ 1) : o'.InOrder part ∧ o'.Settled := by
  obtain ⟨ms, hp, hl⟩ := h
  rw [hl] at hone
  have hio := pushAll_inOrder ho hs hone
  have hset := pushAll_settled hs ms
  unfold InOrder gone queued at hio ⊢
  unfold Settled at hset ⊢
  rw [hp, hl]
  exact ⟨hio, hset⟩

/-- Nor does a drain that takes everything change the order. -/
theorem drain_inOrder {buffer : List α} {result : ℤ} (h : Pushes (o.drain buffer result) o')
    (ho : o.InOrder part) (hall : part buffer result = o.pending) (hone : waiting o'.log ≤ 1) :
    o'.InOrder part ∧ o'.Settled :=
  h.inOrder ((drain_inOrder_iff ho buffer result).mpr hall) (drain_settled o buffer result) hone

end Pushes

/-! ### Provenance -/

theorem Sourced.gone_subperm {o : Outbox α} (h : o.Sourced part) : (o.gone part).Subperm o.queued :=
  (List.sublist_append_left _ _).subperm.trans h

/-- With the same history, what waits may have become less. -/
theorem Sourced.of_sublist {o o' : Outbox α} (h : o.Sourced part)
    (hp : o'.pending.Sublist o.pending) (hl : o'.log = o.log) : o'.Sourced part := by
  unfold Sourced gone queued at h ⊢
  rw [hl]
  exact (hp.append_left _).subperm.trans h

theorem pushAll_sourced {o : Outbox α} (h : o.Sourced part) (ms : List (List α)) :
    (o.pushAll ms).Sourced part := by
  unfold Sourced gone queued at h ⊢
  have hrev : ms.reverse.flatten.Perm ms.flatten := (List.reverse_perm ms).flatten
  rw [pushAll_pending, pushAll_log, List.flatMap_append, List.flatMap_append, flatMap_message_map,
    flatMap_sent_map, List.append_nil]
  have hcomm : (o.log.flatMap (Entry.sent part) ++ (ms.reverse.flatten ++ o.pending)).Perm
      (o.log.flatMap (Entry.sent part) ++ o.pending ++ ms.flatten) := by
    rw [List.append_assoc]
    exact (List.perm_append_comm.trans (hrev.append_left _)).append_left _
  exact hcomm.subperm.trans ((List.subperm_append_right _).mpr h)

theorem drain_sourced {o : Outbox α} (h : o.Sourced part) {buffer : List α} {result : ℤ}
    (hpart : (part buffer result).Sublist o.pending) : (o.drain buffer result).Sourced part := by
  unfold Sourced gone queued at h ⊢
  simp only [drain, List.flatMap_append, List.flatMap_cons, List.flatMap_nil, List.append_nil,
    Entry.sent, Entry.message]
  exact (hpart.append_left _).subperm.trans h

end Outbox

end C11Http.Lib
