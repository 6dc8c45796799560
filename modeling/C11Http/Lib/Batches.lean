import C11Http.Lib.Outbox
import Mathlib.Algebra.GroupWithZero.Nat
import Mathlib.Logic.Relation

/-! # Whole messages in the buffers of an outbox

A message that is pushed onto an `Outbox` keeps its bytes together. `Whole` says that the buffers
handed over and what waits are made of groups of messages of the history, each message in one group
at most and the last of a group first.

Between two drains messages are pushed and what waits may be given up, in any number of steps:
`Filling`. That keeps `Whole` (`Filling.whole`), and so does a drain that hands over all that waits
(`Whole.drain`). `full` is the length of the buffers that were taken to the end. -/

namespace C11Http.Lib

namespace Entry

variable {α : Type*}

def asMessage : Entry α → Option (List α)
  | .queued message => some message
  | .handed _ _ => none

def asBuffer : Entry α → Option (List α)
  | .queued _ => none
  | .handed buffer _ => some buffer

/-- The length of a buffer that is taken to the end. -/
def full : Entry α → ℕ
  | .queued _ => 0
  | .handed buffer result => if result = buffer.length then buffer.length else 0

end Entry

namespace Outbox

variable {α : Type*} {o o' o'' : Outbox α}

/-- The messages queued so far. -/
def messages (o : Outbox α) : List (List α) := o.log.filterMap Entry.asMessage

/-- The buffers handed over so far. -/
def buffers (o : Outbox α) : List (List α) := o.log.filterMap Entry.asBuffer

/-- The total length of the buffers that were taken to the end. -/
def full (o : Outbox α) : ℕ := (o.log.map Entry.full).sum

/-- **Whole messages, each at most once**: every buffer is the concatenation of a group of messages,
the groups are taken from the history one after another, and what waits is one more of them. -/
def Whole (o : Outbox α) : Prop :=
  ∃ (groups : List (List (List α))) (rest : List (List α)),
    (groups.flatten ++ rest).Sublist o.messages ∧
      o.buffers = groups.map (fun group => group.reverse.flatten) ∧
      o.pending = rest.reverse.flatten

/-- Messages are pushed, or what waits is given up. -/
inductive Fill (o o' : Outbox α) : Prop
  | pushed (ms : List (List α)) (pending : o'.pending = (o.pushAll ms).pending)
      (log : o'.log = (o.pushAll ms).log)
  | cleared (pending : o'.pending = []) (log : o'.log = o.log)

/-- What becomes of an outbox between two drains. -/
def Filling : Outbox α → Outbox α → Prop := Relation.ReflTransGen Fill

theorem Filling.refl (o : Outbox α) : Filling o o := Relation.ReflTransGen.refl

theorem Filling.trans (h : Filling o o') (h' : Filling o' o'') : Filling o o'' :=
  Relation.ReflTransGen.trans h h'

theorem Filling.of_push {ms : List (List α)} (h : Watching (o.pushAll ms) o') : Filling o o' :=
  .single (.pushed ms h.pending h.log)

theorem Filling.of_eq (hp : o'.pending = o.pending) (hl : o'.log = o.log) : Filling o o' :=
  .single (.pushed [] hp hl)

theorem Filling.of_nil (hp : o'.pending = []) (hl : o'.log = o.log) : Filling o o' :=
  .single (.cleared hp hl)

/-- **What every fill keeps is kept between two drains.** -/
theorem Filling.rule {K : Outbox α → Prop} (hK : ∀ o o', Fill o o' → K o → K o')
    (h : Filling o o') (ho : K o) : K o' := by
  induction h with
  | refl => exact ho
  | tail _ hfill ih => exact hK _ _ hfill ih

/-! ### Messages and buffers -/

theorem pushAll_messages (ms : List (List α)) (o : Outbox α) :
    (o.pushAll ms).messages = o.messages ++ ms := by
  unfold messages
  rw [pushAll_log, List.filterMap_append, List.filterMap_map]
  congr 1
  exact List.filterMap_some

theorem pushAll_buffers (ms : List (List α)) (o : Outbox α) :
    (o.pushAll ms).buffers = o.buffers := by
  unfold buffers
  rw [pushAll_log, List.filterMap_append, List.filterMap_map]
  refine (List.append_right_eq_self).mpr ?_
  exact List.filterMap_eq_nil_iff.mpr fun _ _ => rfl

theorem pushAll_full (ms : List (List α)) (o : Outbox α) : (o.pushAll ms).full = o.full := by
  have hzero : ((ms.map Entry.queued).map Entry.full).sum = 0 := by
    induction ms with
    | nil => rfl
    | cons m ms ih => simpa [Entry.full] using ih
  unfold full
  rw [pushAll_log, List.map_append, List.sum_append, hzero, Nat.add_zero]

theorem drain_full (o : Outbox α) (buffer : List α) (result : ℤ) :
    (o.drain buffer result).full =
      o.full + if result = buffer.length then buffer.length else 0 := by
  simp [full, drain, Entry.full]

theorem whole_new (hp : o.pending = []) (hl : o.log = []) : o.Whole :=
  ⟨[], [], by simp, by simp [buffers, hl], hp⟩

theorem Fill.whole (h : Fill o o') (ho : o.Whole) : o'.Whole := by
  obtain ⟨groups, rest, hsub, hbuffers, hpending⟩ := ho
  cases h with
  | pushed ms hp hl =>
    have hmessages : o'.messages = o.messages ++ ms := by
      rw [← pushAll_messages ms o]
      unfold messages
      rw [hl]
    have hsame : o'.buffers = o.buffers := by
      rw [← pushAll_buffers ms o]
      unfold buffers
      rw [hl]
    refine ⟨groups, rest ++ ms, ?_, hsame.trans hbuffers, ?_⟩
    · rw [hmessages, ← List.append_assoc]
      exact hsub.append_right ms
    · rw [hp, pushAll_pending, hpending, List.reverse_append, List.flatten_append]
  | cleared hp hl =>
    refine ⟨groups, [], ?_, ?_, hp⟩
    · unfold messages at hsub ⊢
      rw [List.append_nil, hl]
      exact (List.sublist_append_left _ _).trans hsub
    · unfold buffers at hbuffers ⊢
      rw [hl, hbuffers]

theorem Fill.full_eq (h : Fill o o') : o'.full = o.full := by
  cases h with
  | pushed ms hp hl =>
    rw [← pushAll_full ms o]
    unfold full
    rw [hl]
  | cleared hp hl =>
    unfold full
    rw [hl]

theorem Fill.sourced {part : List α → ℤ → List α} (h : Fill o o') (ho : o.Sourced part) :
    o'.Sourced part := by
  cases h with
  | pushed ms hp hl => exact (pushAll_sourced ho ms).of_sublist (by rw [hp]) hl
  | cleared hp hl => exact ho.of_sublist (by rw [hp]; exact List.nil_sublist _) hl

theorem Filling.whole (h : Filling o o') (ho : o.Whole) : o'.Whole :=
  h.rule (fun _ _ hfill => hfill.whole) ho

theorem Filling.full_eq (h : Filling o o') : o'.full = o.full :=
  h.rule (K := fun u => u.full = o.full) (fun _ _ hfill hu => hfill.full_eq.trans hu) rfl

theorem Filling.sourced {part : List α → ℤ → List α} (h : Filling o o') (ho : o.Sourced part) :
    o'.Sourced part :=
  h.rule (fun _ _ hfill => hfill.sourced) ho

/-- **A drain of all that waits hands over whole messages.** -/
theorem Whole.drain (h : o.Whole) {buffer : List α} (hb : buffer = o.pending) (result : ℤ) :
    (o.drain buffer result).Whole := by
  obtain ⟨groups, rest, hsub, hbuffers, hpending⟩ := h
  refine ⟨groups ++ [rest], [], ?_, ?_, rfl⟩
  · have hsame : (o.drain buffer result).messages = o.messages := by
      simp [messages, Outbox.drain, List.filterMap_append, Entry.asMessage]
    rw [hsame]
    simpa using hsub
  · have hmore : (o.drain buffer result).buffers = o.buffers ++ [buffer] := by
      simp [buffers, Outbox.drain, List.filterMap_append, Entry.asBuffer]
    rw [hmore, hbuffers, hb, hpending]
    simp

end Outbox

end C11Http.Lib
