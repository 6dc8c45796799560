import Mathlib.Algebra.BigOperators.Fin
import Mathlib.Algebra.Order.BigOperators.Group.Finset
import Mathlib.Data.List.FinRange
import C11Http.Lib.Promise
import C11Http.Lib.Release
import C11Http.Lib.Run

/-! # The destructor of the worker pool and its threads

`~WorkerPool` deletes the workers one after another and then joins their threads, while the threads
are still in `threadEntryPoint`. `~Worker` sets the promise to an item that captures the worker
itself; the item is run by the thread, and sets `mShutdown` of the worker it has captured.

The steps are finer than those of the pool while it works: the test of `mShutdown`, `get_future`,
`wait`, `get` and the call of the item are one step each, and so are the `set_value` and the end of
a worker in its destructor. No work has been added. The log has the uses of a worker, by its thread
or by the destructor, and its release. The state of the promise is shared with the future, and
outlives the worker.

`destroyed_iff`: in a run that has come to its end, nothing of a released worker was used and every
thread has left its loop, exactly if every worker was released behind the return of its thread. -/

namespace C11Http.Workers

open C11Http.Lib C11Http.Lib.Run C11Http.Lib.Release

/-- Where a thread is in `threadEntryPoint`. What it does behind the use of a released worker is
undefined. -/
inductive ThreadPc (n : ℕ)
  | testing
  | taking
  | waiting
  | getting
  | calling (worker : Fin n)
  | returned
  | terminated
  | undefined
  deriving DecidableEq

/-- Where `~WorkerPool` is: in the body of `~Worker`, at its end, or joining; with the workers and
threads that come behind. -/
inductive DestructorPc (n : ℕ)
  | storing (worker : Fin n) (rest : List (Fin n))
  | freeing (worker : Fin n) (rest : List (Fin n))
  | joining (rest : List (Fin n))
  | terminated
  deriving DecidableEq

/-- The members of a worker; of an item of work the worker it captures. -/
structure Members (n : ℕ) where
  mPromiseToWork : Promise (Fin n)
  mShutdown : Bool

structure Destruction (n : ℕ) where
  mWorkers : Fin n → Members n
  mThreads : Fin n → ThreadPc n
  destructor : DestructorPc n
  log : List (Access (Fin n))

namespace Destruction

variable {n : ℕ}

/-- `std::for_each` over `mWorkers`, and behind it over `mThreads`. -/
def delete : List (Fin n) → DestructorPc n
  | [] => .joining (List.finRange n)
  | worker :: rest => .storing worker rest

/-- The destructor is entered; `mShutdown` is taken to start false. -/
def enter (n : ℕ) : Destruction n :=
  { mWorkers := fun _ => { mPromiseToWork := .new, mShutdown := false }
    mThreads := fun _ => .testing
    destructor := delete (List.finRange n)
    log := [] }

def goto (s : Destruction n) (i : Fin n) (pc : ThreadPc n) : Destruction n :=
  { s with mThreads := Function.update s.mThreads i pc }

def put (s : Destruction n) (worker : Fin n) (w : Members n) : Destruction n :=
  { s with mWorkers := Function.update s.mWorkers worker w }

def record (s : Destruction n) (a : Access (Fin n)) : Destruction n :=
  { s with log := s.log ++ [a] }

/-- The thread of worker `i` uses members of a worker. -/
def use (s : Destruction n) (i worker : Fin n) (f : Members n → Members n × ThreadPc n) :
    Destruction n :=
  let t := s.record (.use worker)
  if worker ∈ released s.log then t.goto i .undefined
  else (t.put worker (f (s.mWorkers worker)).1).goto i (f (s.mWorkers worker)).2

/-- `while(!mShutdown)`. -/
def test (w : Members n) : Members n × ThreadPc n :=
  (w, if w.mShutdown then .returned else .taking)

/-- `mPromiseToWork.get_future()`. -/
def take (w : Members n) : Members n × ThreadPc n :=
  match w.mPromiseToWork.getFuture with
  | .error _ => (w, .terminated)
  | .ok promise => ({ w with mPromiseToWork := promise }, .waiting)

/-- The item of work that `~Worker` stores. -/
def reqToResp (w : Members n) : Members n × ThreadPc n :=
  ({ w with mShutdown := true }, .testing)

/-- One step of the thread, if it is not blocked. -/
def threadEntryPoint (s : Destruction n) (i : Fin n) : Option (Destruction n) :=
  match s.mThreads i with
  | .testing => some (s.use i i test)
  | .taking => some (s.use i i take)
  | .waiting => (s.mWorkers i).mPromiseToWork.value.map fun _ => s.goto i .getting
  | .getting => (s.mWorkers i).mPromiseToWork.value.map fun worker => s.goto i (.calling worker)
  | .calling worker => some (s.use i worker reqToResp)
  | .returned => none
  | .terminated => none
  | .undefined => none

/-- One step of `~WorkerPool`. An exception would leave `~Worker`, which may not throw. -/
def destroy (s : Destruction n) : Option (Destruction n) :=
  match s.destructor with
  | .storing worker rest =>
    let w := s.mWorkers worker
    let t := s.record (.use worker)
    match w.mPromiseToWork.setValue worker with
    | .error _ => some { t with destructor := .terminated }
    | .ok promise =>
      some { t.put worker { w with mPromiseToWork := promise } with
        destructor := .freeing worker rest }
  | .freeing worker rest => some { s.record (.release worker) with destructor := delete rest }
  | .joining (i :: rest) =>
    if s.mThreads i = .returned then some { s with destructor := .joining rest } else none
  | .joining [] => none
  | .terminated => none

inductive Action (n : ℕ)
  | thread (i : Fin n)
  | destructor

def step (s : Destruction n) : Action n → Option (Destruction n)
  | .thread i => s.threadEntryPoint i
  | .destructor => s.destroy

/-- **The pool has been destroyed as it should be**: nothing of a released worker was used, and
every thread has left its loop. -/
structure Destroyed (s : Destruction n) : Prop where
  proper : Proper s.log
  returned : ∀ i, s.mThreads i = .returned

/-- The destructor releases a worker behind the return of its thread. -/
def FreesReturned (s : Destruction n) : Action n → Prop
  | .thread _ => True
  | .destructor => ∀ worker rest, s.destructor = .freeing worker rest →
      s.mThreads worker = .returned

variable {s t : Destruction n}

/-! ### What a step does -/

@[simp] theorem goto_self (i : Fin n) (pc : ThreadPc n) : (s.goto i pc).mThreads i = pc := by
  show Function.update s.mThreads i pc i = pc
  rw [Function.update_self]

theorem goto_of_ne {i j : Fin n} (h : j ≠ i) (pc : ThreadPc n) :
    (s.goto i pc).mThreads j = s.mThreads j := by
  show Function.update s.mThreads i pc j = s.mThreads j
  rw [Function.update_of_ne h]

@[simp] theorem put_self (worker : Fin n) (w : Members n) :
    (s.put worker w).mWorkers worker = w := by
  show Function.update s.mWorkers worker w worker = w
  rw [Function.update_self]

theorem put_of_ne {worker i : Fin n} (h : i ≠ worker) (w : Members n) :
    (s.put worker w).mWorkers i = s.mWorkers i := by
  show Function.update s.mWorkers worker w i = s.mWorkers i
  rw [Function.update_of_ne h]

theorem use_of_released {i worker : Fin n} (h : worker ∈ released s.log)
    (f : Members n → Members n × ThreadPc n) :
    s.use i worker f = (s.record (.use worker)).goto i .undefined := if_pos h

theorem use_of_alive {i worker : Fin n} (h : worker ∉ released s.log)
    (f : Members n → Members n × ThreadPc n) :
    s.use i worker f = ((s.record (.use worker)).put worker (f (s.mWorkers worker)).1).goto i
      (f (s.mWorkers worker)).2 := if_neg h

theorem use_log (i worker : Fin n) (f : Members n → Members n × ThreadPc n) :
    (s.use i worker f).log = s.log ++ [.use worker] := by
  by_cases h : worker ∈ released s.log
  · rw [use_of_released h]
    rfl
  · rw [use_of_alive h]
    rfl

theorem use_mThreads_of_ne {i j : Fin n} (hne : j ≠ i) (worker : Fin n)
    (f : Members n → Members n × ThreadPc n) : (s.use i worker f).mThreads j = s.mThreads j := by
  by_cases h : worker ∈ released s.log
  · rw [use_of_released h, goto_of_ne hne]
    rfl
  · rw [use_of_alive h, goto_of_ne hne]
    rfl

/-- **A step of a thread** changes the thread alone, and uses a worker or nothing. -/
theorem threadEntryPoint_cases {i : Fin n} (h : s.threadEntryPoint i = some t) :
    (s.mThreads i = .testing ∧ t = s.use i i test) ∨
    (s.mThreads i = .taking ∧ t = s.use i i take) ∨
    (∃ worker, (s.mWorkers i).mPromiseToWork.value = some worker ∧
      (s.mThreads i = .waiting ∧ t = s.goto i .getting ∨
        s.mThreads i = .getting ∧ t = s.goto i (.calling worker))) ∨
    ∃ worker, s.mThreads i = .calling worker ∧ t = s.use i worker reqToResp := by
  unfold threadEntryPoint at h
  cases hpc : s.mThreads i with
  | testing =>
    simp only [hpc, Option.some.injEq] at h
    exact Or.inl ⟨rfl, h.symm⟩
  | taking =>
    simp only [hpc, Option.some.injEq] at h
    exact Or.inr (Or.inl ⟨rfl, h.symm⟩)
  | waiting =>
    simp only [hpc] at h
    obtain ⟨worker, hv, rfl⟩ := Option.map_eq_some_iff.mp h
    exact Or.inr (Or.inr (Or.inl ⟨worker, hv, Or.inl ⟨rfl, rfl⟩⟩))
  | getting =>
    simp only [hpc] at h
    obtain ⟨worker, hv, rfl⟩ := Option.map_eq_some_iff.mp h
    exact Or.inr (Or.inr (Or.inl ⟨worker, hv, Or.inr ⟨rfl, rfl⟩⟩))
  | calling worker =>
    simp only [hpc, Option.some.injEq] at h
    exact Or.inr (Or.inr (Or.inr ⟨worker, rfl, h.symm⟩))
  | returned =>
    simp only [hpc] at h
    cases h
  | terminated =>
    simp only [hpc] at h
    cases h
  | undefined =>
    simp only [hpc] at h
    cases h

/-! ### One round of every thread -/

/-- The steps a thread has still to do. -/
def threadRank (w : Members n) : ThreadPc n → ℕ
  | .testing => if w.mPromiseToWork.retrieved then 1 else 6
  | .taking => 5
  | .waiting => 4
  | .getting => 3
  | .calling _ => 2
  | .returned => 0
  | .terminated => 0
  | .undefined => 0

/-- The only round of a thread: before it has taken the future, up to the call of the item, which
has captured its own worker, and behind it; or the thread has used a worker that is gone. -/
inductive Round (i : Fin n) (w : Members n) (pc : ThreadPc n) (gone : Prop) : Prop
  | fresh (pc : pc = .testing ∨ pc = .taking) (retrieved : w.mPromiseToWork.retrieved = false)
      (mShutdown : w.mShutdown = false)
  | holds (pc : pc = .waiting ∨ pc = .getting ∨ pc = .calling i)
      (retrieved : w.mPromiseToWork.retrieved = true) (mShutdown : w.mShutdown = false)
  | spent (pc : pc = .testing ∨ pc = .returned) (retrieved : w.mPromiseToWork.retrieved = true)
      (mShutdown : w.mShutdown = true)
  | undefined (pc : pc = .undefined) (gone : gone)

/-- What a step of the thread of worker `i` does: it stays in its round and comes closer to its end,
uses its own worker or none, and touches nothing else. -/
structure Advances (i : Fin n) (s t : Destruction n) : Prop where
  destructor : t.destructor = s.destructor
  log : t.log = s.log ∨ t.log = s.log ++ [.use i]
  others : ∀ j, j ≠ i → t.mWorkers j = s.mWorkers j ∧ t.mThreads j = s.mThreads j
  value : (t.mWorkers i).mPromiseToWork.value = (s.mWorkers i).mPromiseToWork.value
  round : Round i (t.mWorkers i) (t.mThreads i) (i ∈ released s.log)
  rank : threadRank (t.mWorkers i) (t.mThreads i) < threadRank (s.mWorkers i) (s.mThreads i)

theorem Advances.released {i : Fin n} (h : Advances i s t) : released t.log = released s.log := by
  rcases h.log with hlog | hlog
  · rw [hlog]
  · rw [hlog, released_append, released_use_cons, released_nil, List.append_nil]

theorem Advances.goto {i : Fin n} {pc : ThreadPc n}
    (hround : Round i (s.mWorkers i) pc (i ∈ Release.released s.log))
    (hrank : threadRank (s.mWorkers i) pc < threadRank (s.mWorkers i) (s.mThreads i)) :
    Advances i s (s.goto i pc) where
  destructor := rfl
  log := Or.inl rfl
  others j hj := ⟨rfl, goto_of_ne hj pc⟩
  value := rfl
  round := by
    rw [goto_self]
    exact hround
  rank := by
    rw [goto_self]
    exact hrank

theorem Advances.use {i : Fin n} {f : Members n → Members n × ThreadPc n}
    (hvalue : (f (s.mWorkers i)).1.mPromiseToWork.value = (s.mWorkers i).mPromiseToWork.value)
    (hround : Round i (f (s.mWorkers i)).1 (f (s.mWorkers i)).2 (i ∈ Release.released s.log))
    (hrank : threadRank (f (s.mWorkers i)).1 (f (s.mWorkers i)).2 <
      threadRank (s.mWorkers i) (s.mThreads i)) : Advances i s (s.use i i f) := by
  by_cases hgone : i ∈ Release.released s.log
  · rw [use_of_released hgone]
    refine ⟨rfl, Or.inr rfl, fun j hj => ⟨rfl, goto_of_ne hj _⟩, rfl, ?_, ?_⟩
    · rw [goto_self]
      exact .undefined rfl hgone
    · rw [goto_self]
      exact (Nat.zero_le _).trans_lt hrank
  · rw [use_of_alive hgone]
    have hself : (((s.record (.use i)).put i (f (s.mWorkers i)).1).goto i
        (f (s.mWorkers i)).2).mWorkers i = (f (s.mWorkers i)).1 := put_self i _
    refine ⟨rfl, Or.inr rfl, fun j hj => ⟨put_of_ne hj _, goto_of_ne hj _⟩, ?_, ?_, ?_⟩
    · rw [hself]
      exact hvalue
    · rw [hself, goto_self]
      exact hround
    · rw [hself, goto_self]
      exact hrank

/-- The workers whose promise is not set yet. -/
def unstored (s : Destruction n) : List (Fin n) :=
  match s.destructor with
  | .storing worker rest => worker :: rest
  | .freeing _ rest => rest
  | .joining _ => []
  | .terminated => []

/-- The workers that are not released yet. -/
def unreleased (s : Destruction n) : List (Fin n) :=
  match s.destructor with
  | .storing worker rest => worker :: rest
  | .freeing worker rest => worker :: rest
  | .joining _ => []
  | .terminated => []

theorem left_storing {worker : Fin n} {rest : List (Fin n)}
    (hd : s.destructor = .storing worker rest) :
    s.unstored = worker :: rest ∧ s.unreleased = worker :: rest := by
  unfold unstored unreleased
  rw [hd]
  exact ⟨rfl, rfl⟩

theorem left_freeing {worker : Fin n} {rest : List (Fin n)}
    (hd : s.destructor = .freeing worker rest) :
    s.unstored = rest ∧ s.unreleased = worker :: rest := by
  unfold unstored unreleased
  rw [hd]
  exact ⟨rfl, rfl⟩

theorem left_joining {rest : List (Fin n)} (hd : s.destructor = .joining rest) :
    s.unstored = [] ∧ s.unreleased = [] := by
  unfold unstored unreleased
  rw [hd]
  exact ⟨rfl, rfl⟩

/-- What holds in every run. -/
structure Inv (s : Destruction n) : Prop where
  round : ∀ i, Round i (s.mWorkers i) (s.mThreads i) (i ∈ released s.log)
  unset : ∀ i ∈ s.unstored, (s.mWorkers i).mPromiseToWork.value = none
  set : ∀ i, i ∉ s.unstored → (s.mWorkers i).mPromiseToWork.value = some i
  released : ∀ i, i ∈ released s.log ↔ i ∉ s.unreleased
  nodup : s.unreleased.Nodup
  destructor : s.destructor ≠ .terminated

theorem Inv.not_released (h : Inv s) {worker : Fin n} (hmem : worker ∈ s.unreleased) :
    worker ∉ Release.released s.log := fun hgone => (h.released worker).mp hgone hmem

/-- Between `get_future` and the call a thread holds the future of its own worker. -/
theorem Inv.holds (h : Inv s) {i : Fin n} (hpc : s.mThreads i = .waiting ∨
    s.mThreads i = .getting ∨ ∃ worker, s.mThreads i = .calling worker) :
    (∀ worker, s.mThreads i = .calling worker → worker = i) ∧
      (s.mWorkers i).mPromiseToWork.retrieved = true ∧ (s.mWorkers i).mShutdown = false := by
  rcases h.round i with ⟨hpc', -, -⟩ | ⟨hpc', hret, hshut⟩ | ⟨hpc', -, -⟩ | ⟨hpc', -⟩
  · rcases hpc' with hpc' | hpc' <;> rw [hpc'] at hpc <;> simp at hpc
  · refine ⟨fun worker hcall => ?_, hret, hshut⟩
    rw [hcall] at hpc'
    rcases hpc' with hpc' | hpc' | hpc' <;> cases hpc'
    rfl
  · rcases hpc' with hpc' | hpc' <;> rw [hpc'] at hpc <;> simp at hpc
  · rw [hpc'] at hpc
    simp at hpc

/-- At its test a thread is fresh or has run the item. -/
theorem Inv.tests (h : Inv s) {i : Fin n} (hpc : s.mThreads i = .testing) :
    (s.mWorkers i).mPromiseToWork.retrieved = false ∧ (s.mWorkers i).mShutdown = false ∨
      (s.mWorkers i).mPromiseToWork.retrieved = true ∧ (s.mWorkers i).mShutdown = true := by
  rcases h.round i with ⟨-, hret, hshut⟩ | ⟨hpc', -, -⟩ | ⟨-, hret, hshut⟩ | ⟨hpc', -⟩
  · exact Or.inl ⟨hret, hshut⟩
  · rw [hpc] at hpc'
    rcases hpc' with hpc' | hpc' | hpc' <;> cases hpc'
  · exact Or.inr ⟨hret, hshut⟩
  · rw [hpc] at hpc'
    cases hpc'

/-- The future is taken by a fresh thread. -/
theorem Inv.takes (h : Inv s) {i : Fin n} (hpc : s.mThreads i = .taking) :
    (s.mWorkers i).mPromiseToWork.retrieved = false ∧ (s.mWorkers i).mShutdown = false := by
  rcases h.round i with ⟨-, hret, hshut⟩ | ⟨hpc', -, -⟩ | ⟨hpc', -, -⟩ | ⟨hpc', -⟩
  · exact ⟨hret, hshut⟩
  · rw [hpc] at hpc'
    rcases hpc' with hpc' | hpc' | hpc' <;> cases hpc'
  · rw [hpc] at hpc'
    rcases hpc' with hpc' | hpc' <;> cases hpc'
  · rw [hpc] at hpc'
    cases hpc'

/-- The item in a promise has captured its own worker. -/
theorem Inv.captured (h : Inv s) {i worker : Fin n}
    (hv : (s.mWorkers i).mPromiseToWork.value = some worker) : worker = i := by
  by_cases hi : i ∈ s.unstored
  · rw [h.unset i hi] at hv
    cases hv
  · rw [h.set i hi, Option.some.injEq] at hv
    exact hv.symm

theorem test_of_false {w : Members n} (h : w.mShutdown = false) : test w = (w, .taking) := by
  unfold test
  rw [h, if_neg Bool.false_ne_true]

theorem test_of_true {w : Members n} (h : w.mShutdown = true) : test w = (w, .returned) := by
  unfold test
  rw [h, if_pos rfl]

theorem take_of_fresh {w : Members n} (h : w.mPromiseToWork.retrieved = false) :
    take w = ({ w with mPromiseToWork := { w.mPromiseToWork with retrieved := true } },
      .waiting) := by
  unfold take
  rw [Promise.getFuture_of_new h]

/-- **A thread in its round advances.** -/
theorem Inv.advances (h : Inv s) {i : Fin n} (ht : s.threadEntryPoint i = some t) :
    Advances i s t := by
  rcases threadEntryPoint_cases ht with ⟨hpc, rfl⟩ | ⟨hpc, rfl⟩ |
    ⟨worker, hv, ⟨hpc, rfl⟩ | ⟨hpc, rfl⟩⟩ | ⟨worker, hpc, rfl⟩
  · rcases h.tests hpc with ⟨hret, hshut⟩ | ⟨hret, hshut⟩
    · have htest := test_of_false hshut
      refine Advances.use ?_ ?_ ?_
      · rw [htest]
      · rw [htest]
        exact .fresh (Or.inr rfl) hret hshut
      · rw [htest, hpc]
        simp [threadRank, hret]
    · have htest := test_of_true hshut
      refine Advances.use ?_ ?_ ?_
      · rw [htest]
      · rw [htest]
        exact .spent (Or.inr rfl) hret hshut
      · rw [htest, hpc]
        simp [threadRank, hret]
  · obtain ⟨hret, hshut⟩ := h.takes hpc
    have htake := take_of_fresh hret
    refine Advances.use ?_ ?_ ?_
    · rw [htake]
    · rw [htake]
      exact .holds (Or.inl rfl) rfl hshut
    · rw [htake, hpc]
      exact Nat.lt_succ_self 4
  · obtain ⟨-, hret, hshut⟩ := h.holds (Or.inl hpc)
    refine Advances.goto (.holds (Or.inr (Or.inl rfl)) hret hshut) ?_
    rw [hpc]
    exact Nat.lt_succ_self 3
  · obtain ⟨-, hret, hshut⟩ := h.holds (Or.inr (Or.inl hpc))
    obtain rfl := h.captured hv
    refine Advances.goto (.holds (Or.inr (Or.inr rfl)) hret hshut) ?_
    rw [hpc]
    exact Nat.lt_succ_self 2
  · obtain ⟨hworker, hret, -⟩ := h.holds (Or.inr (Or.inr ⟨worker, hpc⟩))
    obtain rfl := hworker worker hpc
    refine Advances.use rfl (.spent (Or.inl rfl) hret rfl) ?_
    rw [hpc]
    simp [threadRank, reqToResp, hret]

/-! ### The destructor -/

/-- The destructor has stored the item of a worker. -/
def store (s : Destruction n) (worker : Fin n) (rest : List (Fin n)) : Destruction n :=
  { (s.record (.use worker)).put worker { s.mWorkers worker with
      mPromiseToWork := { (s.mWorkers worker).mPromiseToWork with value := some worker } } with
    destructor := .freeing worker rest }

/-- The destructor has released a worker. -/
def free (s : Destruction n) (worker : Fin n) (rest : List (Fin n)) : Destruction n :=
  { s.record (.release worker) with destructor := delete rest }

/-- **A step of the destructor**: it never finds a promise that is set. -/
theorem Inv.destroy_cases (h : Inv s) (ht : s.destroy = some t) :
    (∃ worker rest, s.destructor = .storing worker rest ∧ t = s.store worker rest) ∨
    (∃ worker rest, s.destructor = .freeing worker rest ∧ t = s.free worker rest) ∨
    ∃ i rest, s.destructor = .joining (i :: rest) ∧ s.mThreads i = .returned ∧
      t = { s with destructor := .joining rest } := by
  unfold destroy at ht
  cases hd : s.destructor with
  | storing worker rest =>
    have hmem : worker ∈ s.unstored := (left_storing hd).1 ▸ List.mem_cons_self
    simp only [hd, Promise.setValue_of_none (h.unset worker hmem), Option.some.injEq] at ht
    exact Or.inl ⟨worker, rest, rfl, ht.symm⟩
  | freeing worker rest =>
    simp only [hd, Option.some.injEq] at ht
    exact Or.inr (Or.inl ⟨worker, rest, rfl, ht.symm⟩)
  | joining rest =>
    cases rest with
    | nil =>
      simp only [hd] at ht
      cases ht
    | cons i rest =>
      simp only [hd] at ht
      split_ifs at ht with hret
      cases ht
      exact Or.inr (Or.inr ⟨i, rest, rfl, hret, rfl⟩)
  | terminated => exact absurd hd h.destructor

theorem store_self (worker : Fin n) (rest : List (Fin n)) :
    (s.store worker rest).mWorkers worker = { s.mWorkers worker with
      mPromiseToWork := { (s.mWorkers worker).mPromiseToWork with value := some worker } } :=
  put_self worker _

theorem store_of_ne {worker i : Fin n} (hne : i ≠ worker) (rest : List (Fin n)) :
    (s.store worker rest).mWorkers i = s.mWorkers i := put_of_ne hne _

theorem store_log (worker : Fin n) (rest : List (Fin n)) :
    (s.store worker rest).log = s.log ++ [.use worker] := rfl

theorem free_log (worker : Fin n) (rest : List (Fin n)) :
    (s.free worker rest).log = s.log ++ [.release worker] := rfl

theorem free_unstored (worker : Fin n) (rest : List (Fin n)) :
    (s.free worker rest).unstored = rest := by
  cases rest <;> rfl

theorem free_unreleased (worker : Fin n) (rest : List (Fin n)) :
    (s.free worker rest).unreleased = rest := by
  cases rest <;> rfl

theorem free_ne_terminated (worker : Fin n) (rest : List (Fin n)) :
    (s.free worker rest).destructor ≠ .terminated := by
  cases rest <;> exact fun hd => by cases hd

/-- A round does not see what the promise holds. -/
theorem Round.of_value {i : Fin n} {w : Members n} {pc : ThreadPc n} {gone gone' : Prop}
    (h : Round i w pc gone) (hgone : gone → gone') (value : Option (Fin n)) :
    Round i { w with mPromiseToWork := { w.mPromiseToWork with value := value } } pc gone' := by
  rcases h with ⟨hpc, hret, hshut⟩ | ⟨hpc, hret, hshut⟩ | ⟨hpc, hret, hshut⟩ | ⟨hpc, h⟩
  · exact .fresh hpc hret hshut
  · exact .holds hpc hret hshut
  · exact .spent hpc hret hshut
  · exact .undefined hpc (hgone h)

theorem Round.mono {i : Fin n} {w : Members n} {pc : ThreadPc n} {gone gone' : Prop}
    (h : Round i w pc gone) (hgone : gone → gone') : Round i w pc gone' :=
  h.of_value hgone w.mPromiseToWork.value

theorem inv_enter (n : ℕ) : Inv (enter n) := by
  have hun : (enter n).unstored = List.finRange n ∧ (enter n).unreleased = List.finRange n := by
    unfold enter unstored unreleased
    cases hall : List.finRange n with
    | nil => exact ⟨rfl, rfl⟩
    | cons worker rest => exact ⟨rfl, rfl⟩
  refine ⟨fun i => .fresh (Or.inl rfl) rfl rfl, fun i _ => rfl, fun i hi => ?_, fun i => ?_, ?_, ?_⟩
  · rw [hun.1] at hi
    exact absurd (List.mem_finRange i) hi
  · rw [hun.2]
    exact iff_of_false List.not_mem_nil fun hi => hi (List.mem_finRange i)
  · rw [hun.2]
    exact List.nodup_finRange n
  · unfold enter
    cases List.finRange n <;> exact fun hd => by cases hd

theorem Inv.thread (h : Inv s) {i : Fin n} (ha : Advances i s t) : Inv t := by
  have hstored : t.unstored = s.unstored ∧ t.unreleased = s.unreleased := by
    unfold unstored unreleased
    rw [ha.destructor]
    exact ⟨rfl, rfl⟩
  have hvalue : ∀ j, (t.mWorkers j).mPromiseToWork.value =
      (s.mWorkers j).mPromiseToWork.value := by
    intro j
    rcases eq_or_ne j i with rfl | hne
    · exact ha.value
    · rw [(ha.others j hne).1]
  refine ⟨fun j => ?_, fun j hj => ?_, fun j hj => ?_, fun j => ?_, ?_, ?_⟩
  · rw [ha.released]
    rcases eq_or_ne j i with rfl | hne
    · exact ha.round
    · rw [(ha.others j hne).1, (ha.others j hne).2]
      exact h.round j
  · rw [hvalue]
    exact h.unset j (hstored.1 ▸ hj)
  · rw [hvalue]
    exact h.set j (hstored.1 ▸ hj)
  · rw [ha.released, hstored.2]
    exact h.released j
  · rw [hstored.2]
    exact h.nodup
  · rw [ha.destructor]
    exact h.destructor

theorem Inv.store (h : Inv s) {worker : Fin n} {rest : List (Fin n)}
    (hd : s.destructor = .storing worker rest) : Inv (s.store worker rest) := by
  have hun := left_storing hd
  have hnd : (worker :: rest).Nodup := hun.2 ▸ h.nodup
  have hreleased : Release.released (s.store worker rest).log = Release.released s.log := by
    rw [store_log, released_append, released_use_cons, released_nil, List.append_nil]
  refine ⟨fun i => ?_, fun i hi => ?_, fun i hi => ?_, fun i => ?_, hnd, fun hd => by cases hd⟩
  · rw [hreleased]
    rcases eq_or_ne i worker with rfl | hne
    · rw [store_self]
      exact (h.round i).of_value id (some i)
    · rw [store_of_ne hne]
      exact h.round i
  · have hne : i ≠ worker := fun he => (List.nodup_cons.mp hnd).1 (he ▸ hi)
    rw [store_of_ne hne]
    exact h.unset i (hun.1 ▸ List.mem_cons_of_mem worker hi)
  · rcases eq_or_ne i worker with rfl | hne
    · rw [store_self]
    · rw [store_of_ne hne]
      refine h.set i fun hmem => ?_
      rw [hun.1] at hmem
      exact hi ((List.mem_cons.mp hmem).resolve_left hne)
  · rw [hreleased, h.released i, hun.2]
    rfl

theorem Inv.free (h : Inv s) {worker : Fin n} {rest : List (Fin n)}
    (hd : s.destructor = .freeing worker rest) : Inv (s.free worker rest) := by
  have hun := left_freeing hd
  have hnd : (worker :: rest).Nodup := hun.2 ▸ h.nodup
  have hreleased : Release.released (s.free worker rest).log =
      Release.released s.log ++ [worker] := by
    rw [free_log, released_append, released_release_cons, released_nil]
  refine ⟨fun i => ?_, fun i hi => ?_, fun i hi => ?_, fun i => ?_, ?_, free_ne_terminated _ _⟩
  · rw [hreleased]
    exact (h.round i).mono (List.mem_append_left _)
  · rw [free_unstored] at hi
    exact h.unset i (hun.1.symm ▸ hi)
  · rw [free_unstored] at hi
    exact h.set i (hun.1.symm ▸ hi)
  · rw [hreleased, free_unreleased, List.mem_append, h.released i, hun.2, List.mem_singleton,
      List.mem_cons]
    constructor
    · rintro (hno | rfl)
      · exact fun hmem => hno (Or.inr hmem)
      · exact (List.nodup_cons.mp hnd).1
    · intro hno
      by_cases he : i = worker
      · exact Or.inr he
      · exact Or.inl fun hmem => hmem.elim he hno
  · rw [free_unreleased]
    exact (List.nodup_cons.mp hnd).2

theorem inv_step {a : Action n} (h : Inv s) (ht : s.step a = some t) : Inv t := by
  cases a with
  | thread i => exact h.thread (h.advances ht)
  | destructor =>
    rcases h.destroy_cases ht with ⟨worker, rest, hd, rfl⟩ | ⟨worker, rest, hd, rfl⟩ |
      ⟨i, rest, hd, -, rfl⟩
    · exact h.store hd
    · exact h.free hd
    · have hun := left_joining hd
      refine ⟨h.round, fun j hj => (by cases hj), fun j _ => ?_, fun j => ?_, List.nodup_nil,
        fun hd => by cases hd⟩
      · exact h.set j (by rw [hun.1]; exact List.not_mem_nil)
      · rw [h.released j, hun.2]
        rfl

/-! ### Every run ends -/

def destructorRank : DestructorPc n → ℕ
  | .storing _ rest => n + 2 * (rest.length + 1)
  | .freeing _ rest => n + 2 * rest.length + 1
  | .joining rest => rest.length
  | .terminated => 0

/-- The steps still to do. -/
def rank (s : Destruction n) : ℕ :=
  ∑ i, threadRank (s.mWorkers i) (s.mThreads i) + destructorRank s.destructor

theorem threadRank_value (w : Members n) (value : Option (Fin n)) (pc : ThreadPc n) :
    threadRank { w with mPromiseToWork := { w.mPromiseToWork with value := value } } pc =
      threadRank w pc := by
  cases pc <;> rfl

theorem destructorRank_delete (rest : List (Fin n)) :
    destructorRank (delete rest) = n + 2 * rest.length := by
  cases rest with
  | nil =>
    show (List.finRange n).length = n + 2 * 0
    rw [List.length_finRange]
    rfl
  | cons worker rest => rfl

theorem rank_enter (n : ℕ) : rank (enter n) = 9 * n := by
  have hthreads : ∑ i, threadRank ((enter n).mWorkers i) ((enter n).mThreads i) = 6 * n := by
    show ∑ _i : Fin n, 6 = 6 * n
    rw [Fin.sum_const, smul_eq_mul, Nat.mul_comm]
  have hdestructor : destructorRank (enter n).destructor = n + 2 * n := by
    show destructorRank (delete (List.finRange n)) = n + 2 * n
    rw [destructorRank_delete, List.length_finRange]
  unfold rank
  omega

/-- **Every step comes closer to the end.** -/
theorem rank_step {a : Action n} (h : Inv s) (ht : s.step a = some t) : rank t < rank s := by
  cases a with
  | thread i =>
    have ha := h.advances ht
    have hsum : ∑ j, threadRank (t.mWorkers j) (t.mThreads j) <
        ∑ j, threadRank (s.mWorkers j) (s.mThreads j) := by
      refine Finset.sum_lt_sum (fun j _ => ?_) ⟨i, Finset.mem_univ i, ha.rank⟩
      rcases eq_or_ne j i with rfl | hne
      · exact ha.rank.le
      · rw [(ha.others j hne).1, (ha.others j hne).2]
    unfold rank
    rw [ha.destructor]
    omega
  | destructor =>
    rcases h.destroy_cases ht with ⟨worker, rest, hd, rfl⟩ | ⟨worker, rest, hd, rfl⟩ |
      ⟨i, rest, hd, -, rfl⟩
    · have hsum : ∀ j, threadRank ((s.store worker rest).mWorkers j)
          ((s.store worker rest).mThreads j) = threadRank (s.mWorkers j) (s.mThreads j) := by
        intro j
        rcases eq_or_ne j worker with rfl | hne
        · rw [store_self]
          exact threadRank_value _ _ _
        · rw [store_of_ne hne]
          rfl
      have hlt : destructorRank (s.store worker rest).destructor < destructorRank s.destructor := by
        rw [hd]
        show n + 2 * rest.length + 1 < n + 2 * (rest.length + 1)
        omega
      unfold rank
      rw [Finset.sum_congr rfl fun j _ => hsum j]
      omega
    · have hlt : destructorRank (s.free worker rest).destructor < destructorRank s.destructor := by
        rw [hd]
        show destructorRank (delete rest) < n + 2 * rest.length + 1
        rw [destructorRank_delete]
        omega
      exact Nat.add_lt_add_left hlt _
    · have hlt : destructorRank (.joining rest : DestructorPc n) < destructorRank s.destructor := by
        rw [hd]
        exact Nat.lt_succ_self _
      exact Nat.add_lt_add_left hlt _

/-- **Where no step is possible**, every thread has returned, or has used a worker that is gone. -/
theorem Inv.ended (h : Inv s) (hend : ∀ a, step s a = none) (i : Fin n) :
    s.mThreads i = .returned ∨ s.mThreads i = .undefined ∧ i ∈ Release.released s.log := by
  have hthread : s.threadEntryPoint i = none := hend (.thread i)
  have hdestroy : s.destroy = none := hend .destructor
  unfold threadEntryPoint at hthread
  rcases h.round i with ⟨hpc | hpc, -, -⟩ | ⟨hpc, -, -⟩ | ⟨hpc | hpc, -, -⟩ | ⟨hpc, hgone⟩
  · simp only [hpc] at hthread
    cases hthread
  · simp only [hpc] at hthread
    cases hthread
  · -- the destructor has stored every item, so that a thread does not wait
    have hstored : i ∉ s.unstored := by
      unfold unstored
      unfold destroy at hdestroy
      cases hd : s.destructor with
      | storing worker rest =>
        simp only [hd] at hdestroy
        split at hdestroy <;> cases hdestroy
      | freeing worker rest =>
        simp only [hd] at hdestroy
        cases hdestroy
      | joining rest => exact List.not_mem_nil
      | terminated => exact absurd hd h.destructor
    have hv := h.set i hstored
    rcases hpc with hpc | hpc | hpc
    · simp only [hpc, hv] at hthread
      cases hthread
    · simp only [hpc, hv] at hthread
      cases hthread
    · simp only [hpc] at hthread
      cases hthread
  · simp only [hpc] at hthread
    cases hthread
  · exact Or.inl hpc
  · exact Or.inr ⟨hpc, hgone⟩

/-! ### Releases behind the threads -/

/-- Nothing of a released worker was used, and its thread has returned. -/
structure Safe (s : Destruction n) : Prop where
  proper : Proper s.log
  returned : ∀ i ∈ released s.log, s.mThreads i = .returned

theorem safe_step {a : Action n} (h : Inv s) (hs : Safe s) (ha : FreesReturned s a)
    (ht : s.step a = some t) : Safe t := by
  cases a with
  | thread i =>
    have hadv := h.advances ht
    have hgone : i ∉ released s.log := by
      intro hmem
      have hnone : s.threadEntryPoint i = none := by
        unfold threadEntryPoint
        rw [hs.returned i hmem]
      rw [step, hnone] at ht
      cases ht
    constructor
    · rcases hadv.log with hlog | hlog
      · rw [hlog]
        exact hs.proper
      · rw [hlog]
        exact hs.proper.use hgone
    · intro j hj
      rw [hadv.released] at hj
      have hne : j ≠ i := fun he => hgone (he ▸ hj)
      rw [(hadv.others j hne).2]
      exact hs.returned j hj
  | destructor =>
    rcases h.destroy_cases ht with ⟨worker, rest, hd, rfl⟩ | ⟨worker, rest, hd, rfl⟩ |
      ⟨i, rest, hd, -, rfl⟩
    · have hgone := h.not_released ((left_storing hd).2 ▸ List.mem_cons_self)
      constructor
      · rw [store_log]
        exact hs.proper.use hgone
      · intro j hj
        rw [store_log, released_append, released_use_cons, released_nil, List.append_nil] at hj
        exact hs.returned j hj
    · have hgone := h.not_released ((left_freeing hd).2 ▸ List.mem_cons_self)
      constructor
      · rw [free_log]
        exact hs.proper.release hgone
      · intro j hj
        rw [free_log, released_append, released_release_cons, released_nil] at hj
        rcases List.mem_append.mp hj with hj | hj
        · exact hs.returned j hj
        · rw [List.mem_singleton.mp hj]
          exact ha worker rest hd
    · exact ⟨hs.proper, hs.returned⟩

/-- A worker has been released before its thread returned: something of it will be used, or has
been. -/
def Doomed (s : Destruction n) : Prop :=
  Proper s.log → ∃ i ∈ released s.log, s.mThreads i ≠ .returned

/-- **A worker released too early** stays so until it is used. -/
theorem doomed_thread (hs : Doomed s) {i : Fin n} (ht : s.threadEntryPoint i = some t) :
    Doomed t := by
  have hother : ∀ log, t.log = s.log ++ log →
      (∀ j, j ≠ i → t.mThreads j = s.mThreads j) →
      (i ∈ released s.log → Proper t.log → t.mThreads i ≠ .returned) → Doomed t := by
    intro log hlog hothers hself hproper
    obtain ⟨j, hj, hne⟩ := hs (proper_append.mp (hlog ▸ hproper)).1
    refine ⟨j, ?_, ?_⟩
    · rw [hlog, released_append]
      exact List.mem_append_left _ hj
    · rcases eq_or_ne j i with rfl | hji
      · exact hself hj hproper
      · rw [hothers j hji]
        exact hne
  have hused : ∀ f, i ∈ released s.log → ¬ Proper (s.use i i f).log := by
    intro f hgone hproper
    rw [use_log] at hproper
    exact (proper_append.mp hproper).2.2 _ (List.mem_singleton_self _) hgone
  rcases threadEntryPoint_cases ht with ⟨-, rfl⟩ | ⟨-, rfl⟩ | ⟨worker, -, ⟨-, rfl⟩ | ⟨-, rfl⟩⟩ |
    ⟨worker, -, rfl⟩
  · exact hother _ (use_log _ _ _) (fun j hj => use_mThreads_of_ne hj _ _)
      fun hgone hproper => absurd hproper (hused test hgone)
  · exact hother _ (use_log _ _ _) (fun j hj => use_mThreads_of_ne hj _ _)
      fun hgone hproper => absurd hproper (hused take hgone)
  · refine hother [] (List.append_nil _).symm (fun j hj => goto_of_ne hj _) fun _ _ => ?_
    rw [goto_self]
    exact fun he => by cases he
  · refine hother [] (List.append_nil _).symm (fun j hj => goto_of_ne hj _) fun _ _ => ?_
    rw [goto_self]
    exact fun he => by cases he
  · refine hother _ (use_log _ _ _) (fun j hj => use_mThreads_of_ne hj _ _) fun _ _ => ?_
    by_cases hgone : worker ∈ released s.log
    · rw [use_of_released hgone, goto_self]
      exact fun he => by cases he
    · rw [use_of_alive hgone, goto_self]
      exact fun he => by cases he

/-- The destructor changes no thread. -/
theorem destroy_frame (ht : s.destroy = some t) :
    t.mThreads = s.mThreads ∧ ∃ log, t.log = s.log ++ log := by
  unfold destroy at ht
  cases hd : s.destructor with
  | storing worker rest =>
    simp only [hd] at ht
    split at ht
    · cases ht
      exact ⟨rfl, _, rfl⟩
    · cases ht
      exact ⟨rfl, _, rfl⟩
  | freeing worker rest =>
    simp only [hd] at ht
    cases ht
    exact ⟨rfl, _, rfl⟩
  | joining rest =>
    cases rest with
    | nil =>
      simp only [hd] at ht
      cases ht
    | cons i rest =>
      simp only [hd] at ht
      split_ifs at ht
      cases ht
      exact ⟨rfl, [], (List.append_nil _).symm⟩
  | terminated =>
    simp only [hd] at ht
    cases ht

theorem doomed_step {a : Action n} (hs : Doomed s) (ht : s.step a = some t) : Doomed t := by
  cases a with
  | thread i => exact doomed_thread hs ht
  | destructor =>
    obtain ⟨hthreads, log, hlog⟩ := destroy_frame ht
    intro hproper
    obtain ⟨i, hi, hne⟩ := hs (proper_append.mp (hlog ▸ hproper)).1
    refine ⟨i, ?_, hthreads ▸ hne⟩
    rw [hlog, released_append]
    exact List.mem_append_left _ hi

theorem doomed_of_early {a : Action n} (ht : s.step a = some t) (ha : ¬ FreesReturned s a) :
    Doomed t := by
  cases a with
  | thread i => exact absurd trivial ha
  | destructor =>
    unfold FreesReturned at ha
    push Not at ha
    obtain ⟨worker, rest, hd, hne⟩ := ha
    have hfree : s.destroy = some (s.free worker rest) := by
      unfold destroy
      rw [hd]
      rfl
    obtain rfl := Option.some.inj (ht.symm.trans hfree)
    refine fun _ => ⟨worker, ?_, hne⟩
    rw [free_log, released_append]
    exact List.mem_append_right _ (List.mem_singleton_self _)

/-- **A pool is destroyed as it should be exactly if every worker is released behind the return of
its thread**; every run ends, and while the destructor keeps to it nothing of a released worker is
used. -/
theorem destroyed_iff (n : ℕ) (as : List (Action n)) :
    (Along step FreesReturned (enter n) as → Always step (fun s => Proper s.log) (enter n) as) ∧
    ∀ s, run step (enter n) as = some s → as.length ≤ 9 * n ∧
      ((∀ a, step s a = none) → (s.Destroyed ↔ Along step FreesReturned (enter n) as)) := by
  have hinv : ∀ {s}, run step (enter n) as = some s → Inv s := fun hrun =>
    (always_of_inv (fun _ _ _ h ht => inv_step h ht) as (inv_enter n)).last hrun
  have hsafe : Along step FreesReturned (enter n) as →
      Always step (fun s => Inv s ∧ Safe s) (enter n) as :=
    always_of_along (fun _ _ _ h ha ht => ⟨inv_step h.1 ht, safe_step h.1 h.2 ha ht⟩)
      ⟨inv_enter n, proper_nil, fun i hi => by cases hi⟩
  refine ⟨fun halong => (hsafe halong).imp fun _ h => h.2.proper,
    fun s hrun => ⟨?_, fun hend => ?_⟩⟩
  · have hrank := length_add_le_of_rank (fun _ _ _ h ht => ⟨inv_step h ht, rank_step h ht⟩)
      (inv_enter n) hrun
    rw [rank_enter] at hrank
    omega
  · constructor
    · intro hdestroyed
      refine along_of_last (fun _ _ _ ht ha => doomed_of_early ht ha)
        (fun _ _ _ h ht => doomed_step h ht) hrun fun hdoomed => ?_
      obtain ⟨i, -, hne⟩ := hdoomed hdestroyed.proper
      exact hne (hdestroyed.returned i)
    · intro halong
      have hs := ((hsafe halong).last hrun).2
      refine ⟨hs.proper, fun i => ?_⟩
      rcases (hinv hrun).ended hend i with hret | ⟨-, hgone⟩
      · exact hret
      · exact hs.returned i hgone

/-- The thread of a pool of one runs the item before the worker is released. -/
def inTime : List (Action 1) :=
  [.thread 0, .thread 0, .destructor, .thread 0, .thread 0, .thread 0, .thread 0, .destructor,
    .destructor]

instance (s : Destruction n) (a : Action n) : Decidable (s.FreesReturned a) :=
  match a with
  | .thread _ => .isTrue trivial
  | .destructor =>
    match h : s.destructor with
    | .freeing worker rest =>
      decidable_of_iff (s.mThreads worker = .returned)
        ⟨fun hret worker' rest' hd => by
          rw [h] at hd
          cases hd
          exact hret, fun hfrees => hfrees worker rest h⟩
    | .storing _ _ => .isTrue fun _ _ hd => by rw [h] at hd; cases hd
    | .joining _ => .isTrue fun _ _ hd => by rw [h] at hd; cases hd
    | .terminated => .isTrue fun _ _ hd => by rw [h] at hd; cases hd

theorem destroyed_in_time : ∃ s, run step (enter 1) inTime = some s ∧ s.Destroyed := by
  obtain ⟨s, hrun, hthread, hdestroy⟩ := exists_run step (enter 1) inTime
    (fun s => (s.threadEntryPoint 0).isNone = true ∧ s.destroy.isNone = true) (by decide)
  have hend : ∀ a, step s a = none := by
    intro a
    cases a with
    | thread i =>
      rw [Subsingleton.elim i 0]
      exact Option.isNone_iff_eq_none.mp hthread
    | destructor => exact Option.isNone_iff_eq_none.mp hdestroy
  exact ⟨s, hrun, (((destroyed_iff 1 inTime).2 s hrun).2 hend).mpr (by decide)⟩

/-- **A worker released under its thread**: the item sets `mShutdown` of a worker that is gone, or
the thread tests it for the first time when it is gone. -/
theorem released_under_thread :
    (∃ s, run step (enter 1) [.thread 0, .thread 0, .destructor, .thread 0, .thread 0, .destructor,
        .thread 0] = some s ∧
      s.log = [.use 0, .use 0, .use 0, .release 0, .use 0] ∧ s.mThreads 0 = .undefined ∧
        ¬ Proper s.log ∧ ¬ s.Destroyed) ∧
    ∃ s, run step (enter 1) [.destructor, .destructor, .thread 0] = some s ∧
      s.log = [.use 0, .release 0, .use 0] ∧ s.mThreads 0 = .undefined ∧
        ¬ Proper s.log ∧ ¬ s.Destroyed := by
  have hnot : ∀ s : Destruction 1, ¬ Proper s.log → ¬ s.Destroyed := fun s hno h => hno h.proper
  constructor
  · obtain ⟨s, hrun, hlog, hpc, hproper⟩ := exists_run step (enter 1) [.thread 0, .thread 0,
      .destructor, .thread 0, .thread 0, .destructor, .thread 0]
      (fun s => s.log = [.use 0, .use 0, .use 0, .release 0, .use 0] ∧ s.mThreads 0 = .undefined ∧
        ¬ Proper s.log) (by decide)
    exact ⟨s, hrun, hlog, hpc, hproper, hnot s hproper⟩
  · obtain ⟨s, hrun, hlog, hpc, hproper⟩ := exists_run step (enter 1)
      [.destructor, .destructor, .thread 0]
      (fun s => s.log = [.use 0, .release 0, .use 0] ∧ s.mThreads 0 = .undefined ∧
        ¬ Proper s.log) (by decide)
    exact ⟨s, hrun, hlog, hpc, hproper, hnot s hproper⟩

end Destruction

end C11Http.Workers
