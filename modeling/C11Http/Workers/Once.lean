import Mathlib.Data.List.Infix
import C11Http.Workers.Pool

/-! # How often the worker pool runs its work

The promise of a worker is never replaced, so it can carry one piece of work from `addWork` to the
thread, and the thread can take its future once. `ExactlyOnce` is what a pool promises: nothing
throws, every worker runs what it is provided with, in order and once, and nothing is left when all
threads wait. A run keeps it exactly if no worker is provided with work a second time, no thread
comes back to the top of its loop after it has run work, and no work throws (`exactlyOnce_iff`). -/

namespace C11Http.Workers

open C11Http.Lib C11Http.Lib.Run

variable {Work : Type} {n : ℕ}

namespace Worker

/-- The only round of a thread: it has not taken the future yet, waits, runs the value, or has run
it. -/
inductive Round (w : Worker Work) : Prop
  | fresh (pc : w.pc = .top) (executed : w.executed = [])
      (retrieved : w.mPromiseToWork.retrieved = false)
  | waits (pc : w.pc = .waiting) (executed : w.executed = [])
      (retrieved : w.mPromiseToWork.retrieved = true)
  | runs (work : Work) (pc : w.pc = .running work) (executed : w.executed = [])
      (retrieved : w.mPromiseToWork.retrieved = true)
      (value : w.mPromiseToWork.value = some work)
  | spent (work : Work) (pc : w.pc = .top) (executed : w.executed = [work])
      (retrieved : w.mPromiseToWork.retrieved = true)
      (value : w.mPromiseToWork.value = some work)

/-- A worker in its only round, provided with the value of its promise and nothing else. -/
structure Once (w : Worker Work) : Prop where
  mShutdown : w.mShutdown = false
  provided : w.provided = w.mPromiseToWork.value.toList
  round : w.Round

theorem once_new : (new : Worker Work).Once := ⟨rfl, rfl, .fresh rfl rfl rfl⟩

variable {w v : Worker Work}

theorem Once.not_terminated (h : w.Once) : w.pc ≠ .terminated := by
  intro ht
  rcases h.round with ⟨hpc, -, -⟩ | ⟨hpc, -, -⟩ | ⟨work, hpc, -, -, -⟩ | ⟨work, hpc, -, -, -⟩ <;>
    · rw [hpc] at ht
      cases ht

theorem Once.inOrder (h : w.Once) : w.executed <+: w.provided := by
  rcases h.round with ⟨-, he, -⟩ | ⟨-, he, -⟩ | ⟨work, -, he, -, -⟩ | ⟨work, -, he, -, hv⟩
  · rw [he]; exact List.nil_prefix
  · rw [he]; exact List.nil_prefix
  · rw [he]; exact List.nil_prefix
  · rw [he, h.provided, hv]; exact List.prefix_rfl

/-- A thread that waits for a value that is not there has nothing left to do. -/
theorem Once.blocked (h : w.Once) (hb : w.Blocked) : w.executed = w.provided := by
  obtain ⟨hpc, hv⟩ := hb
  have hpro : w.provided = [] := by rw [h.provided, hv]; rfl
  rw [hpro]
  exact List.prefix_nil.mp (hpro ▸ h.inOrder)

/-! ### Providing work -/

theorem provideWork_of_none (hv : w.mPromiseToWork.value = none) (work : Work) :
    w.provideWork work = ({ w with
      provided := w.provided ++ [work]
      mPromiseToWork := { w.mPromiseToWork with value := some work } }, .ok ()) := by
  have hset := Promise.setValue_of_none hv work
  unfold provideWork
  simp only [hset]

theorem provideWork_of_some {first : Work} (hv : w.mPromiseToWork.value = some first)
    (work : Work) : (w.provideWork work).2 = .error .promiseAlreadySatisfied := by
  have hset := Promise.setValue_of_some hv work
  unfold provideWork
  simp only [hset]

theorem Once.value_none_iff (h : w.Once) : w.mPromiseToWork.value = none ↔ w.provided = [] := by
  rw [h.provided, Option.toList_eq_nil_iff]

/-- **Work is provided once.** -/
theorem Once.provideWork_ok_iff (h : w.Once) (work : Work) :
    (w.provideWork work).2 = .ok () ↔ w.provided = [] := by
  rw [← h.value_none_iff]
  cases hv : w.mPromiseToWork.value with
  | none =>
    rw [provideWork_of_none hv]
    exact iff_of_true rfl rfl
  | some first =>
    rw [provideWork_of_some hv]
    exact iff_of_false (fun h => by cases h) (fun h => by cases h)

theorem Once.provideWork (h : w.Once) (work : Work) (hpro : w.provided = []) :
    (w.provideWork work).1.Once := by
  have hv := h.value_none_iff.mpr hpro
  rw [provideWork_of_none hv, hpro]
  refine ⟨h.mShutdown, rfl, ?_⟩
  rcases h.round with ⟨hpc, he, hr⟩ | ⟨hpc, he, hr⟩ | ⟨_, -, -, -, hv'⟩ | ⟨_, -, -, -, hv'⟩
  · exact .fresh hpc he hr
  · exact .waits hpc he hr
  · rw [hv] at hv'
    cases hv'
  · rw [hv] at hv'
    cases hv'

/-! ### The thread -/

/-- The thread has run nothing when it takes the future, and what it runs does not throw. -/
def FirstRound (w : Worker Work) (throws : Bool) : Prop :=
  match w.pc with
  | .top => w.executed = []
  | .running _ => throws = false
  | _ => True

instance [DecidableEq Work] (w : Worker Work) (throws : Bool) :
    Decidable (w.FirstRound throws) := by
  unfold FirstRound
  split <;> infer_instance

theorem Once.thread (h : w.Once) {throws : Bool} (hfirst : w.FirstRound throws)
    (hstep : w.threadEntryPoint throws = some v) : v.Once := by
  unfold threadEntryPoint at hstep
  unfold FirstRound at hfirst
  rcases h.round with ⟨hpc, he, hr⟩ | ⟨hpc, he, hr⟩ | ⟨work, hpc, he, hr, hv⟩ |
    ⟨work, hpc, he, -, -⟩
  · simp only [hpc, h.mShutdown, Promise.getFuture_of_new hr] at hstep
    cases hstep
    exact ⟨rfl, h.provided, .waits rfl he rfl⟩
  · simp only [hpc] at hstep
    obtain ⟨work, hv, rfl⟩ := Option.map_eq_some_iff.mp hstep
    exact ⟨h.mShutdown, h.provided, .runs work rfl he hr hv⟩
  · simp only [hpc] at hfirst
    simp only [hpc, hfirst, he] at hstep
    cases hstep
    exact ⟨h.mShutdown, h.provided, .spent work rfl rfl hr hv⟩
  · -- the thread has run its work and is at the top of the loop
    simp only [hpc, he] at hfirst
    cases hfirst

/-- **A second round throws**: the future has been taken. -/
theorem Once.firstRound (h : w.Once) {throws : Bool} (hstep : w.threadEntryPoint throws = some v)
    (hv : v.pc ≠ .terminated) : w.FirstRound throws := by
  unfold threadEntryPoint at hstep
  unfold FirstRound
  rcases h.round with ⟨hpc, he, hr⟩ | ⟨hpc, he, hr⟩ | ⟨work, hpc, he, hr, hval⟩ |
    ⟨work, hpc, he, hr, hval⟩
  · simp only [hpc]
    exact he
  · simp only [hpc]
  · simp only [hpc] at hstep ⊢
    cases hstep
    cases throws with
    | false => rfl
    | true => exact absurd rfl hv
  · simp only [hpc, h.mShutdown, Promise.getFuture_of_retrieved hr] at hstep
    cases hstep
    exact absurd rfl hv

end Worker

namespace WorkerPool

/-- **Every piece of work is run exactly once.** -/
structure ExactlyOnce (s : WorkerPool Work n) : Prop where
  threw : s.threw = false
  terminated : ∀ i, (s.mWorkers i).pc ≠ .terminated
  inOrder : ∀ i, (s.mWorkers i).executed <+: (s.mWorkers i).provided
  done : (∀ i, (s.mWorkers i).Blocked) → ∀ i, (s.mWorkers i).executed = (s.mWorkers i).provided

/-- The step provides no worker with work a second time, lets no thread start a second round, and no
work throws. -/
def OnceEach (s : WorkerPool Work n) : Action Work n → Prop
  | .addWork _ => True
  | .provideWork call => ∀ c ∈ s.calls[call]?, (s.mWorkers c.1).provided = []
  | .thread worker throws => (s.mWorkers worker).FirstRound throws

/-- Every worker is in its only round. -/
def Once (s : WorkerPool Work n) : Prop := ∀ i, (s.mWorkers i).Once

theorem Once.exactlyOnce {s : WorkerPool Work n} (h : s.Once) (hs : s.threw = false) :
    s.ExactlyOnce where
  threw := hs
  terminated i := (h i).not_terminated
  inOrder i := (h i).inOrder
  done hb i := (h i).blocked (hb i)

/-- Only one worker is changed. -/
theorem Once.update {s t : WorkerPool Work n} (h : s.Once) {worker : Fin n} {w : Worker Work}
    (ht : t.mWorkers = Function.update s.mWorkers worker w) (hw : w.Once) : t.Once := by
  intro i
  rw [ht]
  rcases eq_or_ne i worker with rfl | hne
  · rwa [Function.update_self]
  · rw [Function.update_of_ne hne]
    exact h i

variable {s t : WorkerPool Work n}

theorem once_step (h : s.Once) (hs : s.threw = false) {a : Action Work n} (ha : s.OnceEach a)
    (ht : s.step a = some t) : t.Once ∧ t.threw = false := by
  cases a with
  | addWork work =>
    cases ht
    exact ⟨h, hs⟩
  | provideWork call =>
    obtain ⟨⟨worker, work⟩, hc, rfl⟩ := Option.map_eq_some_iff.mp ht
    have hpro := ha (worker, work) hc
    have hok := ((h worker).provideWork_ok_iff work).mpr hpro
    refine ⟨h.update rfl ((h worker).provideWork work hpro), ?_⟩
    unfold provideWork
    simp only [hok, hs]
  | thread worker throws =>
    obtain ⟨w, hw, rfl⟩ := Option.map_eq_some_iff.mp ht
    exact ⟨h.update rfl ((h worker).thread ha hw), hs⟩

theorem onceEach_of_exactlyOnce (h : s.Once) {a : Action Work n} (ht : s.step a = some t)
    (hexact : t.ExactlyOnce) : s.OnceEach a := by
  cases a with
  | addWork work => trivial
  | provideWork call =>
    obtain ⟨⟨worker, work⟩, hc, rfl⟩ := Option.map_eq_some_iff.mp ht
    intro c hc'
    obtain rfl := Option.some.inj (hc.symm.trans hc')
    refine ((h worker).provideWork_ok_iff work).mp ?_
    have hthrew := hexact.threw
    unfold provideWork at hthrew
    cases hr : ((s.mWorkers worker).provideWork work).2 with
    | ok u => rfl
    | error what =>
      simp only [hr] at hthrew
      cases hthrew
  | thread worker throws =>
    obtain ⟨w, hw, rfl⟩ := Option.map_eq_some_iff.mp ht
    refine (h worker).firstRound hw ?_
    have hterm := hexact.terminated worker
    simpa only [Function.update_self] using hterm

/-- **A pool runs its work exactly once in exactly the runs in which every worker has one round.**
-/
theorem exactlyOnce_iff {nbWorkers : ℤ} (h : 1 ≤ nbWorkers) :
    ∃ pool : WorkerPool Work nbWorkers.toNat, new nbWorkers = .ok pool ∧
      ∀ as, Always step ExactlyOnce pool as ↔ Along step OnceEach pool as := by
  have hnot : ¬ nbWorkers ≤ 0 := by omega
  refine ⟨_, dif_neg hnot, fun as => ?_⟩
  have honce : ∀ s t : WorkerPool Work nbWorkers.toNat, ∀ a, s.Once → s.ExactlyOnce →
      s.step a = some t → t.ExactlyOnce → t.Once := fun s t a hs hP ht hQ =>
    (once_step hs hP.threw (onceEach_of_exactlyOnce hs ht hQ) ht).1
  refine always_iff_along (I := Once) (fun s a t => honce s t a) (fun s a t hs hP ht => ?_) as
    (fun _ => Worker.once_new) ?_
  · refine ⟨onceEach_of_exactlyOnce hs ht, fun ha => ?_⟩
    obtain ⟨hI, hthrew⟩ := once_step hs hP.threw ha ht
    exact hI.exactlyOnce hthrew
  · exact Once.exactlyOnce (fun _ => Worker.once_new) rfl

/-- The only worker of a pool of one. -/
def sole : Fin (1 : ℤ).toNat := ⟨0, by decide⟩

instance [DecidableEq Work] (s : WorkerPool Work n) (a : Action Work n) :
    Decidable (s.OnceEach a) := by
  cases a <;> unfold OnceEach <;> infer_instance

theorem exactlyOnce_iff_sole : 1 ≤ (1 : ℤ) ∧ ∃ pool : WorkerPool ℕ (1 : ℤ).toNat,
    new 1 = .ok pool ∧ Always step ExactlyOnce pool [.addWork 7, .provideWork 0,
      .thread sole false, .thread sole false, .thread sole false] := by
  have hiff : ∃ pool : WorkerPool ℕ (1 : ℤ).toNat, new 1 = .ok pool ∧
      ∀ as, Always step ExactlyOnce pool as ↔ Along step OnceEach pool as :=
    exactlyOnce_iff (by decide)
  obtain ⟨pool, hnew, hiff⟩ := hiff
  refine ⟨by decide, pool, hnew, (hiff _).mpr ?_⟩
  cases hnew
  decide

/-- A pool of one worker, behind the constructor. -/
def poolOfOne : WorkerPool ℕ (1 : ℤ).toNat :=
  { mWorkers := fun _ => .new, mCurrentWorker := sole, calls := [], threw := false }

/-- **A pool of one** does not come back from its first work, and does not take a second one before
it has come back. -/
theorem sole_worker_throws : new 1 = .ok poolOfOne ∧
    (∃ t, run step poolOfOne [.addWork 7, .provideWork 0, .thread sole false, .thread sole false,
      .thread sole false, .thread sole false] = some t ∧
        (t.mWorkers sole).pc = .terminated ∧ ¬ t.ExactlyOnce) ∧
    ∃ t, run step poolOfOne [.addWork 7, .addWork 8, .provideWork 0, .provideWork 0] = some t ∧
      t.threw = true ∧ ¬ t.ExactlyOnce := by
  refine ⟨rfl, ?_, ?_⟩
  · obtain ⟨t, hrun, hpc⟩ := exists_run step poolOfOne [.addWork 7, .provideWork 0,
      .thread sole false, .thread sole false, .thread sole false, .thread sole false]
      (fun t => (t.mWorkers sole).pc = .terminated) (by decide)
    exact ⟨t, hrun, hpc, fun h => h.terminated sole hpc⟩
  · obtain ⟨t, hrun, hthrew⟩ := exists_run step poolOfOne [.addWork 7, .addWork 8, .provideWork 0,
      .provideWork 0] (fun t => t.threw = true) (by decide)
    exact ⟨t, hrun, hthrew, fun h => Bool.false_ne_true (h.threw.symm.trans hthrew)⟩

end WorkerPool

end C11Http.Workers
