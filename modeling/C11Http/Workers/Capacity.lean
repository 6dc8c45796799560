import Mathlib.Algebra.Order.BigOperators.Group.List
import C11Http.Workers.Once
import C11Http.Workers.Refinement

/-! # How much work a pool can do

A worker has one promise, and its thread takes the future of it once. So of all that is dealt to a
worker its thread can run the first piece only, and behind it `get_future` throws in the thread,
which is `std::terminate`. `Fed` says where a worker can be in any run, whatever it has been
provided with; `rank` bounds the steps its thread has left.

`capacity`: in every run of any number of callers and of the threads, a pool of `n` workers runs at
most one piece of work for each worker, the first one dealt to it, its threads make at most `4 * n`
steps, and a thread that has been dealt something is not blocked before it is terminated. -/

namespace C11Http.Workers

open C11Http.Lib C11Http.Lib.Run

variable {Work : Type}

namespace Worker

/-- The promise has the first piece of work the worker was provided with, and the thread is in its
only round, or has been terminated behind it. -/
structure Fed (w : Worker Work) : Prop where
  mShutdown : w.mShutdown = false
  value : w.mPromiseToWork.value = w.provided.head?
  round : w.Round ∨ ∃ work, w.pc = .terminated ∧ w.executed = [work] ∧
    w.mPromiseToWork.value = some work

variable {w v : Worker Work}

theorem fed_new : (new : Worker Work).Fed := ⟨rfl, rfl, Or.inl once_new.round⟩

/-- Only the first piece of work goes into the promise. -/
theorem Fed.provideWork (h : w.Fed) (work : Work) : (w.provideWork work).1.Fed := by
  cases hv : w.mPromiseToWork.value with
  | none =>
    have hpro : w.provided = [] := List.head?_eq_none_iff.mp (h.value ▸ hv)
    rw [provideWork_of_none hv]
    refine ⟨h.mShutdown, by rw [hpro]; rfl, Or.inl ?_⟩
    rcases h.round with (⟨hpc, he, hr⟩ | ⟨hpc, he, hr⟩ | ⟨_, -, -, -, hval⟩ | ⟨_, -, -, -, hval⟩) |
      ⟨_, -, -, hval⟩
    · exact .fresh hpc he hr
    · exact .waits hpc he hr
    all_goals
      rw [hv] at hval
      cases hval
  | some first =>
    have hset := Promise.setValue_of_some hv work
    have hw : (w.provideWork work).1 = { w with provided := w.provided ++ [work] } := by
      unfold Worker.provideWork
      simp only [hset]
    have hhead : w.provided.head? = some first := h.value ▸ hv
    rw [hw]
    refine ⟨h.mShutdown, hv.trans ?_, ?_⟩
    · show some first = (w.provided ++ [work]).head?
      rw [List.head?_append, hhead]
      rfl
    · rcases h.round with (⟨hpc, he, hr⟩ | ⟨hpc, he, hr⟩ | ⟨first', hpc, he, hr, hval⟩ |
        ⟨first', hpc, he, hr, hval⟩) | hterm
      · exact Or.inl (.fresh hpc he hr)
      · exact Or.inl (.waits hpc he hr)
      · exact Or.inl (.runs first' hpc he hr hval)
      · exact Or.inl (.spent first' hpc he hr hval)
      · exact Or.inr hterm

/-- The steps a thread has left: to `get_future`, to the work, through it, and to the `get_future`
that throws. -/
def rank (w : Worker Work) : ℕ :=
  match w.pc with
  | .top => if w.executed.isEmpty then 4 else 1
  | .waiting => 3
  | .running _ => 2
  | .returned => 0
  | .terminated => 0

@[simp] theorem rank_provideWork (w : Worker Work) (work : Work) :
    (w.provideWork work).1.rank = w.rank := by
  unfold Worker.provideWork
  simp only
  split <;> rfl

/-- **A step of the thread** leaves fewer. -/
theorem Fed.thread (h : w.Fed) {throws : Bool} (hstep : w.threadEntryPoint throws = some v) :
    v.Fed ∧ v.rank < w.rank := by
  unfold threadEntryPoint at hstep
  rcases h.round with (⟨hpc, he, hr⟩ | ⟨hpc, he, hr⟩ | ⟨work, hpc, he, hr, hv⟩ |
    ⟨work, hpc, he, hr, hv⟩) | ⟨work, hpc, -, -⟩
  · simp only [hpc, h.mShutdown, Promise.getFuture_of_new hr] at hstep
    cases hstep
    exact ⟨⟨rfl, h.value, Or.inl (.waits rfl he rfl)⟩, by simp [rank, hpc, he]⟩
  · simp only [hpc] at hstep
    obtain ⟨work, hv, rfl⟩ := Option.map_eq_some_iff.mp hstep
    exact ⟨⟨h.mShutdown, h.value, Or.inl (.runs work rfl he hr hv)⟩, by simp [rank, hpc]⟩
  · simp only [hpc, he] at hstep
    cases hstep
    cases throws with
    | false =>
      exact ⟨⟨h.mShutdown, h.value, Or.inl (.spent work rfl rfl hr hv)⟩, by simp [rank, hpc]⟩
    | true =>
      exact ⟨⟨h.mShutdown, h.value, Or.inr ⟨work, rfl, rfl, hv⟩⟩, by simp [rank, hpc]⟩
  · -- the future has been taken
    simp only [hpc, h.mShutdown, Promise.getFuture_of_retrieved hr] at hstep
    cases hstep
    exact ⟨⟨rfl, h.value, Or.inr ⟨work, rfl, he, hv⟩⟩, by simp [rank, hpc, he]⟩
  · simp only [hpc] at hstep
    cases hstep

/-- Nothing but the first piece of work is run, and that once. -/
theorem Fed.executed (h : w.Fed) : w.executed <+: w.provided.head?.toList := by
  rw [← h.value]
  rcases h.round with (⟨-, he, -⟩ | ⟨-, he, -⟩ | ⟨work, -, he, -, -⟩ | ⟨work, -, he, -, hv⟩) |
    ⟨work, -, he, hv⟩
  · rw [he]; exact List.nil_prefix
  · rw [he]; exact List.nil_prefix
  · rw [he]; exact List.nil_prefix
  · rw [he, hv]; exact List.prefix_rfl
  · rw [he, hv]; exact List.prefix_rfl

/-- A thread that has been provided with work can go on, until it is terminated. -/
theorem Fed.goesOn (h : w.Fed) (hpro : w.provided ≠ []) (hpc : w.pc ≠ .terminated)
    (throws : Bool) : (w.threadEntryPoint throws).isSome := by
  unfold threadEntryPoint
  rcases h.round with (⟨htop, -, hr⟩ | ⟨hwaits, -, -⟩ | ⟨work, hruns, -, -, -⟩ |
    ⟨work, hspent, -, hr, -⟩) | ⟨work, hterm, -, -⟩
  · simp [htop, h.mShutdown, Promise.getFuture_of_new hr]
  · -- the first piece is in the promise
    obtain ⟨work, rest, hcons⟩ := List.exists_cons_of_ne_nil hpro
    have hv : w.mPromiseToWork.value = some work := by rw [h.value, hcons, List.head?_cons]
    simp [hwaits, hv]
  · simp [hruns]
  · simp [hspent, h.mShutdown, Promise.getFuture_of_retrieved hr]
  · exact absurd hterm hpc

end Worker

namespace WorkerPool

variable {n : ℕ}

theorem fed_step {s t : WorkerPool Work n} {a : Action Work n} (h : ∀ i, (s.mWorkers i).Fed)
    (ht : s.step a = some t) : ∀ i, (t.mWorkers i).Fed := by
  have hupdate : ∀ worker (w : Worker Work), w.Fed →
      ∀ i, (Function.update s.mWorkers worker w i).Fed := by
    intro worker w hw i
    rcases eq_or_ne i worker with rfl | hne
    · rwa [Function.update_self]
    · rw [Function.update_of_ne hne]
      exact h i
  cases a with
  | addWork work =>
    cases ht
    exact h
  | provideWork call =>
    obtain ⟨⟨worker, work⟩, -, rfl⟩ := Option.map_eq_some_iff.mp ht
    exact hupdate worker _ ((h worker).provideWork work)
  | thread worker throws =>
    obtain ⟨w, hw, rfl⟩ := Option.map_eq_some_iff.mp ht
    exact hupdate worker _ ((h worker).thread hw).1

theorem fed_run {nbWorkers : ℤ} {p q : WorkerPool Work nbWorkers.toNat}
    {as : List (Action Work nbWorkers.toNat)} (h : new nbWorkers = .ok p)
    (hrun : run step p as = some q) : ∀ i, (q.mWorkers i).Fed := by
  have hstart : ∀ i, (p.mWorkers i).Fed := by
    unfold new at h
    split_ifs at h
    cases h
    exact fun _ => Worker.fed_new
  exact (always_of_inv (P := fun s : WorkerPool Work nbWorkers.toNat => ∀ i, (s.mWorkers i).Fed)
    (fun _ _ _ hs ht => fed_step hs ht) as hstart).last hrun

end WorkerPool

namespace Dealer

variable {Caller : Type} {s t : Dealer Caller Work}

/-- A step of a thread of the pool. -/
def Action.ofThread : Action Caller Work → Bool
  | .thread _ _ => true
  | _ => false

/-- The steps that the threads have left. -/
def rank (s : Dealer Caller Work) : ℕ := (s.mWorkers.map Worker.rank).sum

/-- One element of a list is replaced. -/
theorem sum_map_set {α : Type} (f : α → ℕ) {a b : α} : ∀ {l : List α} {i : ℕ}, l[i]? = some a →
    ((l.set i b).map f).sum + f a = (l.map f).sum + f b
  | [], _, h => by cases h
  | x :: l, 0, h => by
    obtain rfl : x = a := Option.some.inj h
    rw [List.set_cons_zero, List.map_cons, List.map_cons, List.sum_cons, List.sum_cons]
    omega
  | x :: l, i + 1, h => by
    have ih := sum_map_set f (b := b) (l := l) (i := i) h
    rw [List.set_cons_succ, List.map_cons, List.map_cons, List.sum_cons, List.sum_cons]
    omega

theorem rank_new {nbWorkers : Int32} (h : new nbWorkers = .ok s) :
    s.rank = 4 * nbWorkers.toInt.toNat := by
  unfold new at h
  split_ifs at h
  cases h
  unfold rank
  rw [List.map_replicate, List.sum_replicate, Nat.nsmul_eq_mul, mul_comm]
  rfl

variable [DecidableEq Caller]

/-- A call leaves the threads the steps they have. -/
theorem rank_next {c : Caller} (h : s.next c = some t) : t.rank = s.rank := by
  unfold next at h
  split at h
  · cases h
  · split_ifs at h
    cases h
    rfl
  · cases h
    rfl
  · cases h
    rfl
  · cases h
    rfl
  · rename_i work k worker _
    cases h
    unfold provideWork
    split
    · rfl
    · rename_i w hw
      have hsum := sum_map_set Worker.rank (b := (w.provideWork work).1) hw
      rw [Worker.rank_provideWork] at hsum
      exact Nat.add_right_cancel hsum

theorem rank_step {a : Action Caller Work} (hfed : ∀ w ∈ s.mWorkers, w.Fed)
    (h : step s a = some t) : (if a.ofThread then 1 else 0) + t.rank ≤ s.rank := by
  cases a with
  | addWork c work =>
    simp only [step] at h
    split at h
    · cases h
      exact (Nat.zero_add _).le
    · cases h
  | next c =>
    rw [rank_next h]
    exact (Nat.zero_add _).le
  | thread worker throws =>
    simp only [step] at h
    split at h
    · cases h
    · rename_i w hw
      obtain ⟨v, hv, rfl⟩ := Option.map_eq_some_iff.mp h
      have hlt := ((hfed w (List.mem_of_getElem? hw)).thread hv).2
      have hsum := sum_map_set Worker.rank (b := v) hw
      show 1 + ((s.mWorkers.set worker v).map Worker.rank).sum ≤ (s.mWorkers.map Worker.rank).sum
      omega

/-- In every run of the single steps a worker is where one of the pool can be. -/
theorem fed_run {nbWorkers : Int32} (h : new nbWorkers = .ok s) {as : List (Action Caller Work)}
    (hrun : run step s as = some t) : ∀ w ∈ t.mWorkers, w.Fed :=
  workers_of_pool (fun _ _ _ hp hq => WorkerPool.fed_run hp hq) h hrun

/-- The steps of the threads in the second part of a run. -/
theorem rank_run {nbWorkers : Int32} (h : new nbWorkers = .ok s)
    (bs : List (Action Caller Work)) {cs : List (Action Caller Work)} {u v : Dealer Caller Work}
    (hbs : run step s bs = some u) (hcs : run step u cs = some v) :
    (cs.filter Action.ofThread).length + v.rank ≤ u.rank := by
  refine length_filter_add_le_of_rank (I := fun d => ∃ bs, run step s bs = some d)
    (fun d c e hreach hd => ?_) ⟨bs, hbs⟩ hcs
  obtain ⟨ds, hds⟩ := hreach
  refine ⟨⟨ds ++ [c], ?_⟩, rank_step (fed_run h hds) hd⟩
  rw [run_append, hds, Option.bind_some, run_cons, hd]
  rfl

/-- **What a pool can do**, whatever is dealt to it. -/
theorem capacity {nbWorkers : Int32} (h : new nbWorkers = .ok s) {as : List (Action Caller Work)}
    (hrun : run step s as = some t) :
    (∀ w ∈ t.mWorkers, w.executed <+: w.provided.head?.toList) ∧
      (t.mWorkers.map fun w => w.executed.length).sum ≤ nbWorkers.toInt.toNat ∧
      (as.filter Action.ofThread).length + t.rank ≤ 4 * nbWorkers.toInt.toNat ∧
      ∀ worker w, t.mWorkers[worker]? = some w → w.provided ≠ [] → w.pc ≠ .terminated →
        ∀ throws, (step t (.thread worker throws)).isSome := by
  have hfed := fed_run h hrun
  refine ⟨fun w hw => (hfed w hw).executed, ?_, ?_, fun worker w hw hpro hpc throws => ?_⟩
  · have hone : ∀ k ∈ t.mWorkers.map fun w => w.executed.length, k ≤ 1 := by
      intro k hk
      obtain ⟨w, hw, rfl⟩ := List.mem_map.mp hk
      refine (hfed w hw).executed.length_le.trans ?_
      cases w.provided.head? with
      | none => exact Nat.zero_le 1
      | some work => exact le_rfl
    have hsize : t.mWorkers.length = nbWorkers.toInt.toNat := by
      obtain ⟨p, bs, q, -, -, href⟩ := refines_run h hrun
      rw [href.mWorkers, List.length_ofFn]
    have hsum := List.sum_le_card_nsmul _ 1 hone
    rwa [List.length_map, Nat.nsmul_eq_mul, mul_one, hsize] at hsum
  · rw [← rank_new h]
    exact rank_run h [] rfl hrun
  · have hgoes := (hfed w (List.mem_of_getElem? hw)).goesOn hpro hpc throws
    simp only [step, hw, Option.isSome_map]
    exact hgoes

/-- Three pieces of work for two workers: the third one is not run. -/
theorem capacity_poolOfTwo : new 2 = .ok poolOfTwo ∧ ∃ t,
    run step poolOfTwo ([.addWork 0 7, .next 0, .next 0, .next 0, .next 0, .next 0,
      .addWork 0 8, .next 0, .next 0, .next 0, .next 0, .next 0, .addWork 0 9, .next 0, .next 0,
      .next 0, .next 0, .next 0, .thread 0 false, .thread 0 false, .thread 0 false] :
        List (Action ℕ ℕ)) = some t ∧
      t.mWorkers.map Worker.provided = [[7, 9], [8]] ∧
      (t.mWorkers.map fun w => w.executed.length).sum ≤ (2 : Int32).toInt.toNat := by
  have hnew : new 2 = .ok poolOfTwo := rfl
  obtain ⟨t, hrun, hpro⟩ := exists_run step poolOfTwo [.addWork 0 7, .next 0, .next 0, .next 0,
    .next 0, .next 0, .addWork 0 8, .next 0, .next 0, .next 0, .next 0, .next 0, .addWork 0 9,
    .next 0, .next 0, .next 0, .next 0, .next 0, .thread 0 false, .thread 0 false, .thread 0 false]
    (fun t => t.mWorkers.map Worker.provided = [[7, 9], [8]]) (by decide)
  exact ⟨hnew, t, hrun, hpro, (capacity hnew hrun).2.1⟩

end Dealer

end C11Http.Workers
