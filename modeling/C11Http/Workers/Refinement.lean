import Mathlib.Data.List.OfFn
import C11Http.Lib.Entries
import C11Http.Workers.Dealing

/-! # The lock of `addWork` as one step

In `Workers/Pool` the locked part of `addWork` is one step, and the index it takes is one of a
worker; in `Workers/Dealing` it is four, and the index an `int`. Every run of the single steps is a
run of the pool (`refines_run`): a call counts as made when it takes its index, so the calls
between the lock and `provideWork` are those behind `mCurrentWorker++`. What is shown of the workers
of the pool holds of the single steps as well (`workers_of_pool`). -/

namespace C11Http.Workers.Dealer

open C11Http.Lib C11Http.Lib.Run C11Http.Lib.RoundRobin

variable {Caller Work : Type} {n : ℕ} {s t : Dealer Caller Work} {c : Caller}
  {p : WorkerPool Work n}

/-- The index a call has taken and the work it is to provide. -/
def pending : CallerPc Work → Option (ℕ × Work)
  | .taken work _ worker => some (index worker, work)
  | .wrapped work _ worker => some (index worker, work)
  | .released work _ worker => some (index worker, work)
  | _ => none

/-- **The pool behind the single steps**: its workers are the elements of `mWorkers`, the next one
is that of the next call, and its calls are the pending ones. -/
structure Refines (s : Dealer Caller Work) (p : WorkerPool Work n) : Prop where
  mWorkers : s.mWorkers = List.ofFn p.mWorkers
  mCurrentWorker : p.mCurrentWorker = s.routed.length % n
  calls : ∃ l, Entries (fun d => pending (s.callers d)) l ∧
    p.calls.map (Prod.map Fin.val id) = l.map Prod.snd

/-- What neither deals nor provides is not seen. -/
theorem Refines.stutter (h : Refines s p) (hworkers : t.mWorkers = s.mWorkers)
    (hrouted : t.routed = s.routed)
    (hpending : (fun d => pending (t.callers d)) = fun d => pending (s.callers d)) :
    Refines t p where
  mWorkers := hworkers.trans h.mWorkers
  mCurrentWorker := by rw [hrouted]; exact h.mCurrentWorker
  calls := by rw [hpending]; exact h.calls

theorem Refines.getElem? (h : Refines s p) (i : Fin n) :
    s.mWorkers[i.val]? = some (p.mWorkers i) := by
  rw [h.mWorkers, List.getElem?_ofFn, dif_pos i.isLt]

/-- A worker is replaced. -/
theorem ofFn_set {α : Type} (f : Fin n → α) (i : Fin n) (a : α) :
    (List.ofFn f).set i.val a = List.ofFn (Function.update f i a) := by
  apply List.ext_getElem?
  intro j
  rw [List.getElem?_set, List.length_ofFn, List.getElem?_ofFn, List.getElem?_ofFn]
  by_cases hj : j < n
  · rw [dif_pos hj, dif_pos hj]
    rcases eq_or_ne i ⟨j, hj⟩ with rfl | hne
    · rw [if_pos rfl, if_pos hj, Function.update_self]
    · rw [if_neg (fun he => hne (Fin.ext he)), Function.update_of_ne hne.symm]
  · rw [dif_neg hj, dif_neg hj, if_neg (fun he : i.val = j => hj (he ▸ i.isLt))]

theorem next_val (worker : Fin n) : (WorkerPool.next worker : ℕ) = (worker + 1) % n := by
  have hwrap := wrap_mod worker.pos worker
  rw [Nat.mod_eq_of_lt worker.isLt] at hwrap
  rw [← hwrap]
  unfold WorkerPool.next
  split_ifs <;> rfl

section Steps

variable [DecidableEq Caller]

theorem pending_goto (s : Dealer Caller Work) (c : Caller) (pc : CallerPc Work) :
    (fun d => pending ((s.goto c pc).callers d)) =
      Function.update (fun d => pending (s.callers d)) c (pending pc) :=
  Function.comp_update pending s.callers c pc

/-- A call that goes on with the index it has, or without one, is not seen. -/
theorem Refines.goto (h : Refines s p) (c : Caller) (pc : CallerPc Work)
    (hpc : pending pc = pending (s.callers c)) : Refines (s.goto c pc) p := by
  refine h.stutter rfl rfl ?_
  rw [pending_goto, hpc]
  exact Function.update_eq_self c _

/-- **Taking the index is `addWork`** of the pool. -/
theorem Refines.take (h : Refines s p) (hinv : Inv n s) (hint : n ≤ 2147483647) {work : Work}
    {k : ℕ} (hpc : s.callers c = .locked work k) :
    Refines (s.take c work k) (p.addWork work) where
  mWorkers := h.mWorkers
  mCurrentWorker := by
    show (WorkerPool.next p.mCurrentWorker : ℕ) = (s.routed ++ [_]).length % n
    rw [next_val, h.mCurrentWorker, List.length_append, List.length_singleton, Nat.mod_add_mod]
  calls := by
    obtain ⟨l, hentries, hcalls⟩ := h.calls
    have hc := hinv.held c (hinv.exclusive c (by rw [hpc]; trivial))
    rw [hpc] at hc
    obtain ⟨-, hrouted, hcurrent⟩ := hc
    have hvalue : (p.mCurrentWorker : ℕ) = s.mCurrentWorker := by
      rw [h.mCurrentWorker, hrouted, hcurrent]
      unfold RoundRobin.dealt
      rw [List.length_map, List.length_range]
    have hindex : index (Int32.ofNat s.mCurrentWorker) = p.mCurrentWorker := by
      have hlt := p.mCurrentWorker.isLt
      rw [index_ofNat (by omega), hvalue]
    have hnone : pending (s.callers c) = none := by rw [hpc]; rfl
    have hsome : pending (.taken work k (Int32.ofNat s.mCurrentWorker)) =
        some (p.mCurrentWorker.val, work) := by
      rw [← hindex]
      rfl
    refine ⟨l ++ [(c, (p.mCurrentWorker.val, work))], ?_, ?_⟩
    · unfold Dealer.take
      rw [pending_goto, hsome]
      exact hentries.append hnone
    · unfold WorkerPool.addWork
      rw [List.map_append, List.map_append, hcalls]
      rfl

/-- **Using the index is `provideWork`** of the pool, for the call of this thread. -/
theorem Refines.provideWork (h : Refines s p) {work : Work} {k : ℕ} {worker : Int32}
    (hpc : s.callers c = .released work k worker) :
    ∃ call q, WorkerPool.step p (.provideWork call) = some q ∧
      Refines (s.provideWork c work k worker) q := by
  obtain ⟨l, hentries, hcalls⟩ := h.calls
  have hpending : pending (s.callers c) = some (index worker, work) := by rw [hpc]; rfl
  obtain ⟨call, hplace, herase⟩ := hentries.erase hpending
  have hcall : (p.calls.map (Prod.map Fin.val id))[call]? = some (index worker, work) := by
    rw [hcalls, List.getElem?_map, hplace]
    rfl
  rw [List.getElem?_map] at hcall
  obtain ⟨⟨i, w⟩, hp, hiw⟩ := Option.map_eq_some_iff.mp hcall
  obtain ⟨hi, hw⟩ := Prod.mk.inj hiw
  obtain rfl : w = work := hw
  have hstep : WorkerPool.step p (.provideWork call) =
      some ({ p with calls := p.calls.eraseIdx call }.provideWork i w) := by
    show Option.map _ p.calls[call]? = _
    rw [hp]
    rfl
  refine ⟨call, _, hstep, ?_⟩
  unfold Dealer.provideWork
  rw [← hi, h.getElem? i]
  refine ⟨?_, h.mCurrentWorker, l.eraseIdx call, ?_, ?_⟩
  · show s.mWorkers.set i.val _ = _
    rw [h.mWorkers, ofFn_set]
    rfl
  · rw [pending_goto]
    exact herase
  · show (p.calls.eraseIdx call).map _ = _
    rw [← List.eraseIdx_map, ← List.eraseIdx_map, hcalls]

/-- **Every step is one of the pool**, or none. -/
theorem Refines.step (h : Refines s p) (hinv : Inv n s) (hint : n ≤ 2147483647)
    {a : Action Caller Work} (hs : step s a = some t) :
    ∃ bs q, run WorkerPool.step p bs = some q ∧ Refines t q := by
  have hnone : Refines t p → ∃ bs q, run WorkerPool.step p bs = some q ∧ Refines t q :=
    fun ht => ⟨[], p, rfl, ht⟩
  have hone : ∀ b q, WorkerPool.step p b = some q → Refines t q →
      ∃ bs q, run WorkerPool.step p bs = some q ∧ Refines t q :=
    fun b q hb hq => ⟨[b], q, by rw [run_cons, hb]; rfl, hq⟩
  cases a with
  | addWork c work =>
    simp only [Dealer.step] at hs
    split at hs
    · rename_i hpc
      cases hs
      exact hnone (h.goto c (.locking work) (by rw [hpc]; rfl))
    · cases hs
  | next c =>
    simp only [Dealer.step, next] at hs
    split at hs
    · cases hs
    · rename_i work hpc
      split_ifs at hs
      cases hs
      exact hnone ((h.goto c (.locked work s.acquired) (by rw [hpc]; rfl)).stutter rfl rfl rfl)
    · rename_i work k hpc
      cases hs
      exact hone (.addWork work) _ rfl (h.take hinv hint hpc)
    · rename_i work k worker hpc
      cases hs
      exact hnone ((h.goto c (.wrapped work k worker) (by rw [hpc]; rfl)).stutter rfl rfl rfl)
    · rename_i work k worker hpc
      cases hs
      exact hnone ((h.goto c (.released work k worker) (by rw [hpc]; rfl)).stutter rfl rfl rfl)
    · rename_i work k worker hpc
      cases hs
      obtain ⟨call, q, hq, href⟩ := h.provideWork hpc
      exact hone _ q hq href
  | thread worker throws =>
    simp only [Dealer.step] at hs
    split at hs
    · cases hs
    · rename_i w hworker
      obtain ⟨v, hv, rfl⟩ := Option.map_eq_some_iff.mp hs
      have hlt : worker < n := by
        have := (List.getElem?_eq_some_iff.mp hworker).1
        rwa [hinv.size] at this
      obtain rfl := Option.some.inj (hworker.symm.trans (h.getElem? ⟨worker, hlt⟩))
      have hstep : WorkerPool.step p (.thread ⟨worker, hlt⟩ throws) =
          some { p with mWorkers := Function.update p.mWorkers ⟨worker, hlt⟩ v } := by
        show Option.map _ ((p.mWorkers ⟨worker, hlt⟩).threadEntryPoint throws) = _
        rw [hv]
        rfl
      refine hone _ _ hstep ⟨?_, h.mCurrentWorker, h.calls⟩
      show s.mWorkers.set worker v = _
      rw [h.mWorkers]
      exact ofFn_set p.mWorkers ⟨worker, hlt⟩ v

end Steps

theorem refines_new {nbWorkers : Int32} (h : new nbWorkers = .ok s) :
    ∃ p, WorkerPool.new nbWorkers.toInt = .ok p ∧ Refines s p := by
  unfold new at h
  split_ifs at h with hpos
  cases h
  unfold WorkerPool.new
  rw [dif_neg hpos]
  refine ⟨_, rfl, ?_, (Nat.zero_mod _).symm, [], Entries.nil, rfl⟩
  exact List.ofFn_const _ _ |>.symm

/-- **The single steps refine the pool**: behind the constructors, every run of the callers and the
threads ends in a state that a run of the pool ends in, too. -/
theorem refines_run [DecidableEq Caller] {nbWorkers : Int32} (h : new nbWorkers = .ok s)
    {as : List (Action Caller Work)} (hrun : run step s as = some t) :
    ∃ p bs q, WorkerPool.new nbWorkers.toInt = .ok p ∧ run WorkerPool.step p bs = some q ∧
      Refines t q := by
  obtain ⟨p, hp, href⟩ := refines_new h
  obtain ⟨hinv, hn⟩ := inv_new h
  have hint : nbWorkers.toInt.toNat ≤ 2147483647 := by
    have := nbWorkers.toInt_lt
    omega
  obtain ⟨bs, q, hbs, hq, -⟩ := exists_run_of_simulation
    (R := fun s p => Refines s p ∧ Inv nbWorkers.toInt.toNat s)
    (fun s a t p hs ht => by
      obtain ⟨bs, q, hbs, hq⟩ := hs.1.step hs.2 hint ht
      exact ⟨bs, q, hbs, hq, inv_step hn hint hs.2 ht⟩) ⟨href, hinv⟩ hrun
  exact ⟨p, bs, q, hp, hbs, hq⟩

/-- What every run of the pool keeps of its workers, the single steps keep. -/
theorem workers_of_pool [DecidableEq Caller] {nbWorkers : Int32} {P : Worker Work → Prop}
    (hpool : ∀ p bs q, WorkerPool.new nbWorkers.toInt = .ok p →
      run WorkerPool.step p bs = some q → ∀ i, P (q.mWorkers i))
    (h : new nbWorkers = .ok s) {as : List (Action Caller Work)}
    (hrun : run step s as = some t) : ∀ w ∈ t.mWorkers, P w := by
  intro w hw
  obtain ⟨p, bs, q, hp, hbs, href⟩ := refines_run h hrun
  rw [href.mWorkers] at hw
  obtain ⟨i, rfl⟩ := (List.mem_ofFn' _ _).mp hw
  exact hpool p bs q hp hbs i

end C11Http.Workers.Dealer
