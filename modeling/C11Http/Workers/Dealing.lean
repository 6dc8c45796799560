import C11Http.Lib.RoundRobin
import C11Http.Workers.Pool

/-! # Dealing work to the workers

`addWork` of `workers/WorkerPool.cpp` in single steps, called by any number of threads: the index is
taken and advanced under `mMutex`, wrapped there, and used when the mutex has been released. The
number of workers is an `int`, `mCurrentWorker` a `size_t`, and `worker` an `int`.

A call that acquires the mutex gets a ticket: the number of calls that have acquired it before.
`routed` has the tickets with the indices that were taken, in the order in which they were taken,
and `provided` those with which `provideWork` was called. In every run work is dealt in turn
(`roundRobin_always`). As in `Workers.Pool`, a terminated thread does not end the others. -/

namespace C11Http.Workers

open C11Http.Lib C11Http.Lib.Run C11Http.Lib.RoundRobin

/-- Where a thread is in `addWork`: before the lock; under it, before the index is taken, before the
test that wraps it and before the release; or behind it. -/
inductive CallerPc (Work : Type)
  | outside
  | locking (work : Work)
  | locked (work : Work) (ticket : ℕ)
  | taken (work : Work) (ticket : ℕ) (worker : Int32)
  | wrapped (work : Work) (ticket : ℕ) (worker : Int32)
  | released (work : Work) (ticket : ℕ) (worker : Int32)

/-- The pool and its callers. `strayed` says that `mWorkers` has been indexed out of range. -/
structure Dealer (Caller Work : Type) where
  mWorkers : List (Worker Work)
  mCurrentWorker : ℕ
  mMutex : Option Caller
  callers : Caller → CallerPc Work
  acquired : ℕ
  routed : List (ℕ × ℕ)
  provided : List (ℕ × ℕ)
  strayed : Bool

/-- An `int` as the index of a vector. -/
def index (worker : Int32) : ℕ := (worker.toInt % 18446744073709551616).toNat

theorem index_ofNat {worker : ℕ} (h : worker < 2147483648) :
    index (Int32.ofNat worker) = worker := by
  unfold index
  rw [Int32.toInt_ofNat_of_lt h]
  omega

namespace Dealer

variable {Caller Work : Type}

/-- The constructor. -/
def new (nbWorkers : Int32) : Except String (Dealer Caller Work) :=
  if nbWorkers.toInt ≤ 0 then .error "Number of workers must be greater than 0"
  else
    .ok { mWorkers := List.replicate nbWorkers.toInt.toNat .new
          mCurrentWorker := 0
          mMutex := none
          callers := fun _ => .outside
          acquired := 0
          routed := []
          provided := []
          strayed := false }

section Steps

variable [DecidableEq Caller]

/-- The caller goes on at `pc`. -/
def goto (s : Dealer Caller Work) (c : Caller) (pc : CallerPc Work) : Dealer Caller Work :=
  { s with callers := Function.update s.callers c pc }

/-- `std::lock_guard<std::mutex> lock(mMutex)`. -/
def lock (s : Dealer Caller Work) (c : Caller) (work : Work) : Dealer Caller Work :=
  { s with mMutex := some c, acquired := s.acquired + 1 }.goto c (.locked work s.acquired)

/-- `worker = mCurrentWorker++`. -/
def take (s : Dealer Caller Work) (c : Caller) (work : Work) (ticket : ℕ) : Dealer Caller Work :=
  { s with
    mCurrentWorker := (s.mCurrentWorker + 1) % 18446744073709551616
    routed := s.routed ++ [(ticket, index (Int32.ofNat s.mCurrentWorker))] }.goto c
      (.taken work ticket (Int32.ofNat s.mCurrentWorker))

/-- `if(mCurrentWorker >= mWorkers.size()) mCurrentWorker = 0`. -/
def wrap (s : Dealer Caller Work) (c : Caller) (work : Work) (ticket : ℕ) (worker : Int32) :
    Dealer Caller Work :=
  { s with
    mCurrentWorker :=
      if s.mCurrentWorker ≥ s.mWorkers.length then 0 else s.mCurrentWorker }.goto c
      (.wrapped work ticket worker)

/-- The end of the block. -/
def unlock (s : Dealer Caller Work) (c : Caller) (work : Work) (ticket : ℕ) (worker : Int32) :
    Dealer Caller Work :=
  { s with mMutex := none }.goto c (.released work ticket worker)

/-- `mWorkers[worker]->provideWork(work)`, with which the call ends, also if it throws. -/
def provideWork (s : Dealer Caller Work) (c : Caller) (work : Work) (ticket : ℕ) (worker : Int32) :
    Dealer Caller Work :=
  match s.mWorkers[index worker]? with
  | none => { s with strayed := true }.goto c .outside
  | some w =>
    { s with
      mWorkers := s.mWorkers.set (index worker) (w.provideWork work).1
      provided := s.provided ++ [(ticket, index worker)] }.goto c .outside

/-- The next step of a call. -/
def next (s : Dealer Caller Work) (c : Caller) : Option (Dealer Caller Work) :=
  match s.callers c with
  | .outside => none
  | .locking work => if s.mMutex = none then some (s.lock c work) else none
  | .locked work ticket => some (s.take c work ticket)
  | .taken work ticket worker => some (s.wrap c work ticket worker)
  | .wrapped work ticket worker => some (s.unlock c work ticket worker)
  | .released work ticket worker => some (s.provideWork c work ticket worker)

/-- A thread calls `addWork`, a call goes on, or a thread of the pool does. -/
inductive Action (Caller Work : Type)
  | addWork (c : Caller) (work : Work)
  | next (c : Caller)
  | thread (worker : ℕ) (throws : Bool)

def step (s : Dealer Caller Work) : Action Caller Work → Option (Dealer Caller Work)
  | .addWork c work =>
    match s.callers c with
    | .outside => some (s.goto c (.locking work))
    | _ => none
  | .next c => s.next c
  | .thread worker throws =>
    match s.mWorkers[worker]? with
    | none => none
    | some w =>
      (w.threadEntryPoint throws).map fun v => { s with mWorkers := s.mWorkers.set worker v }

end Steps

/-- The ticket of a call and the index it has taken. -/
def route : CallerPc Work → Option (ℕ × ℕ)
  | .taken _ ticket worker => some (ticket, index worker)
  | .wrapped _ ticket worker => some (ticket, index worker)
  | .released _ ticket worker => some (ticket, index worker)
  | _ => none

/-- **Work is dealt in turn.** The `k`-th call that acquires the mutex takes the index `k % n`, and
no index but this one is used for it; all indices are in range; and the numbers of calls routed to
two workers differ by at most one. -/
structure RoundRobin (n : ℕ) (s : Dealer Caller Work) : Prop where
  routed : s.routed = dealt n s.routed.length
  acquired : s.routed.length ≤ s.acquired ∧ s.acquired ≤ s.routed.length + 1
  calling : ∀ c k i, route (s.callers c) = some (k, i) → k < s.acquired ∧ i = k % n
  provided : ∀ e ∈ s.provided, e.1 < s.acquired ∧ e.2 = e.1 % n
  inRange : ∀ e ∈ s.routed, e.2 < s.mWorkers.length
  strayed : s.strayed = false
  balanced : ∀ i < n, ∀ j < n, share i s.routed ≤ share j s.routed + 1

/-! ### The invariant -/

/-- The caller holds the mutex. -/
def Holds : CallerPc Work → Prop
  | .locked _ _ => True
  | .taken _ _ _ => True
  | .wrapped _ _ _ => True
  | _ => False

/-- What has been dealt when the holder of the mutex is at a place of `addWork`. -/
def Counts (n : ℕ) (s : Dealer Caller Work) : CallerPc Work → Prop
  | .locked _ k => s.acquired = k + 1 ∧ s.routed = dealt n k ∧ s.mCurrentWorker = k % n
  | .taken _ k worker => s.acquired = k + 1 ∧ s.routed = dealt n (k + 1) ∧
      s.mCurrentWorker = k % n + 1 ∧ index worker = k % n
  | .wrapped _ k worker => s.acquired = k + 1 ∧ s.routed = dealt n (k + 1) ∧
      s.mCurrentWorker = (k + 1) % n ∧ index worker = k % n
  | _ => False

structure Inv (n : ℕ) (s : Dealer Caller Work) : Prop where
  size : s.mWorkers.length = n
  exclusive : ∀ c, Holds (s.callers c) → s.mMutex = some c
  free : s.mMutex = none → s.routed = dealt n s.acquired ∧ s.mCurrentWorker = s.acquired % n
  held : ∀ c, s.mMutex = some c → Counts n s (s.callers c)
  released : ∀ c work k worker, s.callers c = .released work k worker →
    (k, index worker) ∈ s.routed
  provided : ∀ e ∈ s.provided, e ∈ s.routed
  strayed : s.strayed = false

variable {n : ℕ} {s t : Dealer Caller Work} {c : Caller}

section Goto

variable [DecidableEq Caller]

@[simp] theorem goto_self (s : Dealer Caller Work) (c : Caller) (pc : CallerPc Work) :
    (s.goto c pc).callers c = pc := Function.update_self _ _ _

theorem goto_of_ne (s : Dealer Caller Work) {c d : Caller} (pc : CallerPc Work) (h : d ≠ c) :
    (s.goto c pc).callers d = s.callers d := Function.update_of_ne h _ _

end Goto

/-- **How much has been dealt**: everything that has been acquired, but for the holder of the mutex
before it takes its index. -/
theorem Inv.dealt (h : Inv n s) : ∃ m, s.routed = dealt n m ∧ m ≤ s.acquired ∧
    s.acquired ≤ m + 1 := by
  cases hm : s.mMutex with
  | none => exact ⟨s.acquired, (h.free hm).1, le_rfl, by omega⟩
  | some c =>
    have hc := h.held c hm
    cases hpc : s.callers c with
    | outside => rw [hpc] at hc; exact hc.elim
    | locking work => rw [hpc] at hc; exact hc.elim
    | locked work k =>
      rw [hpc] at hc
      obtain ⟨hacq, hrouted, -⟩ := hc
      exact ⟨k, hrouted, by omega, by omega⟩
    | taken work k worker =>
      rw [hpc] at hc
      obtain ⟨hacq, hrouted, -⟩ := hc
      exact ⟨k + 1, hrouted, by omega, by omega⟩
    | wrapped work k worker =>
      rw [hpc] at hc
      obtain ⟨hacq, hrouted, -⟩ := hc
      exact ⟨k + 1, hrouted, by omega, by omega⟩
    | released work k worker => rw [hpc] at hc; exact hc.elim

/-- The index of a call that has taken one stands among the routes. -/
theorem Inv.route_mem (h : Inv n s) {k i : ℕ} (hr : route (s.callers c) = some (k, i)) :
    (k, i) ∈ s.routed := by
  have hlast : ∀ worker : Int32, s.routed = RoundRobin.dealt n (k + 1) →
      index worker = k % n → (k, index worker) ∈ s.routed := by
    intro worker hrouted hi
    rw [hrouted]
    exact mem_dealt.mpr ⟨Nat.lt_succ_self k, hi⟩
  cases hpc : s.callers c with
  | outside => rw [hpc] at hr; cases hr
  | locking work => rw [hpc] at hr; cases hr
  | locked work k' => rw [hpc] at hr; cases hr
  | taken work k' worker =>
    have hc := h.held c (h.exclusive c (by rw [hpc]; trivial))
    rw [hpc] at hr hc
    cases hr
    exact hlast worker hc.2.1 hc.2.2.2
  | wrapped work k' worker =>
    have hc := h.held c (h.exclusive c (by rw [hpc]; trivial))
    rw [hpc] at hr hc
    cases hr
    exact hlast worker hc.2.1 hc.2.2.2
  | released work k' worker =>
    rw [hpc] at hr
    cases hr
    exact h.released c work k worker hpc

theorem Inv.roundRobin (h : Inv n s) (hn : 0 < n) : RoundRobin n s := by
  obtain ⟨m, hm, hle, hge⟩ := h.dealt
  have hlen : s.routed.length = m := by rw [hm]; simp [RoundRobin.dealt]
  have hmem : ∀ e ∈ s.routed, e.1 < s.acquired ∧ e.2 = e.1 % n := by
    intro e he
    rw [hm] at he
    obtain ⟨hk, hi⟩ := mem_dealt.mp he
    exact ⟨by omega, hi⟩
  refine ⟨by rw [hlen]; exact hm, by omega, fun c k i hr => hmem (k, i) (h.route_mem hr),
    fun e he => hmem e (h.provided e he), fun e he => ?_, h.strayed, fun i hi j hj => ?_⟩
  · rw [(hmem e he).2, h.size]
    exact Nat.mod_lt _ hn
  · rw [hm]
    exact share_dealt_le hi hj m

/-! ### The steps -/

theorem inv_new {nbWorkers : Int32} (h : new nbWorkers = .ok s) :
    Inv nbWorkers.toInt.toNat s ∧ 0 < nbWorkers.toInt.toNat := by
  unfold new at h
  split_ifs at h with hpos
  cases h
  refine ⟨⟨List.length_replicate, fun _ hc => hc.elim, fun _ => ⟨rfl, (Nat.zero_mod _).symm⟩,
    fun _ hc => (by cases hc), fun _ _ _ _ hc => (by cases hc), fun _ he => ?_, rfl⟩, by omega⟩
  cases he

/-- A step of a call outside of the lock leaves the dealing as it is. -/
theorem Inv.outside (h : Inv n s) (hsize : t.mWorkers.length = s.mWorkers.length)
    (hcur : t.mCurrentWorker = s.mCurrentWorker) (hmutex : t.mMutex = s.mMutex)
    (hacq : t.acquired = s.acquired) (hrouted : t.routed = s.routed)
    (hothers : ∀ d, t.callers d = s.callers d ∨ ¬ Holds (t.callers d) ∧ ¬ Holds (s.callers d) ∧
      ∀ work k worker, t.callers d ≠ .released work k worker)
    (hprovided : ∀ e ∈ t.provided, e ∈ s.routed) (hstrayed : t.strayed = false) : Inv n t where
  size := hsize.trans h.size
  exclusive d hd := by
    rw [hmutex]
    rcases hothers d with he | ⟨hnot, -, -⟩
    · exact h.exclusive d (he ▸ hd)
    · exact absurd hd hnot
  free hm := by
    rw [hrouted, hacq, hcur]
    exact h.free (hmutex ▸ hm)
  held d hd := by
    have hs := h.held d (hmutex ▸ hd)
    rcases hothers d with he | ⟨-, hnot, -⟩
    · rw [he]
      unfold Counts at hs ⊢
      rw [hacq, hrouted, hcur]
      exact hs
    · refine absurd ?_ hnot
      cases hpc : s.callers d <;> rw [hpc] at hs <;> first | exact hs.elim | trivial
  released d work k worker hd := by
    rw [hrouted]
    rcases hothers d with he | ⟨-, -, hnot⟩
    · exact h.released d work k worker (he ▸ hd)
    · exact absurd hd (hnot work k worker)
  provided e he := hrouted ▸ hprovided e he
  strayed := hstrayed

variable [DecidableEq Caller]

/-- What a step of `c` does to the others. -/
theorem goto_others {pc : CallerPc Work} (hc : ¬ Holds (s.callers c)) (hpc : ¬ Holds pc)
    (hnot : ∀ work k worker, pc ≠ .released work k worker) (d : Caller) :
    (s.goto c pc).callers d = s.callers d ∨ ¬ Holds ((s.goto c pc).callers d) ∧
      ¬ Holds (s.callers d) ∧
      ∀ work k worker, (s.goto c pc).callers d ≠ .released work k worker := by
  rcases eq_or_ne d c with rfl | hd
  · rw [goto_self]
    exact Or.inr ⟨hpc, hc, hnot⟩
  · exact Or.inl (goto_of_ne s pc hd)

/-- **The holder of the mutex goes on**: all others are where they were, and none of them holds
it. -/
theorem Inv.holder (h : Inv n s) (hm : s.mMutex = some c) {pc : CallerPc Work}
    (hcallers : t.callers = (s.goto c pc).callers) (hsize : t.mWorkers.length = s.mWorkers.length)
    (hmutex : t.mMutex = some c) (hcounts : Counts n t pc) (hrouted : s.routed ⊆ t.routed)
    (hprovided : t.provided = s.provided) (hstrayed : t.strayed = s.strayed)
    (hpc : Holds pc) : Inv n t where
  size := hsize.trans h.size
  exclusive d hd := by
    rcases eq_or_ne d c with rfl | hne
    · exact hmutex
    · rw [hcallers, goto_of_ne s pc hne] at hd
      exact absurd (Option.some.inj ((h.exclusive d hd).symm.trans hm)) hne
  free hnone := by rw [hmutex] at hnone; cases hnone
  held d hd := by
    obtain rfl := Option.some.inj (hmutex.symm.trans hd)
    rw [hcallers, goto_self]
    exact hcounts
  released d work k worker hd := by
    rcases eq_or_ne d c with rfl | hne
    · rw [hcallers, goto_self] at hd
      rw [hd] at hpc
      exact hpc.elim
    · rw [hcallers, goto_of_ne s pc hne] at hd
      exact hrouted (h.released d work k worker hd)
  provided e he := hrouted (h.provided e (hprovided ▸ he))
  strayed := hstrayed.trans h.strayed

theorem Inv.lock (h : Inv n s) {work : Work} (hfree : s.mMutex = none) : Inv n (s.lock c work) := by
  obtain ⟨hrouted, hcur⟩ := h.free hfree
  have hnone : ∀ d, ¬ Holds (s.callers d) := by
    intro d hd
    rw [h.exclusive d hd] at hfree
    cases hfree
  refine ⟨h.size, fun d hd => ?_, fun hm => (by cases hm), fun d hd => ?_,
    fun d work' k worker hd => ?_, h.provided, h.strayed⟩
  · rcases eq_or_ne d c with rfl | hne
    · rfl
    · exact absurd ((goto_of_ne _ _ hne) ▸ hd) (hnone d)
  · obtain rfl : c = d := Option.some.inj hd
    show Counts n _ ((Dealer.goto _ c _).callers c)
    rw [goto_self]
    exact ⟨rfl, hrouted, hcur⟩
  · rcases eq_or_ne d c with rfl | hne
    · unfold Dealer.lock at hd
      rw [goto_self] at hd
      cases hd
    · exact h.released d work' k worker ((goto_of_ne _ _ hne) ▸ hd)

/-- The index that is taken is the one that is due, and the counter goes on behind it. -/
theorem Inv.take (h : Inv n s) (hn : 0 < n) (hint : n ≤ 2147483647) {work : Work} {k : ℕ}
    (hpc : s.callers c = .locked work k) : Inv n (s.take c work k) := by
  have hm := h.exclusive c (by rw [hpc]; trivial)
  have hc := h.held c hm
  rw [hpc] at hc
  obtain ⟨hacq, hrouted, hcur⟩ := hc
  have hlt := Nat.mod_lt k hn
  have hindex : index (Int32.ofNat s.mCurrentWorker) = k % n := by
    rw [hcur]
    exact index_ofNat (by omega)
  refine h.holder hm rfl rfl hm ⟨hacq, ?_, ?_, hindex⟩ (List.subset_append_left _ _) rfl rfl trivial
  · show s.routed ++ [(k, index (Int32.ofNat s.mCurrentWorker))] = _
    rw [hindex, hrouted, dealt_succ]
  · show (s.mCurrentWorker + 1) % 18446744073709551616 = _
    rw [hcur]
    exact Nat.mod_eq_of_lt (by omega)

theorem Inv.wrap (h : Inv n s) (hn : 0 < n) {work : Work} {k : ℕ} {worker : Int32}
    (hpc : s.callers c = .taken work k worker) : Inv n (s.wrap c work k worker) := by
  have hm := h.exclusive c (by rw [hpc]; trivial)
  have hc := h.held c hm
  rw [hpc] at hc
  obtain ⟨hacq, hrouted, hcur, hindex⟩ := hc
  refine h.holder hm rfl rfl hm ⟨hacq, hrouted, ?_, hindex⟩ (List.Subset.refl _) rfl rfl trivial
  show (if s.mCurrentWorker ≥ s.mWorkers.length then 0 else s.mCurrentWorker) = _
  rw [hcur, h.size]
  exact wrap_mod hn k

theorem Inv.unlock (h : Inv n s) {work : Work} {k : ℕ} {worker : Int32}
    (hpc : s.callers c = .wrapped work k worker) : Inv n (s.unlock c work k worker) := by
  have hm := h.exclusive c (by rw [hpc]; trivial)
  have hc := h.held c hm
  rw [hpc] at hc
  obtain ⟨hacq, hrouted, hcur, hindex⟩ := hc
  have hmem : (k, index worker) ∈ s.routed := by
    rw [hrouted]
    exact mem_dealt.mpr ⟨Nat.lt_succ_self k, hindex⟩
  refine ⟨h.size, fun d hd => ?_, fun _ => ⟨?_, ?_⟩, fun _ hd => (by cases hd),
    fun d work' k' worker' hd => ?_, h.provided, h.strayed⟩
  · rcases eq_or_ne d c with rfl | hne
    · unfold Dealer.unlock at hd
      rw [goto_self] at hd
      exact hd.elim
    · have hheld := h.exclusive d ((goto_of_ne _ _ hne) ▸ hd)
      exact absurd (Option.some.inj (hheld.symm.trans hm)) hne
  · exact hrouted.trans (by rw [← hacq]; rfl)
  · exact hcur.trans (by rw [← hacq]; rfl)
  · rcases eq_or_ne d c with rfl | hne
    · unfold Dealer.unlock at hd
      rw [goto_self] at hd
      cases hd
      exact hmem
    · exact h.released d work' k' worker' ((goto_of_ne _ _ hne) ▸ hd)

/-- **The index is used behind the lock**, and is one of the workers. -/
theorem Inv.provideWork (h : Inv n s) (hn : 0 < n) {work : Work} {k : ℕ} {worker : Int32}
    (hpc : s.callers c = .released work k worker) : Inv n (s.provideWork c work k worker) := by
  have hmem := h.released c work k worker hpc
  have hrange := (h.roundRobin hn).inRange _ hmem
  have hothers : ∀ u : Dealer Caller Work, u.callers = s.callers → ∀ d,
      (u.goto c .outside).callers d = s.callers d ∨ ¬ Holds ((u.goto c .outside).callers d) ∧
        ¬ Holds (s.callers d) ∧
        ∀ work k worker, (u.goto c .outside).callers d ≠ .released work k worker := by
    intro u hu d
    have hfree : ¬ Holds (u.callers c) := by
      rw [hu, hpc]
      exact id
    have hout : ∀ work k worker, (.outside : CallerPc Work) ≠ .released work k worker := nofun
    have hd := goto_others hfree id hout d
    rwa [hu] at hd
  unfold Dealer.provideWork
  rw [List.getElem?_eq_getElem hrange]
  refine h.outside List.length_set rfl rfl rfl rfl (hothers _ rfl) (fun e he => ?_) h.strayed
  rcases List.mem_append.mp he with he | he
  · exact h.provided e he
  · rw [List.mem_singleton.mp he]
    exact hmem

theorem inv_step (hn : 0 < n) (hint : n ≤ 2147483647) {a : Action Caller Work} (h : Inv n s)
    (hs : step s a = some t) : Inv n t := by
  cases a with
  | addWork c work =>
    simp only [step] at hs
    split at hs
    · rename_i hpc
      cases hs
      exact h.outside rfl rfl rfl rfl rfl (goto_others (by rw [hpc]; exact id) id
        fun _ _ _ hno => by cases hno) h.provided h.strayed
    · cases hs
  | next c =>
    simp only [step, next] at hs
    split at hs
    · cases hs
    · split_ifs at hs with hfree
      cases hs
      exact h.lock hfree
    · rename_i work k hpc
      cases hs
      exact h.take hn hint hpc
    · rename_i work k worker hpc
      cases hs
      exact h.wrap hn hpc
    · rename_i work k worker hpc
      cases hs
      exact h.unlock hpc
    · rename_i work k worker hpc
      cases hs
      exact h.provideWork hn hpc
  | thread worker throws =>
    simp only [step] at hs
    split at hs
    · cases hs
    · obtain ⟨v, -, rfl⟩ := Option.map_eq_some_iff.mp hs
      exact h.outside List.length_set rfl rfl rfl rfl (fun _ => Or.inl rfl) h.provided h.strayed

/-- **Work is dealt round-robin**, for every number of workers and under every interleaving of the
callers. -/
theorem roundRobin_always {nbWorkers : Int32} (h : new nbWorkers = .ok s)
    (as : List (Action Caller Work)) : Always step (RoundRobin nbWorkers.toInt.toNat) s as := by
  obtain ⟨hinv, hn⟩ := inv_new h
  have hint : nbWorkers.toInt.toNat ≤ 2147483647 := by
    have := nbWorkers.toInt_lt
    omega
  exact (always_of_inv (fun _ _ _ hs ht => inv_step hn hint hs ht) as hinv).imp
    fun _ hs => hs.roundRobin hn

/-- A pool of two workers behind its constructor. -/
def poolOfTwo : Dealer ℕ ℕ :=
  { mWorkers := [.new, .new], mCurrentWorker := 0, mMutex := none, callers := fun _ => .outside
    acquired := 0, routed := [], provided := [], strayed := false }

/-- Two callers: the second acquires the mutex when the first has released it, and is done first. -/
theorem roundRobin_poolOfTwo : new 2 = .ok poolOfTwo ∧
    Always step (RoundRobin 2) poolOfTwo [.addWork 0 7, .addWork 1 8, .next 0, .next 0, .next 0,
      .next 0, .next 1, .next 1, .next 1, .next 1, .next 1, .next 0] :=
  ⟨rfl, roundRobin_always (show new 2 = .ok poolOfTwo from rfl) _⟩

end Dealer

end C11Http.Workers
