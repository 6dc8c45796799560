import Mathlib.Logic.Function.Basic
import C11Http.Lib.Promise
import C11Http.Lib.Run

/-! # The worker pool

`workers/Worker.cpp`, `workers/WorkerPool.cpp`. A worker is a thread and one promise for work: the
thread takes the future of the promise, waits for the value, runs it and starts again; `provideWork`
sets the value. The pool hands work to its workers in turn.

A step is one call of `addWork` up to the end of its lock, one `provideWork` behind it, or one step
of a thread: at the top of its loop, in `wait`, or at the end of the work it runs, which may throw.
The destructors are left out.

An exception that leaves a thread is `std::terminate`, which ends the program. Here only the thread
is `terminated` and the others may go on, so the runs of the program are among those of the pool:
they end where the first thread is terminated. -/

namespace C11Http.Workers

open C11Http.Lib

/-- Where a thread is in `threadEntryPoint`. -/
inductive WorkerPc (Work : Type)
  | top
  | waiting
  | running (work : Work)
  | returned
  | terminated
  deriving DecidableEq

/-- A worker, the work it was to do and the work its thread has done. -/
structure Worker (Work : Type) where
  mPromiseToWork : Promise Work
  mShutdown : Bool
  pc : WorkerPc Work
  provided : List Work
  executed : List Work

namespace Worker

variable {Work : Type}

/-- The constructor; `mShutdown` is taken to start false. -/
def new : Worker Work :=
  { mPromiseToWork := .new, mShutdown := false, pc := .top, provided := [], executed := [] }

def provideWork (w : Worker Work) (work : Work) : Worker Work × Except FutureError Unit :=
  let w := { w with provided := w.provided ++ [work] }
  match w.mPromiseToWork.setValue work with
  | .error what => (w, .error what)
  | .ok promise => ({ w with mPromiseToWork := promise }, .ok ())

/-- One step of the thread, if it is not blocked. An exception that leaves it terminates it. -/
def threadEntryPoint (w : Worker Work) (throws : Bool) : Option (Worker Work) :=
  match w.pc with
  | .top =>
    if w.mShutdown then some { w with pc := .returned }
    else
      match w.mPromiseToWork.getFuture with
      | .error _ => some { w with pc := .terminated }
      | .ok promise => some { w with mPromiseToWork := promise, pc := .waiting }
  | .waiting => w.mPromiseToWork.value.map fun work => { w with pc := .running work }
  | .running work =>
    some { w with
      executed := w.executed ++ [work]
      pc := if throws then .terminated else .top }
  | .returned => none
  | .terminated => none

/-- The thread waits for work. -/
def Blocked (w : Worker Work) : Prop := w.pc = .waiting ∧ w.mPromiseToWork.value = none

end Worker

/-- A pool of `n` workers; `calls` are the calls of `addWork` between the lock and `provideWork`,
and `threw` says that one has thrown. -/
structure WorkerPool (Work : Type) (n : ℕ) where
  mWorkers : Fin n → Worker Work
  mCurrentWorker : Fin n
  calls : List (Fin n × Work)
  threw : Bool

namespace WorkerPool

variable {Work : Type} {n : ℕ}

def new (nbWorkers : ℤ) : Except String (WorkerPool Work nbWorkers.toNat) :=
  if h : nbWorkers ≤ 0 then .error "Number of workers must be greater than 0"
  else
    .ok { mWorkers := fun _ => .new, mCurrentWorker := ⟨0, by omega⟩, calls := [], threw := false }

/-- `mCurrentWorker++`, and back to the first worker behind the last. -/
def next (worker : Fin n) : Fin n :=
  if h : worker + 1 ≥ n then ⟨0, worker.pos⟩ else ⟨worker + 1, by omega⟩

/-- `addWork` under the lock. -/
def addWork (s : WorkerPool Work n) (work : Work) : WorkerPool Work n :=
  { s with
    mCurrentWorker := next s.mCurrentWorker
    calls := s.calls ++ [(s.mCurrentWorker, work)] }

/-- `addWork` behind the lock. -/
def provideWork (s : WorkerPool Work n) (worker : Fin n) (work : Work) : WorkerPool Work n :=
  let (w, result) := (s.mWorkers worker).provideWork work
  { s with
    mWorkers := Function.update s.mWorkers worker w
    threw :=
      match result with
      | .error _ => true
      | .ok () => s.threw }

inductive Action (Work : Type) (n : ℕ)
  | addWork (work : Work)
  | provideWork (call : ℕ)
  | thread (worker : Fin n) (throws : Bool)

def step (s : WorkerPool Work n) : Action Work n → Option (WorkerPool Work n)
  | .addWork work => some (s.addWork work)
  | .provideWork call =>
    s.calls[call]?.map fun (worker, work) =>
      { s with calls := s.calls.eraseIdx call }.provideWork worker work
  | .thread worker throws =>
    ((s.mWorkers worker).threadEntryPoint throws).map fun w =>
      { s with mWorkers := Function.update s.mWorkers worker w }

end WorkerPool

end C11Http.Workers
