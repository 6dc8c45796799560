import Mathlib.Tactic.Basic

/-! # One-shot promises

`std::promise` as far as its shared state goes: a value that can be set once, and a future that can
be taken once. A second attempt throws (`setValue_of_some`, `getFuture_of_retrieved`). -/

namespace C11Http.Lib

/-- `std::future_errc`. -/
inductive FutureError
  | promiseAlreadySatisfied
  | futureAlreadyRetrieved
  deriving DecidableEq

structure Promise (α : Type*) where
  value : Option α
  retrieved : Bool

namespace Promise

variable {α : Type*}

def new : Promise α := { value := none, retrieved := false }

def setValue (p : Promise α) (a : α) : Except FutureError (Promise α) :=
  match p.value with
  | none => .ok { p with value := some a }
  | some _ => .error .promiseAlreadySatisfied

/-- The future shares the state of the promise. -/
def getFuture (p : Promise α) : Except FutureError (Promise α) :=
  if p.retrieved then .error .futureAlreadyRetrieved else .ok { p with retrieved := true }

variable {p : Promise α}

theorem setValue_of_none (h : p.value = none) (a : α) :
    p.setValue a = .ok { p with value := some a } := by
  unfold setValue
  rw [h]

/-- **A value is set once.** -/
theorem setValue_of_some {b : α} (h : p.value = some b) (a : α) :
    p.setValue a = .error .promiseAlreadySatisfied := by
  unfold setValue
  rw [h]

theorem getFuture_of_new (h : p.retrieved = false) :
    p.getFuture = .ok { p with retrieved := true } := by
  unfold getFuture
  rw [h, if_neg Bool.false_ne_true]

/-- **A future is taken once.** -/
theorem getFuture_of_retrieved (h : p.retrieved = true) :
    p.getFuture = .error .futureAlreadyRetrieved := by
  unfold getFuture
  rw [if_pos h]

end Promise

end C11Http.Lib
