import Mathlib.Data.List.Basic

/-! # Removing from a vector in place

`removeIf p xs` is what `std::remove_if` leaves of a vector of plain values: the elements without
`p` moved to the front in their order, the old contents in the slots behind them, and the length of
the front part, which is the position the algorithm returns.

* `removeIf_of_forall`: nothing is moved if no element has `p`;
* `removeIf_append`: if just one element has `p`, the slot at the returned position holds the *last*
  element of the old vector. -/

namespace C11Http.Lib.RemoveIf

variable {α : Type*} (p : α → Bool)

/-- The elements that stay. -/
def kept (xs : List α) : List α := xs.filter fun x => !p x

/-- The vector and the position `std::remove_if` leaves. -/
def removeIf (xs : List α) : List α × ℕ :=
  (kept p xs ++ xs.drop (kept p xs).length, (kept p xs).length)

variable {p}

theorem kept_sublist (xs : List α) : (kept p xs).Sublist xs := List.filter_sublist

theorem kept_of_forall {xs : List α} (h : ∀ x ∈ xs, p x = false) : kept p xs = xs := by
  unfold kept
  rw [List.filter_eq_self]
  intro x hx
  simp [h x hx]

/-- If no element has `p`, the vector stays and the position is its end. -/
theorem removeIf_of_forall {xs : List α} (h : ∀ x ∈ xs, p x = false) :
    removeIf p xs = (xs, xs.length) := by
  unfold removeIf
  rw [kept_of_forall h, List.drop_length, List.append_nil]

theorem kept_append {xs ys : List α} {x : α} (hx : p x = true) (hxs : ∀ y ∈ xs, p y = false)
    (hys : ∀ y ∈ ys, p y = false) : kept p (xs ++ x :: ys) = xs ++ ys := by
  have h1 := kept_of_forall hxs
  have h2 := kept_of_forall hys
  unfold kept at *
  rw [List.filter_append, List.filter_cons_of_neg (by simp [hx]), h1, h2]

/-- Behind the elements that stay is the last element of the old vector. -/
theorem drop_length_append (xs ys : List α) (x : α) :
    (xs ++ x :: ys).drop (xs ++ ys).length = [(x :: ys).getLast (by simp)] := by
  rw [List.length_append, ← List.drop_drop, List.drop_append_length]
  rcases ys with _ | ⟨y, ys⟩
  · rfl
  · have hlast : (x :: y :: ys).getLast (by simp) = (y :: ys).getLast (by simp) :=
      List.getLast_cons (by simp)
    rw [List.drop_length_cons (by simp), hlast]

/-- **One element with `p`**: the others move up, and the slot behind them, at the returned
position, still holds the last element of the old vector. -/
theorem removeIf_append {xs ys : List α} {x : α} (hx : p x = true) (hxs : ∀ y ∈ xs, p y = false)
    (hys : ∀ y ∈ ys, p y = false) :
    removeIf p (xs ++ x :: ys) =
      (xs ++ ys ++ [(x :: ys).getLast (by simp)], (xs ++ ys).length) := by
  unfold removeIf
  rw [kept_append hx hxs hys, drop_length_append]

end C11Http.Lib.RemoveIf
