import Mathlib.Data.List.Basic

/-! # Stores and loads of byte ranges

A memory is a function from addresses. `store m a xs` has `xs` from the address `a` on, `load m a n`
are the `n` elements from `a` on, and `fill m a x n` puts `x` into all of them.

What a load finds is decided by the last store that touches its range: itself
(`load_store_self`), none of it (`load_store_disjoint`), or a fill that covers it
(`load_fill_of_le`). -/

namespace C11Http.Lib.Memory

variable {β : Type*} (m : ℕ → β)

def store (a : ℕ) (xs : List β) : ℕ → β := fun i => if a ≤ i then xs[i - a]?.getD (m i) else m i

def load (a n : ℕ) : List β := (List.range n).map fun k => m (a + k)

def fill (a : ℕ) (x : β) (n : ℕ) : ℕ → β := store m a (List.replicate n x)

@[simp] theorem length_load (a n : ℕ) : (load m a n).length = n := by
  unfold load
  rw [List.length_map, List.length_range]

theorem getElem_load {a n k : ℕ} (h : k < (load m a n).length) : (load m a n)[k] = m (a + k) := by
  simp only [load, List.getElem_map, List.getElem_range]

theorem store_of_lt {a i : ℕ} (xs : List β) (h : i < a) : store m a xs i = m i :=
  if_neg (by omega)

theorem store_of_ge {a i : ℕ} {xs : List β} (h : a + xs.length ≤ i) : store m a xs i = m i := by
  have hnone : xs[i - a]? = none := List.getElem?_eq_none (by omega)
  unfold store
  rw [if_pos (by omega), hnone]
  rfl

theorem store_add {a k : ℕ} {xs : List β} (h : k < xs.length) : store m a xs (a + k) = xs[k] := by
  have hk : a + k - a = k := by omega
  unfold store
  rw [if_pos (by omega), hk, List.getElem?_eq_getElem h]
  rfl

/-- **What has been stored is loaded.** -/
theorem load_store_self (a : ℕ) {n : ℕ} {xs : List β} (h : xs.length = n) :
    load (store m a xs) a n = xs := by
  subst h
  refine List.ext_getElem (length_load _ _ _) fun k hk hk' => ?_
  rw [getElem_load, store_add m hk']

/-- **A store beside the range** does not change what is loaded. -/
theorem load_store_disjoint {a n b : ℕ} {xs : List β} (h : a + n ≤ b ∨ b + xs.length ≤ a) :
    load (store m b xs) a n = load m a n := by
  unfold load
  refine List.map_congr_left fun k hk => ?_
  have hk := List.mem_range.mp hk
  rcases h with h | h
  · exact store_of_lt m xs (by omega)
  · exact store_of_ge m (by omega)

/-- **A fill over the range** is all that is loaded. -/
theorem load_fill_of_le {a n b k : ℕ} (x : β) (hb : b ≤ a) (hk : a + n ≤ b + k) :
    load (fill m b x k) a n = List.replicate n x := by
  refine List.ext_getElem (by simp) fun i hi hi' => ?_
  have hi : i < n := by simpa using hi'
  have hadd : a + i = b + (a + i - b) := by omega
  have hlen : a + i - b < (List.replicate k x).length := by
    rw [List.length_replicate]
    omega
  rw [getElem_load, hadd, fill, store_add m hlen, List.getElem_replicate, List.getElem_replicate]

end C11Http.Lib.Memory
