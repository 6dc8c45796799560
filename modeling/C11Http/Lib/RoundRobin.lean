import Mathlib.Data.Int.CardIntervalMod

/-! # Dealing in turn

`dealt n m` are the first `m` deals among `n` players: the number of the deal and the player it
goes to. The player of the next deal is found by counting up and going back to the first behind the
last (`wrap_mod`).

* `share_dealt`: how many of `m` deals a player has got;
* `share_dealt_le`: never more than one more than any other. -/

namespace C11Http.Lib.RoundRobin

/-- The first `m` deals among `n` players. -/
def dealt (n m : ℕ) : List (ℕ × ℕ) := (List.range m).map fun k => (k, k % n)

/-- How many of the deals went to player `i`. -/
def share (i : ℕ) (deals : List (ℕ × ℕ)) : ℕ := (deals.map Prod.snd).count i

@[simp] theorem dealt_zero (n : ℕ) : dealt n 0 = [] := rfl

theorem dealt_succ (n m : ℕ) : dealt n (m + 1) = dealt n m ++ [(m, m % n)] := by
  unfold dealt
  rw [List.range_succ, List.map_append]
  rfl

theorem mem_dealt {n m : ℕ} {e : ℕ × ℕ} : e ∈ dealt n m ↔ e.1 < m ∧ e.2 = e.1 % n := by
  unfold dealt
  rw [List.mem_map]
  constructor
  · rintro ⟨k, hk, rfl⟩
    exact ⟨List.mem_range.mp hk, rfl⟩
  · rintro ⟨hk, he⟩
    exact ⟨e.1, List.mem_range.mpr hk, Prod.ext rfl he.symm⟩

/-- **Counting up and going back to the first** finds the player of the next deal. -/
theorem wrap_mod {n : ℕ} (hn : 0 < n) (k : ℕ) :
    (if k % n + 1 ≥ n then 0 else k % n + 1) = (k + 1) % n := by
  have hlt := Nat.mod_lt k hn
  rw [Nat.add_mod k 1 n]
  split_ifs with hge
  · have hlast : k % n + 1 = n := by omega
    rcases Nat.lt_or_ge 1 n with h1 | h1
    · rw [Nat.mod_eq_of_lt h1, hlast, Nat.mod_self]
    · have hone : n = 1 := by omega
      subst hone
      exact (Nat.mod_one _).symm
  · have h1 : 1 < n := by omega
    have hlast : k % n + 1 < n := by omega
    rw [Nat.mod_eq_of_lt h1, Nat.mod_eq_of_lt hlast]

/-- A player's share is a number of residues. -/
theorem share_dealt_eq_count {n i : ℕ} (hi : i < n) (m : ℕ) :
    share i (dealt n m) = m.count (· ≡ i [MOD n]) := by
  have hiff : ∀ k : ℕ, k % n = i ↔ k ≡ i [MOD n] := by
    intro k
    unfold Nat.ModEq
    rw [Nat.mod_eq_of_lt hi]
  induction m with
  | zero => rfl
  | succ m ih =>
    unfold share at ih ⊢
    rw [dealt_succ, List.map_append, List.count_append, ih, Nat.count_succ, List.map_singleton,
      List.count_singleton]
    simp only [beq_iff_eq, hiff]

theorem share_dealt {n i : ℕ} (hi : i < n) (m : ℕ) :
    share i (dealt n m) = m / n + if i < m % n then 1 else 0 := by
  have hn : 0 < n := by omega
  rw [share_dealt_eq_count hi, Nat.count_modEq_card m hn i, Nat.mod_eq_of_lt hi]

/-- **The shares differ by at most one.** -/
theorem share_dealt_le {n i j : ℕ} (hi : i < n) (hj : j < n) (m : ℕ) :
    share i (dealt n m) ≤ share j (dealt n m) + 1 := by
  rw [share_dealt hi, share_dealt hj]
  split_ifs <;> omega

end C11Http.Lib.RoundRobin
