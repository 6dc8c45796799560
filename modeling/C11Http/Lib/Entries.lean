import Mathlib.Data.List.InsertIdx
import Mathlib.Data.List.Nodup
import Mathlib.Logic.Function.Basic

/-! # The entries of a partial function

`Entries f l` says that the list `l` has the entries of the partial function `f`, each key once. An
entry that comes in is appended (`Entries.append`), and one that goes is erased from its place
(`Entries.erase`). -/

namespace C11Http.Lib

/-- `l` is the entries of `f`, in some order. -/
structure Entries {κ ν : Type*} (f : κ → Option ν) (l : List (κ × ν)) : Prop where
  nodup : (l.map Prod.fst).Nodup
  mem : ∀ k v, (k, v) ∈ l ↔ f k = some v

namespace Entries

variable {κ ν : Type*} {f : κ → Option ν} {l : List (κ × ν)} {k : κ} {v : ν}

theorem nil : Entries (fun _ : κ => (none : Option ν)) [] where
  nodup := List.nodup_nil
  mem k v := ⟨fun h => absurd h List.not_mem_nil, fun h => by cases h⟩

theorem notMem (h : Entries f l) (hk : f k = none) : k ∉ l.map Prod.fst := by
  intro hin
  obtain ⟨⟨d, v⟩, hv, rfl⟩ := List.mem_map.mp hin
  have hd := (h.mem d v).mp hv
  rw [hk] at hd
  cases hd

/-- A key stands at one place. -/
theorem place_inj (h : Entries f l) {i j : ℕ} {v w : ν} (hi : l[i]? = some (k, v))
    (hj : l[j]? = some (k, w)) : i = j := by
  have hkey : ∀ {m : ℕ} {u : ν}, l[m]? = some (k, u) → (l.map Prod.fst)[m]? = some k := by
    intro m u hm
    rw [List.getElem?_map, hm]
    rfl
  have hlt : i < (l.map Prod.fst).length := (List.getElem?_eq_some_iff.mp (hkey hi)).1
  exact (List.getElem?_inj hlt h.nodup).mp ((hkey hi).trans (hkey hj).symm)

variable [DecidableEq κ]

theorem append (h : Entries f l) (hk : f k = none) :
    Entries (Function.update f k (some v)) (l ++ [(k, v)]) where
  nodup := by
    rw [List.map_append]
    refine h.nodup.append (List.nodup_singleton k) ?_
    rw [List.map_singleton, List.disjoint_singleton]
    exact h.notMem hk
  mem d w := by
    rw [List.mem_append, List.mem_singleton]
    rcases eq_or_ne d k with rfl | hd
    · rw [Function.update_self, Option.some.injEq]
      have hnot : (d, w) ∉ l := fun hin => h.notMem hk (List.mem_map.mpr ⟨_, hin, rfl⟩)
      rw [or_iff_right hnot, Prod.mk.injEq, eq_comm (a := w)]
      exact and_iff_right rfl
    · rw [Function.update_of_ne hd, ← h.mem]
      exact or_iff_left fun he => hd (congrArg Prod.fst he)

theorem erase (h : Entries f l) (hk : f k = some v) :
    ∃ i, l[i]? = some (k, v) ∧ Entries (Function.update f k none) (l.eraseIdx i) := by
  obtain ⟨i, hi⟩ := List.getElem?_of_mem ((h.mem k v).mpr hk)
  refine ⟨i, hi, ⟨?_, fun d w => ?_⟩⟩
  · rw [← List.eraseIdx_map]
    exact h.nodup.eraseIdx i
  · rw [List.mem_eraseIdx_iff_getElem?]
    rcases eq_or_ne d k with rfl | hd
    · rw [Function.update_self]
      refine iff_of_false ?_ (fun hw => by cases hw)
      rintro ⟨j, hne, hj⟩
      exact hne (h.place_inj hj hi)
    · rw [Function.update_of_ne hd, ← h.mem]
      constructor
      · rintro ⟨j, -, hj⟩
        exact List.mem_of_getElem? hj
      · intro hin
        obtain ⟨j, hj⟩ := List.getElem?_of_mem hin
        refine ⟨j, ?_, hj⟩
        rintro rfl
        rw [hi, Option.some.injEq] at hj
        exact hd (congrArg Prod.fst hj).symm

end Entries

end C11Http.Lib
