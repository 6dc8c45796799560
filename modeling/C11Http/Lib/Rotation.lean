import Mathlib.Data.List.Basic
import Mathlib.Data.List.Induction
import Mathlib.Order.Nat

/-! # Turns in a rotating queue

A queue whose front goes to the end at each rotation; what is then at the front has its turn. In
between things are appended to the queue and erased from it. For one thing in the queue, `waited`
counts the rotations since its turn, and `moved` says that an erasure has brought it to the front,
so that its turn is not that of a rotation.

`Due` bounds what it has waited by its place in the queue. All operations keep it, if no rotation
moves it from the front to the end where an erasure has brought it there (`Due.rotate`). So it never
waits for as many rotations as the queue is ever long (`Due.waited_lt`); in the record of all
rotations, that is a turn in every window of that length (`fair_concat`). -/

namespace C11Http.Lib.Rotation

variable {α : Type*}

/-- The front goes to the end. -/
def rotate : List α → List α
  | [] => []
  | x :: l => l ++ [x]

theorem mem_rotate {c : α} {l : List α} : c ∈ rotate l ↔ c ∈ l := by
  cases l with
  | nil => exact Iff.rfl
  | cons x l => exact (List.perm_append_singleton x l).mem_iff

theorem length_rotate (l : List α) : (rotate l).length = l.length := by
  cases l with
  | nil => rfl
  | cons x l => exact (List.perm_append_singleton x l).length_eq

variable [DecidableEq α]

/-- `c` is at the front. -/
def First (c : α) (l : List α) : Prop := l.head? = some c

instance (c : α) (l : List α) : Decidable (First c l) := by unfold First; infer_instance

theorem first_iff {c : α} {l : List α} (hc : c ∈ l) : First c l ↔ l.idxOf c = 0 := by
  unfold First
  cases l with
  | nil => cases hc
  | cons x l =>
    rw [List.head?_cons, Option.some.injEq]
    constructor
    · rintro rfl
      exact List.idxOf_cons_self
    · intro h
      by_contra hne
      rw [List.idxOf_cons_ne l hne] at h
      cases h

/-- A rotation brings everything but the front one place on. -/
theorem idxOf_rotate {c x : α} {l : List α} (hc : c ∈ l) (hne : x ≠ c) :
    (rotate (x :: l)).idxOf c + 1 = (x :: l).idxOf c := by
  show (l ++ [x]).idxOf c + 1 = _
  rw [List.idxOf_append_of_mem hc, List.idxOf_cons_ne l hne]

theorem idxOf_erase_le {c p : α} (hp : p ≠ c) (l : List α) : (l.erase p).idxOf c ≤ l.idxOf c := by
  induction l with
  | nil => exact le_rfl
  | cons x l ih =>
    by_cases hx : x = p
    · rw [hx, List.erase_cons_head, List.idxOf_cons_ne l hp]
      exact Nat.le_succ _
    · rw [List.erase_cons_tail (by simpa using hx)]
      by_cases hxc : x = c
      · rw [hxc, List.idxOf_cons_self]
        exact Nat.zero_le _
      · rw [List.idxOf_cons_ne _ hxc, List.idxOf_cons_ne _ hxc]
        exact Nat.succ_le_succ ih

/-- **`c` has its turn in time**: it is in a queue of at most `N`, and has waited for no more
rotations than leave enough for those before it; at the front it has just had its turn, or has been
moved there by an erasure. -/
structure Due (N : ℕ) (c : α) (l : List α) (waited : ℕ) (moved : Bool) : Prop where
  mem : c ∈ l
  length : l.length ≤ N
  bound : waited + max 1 (l.idxOf c) ≤ N
  front : l.idxOf c = 0 → moved = false → waited = 0

namespace Due

variable {N waited : ℕ} {c : α} {l : List α} {moved : Bool}

/-- Before the first rotation. -/
theorem start (hc : c ∈ l) (hN : l.length ≤ N) : Due N c l 0 false where
  mem := hc
  length := hN
  bound := by
    have hlt := List.idxOf_lt_length_of_mem hc
    omega
  front _ _ := rfl

theorem waited_lt (h : Due N c l waited moved) : waited < N := by
  have hbound := h.bound
  omega

/-- A rotation that gives `c` its turn. -/
theorem turn (h : Due N c l waited moved) (hfirst : First c (rotate l)) :
    Due N c (rotate l) 0 false where
  mem := mem_rotate.mpr h.mem
  length := (length_rotate l).trans_le h.length
  bound := by
    have hbound := h.bound
    rw [(first_iff (mem_rotate.mpr h.mem)).mp hfirst]
    omega
  front _ _ := rfl

/-- **Any other rotation**, unless an erasure has brought `c` to the front. -/
theorem rotate (h : Due N c l waited moved) (hfirst : ¬ First c (rotate l))
    (hmoved : First c l → moved = false) : Due N c (rotate l) (waited + 1) false := by
  have hmem := mem_rotate.mpr h.mem
  have hidx : (Rotation.rotate l).idxOf c ≠ 0 := fun h0 => hfirst ((first_iff hmem).mpr h0)
  have hlt := List.idxOf_lt_length_of_mem hmem
  have hlen := h.length
  have hbound := h.bound
  rw [length_rotate] at hlt
  refine ⟨hmem, (length_rotate l).trans_le hlen, ?_, fun h0 => absurd h0 hidx⟩
  cases l with
  | nil => cases h.mem
  | cons x rest =>
    by_cases hx : x = c
    · -- it leaves the front for the end
      have h0 : (x :: rest).idxOf c = 0 := List.idxOf_cons_eq rest hx
      have hwaited := h.front h0 (hmoved ((first_iff h.mem).mpr h0))
      omega
    · have hrest : c ∈ rest := (List.mem_cons.mp h.mem).resolve_left fun he => hx he.symm
      have hstep := idxOf_rotate hrest hx
      omega

theorem append (h : Due N c l waited moved) (x : α) (hN : (l ++ [x]).length ≤ N) :
    Due N c (l ++ [x]) waited moved where
  mem := List.mem_append_left _ h.mem
  length := hN
  bound := by
    rw [List.idxOf_append_of_mem h.mem]
    exact h.bound
  front := by
    rw [List.idxOf_append_of_mem h.mem]
    exact h.front

/-- An erasure may bring `c` to the front. -/
theorem erase (h : Due N c l waited moved) {p : α} (hp : p ≠ c) {moved' : Bool}
    (hmoved : moved' = false → moved = false ∧ (First c (l.erase p) → First c l)) :
    Due N c (l.erase p) waited moved' := by
  have hmem : c ∈ l.erase p := (List.mem_erase_of_ne hp.symm).mpr h.mem
  have hle := idxOf_erase_le hp l
  have hbound := h.bound
  refine ⟨hmem, (List.length_erase_le).trans h.length, by omega, fun h0 hm => ?_⟩
  obtain ⟨hnot, hfirst⟩ := hmoved hm
  exact h.front ((first_iff h.mem).mp (hfirst ((first_iff hmem).mpr h0))) hnot

end Due

/-! ### The record of the rotations -/

/-- The rotations since the last turn. -/
def idle (turns : List Bool) : ℕ := (turns.reverse.takeWhile (!·)).length

@[simp] theorem idle_concat (turns : List Bool) (b : Bool) :
    idle (turns ++ [b]) = if b then 0 else idle turns + 1 := by
  unfold idle
  rw [List.reverse_concat]
  cases b with
  | true => rfl
  | false => rfl

/-- Rotations up to now without a turn. -/
theorem length_le_idle {turns ys : List Bool} (h : ys <:+ turns) (hno : true ∉ ys) :
    ys.length ≤ idle turns := by
  induction turns using List.reverseRecOn generalizing ys with
  | nil =>
    rw [List.suffix_nil.mp h]
    exact Nat.zero_le _
  | append_singleton turns b ih =>
    rcases List.suffix_concat_iff.mp h with rfl | ⟨zs, rfl, hzs⟩
    · exact Nat.zero_le _
    · rw [List.mem_append, List.mem_singleton, not_or] at hno
      have hb : b = false := by simpa using Ne.symm hno.2
      have hle := ih hzs hno.1
      rw [hb, idle_concat, List.length_append]
      exact Nat.succ_le_succ hle

/-- Among any `N` consecutive rotations one is a turn. -/
def Fair (N : ℕ) (turns : List Bool) : Prop :=
  ∀ ys, ys <:+: turns → ys.length = N → true ∈ ys

theorem fair_nil {N : ℕ} (hN : 0 < N) : Fair N [] := by
  intro ys hys hlen
  rw [List.infix_nil.mp hys] at hlen
  exact absurd hlen hN.ne

/-- **A record stays fair** as long as the last turn is not `N` rotations ago. -/
theorem fair_concat {N : ℕ} {turns : List Bool} {b : Bool} (h : Fair N turns)
    (hidle : idle (turns ++ [b]) < N) : Fair N (turns ++ [b]) := by
  intro ys hys hlen
  rcases List.infix_concat_iff.mp hys with hsuf | hin
  · by_contra hno
    have hle := length_le_idle hsuf hno
    omega
  · exact h ys hin hlen

end C11Http.Lib.Rotation
