import Mathlib.Tactic.Basic
import Mathlib.Data.List.Infix

/-! # Runs of a partial step function

A system is a step function `step : σ → α → Option σ`: the action carries every choice of the
environment, and `none` means that the action is not possible in the state. `run` follows a list of
actions, `Always P` says that `P` holds at every state the run goes through, `Along R` that `R`
holds of every step it takes (of the state before the step and of the action).

* `always_of_along`: what one step preserves, a run preserves;
* `along_of_last`: what a step violates and no later step repairs is seen in the last state;
* `length_filter_add_le_of_rank`: a rank that some actions lower bounds how many of them there are;
* `rel_of_run`: what relates each state to the next relates the last to the first;
* `exists_run_of_simulation`: a run whose steps are matched one by one is matched as a whole;
* `always_iff_along`: if one step from a good state ends in a good state exactly when `R` holds of
  it, then a run stays good exactly when `R` holds along it. -/

namespace C11Http.Lib.Run

variable {σ α : Type*} (step : σ → α → Option σ)

/-- The state after a list of actions, `none` if one of them is not possible. -/
def run : σ → List α → Option σ
  | s, [] => some s
  | s, a :: as => (step s a).bind fun t => run t as

/-- `P` holds at every state of the run, the first and the last included. -/
def Always (P : σ → Prop) : σ → List α → Prop
  | s, [] => P s
  | s, a :: as => P s ∧ ∀ t, step s a = some t → Always P t as

/-- `R` holds of every step of the run. -/
def Along (R : σ → α → Prop) : σ → List α → Prop
  | _, [] => True
  | s, a :: as => ∀ t, step s a = some t → R s a ∧ Along R t as

variable {step}

@[simp] theorem run_nil (s : σ) : run step s [] = some s := rfl

@[simp] theorem run_cons (s : σ) (a : α) (as : List α) :
    run step s (a :: as) = (step s a).bind fun t => run step t as := rfl

theorem run_cons_some {s u : σ} {a : α} {as : List α} (h : run step s (a :: as) = some u) :
    ∃ t, step s a = some t ∧ run step t as = some u := by
  rw [run_cons] at h
  exact Option.bind_eq_some_iff.mp h

theorem run_append (as bs : List α) (s : σ) :
    run step s (as ++ bs) = (run step s as).bind fun t => run step t bs := by
  induction as generalizing s with
  | nil => rfl
  | cons a as ih =>
    rw [List.cons_append, run_cons, run_cons, Option.bind_assoc]
    congr 1
    funext t
    exact ih t

/-- A run on fixed inputs and what can be decided of its last state. -/
theorem exists_run (step : σ → α → Option σ) (s : σ) (as : List α) (P : σ → Prop)
    [DecidablePred P] (h : (run step s as).any (fun t => decide (P t)) = true) :
    ∃ t, run step s as = some t ∧ P t := by
  cases hr : run step s as with
  | none => rw [hr] at h; cases h
  | some t =>
    rw [hr] at h
    exact ⟨t, rfl, of_decide_eq_true h⟩

/-! ### Every state of a run -/

theorem Always.first {P : σ → Prop} {s : σ} : ∀ {as : List α}, Always step P s as → P s
  | [], h => h
  | _ :: _, h => h.1

theorem Always.last {P : σ → Prop} : ∀ {as : List α} {s t : σ}, Always step P s as →
    run step s as = some t → P t
  | [], s, t, h, hr => by
    rw [run_nil, Option.some.injEq] at hr
    exact hr ▸ h
  | a :: as, s, t, h, hr => by
    obtain ⟨u, hu, hr⟩ := run_cons_some hr
    exact (h.2 u hu).last hr

theorem Always.imp {P Q : σ → Prop} (hPQ : ∀ s, P s → Q s) :
    ∀ {as : List α} {s : σ}, Always step P s as → Always step Q s as
  | [], s, h => hPQ s h
  | _ :: _, s, h => ⟨hPQ s h.1, fun t ht => (h.2 t ht).imp hPQ⟩

/-! ### Every step of a run -/

theorem along_of_forall {R : σ → α → Prop} (h : ∀ s a, R s a) :
    ∀ (as : List α) (s : σ), Along step R s as
  | [], _ => trivial
  | a :: as, s => fun t _ => ⟨h s a, along_of_forall h as t⟩

theorem Along.right {R : σ → α → Prop} {as bs : List α} :
    ∀ {s t : σ}, Along step R s (as ++ bs) → run step s as = some t → Along step R t bs := by
  induction as with
  | nil =>
    intro s t h hrun
    rw [run_nil, Option.some.injEq] at hrun
    exact hrun ▸ h
  | cons a as ih =>
    intro s t h hrun
    obtain ⟨u, hu, hrun⟩ := run_cons_some hrun
    exact ih (h u hu).2 hrun

theorem Along.left {R : σ → α → Prop} {as bs : List α} :
    ∀ {s : σ}, Along step R s (as ++ bs) → Along step R s as := by
  induction as with
  | nil => exact fun _ => trivial
  | cons a as ih => exact fun h t ht => ⟨(h t ht).1, ih (h t ht).2⟩

/-- What the states of a run imply of the steps it takes. -/
theorem Always.along {P : σ → Prop} {R : σ → α → Prop}
    (hPR : ∀ s a t, P s → step s a = some t → R s a) :
    ∀ {as : List α} {s : σ}, Always step P s as → Along step R s as
  | [], _, _ => trivial
  | a :: _, s, h => fun t ht => ⟨hPR s a t h.1 ht, (h.2 t ht).along hPR⟩

/-- What holds of every action holds of every step. -/
theorem Along.with_mem {R : σ → α → Prop} {Q : α → Prop} :
    ∀ {as : List α} {s : σ}, Along step R s as → (∀ a ∈ as, Q a) →
      Along step (fun s a => R s a ∧ Q a) s as
  | [], _, _, _ => trivial
  | a :: _, _, h, hQ => fun t ht => ⟨⟨(h t ht).1, hQ a List.mem_cons_self⟩,
      (h t ht).2.with_mem fun b hb => hQ b (List.mem_cons_of_mem a hb)⟩

instance decidableAlong {R : σ → α → Prop} [∀ s a, Decidable (R s a)] :
    ∀ (s : σ) (as : List α), Decidable (Along step R s as)
  | _, [] => .isTrue trivial
  | s, a :: as =>
    match h : step s a with
    | none => .isTrue fun t ht => by rw [h] at ht; cases ht
    | some t =>
      let _ := decidableAlong (R := R) t as
      decidable_of_iff (R s a ∧ Along step R t as)
        ⟨fun hR u hu => by rw [h, Option.some.injEq] at hu; exact hu ▸ hR, fun hR => hR t h⟩

/-! ### Invariants -/

/-- **What a step preserves while `R` holds of it, a run preserves while `R` holds along it.** -/
theorem always_of_along {P : σ → Prop} {R : σ → α → Prop}
    (hstep : ∀ s a t, P s → R s a → step s a = some t → P t) :
    ∀ {as : List α} {s : σ}, P s → Along step R s as → Always step P s as
  | [], _, hs, _ => hs
  | a :: _, s, hs, h =>
    ⟨hs, fun t ht => always_of_along hstep (hstep s a t hs (h t ht).1 ht) (h t ht).2⟩

/-- An invariant of the step function holds at every state of every run. -/
theorem always_of_inv {P : σ → Prop} (hstep : ∀ s a t, P s → step s a = some t → P t)
    (as : List α) {s : σ} (hs : P s) : Always step P s as :=
  always_of_along (R := fun _ _ => True) (fun s a t h _ ht => hstep s a t h ht) hs
    (along_of_forall (fun _ _ => trivial) as s)

/-- **Exactness, from one step to a run, while `Q` holds along it.** `I` is an invariant of the
steps that keep `P`; if a step from a state with `I` and `P` keeps `P` exactly when `R` holds of it,
then `P` holds at every state of a run exactly when `R` holds of every step. -/
theorem always_iff_along_while {I P : σ → Prop} {Q R : σ → α → Prop}
    (hinv : ∀ s a t, I s → P s → Q s a → step s a = some t → P t → I t)
    (hstep : ∀ s a t, I s → P s → Q s a → step s a = some t → (P t ↔ R s a)) :
    ∀ (as : List α) {s : σ}, I s → P s → Along step Q s as →
      (Always step P s as ↔ Along step R s as)
  | [], _, _, hP, _ => ⟨fun _ => trivial, fun _ => hP⟩
  | a :: as, s, hI, hP, hQ => by
    constructor
    · rintro ⟨-, h⟩ t ht
      have hPt := (h t ht).first
      have hIt := hinv s a t hI hP (hQ t ht).1 ht hPt
      exact ⟨(hstep s a t hI hP (hQ t ht).1 ht).mp hPt,
        (always_iff_along_while hinv hstep as hIt hPt (hQ t ht).2).mp (h t ht)⟩
    · intro h
      refine ⟨hP, fun t ht => ?_⟩
      have hPt := (hstep s a t hI hP (hQ t ht).1 ht).mpr (h t ht).1
      have hIt := hinv s a t hI hP (hQ t ht).1 ht hPt
      exact (always_iff_along_while hinv hstep as hIt hPt (hQ t ht).2).mpr (h t ht).2

/-- The same for every run. -/
theorem always_iff_along {I P : σ → Prop} {R : σ → α → Prop}
    (hinv : ∀ s a t, I s → P s → step s a = some t → P t → I t)
    (hstep : ∀ s a t, I s → P s → step s a = some t → (P t ↔ R s a)) (as : List α) {s : σ}
    (hI : I s) (hP : P s) : Always step P s as ↔ Along step R s as :=
  always_iff_along_while (Q := fun _ _ => True)
    (fun s a t hI hP _ ht => hinv s a t hI hP ht) (fun s a t hI hP _ ht => hstep s a t hI hP ht) as
    hI hP (along_of_forall (fun _ _ => trivial) as s)

/-- **A violation that stays is seen at the end**: if a step outside of `R` ends in `J`, and `J` is
never left again, then a run that does not end in `J` satisfies `R` in every step. -/
theorem along_of_last {J : σ → Prop} {R : σ → α → Prop}
    (hbad : ∀ s a t, step s a = some t → ¬ R s a → J t)
    (hkeep : ∀ s a t, J s → step s a = some t → J t) :
    ∀ {as : List α} {s u : σ}, run step s as = some u → ¬ J u → Along step R s as
  | [], _, _, _, _ => trivial
  | a :: as, s, u, hrun, hu => by
    obtain ⟨t, ht, hrun⟩ := run_cons_some hrun
    have hJ : ¬ J t := fun hJ =>
      hu ((always_of_inv hkeep as hJ).last hrun)
    intro t' ht'
    obtain rfl := Option.some.inj (ht.symm.trans ht')
    exact ⟨by_contra fun hR => hJ (hbad s a t ht hR), along_of_last hbad hkeep hrun hu⟩

/-- **A rank that some actions lower** and no other raises bounds how many of them a run takes. -/
theorem length_filter_add_le_of_rank {I : σ → Prop} {rank : σ → ℕ} {counts : α → Bool}
    (hstep : ∀ s a t, I s → step s a = some t →
      I t ∧ (if counts a then 1 else 0) + rank t ≤ rank s) :
    ∀ {as : List α} {s u : σ}, I s → run step s as = some u →
      (as.filter counts).length + rank u ≤ rank s
  | [], s, u, _, hrun => by
    rw [run_nil, Option.some.injEq] at hrun
    rw [hrun, List.filter_nil, List.length_nil, Nat.zero_add]
  | a :: as, s, u, hs, hrun => by
    obtain ⟨t, ht, hrun⟩ := run_cons_some hrun
    obtain ⟨hI, hle⟩ := hstep s a t hs ht
    have hrest := length_filter_add_le_of_rank hstep hI hrun
    rw [List.filter_cons]
    split_ifs at hle ⊢
    · rw [List.length_cons]
      omega
    · omega

/-- **A rank that every step lowers** bounds the length of the runs. -/
theorem length_add_le_of_rank {I : σ → Prop} {rank : σ → ℕ}
    (hstep : ∀ s a t, I s → step s a = some t → I t ∧ rank t < rank s) {as : List α} {s u : σ}
    (hs : I s) (hrun : run step s as = some u) : as.length + rank u ≤ rank s := by
  have hlower : ∀ s a t, I s → step s a = some t →
      I t ∧ (if true then 1 else 0) + rank t ≤ rank s := by
    intro s a t hI ht
    obtain ⟨hI', hlt⟩ := hstep s a t hI ht
    exact ⟨hI', by rw [if_pos rfl]; omega⟩
  have hall := length_filter_add_le_of_rank hlower hs hrun
  rwa [List.filter_true] at hall

/-- **What relates each state to the next** relates the last state to the first. -/
theorem rel_of_run {I : σ → Prop} {R : σ → σ → Prop} (hrefl : ∀ s, R s s)
    (htrans : ∀ s t u, R s t → R t u → R s u)
    (hstep : ∀ s a t, I s → step s a = some t → I t ∧ R s t) :
    ∀ {as : List α} {s u : σ}, I s → run step s as = some u → R s u
  | [], s, u, _, hrun => by
    rw [run_nil, Option.some.injEq] at hrun
    exact hrun ▸ hrefl s
  | a :: as, s, u, hs, hrun => by
    obtain ⟨t, ht, hrun⟩ := run_cons_some hrun
    obtain ⟨hI, hR⟩ := hstep s a t hs ht
    exact htrans s t u hR (rel_of_run hrefl htrans hstep hI hrun)

/-! ### Simulation -/

/-- **A run is matched by a run** of another system, if from related states each of its steps is
matched by a run of the other, the empty one included, to related states. -/
theorem exists_run_of_simulation {τ β : Type*} {step' : τ → β → Option τ} {R : σ → τ → Prop}
    (hstep : ∀ s a t s', R s s' → step s a = some t →
      ∃ bs t', run step' s' bs = some t' ∧ R t t') :
    ∀ {as : List α} {s t : σ} {s' : τ}, R s s' → run step s as = some t →
      ∃ bs t', run step' s' bs = some t' ∧ R t t'
  | [], s, t, s', hR, hrun => by
    rw [run_nil, Option.some.injEq] at hrun
    exact ⟨[], s', rfl, hrun ▸ hR⟩
  | a :: as, s, t, s', hR, hrun => by
    obtain ⟨u, hu, hrun⟩ := run_cons_some hrun
    obtain ⟨bs, u', hbs, hRu⟩ := hstep s a u s' hR hu
    obtain ⟨cs, t', hcs, hRt⟩ := exists_run_of_simulation hstep hRu hrun
    refine ⟨bs ++ cs, t', ?_, hRt⟩
    rw [run_append, hbs]
    exact hcs

end C11Http.Lib.Run
