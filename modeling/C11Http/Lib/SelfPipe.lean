import C11Http.Lib.Run

/-! # Self-pipes

A loop that goes round in passes, each begun by a `select`, and that is woken from its `select` by a
byte written into a pipe. `Loop` is a system in which the wakeups are counted; `Loop.watch` runs it
with the pipe itself: how many bytes it holds, what of them has been written since the last `select`
returned, and whether a wakeup has found the pipe full, in which case the writer blocks.

The pipe is read with `recv`, which fails on a descriptor that is no socket and takes nothing. So
the pipe holds a byte for every wakeup of the run (`always_full`), a pass that saw the pipe readable
leaves it undrained (`undrained_last`), and the pipe is drained exactly as long as no pass sees it
readable (`drained_of_unseen`, `unseen_of_drained`). -/

namespace C11Http.Lib.SelfPipe

open Run

variable {σ α : Type*}

/-- `recv` on a pipe that holds `held` bytes: what is left in it, and the result. -/
def recv (held : ℕ) : ℕ × Except String ℕ := (held, .error "Socket operation on non-socket")

/-- A loop woken through a pipe. `sees` is what an action says of the pipe if it is a `select` that
returns, `clears` whether the step from one state to another reads the pipe at its end. -/
structure Loop (σ α : Type*) where
  step : σ → α → Option σ
  wakeups : σ → ℕ
  between : σ → Bool
  sees : σ → α → Option Bool
  clears : σ → α → σ → Bool
  wakeups_le : ∀ {s a t}, step s a = some t → wakeups s ≤ wakeups t
  between_of_sees : ∀ {s a t b}, step s a = some t → sees s a = some b →
    between s = true ∧ between t = false

/-- A loop and its pipe. -/
structure Watched (σ : Type*) where
  state : σ
  held : ℕ
  written : ℕ
  seen : Bool
  blocked : Bool

namespace Loop

variable (l : Loop σ α) (capacity : ℕ)

/-- The bytes that a step from `s` to `t` writes. -/
def writes (s t : σ) : ℕ := l.wakeups t - l.wakeups s

/-- What the pipe holds after a step from `s` to `t`. -/
def heldAfter (held : ℕ) (s : σ) (a : α) (t : σ) : ℕ :=
  if l.clears s a t then (recv (held + l.writes s t)).1 else held + l.writes s t

/-- A step with the pipe: `select` reports a pipe as readable if it holds something, and a wakeup
for which the pipe has no room blocks. -/
def watch (w : Watched σ) (a : α) : Option (Watched σ) :=
  if w.blocked then none
  else
    (l.step w.state a).bind fun t =>
      let held := l.heldAfter w.held w.state a t
      let blocked := decide (capacity < w.held + l.writes w.state t)
      match l.sees w.state a with
      | some readable =>
        if readable = decide (0 < w.held) then
          some { state := t, held := held, written := l.writes w.state t, seen := readable
                 blocked := blocked }
        else none
      | none =>
        some { state := t, held := held, written := w.written + l.writes w.state t
               seen := w.seen, blocked := blocked }

/-- The loop with an empty pipe. -/
def start (s : σ) : Watched σ :=
  { state := s, held := 0, written := 0, seen := false, blocked := false }

/-- After a pass that saw the pipe readable, it holds only what has been written since the `select`
of that pass returned. -/
def Drained (w : Watched σ) : Prop :=
  l.between w.state = true → w.seen = true → w.held ≤ w.written

/-- Fewer wakeups than the pipe has room for since the last `select` returned. -/
def Few (w : Watched σ) : Prop := w.written < capacity

/-- No wakeup has found the pipe full. -/
def Free (w : Watched σ) : Prop := w.blocked = false

/-- The step is not a `select` that sees the pipe readable. -/
def Unseen (w : Watched σ) (a : α) : Prop := l.sees w.state a ≠ some true

instance (w : Watched σ) : Decidable (l.Drained w) := by unfold Drained; infer_instance

instance (w : Watched σ) (a : α) : Decidable (l.Unseen w a) := by unfold Unseen; infer_instance

variable {l capacity} {w v : Watched σ} {a : α}

/-! ### Steps -/

theorem heldAfter_eq (held : ℕ) (s : σ) (a : α) (t : σ) :
    l.heldAfter held s a t = held + l.writes s t := by
  unfold heldAfter recv
  split <;> rfl

/-- **What a step does to the pipe.** -/
theorem watch_some (h : l.watch capacity w a = some v) :
    w.blocked = false ∧ l.step w.state a = some v.state ∧
      v.held = w.held + l.writes w.state v.state ∧ v.blocked = decide (capacity < v.held) ∧
      ((∃ readable, l.sees w.state a = some readable ∧ readable = decide (0 < w.held) ∧
          v.seen = readable ∧ v.written = l.writes w.state v.state) ∨
        l.sees w.state a = none ∧ v.seen = w.seen ∧
          v.written = w.written + l.writes w.state v.state) := by
  unfold watch at h
  split_ifs at h with hb
  obtain ⟨t, ht, h⟩ := Option.bind_eq_some_iff.mp h
  refine ⟨by simpa using hb, ?_⟩
  simp only [heldAfter_eq] at h
  cases hs : l.sees w.state a with
  | none =>
    rw [hs] at h
    cases h
    exact ⟨ht, rfl, rfl, Or.inr ⟨rfl, rfl, rfl⟩⟩
  | some readable =>
    rw [hs] at h
    simp only at h
    split_ifs at h with hr
    cases h
    exact ⟨ht, rfl, rfl, Or.inl ⟨readable, rfl, hr, rfl, rfl⟩⟩

/-- The pipe holds a byte for every wakeup since it was empty in `s`, and the wakeup that is one too
many blocks. -/
def Full (l : Loop σ α) (capacity : ℕ) (s : σ) (w : Watched σ) : Prop :=
  w.held + l.wakeups s = l.wakeups w.state ∧ (w.blocked = true ↔ capacity < w.held)

theorem watch_full {s : σ} (hw : l.Full capacity s w) (h : l.watch capacity w a = some v) :
    l.Full capacity s v := by
  obtain ⟨-, ht, hheld, hblocked, -⟩ := watch_some h
  have hle := l.wakeups_le ht
  have hcount := hw.1
  unfold writes at hheld
  refine ⟨by omega, ?_⟩
  rw [hblocked, decide_eq_true_eq]

/-- **The wakeups of a whole run have to fit the pipe.** -/
theorem always_full (s : σ) (as : List α) :
    Always (l.watch capacity) (l.Full capacity s) (start s) as :=
  always_of_inv (fun _ _ _ hw h => watch_full hw h) as
    ⟨Nat.zero_add _, by simp [start]⟩

/-! ### A pass that sees the pipe readable -/

/-- Once it is seen, what was in the pipe stays there. -/
theorem watch_undrained (hpass : l.between w.state = false) (hs : w.seen = true)
    (hlt : w.written < w.held) (h : l.watch capacity w a = some v) :
    v.seen = true ∧ v.written < v.held := by
  obtain ⟨-, ht, hheld, -, ⟨readable, hsees, -⟩ | ⟨-, hseen, hwritten⟩⟩ := watch_some h
  · have := (l.between_of_sees ht hsees).1
    rw [hpass] at this
    cases this
  · refine ⟨hseen.trans hs, ?_⟩
    omega

/-- **A pass that saw the pipe readable leaves it undrained.** -/
theorem undrained_last : ∀ {as : List α} {w v : Watched σ}, l.between w.state = false →
    w.seen = true → w.written < w.held → run (l.watch capacity) w as = some v →
    l.between v.state = true → ¬ Always (l.watch capacity) l.Drained w as
  | [], w, v, hpass, _, _, hrun, hlast, _ => by
    rw [run_nil, Option.some.injEq] at hrun
    rw [← hrun, hpass] at hlast
    cases hlast
  | a :: as, w, v, hpass, hseen, hlt, hrun, hlast, h => by
    obtain ⟨u, hu, hrun⟩ := run_cons_some hrun
    obtain ⟨hseen', hlt'⟩ := watch_undrained hpass hseen hlt hu
    by_cases hb : l.between u.state = true
    · have hle := (h.2 u hu).first hb hseen'
      omega
    · exact undrained_last (by simpa using hb) hseen' hlt' hrun hlast (h.2 u hu)

/-- In a run that ends between two passes, a pipe that is always drained has never been seen
readable. -/
theorem unseen_of_drained : ∀ {as : List α} {w v : Watched σ},
    run (l.watch capacity) w as = some v → l.between v.state = true →
    Always (l.watch capacity) l.Drained w as → Along (l.watch capacity) l.Unseen w as
  | [], _, _, _, _, _ => trivial
  | a :: as, w, v, hrun, hlast, h => by
    obtain ⟨u, hu, hrun⟩ := run_cons_some hrun
    intro t ht
    obtain rfl : u = t := Option.some.inj (hu.symm.trans ht)
    refine ⟨fun hsees => ?_, unseen_of_drained hrun hlast (h.2 u hu)⟩
    obtain ⟨-, hstep, hheld, -, ⟨readable, hsees', hr, hseen, hwritten⟩ | ⟨hsees', -⟩⟩ :=
      watch_some hu
    · obtain rfl : true = readable := Option.some.inj (hsees.symm.trans hsees')
      have hpos : 0 < w.held := of_decide_eq_true hr.symm
      exact undrained_last (l.between_of_sees hstep hsees).2 hseen (by omega) hrun hlast (h.2 u hu)
    · rw [hsees] at hsees'
      cases hsees'

/-! ### No pass sees the pipe readable -/

/-- The pipe has not been seen readable, and all it holds is new. -/
def New (w : Watched σ) : Prop := w.seen = false ∧ w.held = w.written

theorem new_start (s : σ) : New (start s) := ⟨rfl, rfl⟩

theorem watch_new (hw : New w) (hu : l.Unseen w a) (h : l.watch capacity w a = some v) :
    New v := by
  obtain ⟨-, -, hheld, -, ⟨readable, hsees, hr, hseen, hwritten⟩ | ⟨-, hseen, hwritten⟩⟩ :=
    watch_some h
  · have hf : readable = false := by
      cases readable with
      | false => rfl
      | true => exact absurd hsees hu
    have hzero : ¬ 0 < w.held := of_decide_eq_false (hr.symm.trans hf)
    exact ⟨hseen.trans hf, by omega⟩
  · exact ⟨hseen.trans hw.1, by rw [hheld, hwritten, hw.2]⟩

theorem drained_of_new (hw : New w) : l.Drained w := fun _ hseen => by
  rw [hw.1] at hseen
  cases hseen

/-- **As long as no pass sees the pipe readable**, the pipe is drained. -/
theorem drained_of_unseen {s : σ} {as : List α}
    (h : Along (l.watch capacity) l.Unseen (start s) as) :
    Always (l.watch capacity) l.Drained (start s) as :=
  (always_of_along (fun _ _ _ hw hu ht => watch_new hw hu ht) (new_start s) h).imp
    fun _ => drained_of_new

/-- As long as no pass sees the pipe readable and the wakeups are few, none blocks. -/
theorem free_of_unseen : ∀ {as : List α} {w : Watched σ}, New w → Free w →
    Along (l.watch capacity) l.Unseen w as → Always (l.watch capacity) (Few capacity) w as →
    Always (l.watch capacity) Free w as
  | [], _, _, hfree, _, _ => hfree
  | a :: as, w, hnew, hfree, hu, hfew => by
    refine ⟨hfree, fun t ht => ?_⟩
    have hnew' := watch_new hnew (hu t ht).1 ht
    have hfew' : t.written < capacity := (hfew.2 t ht).first
    have hblocked := (watch_some ht).2.2.2.1
    have hroom : ¬ capacity < t.held := by rw [hnew'.2]; omega
    refine free_of_unseen hnew' ?_ (hu t ht).2 (hfew.2 t ht)
    rw [Free, hblocked, decide_eq_false hroom]

/-- A loop whose pipe is drained, and whose wakeups do not block while they are few. -/
def Wakes (l : Loop σ α) (capacity : ℕ) (w : Watched σ) (as : List α) : Prop :=
  Always (l.watch capacity) l.Drained w as ∧
    (Always (l.watch capacity) (Few capacity) w as → Always (l.watch capacity) Free w as)

theorem wakes_of_unseen {s : σ} {as : List α}
    (h : Along (l.watch capacity) l.Unseen (start s) as) : l.Wakes capacity (start s) as :=
  ⟨drained_of_unseen h, free_of_unseen (new_start s) rfl h⟩

/-- **Over a run that ends between two passes**, the loop wakes as it should exactly if no pass sees
the pipe readable. -/
theorem wakes_iff_unseen {s : σ} {as : List α} {v : Watched σ}
    (hrun : run (l.watch capacity) (start s) as = some v) (hlast : l.between v.state = true) :
    l.Wakes capacity (start s) as ↔ Along (l.watch capacity) l.Unseen (start s) as :=
  ⟨fun h => unseen_of_drained hrun hlast h.1, wakes_of_unseen⟩

end Loop

end C11Http.Lib.SelfPipe
