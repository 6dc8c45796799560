import Mathlib.Data.List.Nodup
import Mathlib.Data.List.Pairwise

/-! # Resources that are released

A log of accesses to resources: a resource is used, or it is released (an object is deleted, a
descriptor is closed). A log is proper if nothing of a resource stands behind its release, neither
a use nor a second release. -/

namespace C11Http.Lib.Release

variable {ρ : Type*}

inductive Access (ρ : Type*)
  | use (r : ρ)
  | release (r : ρ)
  deriving DecidableEq

/-- The resource that is used or released. -/
def Access.subject : Access ρ → ρ
  | .use r => r
  | .release r => r

@[simp] theorem Access.subject_use (r : ρ) : (Access.use r).subject = r := rfl

@[simp] theorem Access.subject_release (r : ρ) : (Access.release r).subject = r := rfl

/-- What an access releases. -/
def Access.released : Access ρ → Option ρ
  | .use _ => none
  | .release r => some r

theorem Access.released_eq_some {a : Access ρ} {r : ρ} : a.released = some r ↔ a = .release r := by
  cases a <;> simp [Access.released]

/-- The resources released in a log, in order. -/
def released (log : List (Access ρ)) : List ρ := log.filterMap Access.released

@[simp] theorem released_nil : released ([] : List (Access ρ)) = [] := rfl

@[simp] theorem released_use_cons (r : ρ) (log : List (Access ρ)) :
    released (.use r :: log) = released log := rfl

@[simp] theorem released_release_cons (r : ρ) (log : List (Access ρ)) :
    released (.release r :: log) = r :: released log := rfl

@[simp] theorem released_append (log log' : List (Access ρ)) :
    released (log ++ log') = released log ++ released log' := List.filterMap_append

@[simp] theorem released_map_use (rs : List ρ) : released (rs.map Access.use) = [] := by
  induction rs with
  | nil => rfl
  | cons r rs ih => rw [List.map_cons, released_use_cons, ih]

@[simp] theorem released_map_release (rs : List ρ) : released (rs.map Access.release) = rs := by
  induction rs with
  | nil => rfl
  | cons r rs ih => rw [List.map_cons, released_release_cons, ih]

theorem mem_released {log : List (Access ρ)} {r : ρ} : r ∈ released log ↔ .release r ∈ log := by
  unfold released
  rw [List.mem_filterMap]
  constructor
  · rintro ⟨a, ha, har⟩
    exact Access.released_eq_some.mp har ▸ ha
  · intro h
    exact ⟨_, h, rfl⟩

/-- **Nothing stands behind the release of a resource.** -/
def Proper (log : List (Access ρ)) : Prop :=
  log.Pairwise fun a b => ∀ r, a = .release r → b.subject ≠ r

instance [DecidableEq ρ] (log : List (Access ρ)) : Decidable (Proper log) :=
  decidable_of_iff (log.Pairwise fun a b => a.released ≠ some b.subject)
    (List.Pairwise.iff fun a b => by
      rw [Ne, Access.released_eq_some]
      constructor
      · rintro h r ha rfl
        exact h ha
      · intro h ha
        exact h _ ha rfl)

theorem proper_nil : Proper ([] : List (Access ρ)) := List.Pairwise.nil

theorem proper_append {log log' : List (Access ρ)} : Proper (log ++ log') ↔
    Proper log ∧ Proper log' ∧ ∀ a ∈ log', a.subject ∉ released log := by
  unfold Proper
  rw [List.pairwise_append]
  refine and_congr_right fun _ => and_congr_right fun _ => ?_
  constructor
  · intro h b hb hmem
    exact h _ (mem_released.mp hmem) b hb _ rfl rfl
  · rintro h a ha b hb r rfl rfl
    exact h b hb (mem_released.mpr ha)

/-- Without a release every log is proper. -/
theorem proper_of_released_nil {log : List (Access ρ)} (h : released log = []) : Proper log := by
  refine List.pairwise_iff_forall_sublist.mpr fun {a b} hsub r ha => ?_
  have hmem : r ∈ released log := mem_released.mpr (ha ▸ hsub.subset List.mem_cons_self)
  rw [h] at hmem
  cases hmem

/-- Resources are used that have not been released. -/
theorem Proper.uses {log : List (Access ρ)} (h : Proper log) {rs : List ρ}
    (hrs : ∀ r ∈ rs, r ∉ released log) : Proper (log ++ rs.map Access.use) := by
  refine proper_append.mpr ⟨h, proper_of_released_nil (released_map_use rs), fun a ha => ?_⟩
  obtain ⟨r, hr, rfl⟩ := List.mem_map.mp ha
  exact hrs r hr

/-- A resource is used that has not been released. -/
theorem Proper.use {log : List (Access ρ)} (h : Proper log) {r : ρ} (hr : r ∉ released log) :
    Proper (log ++ [.use r]) := by
  have hone : Proper (log ++ [r].map Access.use) := h.uses fun r' hmem => by
    rw [List.mem_singleton.mp hmem]
    exact hr
  exact hone

/-- A resource is released that has not been released. -/
theorem Proper.release {log : List (Access ρ)} (h : Proper log) {r : ρ} (hr : r ∉ released log) :
    Proper (log ++ [.release r]) := by
  refine proper_append.mpr ⟨h, List.pairwise_singleton _ _, fun a ha => ?_⟩
  rw [List.mem_singleton.mp ha]
  exact hr

/-- Logs of different resources, one behind the other. -/
theorem proper_flatMap {rs : List ρ} {f : ρ → List (Access ρ)} (h : ∀ r, Proper (f r))
    (hown : ∀ r, ∀ a ∈ f r, a.subject = r) (hnd : rs.Nodup) : Proper (rs.flatMap f) := by
  induction rs with
  | nil => exact proper_nil
  | cons r rs ih =>
    obtain ⟨hr, hnd⟩ := List.nodup_cons.mp hnd
    rw [List.flatMap_cons, proper_append]
    refine ⟨h r, ih hnd, fun a ha hmem => ?_⟩
    obtain ⟨r', hr', ha'⟩ := List.mem_flatMap.mp ha
    have hsub : a.subject = r := hown r (.release a.subject) (mem_released.mp hmem)
    have hself : r' = r := (hown r' a ha').symm.trans hsub
    exact hr (hself ▸ hr')

end C11Http.Lib.Release
