import Mathlib.Data.List.Basic
import Mathlib.Order.OrderIsoNat

/-!
# ProcCtrld.Lts

Labelled transition systems given by an executable step function `step : σ → ℓ → Option σ`
(`none` means that the label is not possible in that state).

* `run`   — runs a list of labels.
* `Reach` — the states reached from `s₀` by steps that all meet a guard. The guard that is always
  true gives every reachable state.
* `Reach.invariant` — the induction rule: what holds at `s₀` and is kept by every guarded step
  holds in every state so reached.
* `forall_states_iff_forall_steps` — when the guard is exactly what a step needs in order to keep
  a property, the property holds along a run if and only if every step of the run meets the guard.
* `stepsAll_congr` — guards that agree on the steps of a run are met by the same runs.
* `length_add_le_of_stepsAll` — when every guarded step lowers a measure, a run of them is no longer
  than the measure at its start.
* `no_infinite_run` — and there is no infinite run of them, in whatever well-founded order they lower it.
-/

namespace Lts

variable {σ ℓ : Type*} {step : σ → ℓ → Option σ} {guard : σ → ℓ → Prop} {s₀ s s' : σ}

/-- Runs the labels in order. -/
def run (step : σ → ℓ → Option σ) : σ → List ℓ → Option σ
  | s, [] => some s
  | s, l :: ls =>
    match step s l with
    | some s' => run step s' ls
    | none => none

/-- The step function restricted to the steps that meet the guard. -/
def guarded (guard : σ → ℓ → Prop) [∀ s l, Decidable (guard s l)] (step : σ → ℓ → Option σ)
    (s : σ) (l : ℓ) : Option σ :=
  if guard s l then step s l else none

/-- The states reached from `s₀` by steps that all meet `guard`. -/
inductive Reach (step : σ → ℓ → Option σ) (guard : σ → ℓ → Prop) (s₀ : σ) : σ → Prop where
  | init : Reach step guard s₀ s₀
  | step {s s' : σ} {l : ℓ} :
      Reach step guard s₀ s → guard s l → step s l = some s' → Reach step guard s₀ s'

/-- Every state that a run of the system reaches. -/
abbrev Reachable (step : σ → ℓ → Option σ) (s₀ : σ) : σ → Prop := Reach step (fun _ _ => True) s₀

theorem Reach.mono {guard' : σ → ℓ → Prop} (h : ∀ s l, guard s l → guard' s l)
    (hr : Reach step guard s₀ s) : Reach step guard' s₀ s := by
  induction hr with
  | init => exact .init
  | step _ hg hs ih => exact .step ih (h _ _ hg) hs

theorem Reach.reachable (hr : Reach step guard s₀ s) : Reachable step s₀ s :=
  hr.mono fun _ _ _ => trivial

/-- The induction rule. The step obligation may also use that its first state is reached. -/
theorem Reach.invariant {P : σ → Prop} (h₀ : P s₀)
    (hstep : ∀ s l s', Reach step guard s₀ s → P s → guard s l → step s l = some s' → P s')
    (hr : Reach step guard s₀ s) : P s := by
  induction hr with
  | init => exact h₀
  | step hr hg hs ih => exact hstep _ _ _ hr ih hg hs

theorem reach_of_run_from [∀ s l, Decidable (guard s l)] {ls : List ℓ}
    (hr : Reach step guard s₀ s) (h : run (guarded guard step) s ls = some s') :
    Reach step guard s₀ s' := by
  induction ls generalizing s with
  | nil => simp only [run, Option.some.injEq] at h; subst h; exact hr
  | cons l ls ih =>
    simp only [run] at h
    split at h
    · rename_i s1 hs1
      simp only [guarded] at hs1
      split at hs1
      · rename_i hg; exact ih (.step hr hg hs1) h
      · cases hs1
    · cases h

theorem reach_of_run [∀ s l, Decidable (guard s l)] {ls : List ℓ}
    (h : run (guarded guard step) s₀ ls = some s) : Reach step guard s₀ s :=
  reach_of_run_from .init h

theorem reachable_of_run {ls : List ℓ} (h : run step s₀ ls = some s) : Reachable step s₀ s := by
  have hstep : guarded (fun _ _ => True) step = step := by funext s l; simp [guarded]
  have h' : run (guarded (fun _ _ => True) step) s₀ ls = some s := by rw [hstep]; exact h
  exact reach_of_run h'

theorem exists_of_run_map {ls : List ℓ} {p : σ → Bool} (h : (run step s₀ ls).map p = some true) :
    ∃ s, run step s₀ ls = some s ∧ p s = true := by
  cases hr : run step s₀ ls with
  | none => simp [hr] at h
  | some s => exact ⟨s, rfl, by simpa [hr] using h⟩

/-! ## Properties that hold exactly while a guard is met -/

/-- `P` holds in every state of the run of the labels. -/
def StatesAll (step : σ → ℓ → Option σ) (P : σ → Prop) : σ → List ℓ → Prop
  | s, [] => P s
  | s, l :: ls => P s ∧ ∀ s', step s l = some s' → StatesAll step P s' ls

theorem StatesAll.last {P : σ → Prop} {ls : List ℓ} (h : StatesAll step P s₀ ls)
    (hrun : run step s₀ ls = some s) : P s := by
  induction ls generalizing s₀ with
  | nil => simp only [run, Option.some.injEq] at hrun; subst hrun; exact h
  | cons l ls ih =>
    simp only [run] at hrun
    split at hrun
    · rename_i s1 hs1; exact ih (h.2 s1 hs1) hrun
    · cases hrun

/-- Every step of the run of the labels meets `guard`. -/
def StepsAll (step : σ → ℓ → Option σ) (guard : σ → ℓ → Prop) : σ → List ℓ → Prop
  | _, [] => True
  | s, l :: ls => guard s l ∧ ∀ s', step s l = some s' → StepsAll step guard s' ls

theorem StepsAll.last {ls : List ℓ} {l : ℓ} (h : StepsAll step guard s₀ (ls ++ [l]))
    (hrun : run step s₀ ls = some s) : guard s l := by
  induction ls generalizing s₀ with
  | nil => simp only [run, Option.some.injEq] at hrun; subst hrun; exact h.1
  | cons l' ls ih =>
    simp only [run] at hrun
    split at hrun
    · rename_i s1 hs1; exact ih (h.2 s1 hs1) hrun
    · cases hrun

theorem stepsAll_of_guarded_run [∀ s l, Decidable (guard s l)] {ls : List ℓ}
    (h : (run (guarded guard step) s₀ ls).isSome) : StepsAll step guard s₀ ls := by
  induction ls generalizing s₀ with
  | nil => trivial
  | cons l ls ih =>
    simp only [run, guarded] at h
    split at h
    · rename_i s1 hs1
      split at hs1
      · rename_i hg
        refine ⟨hg, fun s2 hs2 => ?_⟩
        rw [hs1] at hs2; cases hs2
        exact ih h
      · cases hs1
    · simp at h

/-- Guards that agree on every step from the states of an invariant are met by the same runs. -/
theorem stepsAll_congr {J : σ → Prop} {guard' : σ → ℓ → Prop}
    (hkeep : ∀ s l s', J s → step s l = some s' → J s')
    (hiff : ∀ s l s', J s → step s l = some s' → (guard s l ↔ guard' s l))
    {ls : List ℓ} (h₀ : J s₀) (hrun : (run step s₀ ls).isSome) :
    StepsAll step guard s₀ ls ↔ StepsAll step guard' s₀ ls := by
  induction ls generalizing s₀ with
  | nil => exact Iff.rfl
  | cons l ls ih =>
    simp only [run] at hrun
    split at hrun
    · rename_i s1 hs1
      simp only [StepsAll, hs1, Option.some.injEq, forall_eq']
      rw [hiff s₀ l s1 h₀ hs1, ih (hkeep s₀ l s1 h₀ hs1) hrun]
    · simp at hrun

theorem stepsAll_congr_of_step {guard' : σ → ℓ → Prop}
    (hiff : ∀ s l s', step s l = some s' → (guard s l ↔ guard' s l)) {ls : List ℓ}
    (hrun : (run step s₀ ls).isSome) : StepsAll step guard s₀ ls ↔ StepsAll step guard' s₀ ls :=
  stepsAll_congr (J := fun _ => True) (fun _ _ _ _ _ => trivial) (fun s l s' _ hs => hiff s l s' hs) trivial hrun

/-- If guarded steps keep `J` and `J` gives `P`, then `P` holds along every run of guarded steps. -/
theorem statesAll_of_stepsAll {J P : σ → Prop} (hP : ∀ s, J s → P s)
    (hkeep : ∀ s l s', J s → guard s l → step s l = some s' → J s') {ls : List ℓ} (h₀ : J s₀)
    (h : StepsAll step guard s₀ ls) : StatesAll step P s₀ ls := by
  induction ls generalizing s₀ with
  | nil => exact hP s₀ h₀
  | cons l ls ih => exact ⟨hP s₀ h₀, fun s1 hs1 => ih (hkeep s₀ l s1 h₀ h.1 hs1) (h.2 s1 hs1)⟩

/-- If guarded steps keep `J`, `J` gives `P`, and an unguarded step from a `J`-state always breaks
`P`, then `P` holds along a complete run exactly when every step of it meets the guard. -/
theorem forall_states_iff_forall_steps {J P : σ → Prop} (hP : ∀ s, J s → P s)
    (hkeep : ∀ s l s', J s → guard s l → step s l = some s' → J s')
    (hsharp : ∀ s l s', J s → ¬ guard s l → step s l = some s' → ¬ P s')
    {ls : List ℓ} (h₀ : J s₀) (hrun : (run step s₀ ls).isSome) :
    StatesAll step P s₀ ls ↔ StepsAll step guard s₀ ls := by
  induction ls generalizing s₀ with
  | nil => exact ⟨fun _ => trivial, fun _ => hP s₀ h₀⟩
  | cons l ls ih =>
    simp only [run] at hrun
    split at hrun
    · rename_i s1 hs1
      simp only [StatesAll, StepsAll, hs1, Option.some.injEq, forall_eq']
      by_cases hg : guard s₀ l
      · rw [ih (hkeep s₀ l s1 h₀ hg hs1) hrun]
        exact ⟨fun h => ⟨hg, h.2⟩, fun h => ⟨hP s₀ h₀, h.2⟩⟩
      · have hbad := hsharp s₀ l s1 h₀ hg hs1
        refine ⟨fun h => absurd ?_ hbad, fun h => absurd h.1 hg⟩
        -- the first state of the rest of the run is the one the step broke
        cases ls with
        | nil => exact h.2
        | cons m ms => exact h.2.1
    · simp at hrun

theorem StepsAll.keeps {J : σ → Prop} (hkeep : ∀ s l s', J s → guard s l → step s l = some s' → J s')
    {ls : List ℓ} (h₀ : J s₀) (h : StepsAll step guard s₀ ls) (hrun : run step s₀ ls = some s) : J s :=
  (statesAll_of_stepsAll (fun _ hJ => hJ) hkeep h₀ h).last hrun

/-- If guarded steps keep `J` and lower `f`, a run of them is as long as it lowers `f`, at most. -/
theorem length_add_le_of_stepsAll {J : σ → Prop} {f : σ → Nat}
    (hkeep : ∀ s l s', J s → guard s l → step s l = some s' → J s' ∧ f s' < f s) {ls : List ℓ} (h₀ : J s₀)
    (h : StepsAll step guard s₀ ls) (hrun : run step s₀ ls = some s) : ls.length + f s ≤ f s₀ := by
  induction ls generalizing s₀ with
  | nil =>
    simp only [run, Option.some.injEq] at hrun
    subst hrun
    simp
  | cons l ls ih =>
    simp only [run] at hrun
    split at hrun
    · rename_i s1 hs1
      obtain ⟨hJ, hlt⟩ := hkeep s₀ l s1 h₀ h.1 hs1
      have hle := ih hJ (h.2 s1 hs1) hrun
      rw [List.length_cons]
      omega
    · cases hrun

/-- If guarded steps keep `J` and lower `f` in a well-founded order, they come to an end. -/
theorem no_infinite_run {α : Type*} [Preorder α] [WellFoundedLT α] {J : σ → Prop} {f : σ → α}
    (hkeep : ∀ s l s', J s → guard s l → step s l = some s' → J s' ∧ f s' < f s) (h₀ : J s₀) :
    ¬ ∃ r : ℕ → σ, r 0 = s₀ ∧ ∀ n, ∃ l, guard (r n) l ∧ step (r n) l = some (r (n + 1)) := by
  rintro ⟨r, rfl, hr⟩
  have hJ : ∀ n, J (r n) := by
    intro n
    induction n with
    | zero => exact h₀
    | succ n ih =>
      obtain ⟨l, hg, hs⟩ := hr n
      exact (hkeep _ l _ ih hg hs).1
  refine not_strictAnti_of_wellFoundedLT (f ∘ r) (strictAnti_nat_of_succ_lt fun n => ?_)
  obtain ⟨l, hg, hs⟩ := hr n
  exact (hkeep _ l _ (hJ n) hg hs).2

end Lts
