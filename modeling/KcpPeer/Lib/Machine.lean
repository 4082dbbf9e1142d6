import Mathlib.Logic.Basic

set_option autoImplicit false

/-- A labelled machine. Every choice the environment makes is part of the label,
so a step is a function; a label that is not enabled has no successor. -/
structure Machine (σ ℓ : Type) where
  start : σ
  step : σ → ℓ → Option σ

namespace Machine

variable {σ ℓ : Type} {M : Machine σ ℓ}

/-- The states at the end of a run all of whose steps meet `guard`, a condition
on the state before the step and on the step's label. -/
inductive Reach (M : Machine σ ℓ) (guard : σ → ℓ → Prop) : σ → Prop
  | start : Reach M guard M.start
  | step {before after : σ} {label : ℓ} (reached : Reach M guard before)
      (allowed : guard before label) (taken : M.step before label = some after) :
      Reach M guard after

/-- The same machine, started in a state it may have reached. -/
def startingAt (M : Machine σ ℓ) (state : σ) : Machine σ ℓ := { M with start := state }

/-- The condition that excludes no step. -/
def always : σ → ℓ → Prop := fun _ _ => True

instance (state : σ) (label : ℓ) : Decidable (always state label) := isTrue trivial

theorem Reach.invariant {guard : σ → ℓ → Prop} {P : σ → Prop} (base : P M.start)
    (keep : ∀ before label after, P before → guard before label →
      M.step before label = some after → P after)
    {state : σ} (reached : M.Reach guard state) : P state := by
  induction reached with
  | start => exact base
  | step _ allowed taken ih => exact keep _ _ _ ih allowed taken

/-- A step may also use an invariant already known of every reached state. -/
theorem Reach.invariant_with {guard : σ → ℓ → Prop} {P Q : σ → Prop}
    (known : ∀ state, M.Reach guard state → Q state) (base : P M.start)
    (keep : ∀ before label after, P before → Q before → guard before label →
      M.step before label = some after → P after)
    {state : σ} (reached : M.Reach guard state) : P state := by
  induction reached with
  | start => exact base
  | step earlier allowed taken ih =>
      exact keep _ _ _ ih (known _ earlier) allowed taken

/-- Runs a list of labels, stopping at one that is not enabled or fails `guard`. -/
def exec (M : Machine σ ℓ) (guard : σ → ℓ → Prop) [∀ state label, Decidable (guard state label)] :
    σ → List ℓ → Option σ
  | state, [] => some state
  | state, label :: rest =>
      if guard state label then (M.step state label).bind fun next => exec M guard next rest
      else none

/-- Where every allowed step from a state with the invariant makes `rank` smaller, a
run is no longer than the rank it uses up. -/
theorem exec_length_le {guard : σ → ℓ → Prop} [∀ state label, Decidable (guard state label)]
    {P : σ → Prop} {rank : σ → Nat}
    (falls : ∀ before label after, P before → guard before label →
      M.step before label = some after → P after ∧ rank after < rank before)
    {before after : σ} (labels : List ℓ) (holds : P before)
    (ran : M.exec guard before labels = some after) :
    P after ∧ labels.length + rank after ≤ rank before := by
  induction labels generalizing before with
  | nil =>
      simp only [Machine.exec, Option.some.injEq] at ran
      exact ran ▸ ⟨holds, by simp only [List.length_nil, Nat.zero_add, Nat.le_refl]⟩
  | cons label rest ih =>
      simp only [Machine.exec] at ran
      split at ran
      · rename_i allowed
        obtain ⟨next, taken, ran⟩ := Option.bind_eq_some_iff.mp ran
        obtain ⟨holds', less⟩ := falls before label next holds allowed taken
        obtain ⟨final, bound⟩ := ih holds' ran
        rw [List.length_cons]
        exact ⟨final, by omega⟩
      · cases ran

/-- What an observer notes along a run: at every step it sees the state before the step
and the step's label. -/
def observed {ω : Type} (M : Machine σ ℓ) (observe : σ → ℓ → List ω) : σ → List ℓ → List ω
  | _, [] => []
  | state, label :: rest =>
      observe state label ++
        match M.step state label with
        | some next => observed M observe next rest
        | none => []

/-- An invariant of the state and of what an observer has noted so far. -/
theorem exec_observed {ω : Type} {observe : σ → ℓ → List ω} {guard : σ → ℓ → Prop}
    [∀ state label, Decidable (guard state label)] {P : σ → List ω → Prop}
    (keep : ∀ before label after noted, P before noted → guard before label →
      M.step before label = some after → P after (noted ++ observe before label))
    {before after : σ} {noted : List ω} (labels : List ℓ) (holds : P before noted)
    (ran : M.exec guard before labels = some after) :
    P after (noted ++ M.observed observe before labels) := by
  induction labels generalizing before noted with
  | nil =>
      simp only [Machine.exec, Option.some.injEq] at ran
      rw [observed, List.append_nil]
      exact ran ▸ holds
  | cons label rest ih =>
      simp only [Machine.exec] at ran
      split at ran
      · rename_i allowed
        obtain ⟨next, taken, ran⟩ := Option.bind_eq_some_iff.mp ran
        have later := ih (keep before label next noted holds allowed taken) ran
        rw [List.append_assoc] at later
        simp only [observed, taken]
        exact later
      · cases ran

/-- A run of labels that ensure more than `exec` decides. -/
theorem Reach.exec {weak guard : σ → ℓ → Prop} [∀ state label, Decidable (weak state label)]
    (labels : List ℓ) (ensures : ∀ label ∈ labels, ∀ state, weak state label → guard state label)
    {before after : σ} (reached : M.Reach guard before)
    (ran : M.exec weak before labels = some after) : M.Reach guard after := by
  induction labels generalizing before with
  | nil =>
      simp only [Machine.exec, Option.some.injEq] at ran
      exact ran ▸ reached
  | cons label rest ih =>
      simp only [Machine.exec] at ran
      split at ran
      · rename_i allowed
        obtain ⟨next, taken, ran⟩ := Option.bind_eq_some_iff.mp ran
        refine ih (fun label mem => ensures label (List.mem_cons_of_mem _ mem)) ?_ ran
        exact .step reached (ensures label List.mem_cons_self _ allowed) taken
      · cases ran

/-- A run that ends in a state with a decided property. -/
theorem Reach.exec_ensured {weak : σ → ℓ → Prop} [∀ state label, Decidable (weak state label)]
    (guard : σ → ℓ → Prop) {check : σ → Bool} (labels : List ℓ)
    (ran : (M.exec weak M.start labels).any check = true)
    (ensures : ∀ label ∈ labels, ∀ state, weak state label → guard state label) :
    ∃ state, M.Reach guard state ∧ check state = true := by
  obtain ⟨state, final, checked⟩ := (Option.any_eq_true ..).mp ran
  exact ⟨state, Reach.exec labels ensures .start final, checked⟩

theorem Reach.exec_any {guard : σ → ℓ → Prop} [∀ state label, Decidable (guard state label)]
    {check : σ → Bool} (labels : List ℓ)
    (ran : (M.exec guard M.start labels).any check = true) :
    ∃ state, M.Reach guard state ∧ check state = true :=
  exec_ensured guard labels ran fun _ _ _ allowed => allowed

/-- A forward simulation carries guarded runs of one machine to guarded runs of
another: every step is matched by a run of the second machine, possibly empty. -/
theorem Reach.simulate {τ κ : Type} {N : Machine τ κ} {guard : σ → ℓ → Prop}
    {guard' : τ → κ → Prop} (R : σ → τ → Prop) (base : R M.start N.start)
    (keep : ∀ before label after image, M.Reach guard before → N.Reach guard' image →
      R before image → guard before label → M.step before label = some after →
      ∃ image', N.Reach guard' image' ∧ R after image')
    {state : σ} (reached : M.Reach guard state) :
    ∃ image, N.Reach guard' image ∧ R state image := by
  induction reached with
  | start => exact ⟨N.start, .start, base⟩
  | step earlier allowed taken ih =>
      obtain ⟨image, imageReached, related⟩ := ih
      exact keep _ _ _ image earlier imageReached related allowed taken

end Machine
