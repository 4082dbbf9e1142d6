import Mathlib.Logic.Function.Basic

set_option autoImplicit false

/-- A component that answers each call with a list of outputs. -/
abbrev Transducer (σ ι ω : Type) := σ → ι → σ × List ω

namespace Transducer

variable {σ ι ω : Type} (T : Transducer σ ι ω)

/-- The state after a sequence of calls, and all their outputs. -/
def run : σ → List ι → σ × List ω
  | state, [] => (state, [])
  | state, call :: rest =>
      let (next, first) := T state call
      let (final, later) := run next rest
      (final, first ++ later)

theorem run_append (state : σ) (calls more : List ι) :
    T.run state (calls ++ more) =
      ((T.run (T.run state calls).1 more).1,
        (T.run state calls).2 ++ (T.run (T.run state calls).1 more).2) := by
  induction calls generalizing state with
  | nil => rfl
  | cons call rest ih => simp only [List.cons_append, run, ih, List.append_assoc]

theorem run_singleton (state : σ) (call : ι) : T.run state [call] = T state call := by
  simp only [run, List.append_nil]

section Joined

variable {μ P : Type}

/-- The messages among the outputs of a sequence of calls. -/
def told (tells : ω → Option μ) (state : σ) (calls : List ι) : List μ :=
  (T.run state calls).2.filterMap tells

theorem told_append (tells : ω → Option μ) (state : σ) (calls more : List ι) :
    T.told tells state (calls ++ more) =
      T.told tells state calls ++ T.told tells (T.run state calls).1 more := by
  rw [told, run_append, List.filterMap_append]
  rfl

variable [DecidableEq P]

/-- How a group of components hear one another: what a call hears, what an output tells,
whom each of them hears, and which calls are made at all. -/
structure Hearing (P ι ω μ : Type) where
  hears : ι → Option μ
  tells : ω → Option μ
  reaches : P → P → Prop
  allowed : ι → Prop

/-- The calls that the components of a group have had so far. A call may hear whatever a
component that reaches it has told by then: any of it, any number of times, in any order. -/
inductive Joined (g : Hearing P ι ω μ) (init : P → σ) : (P → List ι) → Prop
  | start : Joined g init fun _ => []
  | call {calls : P → List ι} (earlier : Joined g init calls) (p : P) (call : ι)
      (allowed : g.allowed call)
      (heard : ∀ m, g.hears call = some m →
        ∃ q, g.reaches q p ∧ m ∈ T.told g.tells (init q) (calls q)) :
      Joined g init (Function.update calls p (calls p ++ [call]))

variable {T} {g : Hearing P ι ω μ} {init : P → σ}

/-- Several calls of one component, which hear only what others have told before. -/
theorem Joined.calls {calls : P → List ι} (joined : T.Joined g init calls) (p : P)
    (apart : ∀ q, g.reaches q p → q ≠ p) (more : List ι) (allowed : ∀ call ∈ more, g.allowed call)
    (heard : ∀ call ∈ more, ∀ m, g.hears call = some m →
      ∃ q, g.reaches q p ∧ m ∈ T.told g.tells (init q) (calls q)) :
    T.Joined g init (Function.update calls p (calls p ++ more)) := by
  induction more generalizing calls with
  | nil =>
      rw [List.append_nil, Function.update_eq_self]
      exact joined
  | cons first rest ih =>
      have next := joined.call p first (allowed first (by simp)) (heard first (by simp))
      have later := ih next (fun call mem => allowed call (by simp [mem])) (by
        intro call mem m hears
        obtain ⟨q, reaches, told⟩ := heard call (by simp [mem]) m hears
        refine ⟨q, reaches, ?_⟩
        rw [Function.update_of_ne (apart q reaches)]
        exact told)
      rw [Function.update_self, Function.update_idem, List.append_assoc] at later
      exact later

end Joined

end Transducer
