import Mathlib.Algebra.BigOperators.Group.Finset.Basic

set_option autoImplicit false

/-- Events in their order: event number `i` comes at least `wait i` after the event
before it, which for the first one is `start`. -/
def Spaced {α : Type} (time : α → Nat) (wait : Nat → Nat) (start : α) (events : List α) : Prop :=
  ∀ i before event, (start :: events)[i]? = some before → events[i]? = some event →
    time before + wait i ≤ time event

namespace Spaced

variable {α : Type} {time : α → Nat} {wait : Nat → Nat} {start : α} {events : List α}

theorem nil (start : α) : Spaced time wait start [] := by
  intro i before event _ found
  cases found

/-- One more event, far enough from all the earlier ones. -/
theorem append (spaced : Spaced time wait start events) {event : α}
    (later : ∀ before ∈ start :: events, time before + wait events.length ≤ time event) :
    Spaced time wait start (events ++ [event]) := by
  intro i before next previous found
  rcases Nat.lt_trichotomy i events.length with within | last | beyond
  · rw [← List.cons_append, List.getElem?_append_left (by simp; omega)] at previous
    rw [List.getElem?_append_left within] at found
    exact spaced i before next previous found
  · subst last
    rw [← List.cons_append, List.getElem?_append_left (by simp)] at previous
    rw [List.getElem?_concat_length] at found
    cases found
    exact later before (List.mem_of_getElem? previous)
  · rw [List.getElem?_eq_none (by simp; omega)] at found
    cases found

/-- The waits add up. -/
theorem since (spaced : Spaced time wait start events) {i : Nat} {event : α}
    (found : events[i]? = some event) :
    time start + ∑ j ∈ Finset.range (i + 1), wait j ≤ time event := by
  induction i generalizing event with
  | zero => simpa using spaced 0 start event rfl found
  | succ i ih =>
      obtain ⟨within, _⟩ := List.getElem?_eq_some_iff.mp found
      have previous : events[i]? = some events[i] := List.getElem?_eq_getElem (by omega)
      have earlier := ih previous
      have gap := spaced (i + 1) events[i] event previous found
      rw [Finset.sum_range_succ]
      omega

/-- When all the events are over, so are all their waits. -/
theorem elapsed (spaced : Spaced time wait start events) {now : Nat}
    (past : ∀ event ∈ start :: events, time event ≤ now) :
    time start + ∑ j ∈ Finset.range events.length, wait j ≤ now := by
  cases count : events.length with
  | zero => simpa using past start List.mem_cons_self
  | succ i =>
      have found : events[i]? = some events[i] := List.getElem?_eq_getElem (by omega)
      have last := past _ (List.mem_cons_of_mem _ (List.mem_of_getElem? found))
      exact Nat.le_trans (spaced.since found) last

end Spaced
