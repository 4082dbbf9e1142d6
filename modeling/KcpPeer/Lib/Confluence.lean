import Mathlib.Data.List.Perm.Basic

set_option autoImplicit false

/-- A step for each of several keys. From states with the invariant `I`, the steps of two
different keys may be exchanged up to `R`, a relation that every step respects. -/
structure Confluent {σ κ : Type} (step : σ → κ → σ) (I : σ → Prop) (R : σ → σ → Prop) :
    Prop where
  refl : ∀ s, R s s
  trans : ∀ {s s' s''}, R s s' → R s' s'' → R s s''
  keep : ∀ {s} key, I s → I (step s key)
  congr : ∀ {s s'} key, I s → I s' → R s s' → R (step s key) (step s' key)
  exchange : ∀ {s key key'}, I s → key ≠ key' →
    R (step (step s key) key') (step (step s key') key)

namespace Confluent

variable {σ κ : Type} {step : σ → κ → σ} {I : σ → Prop} {R : σ → σ → Prop}

theorem foldl_keep (confluent : Confluent step I R) (keys : List κ) {s : σ} (holds : I s) :
    I (keys.foldl step s) := by
  induction keys generalizing s with
  | nil => exact holds
  | cons key rest ih => exact ih (confluent.keep key holds)

theorem foldl_congr (confluent : Confluent step I R) (keys : List κ) {s s' : σ} (holds : I s)
    (holds' : I s') (related : R s s') : R (keys.foldl step s) (keys.foldl step s') := by
  induction keys generalizing s s' with
  | nil => exact related
  | cons key rest ih =>
      exact ih (confluent.keep key holds) (confluent.keep key holds')
        (confluent.congr key holds holds' related)

/-- Steps of different keys may be taken in any order. -/
theorem foldl_perm (confluent : Confluent step I R) {keys keys' : List κ} (perm : keys.Perm keys')
    (nodup : keys.Nodup) {s : σ} (holds : I s) : R (keys.foldl step s) (keys'.foldl step s) := by
  induction perm generalizing s with
  | nil => exact confluent.refl s
  | cons key _ ih => exact ih (List.nodup_cons.mp nodup).2 (confluent.keep key holds)
  | swap first second rest =>
      have other : second ≠ first := by
        rintro rfl
        exact (List.nodup_cons.mp nodup).1 List.mem_cons_self
      exact confluent.foldl_congr rest (confluent.keep first (confluent.keep second holds))
        (confluent.keep second (confluent.keep first holds)) (confluent.exchange holds other)
  | trans left _ ihLeft ihRight =>
      exact confluent.trans (ihLeft nodup holds) (ihRight (left.nodup_iff.mp nodup) holds)

end Confluent

/-- Two lists that agree on the entries of each kind have the same entries. -/
theorem List.perm_of_filter_eq {α β : Type} [DecidableEq α] [DecidableEq β] (kind : α → β)
    {left right : List α}
    (same : ∀ k, right.filter (fun a => decide (kind a = k)) =
      left.filter (fun a => decide (kind a = k))) : right.Perm left := by
  rw [List.perm_iff_count]
  intro a
  have kept : ∀ l : List α, (l.filter fun b => decide (kind b = kind a)).count a = l.count a :=
    fun l => List.count_filter (decide_eq_true rfl)
  rw [← kept right, ← kept left, same]

/-- Where two stretches of different kinds come in the other order, the entries of each
kind still come in theirs. -/
theorem List.filter_exchange {α β : Type} [DecidableEq β] (kind : α → β) {first second : List α}
    {k₁ k₂ : β} (ofFirst : ∀ a ∈ first, kind a = k₁) (ofSecond : ∀ a ∈ second, kind a = k₂)
    (other : k₁ ≠ k₂) (before : List α) (k : β) :
    (before ++ second ++ first).filter (fun a => decide (kind a = k)) =
      (before ++ first ++ second).filter (fun a => decide (kind a = k)) := by
  simp only [List.filter_append, List.append_assoc]
  by_cases isFirst : k₁ = k
  · have none : second.filter (fun a => decide (kind a = k)) = [] := by
      rw [List.filter_eq_nil_iff]
      intro a mem
      rw [ofSecond a mem, ← isFirst]
      simpa using other.symm
    rw [none, List.nil_append, List.append_nil]
  · have none : first.filter (fun a => decide (kind a = k)) = [] := by
      rw [List.filter_eq_nil_iff]
      intro a mem
      rw [ofFirst a mem]
      simpa using isFirst
    rw [none, List.nil_append, List.append_nil]
