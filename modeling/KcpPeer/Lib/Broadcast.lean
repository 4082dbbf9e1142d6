import Mathlib.Data.List.Basic

set_option autoImplicit false

/-- A bounded broadcast channel: the newest values, oldest first, and the number of
values ever sent. A full channel forgets its oldest value. -/
structure Broadcast (α : Type) where
  capacity : Nat
  buffer : List α
  sent : Nat
  bounded : buffer.length ≤ capacity
  counted : buffer.length ≤ sent

/-- What a receiver is told: a value, that it has missed some, or that there is none. -/
inductive Received (α : Type) where
  | value (a : α)
  | lagged (missed : Nat)
  | empty
  deriving DecidableEq, Repr

def Received.value? {α : Type} : Received α → Option α
  | .value a => some a
  | .lagged _ | .empty => none

namespace Broadcast

variable {α : Type}

def channel (capacity : Nat) : Broadcast α where
  capacity := capacity
  buffer := []
  sent := 0
  bounded := Nat.zero_le _
  counted := Nat.le_refl _

def send (c : Broadcast α) (a : α) : Broadcast α where
  capacity := c.capacity
  buffer := (c.buffer ++ [a]).drop (c.buffer.length + 1 - c.capacity)
  sent := c.sent + 1
  bounded := by
    have bounded := c.bounded
    simp only [List.length_drop, List.length_append, List.length_singleton]
    omega
  counted := by
    have counted := c.counted
    simp only [List.length_drop, List.length_append, List.length_singleton]
    omega

/-- A new receiver starts behind everything that was sent before. -/
def subscribe (c : Broadcast α) : Nat := c.sent

def oldest (c : Broadcast α) : Nat := c.sent - c.buffer.length

/-- A receiver that has fallen behind the buffer is told how far, and goes on at the
oldest value held. -/
def receive (c : Broadcast α) (cursor : Nat) : Nat × Received α :=
  if cursor < c.oldest then (c.oldest, .lagged (c.oldest - cursor))
  else
    match c.buffer[cursor - c.oldest]? with
    | some a => (cursor + 1, .value a)
    | none => (cursor, .empty)

/-- The channel holds what it should after these values were sent. -/
structure Carries (c : Broadcast α) (history : List α) : Prop where
  sent : c.sent = history.length
  buffer : c.buffer = history.drop (history.length - c.capacity)

theorem carries_channel (capacity : Nat) : (channel capacity : Broadcast α).Carries [] where
  sent := rfl
  buffer := List.drop_nil.symm

namespace Carries

variable {c : Broadcast α} {history : List α}

theorem send (carries : c.Carries history) (a : α) : (c.send a).Carries (history ++ [a]) where
  sent := by
    simp only [Broadcast.send, carries.sent, List.length_append, List.length_singleton]
  buffer := by
    have forgotten : (c.buffer ++ [a]) = (history ++ [a]).drop (history.length - c.capacity) := by
      rw [List.drop_append_of_le_length (by omega), carries.buffer]
    have length := congrArg List.length carries.buffer
    simp only [List.length_drop] at length
    simp only [Broadcast.send, forgotten, List.drop_drop, List.length_append, List.length_singleton]
    congr 1
    omega

theorem foldl_send (carries : c.Carries history) (values : List α) :
    (values.foldl Broadcast.send c).Carries (history ++ values) := by
  induction values generalizing c history with
  | nil => simpa using carries
  | cons a rest ih => simpa using ih (carries.send a)

theorem oldest (carries : c.Carries history) : c.oldest = history.length - c.capacity := by
  have length := congrArg List.length carries.buffer
  simp only [List.length_drop] at length
  rw [Broadcast.oldest, carries.sent]
  omega

/-- What a receiver is told, by the history alone. -/
theorem receive (carries : c.Carries history) (cursor : Nat) :
    c.receive cursor =
      if c.capacity < history.length - cursor then
        (history.length - c.capacity, .lagged (history.length - c.capacity - cursor))
      else
        match history[cursor]? with
        | some a => (cursor + 1, .value a)
        | none => (cursor, .empty) := by
  unfold Broadcast.receive
  rw [carries.oldest]
  by_cases behind : cursor < history.length - c.capacity
  · rw [if_pos behind, if_pos (by omega)]
  · rw [if_neg behind, if_neg (by omega), carries.buffer, List.getElem?_drop]
    have index :
        history.length - c.capacity + (cursor - (history.length - c.capacity)) = cursor := by
      omega
    rw [index]

end Carries

/-- A transcript accounts for a stretch of the history: its values, in order, and for
every lag as many values as it names. -/
inductive Accounts : List (Received α) → List α → Prop
  | nil : Accounts [] []
  | value {told : List (Received α)} {passed : List α} (before : Accounts told passed) (a : α) :
      Accounts (told ++ [.value a]) (passed ++ [a])
  | lagged {told : List (Received α)} {passed : List α} (before : Accounts told passed)
      {missed : List α} (some : missed ≠ []) :
      Accounts (told ++ [.lagged missed.length]) (passed ++ missed)
  | empty {told : List (Received α)} {passed : List α} (before : Accounts told passed) :
      Accounts (told ++ [.empty]) passed

/-- Where nothing was missed, the values are the whole stretch. -/
theorem Accounts.values {told : List (Received α)} {passed : List α}
    (accounts : Accounts told passed) (kept : ∀ missed, .lagged missed ∉ told) :
    told.filterMap Received.value? = passed := by
  induction accounts with
  | nil => rfl
  | value _ a ih =>
      have earlier := ih fun missed mem => kept missed (List.mem_append_left _ mem)
      rw [List.filterMap_append, earlier]
      rfl
  | lagged _ _ _ => exact absurd (List.mem_append_right _ (List.mem_singleton.mpr rfl)) (kept _)
  | empty _ ih =>
      have earlier := ih fun missed mem => kept missed (List.mem_append_left _ mem)
      rw [List.filterMap_append, earlier]
      exact List.append_nil _

theorem foldl_send_capacity (c : Broadcast α) (values : List α) :
    (values.foldl send c).capacity = c.capacity := by
  induction values generalizing c with
  | nil => rfl
  | cons a rest ih => exact ih (c.send a)

end Broadcast

/-- A receiver, where it started and all it was told. -/
structure Subscriber (α : Type) where
  since : Nat
  cursor : Nat
  told : List (Received α)

namespace Subscriber

open Broadcast

variable {α : Type}

def new (c : Broadcast α) : Subscriber α := ⟨c.subscribe, c.subscribe, []⟩

def receive (s : Subscriber α) (c : Broadcast α) : Subscriber α :=
  let (cursor, received) := c.receive s.cursor
  { s with cursor := cursor, told := s.told ++ [received] }

/-- A receiver has been told of everything between its start and its cursor. -/
structure Faithful (s : Subscriber α) (history : List α) : Prop where
  started : s.since ≤ s.cursor
  within : s.cursor ≤ history.length
  accounts : Accounts s.told ((history.take s.cursor).drop s.since)

namespace Faithful

variable {s : Subscriber α} {c : Broadcast α} {history : List α}

theorem new (carries : c.Carries history) : (Subscriber.new c).Faithful history where
  started := Nat.le_refl _
  within := Nat.le_of_eq carries.sent
  accounts := by
    have empty : (history.take c.sent).drop c.sent = [] :=
      List.drop_eq_nil_of_le (List.length_take_le ..)
    simp only [Subscriber.new, subscribe, empty]
    exact .nil

theorem grow (faithful : s.Faithful history) (more : List α) : s.Faithful (history ++ more) where
  started := faithful.started
  within := by
    have within := faithful.within
    rw [List.length_append]
    omega
  accounts := by
    rw [List.take_append_of_le_length faithful.within]
    exact faithful.accounts

/-- What lies between the start and a later cursor. -/
theorem stretch (faithful : s.Faithful history) (more : Nat) :
    (history.take (s.cursor + more)).drop s.since =
      (history.take s.cursor).drop s.since ++ (history.drop s.cursor).take more := by
  have started := faithful.started
  have within := faithful.within
  rw [List.take_add, List.drop_append_of_le_length]
  rw [List.length_take]
  omega

theorem receive (faithful : s.Faithful history) (carries : c.Carries history) :
    (s.receive c).Faithful history := by
  have started := faithful.started
  have within := faithful.within
  have next := carries.receive s.cursor
  by_cases behind : c.capacity < history.length - s.cursor
  · rw [if_pos behind] at next
    simp only [Subscriber.receive, next]
    refine ⟨by simp only; omega, by simp only; omega, ?_⟩
    have missed : ((history.drop s.cursor).take
        (history.length - c.capacity - s.cursor)).length =
          history.length - c.capacity - s.cursor := by
      rw [List.length_take, List.length_drop]
      omega
    have split := faithful.stretch (history.length - c.capacity - s.cursor)
    rw [Nat.add_sub_cancel' (by omega)] at split
    dsimp only
    rw [split]
    have some : (history.drop s.cursor).take (history.length - c.capacity - s.cursor) ≠ [] := by
      intro none
      rw [none, List.length_nil] at missed
      omega
    have lagged := faithful.accounts.lagged some
    rwa [missed] at lagged
  · rw [if_neg behind] at next
    cases there : history[s.cursor]? with
    | none =>
        simp only [Subscriber.receive, next, there]
        exact ⟨started, within, faithful.accounts.empty⟩
    | some a =>
        obtain ⟨below, rfl⟩ := List.getElem?_eq_some_iff.mp there
        simp only [Subscriber.receive, next, there]
        refine ⟨by simp only; omega, below, ?_⟩
        dsimp only
        rw [faithful.stretch 1, List.drop_eq_getElem_cons below, List.take_succ_cons,
          List.take_zero]
        exact faithful.accounts.value _

end Faithful

end Subscriber
