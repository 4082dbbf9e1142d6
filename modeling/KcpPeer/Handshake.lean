import KcpPeer.EventLog
import KcpPeer.Network

set_option autoImplicit false

/- The handshake between two peers, reduced to what it is about: one slot a
side, control messages that carry a conversation id, and the events. -/
namespace KcpPeer

inductive Msg where
  | syn (conv : UInt32)
  | synAck (conv : UInt32)
  | reset (conv : UInt32)
  | data (conv : Option UInt32)
  | junk
  deriving DecidableEq, Repr

abbrev Slot := Option (SessionState × UInt32)

structure Reply where
  slot : Slot
  out : List Msg
  events : List Lifecycle

/-- What a side does with a message. `yields` says that it gives way in a
simultaneous open; `ds` are the conversation ids of the data flushed on the way. -/
def respond (yields : Bool) (slot : Slot) (ds : List (Option UInt32)) : Msg → Reply
  | .syn conv =>
      match slot with
      | none => ⟨some (.established, conv), [.synAck conv], [.connected]⟩
      | some (state, own) =>
          if own = conv then
            match state with
            | .established => ⟨slot, [.synAck conv], []⟩
            | .synSent => ⟨slot, [], []⟩
          else
            match state with
            | .synSent =>
                let kept := if yields then conv else own
                ⟨some (.established, kept), ds.map .data ++ [.synAck kept], [.connected]⟩
            | .established =>
                ⟨some (.established, conv), [.synAck conv], [.peerRestarted, .connected]⟩
  | .synAck conv =>
      match slot with
      | some (.synSent, own) =>
          if own = conv then ⟨some (.established, own), ds.map .data, [.connected]⟩
          else ⟨slot, [], []⟩
      | _ => ⟨slot, [], []⟩
  | .reset conv =>
      match slot with
      | some (_, own) => if own = conv then ⟨none, [], [.disconnected]⟩ else ⟨slot, [], []⟩
      | none => ⟨none, [], []⟩
  | .data conv =>
      match slot, conv with
      | none, some conv => ⟨none, List.replicate 3 (.reset conv), []⟩
      | _, _ => ⟨slot, [], []⟩
  | .junk => ⟨slot, [], []⟩

/-- The message would make the side give up an established session. -/
def Crossed (slot : Slot) : Msg → Prop
  | .syn conv => ∃ own, slot = some (.established, own) ∧ own ≠ conv
  | _ => False

instance : ∀ (slot : Slot) (m : Msg), Decidable (Crossed slot m)
  | some (.established, own), .syn conv =>
      decidable_of_iff (own ≠ conv) ⟨fun apart => ⟨own, rfl, apart⟩, fun ⟨_, held, apart⟩ => by
        cases held
        exact apart⟩
  | some (.synSent, _), .syn _ => isFalse fun ⟨_, held, _⟩ => nomatch held
  | none, .syn _ => isFalse fun ⟨_, held, _⟩ => nomatch held
  | _, .synAck _ => isFalse id
  | _, .reset _ => isFalse id
  | _, .data _ => isFalse id
  | _, .junk => isFalse id

/-- Everything a side can do with a message that does not cross its session. -/
inductive Responds (yields : Bool) (ds : List (Option UInt32)) : Slot → Msg → Reply → Prop
  | quiet (slot : Slot) (m : Msg) (out : List Msg)
      (acks : ∀ m' ∈ out, (∃ conv, m' = .synAck conv ∧ slot = some (.established, conv)) ∨
        (∃ conv, m' = .reset conv ∧ m = .data (some conv) ∧ slot = none)) :
      Responds yields ds slot m ⟨slot, out, []⟩
  | accept (conv : UInt32) :
      Responds yields ds none (.syn conv)
        ⟨some (.established, conv), [.synAck conv], [.connected]⟩
  | tieBreak (own conv : UInt32) (distinct : own ≠ conv) :
      Responds yields ds (some (.synSent, own)) (.syn conv)
        ⟨some (.established, if yields then conv else own),
          ds.map .data ++ [.synAck (if yields then conv else own)], [.connected]⟩
  | complete (own : UInt32) :
      Responds yields ds (some (.synSent, own)) (.synAck own)
        ⟨some (.established, own), ds.map .data, [.connected]⟩
  | close (state : SessionState) (own : UInt32) :
      Responds yields ds (some (state, own)) (.reset own) ⟨none, [], [.disconnected]⟩

theorem respond_cases (yields : Bool) (slot : Slot) (ds : List (Option UInt32)) (m : Msg)
    (uncrossed : ¬ Crossed slot m) : Responds yields ds slot m (respond yields slot ds m) := by
  have silent : ∀ slot m, Responds yields ds slot m ⟨slot, [], []⟩ := by
    intro slot m
    exact .quiet slot m [] (by simp)
  cases m with
  | syn conv =>
      rcases slot with _ | ⟨state, own⟩
      · exact .accept conv
      · by_cases same : own = conv
        · subst same
          cases state with
          | established =>
              simp only [respond, ↓reduceIte]
              exact .quiet _ _ _ (by simp)
          | synSent =>
              simp only [respond, ↓reduceIte]
              exact silent _ _
        · cases state with
          | established => exact absurd ⟨own, rfl, same⟩ uncrossed
          | synSent =>
              simp only [respond, same, ↓reduceIte]
              exact .tieBreak own conv same
  | synAck conv =>
      rcases slot with _ | ⟨_ | _, own⟩
      · exact silent _ _
      · by_cases same : own = conv
        · subst same
          simp only [respond, ↓reduceIte]
          exact .complete own
        · simp only [respond, same, ↓reduceIte]
          exact silent _ _
      · exact silent _ _
  | reset conv =>
      rcases slot with _ | ⟨state, own⟩
      · exact silent _ _
      · by_cases same : own = conv
        · subst same
          simp only [respond, ↓reduceIte]
          exact .close state own
        · simp only [respond, same, ↓reduceIte]
          exact silent _ _
  | data conv =>
      rcases slot with _ | ⟨state, own⟩
      · cases conv with
        | none => exact silent _ _
        | some conv =>
            refine .quiet none (.data (some conv)) _ ?_
            intro m' mem
            exact Or.inr ⟨conv, List.eq_of_mem_replicate mem, rfl, rfl⟩
      · exact silent _ _
  | junk => exact silent _ _

/-- `drawn` is the conversation id a side last drew for the other. -/
structure Handshake where
  slot : Side → Slot
  net : List (Side × Msg)
  events : Side → List Lifecycle
  drawn : Side → Option UInt32

/-- A move, with the part of its messages that reaches the wire. -/
inductive Move where
  | openTo (x : Side) (conv : UInt32) (sent : List Msg)
  | offer (x : Side) (ds : List (Option UInt32)) (sent : List Msg)
  | deliver (index : Nat) (ds : List (Option UInt32)) (sent : List Msg)
  | drop (index : Nat)
  | duplicate (index : Nat)

/-- The conversation id a side ends with, from its own draw and the other's. -/
def outcome (yields : Bool) : Option UInt32 → Option UInt32 → Option UInt32
  | some own, some theirs => some (if yields then theirs else own)
  | some own, none => some own
  | none, theirs => theirs

theorem outcome_symm {yields yields' : Bool} (own theirs : Option UInt32)
    (opposite : yields' = !yields) : outcome yields own theirs = outcome yields' theirs own := by
  subst opposite
  cases own <;> cases theirs <;> cases yields <;> rfl

namespace Handshake

def start : Handshake := ⟨fun _ => none, [], fun _ => [], fun _ => none⟩

def launch (h : Handshake) (x : Side) (sent : List Msg) : Handshake :=
  { h with net := h.net ++ sent.map fun m => (x.other, m) }

def openAt (h : Handshake) (x : Side) (conv : UInt32) : Handshake :=
  { h with
    slot := Function.update h.slot x (some (.synSent, conv))
    drawn := Function.update h.drawn x (some conv) }

def replyAt (h : Handshake) (x : Side) (r : Reply) : Handshake :=
  { h with
    slot := Function.update h.slot x r.slot
    events := Function.update h.events x (h.events x ++ r.events) }

/-- What a side may send of its own accord: its SYN again, or data. -/
def offers (slot : Slot) (ds : List (Option UInt32)) : List Msg :=
  match slot with
  | some (.established, _) => ds.map .data
  | some (.synSent, conv) => [.syn conv]
  | none => []

def step (yields : Side → Bool) (h : Handshake) : Move → Option Handshake
  | .openTo x conv sent =>
      if h.slot x = none ∧ sent.Sublist [.syn conv] then some ((h.openAt x conv).launch x sent)
      else none
  | .offer x ds sent =>
      if sent.Sublist (offers (h.slot x) ds) then some (h.launch x sent) else none
  | .deliver index ds sent =>
      match h.net[index]? with
      | none => none
      | some (x, m) =>
          let r := respond (yields x) (h.slot x) ds m
          if sent.Sublist r.out then
            some (({ h with net := h.net.eraseIdx index }.replyAt x r).launch x sent)
          else none
  | .drop index =>
      if index < h.net.length then some { h with net := h.net.eraseIdx index } else none
  | .duplicate index => h.net[index]?.map fun m => { h with net := h.net ++ [m] }

/-- What each move does, with the conditions under which it is enabled. -/
inductive Moves (yields : Side → Bool) (h : Handshake) : Move → Handshake → Prop
  | opens {x : Side} {conv : UInt32} {sent : List Msg} (free : h.slot x = none)
      (sub : sent.Sublist [.syn conv]) :
      Moves yields h (.openTo x conv sent) ((h.openAt x conv).launch x sent)
  | offered {x : Side} {ds : List (Option UInt32)} {sent : List Msg}
      (sub : sent.Sublist (offers (h.slot x) ds)) :
      Moves yields h (.offer x ds sent) (h.launch x sent)
  | delivers {index : Nat} {x : Side} {m : Msg} {ds : List (Option UInt32)} {sent : List Msg}
      (found : h.net[index]? = some (x, m))
      (sub : sent.Sublist (respond (yields x) (h.slot x) ds m).out) :
      Moves yields h (.deliver index ds sent)
        (({ h with net := h.net.eraseIdx index }.replyAt x
          (respond (yields x) (h.slot x) ds m)).launch x sent)
  | drops (index : Nat) : Moves yields h (.drop index) { h with net := h.net.eraseIdx index }
  | duplicates {index : Nat} {m : Side × Msg} (found : h.net[index]? = some m) :
      Moves yields h (.duplicate index) { h with net := h.net ++ [m] }

theorem step_moves {yields : Side → Bool} {h h' : Handshake} {move : Move}
    (taken : h.step yields move = some h') : h.Moves yields move h' := by
  cases move with
  | openTo x conv sent =>
      simp only [step] at taken
      split at taken
      · rename_i enabled
        obtain rfl := Option.some.inj taken
        exact .opens enabled.1 enabled.2
      · cases taken
  | offer x ds sent =>
      simp only [step] at taken
      split at taken
      · rename_i sub
        obtain rfl := Option.some.inj taken
        exact .offered sub
      · cases taken
  | deliver index ds sent =>
      simp only [step] at taken
      split at taken
      · cases taken
      · rename_i x m found
        split at taken
        · rename_i sub
          obtain rfl := Option.some.inj taken
          exact .delivers found sub
        · cases taken
  | drop index =>
      simp only [step] at taken
      split at taken
      · obtain rfl := Option.some.inj taken
        exact .drops index
      · cases taken
  | duplicate index =>
      obtain ⟨m, found, rfl⟩ := Option.map_eq_some_iff.mp taken
      exact .duplicates found

theorem step_deliver (yields : Side → Bool) {h : Handshake} {index : Nat} {x : Side} {m : Msg}
    {ds : List (Option UInt32)} {sent : List Msg} (inFlight : h.net[index]? = some (x, m))
    (sub : sent.Sublist (respond (yields x) (h.slot x) ds m).out) :
    h.step yields (.deliver index ds sent) =
      some (({ h with net := h.net.eraseIdx index }.replyAt x
        (respond (yields x) (h.slot x) ds m)).launch x sent) := by
  simp only [step, inFlight]
  exact if_pos sub

/-- Every side sends SYN for the conversation it drew, answers only when it is
established, and an established side holds the one conversation id that the
draws of both sides determine. -/
structure Agreed (yields : Side → Bool) (h : Handshake) : Prop where
  syn : ∀ x conv, (x, .syn conv) ∈ h.net → h.drawn x.other = some conv
  synAck : ∀ x conv, (x, .synAck conv) ∈ h.net → h.slot x.other = some (.established, conv)
  reset : ∀ x conv, (x, .reset conv) ∉ h.net
  data : ∀ x conv, (x, .data conv) ∈ h.net → ∃ own, h.slot x.other = some (.established, own)
  absent : ∀ x, h.slot x = none → h.drawn x = none
  waiting : ∀ x conv, h.slot x = some (.synSent, conv) → h.drawn x = some conv
  final : ∀ x conv, h.slot x = some (.established, conv) →
    h.slot x.other ≠ none ∧ outcome (yields x) (h.drawn x) (h.drawn x.other) = some conv

theorem Agreed.start (yields : Side → Bool) : Agreed yields Handshake.start := by
  constructor <;> simp [Handshake.start]

section Keep

variable {yields : Side → Bool} {h : Handshake}

/-- Messages may disappear. -/
theorem Agreed.forget (ok : Agreed yields h) {net : List (Side × Msg)}
    (subset : ∀ m ∈ net, m ∈ h.net) : Agreed yields { h with net } where
  syn := fun x conv mem => ok.syn x conv (subset _ mem)
  synAck := fun x conv mem => ok.synAck x conv (subset _ mem)
  reset := fun x conv mem => ok.reset x conv (subset _ mem)
  data := fun x conv mem => ok.data x conv (subset _ mem)
  absent := ok.absent
  waiting := ok.waiting
  final := ok.final

/-- The messages a side may send, given its slot and its draw. -/
def Allowed (slot : Slot) (drawn : Option UInt32) : Msg → Prop
  | .syn conv => drawn = some conv
  | .synAck conv => slot = some (.established, conv)
  | .reset _ => False
  | .data _ => ∃ own, slot = some (.established, own)
  | .junk => True

theorem Agreed.launch (ok : Agreed yields h) {x : Side} {sent : List Msg}
    (allowed : ∀ m ∈ sent, Allowed (h.slot x) (h.drawn x) m) : Agreed yields (h.launch x sent) := by
  have sender : ∀ y m, (y, m) ∈ (h.launch x sent).net →
      (y, m) ∈ h.net ∨ Allowed (h.slot y.other) (h.drawn y.other) m := by
    intro y m mem
    simp only [Handshake.launch, List.mem_append, List.mem_map, Prod.mk.injEq] at mem
    rcases mem with mem | ⟨m', mem, rfl, rfl⟩
    · exact Or.inl mem
    · exact Or.inr (by simpa using allowed m' mem)
  refine ⟨?_, ?_, ?_, ?_, ok.absent, ok.waiting, ok.final⟩
  · intro y conv mem
    exact (sender _ _ mem).elim (ok.syn y conv) id
  · intro y conv mem
    exact (sender _ _ mem).elim (ok.synAck y conv) id
  · intro y conv mem
    exact (sender _ _ mem).elim (ok.reset y conv) id
  · intro y conv mem
    exact (sender _ _ mem).elim (ok.data y conv) id

/-- A side that has no session opens one. -/
theorem Agreed.openAt (ok : Agreed yields h) {x : Side} (conv : UInt32) (free : h.slot x = none) :
    Agreed yields (h.openAt x conv) := by
  have undrawn := ok.absent x free
  have notEstablished : ∀ y c, h.slot y ≠ some (.established, c) := by
    intro y c ready
    rcases Side.eq_or_eq_other x y with rfl | rfl
    · rw [free] at ready
      cases ready
    · have held := (ok.final _ c ready).1
      rw [Side.other_other] at held
      exact held free
  have undrawnSender : ∀ y c, h.drawn y = some c → y ≠ x := by
    rintro y c drawn rfl
    rw [undrawn] at drawn
    cases drawn
  refine ⟨?_, ?_, ok.reset, ?_, ?_, ?_, ?_⟩
  · intro y c mem
    have drawn := ok.syn y c mem
    simp only [Handshake.openAt, Function.update_of_ne (undrawnSender _ c drawn), drawn]
  · intro y c mem
    exact absurd (ok.synAck y c mem) (notEstablished _ _)
  · intro y c mem
    obtain ⟨own, ready⟩ := ok.data y c mem
    exact absurd ready (notEstablished _ _)
  · intro y none'
    by_cases same : y = x
    · subst same
      simp [Handshake.openAt] at none'
    · simp only [Handshake.openAt, Function.update_of_ne same] at none' ⊢
      exact ok.absent y none'
  · intro y c sent
    by_cases same : y = x
    · subst same
      simp only [Handshake.openAt, Function.update_self, Option.some.injEq, Prod.mk.injEq,
        true_and] at sent ⊢
      exact sent
    · simp only [Handshake.openAt, Function.update_of_ne same] at sent ⊢
      exact ok.waiting y c sent
  · intro y c ready
    by_cases same : y = x
    · subst same
      simp [Handshake.openAt] at ready
    · simp only [Handshake.openAt, Function.update_of_ne same] at ready
      exact absurd ready (notEstablished y c)

/-- A side answers a message: an established slot stays as it is, and a slot that
becomes established holds the outcome of the draws. -/
theorem Agreed.replyAt (ok : Agreed yields h) {x : Side} {r : Reply}
    (stays : ∀ conv, h.slot x = some (.established, conv) → r.slot = some (.established, conv))
    (held : r.slot = none → h.slot x = none)
    (waiting : ∀ conv, r.slot = some (.synSent, conv) → h.slot x = some (.synSent, conv))
    (final : ∀ conv, r.slot = some (.established, conv) →
      h.slot x.other ≠ none ∧ outcome (yields x) (h.drawn x) (h.drawn x.other) = some conv) :
    Agreed yields (h.replyAt x r) := by
  have keeps : ∀ y conv, h.slot y = some (.established, conv) →
      (h.replyAt x r).slot y = some (.established, conv) := by
    intro y conv ready
    by_cases same : y = x
    · subst same
      simpa only [Handshake.replyAt, Function.update_self] using stays conv ready
    · simpa only [Handshake.replyAt, Function.update_of_ne same] using ready
  have occupied : ∀ y, h.slot y ≠ none → (h.replyAt x r).slot y ≠ none := by
    intro y nonempty
    by_cases same : y = x
    · subst same
      simp only [Handshake.replyAt, Function.update_self]
      exact fun empty => nonempty (held empty)
    · simpa only [Handshake.replyAt, Function.update_of_ne same] using nonempty
  refine ⟨ok.syn, fun y conv mem => keeps _ _ (ok.synAck y conv mem), ok.reset, ?_, ?_, ?_, ?_⟩
  · intro y conv mem
    obtain ⟨own, ready⟩ := ok.data y conv mem
    exact ⟨own, keeps _ _ ready⟩
  · intro y empty
    apply ok.absent y
    by_contra nonempty
    exact occupied y nonempty empty
  · intro y conv sent
    by_cases same : y = x
    · subst same
      simp only [Handshake.replyAt, Function.update_self] at sent
      exact ok.waiting y conv (waiting conv sent)
    · simp only [Handshake.replyAt, Function.update_of_ne same] at sent
      exact ok.waiting y conv sent
  · intro y conv ready
    by_cases same : y = x
    · subst same
      simp only [Handshake.replyAt, Function.update_self] at ready
      obtain ⟨other, decided⟩ := final conv ready
      exact ⟨occupied _ other, decided⟩
    · simp only [Handshake.replyAt, Function.update_of_ne same] at ready
      obtain ⟨other, decided⟩ := ok.final y conv ready
      exact ⟨occupied _ other, decided⟩

/-- A side whose established session is not given up answers within the
invariant, and sends only what it may. -/
theorem Agreed.answer (ok : Agreed yields h) {x : Side} {m : Msg} {r : Reply}
    {ds : List (Option UInt32)} (opposite : yields x.other = !yields x)
    (inFlight : (x, m) ∈ h.net) (responds : Responds (yields x) ds (h.slot x) m r) :
    Agreed yields (h.replyAt x r) ∧ ∀ m' ∈ r.out, Allowed r.slot (h.drawn x) m' := by
  generalize slotEq : h.slot x = slot at responds
  cases responds with
  | quiet slot m out acks =>
      constructor
      · apply ok.replyAt
        · exact fun conv ready => slotEq ▸ ready
        · exact fun empty => slotEq.trans empty
        · exact fun conv sent => slotEq.trans sent
        · exact fun conv ready => ok.final x conv (slotEq.trans ready)
      · intro m' mem
        rcases acks m' mem with ⟨conv, rfl, ready⟩ | ⟨conv, rfl, rfl, empty⟩
        · exact ready
        · obtain ⟨own, ready⟩ := ok.data x (some conv) inFlight
          have held := (ok.final _ own ready).1
          rw [Side.other_other, slotEq] at held
          exact held empty
  | accept conv =>
      have drawn := ok.syn x conv inFlight
      constructor
      · apply ok.replyAt
        · intro c ready
          rw [slotEq] at ready
          cases ready
        · exact fun empty => nomatch empty
        · exact fun c sent => nomatch sent
        · intro c ready
          cases ready
          refine ⟨fun empty => ?_, ?_⟩
          · rw [ok.absent _ empty] at drawn
            cases drawn
          · rw [ok.absent x slotEq, drawn]
            rfl
      · intro m' mem
        cases List.mem_singleton.mp mem
        rfl
  | tieBreak own conv distinct =>
      have drawn := ok.syn x conv inFlight
      constructor
      · apply ok.replyAt
        · intro c ready
          rw [slotEq] at ready
          cases ready
        · exact fun empty => nomatch empty
        · exact fun c sent => nomatch sent
        · intro c ready
          cases ready
          refine ⟨fun empty => ?_, ?_⟩
          · rw [ok.absent _ empty] at drawn
            cases drawn
          · rw [ok.waiting x own slotEq, drawn]
            rfl
      · intro m' mem
        rcases List.mem_append.mp mem with mem | mem
        · obtain ⟨d, _, rfl⟩ := List.mem_map.mp mem
          exact ⟨_, rfl⟩
        · cases List.mem_singleton.mp mem
          rfl
  | complete own =>
      have ready := ok.synAck x own inFlight
      have decided := (ok.final _ own ready).2
      rw [Side.other_other] at decided
      constructor
      · apply ok.replyAt
        · intro c ready
          rw [slotEq] at ready
          cases ready
        · exact fun empty => nomatch empty
        · exact fun c sent => nomatch sent
        · intro c established
          cases established
          refine ⟨fun empty => ?_, ?_⟩
          · rw [empty] at ready
            cases ready
          · rw [outcome_symm _ _ opposite]
            exact decided
      · intro m' mem
        obtain ⟨d, _, rfl⟩ := List.mem_map.mp mem
        exact ⟨own, rfl⟩
  | close state own => exact absurd inFlight (ok.reset x own)

/-- No message gives up an established session. -/
def Uncrossed (h : Handshake) : Move → Prop
  | .deliver index _ _ => ∀ x m, h.net[index]? = some (x, m) → ¬ Crossed (h.slot x) m
  | _ => True

theorem offers_allowed (ok : Agreed yields h) (x : Side) (ds : List (Option UInt32)) :
    ∀ m ∈ offers (h.slot x) ds, Allowed (h.slot x) (h.drawn x) m := by
  intro m mem
  rcases slotEq : h.slot x with _ | ⟨_ | _, conv⟩
  · simp [offers, slotEq] at mem
  · simp only [offers, slotEq, List.mem_singleton] at mem
    subst mem
    exact ok.waiting x conv slotEq
  · simp only [offers, slotEq, List.mem_map] at mem
    obtain ⟨d, _, rfl⟩ := mem
    exact ⟨conv, rfl⟩

theorem Agreed.step (opposite : ∀ x, yields x.other = !yields x) (ok : Agreed yields h)
    {move : Move} (uncrossed : Uncrossed h move) {h' : Handshake}
    (taken : Handshake.step yields h move = some h') : Agreed yields h' := by
  cases step_moves taken with
  | @opens x conv sent free sub =>
      apply (ok.openAt conv free).launch
      intro m mem
      have sent := List.mem_singleton.mp (sub.subset mem)
      subst sent
      simp [Handshake.openAt, Allowed]
  | @offered x ds sent sub =>
      exact ok.launch fun m mem => offers_allowed ok x ds m (sub.subset mem)
  | @delivers index x m ds sent found sub =>
      have inFlight : (x, m) ∈ h.net := List.mem_of_getElem? found
      have responds := respond_cases (yields x) (h.slot x) ds m (uncrossed x m found)
      obtain ⟨answered, allowed⟩ := ok.answer (opposite x) inFlight responds
      have gone : ∀ m' ∈ h.net.eraseIdx index, m' ∈ h.net :=
        fun m' mem => List.mem_of_mem_eraseIdx mem
      apply (answered.forget gone).launch
      intro m' mem
      simpa [Handshake.replyAt] using allowed m' (sub.subset mem)
  | drops index => exact ok.forget fun m mem => List.mem_of_mem_eraseIdx mem
  | duplicates found =>
      apply ok.forget
      intro m' mem
      rcases List.mem_append.mp mem with mem | mem
      · exact mem
      · exact List.mem_singleton.mp mem ▸ List.mem_of_getElem? found

/-- A side has announced exactly the connection it has. -/
def announced : Slot → List Lifecycle
  | some (.established, _) => [.connected]
  | some (.synSent, _) => []
  | none => []

def Announced (h : Handshake) : Prop := ∀ x, h.events x = announced (h.slot x)

theorem Announced.replyAt (ok : h.Announced) {x : Side} {r : Reply}
    (grown : announced (h.slot x) ++ r.events = announced r.slot) : (h.replyAt x r).Announced := by
  intro y
  by_cases same : y = x
  · subst same
    simp only [Handshake.replyAt, Function.update_self, ok y]
    exact grown
  · simp only [Handshake.replyAt, Function.update_of_ne same]
    exact ok y

theorem Announced.step (agreed : Agreed yields h) (ok : h.Announced) {move : Move}
    (uncrossed : Uncrossed h move) {h' : Handshake}
    (taken : Handshake.step yields h move = some h') : h'.Announced := by
  cases step_moves taken with
  | @opens x conv sent free sub =>
      intro y
      by_cases same : y = x
      · subst same
        simp only [Handshake.launch, Handshake.openAt, Function.update_self, ok y, free]
        rfl
      · simp only [Handshake.launch, Handshake.openAt, Function.update_of_ne same]
        exact ok y
  | offered => exact ok
  | @delivers index x m ds sent found sub =>
      have inFlight : (x, m) ∈ h.net := List.mem_of_getElem? found
      have responds := respond_cases (yields x) (h.slot x) ds m (uncrossed x m found)
      refine Announced.replyAt (h := { h with net := h.net.eraseIdx index }) ok ?_
      generalize respond (yields x) (h.slot x) ds m = r at responds
      dsimp only
      generalize h.slot x = slot at responds
      cases responds with
      | quiet => exact List.append_nil _
      | accept => rfl
      | tieBreak => rfl
      | complete => rfl
      | close state own => exact absurd inFlight (agreed.reset x own)
  | drops => exact ok
  | duplicates => exact ok

/-- Two established sides have the same conversation id. -/
theorem Agreed.same_conv (opposite : ∀ x, yields x.other = !yields x) (ok : Agreed yields h)
    {x : Side} {own theirs : UInt32} (here : h.slot x = some (.established, own))
    (there : h.slot x.other = some (.established, theirs)) : own = theirs := by
  have mine := (ok.final x own here).2
  have others := (ok.final x.other theirs there).2
  rw [Side.other_other, ← outcome_symm _ _ (opposite x), mine] at others
  exact Option.some.inj others

end Keep

end Handshake

/-- The protocol as a machine; `yields` is the tie-break. -/
def handshakeMachine (yields : Side → Bool) : Machine Handshake Move where
  start := .start
  step := Handshake.step yields

theorem handshakeMachine_agreed {yields : Side → Bool} (opposite : ∀ x, yields x.other = !yields x)
    {h : Handshake} (reached : (handshakeMachine yields).Reach Handshake.Uncrossed h) :
    h.Agreed yields :=
  reached.invariant (Handshake.Agreed.start yields)
    fun _ _ _ ok uncrossed taken => ok.step opposite uncrossed taken

end KcpPeer
