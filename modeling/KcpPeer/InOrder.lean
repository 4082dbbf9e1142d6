import KcpPeer.Coherence
import KcpPeer.OneSided

set_option autoImplicit false

namespace KcpPeer

def Msg.isControl : Msg → Bool
  | .syn _ => true
  | .synAck _ => true
  | .reset _ => true
  | _ => false

namespace Handshake

/-- The messages in flight to a side, oldest first. -/
def inbox (h : Handshake) (x : Side) : List Msg :=
  h.net.filterMap fun p => if p.1 = x then some p.2 else none

theorem inbox_launch (h : Handshake) (x y : Side) (sent : List Msg) :
    (h.launch y sent).inbox x = h.inbox x ++ if y.other = x then sent else [] := by
  simp only [inbox, launch, List.filterMap_append, List.filterMap_map]
  congr 1
  by_cases toX : y.other = x
  · simp [toX]
  · simp [toX]

section Erase

variable {α β : Type} {f : α → Option β}

/-- Erasing an element that is filtered out changes nothing. -/
theorem filterMap_eraseIdx_none {index : Nat} {l : List α} {a : α} (at' : l[index]? = some a)
    (out : f a = none) : (l.eraseIdx index).filterMap f = l.filterMap f := by
  induction l generalizing index with
  | nil => rfl
  | cons first rest ih =>
      cases index with
      | zero =>
          cases at'
          rw [List.filterMap_cons_none out]
          rfl
      | succ index =>
          rw [List.eraseIdx_cons_succ, List.filterMap_cons, List.filterMap_cons]
          rw [ih at']

/-- Erasing the first element that passes a filter takes the head of the result. -/
theorem filterMap_eraseIdx_first {index : Nat} {l : List α} {a : α} {b : β}
    (at' : l[index]? = some a) (passes : f a = some b)
    (first : ∀ j < index, ∀ a', l[j]? = some a' → f a' = none) :
    l.filterMap f = b :: (l.eraseIdx index).filterMap f := by
  induction l generalizing index with
  | nil => cases at'
  | cons head rest ih =>
      cases index with
      | zero =>
          cases at'
          rw [List.filterMap_cons_some passes]
          rfl
      | succ index =>
          have skipped : f head = none := first 0 (Nat.succ_pos _) head rfl
          rw [List.eraseIdx_cons_succ, List.filterMap_cons_none skipped,
            List.filterMap_cons_none skipped]
          exact ih at' fun j below a' found => first (j + 1) (Nat.succ_lt_succ below) a' found

end Erase

/-- The message is data or a SYN_ACK of the conversation. -/
def Belongs (conv : UInt32) (m : Msg) : Prop := m = .data (some conv) ∨ m = .synAck conv

/-- What is in flight to a side in an in-order lossless run, given its slot, the
other's slot and the other's draw. -/
inductive Flow (yields : Bool) : Slot → Slot → Option UInt32 → List Msg → Prop
  | idle (theirs : Slot) : Flow yields none theirs none []
  | called (theirs : Slot) (d : UInt32) : Flow yields none theirs (some d) [.syn d]
  | waiting (d : UInt32) : Flow yields (some (.synSent, d)) none none []
  | answered (theirs : Slot) (d : UInt32) (rest : List Msg) (held : theirs ≠ none)
      (belongs : ∀ m ∈ rest, Belongs d m) :
      Flow yields (some (.synSent, d)) theirs none (.synAck d :: rest)
  | crossed (theirs : Slot) (d d' : UInt32) (rest : List Msg) (distinct : d ≠ d')
      (belongs : ∀ m ∈ rest, Belongs (if yields then d' else d) m) :
      Flow yields (some (.synSent, d)) theirs (some d') (.syn d' :: rest)
  | settled (theirs : Slot) (draw : Option UInt32) (c : UInt32) (inbox : List Msg)
      (belongs : ∀ m ∈ inbox, Belongs c m) :
      Flow yields (some (.established, c)) theirs draw inbox

/-- The other side's slot matters only by being there. -/
theorem Flow.theirs {yields : Bool} {own theirs theirs' : Slot} {draw : Option UInt32}
    {inbox : List Msg} (flow : Flow yields own theirs draw inbox) (held : theirs ≠ none)
    (held' : theirs' ≠ none) : Flow yields own theirs' draw inbox := by
  cases flow with
  | idle => exact .idle theirs'
  | called _ d => exact .called theirs' d
  | waiting d => exact absurd rfl held
  | answered _ d rest _ belongs => exact .answered theirs' d rest held' belongs
  | crossed _ d d' rest distinct belongs => exact .crossed theirs' d d' rest distinct belongs
  | settled _ draw c inbox belongs => exact .settled theirs' draw c inbox belongs

/-- The invariant of in-order lossless runs. -/
structure InOrder (yields : Side → Bool) (h : Handshake) : Prop where
  agreed : Agreed yields h
  announced : Announced h
  flow : ∀ x, Flow (yields x) (h.slot x) (h.slot x.other) (h.drawn x.other) (h.inbox x)

/-- Everything submitted reaches the wire, data carries the sender's conversation
id, the oldest message of a direction is delivered first, and no SYN is sent twice. -/
def OrderedMove (yields : Side → Bool) (h : Handshake) : Move → Prop
  | .openTo x conv sent => sent = [.syn conv] ∧
      ∀ state c, h.slot x.other = some (state, c) → conv ≠ c
  | .offer x _ sent => ∀ m ∈ sent, ∃ c, h.slot x = some (.established, c) ∧ m = .data (some c)
  | .deliver index ds sent => ∀ x m, h.net[index]? = some (x, m) →
      (∀ j < index, ∀ y m', h.net[j]? = some (y, m') → y ≠ x) ∧
      sent = (respond (yields x) (h.slot x) ds m).out ∧
      ∀ d, .data d ∈ sent → ∃ c, (respond (yields x) (h.slot x) ds m).slot =
        some (.established, c) ∧ d = some c
  | .drop _ => False
  | .duplicate _ => False

section Keep

variable {yields : Side → Bool} {h : Handshake}

/-- A side without a session has not been answered. -/
theorem Agreed.other_of_absent (ok : Agreed yields h) {x : Side} (absent : h.slot x = none)
    (conv : UInt32) : h.slot x.other ≠ some (.established, conv) := by
  intro ready
  have held := (ok.final x.other conv ready).1
  rw [Side.other_other] at held
  exact held absent

theorem Agreed.calling (ok : Agreed yields h) {x : Side} (absent : h.slot x = none) {d : UInt32}
    (drawn : h.drawn x.other = some d) : h.slot x.other = some (.synSent, d) := by
  rcases slotEq : h.slot x.other with _ | ⟨_ | _, conv⟩
  · rw [ok.absent _ slotEq] at drawn
    cases drawn
  · rw [ok.waiting _ conv slotEq] at drawn
    rw [Option.some.inj drawn]
  · exact absurd slotEq (ok.other_of_absent absent conv)

/-- What an established side sends belongs to the flow toward the other. -/
theorem Flow.extend (agreed : Agreed yields h) (opposite : ∀ x, yields x.other = !yields x)
    {x : Side} {c : UInt32} {inbox sent : List Msg}
    (ready : h.slot x.other = some (.established, c))
    (flow : Flow (yields x) (h.slot x) (h.slot x.other) (h.drawn x.other) inbox)
    (belongs : ∀ m ∈ sent, Belongs c m) :
    Flow (yields x) (h.slot x) (h.slot x.other) (h.drawn x.other) (inbox ++ sent) := by
  obtain ⟨held, decided⟩ := agreed.final x.other c ready
  rw [Side.other_other, ← outcome_symm _ _ (opposite x)] at decided
  rw [Side.other_other] at held
  have both : ∀ {c' : UInt32} {rest : List Msg}, c' = c → (∀ m ∈ rest, Belongs c' m) →
      ∀ m ∈ rest ++ sent, Belongs c' m := by
    rintro c' rest rfl old m mem
    rcases List.mem_append.mp mem with mem | mem
    · exact old m mem
    · exact belongs m mem
  generalize slotEq : h.slot x = slot at flow held ⊢
  generalize h.slot x.other = theirs at flow ready ⊢
  generalize drawEq : h.drawn x.other = draw at flow decided ⊢
  cases flow with
  | idle => exact absurd rfl held
  | called => exact absurd rfl held
  | waiting d => cases ready
  | answered _ d rest answered old =>
      rw [agreed.waiting x d slotEq] at decided
      exact .answered _ d _ answered (both (Option.some.inj decided) old)
  | crossed _ d d' rest distinct old =>
      rw [agreed.waiting x d slotEq] at decided
      exact .crossed _ d d' _ distinct (both (Option.some.inj decided) old)
  | settled _ draw c' inbox old =>
      have same := (agreed.final x c' slotEq).2
      rw [drawEq, decided] at same
      exact .settled _ draw c' _ (both (Option.some.inj same).symm old)

theorem InOrder.openTo (ok : InOrder yields h) {x : Side} (conv : UInt32)
    (absent : h.slot x = none)
    (distinct : ∀ state c, h.slot x.other = some (state, c) → conv ≠ c) (y : Side) :
    Flow (yields y) (((h.openAt x conv).launch x [.syn conv]).slot y)
      (((h.openAt x conv).launch x [.syn conv]).slot y.other)
      (((h.openAt x conv).launch x [.syn conv]).drawn y.other)
      (((h.openAt x conv).launch x [.syn conv]).inbox y) := by
  have flow := ok.flow y
  rcases Side.eq_or_eq_other x y with rfl | rfl
  · rw [inbox_launch, if_neg (Side.other_ne y), List.append_nil]
    simp only [launch, openAt, Function.update_self,
      Function.update_of_ne (Side.other_ne y)]
    rw [absent] at flow
    generalize drawn : h.drawn y.other = draw at flow ⊢
    change Flow _ _ _ _ (h.inbox y)
    generalize h.inbox y = inbox at flow ⊢
    cases flow with
    | idle =>
        have none : h.slot y.other = none := by
          rcases slotEq : h.slot y.other with _ | ⟨_ | _, d⟩
          · rfl
          · rw [ok.agreed.waiting _ d slotEq] at drawn
            cases drawn
          · exact absurd slotEq (ok.agreed.other_of_absent absent d)
        rw [none]
        exact .waiting conv
    | called _ d =>
        have theirs := ok.agreed.calling absent drawn
        exact .crossed _ conv d [] (distinct _ d theirs) (by simp)
  · rw [inbox_launch, if_pos rfl]
    simp only [launch, openAt, Side.other_other, Function.update_self,
      Function.update_of_ne (Side.other_ne x)]
    rw [Side.other_other, absent, ok.agreed.absent x absent] at flow
    generalize slotEq : h.slot x.other = slot at flow ⊢
    change Flow _ _ _ _ (h.inbox x.other ++ _)
    generalize h.inbox x.other = inbox at flow ⊢
    cases flow with
    | idle => exact .called _ conv
    | waiting d => exact .crossed _ d conv [] (distinct _ d slotEq).symm (by simp)
    | answered _ _ _ held => exact absurd rfl held
    | settled _ _ c => exact absurd slotEq (ok.agreed.other_of_absent absent c)

theorem InOrder.offer (opposite : ∀ x, yields x.other = !yields x) (ok : InOrder yields h)
    {x : Side} {sent : List Msg}
    (stamped : ∀ m ∈ sent, ∃ c, h.slot x = some (.established, c) ∧ m = .data (some c)) (y : Side) :
    Flow (yields y) ((h.launch x sent).slot y) ((h.launch x sent).slot y.other)
      ((h.launch x sent).drawn y.other) ((h.launch x sent).inbox y) := by
  have flow := ok.flow y
  rw [inbox_launch]
  rcases Side.eq_or_eq_other x y with rfl | rfl
  · rw [if_neg (Side.other_ne y), List.append_nil]
    exact flow
  · rw [if_pos rfl]
    cases sent with
    | nil =>
        rw [List.append_nil]
        exact flow
    | cons m rest =>
        obtain ⟨c, ready, _⟩ := stamped m List.mem_cons_self
        refine Flow.extend ok.agreed opposite (c := c) ?_ flow ?_
        · rw [Side.other_other]
          exact ready
        · intro m' mem
          obtain ⟨c', ready', rfl⟩ := stamped m' mem
          rw [ready] at ready'
          cases ready'
          exact Or.inl rfl

/-- The state after the delivery of a message to `x`. -/
def delivered (h : Handshake) (index : Nat) (x : Side) (r : Reply) : Handshake :=
  ({ h with net := h.net.eraseIdx index }.replyAt x r).launch x r.out

section Deliver

variable {index : Nat} {x : Side} {m : Msg} {r : Reply}

theorem inbox_delivered_self (found : h.net[index]? = some (x, m))
    (first : ∀ j < index, ∀ y m', h.net[j]? = some (y, m') → y ≠ x) :
    h.inbox x = m :: (h.delivered index x r).inbox x := by
  rw [delivered, inbox_launch, if_neg (Side.other_ne x), List.append_nil]
  refine filterMap_eraseIdx_first found (if_pos rfl) ?_
  intro j below p at'
  exact if_neg (first j below p.1 p.2 at')

theorem inbox_delivered_other (found : h.net[index]? = some (x, m)) :
    (h.delivered index x r).inbox x.other = h.inbox x.other ++ r.out := by
  rw [delivered, inbox_launch, if_pos rfl]
  congr 1
  exact filterMap_eraseIdx_none found (if_neg (Side.other_ne x).symm)

/-- A side that had a session is established and sends within the conversation. -/
theorem InOrder.established (opposite : ∀ x, yields x.other = !yields x) (ok : InOrder yields h)
    (agreed : Agreed yields (h.delivered index x r)) (found : h.net[index]? = some (x, m))
    {c : UInt32} (held : h.slot x ≠ none) (ready : r.slot = some (.established, c))
    (kept : ∀ m ∈ (h.delivered index x r).inbox x, Belongs c m)
    (sent : ∀ m ∈ r.out, Belongs c m) (y : Side) :
    Flow (yields y) ((h.delivered index x r).slot y) ((h.delivered index x r).slot y.other)
      ((h.delivered index x r).drawn y.other) ((h.delivered index x r).inbox y) := by
  have own : (h.delivered index x r).slot x = some (.established, c) := by
    simp only [delivered, launch, replyAt, Function.update_self]
    exact ready
  rcases Side.eq_or_eq_other x y with rfl | rfl
  · rw [own]
    exact .settled _ _ c _ kept
  · have flow := ok.flow x.other
    rw [Side.other_other] at flow
    have same : (h.delivered index x r).slot x.other = h.slot x.other := by
      simp only [delivered, launch, replyAt, Function.update_of_ne (Side.other_ne x)]
    rw [inbox_delivered_other found]
    refine Flow.extend agreed opposite (c := c) ?_ ?_ sent
    · rw [Side.other_other]
      exact own
    · rw [Side.other_other, own, same]
      exact flow.theirs held (Option.some_ne_none _)

/-- A side without a session accepts the SYN of the other. -/
theorem InOrder.accepted (ok : InOrder yields h) (found : h.net[index]? = some (x, m))
    {d : UInt32} (absent : h.slot x = none) (drawn : h.drawn x.other = some d)
    (ready : r.slot = some (.established, d)) (out : r.out = [.synAck d])
    (empty : (h.delivered index x r).inbox x = []) (y : Side) :
    Flow (yields y) ((h.delivered index x r).slot y) ((h.delivered index x r).slot y.other)
      ((h.delivered index x r).drawn y.other) ((h.delivered index x r).inbox y) := by
  have own : (h.delivered index x r).slot x = some (.established, d) := by
    simp only [delivered, launch, replyAt, Function.update_self]
    exact ready
  rcases Side.eq_or_eq_other x y with rfl | rfl
  · rw [own, empty]
    exact .settled _ _ d [] (by simp)
  · have theirs := ok.agreed.calling absent drawn
    have same : (h.delivered index x r).slot x.other = h.slot x.other := by
      simp only [delivered, launch, replyAt, Function.update_of_ne (Side.other_ne x)]
    have draw : (h.delivered index x r).drawn x = none := ok.agreed.absent x absent
    have flow := ok.flow x.other
    rw [Side.other_other, theirs, absent, ok.agreed.absent x absent] at flow
    rw [inbox_delivered_other found, Side.other_other, own, same, theirs, draw, out]
    generalize h.inbox x.other = inbox at flow ⊢
    cases flow with
    | waiting => exact .answered _ d [] (Option.some_ne_none _) (by simp)
    | answered _ _ _ held => exact absurd rfl held

theorem InOrder.uncrossed (ok : InOrder yields h) (found : h.net[index]? = some (x, m))
    (first : ∀ j < index, ∀ y m', h.net[j]? = some (y, m') → y ≠ x) : ¬ Crossed (h.slot x) m := by
  have flow := ok.flow x
  rw [inbox_delivered_self (r := ⟨none, [], []⟩) found first] at flow
  cases m with
  | syn conv =>
      rintro ⟨own, ready, _⟩
      rw [ready] at flow
      cases flow with
      | settled _ _ _ _ belongs =>
          rcases belongs _ List.mem_cons_self with isData | isAck
          · cases isData
          · cases isAck
  | synAck conv => exact id
  | reset conv => exact id
  | data conv => exact id
  | junk => exact id

theorem InOrder.deliver (opposite : ∀ x, yields x.other = !yields x) (ok : InOrder yields h)
    {ds : List (Option UInt32)} (found : h.net[index]? = some (x, m))
    (first : ∀ j < index, ∀ y m', h.net[j]? = some (y, m') → y ≠ x)
    (stamped : ∀ d, .data d ∈ (respond (yields x) (h.slot x) ds m).out →
      ∃ c, (respond (yields x) (h.slot x) ds m).slot = some (.established, c) ∧ d = some c)
    (agreed : Agreed yields (h.delivered index x (respond (yields x) (h.slot x) ds m))) (y : Side) :
    Flow (yields y) ((h.delivered index x (respond (yields x) (h.slot x) ds m)).slot y)
      ((h.delivered index x (respond (yields x) (h.slot x) ds m)).slot y.other)
      ((h.delivered index x (respond (yields x) (h.slot x) ds m)).drawn y.other)
      ((h.delivered index x (respond (yields x) (h.slot x) ds m)).inbox y) := by
  have flow := ok.flow x
  have split := inbox_delivered_self (r := respond (yields x) (h.slot x) ds m) found first
  generalize replied : respond (yields x) (h.slot x) ds m = r at stamped agreed split ⊢
  rw [split] at flow
  generalize left : (h.delivered index x r).inbox x = rest at flow
  generalize slotEq : h.slot x = slot at flow replied
  generalize h.slot x.other = theirs at flow
  generalize drawn : h.drawn x.other = draw at flow
  cases flow with
  | called _ d =>
      subst replied
      exact ok.accepted found slotEq drawn rfl rfl left y
  | answered _ d _ _ belongs =>
      simp only [respond, ↓reduceIte] at replied
      subst replied
      refine ok.established opposite agreed found (c := d) ?_ rfl (left ▸ belongs) ?_ y
      · rw [slotEq]
        exact Option.some_ne_none _
      · intro m' mem
        obtain ⟨d', _, rfl⟩ := List.mem_map.mp mem
        obtain ⟨c, ready, rfl⟩ := stamped d' mem
        cases ready
        exact Or.inl rfl
  | crossed _ d d' _ distinct belongs =>
      simp only [respond, distinct, ↓reduceIte] at replied
      subst replied
      refine ok.established opposite agreed found (c := if yields x then d' else d) ?_ rfl
        (left ▸ belongs) ?_ y
      · rw [slotEq]
        exact Option.some_ne_none _
      · intro m' mem
        rcases List.mem_append.mp mem with data | ack
        · obtain ⟨d'', _, rfl⟩ := List.mem_map.mp data
          obtain ⟨c, ready, rfl⟩ := stamped d'' mem
          cases ready
          exact Or.inl rfl
        · exact Or.inr (List.mem_singleton.mp ack)
  | settled _ _ c _ belongs =>
      have quiet : r = ⟨some (.established, c), [], []⟩ := by
        rw [← replied]
        rcases belongs m List.mem_cons_self with rfl | rfl
        · rfl
        · rfl
      subst quiet
      refine ok.established opposite agreed found (c := c) ?_ rfl ?_ (by simp) y
      · rw [slotEq]
        exact Option.some_ne_none _
      · rw [left]
        exact fun m' mem => belongs m' (List.mem_cons_of_mem _ mem)

end Deliver

theorem InOrder.step (opposite : ∀ x, yields x.other = !yields x) (ok : InOrder yields h)
    {move : Move} (ordered : OrderedMove yields h move) {h' : Handshake}
    (taken : h.step yields move = some h') : InOrder yields h' := by
  have uncrossed : Uncrossed h move := by
    cases move with
    | deliver index ds sent =>
        intro x m found
        exact ok.uncrossed found (ordered x m found).1
    | openTo x conv sent => trivial
    | offer x ds sent => trivial
    | drop index => trivial
    | duplicate index => trivial
  have agreed := ok.agreed.step opposite uncrossed taken
  refine ⟨agreed, ok.announced.step ok.agreed uncrossed taken, ?_⟩
  cases step_moves taken with
  | @opens x conv sent free sub =>
      obtain ⟨rfl, distinct⟩ := ordered
      exact ok.openTo conv free distinct
  | offered => exact ok.offer opposite ordered
  | @delivers index x m ds sent found sub =>
      obtain ⟨first, rfl, stamped⟩ := ordered x m found
      exact ok.deliver opposite found first stamped agreed
  | drops => exact ordered.elim
  | duplicates => exact ordered.elim

theorem InOrder.start (yields : Side → Bool) : InOrder yields Handshake.start :=
  ⟨Agreed.start yields, fun _ => rfl, fun _ => .idle none⟩

/-- Only a RESET takes a session away. -/
theorem respond_held {yielding : Bool} {slot : Slot} {ds : List (Option UInt32)} {m : Msg}
    (held : slot ≠ none) (kept : ∀ conv, m ≠ .reset conv) :
    (respond yielding slot ds m).slot ≠ none := by
  obtain ⟨⟨state, own⟩, rfl⟩ := Option.ne_none_iff_exists'.mp held
  cases m with
  | reset conv => exact absurd rfl (kept conv)
  | syn conv =>
      simp only [respond]
      repeat' split
      all_goals exact Option.some_ne_none _
  | synAck conv =>
      cases state
      · simp only [respond]
        split
        · exact Option.some_ne_none _
        · exact held
      · exact held
  | data conv => exact held
  | junk => exact held

/-- Once a session exists and no control packet is in flight, both sides are
established. -/
theorem InOrder.complete (ok : InOrder yields h) {x : Side} (held : h.slot x ≠ none)
    (quiet : ∀ y, ∀ m ∈ h.inbox y, m.isControl = false) (y : Side) :
    ∃ c, h.slot y = some (.established, c) := by
  have settled : ∀ {z : Side}, h.slot z ≠ none → ∃ c, h.slot z = some (.established, c) := by
    intro z held
    have flow := ok.flow z
    have silent := quiet z
    generalize slotEq : h.slot z = slot at flow held
    generalize h.inbox z = inbox at flow silent
    generalize theirs : h.slot z.other = other at flow
    generalize drawn : h.drawn z.other = draw at flow
    cases flow with
    | idle => exact absurd rfl held
    | called => exact absurd rfl held
    | waiting d =>
        -- the SYN is still on its way to the other side
        have flow' := ok.flow z.other
        have silent' := quiet z.other
        rw [Side.other_other, theirs, ok.agreed.waiting z d slotEq] at flow'
        generalize h.inbox z.other = inbox' at flow' silent'
        cases flow' with
        | called => cases silent' _ List.mem_cons_self
    | answered => cases silent _ List.mem_cons_self
    | crossed => cases silent _ List.mem_cons_self
    | settled _ _ c => exact ⟨c, rfl⟩
  obtain ⟨c, ready⟩ := settled held
  rcases Side.eq_or_eq_other x y with rfl | rfl
  · exact ⟨c, ready⟩
  · exact settled (ok.agreed.final x c ready).1

/-- A side keeps having a session. -/
theorem Agreed.step_held (ok : Agreed yields h) {move : Move} {h' : Handshake}
    (taken : h.step yields move = some h') {x : Side} (held : h.slot x ≠ none) :
    h'.slot x ≠ none := by
  have updated : ∀ (y : Side) (slot : Slot), (x = y → slot ≠ none) →
      Function.update h.slot y slot x ≠ none := by
    intro y slot kept
    by_cases same : x = y
    · rw [same, Function.update_self]
      exact kept same
    · rw [Function.update_of_ne same]
      exact held
  cases step_moves taken with
  | opens => exact updated _ _ fun _ => Option.some_ne_none _
  | offered => exact held
  | @delivers index y m ds sent found sub =>
      refine updated y _ ?_
      rintro rfl
      refine respond_held held ?_
      rintro conv rfl
      exact ok.reset x conv (List.mem_of_getElem? found)
  | drops => exact held
  | duplicates => exact held

/-- Data at the head of a direction carries the receiver's conversation id. -/
theorem InOrder.data_belongs (ok : InOrder yields h) {x : Side} {d : Option UInt32}
    {rest : List Msg} (head : h.inbox x = .data d :: rest) :
    ∃ c, h.slot x = some (.established, c) ∧ d = some c := by
  have flow := ok.flow x
  rw [head] at flow
  generalize h.slot x = slot at flow ⊢
  generalize h.slot x.other = theirs at flow
  generalize h.drawn x.other = draw at flow
  cases flow with
  | settled _ _ c _ belongs =>
      rcases belongs _ List.mem_cons_self with isData | isAck
      · exact ⟨c, rfl, Msg.data.inj isData⟩
      · cases isAck

end Keep

end Handshake

end KcpPeer
