import KcpPeer.Backlog
import KcpPeer.SampleKcp

set_option autoImplicit false

namespace KcpPeer

namespace Handshake

/-- Only `starter` opens sessions. -/
def OpenedBy (starter : Side) : Move → Prop
  | .openTo x _ _ => x = starter
  | _ => True

/-- The protocol when only `starter` opens sessions. -/
structure OneSided (yields : Side → Bool) (starter : Side) (h : Handshake) : Prop where
  agreed : Agreed yields h
  announced : Announced h
  undrawn : h.drawn starter.other = none

section Keep

variable {yields : Side → Bool} {starter : Side} {h : Handshake}

/-- An established side holds the conversation id that the starter drew. -/
theorem OneSided.final (ok : OneSided yields starter h) {x : Side} {conv : UInt32}
    (ready : h.slot x = some (.established, conv)) : h.drawn starter = some conv := by
  have decided := (ok.agreed.final x conv ready).2
  rcases Side.eq_or_eq_other starter x with rfl | rfl
  · rw [ok.undrawn] at decided
    cases drawn : h.drawn x with
    | none =>
        rw [drawn] at decided
        cases decided
    | some own =>
        rw [drawn] at decided
        exact decided
  · rw [ok.undrawn, Side.other_other] at decided
    exact decided

theorem OneSided.not_waiting (ok : OneSided yields starter h) (conv : UInt32) :
    h.slot starter.other ≠ some (.synSent, conv) := by
  intro waiting
  have drawn := ok.agreed.waiting _ conv waiting
  rw [ok.undrawn] at drawn
  cases drawn

/-- Whatever session a side holds, it has the starter's conversation id. -/
theorem OneSided.conv_eq (ok : OneSided yields starter h) {x : Side} {state : SessionState}
    {conv : UInt32} (held : h.slot x = some (state, conv)) : h.drawn starter = some conv := by
  cases state with
  | established => exact ok.final held
  | synSent =>
      rcases Side.eq_or_eq_other starter x with rfl | rfl
      · exact ok.agreed.waiting x conv held
      · exact absurd held (ok.not_waiting conv)

theorem OneSided.other_established (ok : OneSided yields starter h) {conv : UInt32}
    (ready : h.slot starter = some (.established, conv)) :
    ∃ conv', h.slot starter.other = some (.established, conv') := by
  have held := (ok.agreed.final starter conv ready).1
  rcases slotEq : h.slot starter.other with _ | ⟨_ | _, conv'⟩
  · exact absurd slotEq held
  · exact absurd slotEq (ok.not_waiting conv')
  · exact ⟨conv', rfl⟩

theorem OneSided.uncrossed (ok : OneSided yields starter h) (move : Move) : Uncrossed h move := by
  cases move with
  | deliver index ds sent =>
      intro x m found crossed
      cases m with
      | syn conv =>
          obtain ⟨own, ready, apart⟩ := crossed
          have sentBy := ok.agreed.syn x conv (List.mem_of_getElem? found)
          have held := ok.final ready
          rcases Side.eq_or_eq_other starter x with rfl | rfl
          · rw [ok.undrawn] at sentBy
            cases sentBy
          · rw [Side.other_other, held] at sentBy
            exact apart (Option.some.inj sentBy)
      | synAck conv => exact crossed
      | reset conv => exact crossed
      | data conv => exact crossed
      | junk => exact crossed
  | openTo x conv sent => trivial
  | offer x ds sent => trivial
  | drop index => trivial
  | duplicate index => trivial

/-- Only opening a session draws a conversation id. -/
theorem step_drawn {move : Move} {h' : Handshake} (taken : h.step yields move = some h') (x : Side)
    (elsewhere : ∀ conv sent, move ≠ .openTo x conv sent) : h'.drawn x = h.drawn x := by
  cases step_moves taken with
  | @opens y conv sent free sub =>
      have apart : x ≠ y := fun same => elsewhere conv sent (same ▸ rfl)
      simp only [Handshake.launch, Handshake.openAt, Function.update_of_ne apart]
  | offered => rfl
  | delivers => rfl
  | drops => rfl
  | duplicates => rfl

theorem OneSided.step (opposite : ∀ x, yields x.other = !yields x)
    (ok : OneSided yields starter h) {move : Move} (opened : OpenedBy starter move)
    {h' : Handshake} (taken : h.step yields move = some h') : OneSided yields starter h' := by
  refine ⟨ok.agreed.step opposite (ok.uncrossed move) taken,
    ok.announced.step ok.agreed (ok.uncrossed move) taken, ?_⟩
  rw [step_drawn taken]
  · exact ok.undrawn
  · rintro conv sent rfl
    exact Side.other_ne starter opened

end Keep

end Handshake

theorem handshakeMachine_oneSided {yields : Side → Bool} {starter : Side}
    (opposite : ∀ x, yields x.other = !yields x) {h : Handshake}
    (reached : (handshakeMachine yields).Reach (fun _ => Handshake.OpenedBy starter) h) :
    h.OneSided yields starter := by
  refine reached.invariant (P := Handshake.OneSided yields starter) ?_ ?_
  · exact ⟨Handshake.Agreed.start yields, fun _ => rfl, rfl⟩
  · intro before move after ok opened taken
    exact ok.step opposite opened taken

namespace Network

variable {K : Type}

def IsEstablished (setting : Setting) (n : Network K) (x : Side) : Prop :=
  ∃ id s, (n.party x).peer.sessions.find (canOf setting x) = some (id, s) ∧
    s.inner.state = .established

/-- The events a side has emitted. -/
def events (n : Network K) (x : Side) : List Lifecycle :=
  ((n.party x).peer.log.filterMap LogEntry.event?).map Event.kind

theorem Refines.events_eq {setting : Setting} {n : Network K} {h : Handshake}
    (refines : Refines setting n h) (x : Side) : n.events x = h.events x := by
  rw [refines.events x]
  exact (refines.tidy x).only.eventsFor_eq.symm

theorem Refines.established_iff {setting : Setting} {n : Network K} {h : Handshake}
    (refines : Refines setting n h) (x : Side) :
    n.IsEstablished setting x ↔ ∃ conv, h.slot x = some (.established, conv) := by
  rw [refines.slot x, Peer.slot_eq]
  constructor
  · rintro ⟨id, s, found, ready⟩
    exact ⟨s.inner.convId, by rw [found, Option.map_some, ready]⟩
  · rintro ⟨conv, held⟩
    obtain ⟨⟨id, s⟩, found, view⟩ := Option.map_eq_some_iff.mp held
    exact ⟨id, s, found, (Prod.mk.inj view).1⟩

variable [Kcp K]

/-- `b` calls `send()` only while it holds a session for `a`. -/
def StartedByA (setting : Setting) (n : Network K) : Action → Prop
  | .send .b _ _ _ _ => (n.party .b).peer.slot (canOf setting .b) ≠ none
  | _ => True

instance (setting : Setting) (n : Network K) : ∀ act, Decidable (n.StartedByA setting act)
  | .send .b _ _ _ _ => inferInstanceAs (Decidable (_ ≠ none))
  | .send .a _ _ _ _ => isTrue trivial
  | .disconnect .. => isTrue trivial
  | .tick .. => isTrue trivial
  | .rebind .. => isTrue trivial
  | .deliver .. => isTrue trivial
  | .drop _ => isTrue trivial
  | .duplicate _ => isTrue trivial

/-- The conditions of a one-sided run. -/
def OneSidedStep (setting : Setting) (n : Network K) (act : Action) : Prop :=
  n.Calm setting act ∧ n.StartedByA setting act

instance (setting : Setting) (n : Network K) (act : Action) :
    Decidable (n.OneSidedStep setting act) :=
  inferInstanceAs (Decidable (_ ∧ _))

section Run

variable {setting : Setting} {n : Network K}

theorem oneSided_refines (distinct : setting.addr .a ≠ setting.addr .b)
    (reached : (networkMachine K setting).Reach (OneSidedStep setting) n) :
    ∃ h, Refines setting n h ∧ h.OneSided (tie setting) .a := by
  obtain ⟨h, imageReached, refines⟩ := simulation (fun _ => Handshake.OpenedBy .a)
    (fun _ _ allowed => allowed.1) (by
      intro n h act move refines allowed mirrors
      cases mirrors with
      | @opens x _ _ _ _ _ _ absent _ =>
          cases x with
          | a => rfl
          | b => exact absurd ((refines.slot .b).symm.trans absent) allowed.2
      | sends => trivial
      | ticks => trivial
      | drops => trivial
      | duplicates => trivial
      | delivers => trivial) reached
  exact ⟨h, refines, handshakeMachine_oneSided (tie_opposite distinct) imageReached⟩

theorem backlog_step (q : SendQueue K) {n' : Network K} {h : Handshake} {act : Action}
    (refines : Refines setting n h) (ok : h.OneSided (tie setting) .a)
    (backlog : (n.party .a).Backlog q (canOf setting .a)) (calm : n.Calm setting act)
    (taken : n.step setting act = some n') : (n'.party .a).Backlog q (canOf setting .a) := by
  have launched : ∀ (m : Network K) (x : Side) (party : Party K), m.party = n.party →
      (x = .a → party.Backlog q (canOf setting .a)) →
      ((m.launch setting x party).party .a).Backlog q (canOf setting .a) := by
    intro m x party same acts
    cases x with
    | a =>
        simp only [launch, Function.update_self]
        exact (acts rfl).continues rfl (.same _ rfl)
    | b =>
        simp only [launch, ne_eq, reduceCtorEq, not_false_eq_true, Function.update_of_ne, same]
        exact backlog
  cases act with
  | send x data draw clock sendTo =>
      obtain rfl := Option.some.inj taken
      refine launched n x _ rfl ?_
      rintro rfl
      exact Party.Backlog.send backlog data draw clock _
  | disconnect x sendTo => exact calm.elim
  | tick x tick sendTo =>
      obtain ⟨p', applied, rfl⟩ := Option.map_eq_some_iff.mp taken
      obtain ⟨order, rfl⟩ := Peer.apply_tick applied
      refine launched n x _ rfl ?_
      rintro rfl
      exact backlog.continues rfl (Peer.updateTick_continues (refines.tidy .a) tick _ order calm)
  | rebind x incarnation => exact calm.elim
  | deliver index clock sendTo =>
      simp only [step, Option.map_eq_some_iff] at taken
      obtain ⟨f, found, rfl⟩ := taken
      refine launched _ f.dst _ rfl ?_
      intro toA
      rw [toA]
      have inFlight : (Side.a, Msg.decode f.bytes) ∈ h.net := by
        rw [refines.net, ← toA]
        exact List.mem_map_of_mem (f := fun f => (f.dst, Msg.decode f.bytes))
          (List.mem_of_getElem? found)
      refine backlog.continues rfl (Peer.handleIncoming_continues _ _ _ _ _ ?_ ?_)
      · intro conv isSyn
        rw [isSyn] at inFlight
        have drawn := ok.agreed.syn .a conv inFlight
        rw [ok.undrawn] at drawn
        cases drawn
      · intro conv isReset
        rw [isReset] at inFlight
        exact ok.agreed.reset .a conv inFlight
  | drop index =>
      simp only [step] at taken
      split at taken
      · obtain rfl := Option.some.inj taken
        exact backlog
      · cases taken
  | duplicate index =>
      simp only [step, Option.map_eq_some_iff] at taken
      obtain ⟨f, found, rfl⟩ := taken
      exact backlog

theorem oneSided_backlog (q : SendQueue K) (distinct : setting.addr .a ≠ setting.addr .b)
    (reached : (networkMachine K setting).Reach (OneSidedStep setting) n) :
    (n.party .a).Backlog q (canOf setting .a) := by
  refine reached.invariant_with (P := fun n => (n.party .a).Backlog q (canOf setting .a))
    (fun _ => oneSided_refines distinct) (.unopened rfl rfl) ?_
  rintro before act after backlog ⟨h, refines, ok⟩ allowed taken
  exact backlog_step q refines ok backlog allowed.1 taken

end Run

end Network

open Network in
/-- When only `a` opens sessions, no behaviour of the network breaks the
handshake or loses what `a` has queued. -/
theorem one_sided_handshake (K : Type) [Kcp K] (q : SendQueue K) (setting : Setting)
    (distinct : setting.addr .a ≠ setting.addr .b) (n : Network K)
    (reached : (networkMachine K setting).Reach (OneSidedStep setting) n) :
    (n.IsEstablished setting .a → n.IsEstablished setting .b) ∧
    (∀ idA sA idB sB, (n.party .a).peer.sessions.find (canOf setting .a) = some (idA, sA) →
      (n.party .b).peer.sessions.find (canOf setting .b) = some (idB, sB) →
      sA.inner.convId = sB.inner.convId) ∧
    (∀ x, (n.IsEstablished setting x → n.events x = [.connected]) ∧
      (¬ n.IsEstablished setting x → n.events x = [])) ∧
    (n.party .a).peer.sessions.fresh ≤ 1 ∧
    (∀ payload ∈ (n.party .a).buffered, ∃ s taken flushed,
      (n.party .a).peer.sessions.find (canOf setting .a) = some (0, s) ∧
      q.Journal s.inner.kcp taken flushed ∧
      (payload ∈ flushed ∨ payload ∈ q.queued s.inner.kcp)) := by
  obtain ⟨h, refines, ok⟩ := oneSided_refines distinct reached
  have backlog := oneSided_backlog q distinct reached
  refine ⟨?_, ?_, ?_, ?_, ?_⟩
  · rw [refines.established_iff, refines.established_iff]
    rintro ⟨conv, ready⟩
    exact ok.other_established ready
  · intro idA sA idB sB foundA foundB
    have drawnA := ok.conv_eq ((refines.slot .a).trans (Peer.slot_some foundA))
    have drawnB := ok.conv_eq ((refines.slot .b).trans (Peer.slot_some foundB))
    exact Option.some.inj (drawnA.symm.trans drawnB)
  · intro x
    rw [refines.events_eq, refines.established_iff, ok.announced x]
    constructor
    · rintro ⟨conv, ready⟩
      rw [ready]
      rfl
    · intro unready
      rcases slotEq : h.slot x with _ | ⟨_ | _, conv⟩
      · rfl
      · rfl
      · exact absurd ⟨conv, slotEq⟩ unready
  · cases backlog with
    | unopened fresh empty => omega
    | opened s fresh found retains => omega
  · intro payload mem
    cases backlog with
    | unopened fresh empty =>
        rw [empty] at mem
        cases mem
    | opened s fresh found retains =>
        obtain ⟨taken, flushed, journal, kept, _⟩ := retains
        have held := kept.subset mem
        rw [journal.balance] at held
        exact ⟨s, taken, flushed, found, journal, List.mem_append.mp held⟩

open Network in
/-- `a` queues a payload, its SYN is duplicated and both copies are delivered. -/
theorem one_sided_handshake_duplicated :
    ∃ n : Network SampleKcp, (n.party .a).buffered = [[1]] ∧
      n.IsEstablished Setting.sample .b ∧ n.events .b = [.connected] := by
  have run : ((networkMachine SampleKcp Setting.sample).exec (OneSidedStep Setting.sample)
      (networkMachine SampleKcp Setting.sample).start
      [.sendSample .a [1] .ten, .duplicate 0, .deliverSample 0, .deliverSample 0,
        .deliverSample 0]).any
      (fun n => decide ((n.party .a).buffered = [[1]] ∧
        (n.party .a).peer.slot (canOf Setting.sample .a) = some (.established, 10))) = true := by
    decide +kernel
  obtain ⟨n, reached, checked⟩ := Machine.Reach.exec_any _ run
  obtain ⟨buffered, slotA⟩ := of_decide_eq_true checked
  obtain ⟨other, _, announced, _, _⟩ := one_sided_handshake SampleKcp SampleKcp.sendQueue
    Setting.sample (by decide) n reached
  rw [Peer.slot_eq, Option.map_eq_some_iff] at slotA
  obtain ⟨⟨id, s⟩, found, view⟩ := slotA
  have ready := other ⟨id, s, found, (Prod.mk.inj view).1⟩
  exact ⟨n, buffered, ready, (announced .b).1 ready⟩

end KcpPeer
