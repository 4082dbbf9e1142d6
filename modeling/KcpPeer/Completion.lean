import KcpPeer.InOrder

set_option autoImplicit false

namespace KcpPeer

def Msg.isSyn : Msg → Bool
  | .syn _ => true
  | _ => false

/-- The sockets take every datagram, and the network neither loses nor repeats one. -/
def Action.Lossless : Action → Prop
  | .send _ _ _ _ sendTo => ∀ bytes dest, ∃ sent, sendTo bytes dest = .ok sent
  | .disconnect _ sendTo => ∀ bytes dest, ∃ sent, sendTo bytes dest = .ok sent
  | .tick _ _ sendTo => ∀ bytes dest, ∃ sent, sendTo bytes dest = .ok sent
  | .rebind .. => True
  | .deliver _ _ sendTo => ∀ bytes dest, ∃ sent, sendTo bytes dest = .ok sent
  | .drop _ => False
  | .duplicate _ => False

theorem Action.lossless_sendSample (x : Side) (data : Bytes) (draw : DrawnConv) :
    (sendSample x data draw).Lossless :=
  fun bytes _ => ⟨bytes.length, rfl⟩

theorem Action.lossless_deliverSample (index : Nat) : (deliverSample index).Lossless :=
  fun bytes _ => ⟨bytes.length, rfl⟩

namespace Network

variable {K : Type}

/-- No control packet is in flight. -/
def ControlQuiet (n : Network K) : Prop :=
  ∀ f ∈ n.flights, (Msg.decode f.bytes).isControl = false

instance (n : Network K) : Decidable n.ControlQuiet :=
  inferInstanceAs (Decidable (∀ f ∈ n.flights, _))

/-- Every session's instance writes the conversation id of its session. -/
def Stamped [Kcp K] (c : ConvStamp K) (setting : Setting) (n : Network K) : Prop :=
  ∀ x, (n.party x).peer.Stamped c (setting.addr x.other)

/-- The messages to a side in flight. -/
theorem Refines.inbox_quiet {setting : Setting} {n : Network K} {h : Handshake}
    (refines : Refines setting n h) (quiet : n.ControlQuiet) (x : Side) :
    ∀ m ∈ h.inbox x, m.isControl = false := by
  intro m mem
  rw [Handshake.inbox, refines.net, List.filterMap_map] at mem
  obtain ⟨f, inFlight, kept⟩ := List.mem_filterMap.mp mem
  simp only [Function.comp_apply, Option.ite_none_right_eq_some, Option.some.injEq] at kept
  rw [← kept.2]
  exact quiet f inFlight

/-- What is delivered next to a side is the first message to it in flight. -/
theorem Refines.inbox_head {setting : Setting} {n : Network K} {h : Handshake}
    (refines : Refines setting n h) {index : Nat} {f : Flight}
    (found : n.flights[index]? = some f)
    (first : ∀ j < index, n.flights[j]?.map Flight.dst ≠ n.flights[index]?.map Flight.dst) :
    ∃ rest, h.inbox f.dst = Msg.decode f.bytes :: rest := by
  rw [Handshake.inbox, refines.net, List.filterMap_map]
  refine ⟨_, Handshake.filterMap_eraseIdx_first found (if_pos rfl) ?_⟩
  intro j below f' earlier
  refine if_neg fun same => first j below ?_
  rw [earlier, found, Option.map_some, Option.map_some, ← same]

variable [Kcp K]

/-- The oldest datagram of a direction is delivered, no SYN is sent again, and a
side that opens a session draws another conversation id than the other did. -/
def Orderly (setting : Setting) (n : Network K) : Action → Prop
  | .send x _ draw _ _ => (n.party x).peer.slot (canOf setting x) = none →
      ((n.party x.other).peer.slot (canOf setting x.other)).map Prod.snd ≠ some draw.val
  | .tick x tick sendTo =>
      ∀ o ∈ ((n.party x).peer.updateTick tick (socketOf setting x sendTo)).outbox,
        o.msg.isSyn = false
  | .deliver index _ _ =>
      ∀ j < index, n.flights[j]?.map Flight.dst ≠ n.flights[index]?.map Flight.dst
  | _ => True

instance (setting : Setting) (n : Network K) : ∀ act, Decidable (n.Orderly setting act)
  | .send .. => inferInstanceAs (Decidable (_ → _ ≠ _))
  | .disconnect .. => isTrue trivial
  | .tick .. => inferInstanceAs (Decidable (∀ o ∈ _, _ = false))
  | .rebind .. => isTrue trivial
  | .deliver .. => inferInstanceAs (Decidable (∀ j < _, _ ≠ _))
  | .drop _ => isTrue trivial
  | .duplicate _ => isTrue trivial

/-- What the claimed network rules out of a step's own state. -/
def OrderlyStep (setting : Setting) (n : Network K) (act : Action) : Prop :=
  n.Calm setting act ∧ n.Orderly setting act

instance (setting : Setting) (n : Network K) (act : Action) :
    Decidable (n.OrderlyStep setting act) :=
  inferInstanceAs (Decidable (_ ∧ _))

/-- The conditions of an in-order lossless run. -/
def InOrderStep (setting : Setting) (n : Network K) (act : Action) : Prop :=
  n.OrderlyStep setting act ∧ act.Lossless

section Run

variable {setting : Setting} {n : Network K} {c : ConvStamp K}

theorem updateTick_coherent {x : Side} (stamped : n.Stamped c setting)
    (tidy : (n.party x).peer.Tidy (canOf setting x)) {tick : Tick}
    {sendTo : Bytes → SocketAddr → Except IoError Nat}
    (order : tick.order.isPerm (n.party x).peer.sessions.keys)
    (kept : (Peer.scan tick (socketOf setting x sendTo) tick.order (n.party x).peer).2 = [])
    (reliable : (socketOf setting x sendTo).Reliable) :
    ((n.party x).peer.updateTick tick (socketOf setting x sendTo)).Coherent c
      (setting.addr x.other) := by
  rcases tidy.updateTick_eq order kept with same | scanned
  · rw [same]
    exact (stamped x).idle tidy.idle
  · rw [scanned]
    exact Peer.scanSession_coherent (stamped x) tidy.idle reliable tick

theorem Stamped.launch (stamped : n.Stamped c setting) (flights : List Flight) (x : Side)
    (party : Party K) (coherent : party.peer.Coherent c (setting.addr x.other)) :
    (Network.launch { n with flights } setting x party).Stamped c setting :=
  Network.launch_each (P := fun y party => party.peer.Stamped c (setting.addr y.other))
    coherent.stamped stamped

theorem Stamped.step {h : Handshake} (stamped : n.Stamped c setting)
    (refines : Refines setting n h) {act : Action} (allowed : n.InOrderStep setting act)
    {n' : Network K} (taken : n.step setting act = some n') : n'.Stamped c setting := by
  obtain ⟨⟨calm, _⟩, lossless⟩ := allowed
  cases act with
  | send x data draw clock sendTo =>
      obtain rfl := Option.some.inj taken
      have reliable : (socketOf setting x sendTo).Reliable := lossless
      exact stamped.launch n.flights x _
        (Peer.send_coherent (stamped x) (refines.tidy x).idle clock reliable data draw)
  | disconnect x sendTo => exact calm.elim
  | tick x tick sendTo =>
      obtain ⟨p', applied, rfl⟩ := Option.map_eq_some_iff.mp taken
      obtain ⟨order, rfl⟩ := Peer.apply_tick applied
      exact stamped.launch n.flights x _
        (updateTick_coherent stamped (refines.tidy x) order calm lossless)
  | rebind x incarnation => exact calm.elim
  | deliver index clock sendTo =>
      simp only [Network.step, Option.map_eq_some_iff] at taken
      obtain ⟨f, found, rfl⟩ := taken
      have reliable : (socketOf setting f.dst sendTo).Reliable := lossless
      exact stamped.launch _ f.dst _ (Peer.handleIncoming_coherent (stamped f.dst)
        (refines.tidy f.dst).idle clock reliable f.bytes)
  | drop index => exact lossless.elim
  | duplicate index => exact lossless.elim

/-- The messages of a coherent peer all reach the wire, and data carries the
conversation id of its session. -/
theorem launched_coherent {x : Side} {p p' : Peer K} {reply : Reply} (idle : p.outbox = [])
    (answers : p.Answers p' (canOf setting x) reply)
    (coherent : p'.Coherent c (setting.addr x.other)) :
    launched setting x p' = reply.out ∧
      ∀ d, .data d ∈ reply.out →
        ∃ conv, reply.slot = some (.established, conv) ∧ d = some conv := by
  constructor
  · refine launched_all setting x idle answers.sends ?_
    intro o mem
    obtain ⟨accepted, dest, _⟩ := coherent.outbox o mem
    exact ⟨accepted, dest⟩
  · intro d mem
    obtain ⟨out, grown, written⟩ := answers.sends
    rw [idle, List.nil_append] at grown
    rw [← written] at mem
    obtain ⟨o, sent, isData⟩ := List.mem_map.mp mem
    rw [← grown] at sent
    rw [← answers.slot]
    exact (coherent.outbox o sent).2.2 d isData

theorem ordered {h : Handshake} (stamped : n.Stamped c setting) (refines : Refines setting n h)
    {act : Action} {move : Move} (allowed : n.InOrderStep setting act)
    (mirrors : Mirrors setting n h act move) {n' : Network K}
    (taken : n.step setting act = some n') : h.OrderedMove (tie setting) move := by
  obtain ⟨⟨calm, orderly⟩, lossless⟩ := allowed
  cases mirrors with
  | @opens x data draw clock sendTo p' after absent full =>
      have reliable : (socketOf setting x sendTo).Reliable := lossless
      have coherent := Peer.send_coherent (stamped x) (refines.tidy x).idle clock reliable data draw
      rw [← after] at coherent
      refine ⟨(launched_coherent (refines.tidy x).idle full coherent).1, ?_⟩
      intro state conv held same
      refine orderly ((refines.slot x).symm.trans absent) ?_
      rw [← refines.slot x.other, held, Option.map_some, same]
  | @sends x data draw clock sendTo p' msgs ds after present full offered onlyData =>
      have reliable : (socketOf setting x sendTo).Reliable := lossless
      have coherent := Peer.send_coherent (stamped x) (refines.tidy x).idle clock reliable data draw
      rw [← after] at coherent
      obtain ⟨all, carried⟩ := launched_coherent (refines.tidy x).idle full coherent
      intro m mem
      rw [all] at mem
      obtain ⟨d, rfl⟩ := onlyData m mem
      obtain ⟨conv, ready, rfl⟩ := carried d mem
      exact ⟨conv, ready, rfl⟩
  | @ticks x tick sendTo p' msgs ds after full offered =>
      obtain ⟨_, applied, _⟩ := Option.map_eq_some_iff.mp taken
      obtain ⟨order, _⟩ := Peer.apply_tick applied
      have coherent := updateTick_coherent stamped (refines.tidy x) order calm lossless
      rw [← after] at coherent
      obtain ⟨all, carried⟩ := launched_coherent (refines.tidy x).idle full coherent
      intro m mem
      rw [all] at mem
      have submitted := mem
      obtain ⟨out, grown, written⟩ := full.sends
      rw [(refines.tidy x).idle, List.nil_append] at grown
      rw [← written] at submitted
      obtain ⟨o, sent, rfl⟩ := List.mem_map.mp submitted
      rw [← grown, after] at sent
      have fresh := orderly o sent
      have shape := offered.subset mem
      rcases slotEq : h.slot x with _ | ⟨_ | _, own⟩
      · rw [slotEq] at shape
        cases shape
      · rw [slotEq] at shape
        rw [List.mem_singleton.mp shape] at fresh
        cases fresh
      · rw [slotEq] at shape
        obtain ⟨d, _, isData⟩ := List.mem_map.mp shape
        rw [← isData] at mem ⊢
        obtain ⟨conv, ready, rfl⟩ := carried d mem
        exact ⟨conv, slotEq.symm.trans ready, rfl⟩
  | @delivers index clock sendTo f p' ds found after full =>
      have reliable : (socketOf setting f.dst sendTo).Reliable := lossless
      have coherent := Peer.handleIncoming_coherent (stamped f.dst) (refines.tidy f.dst).idle clock
        reliable f.bytes
      rw [← after] at coherent
      obtain ⟨all, carried⟩ := launched_coherent (refines.tidy f.dst).idle full coherent
      intro x m inFlight
      rw [refines.net, List.getElem?_map, found, Option.map_some] at inFlight
      cases inFlight
      refine ⟨?_, all, fun d mem => carried d (all ▸ mem)⟩
      intro j below y m' earlier same
      rw [refines.net, List.getElem?_map, Option.map_eq_some_iff] at earlier
      obtain ⟨f', found', pair⟩ := earlier
      refine orderly j below ?_
      rw [found', found, Option.map_some, Option.map_some, (Prod.mk.inj pair).1, same]
  | drops index => exact lossless.elim
  | duplicates index => exact lossless.elim

/-- `send()` leaves a session for its address. -/
theorem slot_send (p : Peer K) (peer : SocketAddr) (data : Bytes) (draw : DrawnConv) (clock : Clock)
    (socket : Socket) : (p.send peer data draw clock socket).1.slot (canonicalize peer) ≠ none := by
  by_cases absent : p.slot (canonicalize peer) = none
  · rw [(Peer.send_opens p peer data draw clock socket absent).slot]
    exact Option.some_ne_none _
  · obtain ⟨_, _, offered, _⟩ := Peer.send_offers p peer data draw clock socket absent
    rw [offered.slot]
    exact absent

/-- A step either is a `send()` of the side or leaves its count of calls. -/
theorem step_sends {n' : Network K} {act : Action} (calm : n.Calm setting act)
    (taken : n.step setting act = some n') (x : Side) :
    (n'.party x).peer.slot (canOf setting x) ≠ none ∨ (n'.party x).sends = (n.party x).sends := by
  have launched : ∀ (m : Network K) (y : Side) (party : Party K), m.party = n.party →
      party.sends = (n.party y).sends →
      ((m.launch setting y party).party x).sends = (n.party x).sends := by
    intro m y party same sends
    by_cases acts : x = y
    · subst acts
      simp only [Network.launch, Function.update_self, sends]
    · simp only [Network.launch, Function.update_of_ne acts, same]
  cases act with
  | send y data draw clock sendTo =>
      obtain rfl := Option.some.inj taken
      by_cases acts : x = y
      · left
        subst acts
        simp only [Network.launch, Function.update_self]
        exact slot_send (n.party x).peer (setting.addr x.other) data draw clock
          (socketOf setting x sendTo)
      · right
        simp only [Network.launch, Function.update_of_ne acts]
  | disconnect y sendTo => exact calm.elim
  | tick y tick sendTo =>
      simp only [Network.step, Option.map_eq_some_iff] at taken
      obtain ⟨p', _, rfl⟩ := taken
      exact Or.inr (launched n y _ rfl rfl)
  | rebind y incarnation => exact calm.elim
  | deliver index clock sendTo =>
      simp only [Network.step, Option.map_eq_some_iff] at taken
      obtain ⟨f, _, rfl⟩ := taken
      exact Or.inr (launched _ f.dst _ rfl rfl)
  | drop index =>
      simp only [Network.step] at taken
      split at taken
      · obtain rfl := Option.some.inj taken
        exact Or.inr rfl
      · cases taken
  | duplicate index =>
      simp only [Network.step, Option.map_eq_some_iff] at taken
      obtain ⟨f, _, rfl⟩ := taken
      exact Or.inr rfl

/-- The network in an in-order lossless run, with its image. -/
structure Completes (c : ConvStamp K) (setting : Setting) (n : Network K) (h : Handshake) :
    Prop where
  refines : Refines setting n h
  inOrder : h.InOrder (tie setting)
  stamped : n.Stamped c setting
  called : ∀ x, 0 < (n.party x).sends → h.slot x ≠ none

theorem Completes.step {h : Handshake} (distinct : setting.addr .a ≠ setting.addr .b)
    (ok : Completes c setting n h) {act : Action} (allowed : n.InOrderStep setting act)
    {n' : Network K} (taken : n.step setting act = some n') : ∃ h', Completes c setting n' h' := by
  have calm := allowed.1.1
  obtain ⟨move, h', moved, refines, mirrors⟩ := step_refines ok.refines calm taken
  have moves := ordered ok.stamped ok.refines allowed mirrors taken
  refine ⟨h', refines, ok.inOrder.step (tie_opposite distinct) moves moved,
    ok.stamped.step ok.refines allowed taken, ?_⟩
  intro x called
  rcases step_sends calm taken x with held | same
  · rw [refines.slot x]
    exact held
  · rw [same] at called
    exact ok.inOrder.agreed.step_held moved (ok.called x called)

theorem inOrder_completes (c : ConvStamp K) (distinct : setting.addr .a ≠ setting.addr .b)
    (reached : (networkMachine K setting).Reach (InOrderStep setting) n) :
    ∃ h, Completes c setting n h := by
  refine reached.invariant (P := fun n => ∃ h, Completes c setting n h) ?_ ?_
  · refine ⟨.start, start_refines setting, .start _, ?_, ?_⟩
    · intro x id s present
      cases present
    · intro x called
      cases called
  · rintro before act after ⟨h, ok⟩ allowed taken
    exact ok.step distinct allowed taken

end Run

end Network

open Network in
/-- On an in-order lossless network every schedule of `send()` calls ends, once
no control packet is in flight, with both sides established in one conversation
and one `Connected` on each, and data is only ever delivered to its conversation. -/
theorem handshake_completes (K : Type) [Kcp K] (c : ConvStamp K) (setting : Setting)
    (distinct : setting.addr .a ≠ setting.addr .b) (n : Network K)
    (reached : (networkMachine K setting).Reach (InOrderStep setting) n) :
    ((∃ x, 0 < (n.party x).sends) → n.ControlQuiet →
      (∃ conv, ∀ x, ∃ id s, (n.party x).peer.sessions.find (canOf setting x) = some (id, s) ∧
        s.inner.state = .established ∧ s.inner.convId = conv) ∧
      ∀ x, n.events x = [.connected]) ∧
    ∀ index clock sendTo f d, n.InOrderStep setting (.deliver index clock sendTo) →
      n.flights[index]? = some f → Msg.decode f.bytes = .data d →
      ∃ id s, (n.party f.dst).peer.sessions.find (canOf setting f.dst) = some (id, s) ∧
        d = some s.inner.convId := by
  obtain ⟨h, ok⟩ := inOrder_completes c distinct reached
  have session : ∀ {x : Side} {state : SessionState} {conv : UInt32},
      h.slot x = some (state, conv) →
      ∃ id s, (n.party x).peer.sessions.find (canOf setting x) = some (id, s) ∧
        s.inner.state = state ∧ s.inner.convId = conv := by
    intro x state conv held
    rw [ok.refines.slot x, Peer.slot_eq] at held
    obtain ⟨⟨id, s⟩, found, view⟩ := Option.map_eq_some_iff.mp held
    exact ⟨id, s, found, (Prod.mk.inj view).1, (Prod.mk.inj view).2⟩
  refine ⟨?_, ?_⟩
  · rintro ⟨caller, called⟩ quiet
    have established := ok.inOrder.complete (ok.called caller called)
      (ok.refines.inbox_quiet quiet)
    obtain ⟨convA, readyA⟩ := established .a
    refine ⟨⟨convA, ?_⟩, ?_⟩
    · intro x
      obtain ⟨convX, readyX⟩ := established x
      obtain ⟨id, s, found, state, conv⟩ := session readyX
      refine ⟨id, s, found, state, conv.trans ?_⟩
      cases x with
      | a =>
          rw [readyA] at readyX
          cases readyX
          rfl
      | b => exact (ok.inOrder.agreed.same_conv (tie_opposite distinct) readyA readyX).symm
    · intro x
      obtain ⟨conv, ready⟩ := established x
      rw [ok.refines.events_eq, ok.inOrder.announced x, ready]
      rfl
  · intro index clock sendTo f d allowed found isData
    obtain ⟨rest, head⟩ := ok.refines.inbox_head found allowed.1.2
    rw [isData] at head
    obtain ⟨conv, ready, rfl⟩ := ok.inOrder.data_belongs head
    obtain ⟨id, s, held, _, same⟩ := session ready
    exact ⟨id, s, held, congrArg some same.symm⟩

open Network in
/-- Both sides open a session before either SYN is delivered. -/
theorem handshake_completes_simultaneous :
    ∃ n : Network SampleKcp, ∃ conv, ∀ x, ∃ id s,
      (n.party x).peer.sessions.find (canOf Setting.sample x) = some (id, s) ∧
        s.inner.state = .established ∧ s.inner.convId = conv := by
  have run : ((networkMachine SampleKcp Setting.sample).exec (OrderlyStep Setting.sample)
      (networkMachine SampleKcp Setting.sample).start
      [.sendSample .a [1] .ten, .sendSample .b [2] .twenty, .deliverSample 0, .deliverSample 0,
        .deliverSample 0, .deliverSample 0, .deliverSample 0, .deliverSample 0]).any
      (fun n => decide ((n.party .a).sends = 1 ∧ n.ControlQuiet)) = true := by
    decide +kernel
  obtain ⟨n, reached, checked⟩ := Machine.Reach.exec_ensured (InOrderStep Setting.sample) _ run (by
      intro act mem n orderly
      refine ⟨orderly, ?_⟩
      simp only [List.mem_cons, List.not_mem_nil, or_false] at mem
      rcases mem with rfl | rfl | rfl | rfl | rfl | rfl | rfl | rfl
      · apply Action.lossless_sendSample
      · apply Action.lossless_sendSample
      all_goals apply Action.lossless_deliverSample)
  obtain ⟨called, quiet⟩ := of_decide_eq_true checked
  obtain ⟨agreed, _⟩ := (handshake_completes SampleKcp SampleKcp.convStamp Setting.sample
    (by decide) n reached).1 ⟨.a, by rw [called]; decide⟩ quiet
  exact ⟨n, agreed⟩

end KcpPeer
