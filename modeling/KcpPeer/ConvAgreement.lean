import KcpPeer.SampleKcp
import KcpPeer.Simulation

set_option autoImplicit false

namespace KcpPeer

def Msg.isHandshake : Msg → Bool
  | .syn _ => true
  | .synAck _ => true
  | _ => false

namespace Network

variable {K : Type}

/-- No SYN and no SYN_ACK is in flight. -/
def HandshakeQuiet (n : Network K) : Prop :=
  ∀ f ∈ n.flights, (Msg.decode f.bytes).isHandshake = false

instance (n : Network K) : Decidable n.HandshakeQuiet :=
  inferInstanceAs (Decidable (∀ f ∈ n.flights, _))

/-- Two established sessions for each other have one conversation id once the
handshake's packets are gone. -/
def ConvAgreement (setting : Setting) (n : Network K) : Prop :=
  ∀ idA sA idB sB, (n.party .a).peer.sessions.find (canOf setting .a) = some (idA, sA) →
    (n.party .b).peer.sessions.find (canOf setting .b) = some (idB, sB) →
    sA.inner.state = .established → sB.inner.state = .established → n.HandshakeQuiet →
    sA.inner.convId = sB.inner.convId

/-- The step does not deliver a SYN to an established session with another
conversation id, where the handler replaces the session. -/
def KeepsEstablished (setting : Setting) (n : Network K) : Action → Prop
  | .deliver index _ _ => ∀ f, n.flights[index]? = some f →
      ¬ Crossed ((n.party f.dst).peer.slot (canOf setting f.dst)) (Msg.decode f.bytes)
  | _ => True

instance (setting : Setting) (n : Network K) : ∀ act, Decidable (n.KeepsEstablished setting act)
  | .deliver index _ _ =>
      match found : n.flights[index]? with
      | none => isTrue fun _ inFlight => nomatch found.symm.trans inFlight
      | some f => decidable_of_iff
          (¬ Crossed ((n.party f.dst).peer.slot (canOf setting f.dst)) (Msg.decode f.bytes))
          ⟨fun kept _ inFlight => Option.some.inj (found.symm.trans inFlight) ▸ kept,
            fun kept => kept f found⟩
  | .send .. => isTrue trivial
  | .disconnect .. => isTrue trivial
  | .tick .. => isTrue trivial
  | .rebind .. => isTrue trivial
  | .drop _ => isTrue trivial
  | .duplicate _ => isTrue trivial

/-- Both sides are established, with different conversation ids, and nothing is
in flight. -/
def settledApart (setting : Setting) (n : Network K) : Bool :=
  match (n.party .a).peer.slot (canOf setting .a), (n.party .b).peer.slot (canOf setting .b) with
  | some (.established, convA), some (.established, convB) =>
      n.flights.isEmpty && decide (convA ≠ convB)
  | _, _ => false

theorem not_convAgreement_of_settledApart {setting : Setting} {n : Network K}
    (apart : n.settledApart setting = true) : ¬ n.ConvAgreement setting := by
  intro agreement
  unfold settledApart at apart
  split at apart
  · rename_i convA convB slotA slotB
    rw [Peer.slot_eq, Option.map_eq_some_iff] at slotA slotB
    obtain ⟨⟨idA, sA⟩, foundA, viewA⟩ := slotA
    obtain ⟨⟨idB, sB⟩, foundB, viewB⟩ := slotB
    obtain ⟨readyA, rfl⟩ := Prod.mk.inj viewA
    obtain ⟨readyB, rfl⟩ := Prod.mk.inj viewB
    simp only [Bool.and_eq_true, List.isEmpty_iff, decide_eq_true_eq] at apart
    refine apart.2 (agreement idA sA idB sB foundA foundB readyA readyB ?_)
    intro f mem
    rw [apart.1] at mem
    cases mem
  · cases apart

end Network

open Network in
/-- While no SYN reaches an established session with another conversation id, two
calm peers agree on the conversation id in every state they reach. -/
theorem conv_agreement_without_replacement (K : Type) [Kcp K] (setting : Setting)
    (distinct : setting.addr .a ≠ setting.addr .b) (n : Network K)
    (reached : (networkMachine K setting).Reach
      (fun n act => n.Calm setting act ∧ n.KeepsEstablished setting act) n) :
    n.ConvAgreement setting := by
  obtain ⟨h, imageReached, refines⟩ := simulation
    Handshake.Uncrossed (fun _ _ allowed => allowed.1) (by
      intro n h act move refines allowed mirrors
      cases mirrors with
      | opens => trivial
      | sends => trivial
      | ticks => trivial
      | drops => trivial
      | duplicates => trivial
      | delivers found after full =>
          intro x m inFlight
          rw [refines.net, List.getElem?_map, found, Option.map_some] at inFlight
          cases inFlight
          rw [refines.slot]
          exact allowed.2 _ found) reached
  have agreed := handshakeMachine_agreed (tie_opposite distinct) imageReached
  intro idA sA idB sB foundA foundB readyA readyB _
  have slotA := (refines.slot .a).trans (Peer.slot_some foundA)
  have slotB := (refines.slot .b).trans (Peer.slot_some foundB)
  rw [readyA] at slotA
  rw [readyB] at slotB
  exact agreed.same_conv (tie_opposite distinct) slotA slotB

open Network in
/-- Both peers open, and a copy of `a`'s SYN reaches `b` after the tie-break: `b`
takes it for a restart and goes back to the conversation id that `a` gave up. -/
theorem conv_agreement_fails_on_late_syn :
    Setting.sample.addr .a ≠ Setting.sample.addr .b ∧
      ∃ n, (networkMachine SampleKcp Setting.sample).Reach (Calm Setting.sample) n ∧
        ¬ n.ConvAgreement Setting.sample := by
  refine ⟨by decide, ?_⟩
  have run : ((networkMachine SampleKcp Setting.sample).exec (Calm Setting.sample)
      (networkMachine SampleKcp Setting.sample).start
      [.sendSample .a [1] .ten, .sendSample .b [2] .twenty, .duplicate 0,
        .deliverSample 0, .deliverSample 0, .deliverSample 0, .deliverSample 0,
        .deliverSample 0, .deliverSample 0, .deliverSample 0, .deliverSample 0]).any
      (settledApart Setting.sample) = true := by
    decide +kernel
  obtain ⟨n, reached, apart⟩ := Machine.Reach.exec_any _ run
  exact ⟨n, reached, not_convAgreement_of_settledApart apart⟩

open Network in
/-- A simultaneous open without a late SYN. -/
theorem conv_agreement_without_replacement_sample :
    ∃ n : Network SampleKcp, n.HandshakeQuiet ∧ n.ConvAgreement Setting.sample ∧
      (n.party .a).peer.slot (canOf Setting.sample .a) = some (.established, 20) := by
  have run : ((networkMachine SampleKcp Setting.sample).exec
      (fun n act => n.Calm Setting.sample act ∧ n.KeepsEstablished Setting.sample act)
      (networkMachine SampleKcp Setting.sample).start
      [.sendSample .a [1] .ten, .sendSample .b [2] .twenty,
        .deliverSample 0, .deliverSample 0, .deliverSample 0, .deliverSample 0,
        .deliverSample 0, .deliverSample 0]).any
      (fun n => decide (n.HandshakeQuiet ∧
        (n.party .a).peer.slot (canOf Setting.sample .a) = some (.established, 20))) = true := by
    decide +kernel
  obtain ⟨n, reached, checked⟩ := Machine.Reach.exec_any _ run
  obtain ⟨quiet, slotA⟩ := of_decide_eq_true checked
  exact ⟨n, quiet, conv_agreement_without_replacement SampleKcp Setting.sample (by decide) n
    reached, slotA⟩

end KcpPeer
