import KcpPeer.SampleKcp
import KcpPeer.Wire

set_option autoImplicit false

namespace KcpPeer

/-- One side of a simultaneous open: its peer, the session it opened, what its
socket reports as its own address, and the source address it sees. -/
structure Opener (K : Type) where
  peer : Peer K
  id : SessionId
  session : Session K
  socket : Socket
  clock : Clock
  bound : SocketAddr
  sees : SocketAddr
  found : peer.sessions.find (canonicalize sees) = some (id, session)
  waiting : session.inner.state = .synSent
  local_addr : socket.localAddr = .ok bound

namespace Opener

variable {K : Type}

/-- The comparison `from > my_addr` of the SYN handler. -/
def yields (x : Opener K) : Prop := x.bound < x.sees

instance (x : Opener K) : Decidable x.yields := inferInstanceAs (Decidable (_ < _))

variable [Kcp K]

/-- The peer after it handles a SYN that carries `conv`. -/
def handleSyn (x : Opener K) (conv : UInt32) : Peer K :=
  (x.peer.handleIncoming (encodeControl .syn conv) x.sees x.clock x.socket).1

/-- The handler leaves the session established with the conversation id the
comparison chooses. -/
theorem handleSyn_slot (x : Opener K) {conv : UInt32} (distinct : x.session.inner.convId ≠ conv) :
    (x.handleSyn conv).slot (canonicalize x.sees) =
      some (.established, if x.yields then conv else x.session.inner.convId) := by
  obtain ⟨ds, answers⟩ :=
    Peer.handleIncoming_respond x.peer (encodeControl .syn conv) x.sees x.clock
    x.socket x.local_addr
  have slot := answers.slot
  rw [Peer.slot_some x.found, x.waiting, Msg.decode_syn] at slot
  simp only [respond, distinct, ↓reduceIte, decide_eq_true_eq] at slot
  exact slot

/-- Exactly one side adopts the other's conversation id, and both end
established with the same one. -/
def TieBroken (x y : Opener K) : Prop :=
  ∃ convX convY,
    (x.handleSyn y.session.inner.convId).slot (canonicalize x.sees) = some (.established, convX) ∧
    (y.handleSyn x.session.inner.convId).slot (canonicalize y.sees) = some (.established, convY) ∧
    Xor (convX = y.session.inner.convId) (convY = x.session.inner.convId) ∧ convX = convY

end Opener

/-- Two simultaneous openers settle on one conversation id exactly when one of
the two comparisons of a bound address with an observed source address succeeds
and the other fails. -/
theorem tie_broken_iff (K : Type) [Kcp K] (x y : Opener K)
    (distinct : x.session.inner.convId ≠ y.session.inner.convId) :
    x.TieBroken y ↔ Xor x.yields y.yields := by
  unfold Opener.TieBroken
  rw [x.handleSyn_slot distinct, y.handleSyn_slot distinct.symm]
  by_cases yieldsX : x.yields <;> by_cases yieldsY : y.yields <;>
    simp [yieldsX, yieldsY, Xor, distinct, distinct.symm]

/-- Peers bound to the addresses under which they see each other break the tie. -/
theorem Opener.yields_of_specific {K : Type} {x y : Opener K} (seenX : y.sees = x.bound)
    (seenY : x.sees = y.bound) (distinct : x.bound ≠ y.bound) : Xor x.yields y.yields := by
  unfold Opener.yields
  rw [seenX, seenY]
  rcases SocketAddr.lt_or_gt distinct with below | below
  · exact Or.inl ⟨below, SocketAddr.lt_asymm below⟩
  · exact Or.inr ⟨below, SocketAddr.lt_asymm below⟩

/-- A peer bound to `0.0.0.0` yields to every IPv4 source, whatever its port. -/
theorem Opener.yields_of_wildcard {K : Type} {x : Opener K} {port : UInt16} {src : SocketAddrV4}
    (bound : x.bound = .v4 ⟨0, port⟩) (sees : x.sees = .v4 src) (concrete : src.ip ≠ 0) :
    x.yields := by
  unfold Opener.yields
  rw [bound, sees]
  refine Or.inl ?_
  have positive : src.ip.toNat ≠ 0 := fun zero => concrete (BitVec.eq_of_toNat_eq zero)
  have word : (0 : BitVec 32).toNat = 0 := rfl
  rw [BitVec.lt_def, word]
  omega

/-- Two peers bound to `0.0.0.0:7000` on different hosts have just called `send()`. -/
def Opener.wildcard (x : Side) : Opener SampleKcp where
  peer := ((Peer.bind 1 KcpConfig.default).send (Setting.sample.addr x.other) [7] (draw x) .sample
    (.reliable (.v4 ⟨0, 7000⟩))).1
  id := 0
  session := ⟨⟨⟨(draw x).val, false, 0, 0, 0, [], [[7]], [], []⟩, (draw x).val, .synSent, 1⟩, false,
    1000, Setting.sample.addr x.other, 1000, 0⟩
  socket := .reliable (.v4 ⟨0, 7000⟩)
  clock := .sample
  bound := .v4 ⟨0, 7000⟩
  sees := Setting.sample.addr x.other
  found := by cases x <;> rfl
  waiting := rfl
  local_addr := rfl
where
  draw (x : Side) : DrawnConv := if x = .a then .ten else .twenty

/-- Both wildcard binds yield, so each side ends with the conversation id that
the other has given up. -/
theorem tie_not_broken_on_wildcards :
    (Opener.wildcard .a).session.inner.convId ≠ (Opener.wildcard .b).session.inner.convId ∧
      ¬ (Opener.wildcard .a).TieBroken (Opener.wildcard .b) := by
  have distinct : (Opener.wildcard .a).session.inner.convId ≠
      (Opener.wildcard .b).session.inner.convId := by decide
  refine ⟨distinct, ?_⟩
  rintro ⟨convA, convB, slotA, slotB, _, same⟩
  have yields : ∀ x, (Opener.wildcard x).yields := by
    intro x
    cases x <;> exact Opener.yields_of_wildcard rfl rfl (by decide)
  rw [Opener.handleSyn_slot _ distinct, if_pos (yields .a)] at slotA
  rw [Opener.handleSyn_slot _ distinct.symm, if_pos (yields .b)] at slotB
  cases slotA
  cases slotB
  exact distinct same.symm

/-- The same peers bound to the addresses under which they see each other. -/
def Opener.specific (x : Side) : Opener SampleKcp where
  __ := Opener.wildcard x
  socket := .reliable (Setting.sample.addr x)
  bound := Setting.sample.addr x
  local_addr := rfl

theorem tie_broken_iff_specific :
    (Opener.specific .a).TieBroken (Opener.specific .b) :=
  (tie_broken_iff SampleKcp (.specific .a) (.specific .b) (by decide)).mpr
    (Opener.yields_of_specific rfl rfl (by decide))

end KcpPeer
