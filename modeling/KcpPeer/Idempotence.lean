import KcpPeer.RegistryStep
import KcpPeer.SampleKcp

set_option autoImplicit false

namespace KcpPeer

namespace Registry

variable {r : Registry} {src : SocketAddr} {conv : UInt32} {yields : Bool}

/-- A SYN for the conversation that the session already has changes nothing. -/
theorem syn_known {id : SessionId} {v : View}
    (found : r.sessions.find (canonicalize src) = some (id, v)) (same : v.convId = conv) :
    r.syn src conv yields = r := by
  simp only [syn, found, same, ↓reduceIte]

/-- However the first SYN is handled, its copy finds a session with its conversation,
unless the first one was taken as a SYN_ACK. -/
theorem syn_again (yielding : ∀ id v, r.sessions.find (canonicalize src) = some (id, v) →
      v.state = .synSent → v.convId ≠ conv → yields = true) :
    (r.syn src conv yields).syn src conv yields = r.syn src conv yields := by
  cases found : r.sessions.find (canonicalize src) with
  | none =>
      have accepted : r.syn src conv yields = r.accept src conv := by simp only [syn, found]
      rw [accepted]
      exact syn_known (by rw [find_accept, if_pos rfl]) rfl
  | some entry =>
      obtain ⟨id, v⟩ := entry
      by_cases same : v.convId = conv
      · rw [syn_known found same, syn_known found same]
      · cases state : v.state with
        | synSent =>
            have yields := yielding id v found state same
            subst yields
            have adopted : r.syn src conv true = r.establish id v conv src := by
              simp only [syn, found, same, state, ↓reduceIte]
            rw [adopted]
            exact syn_known (by rw [find_establish _ _ found, if_pos rfl]) rfl
        | established =>
            have replaced : r.syn src conv yields = (r.supersede id v src).accept src conv := by
              simp only [syn, found, same, state, ↓reduceIte]
            rw [replaced]
            exact syn_known (by rw [find_accept, if_pos rfl]) rfl

/-- The copy of a SYN that was taken as a SYN_ACK is taken as a restart. -/
theorem syn_won_again {id : SessionId} {v : View}
    (found : r.sessions.find (canonicalize src) = some (id, v)) (waiting : v.state = .synSent)
    (other : v.convId ≠ conv) :
    ((r.syn src conv false).syn src conv false).log ≠ (r.syn src conv false).log := by
  have won : r.syn src conv false = r.establish id v v.convId src := by
    simp [syn, found, other, waiting]
  have held : (r.establish id v v.convId src).sessions.find (canonicalize src) =
      some (id, { v with state := .established }) := by
    rw [find_establish _ _ found, if_pos rfl]
  have replaced : (r.establish id v v.convId src).syn src conv false =
      ((r.establish id v v.convId src).supersede id { v with state := .established } src).accept
        src conv := by
    simp only [syn, held, other, ↓reduceIte]
  rw [won, replaced]
  intro same
  have lengths := congrArg List.length same
  simp [accept, supersede, emit, set] at lengths

/-- The SYN handler and its copy, by the side of the tie-break on which they find the
session. -/
theorem syn_twice_iff (won : Bool) (wins : won = true ↔
      ∃ id v, r.sessions.find (canonicalize src) = some (id, v) ∧ v.state = .synSent ∧
        v.convId ≠ conv ∧ yields = false) :
    ((∀ can, ((r.syn src conv yields).syn src conv yields).sessions.find can =
        (r.syn src conv yields).sessions.find can) ∧
      ((r.syn src conv yields).syn src conv yields).log = (r.syn src conv yields).log) ↔
      won = false := by
  cases won with
  | false =>
      have same : (r.syn src conv yields).syn src conv yields = r.syn src conv yields := by
        refine syn_again ?_
        intro id v found waiting other
        by_contra lower
        rw [Bool.not_eq_true] at lower
        exact absurd (wins.mpr ⟨id, v, found, waiting, other, lower⟩) (by decide)
      rw [same]
      exact iff_of_true ⟨fun _ => rfl, rfl⟩ rfl
  | true =>
      obtain ⟨id, v, found, waiting, other, rfl⟩ := wins.mp rfl
      refine iff_of_false ?_ (by decide)
      rintro ⟨_, log⟩
      exact syn_won_again found waiting other log

theorem synAck_again : (r.synAck src conv).synAck src conv = r.synAck src conv := by
  cases found : r.sessions.find (canonicalize src) with
  | none =>
      have same : r.synAck src conv = r := by simp only [synAck, found]
      rw [same, same]
  | some entry =>
      obtain ⟨id, v⟩ := entry
      by_cases accepted : v.state = .synSent ∧ v.convId = conv
      · obtain ⟨waiting, own⟩ := accepted
        have established : r.synAck src conv = r.establish id v v.convId src := by
          simp only [synAck, found, waiting, own, ↓reduceIte]
        have held : (r.establish id v v.convId src).sessions.find (canonicalize src) =
            some (id, { v with state := .established }) := by
          rw [find_establish _ _ found, if_pos rfl]
        rw [established]
        simp only [synAck, held]
      · have same : r.synAck src conv = r := by
          simp only [synAck, found]
          cases state : v.state with
          | established => rfl
          | synSent => exact if_neg fun own => accepted ⟨state, own⟩
        rw [same, same]

theorem reset_again : (r.reset src conv).reset src conv = r.reset src conv := by
  cases found : r.sessions.find (canonicalize src) with
  | none =>
      have same : r.reset src conv = r := by simp only [reset, found]
      rw [same, same]
  | some entry =>
      obtain ⟨id, v⟩ := entry
      by_cases own : v.convId = conv
      · have closed : r.reset src conv = r.close (canonicalize src) id v src := by
          simp only [reset, found, own, ↓reduceIte]
        have absent : (r.close (canonicalize src) id v src).sessions.find (canonicalize src) =
            none := by
          rw [find_close _ found, if_pos rfl]
        rw [closed]
        simp only [reset, absent]
      · have same : r.reset src conv = r := by simp only [reset, found, own, ↓reduceIte]
        rw [same, same]

end Registry

namespace Peer

variable {K : Type}

/-- A SYN for another conversation finds this peer's own SYN on its way, and this
peer's address is not the lower one. -/
def winsTieBreak (p : Peer K) (typ : PacketType) (payload : Bytes) (src : SocketAddr)
    (localAddr : Except IoError SocketAddr) : Bool :=
  match typ, readConv payload, localAddr, p.sessions.find (canonicalize src) with
  | .syn, some conv, .ok myAddr, some (_, s) =>
      decide (s.inner.state = .synSent ∧ s.inner.convId ≠ conv ∧ ¬ myAddr < src)
  | _, _, _, _ => false

theorem winsTieBreak_syn (p : Peer K) {payload : Bytes} {conv : UInt32} (src : SocketAddr)
    (myAddr : SocketAddr) (decoded : readConv payload = some conv) :
    p.winsTieBreak .syn payload src (.ok myAddr) = true ↔
      ∃ id v, p.registry.sessions.find (canonicalize src) = some (id, v) ∧ v.state = .synSent ∧
        v.convId ≠ conv ∧ decide (myAddr < src) = false := by
  rw [registry_find]
  cases found : p.sessions.find (canonicalize src) with
  | none => simp [winsTieBreak, decoded, found]
  | some entry => simp [winsTieBreak, decoded, found, Session.view]

variable [Kcp K]

/-- The registry after a control packet. -/
theorem registry_control (p : Peer K) (typ : PacketType) (payload : Bytes) (src : SocketAddr)
    (clock : Clock) (socket : Socket) :
    (p.handleIncoming (typ.toByte :: payload) src clock socket).1.registry =
      match typ, readConv payload, socket.localAddr with
      | .syn, some conv, .ok myAddr => p.registry.syn src conv (decide (myAddr < src))
      | .synAck, some conv, _ => p.registry.synAck src conv
      | .reset, some conv, _ => p.registry.reset src conv
      | .kcpData, _, _ => (p.handleKcpData payload src clock socket).1.registry
      | _, _, _ => p.registry := by
  have split : splitPacket (typ.toByte :: payload) = some (typ, payload) := by
    simp only [splitPacket, PacketType.fromByte_toByte, Option.map_some]
  cases typ with
  | kcpData => simp only [handleIncoming, split]
  | syn =>
      simp only [handleIncoming, split]
      cases decoded : readConv payload with
      | none => simp only [handleSyn, decoded]
      | some conv =>
          cases bound : socket.localAddr with
          | error e => simp only [handleSyn, decoded, bound]
          | ok myAddr => exact registry_handleSyn p src clock socket decoded bound
  | synAck =>
      simp only [handleIncoming, split]
      cases decoded : readConv payload with
      | none => simp only [handleSynAck, decoded]
      | some conv => exact registry_handleSynAck p src clock socket decoded
  | reset =>
      simp only [handleIncoming, split]
      cases decoded : readConv payload with
      | none => simp only [handleReset, decoded]
      | some conv => exact registry_handleReset p src decoded

end Peer

/-- Handling a control packet a second time changes nothing in the session map and
emits no event, exactly when the first handling was not the winning side of a
simultaneous handshake. -/
theorem control_packet_idempotent_iff (K : Type) [Kcp K] (p : Peer K) (typ : PacketType)
    (control : typ ≠ .kcpData) (payload : Bytes) (src : SocketAddr)
    (localAddr : Except IoError SocketAddr)
    (sendTo sendTo' : Bytes → SocketAddr → Except IoError Nat)
    (clock clock' : Clock) (once twice : Peer K)
    (first : (p.handleIncoming (typ.toByte :: payload) src clock ⟨localAddr, sendTo⟩).1 = once)
    (second :
      (once.handleIncoming (typ.toByte :: payload) src clock' ⟨localAddr, sendTo'⟩).1 = twice) :
    ((∀ can, twice.registry.sessions.find can = once.registry.sessions.find can) ∧
      twice.log = once.log) ↔ p.winsTieBreak typ payload src localAddr = false := by
  have after := p.registry_control typ payload src clock ⟨localAddr, sendTo⟩
  have again := once.registry_control typ payload src clock' ⟨localAddr, sendTo'⟩
  rw [first] at after
  rw [second] at again
  -- a copy that leaves the registry alone does what the property says
  have holds : twice.registry = once.registry → p.winsTieBreak typ payload src localAddr = false →
      (((∀ can, twice.registry.sessions.find can = once.registry.sessions.find can) ∧
        twice.log = once.log) ↔ p.winsTieBreak typ payload src localAddr = false) := by
    intro same fair
    have log : twice.log = once.log := congrArg Registry.log same
    exact iff_of_true ⟨fun can => by rw [same], log⟩ fair
  cases typ with
  | kcpData => exact absurd rfl control
  | syn =>
      cases decoded : readConv payload with
      | none =>
          simp only [decoded] at after again
          exact holds again (by simp only [Peer.winsTieBreak, decoded])
      | some conv =>
          cases localAddr with
          | error e =>
              simp only [decoded] at after again
              exact holds again (by simp only [Peer.winsTieBreak, decoded])
          | ok myAddr =>
              simp only [decoded] at after again
              have twice_iff := p.registry.syn_twice_iff _ (p.winsTieBreak_syn src myAddr decoded)
              rw [← after, ← again] at twice_iff
              exact twice_iff
  | synAck =>
      refine holds ?_ (by simp only [Peer.winsTieBreak])
      cases decoded : readConv payload with
      | none =>
          simp only [decoded] at again
          exact again
      | some conv =>
          simp only [decoded] at after again
          rw [again, after]
          exact Registry.synAck_again
  | reset =>
      refine holds ?_ (by simp only [Peer.winsTieBreak])
      cases decoded : readConv payload with
      | none =>
          simp only [decoded] at again
          exact again
      | some conv =>
          simp only [decoded] at after again
          rw [again, after]
          exact Registry.reset_again

/-- `10.0.0.1:7000` sends SYN(20) twice to a peer that has no session for it. -/
theorem control_packet_idempotent_iff_accepted :
    ∃ once twice : Peer SampleKcp, twice.log = [.event (.connected (Setting.sample.addr .a)) 0] ∧
      (∀ can, twice.registry.sessions.find can = once.registry.sessions.find can) ∧
      twice.log = once.log := by
  let p : Peer SampleKcp := .bind 1 .default
  let socket := Socket.reliable (Setting.sample.addr .b)
  let once := (p.handleIncoming (encodeControl .syn 20) (Setting.sample.addr .a) .sample socket).1
  let twice :=
    (once.handleIncoming (encodeControl .syn 20) (Setting.sample.addr .a) .sample socket).1
  exact ⟨once, twice, by decide +kernel, (control_packet_idempotent_iff SampleKcp p .syn (by decide)
    (toLeBytes 20) (Setting.sample.addr .a) socket.localAddr socket.sendTo socket.sendTo .sample
    .sample once twice rfl rfl).mpr (by decide +kernel)⟩

/-- `10.0.0.2:7000` has sent SYN(10) to `10.0.0.1:7000` when SYN(20) comes from there,
twice: the first copy completes the handshake, the second replaces the session. -/
theorem duplicate_syn_replaces_session :
    ∃ p : Peer SampleKcp, (peerMachine SampleKcp 1 .default).Reach Machine.always p ∧
      ∃ once twice : Peer SampleKcp,
        (p.handleIncoming (encodeControl .syn 20) (Setting.sample.addr .a) .sample
          (.reliable (Setting.sample.addr .b))).1 = once ∧
        (once.handleIncoming (encodeControl .syn 20) (Setting.sample.addr .a) .sample
          (.reliable (Setting.sample.addr .b))).1 = twice ∧
        once.sessions.lookup (canonicalize (Setting.sample.addr .a)) = some 0 ∧
        twice.sessions.lookup (canonicalize (Setting.sample.addr .a)) = some 1 ∧
        ¬ ((∀ can, twice.registry.sessions.find can = once.registry.sessions.find can) ∧
          twice.log = once.log) := by
  have run : ((peerMachine SampleKcp 1 .default).exec Machine.always
      (peerMachine SampleKcp 1 .default).start
      [.send (Setting.sample.addr .a) [1] .ten .sample (.reliable (Setting.sample.addr .b))]).any
      (fun p =>
        let once := (p.handleIncoming (encodeControl .syn 20) (Setting.sample.addr .a) .sample
          (.reliable (Setting.sample.addr .b))).1
        let twice := (once.handleIncoming (encodeControl .syn 20) (Setting.sample.addr .a) .sample
          (.reliable (Setting.sample.addr .b))).1
        decide (once.sessions.lookup (canonicalize (Setting.sample.addr .a)) = some 0 ∧
          twice.sessions.lookup (canonicalize (Setting.sample.addr .a)) = some 1 ∧
          twice.log ≠ once.log)) = true := by
    decide +kernel
  obtain ⟨p, reached, checked⟩ := Machine.Reach.exec_any _ run
  obtain ⟨before, after, emitted⟩ := of_decide_eq_true checked
  exact ⟨p, reached, _, _, rfl, rfl, before, after, fun same => emitted same.2⟩

end KcpPeer
