import KcpPeer.Effects
import KcpPeer.SampleKcp

set_option autoImplicit false

namespace KcpPeer

/-- `payload.len() >= 4`, and then the four bytes are what `to_le_bytes` writes back. -/
theorem readConv_of_length {payload : Bytes} (long : 4 ≤ payload.length) :
    ∃ conv, readConv payload = some conv ∧ toLeBytes conv = payload.take 4 := by
  match payload, long with
  | b0 :: b1 :: b2 :: b3 :: rest, _ =>
      refine ⟨_, rfl, ?_⟩
      have h0 := b0.toNat_lt
      have h1 := b1.toNat_lt
      have h2 := b2.toNat_lt
      have h3 := b3.toNat_lt
      simp only [toLeBytes, List.take_succ_cons, List.take_zero, List.cons.injEq, and_true,
        UInt32.toNat_ofNat', ← UInt8.toNat_inj, UInt8.toNat_ofNat']
      omega

theorem readConv_of_short {payload : Bytes} (short : ¬ 4 ≤ payload.length) :
    readConv payload = none := by
  match payload with
  | [] => rfl
  | [_] => rfl
  | [_, _] => rfl
  | [_, _, _] => rfl
  | _ :: _ :: _ :: _ :: _ => simp at short

/-- The datagram is one type byte and four bytes or more. -/
def Carries (typ : PacketType) (d : Bytes) : Prop :=
  ∃ payload, d = typ.toByte :: payload ∧ 4 ≤ payload.length

theorem splitPacket_eq_some {d : Bytes} {typ : PacketType} {payload : Bytes} :
    splitPacket d = some (typ, payload) ↔ d = typ.toByte :: payload := by
  constructor
  · intro split
    cases d with
    | nil => cases split
    | cons first rest =>
        simp only [splitPacket, Option.map_eq_some_iff, Prod.mk.injEq] at split
        obtain ⟨typ', known, rfl, rfl⟩ := split
        have byte : first = typ'.toByte := by
          unfold PacketType.fromByte at known
          split_ifs at known <;> cases known <;> assumption
        rw [byte]
  · rintro rfl
    simp only [splitPacket, PacketType.fromByte_toByte, Option.map_some]

namespace Peer

variable {K : Type} [Kcp K]

/-- The state after a stranger's SYN with conversation id `conv`. -/
def accepted (p : Peer K) (src : SocketAddr) (conv : UInt32) (clock : Clock) (socket : Socket) :
    Peer K :=
  { p with
    sessions := p.sessions.insertNew (canonicalize src)
      (Session.newInbound conv src p.incarnation p.config clock.epochMs)
    log := p.log ++ [.event (.connected src) p.sessions.fresh]
    outbox := p.outbox ++ [⟨socket.submit (encodeControl .synAck conv) src, none⟩] }

/-- The state after three RESETs that carry `conv` to a stranger. -/
def turnedAway (p : Peer K) (src : SocketAddr) (conv : Bytes) (socket : Socket) : Peer K :=
  let reset : Outgoing := ⟨socket.submit (PacketType.reset.toByte :: conv) src, none⟩
  { p with outbox := p.outbox ++ [reset, reset, reset] }

variable {p : Peer K} {src : SocketAddr} {clock : Clock} {socket : Socket}

theorem handleSyn_stranger {myAddr : SocketAddr} (bound : socket.localAddr = .ok myAddr)
    (stranger : p.sessions.find (canonicalize src) = none) {payload : Bytes} {conv : UInt32}
    (read : readConv payload = some conv) :
    (p.handleSyn payload src clock socket).1 = p.accepted src conv clock socket := by
  simp only [handleSyn, read, bound, synDecide, stranger]
  rfl

theorem handleKcpData_stranger (stranger : p.sessions.find (canonicalize src) = none)
    {payload : Bytes} {conv : UInt32} (read : readConv payload = some conv) :
    (p.handleKcpData payload src clock socket).1 = p.turnedAway src (toLeBytes conv) socket := by
  simp only [handleKcpData, stranger, read]
  rfl

/-- Every other packet of a stranger. -/
theorem handleIncoming_ignored (stranger : p.sessions.find (canonicalize src) = none) {d : Bytes}
    (noSyn : ¬ Carries .syn d) (noData : ¬ Carries .kcpData d) :
    (p.handleIncoming d src clock socket).1 = p := by
  unfold handleIncoming
  cases split : splitPacket d with
  | none => rfl
  | some packet =>
      obtain ⟨typ, payload⟩ := packet
      have shape := splitPacket_eq_some.mp split
      cases typ with
      | kcpData =>
          have short := readConv_of_short fun long => noData ⟨payload, shape, long⟩
          simp only [handleKcpData, stranger, short]
      | syn =>
          have short := readConv_of_short fun long => noSyn ⟨payload, shape, long⟩
          simp only [handleSyn, short]
      | synAck =>
          simp only [handleSynAck, synAckAccept, stranger]
          split
          · rfl
          · rfl
      | reset =>
          simp only [handleReset, stranger]
          split
          · rfl
          · rfl

end Peer

/-- The whole behaviour toward an address that has no session, on a bound socket. -/
theorem unsolicited_packets (K : Type) [Kcp K] (p : Peer K) (d : Bytes) (src myAddr : SocketAddr)
    (clock : Clock) (socket : Socket) (bound : socket.localAddr = .ok myAddr)
    (stranger : p.sessions.find (canonicalize src) = none) :
    let p' := (p.handleIncoming d src clock socket).1
    (p'.sessions ≠ p.sessions ∨ p'.log ≠ p.log ↔ Carries .syn d) ∧
      (∀ payload, d = PacketType.syn.toByte :: payload → 4 ≤ payload.length →
        ∃ conv, readConv payload = some conv ∧ toLeBytes conv = payload.take 4 ∧
          p' = p.accepted src conv clock socket) ∧
      (∀ payload, d = PacketType.kcpData.toByte :: payload → 4 ≤ payload.length →
        p' = p.turnedAway src (payload.take 4) socket) ∧
      (¬ Carries .syn d → ¬ Carries .kcpData d → p' = p) ∧
      ∀ can, can ≠ canonicalize src → p'.sessions.find can = p.sessions.find can := by
  intro p'
  have onSyn : ∀ payload, d = PacketType.syn.toByte :: payload → 4 ≤ payload.length →
      ∃ conv, readConv payload = some conv ∧ toLeBytes conv = payload.take 4 ∧
        p' = p.accepted src conv clock socket := by
    rintro payload shape long
    obtain ⟨conv, read, bytes⟩ := readConv_of_length long
    refine ⟨conv, read, bytes, ?_⟩
    simp only [p', Peer.handleIncoming, splitPacket_eq_some.mpr shape]
    exact Peer.handleSyn_stranger bound stranger read
  have onData : ∀ payload, d = PacketType.kcpData.toByte :: payload → 4 ≤ payload.length →
      p' = p.turnedAway src (payload.take 4) socket := by
    rintro payload shape long
    obtain ⟨conv, read, bytes⟩ := readConv_of_length long
    simp only [p', Peer.handleIncoming, splitPacket_eq_some.mpr shape]
    rw [← bytes]
    exact Peer.handleKcpData_stranger stranger read
  have otherwise : ¬ Carries .syn d → ¬ Carries .kcpData d → p' = p :=
    Peer.handleIncoming_ignored stranger
  have silent : ¬ Carries .syn d → p'.sessions = p.sessions ∧ p'.log = p.log := by
    intro noSyn
    by_cases isData : Carries .kcpData d
    · obtain ⟨payload, shape, long⟩ := isData
      rw [onData payload shape long]
      exact ⟨rfl, rfl⟩
    · rw [otherwise noSyn isData]
      exact ⟨rfl, rfl⟩
  refine ⟨⟨?_, ?_⟩, onSyn, onData, otherwise, ?_⟩
  · intro changed
    by_contra noSyn
    obtain ⟨sessions, log⟩ := silent noSyn
    rcases changed with changed | changed
    · exact changed sessions
    · exact changed log
  · rintro ⟨payload, shape, long⟩
    obtain ⟨conv, _, _, after⟩ := onSyn payload shape long
    right
    rw [after]
    simp [Peer.accepted]
  · intro can other
    by_cases isSyn : Carries .syn d
    · obtain ⟨payload, shape, long⟩ := isSyn
      obtain ⟨conv, _, _, after⟩ := onSyn payload shape long
      rw [after]
      exact Peer.find_insertSession_other p _ other
    · rw [(silent isSyn).1]

/-- A stranger's KcpData at a peer without sessions: three RESETs with its four bytes. -/
theorem unsolicited_packets_data :
    (Peer.bind 1 .default : Peer SampleKcp).sessions.find (canonicalize .remote) = none ∧
      Socket.sample.localAddr = .ok (Setting.sample.addr .a) ∧
      ((Peer.bind 1 .default : Peer SampleKcp).handleIncoming [0, 20, 0, 0, 0, 81] .remote .sample
          .sample).1.outbox.map (fun o => (o.dest, o.bytes)) =
        [(.remote, [3, 20, 0, 0, 0]), (.remote, [3, 20, 0, 0, 0]),
          (.remote, [3, 20, 0, 0, 0])] := by
  have behaviour := unsolicited_packets SampleKcp (.bind 1 .default) [0, 20, 0, 0, 0, 81] .remote
    (Setting.sample.addr .a) .sample .sample rfl rfl
  obtain ⟨_, _, onData, _⟩ := behaviour
  refine ⟨rfl, rfl, ?_⟩
  rw [onData [20, 0, 0, 0, 81] rfl (by decide)]
  decide +kernel

end KcpPeer
