import KcpPeer.Unsolicited

set_option autoImplicit false

namespace KcpPeer

/-- The packet types that carry a conversation id. -/
inductive ControlType where
  | syn
  | synAck
  | reset
  deriving DecidableEq, Repr

namespace ControlType

def packetType : ControlType → PacketType
  | .syn => .syn
  | .synAck => .synAck
  | .reset => .reset

/-- The text of the error for a packet without the four bytes of its conversation id. -/
def truncated : ControlType → String
  | .syn => "truncated SYN"
  | .synAck => "truncated SYN_ACK"
  | .reset => "truncated RESET"

end ControlType

/-- What `handle_incoming` has decoded when it gets to its sessions. -/
inductive Packet where
  | control (typ : ControlType) (conv : UInt32)
  | kcpData (payload : Bytes)
  deriving DecidableEq, Repr

def Packet.encode : Packet → Bytes
  | .control typ conv => encodeControl typ.packetType conv
  | .kcpData payload => encodeKcpData payload

/-- The length check and the read of the conversation id at the head of an arm. -/
def decodeControl (typ : ControlType) (payload : Bytes) : Except String Packet :=
  match readConv payload with
  | none => .error typ.truncated
  | some conv => .ok (.control typ conv)

/-- The decoding done by `handle_incoming`, with the texts of its errors. -/
def dispatch (data : Bytes) : Except String Packet :=
  match splitPacket data with
  | none => .error "empty packet"
  | some (.kcpData, payload) => .ok (.kcpData payload)
  | some (.syn, payload) => decodeControl .syn payload
  | some (.synAck, payload) => decodeControl .synAck payload
  | some (.reset, payload) => decodeControl .reset payload

theorem readConv_eq_some {payload : Bytes} {conv : UInt32} :
    readConv payload = some conv ↔ toLeBytes conv <+: payload := by
  constructor
  · intro read
    by_cases long : 4 ≤ payload.length
    · obtain ⟨conv', read', bytes⟩ := readConv_of_length long
      cases read.symm.trans read'
      rw [bytes]
      exact List.take_prefix 4 payload
    · rw [readConv_of_short long] at read
      cases read
  · rintro ⟨rest, rfl⟩
    exact readConv_toLeBytes conv rest

theorem decodeControl_eq_ok {typ : ControlType} {payload : Bytes} {packet : Packet} :
    decodeControl typ payload = .ok packet ↔
      ∃ conv, packet = .control typ conv ∧ toLeBytes conv <+: payload := by
  unfold decodeControl
  cases read : readConv payload with
  | none =>
      refine iff_of_false (by rintro ⟨⟩) ?_
      rintro ⟨conv, _, head⟩
      cases read.symm.trans (readConv_eq_some.mpr head)
  | some conv =>
      have head := readConv_eq_some.mp read
      constructor
      · intro decoded
        cases decoded
        exact ⟨conv, rfl, head⟩
      · rintro ⟨conv', rfl, head'⟩
        cases read.symm.trans (readConv_eq_some.mpr head')
        rfl

/-- The arm of a control packet. -/
theorem dispatch_of_split {data payload : Bytes} {typ : ControlType}
    (split : splitPacket data = some (typ.packetType, payload)) :
    dispatch data = decodeControl typ payload := by
  unfold dispatch
  rw [split]
  cases typ with
  | syn => rfl
  | synAck => rfl
  | reset => rfl

theorem dispatch_cases (data : Bytes) :
    (splitPacket data = none ∧ dispatch data = .error "empty packet") ∨
    (∃ payload, data = encodeKcpData payload ∧ dispatch data = .ok (.kcpData payload)) ∨
    ∃ (typ : ControlType) (payload : Bytes), data = typ.packetType.toByte :: payload ∧
      dispatch data = decodeControl typ payload := by
  cases split : splitPacket data with
  | none => exact Or.inl ⟨rfl, by rw [dispatch, split]⟩
  | some found =>
      obtain ⟨typ, payload⟩ := found
      have shape := splitPacket_eq_some.mp split
      cases typ with
      | kcpData => exact Or.inr (Or.inl ⟨payload, shape, by rw [dispatch, split]⟩)
      | syn => exact Or.inr (Or.inr ⟨.syn, payload, shape, dispatch_of_split split⟩)
      | synAck => exact Or.inr (Or.inr ⟨.synAck, payload, shape, dispatch_of_split split⟩)
      | reset => exact Or.inr (Or.inr ⟨.reset, payload, shape, dispatch_of_split split⟩)

/-- The datagrams that carry a packet: a control packet may be followed by anything. -/
def Packet.CarriedBy (data : Bytes) : Packet → Prop
  | .control typ conv => encodeControl typ.packetType conv <+: data
  | .kcpData payload => data = encodeKcpData payload

theorem dispatch_eq_ok {data : Bytes} {packet : Packet} :
    dispatch data = .ok packet ↔ packet.CarriedBy data := by
  constructor
  · intro dispatched
    rcases dispatch_cases data with
      ⟨_, rejected⟩ | ⟨payload, shape, arm⟩ | ⟨typ, payload, shape, arm⟩
    · cases rejected.symm.trans dispatched
    · cases arm.symm.trans dispatched
      exact shape
    · obtain ⟨conv, rfl, head⟩ := decodeControl_eq_ok.mp (arm.symm.trans dispatched)
      rw [shape]
      exact List.cons_prefix_cons.mpr ⟨rfl, head⟩
  · cases packet with
    | control typ conv =>
        intro carried
        obtain ⟨payload, shape, head⟩ := List.cons_prefix_iff.mp carried
        rw [dispatch_of_split (splitPacket_eq_some.mpr shape)]
        exact decodeControl_eq_ok.mpr ⟨conv, rfl, head⟩
    | kcpData payload =>
        rintro rfl
        simp only [dispatch, splitPacket_encodeKcpData]

/-- No datagram carries two packets. -/
theorem Packet.CarriedBy.unique {data : Bytes} {packet packet' : Packet}
    (carried : packet.CarriedBy data) (carried' : packet'.CarriedBy data) : packet = packet' :=
  Except.ok.inj ((dispatch_eq_ok.mpr carried).symm.trans (dispatch_eq_ok.mpr carried'))

theorem Packet.carriedBy_encode (packet : Packet) : packet.CarriedBy packet.encode := by
  cases packet with
  | control typ conv => exact List.prefix_refl _
  | kcpData payload => rfl

/-- Decoding undoes encoding. -/
theorem dispatch_encode (packet : Packet) : dispatch packet.encode = .ok packet :=
  dispatch_eq_ok.mpr packet.carriedBy_encode

theorem dispatch_eq_error {data : Bytes} :
    (∃ text, dispatch data = .error text) ↔ ∀ packet : Packet, ¬ packet.CarriedBy data := by
  simp only [← dispatch_eq_ok]
  cases dispatch data with
  | error text => exact iff_of_true ⟨text, rfl⟩ (by rintro packet ⟨⟩)
  | ok packet => exact iff_of_false (by rintro ⟨text, ⟨⟩⟩) fun none => none packet rfl

namespace Peer

variable {K : Type} [Kcp K]

/-- The arm of a SYN whose conversation id has been read. -/
def handleSynConv (p : Peer K) (conv : UInt32) (src : SocketAddr) (clock : Clock)
    (socket : Socket) : Peer K × Except (Error K) Unit :=
  match socket.localAddr with
  | .error e => (p, .error (.io e))
  | .ok myAddr =>
      let (p, result) := p.synDecide src conv myAddr clock socket
      ((p.synAcknowledge result socket).synFinish result src conv clock socket, .ok ())

/-- The arm of a RESET whose conversation id has been read. -/
def handleResetConv (p : Peer K) (conv : UInt32) (src : SocketAddr) :
    Peer K × Except (Error K) Unit :=
  match p.sessions.find (canonicalize src) with
  | none => (p, .ok ())
  | some (id, s) =>
      if s.inner.convId = conv then
        (((p.removeKey (canonicalize src)).setSession id s.markClosed).emit
          (.disconnected src) id, .ok ())
      else (p, .ok ())

/-- What `handle_incoming` does with a decoded packet. -/
def handlePacket (p : Peer K) (packet : Packet) (src : SocketAddr) (clock : Clock)
    (socket : Socket) : Peer K × Except (Error K) Unit :=
  match packet with
  | .kcpData payload => p.handleKcpData payload src clock socket
  | .control .syn conv => p.handleSynConv conv src clock socket
  | .control .synAck conv => (p.synAckAccept src conv clock socket, .ok ())
  | .control .reset conv => p.handleResetConv conv src

/-- Only the decoded packet matters to `handle_incoming`. -/
theorem handleIncoming_dispatch (p : Peer K) (data : Bytes) (src : SocketAddr) (clock : Clock)
    (socket : Socket) :
    p.handleIncoming data src clock socket =
      match dispatch data with
      | .error text => (p, .error (.io ⟨.invalidData, text⟩))
      | .ok packet => p.handlePacket packet src clock socket := by
  unfold handleIncoming dispatch
  cases splitPacket data with
  | none => rfl
  | some found =>
      obtain ⟨typ, payload⟩ := found
      unfold decodeControl
      cases typ with
      | kcpData => rfl
      | syn =>
          dsimp only [handleSyn]
          cases readConv payload with
          | none => rfl
          | some conv => rfl
      | synAck =>
          dsimp only [handleSynAck]
          cases readConv payload with
          | none => rfl
          | some conv => rfl
      | reset =>
          dsimp only [handleReset]
          cases readConv payload with
          | none => rfl
          | some conv => rfl

end Peer

/-- The output adapter of a KCP instance, with the buffer it keeps between two writes. -/
structure DirectOutput where
  peer : SocketAddr
  buf : Bytes

/-- `write` with its buffer: the adapter after it, the datagram it submits, its result. -/
def DirectOutput.bufferedWrite (output : DirectOutput) (socket : Socket) (data : Bytes) :
    DirectOutput × Submission × Except IoError Nat :=
  let buf := output.buf.take 0
  let buf := buf ++ [PacketType.kcpData.toByte]
  let buf := buf ++ data
  let result :=
    match socket.sendTo buf output.peer with
    | .ok n => .ok (n - 1)
    | .error e => if e.kind = .wouldBlock then .ok data.length else .error e
  ({ output with buf := buf }, socket.submit buf output.peer, result)

/-- The framing written by hand is that of `encode_kcp_data`, whatever the buffer holds. -/
theorem DirectOutput.bufferedWrite_eq (output : DirectOutput) (socket : Socket) (data : Bytes) :
    output.bufferedWrite socket data =
      ({ output with buf := encodeKcpData data },
        socket.submit (encodeKcpData data) output.peer,
        DirectOutput.write socket output.peer data) := rfl

/-- The datagrams of a sequence of writes. -/
def DirectOutput.submissions (socket : Socket) : DirectOutput → List Bytes → List Submission
  | _, [] => []
  | output, data :: rest =>
      let (output, submitted, _) := output.bufferedWrite socket data
      submitted :: submissions socket output rest

/-- A session's datagrams are those of its adapter. -/
theorem DirectOutput.submissions_eq_output {K : Type} (s : Session K) (socket : Socket)
    (buffers : List Bytes) (output : DirectOutput) (same : output.peer = s.peerAddr) :
    submissions socket output buffers = s.output socket buffers := by
  induction buffers generalizing output with
  | nil => rfl
  | cons data rest ih =>
      rw [submissions, bufferedWrite_eq]
      dsimp only
      rw [ih { output with buf := encodeKcpData data } same, same]
      rfl

/-- The wire format is parsed exactly as it is produced. -/
theorem wire_format_exact (K : Type) [Kcp K] (d : Bytes) :
    (∀ typ conv, dispatch d = .ok (.control typ conv) ↔
      encodeControl typ.packetType conv <+: d) ∧
    (∀ (typ typ' : ControlType) (conv conv' : UInt32), encodeControl typ.packetType conv <+: d →
      encodeControl typ'.packetType conv' <+: d → typ = typ' ∧ conv = conv') ∧
    (∀ payload, dispatch d = .ok (.kcpData payload) ↔ d = encodeKcpData payload) ∧
    ((∀ (typ : ControlType) conv, ¬ encodeControl typ.packetType conv <+: d) →
      (∀ payload, d ≠ encodeKcpData payload) → ∃ text, dispatch d = .error text) ∧
    (∀ (p : Peer K) (src : SocketAddr) (clock : Clock) (socket : Socket),
      p.handleIncoming d src clock socket =
        match dispatch d with
        | .error text => (p, .error (.io ⟨.invalidData, text⟩))
        | .ok packet => p.handlePacket packet src clock socket) ∧
    (∀ (output : DirectOutput) (socket : Socket) (payload : Bytes),
      (output.bufferedWrite socket payload).2.1 =
        socket.submit (encodeKcpData payload) output.peer) ∧
    ∀ packet : Packet, dispatch packet.encode = .ok packet := by
  refine ⟨fun typ conv => dispatch_eq_ok, ?_, fun payload => dispatch_eq_ok, ?_,
    fun p src clock socket => p.handleIncoming_dispatch d src clock socket, ?_, dispatch_encode⟩
  · intro typ typ' conv conv' head head'
    have carried : (Packet.control typ conv).CarriedBy d := head
    have carried' : (Packet.control typ' conv').CarriedBy d := head'
    exact Packet.control.inj (carried.unique carried')
  · intro noControl noData
    refine dispatch_eq_error.mpr ?_
    intro packet carried
    cases packet with
    | control typ conv => exact noControl typ conv carried
    | kcpData payload => exact noData payload carried
  · intro output socket payload
    rw [DirectOutput.bufferedWrite_eq]

end KcpPeer
