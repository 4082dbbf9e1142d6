import KcpPeer.Addr

set_option autoImplicit false

namespace KcpPeer

abbrev Bytes := List UInt8

inductive PacketType where
  | kcpData
  | syn
  | synAck
  | reset
  deriving DecidableEq, Repr

/-- The `repr(u8)` discriminant. -/
def PacketType.toByte : PacketType → UInt8
  | .kcpData => 0
  | .syn => 1
  | .synAck => 2
  | .reset => 3

def PacketType.fromByte (b : UInt8) : Option PacketType :=
  if b = 0 then some .kcpData
  else if b = 1 then some .syn
  else if b = 2 then some .synAck
  else if b = 3 then some .reset
  else none

@[simp] theorem PacketType.fromByte_toByte (typ : PacketType) :
    PacketType.fromByte typ.toByte = some typ := by
  cases typ <;> decide

/-- `u32::to_le_bytes`. -/
def toLeBytes (conv : UInt32) : Bytes :=
  [UInt8.ofNat (conv.toNat % 256), UInt8.ofNat (conv.toNat / 256 % 256),
    UInt8.ofNat (conv.toNat / 65536 % 256), UInt8.ofNat (conv.toNat / 16777216 % 256)]

/-- `u32::from_le_bytes` on the first four bytes; `none` where the source finds
`payload.len() < 4`. -/
def readConv : Bytes → Option UInt32
  | b0 :: b1 :: b2 :: b3 :: _ =>
      some (UInt32.ofNat (b0.toNat + 256 * b1.toNat + 65536 * b2.toNat + 16777216 * b3.toNat))
  | _ => none

@[simp] theorem readConv_toLeBytes (conv : UInt32) (rest : Bytes) :
    readConv (toLeBytes conv ++ rest) = some conv := by
  have bound := conv.toNat_lt
  simp only [toLeBytes, readConv, List.cons_append, Option.some.injEq]
  apply UInt32.toNat_inj.mp
  simp only [UInt8.toNat_ofNat', UInt32.toNat_ofNat']
  omega

def encodeControl (typ : PacketType) (conv : UInt32) : Bytes :=
  typ.toByte :: toLeBytes conv

def encodeKcpData (kcpPacket : Bytes) : Bytes :=
  PacketType.kcpData.toByte :: kcpPacket

def splitPacket : Bytes → Option (PacketType × Bytes)
  | [] => none
  | first :: rest => (PacketType.fromByte first).map fun typ => (typ, rest)

@[simp] theorem splitPacket_encodeControl (typ : PacketType) (conv : UInt32) :
    splitPacket (encodeControl typ conv) = some (typ, toLeBytes conv) := by
  simp only [splitPacket, encodeControl, PacketType.fromByte_toByte, Option.map_some]

@[simp] theorem splitPacket_encodeKcpData (kcpPacket : Bytes) :
    splitPacket (encodeKcpData kcpPacket) = some (.kcpData, kcpPacket) := by
  simp only [splitPacket, encodeKcpData, PacketType.fromByte_toByte, Option.map_some]

@[simp] theorem readConv_toLeBytes_self (conv : UInt32) :
    readConv (toLeBytes conv) = some conv := by
  simpa only [List.append_nil] using readConv_toLeBytes conv []

end KcpPeer
