import KcpPeer.Packet

set_option autoImplicit false

namespace KcpPeer

/-- `std::time::Duration`: whole seconds and a nanosecond part below one second. -/
structure Duration where
  secs : UInt64
  subsecNanos : Fin 1000000000
  deriving DecidableEq, Repr

namespace Duration

def asNanos (d : Duration) : Nat := d.secs.toNat * 1000000000 + d.subsecNanos.val

/-- `Duration::as_millis`, a `u128` in the source and so exact. -/
def asMillis (d : Duration) : Nat := d.secs.toNat * 1000 + d.subsecNanos.val / 1000000

def fromMillis (ms : UInt64) : Duration where
  secs := ms / 1000
  subsecNanos := ⟨ms.toNat % 1000 * 1000000, by omega⟩

end Duration

structure KcpConfig where
  kcpIntervalMs : UInt32
  kcpNodelay : Int32 × Int32 × Int32 × Bool
  sndWnd : UInt16
  rcvWnd : UInt16
  rxMinrto : UInt32
  fastResend : UInt32
  maximumResendTimes : UInt32
  tickInterval : Duration
  sessionTimeout : Duration
  eventChannelCapacity : Nat
  synRetryInterval : Duration
  synMaxRetries : UInt32
  mtu : UInt16

def KcpConfig.default : KcpConfig where
  kcpIntervalMs := 100
  kcpNodelay := (1, 20, 2, true)
  sndWnd := 128
  rcvWnd := 128
  rxMinrto := 10
  fastResend := 1
  maximumResendTimes := 20
  tickInterval := .fromMillis 100
  sessionTimeout := ⟨60, 0⟩
  eventChannelCapacity := 1024
  synRetryInterval := .fromMillis 150
  synMaxRetries := 5
  mtu := 1400

inductive IoErrorKind where
  | wouldBlock
  | invalidData
  | other
  deriving DecidableEq, Repr

/-- `std::io::Error`: its kind and its text. -/
structure IoError where
  kind : IoErrorKind
  text : String
  deriving DecidableEq, Repr

end KcpPeer
