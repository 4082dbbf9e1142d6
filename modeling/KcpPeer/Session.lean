import KcpPeer.Kcp

set_option autoImplicit false

namespace KcpPeer

inductive Error (K : Type) [Kcp K] where
  | io (e : IoError)
  | kcp (e : Kcp.Err K)
  | sessionNotFound (peer : SocketAddr)
  | deadLink
  | shuttingDown
  | eventChannelLagged (dropped : UInt64)
  | sessionClosed

/-- What the UDP socket answers during one operation: its own address, and for
each datagram whether it was taken (`send_to` and `try_send_to` alike). -/
structure Socket where
  localAddr : Except IoError SocketAddr
  sendTo : Bytes → SocketAddr → Except IoError Nat

/-- A datagram handed to the socket, and whether the socket took it. -/
structure Submission where
  dest : SocketAddr
  bytes : Bytes
  accepted : Bool
  deriving DecidableEq, Repr

def Socket.submit (socket : Socket) (bytes : Bytes) (dest : SocketAddr) : Submission :=
  ⟨dest, bytes, (socket.sendTo bytes dest).isOk⟩

/-- `DirectOutput::write`: on `WouldBlock` the bytes are dropped silently. -/
def DirectOutput.write (socket : Socket) (peer : SocketAddr) : Writer := fun buf =>
  match socket.sendTo (encodeKcpData buf) peer with
  | .ok n => .ok (n - 1)
  | .error e => if e.kind = .wouldBlock then .ok buf.length else .error e

inductive SessionState where
  | synSent
  | established
  deriving DecidableEq, Repr

structure SessionInner (K : Type) where
  kcp : K
  convId : UInt32
  state : SessionState
  incarnation : UInt64

structure Session (K : Type) where
  inner : SessionInner K
  closed : Bool
  lastRx : UInt64
  peerAddr : SocketAddr
  synSentAt : UInt64
  synRetries : UInt32

/-- The readings of `epoch_ms()` and `current_ms()` during one operation. -/
structure Clock where
  epochMs : UInt64
  currentMs : UInt32

/-- `u64::saturating_sub`. -/
def saturatingSub (left right : UInt64) : UInt64 :=
  if left < right then 0 else left - right

namespace Session

variable {K : Type} [Kcp K]

def newOutbound (convId : UInt32) (peerAddr : SocketAddr) (incarnation : UInt64)
    (config : KcpConfig) (now : UInt64) : Session K where
  inner := ⟨config.applyTo (Kcp.new convId), convId, .synSent, incarnation⟩
  closed := false
  lastRx := now
  peerAddr := peerAddr
  synSentAt := now
  synRetries := 0

/-- The source sends the SYN_ACK before it builds the session. -/
def newInbound (convId : UInt32) (peerAddr : SocketAddr) (incarnation : UInt64)
    (config : KcpConfig) (now : UInt64) : Session K where
  inner := ⟨config.applyTo (Kcp.new convId), convId, .established, incarnation⟩
  closed := false
  lastRx := now
  peerAddr := peerAddr
  synSentAt := 0
  synRetries := 0

def withKcp (s : Session K) (kcp : K) : Session K := { s with inner.kcp := kcp }

def markClosed (s : Session K) : Session K := { s with closed := true }

def touch (s : Session K) (now : UInt64) : Session K := { s with lastRx := now }

/-- The datagrams a KCP instance wrote, as `DirectOutput` submits them. -/
def output (s : Session K) (socket : Socket) (buffers : List Bytes) : List Submission :=
  buffers.map fun buf => socket.submit (encodeKcpData buf) s.peerAddr

/-- The SYN of `send_syn`, sent after the session is in the map. -/
def synSubmission (s : Session K) (convId : UInt32) (socket : Socket) : Submission :=
  socket.submit (encodeControl .syn convId) s.peerAddr

def sendSyn (s : Session K) (convId : UInt32) (now : UInt64) (socket : Socket) : Session K :=
  if (s.synSubmission convId socket).accepted then { s with synSentAt := now } else s

/-- `kcp.update` and then `kcp.flush`, with both results ignored. -/
def pump (s : Session K) (now : UInt32) (socket : Socket) : Session K × List Submission :=
  let writer := DirectOutput.write socket s.peerAddr
  let (kcp, first, _) := Kcp.update s.inner.kcp now writer
  let (kcp, second, _) := Kcp.flush kcp writer
  (s.withKcp kcp, s.output socket (first ++ second))

/-- The part of `send_data` under the session's mutex. -/
def queueData (s : Session K) (data : Bytes) (now : UInt32) (socket : Socket) :
    Session K × List Submission × Except (Error K) Unit :=
  let writer := DirectOutput.write socket s.peerAddr
  if Kcp.isDeadLink s.inner.kcp then (s, [], .error .deadLink)
  else
    match Kcp.send s.inner.kcp data with
    | (kcp, .error e) => (s.withKcp kcp, [], .error (.kcp e))
    | (kcp, .ok _) =>
        match s.inner.state with
        | .synSent => (s.withKcp kcp, [], .ok ())
        | .established =>
            match Kcp.update kcp now writer with
            | (kcp, first, .error e) => (s.withKcp kcp, s.output socket first, .error (.kcp e))
            | (kcp, first, .ok _) =>
                match Kcp.flush kcp writer with
                | (kcp, second, .error e) =>
                    (s.withKcp kcp, s.output socket (first ++ second), .error (.kcp e))
                | (kcp, second, .ok _) =>
                    (s.withKcp kcp, s.output socket (first ++ second), .ok ())

def sendData (s : Session K) (data : Bytes) (now : UInt32) (socket : Socket) :
    Session K × List Submission × Except (Error K) Unit :=
  if s.closed then (s, [], .error .sessionClosed) else s.queueData data now socket

/-- The number of segments still in flight, or `DeadLink`. -/
def update (s : Session K) (now : UInt32) (socket : Socket) :
    Session K × List Submission × Except (Error K) Nat :=
  let writer := DirectOutput.write socket s.peerAddr
  match s.inner.state with
  | .synSent => (s, [], .ok (Kcp.waitSnd s.inner.kcp))
  | .established =>
      if Kcp.isDeadLink s.inner.kcp then (s, [], .error .deadLink)
      else
        match Kcp.update s.inner.kcp now writer with
        | (kcp, out, .error e) => (s.withKcp kcp, s.output socket out, .error (.kcp e))
        | (kcp, out, .ok _) =>
            if Kcp.isDeadLink kcp then (s.withKcp kcp, s.output socket out, .error .deadLink)
            else (s.withKcp kcp, s.output socket out, .ok (Kcp.waitSnd kcp))

def input (s : Session K) (data : Bytes) : Session K × Except (Error K) Unit :=
  match Kcp.input s.inner.kcp data with
  | (kcp, .error e) => (s.withKcp kcp, .error (.kcp e))
  | (kcp, .ok _) => (s.withKcp kcp, .ok ())

/-- The loop of `try_recv_all`. The fuel counts the complete messages queued in
the instance, each of which one iteration takes out. -/
def drain : Nat → K → List Bytes → K × List Bytes × Except (Kcp.Err K) Unit
  | 0, kcp, out => (kcp, out, .ok ())
  | fuel + 1, kcp, out =>
      match Kcp.peeksize kcp with
      | .error _ => (kcp, out, .ok ())
      | .ok size =>
          match Kcp.recv kcp size with
          | (kcp, .error e) => (kcp, out, .error e)
          | (kcp, .ok buf) => drain fuel kcp (out ++ [buf])

def tryRecvAll (s : Session K) : Session K × List Bytes × Except (Error K) Unit :=
  match drain (Kcp.rcvQueue s.inner.kcp).length s.inner.kcp [] with
  | (kcp, out, .error e) => (s.withKcp kcp, out, .error (.kcp e))
  | (kcp, out, .ok _) => (s.withKcp kcp, out, .ok ())

/-- `(interval_ms as u64) << retries`. A shift by 64 or more panics in a debug
build and takes the amount modulo 64 in a release build, as it does here. -/
def retryWait (config : KcpConfig) (retries : UInt32) : UInt64 :=
  UInt64.ofNat config.synRetryInterval.asMillis <<< retries.toUInt64

/-- The part of `maybe_retry_syn` after the state check; `convId` is the value
read under the mutex. -/
def retrySyn (s : Session K) (convId : UInt32) (config : KcpConfig) (nowEpoch now : UInt64)
    (socket : Socket) : Session K × List Submission × Except (Error K) Bool :=
  if config.synMaxRetries ≤ s.synRetries then (s, [], .error .deadLink)
  else if saturatingSub nowEpoch s.synSentAt < retryWait config s.synRetries then (s, [], .ok false)
  else
    ({ s with synSentAt := now, synRetries := s.synRetries + 1 },
      [s.synSubmission convId socket], .ok true)

def maybeRetrySyn (s : Session K) (config : KcpConfig) (nowEpoch now : UInt64)
    (socket : Socket) : Session K × List Submission × Except (Error K) Bool :=
  if s.closed then (s, [], .error .sessionClosed)
  else
    match s.inner.state with
    | .established => (s, [], .ok false)
    | .synSent => s.retrySyn s.inner.convId config nowEpoch now socket

/-- The idle test of the update task. -/
def idleExpired (s : Session K) (config : KcpConfig) (nowEpoch : UInt64) : Bool :=
  decide (0 < s.lastRx ∧ config.sessionTimeout.asNanos <
    (Duration.fromMillis (saturatingSub nowEpoch s.lastRx)).asNanos)

end Session

end KcpPeer
