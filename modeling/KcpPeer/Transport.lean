import KcpPeer.Session
import KcpPeer.Lib.Machine
import KcpPeer.Lib.Store

set_option autoImplicit false

namespace KcpPeer

inductive Event where
  | connected (peer : SocketAddr)
  | disconnected (peer : SocketAddr)
  | peerRestarted (peer : SocketAddr)
  deriving DecidableEq, Repr

structure DataMessage where
  peer : SocketAddr
  data : Bytes
  deriving DecidableEq, Repr

/-- A session object: its position among all sessions the peer has created. -/
abbrev SessionId := Nat

/-- One entry of the peer's history: an event sent on the broadcast channel, or
a message appended to `pending_data`, with the session object it is about. -/
inductive LogEntry where
  | event (e : Event) (session : SessionId)
  | data (msg : DataMessage) (session : SessionId)
  deriving DecidableEq, Repr

/-- A submitted datagram. `origin` is the session whose own code submitted it:
its KCP output, `send_syn` or `maybe_retry_syn`. -/
structure Outgoing extends Submission where
  origin : Option SessionId
  deriving DecidableEq, Repr

/-- `tokio::sync::Notify`: `notify_one` wakes the longest waiting task, or stores
one permit when no task waits. `woken` are the tasks woken and not yet resumed. -/
structure Notify where
  permit : Bool
  waiters : List Nat
  woken : List Nat
  deriving DecidableEq, Repr

def Notify.new : Notify := ⟨false, [], []⟩

def Notify.notifyOne (n : Notify) : Notify :=
  match n.waiters with
  | [] => { n with permit := true }
  | first :: rest => { n with waiters := rest, woken := n.woken ++ [first] }

/-- A conversation id as `random_range(1..=u32::MAX)` draws it. -/
structure DrawnConv where
  val : UInt32
  nonzero : val ≠ 0
  deriving DecidableEq

/-- The state shared by the tasks of one `KcpPeer`. `log` and `outbox` record
what it has sent to its event channel, to `pending_data` and to its socket. -/
structure Peer (K : Type) where
  incarnation : UInt64
  config : KcpConfig
  sessions : Store CanonicalAddr (Session K)
  pendingData : List DataMessage
  dataNotify : Notify
  log : List LogEntry
  outbox : List Outgoing

/-- What the SYN handler decides under the map's read lock. -/
inductive SynAction where
  | createNew
  | keepExisting
  | ignore
  deriving DecidableEq, Repr

structure SynResult where
  action : SynAction
  sendAckTo : Option SocketAddr
  ackConv : UInt32
  deriving DecidableEq, Repr

/-- The inputs of one update tick: its two clock readings, the clock read after
each SYN retry, and the order in which the session map is iterated. -/
structure Tick where
  nowMs : UInt32
  nowEpoch : UInt64
  retryClock : CanonicalAddr → UInt64
  order : List CanonicalAddr

namespace Session

variable {K : Type} [Kcp K]

/-- Entry into `Established` with the session's own conversation id. -/
def establish (s : Session K) (now : UInt64) : Session K :=
  { s with inner.state := .established, lastRx := now }

/-- Entry into `Established` with the remote's conversation id. -/
def adopt (s : Session K) (conv : UInt32) (now : UInt64) : Session K :=
  { s with
    inner := { s.inner with
      kcp := Kcp.setConv s.inner.kcp conv, convId := conv, state := .established }
    lastRx := now }

end Session

namespace Peer

variable {K : Type} [Kcp K]

def bind (incarnation : UInt64) (config : KcpConfig) : Peer K where
  incarnation := incarnation
  config := config
  sessions := .empty
  pendingData := []
  dataNotify := .new
  log := []
  outbox := []

def emit (p : Peer K) (e : Event) (session : SessionId) : Peer K :=
  { p with log := p.log ++ [.event e session] }

def submit (p : Peer K) (origin : Option SessionId) (out : List Submission) : Peer K :=
  { p with outbox := p.outbox ++ out.map fun submission => ⟨submission, origin⟩ }

def setSession (p : Peer K) (id : SessionId) (s : Session K) : Peer K :=
  { p with sessions := p.sessions.modify id fun _ => s }

def removeKey (p : Peer K) (can : CanonicalAddr) : Peer K :=
  { p with sessions := p.sessions.remove can }

def insertSession (p : Peer K) (can : CanonicalAddr) (s : Session K) : Peer K :=
  { p with sessions := p.sessions.insertNew can s }

/-- Three copies of a RESET. -/
def sendReset (p : Peer K) (conv : UInt32) (dest : SocketAddr) (socket : Socket) : Peer K :=
  p.submit none (List.replicate 3 (socket.submit (encodeControl .reset conv) dest))

/-- `send_data` on a session whose handle and contents are given. -/
def sendOn (p : Peer K) (id : SessionId) (s : Session K) (data : Bytes) (clock : Clock)
    (socket : Socket) : Peer K × Except (Error K) Unit :=
  let (s, out, result) := s.sendData data clock.currentMs socket
  ((p.setSession id s).submit (some id) out, result)

/-- `initiate_session` when the map holds no session for the peer. Run without
interruption, its two checks of the map give the same answer. -/
def initiateSession (p : Peer K) (peer : SocketAddr) (draw : DrawnConv) (clock : Clock)
    (socket : Socket) : Peer K × SessionId × Session K :=
  let s := Session.newOutbound draw.val peer p.incarnation p.config clock.epochMs
  let id := p.sessions.fresh
  let p := p.insertSession (canonicalize peer) s
  let s' := s.sendSyn s.inner.convId clock.epochMs socket
  ((p.setSession id s').submit (some id) [s.synSubmission s.inner.convId socket], id, s')

def send (p : Peer K) (peer : SocketAddr) (data : Bytes) (draw : DrawnConv) (clock : Clock)
    (socket : Socket) : Peer K × Except (Error K) Unit :=
  match p.sessions.find (canonicalize peer) with
  | some (id, s) => p.sendOn id s data clock socket
  | none =>
      let (p, id, s) := p.initiateSession peer draw clock socket
      p.sendOn id s data clock socket

def disconnect (p : Peer K) (peer : SocketAddr) (socket : Socket) : Peer K :=
  match p.sessions.find (canonicalize peer) with
  | none => p
  | some (id, s) =>
      let p := (p.removeKey (canonicalize peer)).setSession id s.markClosed
      (p.sendReset s.inner.convId peer socket).emit (.disconnected peer) id

/-- Appends the drained messages to `pending_data` and wakes one receiver. -/
def appendData (p : Peer K) (id : SessionId) (peer : SocketAddr) (msgs : List Bytes) : Peer K :=
  let batch := msgs.map fun data => (⟨peer, data⟩ : DataMessage)
  { p with
    pendingData := p.pendingData ++ batch
    log := p.log ++ batch.map fun msg => .data msg id }

def notify (p : Peer K) : Peer K := { p with dataNotify := p.dataNotify.notifyOne }

def handleKcpData (p : Peer K) (payload : Bytes) (src : SocketAddr) (clock : Clock)
    (socket : Socket) : Peer K × Except (Error K) Unit :=
  match p.sessions.find (canonicalize src) with
  | some (id, s) =>
      match (s.touch clock.epochMs).input payload with
      | (s, .error e) => (p.setSession id s, .error e)
      | (s, .ok _) =>
          match s.tryRecvAll with
          | (s, _, .error e) => (p.setSession id s, .error e)
          | (s, [], .ok _) => (p.setSession id s, .ok ())
          | (s, msg :: msgs, .ok _) =>
              (((p.setSession id s).appendData id s.peerAddr (msg :: msgs)).notify, .ok ())
  | none =>
      match readConv payload with
      | some conv => (p.sendReset conv src socket, .ok ())
      | none => (p, .ok ())

/-- The section of the SYN handler under the map's read lock. -/
def synDecide (p : Peer K) (src : SocketAddr) (conv : UInt32) (myAddr : SocketAddr)
    (clock : Clock) (socket : Socket) : Peer K × SynResult :=
  match p.sessions.find (canonicalize src) with
  | none => (p, ⟨.createNew, none, 0⟩)
  | some (id, s) =>
      if s.inner.convId = conv then
        match s.inner.state with
        | .established =>
            -- the SYN_ACK may have been lost: acknowledge again
            (p.setSession id (s.touch clock.epochMs), ⟨.ignore, some src, conv⟩)
        | .synSent => (p, ⟨.ignore, none, 0⟩)
      else
        match s.inner.state with
        | .synSent =>
            if myAddr < src then
              let (s, out) := (s.adopt conv clock.epochMs).pump clock.currentMs socket
              (((p.setSession id s).submit (some id) out).emit (.connected src) id,
                ⟨.keepExisting, some src, conv⟩)
            else
              let (s', out) := (s.establish clock.epochMs).pump clock.currentMs socket
              (((p.setSession id s').submit (some id) out).emit (.connected src) id,
                ⟨.keepExisting, some src, s.inner.convId⟩)
        | .established =>
            ((p.setSession id s.markClosed).emit (.peerRestarted src) id, ⟨.createNew, none, 0⟩)

def sendSynAck (p : Peer K) (conv : UInt32) (dest : SocketAddr) (socket : Socket) : Peer K :=
  p.submit none [socket.submit (encodeControl .synAck conv) dest]

def synAcknowledge (p : Peer K) (result : SynResult) (socket : Socket) : Peer K :=
  match result.sendAckTo with
  | some dest => p.sendSynAck result.ackConv dest socket
  | none => p

/-- The section of the SYN handler under the map's write lock. -/
def synInsert (p : Peer K) (src : SocketAddr) (conv : UInt32) (clock : Clock) : Peer K :=
  let s := Session.newInbound conv src p.incarnation p.config clock.epochMs
  (p.insertSession (canonicalize src) s).emit (.connected src) p.sessions.fresh

def synFinish (p : Peer K) (result : SynResult) (src : SocketAddr) (conv : UInt32)
    (clock : Clock) (socket : Socket) : Peer K :=
  match result.action with
  | .createNew => (p.sendSynAck conv src socket).synInsert src conv clock
  | .keepExisting | .ignore => p

def handleSyn (p : Peer K) (payload : Bytes) (src : SocketAddr) (clock : Clock)
    (socket : Socket) : Peer K × Except (Error K) Unit :=
  match readConv payload with
  | none => (p, .error (.io ⟨.invalidData, "truncated SYN"⟩))
  | some conv =>
      match socket.localAddr with
      | .error e => (p, .error (.io e))
      | .ok myAddr =>
          let (p, result) := p.synDecide src conv myAddr clock socket
          ((p.synAcknowledge result socket).synFinish result src conv clock socket, .ok ())

/-- The section of the SYN_ACK handler under the map's read lock. -/
def synAckAccept (p : Peer K) (src : SocketAddr) (conv : UInt32) (clock : Clock)
    (socket : Socket) : Peer K :=
  match p.sessions.find (canonicalize src) with
  | none => p
  | some (id, s) =>
      match s.inner.state with
      | .established => p
      | .synSent =>
          if s.inner.convId = conv then
            let (s, out) := (s.establish clock.epochMs).pump clock.currentMs socket
            ((p.setSession id s).submit (some id) out).emit (.connected src) id
          else p

def handleSynAck (p : Peer K) (payload : Bytes) (src : SocketAddr) (clock : Clock)
    (socket : Socket) : Peer K × Except (Error K) Unit :=
  match readConv payload with
  | none => (p, .error (.io ⟨.invalidData, "truncated SYN_ACK"⟩))
  | some conv => (p.synAckAccept src conv clock socket, .ok ())

def handleReset (p : Peer K) (payload : Bytes) (src : SocketAddr) :
    Peer K × Except (Error K) Unit :=
  match readConv payload with
  | none => (p, .error (.io ⟨.invalidData, "truncated RESET"⟩))
  | some conv =>
      match p.sessions.find (canonicalize src) with
      | none => (p, .ok ())
      | some (id, s) =>
          if s.inner.convId = conv then
            (((p.removeKey (canonicalize src)).setSession id s.markClosed).emit
              (.disconnected src) id, .ok ())
          else (p, .ok ())

/-- Routes an incoming datagram, run without interruption. -/
def handleIncoming (p : Peer K) (data : Bytes) (src : SocketAddr) (clock : Clock)
    (socket : Socket) : Peer K × Except (Error K) Unit :=
  match splitPacket data with
  | none => (p, .error (.io ⟨.invalidData, "empty packet"⟩))
  | some (.kcpData, payload) => p.handleKcpData payload src clock socket
  | some (.syn, payload) => p.handleSyn payload src clock socket
  | some (.synAck, payload) => p.handleSynAck payload src clock socket
  | some (.reset, payload) => p.handleReset payload src

/-- The scan of one session; the flag says that its key goes on `to_remove`. -/
def scanSession (p : Peer K) (tick : Tick) (socket : Socket) (can : CanonicalAddr) :
    Peer K × Bool :=
  match p.sessions.find can with
  | none => (p, false)
  | some (id, s) =>
      if s.closed then (p, false)
      else
        match s.update tick.nowMs socket with
        | (s, out, .error .deadLink) => ((p.setSession id s).submit (some id) out, true)
        | (s, out, _) =>
            let p := (p.setSession id s).submit (some id) out
            match s.maybeRetrySyn p.config tick.nowEpoch (tick.retryClock can) socket with
            | (s, out, .error .deadLink) => ((p.setSession id s).submit (some id) out, true)
            | (s, out, _) =>
                ((p.setSession id s).submit (some id) out, s.idleExpired p.config tick.nowEpoch)

def scan (tick : Tick) (socket : Socket) : List CanonicalAddr → Peer K →
    Peer K × List CanonicalAddr
  | [], p => (p, [])
  | can :: rest, p =>
      let (p, dead) := p.scanSession tick socket can
      let (p, toRemove) := scan tick socket rest p
      (p, if dead then can :: toRemove else toRemove)

/-- The removal of one key on `to_remove`. -/
def prune (socket : Socket) (p : Peer K) (can : CanonicalAddr) : Peer K :=
  match p.sessions.find can with
  | none => p
  | some (id, s) =>
      let p := (p.removeKey can).sendReset s.inner.convId s.peerAddr socket
      (p.setSession id s.markClosed).emit (.disconnected s.peerAddr) id

/-- The body of the update loop, run without interruption. -/
def updateTick (p : Peer K) (tick : Tick) (socket : Socket) : Peer K :=
  let (p, toRemove) := scan tick socket tick.order p
  toRemove.foldl (prune socket) p

end Peer

/-- One atomic operation of a peer, with what its environment answers. -/
inductive PeerOp where
  | send (peer : SocketAddr) (data : Bytes) (draw : DrawnConv) (clock : Clock) (socket : Socket)
  | disconnect (peer : SocketAddr) (socket : Socket)
  | tick (tick : Tick) (socket : Socket)
  | incoming (data : Bytes) (src : SocketAddr) (clock : Clock) (socket : Socket)

/-- A tick iterates the session map in some order of its keys. -/
def Peer.apply {K : Type} [Kcp K] (p : Peer K) : PeerOp → Option (Peer K)
  | .send peer data draw clock socket => some (p.send peer data draw clock socket).1
  | .disconnect peer socket => some (p.disconnect peer socket)
  | .tick tick socket =>
      if tick.order.isPerm p.sessions.keys then some (p.updateTick tick socket) else none
  | .incoming data src clock socket => some (p.handleIncoming data src clock socket).1

/-- A tick that is taken iterates all the sessions. -/
theorem Peer.apply_tick {K : Type} [Kcp K] {p p' : Peer K} {tick : Tick} {socket : Socket}
    (applied : p.apply (.tick tick socket) = some p') :
    tick.order.isPerm p.sessions.keys ∧ p.updateTick tick socket = p' := by
  obtain ⟨order, updated⟩ := Option.ite_none_right_eq_some.mp applied
  exact ⟨order, Option.some.inj updated⟩

end KcpPeer
