import KcpPeer.Registry

set_option autoImplicit false

namespace KcpPeer

/-- Where the receive task stands in `handle_incoming`: between two sections
under a lock, or at an await. A session it has cloned out of the map is an object
of its own, whatever the map holds by then. -/
inductive RecvPc where
  | idle
  | kcpUnknown (src : SocketAddr) (payload : Bytes)
  | kcpFound (id : SessionId) (payload : Bytes)
  | kcpStamped (id : SessionId) (payload : Bytes)
  | kcpFed (id : SessionId)
  | kcpDrained (id : SessionId) (msgs : List Bytes)
  | kcpAppended
  | synDecided (src : SocketAddr) (conv : UInt32) (result : SynResult)
  | synCreating (src : SocketAddr) (conv : UInt32)
  | synCreated (src : SocketAddr) (conv : UInt32)
  | resetFound (src : SocketAddr) (conv : UInt32) (id : SessionId)
  | resetMatched (src : SocketAddr) (conv : UInt32) (id : SessionId)
  | resetRemoved (src : SocketAddr) (id : SessionId)
  | resetClosed (src : SocketAddr) (id : SessionId)
  deriving DecidableEq, Repr

/-- Why a scan puts a session on `to_remove`, with what it has read of the session: the
answer of `is_dead_link` in `update`, the counter of retries in `maybe_retry_syn`, or the
`last_rx` that is compared with the clock of the tick. -/
inductive Finding where
  | deadLink (isDead : Bool)
  | synExhausted (retries : UInt32)
  | idleExpired (lastRx nowEpoch : UInt64)
  deriving DecidableEq, Repr

/-- The object that a scan judged, and on what. -/
structure Verdict where
  id : SessionId
  finding : Finding
  deriving DecidableEq, Repr

/-- One scan of the update task: its clock readings, the keys still to be
visited, the current one first, and `to_remove`. History, which the code does not
keep: what was judged under each key on `to_remove`, and the number of
sessions that existed when the scan began. -/
structure Scan where
  nowMs : UInt32
  nowEpoch : UInt64
  keys : List CanonicalAddr
  toRemove : List (CanonicalAddr × Verdict)
  horizon : Nat
  deriving DecidableEq, Repr

/-- What is next for the session under the scan's current key; `resend` has read
the conversation id under the session's mutex. -/
inductive ScanPhase where
  | check
  | update
  | retry
  | resend (conv : UInt32)
  | age
  deriving DecidableEq, Repr

/-- Where the update task stands in its loop. It holds the map's read lock while
it is `scanning`. -/
inductive UpdPc where
  | idle
  | started (nowMs : UInt32) (nowEpoch : UInt64)
  | scanning (scan : Scan) (phase : ScanPhase)
  | removing (toRemove : List (CanonicalAddr × Verdict)) (horizon : Nat)
  deriving DecidableEq, Repr

/-- Where a `send()` call stands. -/
inductive SendPc where
  | called (peer : SocketAddr) (data : Bytes)
  | missing (peer : SocketAddr) (data : Bytes)
  | creating (peer : SocketAddr) (data : Bytes)
  | inserted (id : SessionId) (data : Bytes)
  | greeting (id : SessionId) (conv : UInt32) (data : Bytes)
  | holding (id : SessionId) (data : Bytes)
  | opened (id : SessionId) (data : Bytes)
  | done
  deriving DecidableEq, Repr

/-- A removal by key: the object it took out of the map, next to the verdict or
the conversation id on which it was decided. -/
inductive Removal where
  | update (removed : SessionId) (judged : Verdict)
  | reset (removed : SessionId) (own conv : UInt32)
  deriving DecidableEq, Repr

/-- The tasks of one peer and its running `send()` calls. `accepted` and
`removals` are history: the payloads a call queued and returned `Ok` for, and
what the removals by key took out of the map. -/
structure Tasks (K : Type) where
  peer : Peer K
  recv : RecvPc
  upd : UpdPc
  calls : List SendPc
  accepted : List (SessionId × Bytes)
  removals : List Removal

/-- One step of one task. Each label carries what the environment answers. A call
is `cancel`led before it is first polled or at its one await. -/
inductive TaskStep where
  | arrive (data : Bytes) (src : SocketAddr) (clock : Clock) (socket : Socket)
  | recv (clock : Clock) (socket : Socket)
  | tick (nowMs : UInt32) (nowEpoch : UInt64)
  | scan (order : List CanonicalAddr)
  | upd (now : UInt64) (socket : Socket)
  | call (peer : SocketAddr) (data : Bytes)
  | advance (index : Nat) (draw : DrawnConv) (clock : Clock) (socket : Socket)
  | cancel (index : Nat)
  | disconnect (peer : SocketAddr) (socket : Socket)
  | take

namespace Scan

/-- The current key is done with. -/
def skip (scan : Scan) : Scan := { scan with keys := scan.keys.tail }

/-- The current key goes on `to_remove`. -/
def judge (scan : Scan) (can : CanonicalAddr) (verdict : Verdict) : Scan :=
  { scan with keys := scan.keys.tail, toRemove := scan.toRemove ++ [(can, verdict)] }

end Scan

namespace Tasks

variable {K : Type} [Kcp K]

def start (incarnation : UInt64) (config : KcpConfig) : Tasks K :=
  ⟨.bind incarnation config, .idle, .idle, [], [], []⟩

/-- No task holds the map's read lock between two steps. -/
def writable (n : Tasks K) : Bool :=
  match n.upd with
  | .scanning .. => false
  | _ => true

def setCall (n : Tasks K) (index : Nat) (pc : SendPc) : Tasks K :=
  { n with calls := n.calls.set index pc }

/-- The receive task takes a datagram and runs to the end of its first section
under a lock. -/
def arrive (n : Tasks K) (data : Bytes) (src : SocketAddr) (clock : Clock) (socket : Socket) :
    Tasks K :=
  match splitPacket data with
  | none => n
  | some (.kcpData, payload) =>
      match n.peer.sessions.lookup (canonicalize src) with
      | some id => { n with recv := .kcpFound id payload }
      | none => { n with recv := .kcpUnknown src payload }
  | some (.syn, payload) =>
      match readConv payload with
      | none => n
      | some conv =>
          match socket.localAddr with
          | .error _ => n
          | .ok myAddr =>
              let (peer, result) := n.peer.synDecide src conv myAddr clock socket
              { n with peer, recv := .synDecided src conv result }
  | some (.synAck, payload) =>
      match readConv payload with
      | none => n
      | some conv => { n with peer := n.peer.synAckAccept src conv clock socket }
  | some (.reset, payload) =>
      match readConv payload with
      | none => n
      | some conv =>
          match n.peer.sessions.lookup (canonicalize src) with
          | some id => { n with recv := .resetFound src conv id }
          | none => n

/-- The receive task goes on with a datagram; a step that needs the map's write
lock waits for the scan to end. -/
def recvStep (n : Tasks K) (clock : Clock) (socket : Socket) : Option (Tasks K) :=
  match n.recv with
  | .idle => none
  | .kcpUnknown src payload =>
      match readConv payload with
      | some conv => some { n with peer := n.peer.sendReset conv src socket, recv := .idle }
      | none => some { n with recv := .idle }
  | .kcpFound id payload =>
      (n.peer.sessions.object? id).map fun s =>
        { n with
          peer := n.peer.setSession id (s.touch clock.epochMs)
          recv := .kcpStamped id payload }
  | .kcpStamped id payload =>
      (n.peer.sessions.object? id).map fun s =>
        match s.input payload with
        | (s, .error _) => { n with peer := n.peer.setSession id s, recv := .idle }
        | (s, .ok _) => { n with peer := n.peer.setSession id s, recv := .kcpFed id }
  | .kcpFed id =>
      (n.peer.sessions.object? id).map fun s =>
        match s.tryRecvAll with
        | (s, _, .error _) => { n with peer := n.peer.setSession id s, recv := .idle }
        | (s, [], .ok _) => { n with peer := n.peer.setSession id s, recv := .idle }
        | (s, msg :: msgs, .ok _) =>
            { n with peer := n.peer.setSession id s, recv := .kcpDrained id (msg :: msgs) }
  | .kcpDrained id msgs =>
      (n.peer.sessions.object? id).map fun s =>
        { n with peer := n.peer.appendData id s.peerAddr msgs, recv := .kcpAppended }
  | .kcpAppended => some { n with peer := n.peer.notify, recv := .idle }
  | .synDecided src conv result =>
      let peer := n.peer.synAcknowledge result socket
      match result.action with
      | .createNew => some { n with peer, recv := .synCreating src conv }
      | .keepExisting | .ignore => some { n with peer, recv := .idle }
  | .synCreating src conv =>
      some { n with peer := n.peer.sendSynAck conv src socket, recv := .synCreated src conv }
  | .synCreated src conv =>
      if n.writable then some { n with peer := n.peer.synInsert src conv clock, recv := .idle }
      else none
  | .resetFound src conv id =>
      (n.peer.sessions.object? id).map fun s =>
        if s.inner.convId = conv then { n with recv := .resetMatched src conv id }
        else { n with recv := .idle }
  | .resetMatched src conv id =>
      if n.writable then
        -- whatever the map holds under the key now
        let removed := (n.peer.sessions.find (canonicalize src)).map fun found =>
          Removal.reset found.1 found.2.inner.convId conv
        some { n with
          peer := n.peer.removeKey (canonicalize src)
          recv := .resetRemoved src id
          removals := n.removals ++ removed.toList }
      else none
  | .resetRemoved src id =>
      (n.peer.sessions.object? id).map fun s =>
        { n with peer := n.peer.setSession id s.markClosed, recv := .resetClosed src id }
  | .resetClosed src id => some { n with peer := n.peer.emit (.disconnected src) id, recv := .idle }

/-- One step of the scan at the session under its current key. The map is locked,
so the key names one object throughout. -/
def scanStep (n : Tasks K) (scan : Scan) (can : CanonicalAddr) (id : SessionId) (s : Session K)
    (now : UInt64) (socket : Socket) : ScanPhase → Tasks K
  | .check =>
      if s.closed then { n with upd := .scanning scan.skip .check }
      else { n with upd := .scanning scan .update }
  | .update =>
      match s.update scan.nowMs socket with
      | (s, out, .error .deadLink) =>
          let verdict : Verdict := ⟨id, .deadLink (Kcp.isDeadLink s.inner.kcp)⟩
          { n with
            peer := (n.peer.setSession id s).submit (some id) out
            upd := .scanning (scan.judge can verdict) .check }
      | (s, out, _) =>
          { n with
            peer := (n.peer.setSession id s).submit (some id) out
            upd := .scanning scan .retry }
  | .retry =>
      if s.closed then { n with upd := .scanning scan .age }
      else
        match s.inner.state with
        | .established => { n with upd := .scanning scan .age }
        | .synSent => { n with upd := .scanning scan (.resend s.inner.convId) }
  | .resend conv =>
      match s.retrySyn conv n.peer.config scan.nowEpoch now socket with
      | (s, out, .error .deadLink) =>
          let verdict : Verdict := ⟨id, .synExhausted s.synRetries⟩
          { n with
            peer := (n.peer.setSession id s).submit (some id) out
            upd := .scanning (scan.judge can verdict) .check }
      | (s, out, _) =>
          { n with
            peer := (n.peer.setSession id s).submit (some id) out
            upd := .scanning scan .age }
  | .age =>
      if s.idleExpired n.peer.config scan.nowEpoch then
        let verdict : Verdict := ⟨id, .idleExpired s.lastRx scan.nowEpoch⟩
        { n with upd := .scanning (scan.judge can verdict) .check }
      else { n with upd := .scanning scan.skip .check }

def updStep (n : Tasks K) (now : UInt64) (socket : Socket) : Option (Tasks K) :=
  match n.upd with
  | .idle => none
  | .started .. => none
  | .scanning scan phase =>
      match scan.keys with
      | [] => some { n with upd := .removing scan.toRemove scan.horizon }
      | can :: _ =>
          (n.peer.sessions.find can).map fun found =>
            n.scanStep scan can found.1 found.2 now socket phase
  | .removing [] _ => some { n with upd := .idle }
  | .removing ((can, judged) :: rest) horizon =>
      let removed := (n.peer.sessions.lookup can).map fun id => Removal.update id judged
      some { n with
        peer := Peer.prune socket n.peer can
        upd := .removing rest horizon
        removals := n.removals ++ removed.toList }

/-- A `send()` call goes on. -/
def callStep (n : Tasks K) (index : Nat) (draw : DrawnConv) (clock : Clock) (socket : Socket) :
    SendPc → Option (Tasks K)
  | .called peer data =>
      match n.peer.sessions.lookup (canonicalize peer) with
      | some id => some (n.setCall index (.holding id data))
      | none => some (n.setCall index (.missing peer data))
  | .missing peer data =>
      match n.peer.sessions.lookup (canonicalize peer) with
      | some id => some (n.setCall index (.holding id data))
      | none => some (n.setCall index (.creating peer data))
  | .creating peer data =>
      if n.writable then
        match n.peer.sessions.lookup (canonicalize peer) with
        | some id => some (n.setCall index (.holding id data))
        | none =>
            let s :=
              Session.newOutbound draw.val peer n.peer.incarnation n.peer.config clock.epochMs
            some ({ n with peer := n.peer.insertSession (canonicalize peer) s }.setCall index
              (.inserted n.peer.sessions.fresh data))
      else none
  | .inserted id data =>
      (n.peer.sessions.object? id).map fun s =>
        n.setCall index (.greeting id s.inner.convId data)
  | .greeting id conv data =>
      -- the rest of `send_syn`: its store to `syn_sent_at` is part of the step of the SYN
      (n.peer.sessions.object? id).map fun s =>
        let peer := n.peer.setSession id (s.sendSyn conv clock.epochMs socket)
        { n with peer := peer.submit (some id) [s.synSubmission conv socket] }.setCall index
          (.holding id data)
  | .holding id data =>
      (n.peer.sessions.object? id).map fun s =>
        if s.closed then n.setCall index .done else n.setCall index (.opened id data)
  | .opened id data =>
      (n.peer.sessions.object? id).map fun s =>
        let (s, out, result) := s.queueData data clock.currentMs socket
        { n with
          peer := (n.peer.setSession id s).submit (some id) out
          accepted := if result.isOk then n.accepted ++ [(id, data)] else n.accepted }.setCall index
            .done
  | .done => none

def step (n : Tasks K) : TaskStep → Option (Tasks K)
  | .arrive data src clock socket =>
      if n.recv = .idle then some (n.arrive data src clock socket) else none
  | .recv clock socket => n.recvStep clock socket
  | .tick nowMs nowEpoch =>
      if n.upd = .idle then
        if n.peer.sessions.keys.isEmpty then some n
        else some { n with upd := .started nowMs nowEpoch }
      else none
  | .scan order =>
      match n.upd with
      | .started nowMs nowEpoch =>
          if order.isPerm n.peer.sessions.keys then
            some { n with
              upd := .scanning ⟨nowMs, nowEpoch, order, [], n.peer.sessions.fresh⟩ .check }
          else none
      | _ => none
  | .upd now socket => n.updStep now socket
  | .call peer data => some { n with calls := n.calls ++ [.called peer data] }
  | .advance index draw clock socket =>
      n.calls[index]?.bind fun pc => n.callStep index draw clock socket pc
  | .cancel index =>
      match n.calls[index]? with
      | some (.called ..) => some (n.setCall index .done)
      | some (.greeting ..) => some (n.setCall index .done)
      | _ => none
  | .disconnect peer socket =>
      if n.writable then some { n with peer := n.peer.disconnect peer socket } else none
  | .take =>
      match n.peer.pendingData with
      | [] => none
      | _ :: rest => some { n with peer := { n.peer with pendingData := rest } }

end Tasks

/-- Every interleaving of the receive task, the update task and the API calls of
one peer. -/
def tasksMachine (K : Type) [Kcp K] (incarnation : UInt64) (config : KcpConfig) :
    Machine (Tasks K) TaskStep where
  start := .start incarnation config
  step := Tasks.step

end KcpPeer
