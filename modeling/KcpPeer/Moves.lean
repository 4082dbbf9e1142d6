import KcpPeer.Tasks

set_option autoImplicit false

namespace KcpPeer

/-- What the scan has read of the session is a reason to remove it. -/
def Finding.Holds (config : KcpConfig) : Finding → Prop
  | .deadLink isDead => isDead = true
  | .synExhausted retries => config.synMaxRetries ≤ retries
  | .idleExpired lastRx nowEpoch => 0 < lastRx ∧ config.sessionTimeout.asNanos <
      (Duration.fromMillis (saturatingSub nowEpoch lastRx)).asNanos

instance (config : KcpConfig) : ∀ finding : Finding, Decidable (finding.Holds config)
  | .deadLink _ => inferInstanceAs (Decidable (_ = _))
  | .synExhausted _ => inferInstanceAs (Decidable (_ ≤ _))
  | .idleExpired .. => inferInstanceAs (Decidable (_ ∧ _))

namespace Session

variable {K : Type} [Kcp K] {s s' : Session K} {out : List Submission} {socket : Socket}

/-- `update` returns `DeadLink` for an instance whose link is dead. -/
theorem update_deadLink {now : UInt32}
    (updated : s.update now socket = (s', out, .error .deadLink)) :
    Kcp.isDeadLink s'.inner.kcp = true := by
  unfold update at updated
  dsimp only at updated
  split at updated
  · cases updated
  · split at updated
    · rename_i dead
      cases updated
      exact dead
    · split at updated
      · cases updated
      · split at updated
        · rename_i dead
          cases updated
          exact dead
        · cases updated

/-- `maybe_retry_syn` returns `DeadLink` where the counter has reached its bound. -/
theorem retrySyn_deadLink {conv : UInt32} {config : KcpConfig} {nowEpoch now : UInt64}
    (retried : s.retrySyn conv config nowEpoch now socket = (s', out, .error .deadLink)) :
    config.synMaxRetries ≤ s'.synRetries := by
  unfold retrySyn at retried
  split at retried
  · rename_i exhausted
    cases retried
    exact exhausted
  · split at retried
    · cases retried
    · cases retried

end Session

namespace Tasks

variable {K : Type} [Kcp K]

/-- What the receive task does with a datagram up to the end of its first section
under a lock. -/
inductive Arrives (n : Tasks K) (data : Bytes) (src : SocketAddr) (clock : Clock)
    (socket : Socket) : Tasks K → Prop
  | ignored : Arrives n data src clock socket n
  | kcpFound (id : SessionId) (payload : Bytes)
      (found : n.peer.sessions.lookup (canonicalize src) = some id) :
      Arrives n data src clock socket { n with recv := .kcpFound id payload }
  | kcpUnknown (payload : Bytes) :
      Arrives n data src clock socket { n with recv := .kcpUnknown src payload }
  | syn (payload : Bytes) (conv : UInt32) (myAddr : SocketAddr)
      (isSyn : splitPacket data = some (.syn, payload)) (carried : readConv payload = some conv)
      (bound : socket.localAddr = .ok myAddr) :
      Arrives n data src clock socket { n with
        peer := (n.peer.synDecide src conv myAddr clock socket).1
        recv := .synDecided src conv (n.peer.synDecide src conv myAddr clock socket).2 }
  | synAck (conv : UInt32) :
      Arrives n data src clock socket { n with peer := n.peer.synAckAccept src conv clock socket }
  | resetFound (conv : UInt32) (id : SessionId)
      (found : n.peer.sessions.lookup (canonicalize src) = some id) :
      Arrives n data src clock socket { n with recv := .resetFound src conv id }

/-- What the receive task does next with a datagram. -/
inductive Handles (n : Tasks K) (clock : Clock) (socket : Socket) : Tasks K → Prop
  | answered (src : SocketAddr) (payload : Bytes) (conv : UInt32)
      (unknown : n.recv = .kcpUnknown src payload) :
      Handles n clock socket { n with peer := n.peer.sendReset conv src socket, recv := .idle }
  | unanswered (src : SocketAddr) (payload : Bytes) (unknown : n.recv = .kcpUnknown src payload) :
      Handles n clock socket { n with recv := .idle }
  | stamped (id : SessionId) (payload : Bytes) (s : Session K)
      (found : n.recv = .kcpFound id payload) (present : n.peer.sessions.object? id = some s) :
      Handles n clock socket { n with
        peer := n.peer.setSession id (s.touch clock.epochMs), recv := .kcpStamped id payload }
  | refused (id : SessionId) (payload : Bytes) (s : Session K)
      (stamped : n.recv = .kcpStamped id payload) (present : n.peer.sessions.object? id = some s) :
      Handles n clock socket { n with
        peer := n.peer.setSession id (s.input payload).1, recv := .idle }
  | fed (id : SessionId) (payload : Bytes) (s : Session K)
      (stamped : n.recv = .kcpStamped id payload) (present : n.peer.sessions.object? id = some s) :
      Handles n clock socket { n with
        peer := n.peer.setSession id (s.input payload).1, recv := .kcpFed id }
  | dry (id : SessionId) (s : Session K) (fed : n.recv = .kcpFed id)
      (present : n.peer.sessions.object? id = some s)
      (nothing : s.tryRecvAll.2.2.isOk = true → s.tryRecvAll.2.1 = []) :
      Handles n clock socket { n with
        peer := n.peer.setSession id s.tryRecvAll.1, recv := .idle }
  | drained (id : SessionId) (s : Session K) (fed : n.recv = .kcpFed id)
      (present : n.peer.sessions.object? id = some s) :
      Handles n clock socket { n with
        peer := n.peer.setSession id s.tryRecvAll.1, recv := .kcpDrained id s.tryRecvAll.2.1 }
  | appended (id : SessionId) (msgs : List Bytes) (s : Session K)
      (drained : n.recv = .kcpDrained id msgs) (present : n.peer.sessions.object? id = some s) :
      Handles n clock socket { n with
        peer := n.peer.appendData id s.peerAddr msgs, recv := .kcpAppended }
  | notified (pushed : n.recv = .kcpAppended) :
      Handles n clock socket { n with peer := n.peer.notify, recv := .idle }
  | creates (src : SocketAddr) (conv : UInt32) (result : SynResult)
      (decided : n.recv = .synDecided src conv result) (creating : result.action = .createNew) :
      Handles n clock socket { n with
        peer := n.peer.synAcknowledge result socket, recv := .synCreating src conv }
  | acknowledged (src : SocketAddr) (conv : UInt32) (result : SynResult)
      (decided : n.recv = .synDecided src conv result) (kept : result.action ≠ .createNew) :
      Handles n clock socket { n with peer := n.peer.synAcknowledge result socket, recv := .idle }
  | created (src : SocketAddr) (conv : UInt32) (creating : n.recv = .synCreating src conv) :
      Handles n clock socket { n with
        peer := n.peer.sendSynAck conv src socket, recv := .synCreated src conv }
  | inserted (src : SocketAddr) (conv : UInt32) (created : n.recv = .synCreated src conv)
      (free : n.writable = true) :
      Handles n clock socket { n with peer := n.peer.synInsert src conv clock, recv := .idle }
  | isMatched (src : SocketAddr) (conv : UInt32) (id : SessionId) (s : Session K)
      (found : n.recv = .resetFound src conv id) (present : n.peer.sessions.object? id = some s)
      (same : s.inner.convId = conv) :
      Handles n clock socket { n with recv := .resetMatched src conv id }
  | unmatched (src : SocketAddr) (conv : UInt32) (id : SessionId)
      (found : n.recv = .resetFound src conv id) :
      Handles n clock socket { n with recv := .idle }
  | removed (src : SocketAddr) (conv : UInt32) (id : SessionId)
      (isMatched : n.recv = .resetMatched src conv id) (free : n.writable = true) :
      Handles n clock socket { n with
        peer := n.peer.removeKey (canonicalize src)
        recv := .resetRemoved src id
        removals := n.removals ++ ((n.peer.sessions.find (canonicalize src)).map fun found =>
          Removal.reset found.1 found.2.inner.convId conv).toList }
  | closed (src : SocketAddr) (id : SessionId) (s : Session K)
      (removed : n.recv = .resetRemoved src id) (present : n.peer.sessions.object? id = some s) :
      Handles n clock socket { n with
        peer := n.peer.setSession id s.markClosed, recv := .resetClosed src id }
  | announced (src : SocketAddr) (id : SessionId) (closed : n.recv = .resetClosed src id) :
      Handles n clock socket { n with peer := n.peer.emit (.disconnected src) id, recv := .idle }

/-- What the update task does next in its tick. -/
inductive Scans (n : Tasks K) (now : UInt64) (socket : Socket) : Tasks K → Prop
  | walks (scan scan' : Scan) (phase phase' : ScanPhase) (scanning : n.upd = .scanning scan phase)
      (toRemove : scan'.toRemove = scan.toRemove) (horizon : scan'.horizon = scan.horizon)
      (unread : ∀ conv, phase' ≠ .resend conv) :
      Scans n now socket { n with upd := .scanning scan' phase' }
  | reads (scan : Scan) (can : CanonicalAddr) (rest : List CanonicalAddr) (id : SessionId)
      (s : Session K) (scanning : n.upd = .scanning scan .retry) (keys : scan.keys = can :: rest)
      (found : n.peer.sessions.find can = some (id, s)) :
      Scans n now socket { n with upd := .scanning scan (.resend s.inner.convId) }
  | judges (scan : Scan) (phase : ScanPhase) (can : CanonicalAddr) (verdict : Verdict)
      (s : Session K) (scanning : n.upd = .scanning scan phase)
      (found : n.peer.sessions.find can = some (verdict.id, s))
      (holds : verdict.finding.Holds n.peer.config) :
      Scans n now socket { n with upd := .scanning (scan.judge can verdict) .check }
  | updates (scan : Scan) (can : CanonicalAddr) (rest : List CanonicalAddr) (id : SessionId)
      (s : Session K) (pc : UpdPc) (scanning : n.upd = .scanning scan .update)
      (keys : scan.keys = can :: rest) (found : n.peer.sessions.find can = some (id, s))
      (next : (∃ finding, finding.Holds n.peer.config ∧
          pc = .scanning (scan.judge can ⟨id, finding⟩) .check) ∨ pc = .scanning scan .retry) :
      Scans n now socket { n with
        peer := (n.peer.setSession id (s.update scan.nowMs socket).1).submit (some id)
          (s.update scan.nowMs socket).2.1
        upd := pc }
  | resends (scan : Scan) (can : CanonicalAddr) (rest : List CanonicalAddr) (id : SessionId)
      (s : Session K) (conv : UInt32) (pc : UpdPc)
      (scanning : n.upd = .scanning scan (.resend conv))
      (keys : scan.keys = can :: rest) (found : n.peer.sessions.find can = some (id, s))
      (next : (∃ finding, finding.Holds n.peer.config ∧
          pc = .scanning (scan.judge can ⟨id, finding⟩) .check) ∨ pc = .scanning scan .age) :
      Scans n now socket { n with
        peer := (n.peer.setSession id
          (s.retrySyn conv n.peer.config scan.nowEpoch now socket).1).submit (some id)
          (s.retrySyn conv n.peer.config scan.nowEpoch now socket).2.1
        upd := pc }
  | ends (scan : Scan) (phase : ScanPhase) (scanning : n.upd = .scanning scan phase) :
      Scans n now socket { n with upd := .removing scan.toRemove scan.horizon }
  | stops (horizon : Nat) (removing : n.upd = .removing [] horizon) :
      Scans n now socket { n with upd := .idle }
  | prunes (can : CanonicalAddr) (judged : Verdict) (rest : List (CanonicalAddr × Verdict))
      (horizon : Nat) (removing : n.upd = .removing ((can, judged) :: rest) horizon) :
      Scans n now socket { n with
        peer := Peer.prune socket n.peer can
        upd := .removing rest horizon
        removals := n.removals ++
          ((n.peer.sessions.lookup can).map fun id => Removal.update id judged).toList }

/-- What a `send()` call does next. -/
inductive Advances (n : Tasks K) (index : Nat) (draw : DrawnConv) (clock : Clock)
    (socket : Socket) : SendPc → Tasks K → Prop
  | finds (pc : SendPc) (peer : SocketAddr) (id : SessionId) (data : Bytes)
      (seeks : pc = .called peer data ∨ pc = .missing peer data ∨ pc = .creating peer data)
      (found : n.peer.sessions.lookup (canonicalize peer) = some id) :
      Advances n index draw clock socket pc (n.setCall index (.holding id data))
  | misses (peer : SocketAddr) (data : Bytes)
      (absent : n.peer.sessions.lookup (canonicalize peer) = none) :
      Advances n index draw clock socket (.called peer data) (n.setCall index (.missing peer data))
  | creates (peer : SocketAddr) (data : Bytes)
      (absent : n.peer.sessions.lookup (canonicalize peer) = none) :
      Advances n index draw clock socket (.missing peer data)
        (n.setCall index (.creating peer data))
  | inserts (peer : SocketAddr) (data : Bytes) (free : n.writable = true)
      (absent : n.peer.sessions.lookup (canonicalize peer) = none) :
      Advances n index draw clock socket (.creating peer data)
        ({ n with
          peer := n.peer.insertSession (canonicalize peer)
            (Session.newOutbound draw.val peer n.peer.incarnation n.peer.config clock.epochMs)
        }.setCall index (.inserted n.peer.sessions.fresh data))
  | reads (id : SessionId) (data : Bytes) (s : Session K)
      (present : n.peer.sessions.object? id = some s) :
      Advances n index draw clock socket (.inserted id data)
        (n.setCall index (.greeting id s.inner.convId data))
  | greets (id : SessionId) (conv : UInt32) (data : Bytes) (s : Session K)
      (present : n.peer.sessions.object? id = some s) :
      Advances n index draw clock socket (.greeting id conv data)
        ({ n with
          peer := (n.peer.setSession id (s.sendSyn conv clock.epochMs socket)).submit (some id)
            [s.synSubmission conv socket]
        }.setCall index (.holding id data))
  | closed (id : SessionId) (data : Bytes) (s : Session K)
      (present : n.peer.sessions.object? id = some s) (isClosed : s.closed = true) :
      Advances n index draw clock socket (.holding id data) (n.setCall index .done)
  | opens (id : SessionId) (data : Bytes) (s : Session K)
      (present : n.peer.sessions.object? id = some s) (isOpen : s.closed = false) :
      Advances n index draw clock socket (.holding id data) (n.setCall index (.opened id data))
  | queues (id : SessionId) (data : Bytes) (s : Session K)
      (present : n.peer.sessions.object? id = some s) :
      Advances n index draw clock socket (.opened id data)
        ({ n with
          peer := (n.peer.setSession id (s.queueData data clock.currentMs socket).1).submit
            (some id) (s.queueData data clock.currentMs socket).2.1
          accepted := if (s.queueData data clock.currentMs socket).2.2.isOk then
            n.accepted ++ [(id, data)] else n.accepted
        }.setCall index .done)

/-- What each step of each task does. -/
inductive Moves (n : Tasks K) : TaskStep → Tasks K → Prop
  | arrives (data : Bytes) (src : SocketAddr) (clock : Clock) (socket : Socket)
      (idle : n.recv = .idle) (n' : Tasks K) (first : n.Arrives data src clock socket n') :
      Moves n (.arrive data src clock socket) n'
  | handles (clock : Clock) (socket : Socket) (n' : Tasks K) (next : n.Handles clock socket n') :
      Moves n (.recv clock socket) n'
  | skips (nowMs : UInt32) (nowEpoch : UInt64) (idle : n.upd = .idle) :
      Moves n (.tick nowMs nowEpoch) n
  | ticks (nowMs : UInt32) (nowEpoch : UInt64) (idle : n.upd = .idle) :
      Moves n (.tick nowMs nowEpoch) { n with upd := .started nowMs nowEpoch }
  | begins (order : List CanonicalAddr) (nowMs : UInt32) (nowEpoch : UInt64)
      (started : n.upd = .started nowMs nowEpoch) :
      Moves n (.scan order) { n with
        upd := .scanning ⟨nowMs, nowEpoch, order, [], n.peer.sessions.fresh⟩ .check }
  | scans (now : UInt64) (socket : Socket) (n' : Tasks K) (next : n.Scans now socket n') :
      Moves n (.upd now socket) n'
  | calls (peer : SocketAddr) (data : Bytes) :
      Moves n (.call peer data) { n with calls := n.calls ++ [.called peer data] }
  | advances (index : Nat) (draw : DrawnConv) (clock : Clock) (socket : Socket) (pc : SendPc)
      (reads : n.calls[index]? = some pc) (n' : Tasks K)
      (next : n.Advances index draw clock socket pc n') :
      Moves n (.advance index draw clock socket) n'
  | cancels (index : Nat) : Moves n (.cancel index) (n.setCall index .done)
  | disconnects (peer : SocketAddr) (socket : Socket) (free : n.writable = true) :
      Moves n (.disconnect peer socket) { n with peer := n.peer.disconnect peer socket }
  | takes (msg : DataMessage) (rest : List DataMessage)
      (pending : n.peer.pendingData = msg :: rest) :
      Moves n .take { n with peer := { n.peer with pendingData := rest } }

variable {n n' : Tasks K}

theorem arrive_arrives (n : Tasks K) (data : Bytes) (src : SocketAddr) (clock : Clock)
    (socket : Socket) : n.Arrives data src clock socket (n.arrive data src clock socket) := by
  unfold arrive
  split
  · exact .ignored
  · split
    · rename_i found
      exact .kcpFound _ _ found
    · exact .kcpUnknown _
  · rename_i isSyn
    split
    · exact .ignored
    · rename_i carried
      split
      · exact .ignored
      · rename_i bound
        exact .syn _ _ _ isSyn carried bound
  · split
    · exact .ignored
    · exact .synAck _
  · split
    · exact .ignored
    · split
      · rename_i found
        exact .resetFound _ _ found
      · exact .ignored

theorem recvStep_handles {clock : Clock} {socket : Socket}
    (taken : n.recvStep clock socket = some n') : n.Handles clock socket n' := by
  unfold recvStep at taken
  split at taken
  · cases taken
  · rename_i src payload unknown
    split at taken
    · rename_i conv _
      obtain rfl := Option.some.inj taken
      exact .answered src payload conv unknown
    · obtain rfl := Option.some.inj taken
      exact .unanswered src payload unknown
  · rename_i id payload found
    obtain ⟨s, present, rfl⟩ := Option.map_eq_some_iff.mp taken
    exact .stamped id payload s found present
  · rename_i id payload stamped
    obtain ⟨s, present, rfl⟩ := Option.map_eq_some_iff.mp taken
    have refused : n.Handles clock socket _ := .refused id payload s stamped present
    have fed : n.Handles clock socket _ := .fed id payload s stamped present
    split
    · rename_i result
      rw [result] at refused
      exact refused
    · rename_i result
      rw [result] at fed
      exact fed
  · rename_i id fed
    obtain ⟨s, present, rfl⟩ := Option.map_eq_some_iff.mp taken
    have dry : _ → n.Handles clock socket _ := .dry id s fed present
    have drained : n.Handles clock socket _ := .drained id s fed present
    split
    · rename_i result
      rw [result] at dry
      exact dry (by rintro ⟨⟩)
    · rename_i result
      rw [result] at dry
      exact dry fun _ => rfl
    · rename_i result
      rw [result] at drained
      exact drained
  · rename_i id msgs drained
    obtain ⟨s, present, rfl⟩ := Option.map_eq_some_iff.mp taken
    exact .appended id msgs s drained present
  · rename_i pushed
    obtain rfl := Option.some.inj taken
    exact .notified pushed
  · rename_i src conv result decided
    dsimp only at taken
    split at taken
    · rename_i creating
      obtain rfl := Option.some.inj taken
      exact .creates src conv result decided creating
    · rename_i kept
      obtain rfl := Option.some.inj taken
      exact .acknowledged src conv result decided (by simp [kept])
    · rename_i kept
      obtain rfl := Option.some.inj taken
      exact .acknowledged src conv result decided (by simp [kept])
  · rename_i src conv creating
    obtain rfl := Option.some.inj taken
    exact .created src conv creating
  · rename_i src conv created
    split at taken
    · rename_i free
      obtain rfl := Option.some.inj taken
      exact .inserted src conv created free
    · cases taken
  · rename_i src conv id found
    obtain ⟨s, present, rfl⟩ := Option.map_eq_some_iff.mp taken
    split
    · rename_i same
      exact .isMatched src conv id s found present same
    · exact .unmatched src conv id found
  · rename_i src conv id isMatched
    split at taken
    · rename_i free
      obtain rfl := Option.some.inj taken
      exact .removed src conv id isMatched free
    · cases taken
  · rename_i src id removed
    obtain ⟨s, present, rfl⟩ := Option.map_eq_some_iff.mp taken
    exact .closed src id s removed present
  · rename_i src id closed
    obtain rfl := Option.some.inj taken
    exact .announced src id closed

theorem scanStep_scans (scan : Scan) (phase : ScanPhase) {can : CanonicalAddr}
    {rest : List CanonicalAddr} {id : SessionId} {s : Session K} (now : UInt64) (socket : Socket)
    (scanning : n.upd = .scanning scan phase) (keys : scan.keys = can :: rest)
    (found : n.peer.sessions.find can = some (id, s)) :
    n.Scans now socket (n.scanStep scan can id s now socket phase) := by
  have walks : ∀ {scan' : Scan} {phase' : ScanPhase}, scan'.toRemove = scan.toRemove →
      scan'.horizon = scan.horizon → (∀ conv, phase' ≠ .resend conv) →
      n.Scans now socket { n with upd := .scanning scan' phase' } :=
    fun toRemove horizon unread => .walks scan _ phase _ scanning toRemove horizon unread
  cases phase with
  | check =>
      simp only [scanStep]
      split
      · exact walks rfl rfl nofun
      · exact walks rfl rfl nofun
  | update =>
      have dead : ∀ finding : Finding, finding.Holds n.peer.config → n.Scans now socket _ :=
        fun finding holds =>
          .updates scan can rest id s _ scanning keys found (Or.inl ⟨finding, holds, rfl⟩)
      have live : n.Scans now socket _ :=
        .updates scan can rest id s _ scanning keys found (Or.inr rfl)
      simp only [scanStep]
      split
      · rename_i result
        have isDead := Session.update_deadLink result
        rw [result] at dead
        exact dead _ isDead
      · rename_i result
        rw [result] at live
        exact live
  | retry =>
      simp only [scanStep]
      split
      · exact walks rfl rfl nofun
      · split
        · exact walks rfl rfl nofun
        · exact .reads scan can rest id s scanning keys found
  | resend conv =>
      have dead : ∀ finding : Finding, finding.Holds n.peer.config → n.Scans now socket _ :=
        fun finding holds =>
          .resends scan can rest id s conv _ scanning keys found (Or.inl ⟨finding, holds, rfl⟩)
      have live : n.Scans now socket _ :=
        .resends scan can rest id s conv _ scanning keys found (Or.inr rfl)
      simp only [scanStep]
      split
      · rename_i result
        have exhausted := Session.retrySyn_deadLink result
        rw [result] at dead
        exact dead _ exhausted
      · rename_i result
        rw [result] at live
        exact live
  | age =>
      simp only [scanStep]
      split
      · rename_i expired
        exact .judges scan .age can ⟨id, .idleExpired s.lastRx scan.nowEpoch⟩ s scanning found
          (of_decide_eq_true expired)
      · exact walks rfl rfl nofun

theorem updStep_scans {now : UInt64} {socket : Socket} (taken : n.updStep now socket = some n') :
    n.Scans now socket n' := by
  unfold updStep at taken
  split at taken
  · cases taken
  · cases taken
  · rename_i scan phase scanning
    split at taken
    · obtain rfl := Option.some.inj taken
      exact .ends scan phase scanning
    · rename_i can rest keys
      obtain ⟨⟨id, s⟩, found, rfl⟩ := Option.map_eq_some_iff.mp taken
      exact scanStep_scans scan phase now socket scanning keys found
  · rename_i horizon removing
    obtain rfl := Option.some.inj taken
    exact .stops horizon removing
  · rename_i can judged rest horizon removing
    obtain rfl := Option.some.inj taken
    exact .prunes can judged rest horizon removing

theorem callStep_advances {index : Nat} {draw : DrawnConv} {clock : Clock} {socket : Socket}
    {pc : SendPc} (taken : n.callStep index draw clock socket pc = some n') :
    n.Advances index draw clock socket pc n' := by
  cases pc with
  | called peer data =>
      simp only [callStep] at taken
      split at taken
      · rename_i id found
        obtain rfl := Option.some.inj taken
        exact .finds _ peer id data (Or.inl rfl) found
      · rename_i absent
        obtain rfl := Option.some.inj taken
        exact .misses peer data absent
  | missing peer data =>
      simp only [callStep] at taken
      split at taken
      · rename_i id found
        obtain rfl := Option.some.inj taken
        exact .finds _ peer id data (Or.inr (Or.inl rfl)) found
      · rename_i absent
        obtain rfl := Option.some.inj taken
        exact .creates peer data absent
  | creating peer data =>
      simp only [callStep] at taken
      split at taken
      · rename_i free
        split at taken
        · rename_i id found
          obtain rfl := Option.some.inj taken
          exact .finds _ peer id data (Or.inr (Or.inr rfl)) found
        · rename_i absent
          obtain rfl := Option.some.inj taken
          exact .inserts peer data free absent
      · cases taken
  | inserted id data =>
      obtain ⟨s, present, rfl⟩ := Option.map_eq_some_iff.mp taken
      exact .reads id data s present
  | greeting id conv data =>
      obtain ⟨s, present, rfl⟩ := Option.map_eq_some_iff.mp taken
      exact .greets id conv data s present
  | holding id data =>
      obtain ⟨s, present, rfl⟩ := Option.map_eq_some_iff.mp taken
      cases state : s.closed with
      | true => exact .closed id data s present state
      | false => exact .opens id data s present state
  | opened id data =>
      obtain ⟨s, present, rfl⟩ := Option.map_eq_some_iff.mp taken
      exact .queues id data s present
  | done => cases taken

theorem step_moves {label : TaskStep} (taken : n.step label = some n') : n.Moves label n' := by
  cases label with
  | arrive data src clock socket =>
      simp only [step] at taken
      split at taken
      · rename_i idle
        obtain rfl := Option.some.inj taken
        exact .arrives data src clock socket idle _ (arrive_arrives n data src clock socket)
      · cases taken
  | recv clock socket => exact .handles clock socket n' (recvStep_handles taken)
  | tick nowMs nowEpoch =>
      simp only [step] at taken
      split at taken
      · rename_i idle
        split at taken
        · obtain rfl := Option.some.inj taken
          exact .skips nowMs nowEpoch idle
        · obtain rfl := Option.some.inj taken
          exact .ticks nowMs nowEpoch idle
      · cases taken
  | scan order =>
      simp only [step] at taken
      split at taken
      · rename_i nowMs nowEpoch started
        split at taken
        · obtain rfl := Option.some.inj taken
          exact .begins order nowMs nowEpoch started
        · cases taken
      · cases taken
  | upd now socket => exact .scans now socket n' (updStep_scans taken)
  | call peer data =>
      obtain rfl := Option.some.inj taken
      exact .calls peer data
  | advance index draw clock socket =>
      obtain ⟨pc, reads, taken⟩ := Option.bind_eq_some_iff.mp taken
      exact .advances index draw clock socket pc reads n' (callStep_advances taken)
  | cancel index =>
      simp only [step] at taken
      split at taken
      · obtain rfl := Option.some.inj taken
        exact .cancels index
      · obtain rfl := Option.some.inj taken
        exact .cancels index
      · cases taken
  | disconnect peer socket =>
      simp only [step] at taken
      split at taken
      · rename_i free
        obtain rfl := Option.some.inj taken
        exact .disconnects peer socket free
      · cases taken
  | take =>
      simp only [step] at taken
      split at taken
      · cases taken
      · rename_i msg rest pending
        obtain rfl := Option.some.inj taken
        exact .takes msg rest pending

end Tasks

end KcpPeer
