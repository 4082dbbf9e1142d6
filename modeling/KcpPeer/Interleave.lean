import KcpPeer.Moves
import KcpPeer.RegistryStep

set_option autoImplicit false

namespace KcpPeer

/-- What is visible of the tasks of a peer. -/
structure Board where
  registry : Registry
  recv : RecvPc
  upd : UpdPc
  accepted : List (SessionId × Bytes)
  removals : List Removal

inductive Actor where
  | recv
  | upd
  | api
  deriving DecidableEq, Repr

def TaskStep.actor : TaskStep → Actor
  | .arrive .. => .recv
  | .recv .. => .recv
  | .tick .. => .upd
  | .scan _ => .upd
  | .upd .. => .upd
  | .call .. => .api
  | .advance .. => .api
  | .cancel _ => .api
  | .disconnect .. => .api
  | .take => .api

/-- Where the receive task may stand after its first section, when that section
changes nothing visible. -/
inductive RecvPc.Starts (r : Registry) : RecvPc → Prop
  | idle : Starts r .idle
  | kcpUnknown (src : SocketAddr) (payload : Bytes) : Starts r (.kcpUnknown src payload)
  | kcpFound (src : SocketAddr) (payload : Bytes) (id : SessionId)
      (found : r.sessions.lookup (canonicalize src) = some id) : Starts r (.kcpFound id payload)
  | synAbsent (src : SocketAddr) (conv : UInt32)
      (absent : r.sessions.lookup (canonicalize src) = none) :
      Starts r (.synDecided src conv ⟨.createNew, none, 0⟩)
  | synIgnored (src : SocketAddr) (conv : UInt32) (result : SynResult)
      (ignored : result.action = .ignore) : Starts r (.synDecided src conv result)
  | resetFound (src : SocketAddr) (conv : UInt32) (id : SessionId)
      (found : r.sessions.lookup (canonicalize src) = some id) :
      Starts r (.resetFound src conv id)

/-- The steps of the receive task that change nothing visible. -/
inductive RecvPc.Proceeds (r : Registry) : RecvPc → RecvPc → Prop
  | answered (src : SocketAddr) (payload : Bytes) : Proceeds r (.kcpUnknown src payload) .idle
  | stamped (id : SessionId) (payload : Bytes) :
      Proceeds r (.kcpFound id payload) (.kcpStamped id payload)
  | refused (id : SessionId) (payload : Bytes) : Proceeds r (.kcpStamped id payload) .idle
  | fed (id : SessionId) (payload : Bytes) : Proceeds r (.kcpStamped id payload) (.kcpFed id)
  | dry (id : SessionId) : Proceeds r (.kcpFed id) .idle
  | drained (id : SessionId) (msgs : List Bytes) : Proceeds r (.kcpFed id) (.kcpDrained id msgs)
  | notified : Proceeds r .kcpAppended .idle
  | creates (src : SocketAddr) (conv : UInt32) (result : SynResult)
      (creating : result.action = .createNew) :
      Proceeds r (.synDecided src conv result) (.synCreating src conv)
  | acknowledged (src : SocketAddr) (conv : UInt32) (result : SynResult)
      (kept : result.action ≠ .createNew) : Proceeds r (.synDecided src conv result) .idle
  | created (src : SocketAddr) (conv : UInt32) :
      Proceeds r (.synCreating src conv) (.synCreated src conv)
  | matched (src : SocketAddr) (conv : UInt32) (id : SessionId) (v : View)
      (present : r.sessions.object? id = some v) (same : v.convId = conv) :
      Proceeds r (.resetFound src conv id) (.resetMatched src conv id)
  | unmatched (src : SocketAddr) (conv : UInt32) (id : SessionId) :
      Proceeds r (.resetFound src conv id) .idle

/-- The steps of the update task that change nothing visible. -/
inductive UpdPc.Proceeds (r : Registry) : UpdPc → UpdPc → Prop
  | starts (nowMs : UInt32) (nowEpoch : UInt64) : Proceeds r .idle (.started nowMs nowEpoch)
  | begins (nowMs : UInt32) (nowEpoch : UInt64) (order : List CanonicalAddr) :
      Proceeds r (.started nowMs nowEpoch)
        (.scanning ⟨nowMs, nowEpoch, order, [], r.sessions.fresh⟩ .check)
  | moves (scan scan' : Scan) (phase phase' : ScanPhase) (toRemove : scan'.toRemove = scan.toRemove)
      (horizon : scan'.horizon = scan.horizon) :
      Proceeds r (.scanning scan phase) (.scanning scan' phase')
  | judges (scan : Scan) (phase phase' : ScanPhase) (can : CanonicalAddr) (verdict : Verdict)
      (found : r.sessions.lookup can = some verdict.id) :
      Proceeds r (.scanning scan phase) (.scanning (scan.judge can verdict) phase')
  | ends (scan : Scan) (phase : ScanPhase) :
      Proceeds r (.scanning scan phase) (.removing scan.toRemove scan.horizon)
  | stops (horizon : Nat) : Proceeds r (.removing [] horizon) .idle

def UpdPc.isScanning : UpdPc → Bool
  | .scanning .. => true
  | _ => false

namespace Board

/-- What one step of each task can do. -/
inductive Step (b : Board) : Actor → Board → Prop
  | rests (actor : Actor) : Step b actor b
  | hears (pc : RecvPc) (idle : b.recv = .idle) (starts : pc.Starts b.registry) :
      Step b .recv { b with recv := pc }
  | establishes (id : SessionId) (v : View) (conv : UInt32) (src : SocketAddr)
      (pc : RecvPc) (idle : b.recv = .idle)
      (found : b.registry.sessions.find (canonicalize src) = some (id, v))
      (waiting : v.state = .synSent)
      (next : pc = .idle ∨
        ∃ theirs result, pc = .synDecided src theirs result ∧ result.action = .keepExisting) :
      Step b .recv { b with registry := b.registry.establish id v conv src, recv := pc }
  | supersedes (id : SessionId) (v : View) (conv : UInt32) (src : SocketAddr)
      (idle : b.recv = .idle)
      (found : b.registry.sessions.find (canonicalize src) = some (id, v))
      (ready : v.state = .established) :
      Step b .recv { b with
        registry := b.registry.supersede id v src
        recv := .synDecided src conv ⟨.createNew, none, 0⟩ }
  | proceeds (pc : RecvPc) (next : b.recv.Proceeds b.registry pc) :
      Step b .recv { b with recv := pc }
  | delivers (id : SessionId) (msgs : List Bytes) (batch : List DataMessage)
      (drained : b.recv = .kcpDrained id msgs) :
      Step b .recv { b with registry := b.registry.deliver id batch, recv := .kcpAppended }
  | accepts (src : SocketAddr) (conv : UInt32) (created : b.recv = .synCreated src conv)
      (unlocked : b.upd.isScanning = false) :
      Step b .recv { b with registry := b.registry.accept src conv, recv := .idle }
  | misses (src : SocketAddr) (conv : UInt32) (id : SessionId)
      (isMatched : b.recv = .resetMatched src conv id) (unlocked : b.upd.isScanning = false)
      (absent : b.registry.sessions.lookup (canonicalize src) = none) :
      Step b .recv { b with recv := .resetRemoved src id }
  | unmaps (src : SocketAddr) (conv : UInt32) (id removed : SessionId) (v : View)
      (isMatched : b.recv = .resetMatched src conv id) (unlocked : b.upd.isScanning = false)
      (found : b.registry.sessions.find (canonicalize src) = some (removed, v)) :
      Step b .recv { b with
        registry := { b.registry with sessions := b.registry.sessions.remove (canonicalize src) }
        recv := .resetRemoved src id
        removals := b.removals ++ [.reset removed v.convId conv] }
  | closes (src : SocketAddr) (id : SessionId) (v : View)
      (removed : b.recv = .resetRemoved src id)
      (present : b.registry.sessions.object? id = some v) :
      Step b .recv { b with
        registry := b.registry.set id { v with closed := true }
        recv := .resetClosed src id }
  | announces (src : SocketAddr) (id : SessionId)
      (closed : b.recv = .resetClosed src id) :
      Step b .recv { b with registry := b.registry.emit (.disconnected src) id, recv := .idle }
  | updates (pc : UpdPc) (next : b.upd.Proceeds b.registry pc) :
      Step b .upd { b with upd := pc }
  | passes (can : CanonicalAddr) (judged : Verdict)
      (rest : List (CanonicalAddr × Verdict)) (horizon : Nat)
      (removing : b.upd = .removing ((can, judged) :: rest) horizon)
      (absent : b.registry.sessions.lookup can = none) :
      Step b .upd { b with upd := .removing rest horizon }
  | prunes (can : CanonicalAddr) (judged : Verdict) (removed : SessionId)
      (rest : List (CanonicalAddr × Verdict)) (horizon : Nat) (v : View)
      (removing : b.upd = .removing ((can, judged) :: rest) horizon)
      (found : b.registry.sessions.find can = some (removed, v)) :
      Step b .upd { b with
        registry := b.registry.close can removed v v.peerAddr
        upd := .removing rest horizon
        removals := b.removals ++ [.update removed judged] }
  | opens (peer : SocketAddr) (conv : UInt32)
      (absent : b.registry.sessions.lookup (canonicalize peer) = none)
      (unlocked : b.upd.isScanning = false) :
      Step b .api { b with registry := b.registry.openTo peer conv }
  | disconnects (peer : SocketAddr) (id : SessionId) (v : View)
      (unlocked : b.upd.isScanning = false)
      (found : b.registry.sessions.find (canonicalize peer) = some (id, v)) :
      Step b .api { b with registry := b.registry.close (canonicalize peer) id v peer }
  | queues (id : SessionId) (data : Bytes) (v : View)
      (present : b.registry.sessions.object? id = some v) :
      Step b .api { b with accepted := b.accepted ++ [(id, data)] }

theorem Step.of_eq {actor : Actor} {b b' b'' : Board} (step : b.Step actor b') (same : b'' = b') :
    b.Step actor b'' :=
  same ▸ step

end Board

namespace Tasks

variable {K : Type}

def board (n : Tasks K) : Board := ⟨n.peer.registry, n.recv, n.upd, n.accepted, n.removals⟩

theorem board_eq {n : Tasks K} {b : Board} (registry : n.peer.registry = b.registry)
    (recv : n.recv = b.recv) (upd : n.upd = b.upd) (accepted : n.accepted = b.accepted)
    (removals : n.removals = b.removals) : n.board = b := by
  simp only [board, registry, recv, upd, accepted, removals]

theorem object?_board {n : Tasks K} {id : SessionId} {s : Session K}
    (present : n.peer.sessions.object? id = some s) :
    n.board.registry.sessions.object? id = some s.view := by
  rw [board, Peer.registry_object?, present, Option.map_some]

theorem find_board {n : Tasks K} {can : CanonicalAddr} {id : SessionId} {s : Session K}
    (found : n.peer.sessions.find can = some (id, s)) :
    n.board.registry.sessions.find can = some (id, s.view) := by
  rw [board, Peer.registry_find, found, Option.map_some]

theorem unlocked_of_writable {n : Tasks K} (free : n.writable = true) :
    n.board.upd.isScanning = false := by
  unfold writable at free
  simp only [board]
  cases upd : n.upd with
  | scanning scan phase =>
      rw [upd] at free
      cases free
  | idle => rfl
  | started nowMs nowEpoch => rfl
  | removing toRemove horizon => rfl

/-- A step on a session that changes nothing visible of it. -/
theorem setSession_board {n : Tasks K} {id : SessionId} {s s' : Session K} {pc : RecvPc}
    (present : n.peer.sessions.object? id = some s) (same : s'.view = s.view) :
    { n with peer := n.peer.setSession id s', recv := pc }.board = { n.board with recv := pc } :=
  board_eq (Peer.registry_setSession_same _ present same) rfl rfl rfl rfl

variable [Kcp K] {n n' : Tasks K}

theorem synDecide_board (n : Tasks K) (idle : n.recv = .idle) (src : SocketAddr) (conv : UInt32)
    (myAddr : SocketAddr) (clock : Clock) (socket : Socket) :
    n.board.Step .recv { n with
      peer := (n.peer.synDecide src conv myAddr clock socket).1
      recv := .synDecided src conv (n.peer.synDecide src conv myAddr clock socket).2 }.board := by
  unfold Peer.synDecide
  cases found : n.peer.sessions.find (canonicalize src) with
  | none =>
      have absent : n.peer.sessions.lookup (canonicalize src) = none := Store.find_eq_none.mp found
      exact .hears _ idle (.synAbsent src conv absent)
  | some entry =>
      obtain ⟨id, s⟩ := entry
      have present := (Store.find_eq_some.mp found).2
      have visible := find_board found
      dsimp only
      by_cases same : s.inner.convId = conv
      · rw [if_pos same]
        cases state : s.inner.state with
        | synSent => exact .hears _ idle (.synIgnored src conv _ rfl)
        | established =>
            refine (Board.Step.hears _ idle
              (.synIgnored src conv ⟨.ignore, some src, conv⟩ rfl)).of_eq ?_
            exact board_eq (Peer.registry_setSession_same _ present rfl) rfl rfl rfl rfl
      · rw [if_neg same]
        cases state : s.inner.state with
        | established =>
            refine (Board.Step.supersedes id s.view conv src idle visible state).of_eq ?_
            refine board_eq ?_ rfl rfl rfl rfl
            simp only [board, Peer.registry_emit, Peer.registry_setSession,
              Session.view_markClosed, Registry.supersede]
        | synSent =>
            dsimp only
            by_cases yields : myAddr < src
            · simp only [yields, ↓reduceIte]
              refine (Board.Step.establishes id s.view conv src _ idle visible state
                (Or.inr ⟨conv, ⟨.keepExisting, some src, conv⟩, rfl, rfl⟩)).of_eq ?_
              refine board_eq ?_ rfl rfl rfl rfl
              simp only [board, Peer.registry_emit, Peer.registry_submit, Peer.registry_setSession,
                Session.view_pump, Session.view_adopt, Registry.establish]
            · simp only [yields, ↓reduceIte]
              refine (Board.Step.establishes id s.view s.inner.convId src _ idle visible
                state (Or.inr ⟨conv, ⟨.keepExisting, some src, s.inner.convId⟩, rfl, rfl⟩)).of_eq ?_
              refine board_eq ?_ rfl rfl rfl rfl
              simp only [board, Peer.registry_emit, Peer.registry_submit, Peer.registry_setSession,
                Session.view_pump, Session.view_establish, Registry.establish]
              rfl

theorem synAckAccept_board (n : Tasks K) (idle : n.recv = .idle) (src : SocketAddr)
    (conv : UInt32) (clock : Clock) (socket : Socket) :
    n.board.Step .recv { n with peer := n.peer.synAckAccept src conv clock socket }.board := by
  unfold Peer.synAckAccept
  cases found : n.peer.sessions.find (canonicalize src) with
  | none => exact .rests .recv
  | some entry =>
      obtain ⟨id, s⟩ := entry
      dsimp only
      cases state : s.inner.state with
      | established => exact .rests .recv
      | synSent =>
          dsimp only
          split
          · refine (Board.Step.establishes id s.view s.inner.convId src .idle idle
              (find_board found) state (Or.inl rfl)).of_eq ?_
            refine board_eq ?_ idle rfl rfl rfl
            simp only [board, Peer.registry_emit, Peer.registry_submit, Peer.registry_setSession,
              Session.view_pump, Session.view_establish, Registry.establish]
            rfl
          · exact .rests .recv

theorem Arrives.board {data : Bytes} {src : SocketAddr} {clock : Clock} {socket : Socket}
    (idle : n.recv = .idle) (first : n.Arrives data src clock socket n') :
    n.board.Step .recv n'.board := by
  cases first with
  | ignored => exact .rests .recv
  | kcpFound id payload found => exact .hears _ idle (.kcpFound src payload id found)
  | kcpUnknown payload => exact .hears _ idle (.kcpUnknown src payload)
  | syn payload conv myAddr => exact synDecide_board n idle src conv myAddr clock socket
  | synAck conv => exact synAckAccept_board n idle src conv clock socket
  | resetFound conv id found => exact .hears _ idle (.resetFound src conv id found)

theorem Handles.board {clock : Clock} {socket : Socket} (next : n.Handles clock socket n') :
    n.board.Step .recv n'.board := by
  have proceeds : ∀ {pc pc' : RecvPc}, n.recv = pc → pc.Proceeds n.peer.registry pc' →
      n.board.Step .recv { n.board with recv := pc' } := by
    rintro pc pc' rfl next
    exact .proceeds pc' next
  have silent : ∀ result : SynResult,
      (n.peer.synAcknowledge result socket).registry = n.peer.registry := by
    intro result
    unfold Peer.synAcknowledge
    split
    · rfl
    · rfl
  cases next with
  | answered src payload conv unknown => exact proceeds unknown (.answered src payload)
  | unanswered src payload unknown => exact proceeds unknown (.answered src payload)
  | stamped id payload s found present =>
      exact (proceeds found (.stamped id payload)).of_eq (setSession_board present rfl)
  | refused id payload s stamped present =>
      exact (proceeds stamped (.refused id payload)).of_eq
        (setSession_board present (Session.view_input s payload))
  | fed id payload s stamped present =>
      exact (proceeds stamped (.fed id payload)).of_eq
        (setSession_board present (Session.view_input s payload))
  | dry id s fed present =>
      exact (proceeds fed (.dry id)).of_eq (setSession_board present s.view_tryRecvAll)
  | drained id s fed present =>
      exact (proceeds fed (.drained id _)).of_eq (setSession_board present s.view_tryRecvAll)
  | appended id msgs s drained present =>
      exact .delivers id msgs (msgs.map fun data => ⟨s.peerAddr, data⟩) drained
  | notified pushed => exact proceeds pushed .notified
  | creates src conv result decided creating =>
      exact (proceeds decided (.creates src conv result creating)).of_eq
        (board_eq (silent result) rfl rfl rfl rfl)
  | acknowledged src conv result decided kept =>
      exact (proceeds decided (.acknowledged src conv result kept)).of_eq
        (board_eq (silent result) rfl rfl rfl rfl)
  | created src conv creating => exact proceeds creating (.created src conv)
  | inserted src conv created free =>
      refine (Board.Step.accepts src conv created (unlocked_of_writable free)).of_eq ?_
      refine board_eq ?_ rfl rfl rfl rfl
      simp only [Peer.synInsert, Peer.registry_emit, Peer.registry_insertSession,
        Session.view_newInbound, Registry.accept, board]
      simp only [Peer.registry, Store.fresh_map]
  | isMatched src conv id s found present same =>
      exact proceeds found (.matched src conv id s.view (object?_board present) same)
  | unmatched src conv id found => exact proceeds found (.unmatched src conv id)
  | removed src conv id isMatched free =>
      cases found : n.peer.sessions.find (canonicalize src) with
      | none =>
          have absent : n.peer.sessions.lookup (canonicalize src) = none :=
            Store.find_eq_none.mp found
          refine (Board.Step.misses src conv id isMatched (unlocked_of_writable free)
            absent).of_eq ?_
          refine board_eq ?_ rfl rfl rfl (List.append_nil _)
          rw [Peer.removeKey, Store.remove_absent _ absent]
          rfl
      | some entry =>
          exact .unmaps src conv id entry.1 entry.2.view isMatched (unlocked_of_writable free)
            (find_board found)
  | closed src id s removed present =>
      refine (Board.Step.closes src id s.view removed (object?_board present)).of_eq ?_
      exact board_eq (Peer.registry_setSession ..) rfl rfl rfl rfl
  | announced src id closed => exact .announces src id closed

theorem Scans.board {now : UInt64} {socket : Socket} (next : n.Scans now socket n') :
    n.board.Step .upd n'.board := by
  have proceeds : ∀ {pc pc' : UpdPc}, n.upd = pc → UpdPc.Proceeds n.peer.registry pc pc' →
      n.board.Step .upd { n.board with upd := pc' } := by
    rintro pc pc' rfl next
    exact .updates pc' next
  -- a session is written back and its key is judged, or its next phase begins
  have writes : ∀ {scan : Scan} {phase phase' : ScanPhase} {can : CanonicalAddr} {id : SessionId}
      {s s' : Session K} {pc : UpdPc} {out : List Submission}, n.upd = .scanning scan phase →
      n.peer.sessions.find can = some (id, s) → s'.view = s.view →
      (∃ finding, finding.Holds n.peer.config ∧
        pc = .scanning (scan.judge can ⟨id, finding⟩) .check) ∨ pc = .scanning scan phase' →
      n.board.Step .upd
        { n with peer := (n.peer.setSession id s').submit (some id) out, upd := pc }.board := by
    intro scan phase phase' can id s s' pc out scanning found view next
    obtain ⟨named, present⟩ := Store.find_eq_some.mp found
    have same := Peer.registry_setSession_same n.peer present view
    rcases next with ⟨finding, _, rfl⟩ | rfl
    · exact (proceeds scanning (.judges scan phase .check can ⟨id, finding⟩ named)).of_eq
        (board_eq same rfl rfl rfl rfl)
    · exact (proceeds scanning (.moves scan scan phase phase' rfl rfl)).of_eq
        (board_eq same rfl rfl rfl rfl)
  cases next with
  | walks scan scan' phase phase' scanning toRemove horizon =>
      exact proceeds scanning (.moves scan scan' phase phase' toRemove horizon)
  | reads scan can rest id s scanning =>
      exact proceeds scanning (.moves scan scan _ _ rfl rfl)
  | judges scan phase can verdict s scanning found =>
      exact proceeds scanning
        (.judges scan phase .check can verdict (Store.find_eq_some.mp found).1)
  | updates scan can rest id s pc scanning keys found next =>
      exact writes scanning found (Session.view_update s scan.nowMs socket) next
  | resends scan can rest id s conv pc scanning keys found next =>
      exact writes scanning found (Session.view_retrySyn ..) next
  | ends scan phase scanning => exact proceeds scanning (.ends scan phase)
  | stops horizon removing => exact proceeds removing (.stops horizon)
  | prunes can judged rest horizon removing =>
      cases found : n.peer.sessions.find can with
      | none =>
          have absent : n.peer.sessions.lookup can = none := Store.find_eq_none.mp found
          refine (Board.Step.passes can judged rest horizon removing absent).of_eq ?_
          refine board_eq ?_ rfl rfl rfl ?_
          · rw [Peer.prune, found]
            rfl
          · rw [absent]
            exact List.append_nil _
      | some entry =>
          obtain ⟨id, s⟩ := entry
          have visible := find_board found
          refine (Board.Step.prunes can judged id rest horizon s.view removing visible).of_eq ?_
          refine board_eq ?_ rfl rfl rfl ?_
          · rw [Peer.registry_prune, Registry.prune,
              show n.peer.registry.sessions.find can = some (id, s.view) from visible]
            rfl
          · rw [(Store.find_eq_some.mp found).1]
            rfl

theorem Advances.board {index : Nat} {draw : DrawnConv} {clock : Clock} {socket : Socket}
    {pc : SendPc} (next : n.Advances index draw clock socket pc n') :
    n.board.Step .api n'.board := by
  cases next with
  | inserts peer data free absent =>
      refine (Board.Step.opens peer draw.val absent (unlocked_of_writable free)).of_eq ?_
      exact board_eq (Peer.registry_insertSession ..) rfl rfl rfl rfl
  | greets id conv data s present =>
      refine (Board.Step.rests .api).of_eq ?_
      exact board_eq (Peer.registry_setSession_same _ present (Session.view_sendSyn ..)) rfl rfl rfl
        rfl
  | queues id data s present =>
      have written := Peer.registry_setSession_same n.peer present
        (Session.view_queueData s data clock.currentMs socket)
      by_cases ok : (s.queueData data clock.currentMs socket).2.2.isOk
      · refine (Board.Step.queues id data s.view (object?_board present)).of_eq ?_
        exact board_eq written rfl rfl (if_pos ok) rfl
      · refine (Board.Step.rests .api).of_eq ?_
        exact board_eq written rfl rfl (if_neg ok) rfl
  | _ => exact .rests .api

/-- Every step of every task is one of the steps of the board. -/
theorem step_board {label : TaskStep} (taken : n.step label = some n') :
    n.board.Step label.actor n'.board := by
  have proceeds : ∀ {pc pc' : UpdPc}, n.upd = pc → UpdPc.Proceeds n.peer.registry pc pc' →
      n.board.Step .upd { n.board with upd := pc' } := by
    rintro pc pc' rfl next
    exact .updates pc' next
  cases step_moves taken with
  | arrives data src clock socket idle _ first => exact first.board idle
  | handles clock socket _ next => exact next.board
  | skips nowMs nowEpoch idle => exact .rests .upd
  | ticks nowMs nowEpoch idle => exact proceeds idle (.starts nowMs nowEpoch)
  | begins order nowMs nowEpoch started =>
      have begun := UpdPc.Proceeds.begins (r := n.peer.registry) nowMs nowEpoch order
      rw [show n.peer.registry.sessions.fresh = n.peer.sessions.fresh from
        Store.fresh_map ..] at begun
      exact proceeds started begun
  | scans now socket _ next => exact next.board
  | calls peer data => exact .rests .api
  | advances index draw clock socket pc reads _ next => exact next.board
  | cancels index => exact .rests .api
  | disconnects peer socket free =>
      cases found : n.peer.sessions.find (canonicalize peer) with
      | none =>
          refine (Board.Step.rests .api).of_eq ?_
          rw [Peer.disconnect, found]
      | some entry =>
          obtain ⟨id, s⟩ := entry
          have visible := find_board found
          refine (Board.Step.disconnects peer id s.view (unlocked_of_writable free)
            visible).of_eq ?_
          refine board_eq ?_ rfl rfl rfl rfl
          rw [Peer.registry_disconnect, Registry.disconnect, show n.peer.registry.sessions.find
            (canonicalize peer) = some (id, s.view) from visible]
          rfl
  | takes msg rest pending => exact .rests .api

end Tasks

end KcpPeer
