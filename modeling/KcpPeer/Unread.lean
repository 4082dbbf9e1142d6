import KcpPeer.Pruning
import KcpPeer.Spelling

set_option autoImplicit false

namespace KcpPeer

namespace Session

variable {K : Type}

/-- The same session with its incarnation number rewritten by `f`. -/
def restamp (f : UInt64 → UInt64) (s : Session K) : Session K :=
  { s with inner := { s.inner with incarnation := f s.inner.incarnation } }

theorem sendSyn_restamp (f : UInt64 → UInt64) (s : Session K) (conv : UInt32) (now : UInt64)
    (socket : Socket) : (s.restamp f).sendSyn conv now socket =
      (s.sendSyn conv now socket).restamp f := by
  have submission : (s.restamp f).synSubmission conv socket = s.synSubmission conv socket := rfl
  unfold sendSyn
  rw [submission]
  split
  · rfl
  · rfl

variable [Kcp K]

theorem queueData_restamp (f : UInt64 → UInt64) (s : Session K) (data : Bytes) (now : UInt32)
    (socket : Socket) : (s.restamp f).queueData data now socket =
      ((s.queueData data now socket).1.restamp f, (s.queueData data now socket).2) := by
  have kcp : (s.restamp f).inner.kcp = s.inner.kcp := rfl
  have state : (s.restamp f).inner.state = s.inner.state := rfl
  have peerAddr : (s.restamp f).peerAddr = s.peerAddr := rfl
  simp only [queueData, kcp, state, peerAddr]
  repeat' split
  all_goals rfl

theorem sendData_restamp (f : UInt64 → UInt64) (s : Session K) (data : Bytes) (now : UInt32)
    (socket : Socket) : (s.restamp f).sendData data now socket =
      ((s.sendData data now socket).1.restamp f, (s.sendData data now socket).2) := by
  have closed : (s.restamp f).closed = s.closed := rfl
  simp only [sendData, closed, queueData_restamp]
  split
  · rfl
  · rfl

theorem update_restamp (f : UInt64 → UInt64) (s : Session K) (now : UInt32) (socket : Socket) :
    (s.restamp f).update now socket =
      ((s.update now socket).1.restamp f, (s.update now socket).2) := by
  have kcp : (s.restamp f).inner.kcp = s.inner.kcp := rfl
  have state : (s.restamp f).inner.state = s.inner.state := rfl
  have peerAddr : (s.restamp f).peerAddr = s.peerAddr := rfl
  simp only [update, kcp, state, peerAddr]
  repeat' split
  all_goals rfl

theorem maybeRetrySyn_restamp (f : UInt64 → UInt64) (s : Session K) (config : KcpConfig)
    (nowEpoch now : UInt64) (socket : Socket) :
    (s.restamp f).maybeRetrySyn config nowEpoch now socket =
      ((s.maybeRetrySyn config nowEpoch now socket).1.restamp f,
        (s.maybeRetrySyn config nowEpoch now socket).2) := by
  have closed : (s.restamp f).closed = s.closed := rfl
  have state : (s.restamp f).inner.state = s.inner.state := rfl
  have retries : (s.restamp f).synRetries = s.synRetries := rfl
  have sentAt : (s.restamp f).synSentAt = s.synSentAt := rfl
  simp only [maybeRetrySyn, retrySyn, closed, state, retries, sentAt]
  repeat' split
  all_goals rfl

theorem scan_restamp (f : UInt64 → UInt64) (s : Session K) (config : KcpConfig) (tick : Tick)
    (now : UInt64) (socket : Socket) :
    (s.restamp f).scan config tick now socket =
      ((s.scan config tick now socket).1.restamp f, (s.scan config tick now socket).2) := by
  have closed : (s.restamp f).closed = s.closed := rfl
  simp only [scan, closed, update_restamp]
  split
  · rfl
  · rcases s.update tick.nowMs socket with ⟨s₁, out, r⟩
    have again := maybeRetrySyn_restamp f s₁ config tick.nowEpoch now socket
    rcases r with (e | n)
    · cases e with
      | deadLink => rfl
      | _ =>
          simp only [again]
          rcases s₁.maybeRetrySyn config tick.nowEpoch now socket with ⟨s₂, out', e' | b⟩
          · cases e' <;> rfl
          · rfl
    · simp only [again]
      rcases s₁.maybeRetrySyn config tick.nowEpoch now socket with ⟨s₂, out', e' | b⟩
      · cases e' <;> rfl
      · rfl

end Session

namespace Peer

variable {K : Type}

/-- The same peer with its incarnation numbers rewritten by `f`, and with an earlier
log and outbox in front of its own. -/
def recast (f : UInt64 → UInt64) (log : List LogEntry) (outbox : List Outgoing) (p : Peer K) :
    Peer K :=
  { p with
    incarnation := f p.incarnation
    sessions := p.sessions.map (Session.restamp f)
    log := log ++ p.log
    outbox := outbox ++ p.outbox }

theorem recast_id (log : List LogEntry) (outbox : List Outgoing) (p : Peer K) :
    p.recast id log outbox = { p with log := log ++ p.log, outbox := outbox ++ p.outbox } := by
  have objects : p.sessions.objects.map (Session.restamp id) = p.sessions.objects := List.map_id _
  have same : p.sessions.map (Session.restamp id) = p.sessions := Store.ext objects rfl
  simp only [recast, same, id]

variable (f : UInt64 → UInt64) (log : List LogEntry) (outbox : List Outgoing)

theorem find_recast (p : Peer K) (can : CanonicalAddr) :
    (p.recast f log outbox).sessions.find can =
      (p.sessions.find can).map fun (id, s) => (id, s.restamp f) :=
  Store.find_map ..

theorem setSession_recast (p : Peer K) (id : SessionId) (s : Session K) :
    (p.recast f log outbox).setSession id (s.restamp f) =
      (p.setSession id s).recast f log outbox := by
  simp only [setSession, recast]
  rw [Store.map_modify p.sessions (Session.restamp f) id (fun _ => s) (fun _ => s.restamp f)
    fun _ => rfl]

theorem insertSession_recast (p : Peer K) (can : CanonicalAddr) (s : Session K) :
    (p.recast f log outbox).insertSession can (s.restamp f) =
      (p.insertSession can s).recast f log outbox := by
  simp only [insertSession, recast, Store.map_insertNew]

theorem removeKey_recast (p : Peer K) (can : CanonicalAddr) :
    (p.recast f log outbox).removeKey can = (p.removeKey can).recast f log outbox := rfl

theorem submit_recast (p : Peer K) (origin : Option SessionId) (out : List Submission) :
    (p.recast f log outbox).submit origin out = (p.submit origin out).recast f log outbox := by
  simp only [submit, recast, List.append_assoc]

theorem emit_recast (p : Peer K) (e : Event) (id : SessionId) :
    (p.recast f log outbox).emit e id = (p.emit e id).recast f log outbox := by
  simp only [emit, recast, List.append_assoc]

theorem appendData_recast (p : Peer K) (id : SessionId) (peer : SocketAddr) (msgs : List Bytes) :
    (p.recast f log outbox).appendData id peer msgs =
      (p.appendData id peer msgs).recast f log outbox := by
  simp only [appendData, recast, List.append_assoc]

theorem notify_recast (p : Peer K) :
    (p.recast f log outbox).notify = p.notify.recast f log outbox := rfl

theorem sendReset_recast (p : Peer K) (conv : UInt32) (dest : SocketAddr) (socket : Socket) :
    (p.recast f log outbox).sendReset conv dest socket =
      (p.sendReset conv dest socket).recast f log outbox := submit_recast ..

theorem sendSynAck_recast (p : Peer K) (conv : UInt32) (dest : SocketAddr) (socket : Socket) :
    (p.recast f log outbox).sendSynAck conv dest socket =
      (p.sendSynAck conv dest socket).recast f log outbox := submit_recast ..

variable [Kcp K]

theorem sendOn_recast (p : Peer K) (id : SessionId) (s : Session K) (data : Bytes) (clock : Clock)
    (socket : Socket) :
    (p.recast f log outbox).sendOn id (s.restamp f) data clock socket =
      ((p.sendOn id s data clock socket).1.recast f log outbox,
        (p.sendOn id s data clock socket).2) := by
  simp only [sendOn, Session.sendData_restamp, setSession_recast, submit_recast]

theorem send_recast (p : Peer K) (peer : SocketAddr) (data : Bytes) (draw : DrawnConv)
    (clock : Clock) (socket : Socket) :
    (p.recast f log outbox).send peer data draw clock socket =
      ((p.send peer data draw clock socket).1.recast f log outbox,
        (p.send peer data draw clock socket).2) := by
  unfold send
  rw [find_recast]
  cases found : p.sessions.find (canonicalize peer) with
  | some entry => exact sendOn_recast f log outbox p entry.1 entry.2 data clock socket
  | none =>
      have opened : (p.recast f log outbox).initiateSession peer draw clock socket =
          ((p.initiateSession peer draw clock socket).1.recast f log outbox,
            (p.initiateSession peer draw clock socket).2.1,
            (p.initiateSession peer draw clock socket).2.2.restamp f) := by
        have born : (Session.newOutbound draw.val peer (f p.incarnation) p.config clock.epochMs :
            Session K) = (Session.newOutbound draw.val peer p.incarnation p.config
              clock.epochMs).restamp f := rfl
        have fresh : (p.recast f log outbox).sessions.fresh = p.sessions.fresh :=
          Store.fresh_map ..
        have stamp : (p.recast f log outbox).incarnation = f p.incarnation := rfl
        have config : (p.recast f log outbox).config = p.config := rfl
        simp only [initiateSession, stamp, config, born, fresh, insertSession_recast]
        have conv : ∀ s : Session K, (s.restamp f).inner.convId = s.inner.convId := fun _ => rfl
        have syn : ∀ (s : Session K) conv, (s.restamp f).synSubmission conv socket =
          s.synSubmission conv socket := fun _ _ => rfl
        simp only [conv, syn, Session.sendSyn_restamp, setSession_recast, submit_recast]
      simp only [Option.map_none, opened]
      exact sendOn_recast ..

omit [Kcp K] in
theorem disconnect_recast (p : Peer K) (peer : SocketAddr) (socket : Socket) :
    (p.recast f log outbox).disconnect peer socket =
      (p.disconnect peer socket).recast f log outbox := by
  unfold disconnect
  rw [find_recast]
  cases found : p.sessions.find (canonicalize peer) with
  | none => rfl
  | some entry =>
      have closed : (entry.2.restamp f).markClosed = entry.2.markClosed.restamp f := rfl
      simp only [Option.map_some, closed, removeKey_recast, setSession_recast, sendReset_recast,
        emit_recast]
      rfl

theorem handleKcpData_recast (p : Peer K) (payload : Bytes) (src : SocketAddr) (clock : Clock)
    (socket : Socket) :
    (p.recast f log outbox).handleKcpData payload src clock socket =
      ((p.handleKcpData payload src clock socket).1.recast f log outbox,
        (p.handleKcpData payload src clock socket).2) := by
  have found' := find_recast f log outbox p (canonicalize src)
  cases found : p.sessions.find (canonicalize src) with
  | none =>
      rw [found] at found'
      simp only [handleKcpData, found, found', Option.map_none, sendReset_recast]
      split
      · rfl
      · rfl
  | some entry =>
      obtain ⟨id, s⟩ := entry
      rw [found] at found'
      have stamped : ∀ kcp : K, ((s.restamp f).touch clock.epochMs).withKcp kcp =
          ((s.touch clock.epochMs).withKcp kcp).restamp f := fun _ => rfl
      have kcp : (s.restamp f).inner.kcp = s.inner.kcp := rfl
      rw [handleKcpData_feed _ _ _ _ _ found', handleKcpData_feed _ _ _ _ _ found, kcp]
      rcases Kcp.feed s.inner.kcp payload with ⟨kcp, msgs, e | _⟩
      · simp only [stamped, setSession_recast]
      · cases msgs with
        | nil => simp only [stamped, setSession_recast]
        | cons msg msgs =>
            simp only [stamped, setSession_recast, appendData_recast, notify_recast]
            rfl

theorem synDecide_recast (p : Peer K) (src : SocketAddr) (conv : UInt32) (myAddr : SocketAddr)
    (clock : Clock) (socket : Socket) :
    (p.recast f log outbox).synDecide src conv myAddr clock socket =
      ((p.synDecide src conv myAddr clock socket).1.recast f log outbox,
        (p.synDecide src conv myAddr clock socket).2) := by
  unfold synDecide
  rw [find_recast]
  cases found : p.sessions.find (canonicalize src) with
  | none => rfl
  | some entry =>
      obtain ⟨id, s⟩ := entry
      have convId : (s.restamp f).inner.convId = s.inner.convId := rfl
      have state : (s.restamp f).inner.state = s.inner.state := rfl
      have touched : (s.restamp f).touch clock.epochMs = (s.touch clock.epochMs).restamp f := rfl
      have closed : (s.restamp f).markClosed = s.markClosed.restamp f := rfl
      have pumped : ∀ s' : Session K, (s'.restamp f).pump clock.currentMs socket =
          ((s'.pump clock.currentMs socket).1.restamp f, (s'.pump clock.currentMs socket).2) :=
        fun _ => rfl
      have adopted : (s.restamp f).adopt conv clock.epochMs =
          (s.adopt conv clock.epochMs).restamp f := rfl
      have established : (s.restamp f).establish clock.epochMs =
          (s.establish clock.epochMs).restamp f := rfl
      simp only [Option.map_some, convId, state, touched, closed, adopted, established, pumped,
        setSession_recast, submit_recast, emit_recast]
      repeat' split
      all_goals rfl

theorem handleSyn_recast (p : Peer K) (payload : Bytes) (src : SocketAddr) (clock : Clock)
    (socket : Socket) :
    (p.recast f log outbox).handleSyn payload src clock socket =
      ((p.handleSyn payload src clock socket).1.recast f log outbox,
        (p.handleSyn payload src clock socket).2) := by
  unfold handleSyn
  cases readConv payload with
  | none => rfl
  | some conv =>
      cases socket.localAddr with
      | error e => rfl
      | ok myAddr =>
          simp only [synDecide_recast]
          rcases p.synDecide src conv myAddr clock socket with ⟨p₁, action, sendAckTo, ackConv⟩
          have born : ∀ p₂ : Peer K,
              (Session.newInbound conv src (f p₂.incarnation) p₂.config clock.epochMs :
                Session K) = (Session.newInbound conv src p₂.incarnation p₂.config
                  clock.epochMs).restamp f := fun _ => rfl
          have inserted : ∀ p₂ : Peer K, (p₂.recast f log outbox).synInsert src conv clock =
              (p₂.synInsert src conv clock).recast f log outbox := by
            intro p₂
            have fresh : (p₂.recast f log outbox).sessions.fresh = p₂.sessions.fresh :=
              Store.fresh_map ..
            have stamp : (p₂.recast f log outbox).incarnation = f p₂.incarnation := rfl
            have config : (p₂.recast f log outbox).config = p₂.config := rfl
            simp only [synInsert, fresh, stamp, config, born, insertSession_recast, emit_recast]
          cases sendAckTo <;> cases action <;>
            simp only [synAcknowledge, synFinish, sendSynAck_recast, inserted]

theorem handleSynAck_recast (p : Peer K) (payload : Bytes) (src : SocketAddr) (clock : Clock)
    (socket : Socket) :
    (p.recast f log outbox).handleSynAck payload src clock socket =
      ((p.handleSynAck payload src clock socket).1.recast f log outbox,
        (p.handleSynAck payload src clock socket).2) := by
  unfold handleSynAck
  cases readConv payload with
  | none => rfl
  | some conv =>
      simp only [synAckAccept]
      rw [find_recast]
      cases found : p.sessions.find (canonicalize src) with
      | none => rfl
      | some entry =>
          obtain ⟨id, s⟩ := entry
          have convId : (s.restamp f).inner.convId = s.inner.convId := rfl
          have state : (s.restamp f).inner.state = s.inner.state := rfl
          have pumped : ((s.restamp f).establish clock.epochMs).pump clock.currentMs socket =
              (((s.establish clock.epochMs).pump clock.currentMs socket).1.restamp f,
                ((s.establish clock.epochMs).pump clock.currentMs socket).2) := rfl
          simp only [Option.map_some, convId, state, pumped, setSession_recast, submit_recast,
            emit_recast]
          repeat' split
          all_goals rfl

theorem handleReset_recast (p : Peer K) (payload : Bytes) (src : SocketAddr) :
    (p.recast f log outbox).handleReset payload src =
      ((p.handleReset payload src).1.recast f log outbox, (p.handleReset payload src).2) := by
  unfold handleReset
  cases readConv payload with
  | none => rfl
  | some conv =>
      dsimp only
      rw [find_recast]
      cases found : p.sessions.find (canonicalize src) with
      | none => rfl
      | some entry =>
          obtain ⟨id, s⟩ := entry
          have convId : (s.restamp f).inner.convId = s.inner.convId := rfl
          have closed : (s.restamp f).markClosed = s.markClosed.restamp f := rfl
          simp only [Option.map_some, convId, closed, removeKey_recast, setSession_recast,
            emit_recast]
          split
          · rfl
          · rfl

theorem handleIncoming_recast (p : Peer K) (data : Bytes) (src : SocketAddr) (clock : Clock)
    (socket : Socket) :
    (p.recast f log outbox).handleIncoming data src clock socket =
      ((p.handleIncoming data src clock socket).1.recast f log outbox,
        (p.handleIncoming data src clock socket).2) := by
  unfold handleIncoming
  rcases splitPacket data with _ | ⟨typ, payload⟩
  · rfl
  · cases typ with
    | kcpData => exact handleKcpData_recast ..
    | syn => exact handleSyn_recast ..
    | synAck => exact handleSynAck_recast ..
    | reset => exact handleReset_recast ..

theorem scanSession_recast (p : Peer K) (tick : Tick) (socket : Socket) (can : CanonicalAddr) :
    (p.recast f log outbox).scanSession tick socket can =
      ((p.scanSession tick socket can).1.recast f log outbox,
        (p.scanSession tick socket can).2) := by
  have config : (p.recast f log outbox).config = p.config := rfl
  rw [scanSession_eq, scanSession_eq, find_recast, config]
  cases found : p.sessions.find can with
  | none => rfl
  | some entry =>
      simp only [Option.map_some, Session.scan_restamp, setSession_recast, submit_recast]

theorem scan_recast (tick : Tick) (socket : Socket) (order : List CanonicalAddr) (p : Peer K) :
    scan tick socket order (p.recast f log outbox) =
      ((scan tick socket order p).1.recast f log outbox, (scan tick socket order p).2) := by
  induction order generalizing p with
  | nil => rfl
  | cons can rest ih => simp only [scan, scanSession_recast, ih]

omit [Kcp K] in
theorem prune_recast (socket : Socket) (p : Peer K) (can : CanonicalAddr) :
    prune socket (p.recast f log outbox) can = (prune socket p can).recast f log outbox := by
  unfold prune
  rw [find_recast]
  cases found : p.sessions.find can with
  | none => rfl
  | some entry =>
      have closed : (entry.2.restamp f).markClosed = entry.2.markClosed.restamp f := rfl
      simp only [Option.map_some, closed, removeKey_recast, setSession_recast, sendReset_recast,
        emit_recast]
      rfl

omit [Kcp K] in
theorem foldl_prune_recast (socket : Socket) (removed : List CanonicalAddr) (p : Peer K) :
    removed.foldl (prune socket) (p.recast f log outbox) =
      (removed.foldl (prune socket) p).recast f log outbox := by
  induction removed generalizing p with
  | nil => rfl
  | cons can rest ih => rw [List.foldl_cons, List.foldl_cons, prune_recast, ih]

/-- No operation reads the incarnation number, the log or the outbox. -/
theorem apply_recast (p : Peer K) (op : PeerOp) :
    (p.recast f log outbox).apply op = (p.apply op).map (recast f log outbox) := by
  cases op with
  | send peer data draw clock socket =>
      exact congrArg (fun after => some after.1) (send_recast f log outbox p peer data draw ..)
  | disconnect peer socket => exact congrArg some (disconnect_recast f log outbox p peer socket)
  | incoming data src clock socket =>
      exact congrArg (fun after => some after.1)
        (handleIncoming_recast f log outbox p data src clock socket)
  | tick tick socket =>
      have keys : (p.recast f log outbox).sessions.keys = p.sessions.keys := rfl
      simp only [apply, keys, updateTick, scan_recast, foldl_prune_recast]
      split
      · rfl
      · rfl

omit f log outbox in
/-- An operation adds to the two histories what it would have added to empty ones. -/
theorem apply_appends {p p' : Peer K} {op : PeerOp} (applied : p.apply op = some p') :
    ∃ after, ({ p with log := [], outbox := [] } : Peer K).apply op = some after ∧
      p' = { after with log := p.log ++ after.log, outbox := p.outbox ++ after.outbox } := by
  have base : p = recast id p.log p.outbox { p with log := [], outbox := [] } := by
    simp only [recast_id, List.append_nil]
  rw [base, apply_recast, Option.map_eq_some_iff] at applied
  obtain ⟨after, applied, rfl⟩ := applied
  exact ⟨after, applied, recast_id ..⟩

theorem exec_recast {config : KcpConfig} (i j : UInt64) (ops : List PeerOp) (p : Peer K) :
    (peerMachine K j config).exec Machine.always (p.recast (fun _ => j) [] []) ops =
      ((peerMachine K i config).exec Machine.always p ops).map (recast (fun _ => j) [] []) := by
  induction ops generalizing p with
  | nil => rfl
  | cons op rest ih =>
      have first : (peerMachine K j config).step (p.recast (fun _ => j) [] []) op =
          ((peerMachine K i config).step p op).map (recast (fun _ => j) [] []) :=
        apply_recast (fun _ => j) [] [] p op
      simp only [Machine.exec, Machine.always, ↓reduceIte, first]
      cases (peerMachine K i config).step p op with
      | none => rfl
      | some next => exact ih next

theorem stats_recast [KcpWindows K] (p : Peer K) (peer : SocketAddr) (now : UInt64) :
    (p.recast f log outbox).stats peer now = p.stats peer now := by
  unfold stats
  rw [find_recast]
  cases p.sessions.find (canonicalize peer) with
  | none => rfl
  | some entry => rfl

end Peer

/-- The number `bind` draws is stored in every session and never shown: two peers that
drew different ones and performed the same atomic operations have sent the same events,
messages and datagrams, and answer every further call alike. -/
theorem incarnation_never_shows (K : Type) [Kcp K] [KcpWindows K] (i j : UInt64)
    (config : KcpConfig) (ops : List PeerOp) (p : Peer K)
    (ran : (peerMachine K i config).exec Machine.always (.bind i config) ops = some p) :
    ∃ q, (peerMachine K j config).exec Machine.always (.bind j config) ops = some q ∧
      q.log = p.log ∧ q.outbox = p.outbox ∧ q.pendingData = p.pendingData ∧
      q.dataNotify = p.dataNotify ∧ q.sessions.keys = p.sessions.keys ∧
      (∀ peer now, q.stats peer now = p.stats peer now) ∧
      (∀ peer data draw clock socket, (q.send peer data draw clock socket).2 =
        (p.send peer data draw clock socket).2) ∧
      (∀ data src clock socket, (q.handleIncoming data src clock socket).2 =
        (p.handleIncoming data src clock socket).2) := by
  have start : (Peer.bind j config : Peer K) = (Peer.bind i config).recast (fun _ => j) [] [] := rfl
  refine ⟨p.recast (fun _ => j) [] [], ?_, rfl, rfl, rfl, rfl, rfl, ?_, ?_, ?_⟩
  · rw [start, Peer.exec_recast i j ops, ran]
    rfl
  · exact Peer.stats_recast (fun _ => j) [] [] p
  · intro peer data draw clock socket
    rw [Peer.send_recast]
  · intro data src clock socket
    rw [Peer.handleIncoming_recast]

/-- A remote that comes back with another conversation is noticed under either number. -/
theorem incarnation_never_shows_restart :
    ∃ p q : Peer SampleKcp,
      (peerMachine SampleKcp 1 .default).exec Machine.always (.bind 1 .default)
        [.incoming (encodeControl .syn 10) .remote .sample .sample,
          .incoming (encodeControl .syn 20) .remote .sample .sample] = some p ∧
      (peerMachine SampleKcp 2 .default).exec Machine.always (.bind 2 .default)
        [.incoming (encodeControl .syn 10) .remote .sample .sample,
          .incoming (encodeControl .syn 20) .remote .sample .sample] = some q ∧
      LogEntry.event (.peerRestarted .remote) 0 ∈ p.log ∧ q.log = p.log := by
  have run : ((peerMachine SampleKcp 1 .default).exec Machine.always (.bind 1 .default)
      [.incoming (encodeControl .syn 10) .remote .sample .sample,
        .incoming (encodeControl .syn 20) .remote .sample .sample]).any
      (fun p => decide (LogEntry.event (.peerRestarted .remote) 0 ∈ p.log)) = true := by
    decide +kernel
  obtain ⟨p, ran, restarted⟩ := (Option.any_eq_true ..).mp run
  obtain ⟨q, ran', log, _⟩ := incarnation_never_shows SampleKcp 1 2 .default _ p ran
  exact ⟨p, q, ran, ran', of_decide_eq_true restarted, log⟩

end KcpPeer
