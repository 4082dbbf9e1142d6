import KcpPeer.Effects

set_option autoImplicit false

namespace KcpPeer

/-- What the KcpData arm asks of an instance: `input`, and then the loop of
`try_recv_all`. -/
def Kcp.feed {K : Type} [Kcp K] (kcp : K) (payload : Bytes) :
    K × List Bytes × Except (Kcp.Err K) Unit :=
  match Kcp.input kcp payload with
  | (kcp, .error e) => (kcp, [], .error e)
  | (kcp, .ok _) => Session.drain (Kcp.rcvQueue kcp).length kcp []

namespace Session

variable {K : Type} [Kcp K]

/-- The scan of a session: `update`, `maybe_retry_syn` and the idle test. -/
def scan (s : Session K) (config : KcpConfig) (tick : Tick) (now : UInt64) (socket : Socket) :
    Session K × List Submission × Bool :=
  if s.closed then (s, [], false)
  else
    match s.update tick.nowMs socket with
    | (s, out, .error .deadLink) => (s, out, true)
    | (s, out, _) =>
        match s.maybeRetrySyn config tick.nowEpoch now socket with
        | (s, out', .error .deadLink) => (s, out ++ out', true)
        | (s, out', _) => (s, out ++ out', s.idleExpired config tick.nowEpoch)

theorem scan_cases (s : Session K) (config : KcpConfig) (tick : Tick) (now : UInt64)
    (socket : Socket) :
    (s.scan config tick now socket).1 = s ∨
      (s.scan config tick now socket).1 = (s.update tick.nowMs socket).1 ∨
      (s.scan config tick now socket).1 =
        ((s.update tick.nowMs socket).1.maybeRetrySyn config tick.nowEpoch now socket).1 := by
  unfold scan
  split
  · exact Or.inl rfl
  · right
    split
    · rename_i updated
      rw [updated]
      exact Or.inl rfl
    · rename_i updated
      rw [updated]
      right
      split
      · rename_i retried
        rw [retried]
      · rename_i retried
        rw [retried]

/-- A scan stops before, between or after `update` and `maybe_retry_syn`. -/
theorem scan_rule {P : Session K → Prop} {s : Session K} {config : KcpConfig} {tick : Tick}
    {now : UInt64} {socket : Socket} (start : P s) (updated : P (s.update tick.nowMs socket).1)
    (retried : P (s.update tick.nowMs socket).1 →
      P ((s.update tick.nowMs socket).1.maybeRetrySyn config tick.nowEpoch now socket).1) :
    P (s.scan config tick now socket).1 := by
  rcases s.scan_cases config tick now socket with same | once | twice
  · rw [same]
    exact start
  · rw [once]
    exact updated
  · rw [twice]
    exact retried updated

theorem view_scan (s : Session K) (config : KcpConfig) (tick : Tick) (now : UInt64)
    (socket : Socket) : (s.scan config tick now socket).1.view = s.view := by
  refine scan_rule (P := fun s' => s'.view = s.view) rfl (s.view_update _ _) ?_
  intro updated
  exact (view_maybeRetrySyn ..).trans updated

/-- A session is fed by a KcpData datagram. -/
def fed (s : Session K) (payload : Bytes) (now : UInt64) : Session K :=
  (s.touch now).withKcp (Kcp.feed s.inner.kcp payload).1

end Session

namespace Peer

variable {K : Type}

theorem setSession_submit_setSession (p : Peer K) (id : SessionId) (s s' : Session K)
    (origin : Option SessionId) (out out' : List Submission) :
    (((p.setSession id s).submit origin out).setSession id s').submit origin out' =
      (p.setSession id s').submit origin (out ++ out') := by
  have objects : (p.sessions.objects.modify id fun _ => s).modify id (fun _ => s') =
      p.sessions.objects.modify id fun _ => s' := List.modify_modify_eq ..
  have sessions : (p.sessions.modify id fun _ => s).modify id (fun _ => s') =
      p.sessions.modify id fun _ => s' := Store.ext objects rfl
  simp only [setSession, submit, sessions, List.map_append, List.append_assoc]

theorem setSession_submit_nothing {p : Peer K} {id : SessionId} {s : Session K}
    (present : p.sessions.object? id = some s) (origin : Option SessionId) :
    (p.setSession id s).submit origin [] = p := by
  simp only [setSession, submit, Store.modify_same p.sessions (fun _ => s) present rfl,
    List.map_nil, List.append_nil]

theorem find_prune (socket : Socket) (p : Peer K) (can can' : CanonicalAddr) :
    (prune socket p can).sessions.find can' =
      if can' = can then none else p.sessions.find can' := by
  unfold prune
  cases found : p.sessions.find can with
  | none =>
      by_cases same : can' = can
      · rw [if_pos same, same]
        exact found
      · rw [if_neg same]
  | some entry => exact find_removed found entry.2.markClosed can'

theorem find_foldl_prune (socket : Socket) (removed : List CanonicalAddr) (p : Peer K)
    (can : CanonicalAddr) :
    (removed.foldl (prune socket) p).sessions.find can =
      if can ∈ removed then none else p.sessions.find can := by
  induction removed generalizing p with
  | nil => rfl
  | cons head rest ih =>
      rw [List.foldl_cons, ih, find_prune]
      by_cases inRest : can ∈ rest
      · simp [inRest]
      · by_cases isHead : can = head
        · simp [isHead]
        · simp [inRest, isHead]

variable [Kcp K]

/-- The KcpData arm for a session that is held: `last_rx` is stored, the instance
is fed, and only what it hands over without an error is appended. -/
theorem handleKcpData_feed (p : Peer K) (payload : Bytes) (src : SocketAddr) (clock : Clock)
    (socket : Socket) {id : SessionId} {s : Session K}
    (found : p.sessions.find (canonicalize src) = some (id, s)) :
    p.handleKcpData payload src clock socket =
      match Kcp.feed s.inner.kcp payload with
      | (kcp, _, .error e) =>
          (p.setSession id ((s.touch clock.epochMs).withKcp kcp), .error (.kcp e))
      | (kcp, [], .ok _) => (p.setSession id ((s.touch clock.epochMs).withKcp kcp), .ok ())
      | (kcp, msg :: msgs, .ok _) =>
          (((p.setSession id ((s.touch clock.epochMs).withKcp kcp)).appendData id s.peerAddr
            (msg :: msgs)).notify, .ok ()) := by
  simp only [handleKcpData, found, Session.input, Kcp.feed]
  have kcp : (s.touch clock.epochMs).inner.kcp = s.inner.kcp := rfl
  rw [kcp]
  rcases fed : Kcp.input s.inner.kcp payload with ⟨kcp, _ | _⟩
  · rfl
  · simp only [Session.tryRecvAll]
    have after : ((s.touch clock.epochMs).withKcp kcp).inner.kcp = kcp := rfl
    rw [after]
    rcases drained : Session.drain (Kcp.rcvQueue kcp).length kcp [] with ⟨kcp', msgs, _ | _⟩
    · rfl
    · cases msgs with
      | nil => rfl
      | cons msg msgs => rfl

theorem handleKcpData_sessions (p : Peer K) (payload : Bytes) (src : SocketAddr) (clock : Clock)
    (socket : Socket) {id : SessionId} {s : Session K}
    (found : p.sessions.find (canonicalize src) = some (id, s)) :
    (p.handleKcpData payload src clock socket).1.sessions =
      (p.setSession id (s.fed payload clock.epochMs)).sessions := by
  rw [handleKcpData_feed p payload src clock socket found]
  unfold Session.fed
  rcases Kcp.feed s.inner.kcp payload with ⟨kcp, msgs, e | _⟩
  · rfl
  · cases msgs with
    | nil => rfl
    | cons msg msgs => rfl

/-- The scan of one address is the scan of its session. -/
theorem scanSession_eq (p : Peer K) (tick : Tick) (socket : Socket) (can : CanonicalAddr) :
    p.scanSession tick socket can =
      match p.sessions.find can with
      | none => (p, false)
      | some (id, s) =>
          let scanned := s.scan p.config tick (tick.retryClock can) socket
          ((p.setSession id scanned.1).submit (some id) scanned.2.1, scanned.2.2) := by
  unfold scanSession
  cases found : p.sessions.find can with
  | none => rfl
  | some entry =>
      obtain ⟨id, s⟩ := entry
      have present := (Store.find_eq_some.mp found).2
      simp only [Session.scan]
      cases closed : s.closed with
      | true =>
          simp only [↓reduceIte]
          rw [setSession_submit_nothing present]
      | false =>
          simp only [Bool.false_eq_true, ↓reduceIte]
          have config : ∀ s₁ out, ((p.setSession id s₁).submit (some id) out).config = p.config :=
            fun _ _ => rfl
          simp only [config]
          rcases s.update tick.nowMs socket with ⟨s₁, out, e | n⟩
          · cases e with
            | deadLink => rfl
            | _ =>
                dsimp only
                rcases s₁.maybeRetrySyn p.config tick.nowEpoch (tick.retryClock can) socket with
                  ⟨s₂, out', e | b⟩
                · cases e <;> exact congrArg (·, _) (setSession_submit_setSession ..)
                · exact congrArg (·, _) (setSession_submit_setSession ..)
          · dsimp only
            rcases s₁.maybeRetrySyn p.config tick.nowEpoch (tick.retryClock can) socket with
              ⟨s₂, out', e | b⟩
            · cases e <;> exact congrArg (·, _) (setSession_submit_setSession ..)
            · exact congrArg (·, _) (setSession_submit_setSession ..)

/-- What one operation does to a session that stays in the map. -/
inductive SessionStep (config : KcpConfig) (can : CanonicalAddr) :
    PeerOp → Session K → Session K → Prop
  | same (op : PeerOp) (s : Session K) : SessionStep config can op s s
  | sent {peer : SocketAddr} (own : canonicalize peer = can) (data : Bytes) (draw : DrawnConv)
      (clock : Clock) (socket : Socket) (s : Session K) :
      SessionStep config can (.send peer data draw clock socket) s
        (s.sendData data clock.currentMs socket).1
  | scanned (tick : Tick) (socket : Socket) (s : Session K) :
      SessionStep config can (.tick tick socket) s
        (s.scan config tick (tick.retryClock can) socket).1
  | fed {src : SocketAddr} (own : canonicalize src = can) {data payload : Bytes}
      (kind : splitPacket data = some (.kcpData, payload)) (clock : Clock) (socket : Socket)
      (s : Session K) :
      SessionStep config can (.incoming data src clock socket) s (s.fed payload clock.epochMs)
  | touched {data : Bytes} {src : SocketAddr} (clock : Clock) (socket : Socket) (s : Session K) :
      SessionStep config can (.incoming data src clock socket) s (s.touch clock.epochMs)
  | established {data : Bytes} {src : SocketAddr} (clock : Clock) (socket : Socket)
      {s : Session K} (waiting : s.inner.state = .synSent) :
      SessionStep config can (.incoming data src clock socket) s
        ((s.establish clock.epochMs).pump clock.currentMs socket).1
  | adopted {src : SocketAddr} (own : canonicalize src = can) {data payload : Bytes}
      {conv : UInt32} (kind : splitPacket data = some (.syn, payload))
      (read : readConv payload = some conv) (clock : Clock) (socket : Socket) {s : Session K}
      (waiting : s.inner.state = .synSent) :
      SessionStep config can (.incoming data src clock socket) s
        ((s.adopt conv clock.epochMs).pump clock.currentMs socket).1

/-- A session that an operation puts into the map. -/
inductive SessionBirth (p : Peer K) (can : CanonicalAddr) : PeerOp → Session K → Prop
  | outbound {peer : SocketAddr} (own : canonicalize peer = can) (data : Bytes)
      (draw : DrawnConv) (clock : Clock) (socket : Socket) :
      SessionBirth p can (.send peer data draw clock socket)
        (((Session.newOutbound draw.val peer p.incarnation p.config clock.epochMs).sendSyn draw.val
          clock.epochMs socket).sendData data clock.currentMs socket).1
  | inbound {src : SocketAddr} (own : canonicalize src = can) {data payload : Bytes}
      {conv : UInt32} (kind : splitPacket data = some (.syn, payload))
      (read : readConv payload = some conv) (clock : Clock) (socket : Socket) :
      SessionBirth p can (.incoming data src clock socket)
        (Session.newInbound conv src p.incarnation p.config clock.epochMs)

/-- Where every session in the map comes from. -/
def Follows (op : PeerOp) (p p' : Peer K) : Prop :=
  ∀ can id s', p'.sessions.find can = some (id, s') →
    (∃ s, p.sessions.find can = some (id, s) ∧ SessionStep p.config can op s s') ∨
      (id = p.sessions.fresh ∧ SessionBirth p can op s')

theorem Follows.unchanged {op : PeerOp} {p p' : Peer K} (same : p'.sessions = p.sessions) :
    Follows op p p' := by
  intro can id s found
  rw [same] at found
  exact Or.inl ⟨s, found, .same op s⟩

theorem Follows.write {op : PeerOp} {p p' : Peer K} {can : CanonicalAddr} {id : SessionId}
    {s s' : Session K} (found : p.sessions.find can = some (id, s))
    (step : SessionStep p.config can op s s')
    (written : p'.sessions = (p.setSession id s').sessions) : Follows op p p' := by
  intro can' id' s₁ found'
  rw [written] at found'
  by_cases own : can' = can
  · subst own
    rw [find_setSession found] at found'
    cases found'
    exact Or.inl ⟨s, found, step⟩
  · rw [find_setSession_other found s' own] at found'
    exact Or.inl ⟨s₁, found', .same op s₁⟩

theorem Follows.remove {op : PeerOp} {p p' : Peer K} {can : CanonicalAddr} {id : SessionId}
    {s : Session K} (found : p.sessions.find can = some (id, s)) (s' : Session K)
    (removed : p'.sessions = ((p.removeKey can).setSession id s').sessions) : Follows op p p' := by
  intro can' id' s₁ found'
  rw [removed, find_removed found] at found'
  split at found'
  · cases found'
  · exact Or.inl ⟨s₁, found', .same op s₁⟩

/-- The key's former session, if there was one, is no longer in the map. -/
theorem Follows.born {op : PeerOp} {p p' : Peer K} {can : CanonicalAddr} {s : Session K}
    (birth : SessionBirth p can op s) (there : p'.sessions.find can = some (p.sessions.fresh, s))
    (others : ∀ can', can' ≠ can → p'.sessions.find can' = p.sessions.find can') :
    Follows op p p' := by
  intro can' id' s₁ found'
  by_cases own : can' = can
  · subst own
    rw [there] at found'
    cases found'
    exact Or.inr ⟨rfl, birth⟩
  · rw [others can' own] at found'
    exact Or.inl ⟨s₁, found', .same op s₁⟩

theorem send_follows (p : Peer K) (peer : SocketAddr) (data : Bytes) (draw : DrawnConv)
    (clock : Clock) (socket : Socket) :
    Follows (.send peer data draw clock socket) p (p.send peer data draw clock socket).1 := by
  unfold send
  cases found : p.sessions.find (canonicalize peer) with
  | some entry => exact .write found (.sent rfl data draw clock socket entry.2) rfl
  | none =>
      have opened := find_initiateSession p peer draw clock socket
      refine .born (.outbound rfl data draw clock socket) (find_setSession opened _) ?_
      intro can other
      refine (find_setSession_other opened _ other).trans ?_
      exact (find_setSession_other (find_insertSession p (canonicalize peer) _) _ other).trans
        (find_insertSession_other p _ other)

theorem disconnect_follows (p : Peer K) (peer : SocketAddr) (socket : Socket) :
    Follows (.disconnect peer socket) p (p.disconnect peer socket) := by
  unfold disconnect
  cases found : p.sessions.find (canonicalize peer) with
  | none => exact .unchanged rfl
  | some entry => exact .remove found entry.2.markClosed rfl

theorem synFinish_follows {op : PeerOp} {p p₁ : Peer K} {src : SocketAddr} {conv : UInt32}
    {clock : Clock} (birth : SessionBirth p (canonicalize src) op
      (Session.newInbound conv src p₁.incarnation p₁.config clock.epochMs))
    (fresh : p₁.sessions.fresh = p.sessions.fresh)
    (others : ∀ can, can ≠ canonicalize src → p₁.sessions.find can = p.sessions.find can) :
    Follows op p (p₁.synInsert src conv clock) := by
  refine .born birth (fresh ▸ find_insertSession p₁ (canonicalize src) _) ?_
  intro can other
  exact (find_insertSession_other p₁ _ other).trans (others can other)

theorem handleSyn_follows (p : Peer K) {data payload : Bytes} (src : SocketAddr) (clock : Clock)
    (socket : Socket) (kind : splitPacket data = some (.syn, payload)) :
    Follows (.incoming data src clock socket) p (p.handleSyn payload src clock socket).1 := by
  unfold handleSyn
  cases read : readConv payload with
  | none => exact .unchanged rfl
  | some conv =>
      dsimp only
      cases socket.localAddr with
      | error e => exact .unchanged rfl
      | ok myAddr =>
          have birth : SessionBirth p (canonicalize src) (.incoming data src clock socket)
              (Session.newInbound conv src p.incarnation p.config clock.epochMs) :=
            .inbound rfl kind read clock socket
          simp only [synDecide]
          cases found : p.sessions.find (canonicalize src) with
          | none => exact synFinish_follows birth rfl fun _ _ => rfl
          | some entry =>
              obtain ⟨id, s⟩ := entry
              dsimp only
              split
              · split
                · exact .write found (.touched clock socket s) rfl
                · exact .unchanged rfl
              · split
                · rename_i waiting
                  split
                  · exact .write found (.adopted rfl kind read clock socket waiting) rfl
                  · exact .write found (.established clock socket waiting) rfl
                · exact synFinish_follows birth (Store.fresh_modify ..) fun can other =>
                    find_setSession_other found s.markClosed other

theorem handleSynAck_follows (p : Peer K) (data payload : Bytes) (src : SocketAddr)
    (clock : Clock) (socket : Socket) :
    Follows (.incoming data src clock socket) p (p.handleSynAck payload src clock socket).1 := by
  unfold handleSynAck
  split
  · exact .unchanged rfl
  · unfold synAckAccept
    cases found : p.sessions.find (canonicalize src) with
    | none => exact .unchanged rfl
    | some entry =>
        dsimp only
        split
        · exact .unchanged rfl
        · rename_i waiting
          split
          · exact .write found (.established clock socket waiting) rfl
          · exact .unchanged rfl

theorem handleReset_follows {op : PeerOp} (p : Peer K) (payload : Bytes) (src : SocketAddr) :
    Follows op p (p.handleReset payload src).1 := by
  unfold handleReset
  split
  · exact .unchanged rfl
  · cases found : p.sessions.find (canonicalize src) with
    | none => exact .unchanged rfl
    | some entry =>
        dsimp only
        split
        · exact .remove found entry.2.markClosed rfl
        · exact .unchanged rfl

theorem handleIncoming_follows (p : Peer K) (data : Bytes) (src : SocketAddr) (clock : Clock)
    (socket : Socket) :
    Follows (.incoming data src clock socket) p (p.handleIncoming data src clock socket).1 := by
  unfold handleIncoming
  cases kind : splitPacket data with
  | none => exact .unchanged rfl
  | some packet =>
      obtain ⟨typ, payload⟩ := packet
      cases typ with
      | syn => exact handleSyn_follows p src clock socket kind
      | synAck => exact handleSynAck_follows p data payload src clock socket
      | reset => exact handleReset_follows p payload src
      | kcpData =>
          cases found : p.sessions.find (canonicalize src) with
          | none =>
              refine .unchanged ?_
              simp only [handleKcpData, found]
              split
              · rfl
              · rfl
          | some entry =>
              exact .write found (.fed rfl kind clock socket entry.2)
                (handleKcpData_sessions p payload src clock socket found)

theorem find_scan (tick : Tick) (socket : Socket) (order : List CanonicalAddr)
    (nodup : order.Nodup) (p : Peer K) (can : CanonicalAddr) :
    (scan tick socket order p).1.sessions.find can =
      if can ∈ order then
        (p.sessions.find can).map fun (id, s) =>
          (id, (s.scan p.config tick (tick.retryClock can) socket).1)
      else p.sessions.find can := by
  induction order generalizing p with
  | nil => rfl
  | cons head rest ih =>
      obtain ⟨notMem, nodup⟩ := List.nodup_cons.mp nodup
      have first := scanSession_eq p tick socket head
      simp only [scan]
      rw [ih nodup, first]
      cases found : p.sessions.find head with
      | none =>
          by_cases isHead : can = head
          · subst isHead
            simp [notMem, found]
          · simp [isHead]
      | some entry =>
          obtain ⟨id, s⟩ := entry
          have config : ∀ s₁ out, ((p.setSession id s₁).submit (some id) out).config = p.config :=
            fun _ _ => rfl
          have sessions : ∀ s₁ out, ((p.setSession id s₁).submit (some id) out).sessions.find can =
              (p.setSession id s₁).sessions.find can := fun _ _ => rfl
          simp only [config, sessions]
          by_cases isHead : can = head
          · subst isHead
            simp only [notMem, ↓reduceIte, List.mem_cons_self, find_setSession found, found,
              Option.map_some]
          · simp only [find_setSession_other found _ isHead, List.mem_cons, isHead, false_or]

theorem updateTick_follows (p : Peer K) (tick : Tick) (socket : Socket)
    (nodup : tick.order.Nodup) : Follows (.tick tick socket) p (p.updateTick tick socket) := by
  intro can id s' found
  have removed := find_foldl_prune socket (scan tick socket tick.order p).2
    (scan tick socket tick.order p).1 can
  rw [find_scan tick socket tick.order nodup] at removed
  rw [updateTick, removed] at found
  split at found
  · cases found
  · split at found
    · obtain ⟨⟨id', s⟩, before, same⟩ := Option.map_eq_some_iff.mp found
      cases same
      exact Or.inl ⟨s, before, .scanned tick socket s⟩
    · exact Or.inl ⟨s', found, .same _ s'⟩

/-- Every session in the map is one that the operation stepped or put there. -/
theorem apply_follows {p p' : Peer K} {op : PeerOp} (applied : p.apply op = some p') :
    Follows op p p' := by
  cases op with
  | send peer data draw clock socket =>
      cases applied
      exact send_follows p peer data draw clock socket
  | disconnect peer socket =>
      cases applied
      exact disconnect_follows p peer socket
  | tick tick socket =>
      obtain ⟨perm, rfl⟩ := apply_tick applied
      have nodup := (List.isPerm_iff.mp perm).nodup_iff.mpr p.sessions.keys_nodup
      exact updateTick_follows p tick socket nodup
  | incoming data src clock socket =>
      cases applied
      exact handleIncoming_follows p data src clock socket

/-- What every step of a session keeps, and every new session has, all sessions in the
map keep. -/
theorem Follows.each {op : PeerOp} {p p' : Peer K} (follows : Follows op p p')
    {P : Session K → Prop} (each : ∀ can id s, p.sessions.find can = some (id, s) → P s)
    (keep : ∀ can id s s', p.sessions.find can = some (id, s) →
      SessionStep p.config can op s s' → P s → P s')
    (born : ∀ can s, SessionBirth p can op s → P s) :
    ∀ can id s, p'.sessions.find can = some (id, s) → P s := by
  intro can id s' found
  rcases follows can id s' found with ⟨s, before, step⟩ | ⟨_, birth⟩
  · exact keep can id s s' before step (each can id s before)
  · exact born can s' birth

end Peer

end KcpPeer
