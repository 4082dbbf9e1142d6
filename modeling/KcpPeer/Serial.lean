import KcpPeer.SampleKcp
import KcpPeer.SessionStep

set_option autoImplicit false

/- The atomic operations of a peer are what its tasks do when none of them is
interrupted. -/
namespace KcpPeer

namespace Tasks

variable {K : Type}

/-- No task is in the middle of anything. -/
structure AtRest (n : Tasks K) : Prop where
  recv : n.recv = .idle
  upd : n.upd = .idle
  calls : ∀ pc ∈ n.calls, pc = .done

variable [Kcp K]

/-- The tasks, run from here without new work, can end at rest with this peer. -/
inductive Performs (p : Peer K) : Tasks K → Prop
  | done {n : Tasks K} (rest : n.AtRest) (peer : n.peer = p) : Performs p n
  | step {n : Tasks K} (label : TaskStep) (n' : Tasks K) (taken : n.step label = some n')
      (later : Performs p n') : Performs p n

theorem Performs.reach {incarnation : UInt64} {config : KcpConfig} {n : Tasks K} {p : Peer K}
    (performs : Performs p n)
    (reached : (tasksMachine K incarnation config).Reach Machine.always n) :
    ∃ n', (tasksMachine K incarnation config).Reach Machine.always n' ∧ n'.peer = p ∧
      n'.AtRest := by
  induction performs with
  | done rest peer => exact ⟨_, reached, peer, rest⟩
  | step label n' taken _ ih => exact ih (.step reached trivial taken)

section Receive

variable {n : Tasks K} {p : Peer K}

/-- A step of the receive task that changes the peer. -/
theorem Performs.recv (clock : Clock) (socket : Socket) (peer : Peer K) (pc : RecvPc)
    (taken : n.recvStep clock socket = some { n with peer, recv := pc })
    (later : Performs p { n with peer, recv := pc }) : Performs p n :=
  .step (.recv clock socket) _ taken later

/-- The KcpData arm from the read of `last_rx` on. -/
theorem performs_feed {id : SessionId} {s : Session K} {payload : Bytes} (clock : Clock)
    (socket : Socket) (stamped : n.recv = .kcpStamped id payload) (upd : n.upd = .idle)
    (calls : ∀ pc ∈ n.calls, pc = .done) (present : n.peer.sessions.object? id = some s) :
    Performs
      (match s.input payload with
      | (s, .error _) => n.peer.setSession id s
      | (s, .ok _) =>
          match s.tryRecvAll with
          | (s, _, .error _) => n.peer.setSession id s
          | (s, [], .ok _) => n.peer.setSession id s
          | (s, msg :: msgs, .ok _) =>
              ((n.peer.setSession id s).appendData id s.peerAddr (msg :: msgs)).notify) n := by
  rcases fed : s.input payload with ⟨s₁, e | _⟩
  · refine .recv clock socket (n.peer.setSession id s₁) .idle ?_ ?_
    · simp only [recvStep, stamped, present, Option.map_some, fed]
    · exact .done ⟨rfl, upd, calls⟩ rfl
  · have written := Peer.object?_setSession n.peer s₁ present
    refine .recv clock socket (n.peer.setSession id s₁) (.kcpFed id) ?_ ?_
    · simp only [recvStep, stamped, present, Option.map_some, fed]
    · rcases drained : s₁.tryRecvAll with ⟨s₂, msgs, e | _⟩
      · refine .recv clock socket (n.peer.setSession id s₂) .idle ?_ ?_
        · simp only [recvStep, written, Option.map_some, drained, Peer.setSession_setSession]
        · exact .done ⟨rfl, upd, calls⟩ (by simp only [drained])
      · have read := Peer.object?_setSession n.peer s₂ present
        cases msgs with
        | nil =>
            refine .recv clock socket (n.peer.setSession id s₂) .idle ?_ ?_
            · simp only [recvStep, written, Option.map_some, drained, Peer.setSession_setSession]
            · exact .done ⟨rfl, upd, calls⟩ (by simp only [drained])
        | cons msg msgs =>
            refine .recv clock socket (n.peer.setSession id s₂) (.kcpDrained id (msg :: msgs)) ?_ ?_
            · simp only [recvStep, written, Option.map_some, drained, Peer.setSession_setSession]
            · refine .recv clock socket
                ((n.peer.setSession id s₂).appendData id s₂.peerAddr (msg :: msgs)) .kcpAppended
                ?_ (.recv clock socket _ .idle rfl (.done ⟨rfl, upd, calls⟩ ?_))
              · simp only [recvStep, read, Option.map_some]
              · simp only [drained]

variable {data payload : Bytes}

theorem performs_kcpData (rest : n.AtRest) (parsed : splitPacket data = some (.kcpData, payload))
    (src : SocketAddr) (clock : Clock) (socket : Socket) :
    Performs (n.peer.handleKcpData payload src clock socket).1 n := by
  cases found : n.peer.sessions.find (canonicalize src) with
  | none =>
      have absent := Store.find_eq_none.mp found
      refine .step (.arrive data src clock socket) { n with recv := .kcpUnknown src payload } ?_ ?_
      · simp only [step, rest.recv, ↓reduceIte, arrive, parsed, absent]
      · simp only [Peer.handleKcpData, found]
        cases read : readConv payload with
        | none =>
            refine .recv clock socket n.peer .idle ?_ (.done ⟨rfl, rest.upd, rest.calls⟩ rfl)
            simp only [recvStep, read]
        | some conv =>
            refine .recv clock socket (n.peer.sendReset conv src socket) .idle ?_
              (.done ⟨rfl, rest.upd, rest.calls⟩ rfl)
            simp only [recvStep, read]
  | some entry =>
      obtain ⟨id, s⟩ := entry
      obtain ⟨named, present⟩ := Store.find_eq_some.mp found
      refine .step (.arrive data src clock socket) { n with recv := .kcpFound id payload } ?_ ?_
      · simp only [step, rest.recv, ↓reduceIte, arrive, parsed, named]
      · refine .recv clock socket (n.peer.setSession id (s.touch clock.epochMs))
          (.kcpStamped id payload) ?_ ?_
        · simp only [recvStep, present, Option.map_some]
        · have feeds := performs_feed (n := { n with
              peer := n.peer.setSession id (s.touch clock.epochMs)
              recv := .kcpStamped id payload }) clock socket rfl rest.upd rest.calls
            (Peer.object?_setSession n.peer (s.touch clock.epochMs) present)
          simp only [Peer.setSession_setSession] at feeds
          simp only [Peer.handleKcpData, found]
          rcases fed : (s.touch clock.epochMs).input payload with ⟨s₁, e | _⟩
          · rw [fed] at feeds
            exact feeds
          · simp only [fed] at feeds ⊢
            rcases drained : s₁.tryRecvAll with ⟨s₂, msgs, e | _⟩
            · rw [drained] at feeds
              exact feeds
            · rw [drained] at feeds
              cases msgs with
              | nil => exact feeds
              | cons msg msgs => exact feeds

theorem performs_syn (rest : n.AtRest) (parsed : splitPacket data = some (.syn, payload))
    (src : SocketAddr) (clock : Clock) (socket : Socket) :
    Performs (n.peer.handleSyn payload src clock socket).1 n := by
  cases read : readConv payload with
  | none =>
      refine .step (.arrive data src clock socket) n ?_ (.done rest ?_)
      · simp only [step, rest.recv, ↓reduceIte, arrive, parsed, read]
      · simp only [Peer.handleSyn, read]
  | some conv =>
      cases bound : socket.localAddr with
      | error e =>
          refine .step (.arrive data src clock socket) n ?_ (.done rest ?_)
          · simp only [step, rest.recv, ↓reduceIte, arrive, parsed, read, bound]
          · simp only [Peer.handleSyn, read, bound]
      | ok myAddr =>
          rcases decided : n.peer.synDecide src conv myAddr clock socket with ⟨p₁, result⟩
          refine .step (.arrive data src clock socket)
            { n with peer := p₁, recv := .synDecided src conv result } ?_ ?_
          · simp only [step, rest.recv, ↓reduceIte, arrive, parsed, read, bound, decided]
          · simp only [Peer.handleSyn, read, bound, decided, Peer.synFinish]
            have acknowledged : result.action ≠ .createNew →
                Performs (p₁.synAcknowledge result socket)
                  { n with peer := p₁, recv := .synDecided src conv result } := by
              intro kept
              refine .recv clock socket (p₁.synAcknowledge result socket) .idle ?_
                (.done ⟨rfl, rest.upd, rest.calls⟩ rfl)
              cases action : result.action with
              | createNew => exact absurd action kept
              | keepExisting => simp only [recvStep, action]
              | ignore => simp only [recvStep, action]
            cases action : result.action with
            | keepExisting => exact acknowledged (by simp [action])
            | ignore => exact acknowledged (by simp [action])
            | createNew =>
                refine .recv clock socket (p₁.synAcknowledge result socket)
                  (.synCreating src conv) ?_ ?_
                · simp only [recvStep, action]
                · refine .recv clock socket _ (.synCreated src conv) rfl ?_
                  refine .recv clock socket
                    (((p₁.synAcknowledge result socket).sendSynAck conv src socket).synInsert src
                      conv clock) .idle ?_ (.done ⟨rfl, rest.upd, rest.calls⟩ rfl)
                  simp only [recvStep, writable, rest.upd, ↓reduceIte]

theorem performs_synAck (rest : n.AtRest) (parsed : splitPacket data = some (.synAck, payload))
    (src : SocketAddr) (clock : Clock) (socket : Socket) :
    Performs (n.peer.handleSynAck payload src clock socket).1 n := by
  cases read : readConv payload with
  | none =>
      refine .step (.arrive data src clock socket) n ?_ (.done rest ?_)
      · simp only [step, rest.recv, ↓reduceIte, arrive, parsed, read]
      · simp only [Peer.handleSynAck, read]
  | some conv =>
      refine .step (.arrive data src clock socket)
        { n with peer := n.peer.synAckAccept src conv clock socket } ?_
        (.done ⟨rest.recv, rest.upd, rest.calls⟩ ?_)
      · simp only [step, rest.recv, ↓reduceIte, arrive, parsed, read]
      · simp only [Peer.handleSynAck, read]

theorem performs_reset (rest : n.AtRest) (parsed : splitPacket data = some (.reset, payload))
    (src : SocketAddr) (clock : Clock) (socket : Socket) :
    Performs (n.peer.handleReset payload src).1 n := by
  simp only [Peer.handleReset]
  cases read : readConv payload with
  | none =>
      refine .step (.arrive data src clock socket) n ?_ (.done rest rfl)
      simp only [step, rest.recv, ↓reduceIte, arrive, parsed, read]
  | some conv =>
      cases found : n.peer.sessions.find (canonicalize src) with
      | none =>
          have absent := Store.find_eq_none.mp found
          refine .step (.arrive data src clock socket) n ?_ (.done rest rfl)
          simp only [step, rest.recv, ↓reduceIte, arrive, parsed, read, absent]
      | some entry =>
          obtain ⟨id, s⟩ := entry
          obtain ⟨named, present⟩ := Store.find_eq_some.mp found
          refine .step (.arrive data src clock socket)
            { n with recv := .resetFound src conv id } ?_ ?_
          · simp only [step, rest.recv, ↓reduceIte, arrive, parsed, read, named]
          · by_cases same : s.inner.convId = conv
            · simp only [same, ↓reduceIte]
              refine .recv clock socket n.peer (.resetMatched src conv id) ?_ ?_
              · simp only [recvStep, present, Option.map_some, same, ↓reduceIte]
              · refine .step (.recv clock socket) { n with
                  peer := n.peer.removeKey (canonicalize src)
                  recv := .resetRemoved src id
                  removals := n.removals ++ [.reset id s.inner.convId conv] } ?_ ?_
                · simp only [step, recvStep, writable, rest.upd, ↓reduceIte, found, Option.map_some,
                    Option.toList_some]
                · refine .recv clock socket
                    ((n.peer.removeKey (canonicalize src)).setSession id s.markClosed)
                    (.resetClosed src id) ?_
                    (.recv clock socket _ .idle rfl (.done ⟨rfl, rest.upd, rest.calls⟩ rfl))
                  have kept : (n.peer.removeKey (canonicalize src)).sessions.object? id = some s :=
                    present
                  simp only [recvStep, kept, Option.map_some]
            · simp only [same, ↓reduceIte]
              refine .recv clock socket n.peer .idle ?_ (.done ⟨rfl, rest.upd, rest.calls⟩ rfl)
              simp only [recvStep, present, Option.map_some, same, ↓reduceIte]

theorem performs_incoming (rest : n.AtRest) (data : Bytes) (src : SocketAddr) (clock : Clock)
    (socket : Socket) : Performs (n.peer.handleIncoming data src clock socket).1 n := by
  unfold Peer.handleIncoming
  split
  · rename_i parsed
    refine .step (.arrive data src clock socket) n ?_ (.done rest rfl)
    simp only [step, rest.recv, ↓reduceIte, arrive, parsed]
  · rename_i parsed
    exact performs_kcpData rest parsed src clock socket
  · rename_i parsed
    exact performs_syn rest parsed src clock socket
  · rename_i parsed
    exact performs_synAck rest parsed src clock socket
  · rename_i parsed
    exact performs_reset rest parsed src clock socket

end Receive

section Call

/-- The tasks with this peer and one more call. -/
def calling (n : Tasks K) (p : Peer K) (pc : SendPc) : Tasks K :=
  { n with peer := p, calls := n.calls ++ [pc] }

variable {n : Tasks K} {p q : Peer K}

omit [Kcp K] in
theorem setCall_calling (n : Tasks K) (q : Peer K) (pc pc' : SendPc) :
    (n.calling q pc).setCall n.calls.length pc' = n.calling q pc' := by
  simp only [setCall, calling, List.set_append_right _ _ (Nat.le_refl _), Nat.sub_self,
    List.set_cons_zero]

omit [Kcp K] in
theorem getElem?_calling (n : Tasks K) (q : Peer K) (pc : SendPc) :
    (n.calling q pc).calls[n.calls.length]? = some pc := by
  change (n.calls ++ [pc])[n.calls.length]? = some pc
  rw [List.getElem?_append_right (Nat.le_refl _), Nat.sub_self, List.getElem?_cons_zero]

omit [Kcp K] in
theorem calling_done (rest : n.AtRest) (q : Peer K) : (n.calling q .done).AtRest := by
  refine ⟨rest.recv, rest.upd, ?_⟩
  intro pc mem
  rcases List.mem_append.mp mem with old | new
  · exact rest.calls pc old
  · exact List.mem_singleton.mp new

/-- A step of the new call that leaves the peer alone. -/
theorem Performs.advance {pc : SendPc} (pc' : SendPc) (draw : DrawnConv) (clock : Clock)
    (socket : Socket)
    (taken : (n.calling q pc).callStep n.calls.length draw clock socket pc =
      some ((n.calling q pc).setCall n.calls.length pc'))
    (later : Performs p (n.calling q pc')) : Performs p (n.calling q pc) := by
  refine .step (.advance n.calls.length draw clock socket) (n.calling q pc') ?_ later
  rw [← setCall_calling n q pc pc', ← taken]
  simp only [Tasks.step, getElem?_calling, Option.bind_some]

/-- A step of the new call that changes the peer. -/
theorem Performs.advance_peer {pc : SendPc} (m : Tasks K) (draw : DrawnConv) (clock : Clock)
    (socket : Socket)
    (taken : (n.calling q pc).callStep n.calls.length draw clock socket pc = some m)
    (later : Performs p m) : Performs p (n.calling q pc) := by
  refine .step (.advance n.calls.length draw clock socket) m ?_ later
  simp only [Tasks.step, getElem?_calling, Option.bind_some, taken]

/-- The call has its session and hands it the payload. -/
theorem performs_sendOn (rest : n.AtRest) {id : SessionId} {s : Session K}
    (present : q.sessions.object? id = some s) (data : Bytes) (draw : DrawnConv) (clock : Clock)
    (socket : Socket) :
    Performs (q.sendOn id s data clock socket).1 (n.calling q (.holding id data)) := by
  have object : (n.calling q (.holding id data)).peer.sessions.object? id = some s := present
  cases closed : s.closed with
  | true =>
      refine .advance .done draw clock socket ?_ (.done (calling_done rest q) ?_)
      · simp only [callStep, object, Option.map_some, closed, ↓reduceIte]
      · simp only [Peer.sendOn, Session.sendData, closed, ↓reduceIte]
        exact (Peer.setSession_submit_nothing present (some id)).symm
  | false =>
      refine .advance (.opened id data) draw clock socket ?_ ?_
      · simp only [callStep, object, Option.map_some, closed, Bool.false_eq_true, ↓reduceIte]
      · rcases queued : s.queueData data clock.currentMs socket with ⟨s', out, result⟩
        have object : (n.calling q (.opened id data)).peer.sessions.object? id = some s := present
        let m : Tasks K := { n with
          accepted := if result.isOk then n.accepted ++ [(id, data)] else n.accepted }
        have rest' : m.AtRest := ⟨rest.recv, rest.upd, rest.calls⟩
        refine .advance_peer (m.calling ((q.setSession id s').submit (some id) out) .done) draw
          clock socket ?_ (.done (calling_done rest' _) ?_)
        · simp only [callStep, object, Option.map_some, queued]
          exact congrArg some (setCall_calling m ((q.setSession id s').submit (some id) out)
            (.opened id data) .done)
        · simp only [Peer.sendOn, Session.sendData, closed, Bool.false_eq_true, ↓reduceIte, queued]
          rfl

theorem performs_send (rest : n.AtRest) (peer : SocketAddr) (data : Bytes) (draw : DrawnConv)
    (clock : Clock) (socket : Socket) :
    Performs (n.peer.send peer data draw clock socket).1 n := by
  refine .step (.call peer data) (n.calling n.peer (.called peer data)) rfl ?_
  unfold Peer.send
  cases found : n.peer.sessions.find (canonicalize peer) with
  | some entry =>
      obtain ⟨id, s⟩ := entry
      obtain ⟨named, present⟩ := Store.find_eq_some.mp found
      have lookup : (n.calling n.peer (.called peer data)).peer.sessions.lookup
        (canonicalize peer) = some id := named
      refine .advance (.holding id data) draw clock socket ?_
        (performs_sendOn rest present data draw clock socket)
      simp only [callStep, lookup]
  | none =>
      have absent := Store.find_eq_none.mp found
      have lookup : ∀ pc, (n.calling n.peer pc).peer.sessions.lookup (canonicalize peer) = none :=
        fun _ => absent
      let s : Session K := .newOutbound draw.val peer n.peer.incarnation n.peer.config clock.epochMs
      let q := n.peer.insertSession (canonicalize peer) s
      have inserted : q.sessions.object? n.peer.sessions.fresh = some s :=
        Peer.object?_insertSession n.peer (canonicalize peer) s
      have opened := Peer.object?_initiateSession n.peer peer draw clock socket
      refine .advance (.missing peer data) draw clock socket (by simp only [callStep, lookup]) ?_
      refine .advance (.creating peer data) draw clock socket (by simp only [callStep, lookup]) ?_
      refine .advance_peer (n.calling q (.inserted n.peer.sessions.fresh data)) draw clock socket
        ?_ ?_
      · have free : (n.calling n.peer (.creating peer data)).writable = true := by
          simp only [writable, calling, rest.upd]
        simp only [callStep, free, ↓reduceIte, lookup]
        exact congrArg some (setCall_calling n q (.creating peer data) _)
      refine .advance (.greeting n.peer.sessions.fresh s.inner.convId data) draw clock socket ?_ ?_
      · have object : (n.calling q (.inserted n.peer.sessions.fresh data)).peer.sessions.object?
          n.peer.sessions.fresh = some s := inserted
        simp only [callStep, object, Option.map_some]
      refine .advance_peer (n.calling (n.peer.initiateSession peer draw clock socket).1
        (.holding n.peer.sessions.fresh data)) draw clock socket ?_
        (performs_sendOn rest opened data draw clock socket)
      have object : (n.calling q (.greeting n.peer.sessions.fresh s.inner.convId
        data)).peer.sessions.object? n.peer.sessions.fresh = some s := inserted
      simp only [callStep, object, Option.map_some]
      exact congrArg some (setCall_calling n (n.peer.initiateSession peer draw clock socket).1
        (.greeting n.peer.sessions.fresh s.inner.convId data) _)

theorem performs_disconnect (rest : n.AtRest) (peer : SocketAddr) (socket : Socket) :
    Performs (n.peer.disconnect peer socket) n := by
  refine .step (.disconnect peer socket) { n with peer := n.peer.disconnect peer socket } ?_
    (.done ⟨rest.recv, rest.upd, rest.calls⟩ rfl)
  simp only [step, writable, rest.upd, ↓reduceIte]

end Call

section Update

variable {n : Tasks K} {p : Peer K} {tick : Tick}

/-- A step of the update task. -/
theorem Performs.upd (now : UInt64) (socket : Socket) (peer : Peer K) (pc : UpdPc)
    (taken : n.updStep now socket = some { n with peer, upd := pc })
    (later : Performs p { n with peer, upd := pc }) : Performs p n :=
  .step (.upd now socket) _ taken later

/-- A step of the scan at its current key. -/
theorem Performs.scanning {scan : Scan} {phase : ScanPhase} {can : CanonicalAddr}
    {rest : List CanonicalAddr} {id : SessionId} {s : Session K} (now : UInt64) (socket : Socket)
    (scanning : n.upd = .scanning scan phase) (keys : scan.keys = can :: rest)
    (found : n.peer.sessions.find can = some (id, s))
    (later : Performs p (n.scanStep scan can id s now socket phase)) : Performs p n := by
  refine .step (.upd now socket) _ ?_ later
  simp only [Tasks.step, updStep, scanning, keys, found, Option.map_some]

section Visit

variable {scan : Scan} {can : CanonicalAddr} {rest : List CanonicalAddr} {id : SessionId}
  {s : Session K}

/-- The last look at the session under the current key. -/
theorem performs_age (socket : Socket) (scanning : n.upd = .scanning scan .age)
    (nowEpoch : scan.nowEpoch = tick.nowEpoch) (keys : scan.keys = can :: rest)
    (found : n.peer.sessions.find can = some (id, s))
    (later : ∀ finding, Performs p { n with
      upd := .scanning (if s.idleExpired n.peer.config tick.nowEpoch then
        scan.judge can ⟨id, finding⟩ else scan.skip) .check }) :
    Performs p n := by
  refine .scanning (tick.retryClock can) socket scanning keys found ?_
  simp only [scanStep, nowEpoch]
  cases expired : s.idleExpired n.peer.config tick.nowEpoch with
  | true =>
      simp only [expired, ↓reduceIte] at later
      simp only [↓reduceIte]
      exact later _
  | false =>
      simp only [expired, Bool.false_eq_true, ↓reduceIte] at later
      simp only [Bool.false_eq_true, ↓reduceIte]
      exact later (.deadLink true)

/-- The steps from the retry on: its result, or the age, decides whether the key is judged. -/
theorem performs_retry (socket : Socket) (scanning : n.upd = .scanning scan .retry)
    (nowEpoch : scan.nowEpoch = tick.nowEpoch) (keys : scan.keys = can :: rest)
    (found : n.peer.sessions.find can = some (id, s)) (isOpen : s.closed = false)
    {s' : Session K} {out : List Submission} {r : Except (Error K) Bool} {dead : Bool}
    (retry : s.maybeRetrySyn n.peer.config tick.nowEpoch (tick.retryClock can) socket =
      (s', out, r))
    (verdict : dead = true ↔
      r = .error .deadLink ∨ s'.idleExpired n.peer.config tick.nowEpoch = true)
    (later : ∀ finding, Performs p { n with
      peer := (n.peer.setSession id s').submit (some id) out
      upd := .scanning (if dead then scan.judge can ⟨id, finding⟩ else scan.skip) .check }) :
    Performs p n := by
  refine .scanning (tick.retryClock can) socket scanning keys found ?_
  simp only [scanStep, isOpen, Bool.false_eq_true, ↓reduceIte]
  simp only [Session.maybeRetrySyn, isOpen, Bool.false_eq_true, ↓reduceIte] at retry
  have found' : ((n.peer.setSession id s').submit (some id) out).sessions.find can =
    some (id, s') := Peer.find_setSession found s'
  cases state : s.inner.state with
  | established =>
      simp only [state, Prod.mk.injEq] at retry
      obtain ⟨rfl, rfl, rfl⟩ := retry
      have same : dead = s.idleExpired n.peer.config tick.nowEpoch :=
        Bool.eq_iff_iff.mpr (verdict.trans (or_iff_right (by simp)))
      rw [Peer.setSession_submit_nothing (Store.find_eq_some.mp found).2, same] at later
      exact performs_age socket rfl nowEpoch keys found later
  | synSent =>
      simp only [state] at retry
      refine .scanning (tick.retryClock can) socket rfl keys found ?_
      simp only [scanStep, nowEpoch, retry]
      by_cases ended : r = .error .deadLink
      · subst ended
        rw [verdict.mpr (Or.inl rfl)] at later
        exact later _
      · have same : dead = s'.idleExpired n.peer.config tick.nowEpoch :=
          Bool.eq_iff_iff.mpr (verdict.trans (or_iff_right ended))
        rw [same] at later
        rcases r with (e | b)
        · cases e with
          | deadLink => exact absurd rfl ended
          | _ => exact performs_age socket rfl nowEpoch keys found' later
        · exact performs_age socket rfl nowEpoch keys found' later

/-- The scan has visited its current key, with this verdict where it found one. -/
def visited (n : Tasks K) (tick : Tick) (socket : Socket) (can : CanonicalAddr) (scan : Scan)
    (judged : Verdict) : Tasks K :=
  let (peer, dead) := n.peer.scanSession tick socket can
  { n with peer, upd := .scanning (if dead then scan.judge can judged else scan.skip) .check }

theorem performs_scanSession (socket : Socket) (scanning : n.upd = .scanning scan .check)
    (nowMs : scan.nowMs = tick.nowMs) (nowEpoch : scan.nowEpoch = tick.nowEpoch)
    (keys : scan.keys = can :: rest) (found : n.peer.sessions.find can = some (id, s))
    (later : ∀ finding, Performs p (n.visited tick socket can scan ⟨id, finding⟩)) :
    Performs p n := by
  refine .scanning (tick.retryClock can) socket scanning keys found ?_
  simp only [visited, Peer.scanSession, found] at later
  cases closed : s.closed with
  | true =>
      simp only [closed, ↓reduceIte, Bool.false_eq_true] at later
      simp only [scanStep, closed, ↓reduceIte]
      exact later (.deadLink true)
  | false =>
      simp only [closed, Bool.false_eq_true, ↓reduceIte] at later
      simp only [scanStep, closed, Bool.false_eq_true, ↓reduceIte]
      refine .scanning (tick.retryClock can) socket rfl keys found ?_
      simp only [scanStep, nowMs]
      have updatedView := Session.view_update s tick.nowMs socket
      rcases updated : s.update tick.nowMs socket with ⟨s₁, out, r⟩
      rw [updated] at updatedView later
      have open₁ : s₁.closed = false := (congrArg View.closed updatedView).trans closed
      have found₁ : ((n.peer.setSession id s₁).submit (some id) out).sessions.find can =
        some (id, s₁) := Peer.find_setSession found s₁
      have config : ((n.peer.setSession id s₁).submit (some id) out).config = n.peer.config := rfl
      rcases retry : s₁.maybeRetrySyn n.peer.config tick.nowEpoch (tick.retryClock can) socket
        with ⟨s₂, out', r'⟩
      rcases r with (e | waiting)
      · cases e with
        | deadLink => exact later _
        | _ =>
            simp only [config, retry] at later
            rcases r' with (e' | b)
            · cases e' <;> exact performs_retry socket rfl nowEpoch keys found₁ open₁ retry
                (by simp [config]) later
            · exact performs_retry socket rfl nowEpoch keys found₁ open₁ retry
                (by simp [config]) later
      · simp only [config, retry] at later
        rcases r' with (e' | b)
        · cases e' <;> exact performs_retry socket rfl nowEpoch keys found₁ open₁ retry
                (by simp [config]) later
        · exact performs_retry socket rfl nowEpoch keys found₁ open₁ retry
                (by simp [config]) later

end Visit

theorem performs_prunes (socket : Socket) (toRemove : List (CanonicalAddr × Verdict))
    {horizon : Nat} (removing : n.upd = .removing toRemove horizon) (recv : n.recv = .idle)
    (calls : ∀ pc ∈ n.calls, pc = .done) :
    Performs ((toRemove.map Prod.fst).foldl (Peer.prune socket) n.peer) n := by
  induction toRemove generalizing n with
  | nil =>
      refine .upd 0 socket n.peer .idle ?_ (.done ⟨recv, rfl, calls⟩ rfl)
      simp only [updStep, removing]
  | cons entry rest ih =>
      obtain ⟨can, judged⟩ := entry
      let m : Tasks K := { n with
        peer := Peer.prune socket n.peer can
        upd := .removing rest horizon
        removals := n.removals ++
          ((n.peer.sessions.lookup can).map fun id => Removal.update id judged).toList }
      refine .step (.upd 0 socket) m ?_ ?_
      · simp only [step, updStep, removing]
        rfl
      · exact ih (n := m) rfl recv calls

/-- The scan of the keys that are left, and the removals after it. -/
theorem performs_scan (socket : Socket) (keys : List CanonicalAddr) {w : Scan}
    (scanning : n.upd = .scanning w .check) (left : w.keys = keys)
    (nowMs : w.nowMs = tick.nowMs) (nowEpoch : w.nowEpoch = tick.nowEpoch)
    (mapped : ∀ can ∈ keys, ∃ id, n.peer.sessions.lookup can = some id)
    (recv : n.recv = .idle) (calls : ∀ pc ∈ n.calls, pc = .done) :
    Performs ((w.toRemove.map Prod.fst ++ (Peer.scan tick socket keys n.peer).2).foldl
      (Peer.prune socket) (Peer.scan tick socket keys n.peer).1) n := by
  induction keys generalizing n w with
  | nil =>
      refine .upd 0 socket n.peer (.removing w.toRemove w.horizon) ?_ ?_
      · simp only [updStep, scanning, left]
      · rw [Peer.scan, List.append_nil]
        exact performs_prunes (n := { n with upd := .removing w.toRemove w.horizon }) socket
          w.toRemove rfl recv calls
  | cons can rest ih =>
      obtain ⟨id, named⟩ := mapped can List.mem_cons_self
      obtain ⟨s, found⟩ := Store.find_of_lookup named
      refine performs_scanSession socket scanning nowMs nowEpoch left found fun finding => ?_
      have visible := Peer.registry_scanSession n.peer tick socket can
      rcases scanned : n.peer.scanSession tick socket can with ⟨q, dead⟩
      rw [scanned] at visible
      have mapped' : ∀ key ∈ rest, ∃ id, q.sessions.lookup key = some id := by
        intro key mem
        obtain ⟨id', named'⟩ := mapped key (List.mem_cons_of_mem _ mem)
        exact ⟨id', (congrArg (fun r => r.sessions.lookup key) visible).trans named'⟩
      simp only [visited, scanned, Peer.scan]
      cases dead with
      | false =>
          simp only [Bool.false_eq_true, ↓reduceIte]
          exact ih (n := { n with peer := q, upd := .scanning w.skip .check }) (w := w.skip)
            rfl (by simp only [Scan.skip, left, List.tail_cons]) nowMs nowEpoch mapped' recv calls
      | true =>
          simp only [↓reduceIte]
          have later := ih (n := { n with
            peer := q, upd := .scanning (w.judge can ⟨id, finding⟩) .check })
            (w := w.judge can ⟨id, finding⟩)
            rfl (by simp only [Scan.judge, left, List.tail_cons]) nowMs nowEpoch mapped' recv calls
          simp only [Scan.judge, List.map_append, List.map_cons, List.map_nil, List.append_assoc,
            List.cons_append, List.nil_append] at later
          exact later

theorem performs_tick (rest : n.AtRest) (socket : Socket)
    (iterates : tick.order.isPerm n.peer.sessions.keys) :
    Performs (n.peer.updateTick tick socket) n := by
  have perm := List.isPerm_iff.mp iterates
  cases keys : n.peer.sessions.keys with
  | nil =>
      -- the fast path of the loop
      have order : tick.order = [] := by simpa [keys] using perm
      refine .step (.tick tick.nowMs tick.nowEpoch) n ?_ (.done rest ?_)
      · simp only [step, rest.upd, ↓reduceIte, keys, List.isEmpty_nil]
      · simp only [Peer.updateTick, order, Peer.scan, List.foldl_nil]
  | cons key others =>
      refine .step (.tick tick.nowMs tick.nowEpoch)
        { n with upd := .started tick.nowMs tick.nowEpoch } ?_ ?_
      · simp only [step, rest.upd, ↓reduceIte, keys, List.isEmpty_cons, Bool.false_eq_true]
      · let scan : Scan := ⟨tick.nowMs, tick.nowEpoch, tick.order, [], n.peer.sessions.fresh⟩
        refine .step (.scan tick.order) { n with upd := .scanning scan .check } ?_ ?_
        · simp only [step, iterates, ↓reduceIte]
          rfl
        · exact performs_scan (n := { n with upd := .scanning scan .check }) (w := scan) socket
            tick.order rfl rfl rfl rfl (fun can mem => Store.mem_keys_iff.mp (perm.mem_iff.mp mem))
            rest.recv rest.calls

end Update

/-- Tasks at rest perform every atomic operation. -/
theorem performs_apply {n : Tasks K} {op : PeerOp} {p : Peer K} (rest : n.AtRest)
    (applied : n.peer.apply op = some p) : Performs p n := by
  cases op with
  | send peer data draw clock socket =>
      obtain rfl := Option.some.inj applied
      exact performs_send rest peer data draw clock socket
  | disconnect peer socket =>
      obtain rfl := Option.some.inj applied
      exact performs_disconnect rest peer socket
  | tick tick socket =>
      obtain ⟨iterates, rfl⟩ := Peer.apply_tick applied
      exact performs_tick rest socket iterates
  | incoming data src clock socket =>
      obtain rfl := Option.some.inj applied
      exact performs_incoming rest data src clock socket

end Tasks

/-- What a run of atomic operations can reach, the tasks can reach too, and stand at
rest there: an atomic operation is the run of its sections that nothing interrupts. -/
theorem atomic_runs_are_task_runs (K : Type) [Kcp K] (incarnation : UInt64) (config : KcpConfig)
    (p : Peer K) (reached : (peerMachine K incarnation config).Reach Machine.always p) :
    ∃ n, (tasksMachine K incarnation config).Reach Machine.always n ∧ n.peer = p ∧ n.AtRest := by
  refine reached.simulate (fun p (n : Tasks K) => n.peer = p ∧ n.AtRest)
    ⟨rfl, rfl, rfl, fun _ mem => absurd mem List.not_mem_nil⟩ ?_
  rintro before op after image _ imageReached ⟨rfl, rest⟩ _ applied
  exact (Tasks.performs_apply rest applied).reach imageReached

/-- An accepted SYN, a reply to it and a tick. -/
theorem atomic_runs_are_task_runs_accepted :
    ∃ n, (tasksMachine SampleKcp 1 .default).Reach Machine.always n ∧ n.AtRest ∧
      n.peer.log = [.event (.connected .remote) 0] ∧ n.peer.outbox.length = 2 := by
  have run : ((peerMachine SampleKcp 1 .default).exec Machine.always
      (peerMachine SampleKcp 1 .default).start
      [.incoming (encodeControl .syn 20) .remote .sample .sample,
        .send .remote [7] .ten .sample .sample,
        .tick ⟨1000, 1000, fun _ => 1000, [canonicalize .remote]⟩ .sample]).any
      (fun p => decide (p.log = [.event (.connected .remote) 0] ∧ p.outbox.length = 2)) = true := by
    decide +kernel
  obtain ⟨p, reached, checked⟩ := Machine.Reach.exec_any _ run
  obtain ⟨n, reached', same, rest⟩ := atomic_runs_are_task_runs SampleKcp 1 .default p reached
  exact ⟨n, reached', rest, same ▸ of_decide_eq_true checked⟩

end KcpPeer
