import KcpPeer.KcpSpec
import KcpPeer.Simulation

set_option autoImplicit false

namespace KcpPeer

variable {K : Type}

/-- The socket takes every datagram. -/
def Socket.Reliable (socket : Socket) : Prop :=
  ∀ bytes dest, ∃ sent, socket.sendTo bytes dest = .ok sent

theorem Socket.Reliable.accepted {socket : Socket} (reliable : socket.Reliable) (bytes : Bytes)
    (dest : SocketAddr) : (socket.submit bytes dest).accepted = true := by
  obtain ⟨sent, taken⟩ := reliable bytes dest
  simp only [Socket.submit, taken]
  rfl

/-- A submission goes to `addr` and is taken, and data carries the conversation
id of the established session. -/
def Peer.Addressed (addr : SocketAddr) (p : Peer K) (o : Outgoing) : Prop :=
  o.accepted = true ∧ o.dest = addr ∧
    ∀ d, o.msg = .data d → ∃ conv, p.slot (canonicalize addr) = some (.established, conv) ∧
      d = some conv

/-- Control packets need no session. -/
theorem Peer.addressed_control {socket : Socket} (reliable : socket.Reliable) (p : Peer K)
    (addr : SocketAddr) (origin : Option SessionId) {bytes : Bytes}
    (control : ∀ d, Msg.decode bytes ≠ .data d) :
    p.Addressed addr ⟨socket.submit bytes addr, origin⟩ :=
  ⟨reliable.accepted bytes addr, rfl, fun d isData => absurd isData (control d)⟩

variable [Kcp K]

/-- The instance of a session writes the session's conversation id. -/
structure Session.Coherent (c : ConvStamp K) (s : Session K) : Prop where
  conv : c.conv s.inner.kcp = s.inner.convId
  uniform : c.Uniform s.inner.kcp
  unsent : s.inner.state = .synSent → c.Unsent s.inner.kcp

namespace Session

variable {c : ConvStamp K}

theorem Coherent.of_new (config : KcpConfig) {s : Session K}
    (created : s.inner.kcp = config.applyTo (Kcp.new s.inner.convId)) : s.Coherent c := by
  obtain ⟨conv, unsent⟩ := c.silents (config.applyTo_quiets (Kcp.new s.inner.convId)).silents
  rw [← created] at conv unsent
  have fresh := unsent (c.unsent_new _)
  exact ⟨conv.trans (c.conv_new _), c.uniform_unsent _ fresh, fun _ => fresh⟩

/-- Coherence is about the instance, the conversation id and the state. -/
theorem Coherent.same {s s' : Session K} (ok : s.Coherent c) (kcp : s'.inner.kcp = s.inner.kcp)
    (view : s'.inner.state = s.inner.state ∧ s'.inner.convId = s.inner.convId) :
    s'.Coherent c := by
  obtain ⟨state, conv⟩ := view
  refine ⟨?_, ?_, ?_⟩
  · rw [kcp, conv]
    exact ok.conv
  · rw [kcp]
    exact ok.uniform
  · rw [kcp, state]
    exact ok.unsent

theorem Coherent.adopt {s : Session K} (ok : s.Coherent c) (waiting : s.inner.state = .synSent)
    (conv : UInt32) (now : UInt64) : (s.adopt conv now).Coherent c := by
  have unsent := c.unsent_setConv _ conv (ok.unsent waiting)
  exact ⟨c.conv_setConv _ _, c.uniform_unsent _ unsent, fun _ => unsent⟩

theorem Coherent.establish {s : Session K} (ok : s.Coherent c) (now : UInt64) :
    (s.establish now).Coherent c :=
  ⟨ok.conv, ok.uniform, fun waiting => nomatch waiting⟩

/-- Output leaves a session coherent and carries its conversation id. -/
theorem Coherent.writes {s s' : Session K} {socket : Socket} {out : List Submission}
    (ok : s.Coherent c) (written : Writes s s' socket out) (view : s'.view = s.view) :
    s'.Coherent c ∧ ∀ submission ∈ out, ∃ buf, submission = socket.submit (encodeKcpData buf)
      s.peerAddr ∧ readConv buf = some s.inner.convId ∧ s.inner.state = .established := by
  obtain ⟨bufs, calls, rfl, waits⟩ := written
  obtain ⟨uniform, conv, output⟩ := c.run calls ok.uniform
  have sameConv : s'.inner.convId = s.inner.convId := congrArg View.convId view
  have sameState : s'.inner.state = s.inner.state := congrArg View.state view
  refine ⟨⟨?_, uniform, ?_⟩, ?_⟩
  · rw [conv, ok.conv, sameConv]
  · intro waiting
    rw [sameState] at waiting
    exact (c.silents (waits waiting).2).2 (ok.unsent waiting)
  · intro submission mem
    obtain ⟨buf, written, rfl⟩ := List.mem_map.mp mem
    refine ⟨buf, rfl, (output buf written).trans (congrArg some ok.conv), ?_⟩
    cases state : s.inner.state with
    | established => rfl
    | synSent =>
        rw [(waits state).1] at written
        cases written

end Session

namespace Peer

variable {c : ConvStamp K} {addr : SocketAddr}

/-- Every session is for `addr` and coherent. -/
def Stamped (c : ConvStamp K) (addr : SocketAddr) (p : Peer K) : Prop :=
  ∀ id s, p.sessions.object? id = some s → s.peerAddr = addr ∧ s.Coherent c

structure Coherent (c : ConvStamp K) (addr : SocketAddr) (p : Peer K) : Prop where
  stamped : p.Stamped c addr
  outbox : ∀ o ∈ p.outbox, p.Addressed addr o

theorem Stamped.idle {p : Peer K} (ok : p.Stamped c addr) (idle : p.outbox = []) :
    p.Coherent c addr := by
  refine ⟨ok, ?_⟩
  intro o mem
  rw [idle] at mem
  cases mem

/-- A step that touches neither the sessions nor the outbox. -/
theorem Coherent.same {p p' : Peer K} (ok : p.Coherent c addr)
    (sessions : p'.sessions = p.sessions) (outbox : p'.outbox = p.outbox) :
    p'.Coherent c addr := by
  have slot : p'.slot (canonicalize addr) = p.slot (canonicalize addr) := by
    rw [slot_eq, slot_eq, sessions]
  refine ⟨?_, ?_⟩
  · intro id s present
    rw [sessions] at present
    exact ok.stamped id s present
  · intro o mem
    rw [outbox] at mem
    unfold Addressed
    rw [slot]
    exact ok.outbox o mem

theorem Coherent.emit {p : Peer K} (ok : p.Coherent c addr) (e : Event) (id : SessionId) :
    (p.emit e id).Coherent c addr :=
  ok.same rfl rfl

theorem Coherent.submit {p : Peer K} (ok : p.Coherent c addr) (origin : Option SessionId)
    {out : List Submission}
    (addressed : ∀ submission ∈ out, p.Addressed addr ⟨submission, origin⟩) :
    (p.submit origin out).Coherent c addr := by
  refine ⟨ok.stamped, ?_⟩
  intro o mem
  rcases List.mem_append.mp mem with mem | mem
  · exact ok.outbox o mem
  · obtain ⟨submission, sent, rfl⟩ := List.mem_map.mp mem
    exact addressed submission sent

theorem Stamped.setSession {p : Peer K} (ok : p.Stamped c addr) (id : SessionId) (s : Session K)
    (home : s.peerAddr = addr) (coherent : s.Coherent c) : (p.setSession id s).Stamped c addr := by
  intro id' s' present
  rw [Peer.setSession, Store.object?_modify] at present
  split at present
  · obtain ⟨_, _, rfl⟩ := Option.map_eq_some_iff.mp present
    exact ⟨home, coherent⟩
  · exact ok id' s' present

theorem Stamped.insertSession {p : Peer K} (ok : p.Stamped c addr) (can : CanonicalAddr)
    (s : Session K) (home : s.peerAddr = addr) (coherent : s.Coherent c) :
    (p.insertSession can s).Stamped c addr := by
  intro id' s' present
  rw [Peer.insertSession, Store.object?_insertNew] at present
  split at present
  · cases present
    exact ⟨home, coherent⟩
  · exact ok id' s' present

/-- A session's output is written back and submitted. -/
theorem Coherent.write {p : Peer K} (ok : p.Coherent c addr) {id : SessionId}
    {s s₁ s' : Session K} {socket : Socket} {out : List Submission}
    (found : p.sessions.find (canonicalize addr) = some (id, s)) (coherent : s₁.Coherent c)
    (home : s₁.peerAddr = addr) (written : Session.Writes s₁ s' socket out)
    (view : s'.view = s₁.view) (reliable : socket.Reliable)
    (quiet : p.outbox = [] ∨ s'.view = s.view) :
    ((p.setSession id s').submit (some id) out).Coherent c addr := by
  obtain ⟨coherent', output⟩ := coherent.writes written view
  have home' : s'.peerAddr = addr := (congrArg View.peerAddr view).trans home
  have slot : (p.setSession id s').slot (canonicalize addr) =
      some (s'.inner.state, s'.inner.convId) := slot_some (find_setSession found s')
  have wrote : (p.setSession id s').Coherent c addr := by
    refine ⟨ok.stamped.setSession id s' home' coherent', ?_⟩
    intro o mem
    rcases quiet with idle | same
    · rw [show (p.setSession id s').outbox = p.outbox from rfl, idle] at mem
      cases mem
    · obtain ⟨accepted, dest, carries⟩ := ok.outbox o mem
      refine ⟨accepted, dest, ?_⟩
      intro d isData
      rw [slot, show s'.inner.state = s.inner.state from congrArg View.state same,
        show s'.inner.convId = s.inner.convId from congrArg View.convId same, ← slot_some found]
      exact carries d isData
  refine wrote.submit (some id) ?_
  intro submission mem
  obtain ⟨buf, rfl, stamp, ready⟩ := output submission mem
  refine ⟨reliable.accepted .., home, ?_⟩
  intro d isData
  have carried : d = readConv buf := by
    simpa [Outgoing.msg, Socket.submit] using isData.symm
  refine ⟨s₁.inner.convId, ?_, carried.trans stamp⟩
  rw [slot, show s'.inner.state = s₁.inner.state from congrArg View.state view,
    show s'.inner.convId = s₁.inner.convId from congrArg View.convId view, ready]

theorem Coherent.sendSynAck {p : Peer K} (ok : p.Coherent c addr) (conv : UInt32)
    {socket : Socket} (reliable : socket.Reliable) :
    (p.sendSynAck conv addr socket).Coherent c addr := by
  refine ok.submit none ?_
  intro submission mem
  cases List.mem_singleton.mp mem
  exact addressed_control reliable p addr none (by simp)

theorem Coherent.sendReset {p : Peer K} (ok : p.Coherent c addr) (conv : UInt32)
    {socket : Socket} (reliable : socket.Reliable) :
    (p.sendReset conv addr socket).Coherent c addr := by
  refine ok.submit none ?_
  intro submission mem
  cases List.eq_of_mem_replicate mem
  exact addressed_control reliable p addr none (by simp)

/-- A session is written back with an instance that has written nothing. -/
theorem Coherent.keep {p : Peer K} (ok : p.Coherent c addr) {id : SessionId} {s s' : Session K}
    (found : p.sessions.find (canonicalize addr) = some (id, s))
    (calls : Kcp.Quiets s.inner.kcp s'.inner.kcp) (view : s'.view = s.view) :
    (p.setSession id s').Coherent c addr := by
  obtain ⟨home, coherent⟩ := ok.stamped id s (Store.find_eq_some.mp found).2
  have taken : Socket.Reliable ⟨.ok addr, fun bytes _ => .ok bytes.length⟩ :=
    fun bytes _ => ⟨bytes.length, rfl⟩
  exact (ok.write found coherent home (.nothing _ calls.silents) view taken (Or.inr view)).same rfl
    (by simp [Peer.submit])

theorem Coherent.retry {p : Peer K} (ok : p.Coherent c addr) {id : SessionId} {s : Session K}
    (found : p.sessions.find (canonicalize addr) = some (id, s)) (config : KcpConfig)
    (nowEpoch now : UInt64) {socket : Socket} (reliable : socket.Reliable) :
    ((p.setSession id (s.maybeRetrySyn config nowEpoch now socket).1).submit (some id)
      (s.maybeRetrySyn config nowEpoch now socket).2.1).Coherent c addr := by
  have home := (ok.stamped id s (Store.find_eq_some.mp found).2).1
  have kept : (p.setSession id (s.maybeRetrySyn config nowEpoch now socket).1).Coherent c addr := by
    refine ok.keep found ?_ (Session.view_maybeRetrySyn ..)
    rw [Session.maybeRetrySyn_kcp]
  refine kept.submit (some id) ?_
  intro submission mem
  rcases Session.maybeRetrySyn_output s config nowEpoch now socket with none | ⟨_, one⟩
  · rw [none] at mem
    cases mem
  · rw [one] at mem
    cases List.mem_singleton.mp mem
    rw [Session.synSubmission, home]
    exact addressed_control reliable _ addr _ (by simp)

section Ops

variable {p : Peer K} (ok : p.Stamped c addr) (idle : p.outbox = []) (clock : Clock)
  {socket : Socket} (reliable : socket.Reliable)

include ok idle reliable

theorem handleKcpData_coherent (payload : Bytes) :
    (p.handleKcpData payload addr clock socket).1.Coherent c addr := by
  have before := ok.idle idle
  unfold handleKcpData
  cases found : p.sessions.find (canonicalize addr) with
  | none =>
      dsimp only
      split
      · exact before.sendReset _ reliable
      · exact before
  | some entry =>
      obtain ⟨id, s⟩ := entry
      dsimp only
      have fed : Kcp.Quiets s.inner.kcp ((s.touch clock.epochMs).input payload).1.inner.kcp :=
        Session.input_quiets (s.touch clock.epochMs) payload
      have view := Session.view_input (s.touch clock.epochMs) payload
      split
      · rename_i s' e input
        rw [input] at fed view
        exact before.keep found fed view
      · rename_i s' _ input
        rw [input] at fed view
        have drained := Session.tryRecvAll_quiets s'
        have view' := (Session.view_tryRecvAll s').trans view
        split
        · rename_i s'' msgs e received
          rw [received] at drained view'
          exact before.keep found (fed.trans drained) view'
        · rename_i s'' _ received
          rw [received] at drained view'
          exact before.keep found (fed.trans drained) view'
        · rename_i s'' msg msgs _ received
          rw [received] at drained view'
          exact (before.keep found (fed.trans drained) view').same rfl rfl

theorem synInsert_coherent (conv : UInt32) :
    ((p.sendSynAck conv addr socket).synInsert addr conv clock).Coherent c addr := by
  have before := (ok.idle idle).sendSynAck conv reliable
  have inserted : ((p.sendSynAck conv addr socket).insertSession (canonicalize addr)
      (Session.newInbound conv addr (p.sendSynAck conv addr socket).incarnation
        (p.sendSynAck conv addr socket).config clock.epochMs)).Coherent c addr := by
    refine ⟨before.stamped.insertSession _ _ rfl (.of_new _ rfl), ?_⟩
    intro o mem
    -- the outbox holds the SYN_ACK alone
    have single : (p.sendSynAck conv addr socket).outbox =
        [⟨socket.submit (encodeControl .synAck conv) addr, none⟩] := by
      simp [Peer.sendSynAck, submit, idle]
    rw [show (Peer.insertSession _ _ _).outbox = (p.sendSynAck conv addr socket).outbox from rfl,
      single] at mem
    cases List.mem_singleton.mp mem
    exact addressed_control reliable _ addr none (by simp)
  exact inserted.same rfl rfl

theorem handleSyn_coherent (payload : Bytes) :
    (p.handleSyn payload addr clock socket).1.Coherent c addr := by
  have before := ok.idle idle
  unfold handleSyn
  split
  · exact before
  · rename_i conv _
    split
    · exact before
    · rename_i myAddr _
      unfold synDecide
      cases found : p.sessions.find (canonicalize addr) with
      | none => exact synInsert_coherent ok idle clock reliable conv
      | some entry =>
          obtain ⟨id, s⟩ := entry
          obtain ⟨home, coherent⟩ := ok id s (Store.find_eq_some.mp found).2
          dsimp only
          by_cases same : s.inner.convId = conv
          · rw [if_pos same]
            cases s.inner.state with
            | synSent => exact before
            | established =>
                have touched : (p.setSession id (s.touch clock.epochMs)).Stamped c addr :=
                  ok.setSession id _ home (coherent.same rfl ⟨rfl, rfl⟩)
                exact (touched.idle idle).sendSynAck conv reliable
          · rw [if_neg same]
            cases state : s.inner.state with
            | synSent =>
                dsimp only
                split
                · have flushed := before.write found
                    (coherent.adopt state conv clock.epochMs) home
                    (Session.pump_writes (s.adopt conv clock.epochMs) clock.currentMs socket rfl)
                    rfl reliable (Or.inl idle)
                  exact (flushed.emit (.connected addr) id).sendSynAck conv reliable
                · have flushed := before.write found (coherent.establish clock.epochMs) home
                    (Session.pump_writes (s.establish clock.epochMs) clock.currentMs socket rfl)
                    rfl reliable (Or.inl idle)
                  exact (flushed.emit (.connected addr) id).sendSynAck s.inner.convId reliable
            | established =>
                have closed : (p.setSession id s.markClosed).Stamped c addr :=
                  ok.setSession id _ home (coherent.same rfl ⟨rfl, rfl⟩)
                exact synInsert_coherent (p := (p.setSession id s.markClosed).emit
                  (.peerRestarted addr) id) closed idle clock reliable conv

theorem handleSynAck_coherent (payload : Bytes) :
    (p.handleSynAck payload addr clock socket).1.Coherent c addr := by
  have before := ok.idle idle
  unfold handleSynAck synAckAccept
  split
  · exact before
  · cases found : p.sessions.find (canonicalize addr) with
    | none => exact before
    | some entry =>
        obtain ⟨id, s⟩ := entry
        obtain ⟨home, coherent⟩ := ok id s (Store.find_eq_some.mp found).2
        dsimp only
        split
        · exact before
        · split
          · have flushed := before.write found (coherent.establish clock.epochMs) home
              (Session.pump_writes (s.establish clock.epochMs) clock.currentMs socket rfl)
              rfl reliable (Or.inl idle)
            exact flushed.same rfl rfl
          · exact before

/-- A datagram from the one address the peer has sessions for. -/
theorem handleIncoming_coherent (data : Bytes) :
    (p.handleIncoming data addr clock socket).1.Coherent c addr := by
  unfold handleIncoming
  split
  · exact ok.idle idle
  · exact handleKcpData_coherent ok idle clock reliable _
  · exact handleSyn_coherent ok idle clock reliable _
  · exact handleSynAck_coherent ok idle clock reliable _
  · rename_i payload _
    unfold handleReset
    split
    · exact ok.idle idle
    · split
      · exact ok.idle idle
      · rename_i id s found
        obtain ⟨home, coherent⟩ := ok id s (Store.find_eq_some.mp found).2
        split
        · have removed : (p.removeKey (canonicalize addr)).Stamped c addr := ok
          have closed : s.markClosed.Coherent c := coherent.same rfl ⟨rfl, rfl⟩
          exact ((removed.setSession id s.markClosed home closed).idle idle).emit
            (.disconnected addr) id
        · exact ok.idle idle

theorem initiateSession_coherent (draw : DrawnConv) :
    (p.initiateSession addr draw clock socket).1.Coherent c addr := by
  simp only [initiateSession]
  generalize created : (Session.newOutbound draw.val addr p.incarnation p.config clock.epochMs :
    Session K) = s
  have coherent : s.Coherent c := by
    rw [← created]
    exact .of_new p.config rfl
  have home : s.peerAddr = addr := by rw [← created]; rfl
  have sent : (s.sendSyn s.inner.convId clock.epochMs socket).Coherent c ∧
      (s.sendSyn s.inner.convId clock.epochMs socket).peerAddr = addr := by
    unfold Session.sendSyn
    split
    · exact ⟨coherent.same rfl ⟨rfl, rfl⟩, home⟩
    · exact ⟨coherent, home⟩
  have inserted := ok.insertSession (canonicalize addr) s home coherent
  have stamped := inserted.setSession p.sessions.fresh _ sent.2 sent.1
  refine (stamped.idle idle).submit (some p.sessions.fresh) ?_
  intro submission mem
  cases List.mem_singleton.mp mem
  rw [Session.synSubmission, home]
  exact addressed_control reliable _ addr _ (by simp)

theorem send_coherent (data : Bytes) (draw : DrawnConv) :
    (p.send addr data draw clock socket).1.Coherent c addr := by
  have before := ok.idle idle
  have sends : ∀ {p : Peer K} {id : SessionId} {s : Session K}, p.Coherent c addr →
      p.sessions.find (canonicalize addr) = some (id, s) →
      (p.sendOn id s data clock socket).1.Coherent c addr := by
    intro p id s before found
    obtain ⟨home, coherent⟩ := before.stamped id s (Store.find_eq_some.mp found).2
    exact before.write found coherent home (Session.sendData_writes s data clock.currentMs socket)
      (Session.view_sendData ..) reliable (Or.inr (Session.view_sendData ..))
  unfold send
  cases found : p.sessions.find (canonicalize addr) with
  | some entry => exact sends before found
  | none =>
      refine sends ?_ (find_initiateSession p addr draw clock socket)
      exact initiateSession_coherent ok idle clock reliable draw

theorem scanSession_coherent (tick : Tick) :
    (p.scanSession tick socket (canonicalize addr)).1.Coherent c addr := by
  have before := ok.idle idle
  unfold scanSession
  cases found : p.sessions.find (canonicalize addr) with
  | none => exact before
  | some entry =>
      obtain ⟨id, s⟩ := entry
      obtain ⟨home, coherent⟩ := ok id s (Store.find_eq_some.mp found).2
      dsimp only
      split
      · exact before
      · have written := Session.update_writes s tick.nowMs socket
        have view := Session.view_update s tick.nowMs socket
        have updated := before.write found coherent home written view reliable (Or.inl idle)
        split
        · rename_i s' out result
          rw [result] at updated
          exact updated
        · rename_i s' out r _ result
          rw [result] at updated view
          have found' : ((p.setSession id s').submit (some id) out).sessions.find
              (canonicalize addr) = some (id, s') := find_setSession found s'
          have retried := updated.retry found'
            ((p.setSession id s').submit (some id) out).config tick.nowEpoch
            (tick.retryClock (canonicalize addr)) reliable
          split
          · rename_i s'' out' result'
            rw [result'] at retried
            exact retried
          · rename_i s'' out' r' _ result'
            rw [result'] at retried
            exact retried

end Ops

end Peer

end KcpPeer
