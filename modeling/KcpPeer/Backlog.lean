import KcpPeer.KcpSpec
import KcpPeer.Simulation

set_option autoImplicit false

namespace KcpPeer

namespace Session

variable {K : Type} [Kcp K]

/-- In `SynSent` a payload is queued and nothing is written. -/
theorem queueData_synSent_eq {s : Session K} (waiting : s.inner.state = .synSent) (data : Bytes)
    (now : UInt32) (socket : Socket) :
    s.queueData data now socket =
      if Kcp.isDeadLink s.inner.kcp then (s, [], .error .deadLink)
      else
        (s.withKcp (Kcp.send s.inner.kcp data).1, [],
          (Kcp.send s.inner.kcp data).2.mapError .kcp) := by
  unfold queueData
  split
  · rfl
  · rcases Kcp.send s.inner.kcp data with ⟨kcp, e | _⟩
    · rfl
    · simp only [waiting]
      rfl

/-- In `SynSent` a payload that is accepted is taken by the instance, and a
payload that is refused is not. -/
theorem queueData_synSent (s : Session K) (data : Bytes) (now : UInt32) (socket : Socket)
    (waiting : s.inner.state = .synSent) :
    ((s.queueData data now socket).2.2 = .ok () ∧
        Kcp.send s.inner.kcp data = ((s.queueData data now socket).1.inner.kcp, .ok ())) ∨
      ((∃ e, (s.queueData data now socket).2.2 = .error e) ∧
        ((s.queueData data now socket).1.inner.kcp = s.inner.kcp ∨
          ∃ e, Kcp.send s.inner.kcp data =
            ((s.queueData data now socket).1.inner.kcp, .error e))) := by
  rw [queueData_synSent_eq waiting]
  split
  · exact Or.inr ⟨⟨_, rfl⟩, Or.inl rfl⟩
  · rcases Kcp.send s.inner.kcp data with ⟨kcp, e | _⟩
    · exact Or.inr ⟨⟨_, rfl⟩, Or.inr ⟨e, rfl⟩⟩
    · exact Or.inl ⟨rfl, rfl⟩

theorem sendData_synSent (s : Session K) (data : Bytes) (now : UInt32) (socket : Socket)
    (waiting : s.inner.state = .synSent) :
    ((s.sendData data now socket).2.2 = .ok () ∧
        Kcp.send s.inner.kcp data = ((s.sendData data now socket).1.inner.kcp, .ok ())) ∨
      ((∃ e, (s.sendData data now socket).2.2 = .error e) ∧
        ((s.sendData data now socket).1.inner.kcp = s.inner.kcp ∨
          ∃ e, Kcp.send s.inner.kcp data =
            ((s.sendData data now socket).1.inner.kcp, .error e))) := by
  unfold sendData
  split
  · exact Or.inr ⟨⟨_, rfl⟩, Or.inl rfl⟩
  · exact queueData_synSent s data now socket waiting

/-- A session continues: its instance is used further, and while it is still in
`SynSent` only to receive. -/
def Continues (s s' : Session K) : Prop :=
  (∃ bufs, Kcp.Run s.inner.kcp bufs s'.inner.kcp) ∧
    (s'.inner.state = .synSent → s.inner.state = .synSent ∧ Kcp.Quiets s.inner.kcp s'.inner.kcp)

theorem Continues.quiets {s s' : Session K} (calls : Kcp.Quiets s.inner.kcp s'.inner.kcp)
    (same : s'.inner.state = s.inner.state) : Continues s s' :=
  ⟨⟨[], .of_silents calls.silents⟩, fun waiting => ⟨same.symm.trans waiting, calls⟩⟩

theorem Continues.established {s s' : Session K} {bufs : List Bytes}
    (calls : Kcp.Run s.inner.kcp bufs s'.inner.kcp) (ready : s'.inner.state = .established) :
    Continues s s' := by
  refine ⟨⟨bufs, calls⟩, ?_⟩
  intro waiting
  rw [waiting] at ready
  cases ready

theorem Continues.trans {s s' s'' : Session K} (first : Continues s s')
    (second : Continues s' s'') : Continues s s'' := by
  obtain ⟨⟨bufs, calls⟩, waits⟩ := first
  obtain ⟨⟨bufs', calls'⟩, waits'⟩ := second
  refine ⟨⟨bufs ++ bufs', calls.trans calls'⟩, ?_⟩
  intro waiting
  obtain ⟨waiting', quiets'⟩ := waits' waiting
  obtain ⟨waiting'', quiets⟩ := waits waiting'
  exact ⟨waiting'', quiets.trans quiets'⟩

theorem update_continues (s : Session K) (now : UInt32) (socket : Socket) :
    Continues s (s.update now socket).1 := by
  have state : (s.update now socket).1.inner.state = s.inner.state :=
    congrArg View.state (view_update s now socket)
  cases waiting : s.inner.state with
  | established =>
      obtain ⟨bufs, calls, _⟩ := update_writes s now socket
      exact .established calls (state.trans waiting)
  | synSent =>
      have same : (s.update now socket).1 = s := by simp only [update, waiting]
      rw [same]
      exact .quiets .refl rfl

end Session

namespace Peer

variable {K : Type} [Kcp K]

/-- The sessions created so far are the same, and the session of `can` continues. -/
structure Continues (p p' : Peer K) (can : CanonicalAddr) : Prop where
  fresh : p'.sessions.fresh = p.sessions.fresh
  session : ∀ id s, p.sessions.find can = some (id, s) →
    ∃ s', p'.sessions.find can = some (id, s') ∧ s.Continues s'

theorem Continues.same {p p' : Peer K} (can : CanonicalAddr) (same : p'.sessions = p.sessions) :
    p.Continues p' can :=
  ⟨by rw [same], fun _ s found => ⟨s, by rw [same]; exact found, .quiets .refl rfl⟩⟩

theorem Continues.trans {p p' p'' : Peer K} {can : CanonicalAddr} (first : p.Continues p' can)
    (second : p'.Continues p'' can) : p.Continues p'' can := by
  refine ⟨second.fresh.trans first.fresh, ?_⟩
  intro id s found
  obtain ⟨s', found', continues⟩ := first.session id s found
  obtain ⟨s'', found'', continues'⟩ := second.session id s' found'
  exact ⟨s'', found'', continues.trans continues'⟩

theorem Continues.setSession {p : Peer K} {can : CanonicalAddr} {id : SessionId}
    {s s' : Session K} (found : p.sessions.find can = some (id, s)) (continues : s.Continues s') :
    p.Continues (p.setSession id s') can := by
  refine ⟨Store.fresh_modify .., ?_⟩
  intro id' s₀ found'
  rw [found] at found'
  cases found'
  exact ⟨s', find_setSession found s', continues⟩

theorem handleKcpData_continues (p : Peer K) (payload : Bytes) (src : SocketAddr) (clock : Clock)
    (socket : Socket) :
    p.Continues (p.handleKcpData payload src clock socket).1 (canonicalize src) := by
  unfold handleKcpData
  cases found : p.sessions.find (canonicalize src) with
  | none =>
      dsimp only
      split
      · exact .same _ rfl
      · exact .same _ rfl
  | some entry =>
      obtain ⟨id, s⟩ := entry
      dsimp only
      have fed : Kcp.Quiets s.inner.kcp ((s.touch clock.epochMs).input payload).1.inner.kcp :=
        Session.input_quiets (s.touch clock.epochMs) payload
      have view := Session.view_input (s.touch clock.epochMs) payload
      split
      · rename_i s' e input
        rw [input] at fed view
        exact .setSession found (.quiets fed (congrArg View.state view))
      · rename_i s' _ input
        rw [input] at fed view
        have drained := Session.tryRecvAll_quiets s'
        have view' := (Session.view_tryRecvAll s').trans view
        split
        · rename_i s'' msgs e received
          rw [received] at drained view'
          exact .setSession found (.quiets (fed.trans drained) (congrArg View.state view'))
        · rename_i s'' _ received
          rw [received] at drained view'
          exact .setSession found (.quiets (fed.trans drained) (congrArg View.state view'))
        · rename_i s'' msg msgs _ received
          rw [received] at drained view'
          exact Continues.trans
            (.setSession found (.quiets (fed.trans drained) (congrArg View.state view')))
            (.same _ rfl)

theorem handleSynAck_continues (p : Peer K) (payload : Bytes) (src : SocketAddr) (clock : Clock)
    (socket : Socket) :
    p.Continues (p.handleSynAck payload src clock socket).1 (canonicalize src) := by
  unfold handleSynAck synAckAccept
  split
  · exact .same _ rfl
  · cases found : p.sessions.find (canonicalize src) with
    | none => exact .same _ rfl
    | some entry =>
        obtain ⟨id, s⟩ := entry
        dsimp only
        split
        · exact .same _ rfl
        · split
          · obtain ⟨bufs, calls, _⟩ := Session.pump_writes (s.establish clock.epochMs)
              clock.currentMs socket rfl
            exact Continues.trans (.setSession found (.established calls rfl)) (.same _ rfl)
          · exact .same _ rfl

theorem scanSession_continues (p : Peer K) (tick : Tick) (socket : Socket) (can : CanonicalAddr) :
    p.Continues (p.scanSession tick socket can).1 can := by
  unfold scanSession
  cases found : p.sessions.find can with
  | none => exact .same _ rfl
  | some entry =>
      obtain ⟨id, s⟩ := entry
      dsimp only
      split
      · exact .same _ rfl
      · have updated := Session.update_continues s tick.nowMs socket
        split
        · rename_i s' out result
          rw [result] at updated
          exact Continues.trans (.setSession found updated) (.same _ rfl)
        · rename_i s' out r _ result
          rw [result] at updated
          have first : p.Continues ((p.setSession id s').submit (some id) out) can :=
            Continues.trans (.setSession found updated) (.same _ rfl)
          have found' : ((p.setSession id s').submit (some id) out).sessions.find can =
              some (id, s') := find_setSession found s'
          have retried : s'.Continues (s'.maybeRetrySyn
              ((p.setSession id s').submit (some id) out).config tick.nowEpoch
              (tick.retryClock can) socket).1 := by
            refine .quiets ?_ (congrArg View.state (Session.view_maybeRetrySyn ..))
            rw [Session.maybeRetrySyn_kcp]
          split
          · rename_i s'' out' result'
            rw [result'] at retried
            exact first.trans (Continues.trans (.setSession found' retried) (.same _ rfl))
          · rename_i s'' out' r' _ result'
            rw [result'] at retried
            exact first.trans (Continues.trans (.setSession found' retried) (.same _ rfl))

theorem updateTick_continues {p : Peer K} {can : CanonicalAddr} (tidy : p.Tidy can) (tick : Tick)
    (socket : Socket) (order : tick.order.isPerm p.sessions.keys)
    (kept : (scan tick socket tick.order p).2 = []) :
    p.Continues (p.updateTick tick socket) can := by
  rcases tidy.updateTick_eq order kept with same | scanned
  · rw [same]
    exact .same can rfl
  · rw [scanned]
    exact scanSession_continues p tick socket can

/-- A datagram that is neither a SYN nor a RESET. -/
theorem handleIncoming_continues (p : Peer K) (data : Bytes) (src : SocketAddr) (clock : Clock)
    (socket : Socket) (noSyn : ∀ conv, Msg.decode data ≠ .syn conv)
    (noReset : ∀ conv, Msg.decode data ≠ .reset conv) :
    p.Continues (p.handleIncoming data src clock socket).1 (canonicalize src) := by
  unfold handleIncoming
  split
  · exact .same _ rfl
  · exact handleKcpData_continues ..
  · rename_i payload parsed
    cases decoded : readConv payload with
    | none =>
        simp only [handleSyn, decoded]
        exact .same _ rfl
    | some conv => exact absurd (by simp [Msg.decode, parsed, decoded]) (noSyn conv)
  · exact handleSynAck_continues ..
  · rename_i payload parsed
    cases decoded : readConv payload with
    | none =>
        simp only [handleReset, decoded]
        exact .same _ rfl
    | some conv => exact absurd (by simp [Msg.decode, parsed, decoded]) (noReset conv)

end Peer

namespace Party

variable {K : Type} [Kcp K]

/-- The instance of a session has taken every payload in `base`, and in `SynSent`
nothing else. -/
def Retains (q : SendQueue K) (s : Session K) (base : List Bytes) : Prop :=
  ∃ taken flushed, q.Journal s.inner.kcp taken flushed ∧ base <+: taken ∧
    (s.inner.state = .synSent → base = taken)

theorem Retains.continues {q : SendQueue K} {s s' : Session K} {base : List Bytes}
    (retains : Retains q s base) (continues : s.Continues s') : Retains q s' base := by
  obtain ⟨taken, flushed, journal, kept, whole⟩ := retains
  obtain ⟨⟨bufs, calls⟩, waits⟩ := continues
  cases state : s'.inner.state with
  | established =>
      obtain ⟨taken', flushed', journal', more⟩ := journal.run calls
      refine ⟨taken', flushed', journal', kept.trans more, ?_⟩
      intro waiting
      rw [state] at waiting
      cases waiting
  | synSent =>
      obtain ⟨waiting, quiets⟩ := waits state
      exact ⟨taken, flushed, journal.quiets quiets, kept, fun _ => whole waiting⟩

/-- The party has had at most one session, and its instance has taken every
payload accepted in `SynSent`. -/
inductive Backlog (q : SendQueue K) (can : CanonicalAddr) (x : Party K) : Prop
  | unopened (fresh : x.peer.sessions.fresh = 0) (empty : x.buffered = [])
  | opened (s : Session K) (fresh : x.peer.sessions.fresh = 1)
      (found : x.peer.sessions.find can = some (0, s)) (retains : Retains q s x.buffered)

theorem Backlog.continues {q : SendQueue K} {can : CanonicalAddr} {x x' : Party K}
    (ok : x.Backlog q can) (same : x'.buffered = x.buffered)
    (continues : x.peer.Continues x'.peer can) : x'.Backlog q can := by
  cases ok with
  | unopened fresh empty => exact .unopened (continues.fresh.trans fresh) (same.trans empty)
  | opened s fresh found retains =>
      obtain ⟨s', found', goesOn⟩ := continues.session 0 s found
      exact .opened s' (continues.fresh.trans fresh) found' (same ▸ retains.continues goesOn)

/-- What `send_data` does to the backlog of an open session. -/
theorem retains_sendOn {q : SendQueue K} {can : CanonicalAddr} {p : Peer K} {id : SessionId}
    {s : Session K} {base : List Bytes} (found : p.sessions.find can = some (id, s))
    (retains : Retains q s base) (data : Bytes) (clock : Clock) (socket : Socket) :
    ∃ s', (p.sendOn id s data clock socket).1.sessions.find can = some (id, s') ∧
      Retains q s' (if (p.sendOn id s data clock socket).2.isOk &&
        isSynSent (p.sendOn id s data clock socket).1 can then base ++ [data] else base) := by
  have found' : (p.sendOn id s data clock socket).1.sessions.find can =
      some (id, (s.sendData data clock.currentMs socket).1) :=
    Peer.find_setSession found _
  have state : (s.sendData data clock.currentMs socket).1.inner.state = s.inner.state :=
    congrArg View.state (Session.view_sendData ..)
  refine ⟨_, found', ?_⟩
  obtain ⟨taken, flushed, journal, kept, whole⟩ := retains
  have waits : isSynSent (p.sendOn id s data clock socket).1 can =
      decide (s.inner.state = .synSent) := by
    simp only [isSynSent, found', state]
  have result : (p.sendOn id s data clock socket).2 =
      (s.sendData data clock.currentMs socket).2.2 := rfl
  rw [waits, result]
  cases waiting : s.inner.state with
  | established =>
      obtain ⟨bufs, calls, _⟩ := Session.sendData_writes s data clock.currentMs socket
      obtain ⟨taken', flushed', journal', more⟩ := journal.run calls
      refine ⟨taken', flushed', journal', ?_, ?_⟩
      · simpa using kept.trans more
      · intro sent
        rw [state, waiting] at sent
        cases sent
  | synSent =>
      have all := whole waiting
      subst all
      rcases Session.sendData_synSent s data clock.currentMs socket waiting with
        ⟨ok, called⟩ | ⟨⟨e, failed⟩, unchanged | ⟨e', called⟩⟩
      · rw [ok]
        exact ⟨base ++ [data], flushed, journal.taken called, List.prefix_rfl, fun _ => rfl⟩
      · rw [failed]
        refine ⟨base, flushed, ?_, List.prefix_rfl, fun _ => rfl⟩
        rw [unchanged]
        exact journal
      · rw [failed]
        exact ⟨base, flushed, journal.refused called, List.prefix_rfl, fun _ => rfl⟩

theorem Backlog.send {q : SendQueue K} {x : Party K} {peer : SocketAddr}
    (ok : x.Backlog q (canonicalize peer)) (data : Bytes) (draw : DrawnConv) (clock : Clock)
    (socket : Socket) :
    (x.send peer data draw clock socket).Backlog q (canonicalize peer) := by
  have size : ∀ (p : Peer K) (id : SessionId) (s : Session K),
      (p.sendOn id s data clock socket).1.sessions.fresh = p.sessions.fresh :=
    fun _ _ _ => Store.fresh_modify ..
  cases ok with
  | unopened fresh empty =>
      have absent : x.peer.sessions.find (canonicalize peer) = none := by
        rw [Store.find_eq_none]
        cases named : x.peer.sessions.lookup (canonicalize peer) with
        | none => rfl
        | some id =>
            have below := Store.lookup_lt named
            omega
      have opened : (x.peer.initiateSession peer draw clock socket).1.sessions.find
          (canonicalize peer) = some ((x.peer.initiateSession peer draw clock socket).2.1,
            (x.peer.initiateSession peer draw clock socket).2.2) :=
        Peer.find_initiateSession ..
      have first : (x.peer.initiateSession peer draw clock socket).2.1 = 0 := fresh
      have created : (x.peer.initiateSession peer draw clock socket).2.2.inner.kcp =
          x.peer.config.applyTo (Kcp.new draw.val) := by
        simp only [Peer.initiateSession, Session.sendSyn]
        split <;> rfl
      have retains : Retains q (x.peer.initiateSession peer draw clock socket).2.2 [] := by
        refine ⟨[], [], ?_, List.prefix_rfl, fun _ => rfl⟩
        rw [created]
        exact (SendQueue.Journal.new draw.val).quiets (KcpConfig.applyTo_quiets ..)
      obtain ⟨s', found', retains'⟩ := retains_sendOn opened retains data clock socket
      rw [first] at found'
      refine .opened s' ?_ ?_ ?_
      · simp only [Party.send, Peer.send, absent, size]
        rw [Peer.fresh_initiateSession, fresh]
      · simp only [Party.send, Peer.send, absent]
        rw [first]
        exact found'
      · simp only [Party.send, Peer.send, absent, empty]
        exact retains'
  | opened s fresh found retains =>
      obtain ⟨s', found', retains'⟩ := retains_sendOn found retains data clock socket
      refine .opened s' ?_ ?_ ?_
      · simp only [Party.send, Peer.send, found, size]
        exact fresh
      · simp only [Party.send, Peer.send, found]
        exact found'
      · simp only [Party.send, Peer.send, found]
        exact retains'

end Party

end KcpPeer
