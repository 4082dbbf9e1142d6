import KcpPeer.Wire

set_option autoImplicit false

namespace KcpPeer

/-- The datagram of the operation is a SYN from `src` that carries `conv`. -/
def PeerOp.IsSyn (op : PeerOp) (src : SocketAddr) (conv : UInt32) : Prop :=
  ∃ data clock socket, op = .incoming data src clock socket ∧ Msg.decode data = .syn conv

namespace Session

variable {K : Type}

variable [Kcp K]

theorem queueData_withKcp (s : Session K) (data : Bytes) (now : UInt32) (socket : Socket) :
    ∃ kcp, (s.queueData data now socket).1 = s.withKcp kcp := by
  unfold queueData
  dsimp only
  repeat' split
  · exact ⟨s.inner.kcp, rfl⟩
  all_goals exact ⟨_, rfl⟩

theorem sendData_withKcp (s : Session K) (data : Bytes) (now : UInt32) (socket : Socket) :
    ∃ kcp, (s.sendData data now socket).1 = s.withKcp kcp := by
  unfold sendData
  split
  · exact ⟨s.inner.kcp, rfl⟩
  · exact queueData_withKcp s data now socket

theorem update_withKcp (s : Session K) (now : UInt32) (socket : Socket) :
    ∃ kcp, (s.update now socket).1 = s.withKcp kcp := by
  unfold update
  dsimp only
  repeat' split
  · exact ⟨s.inner.kcp, rfl⟩
  · exact ⟨s.inner.kcp, rfl⟩
  all_goals exact ⟨_, rfl⟩

theorem input_withKcp (s : Session K) (data : Bytes) :
    ∃ kcp, (s.input data).1 = s.withKcp kcp := by
  unfold input
  split <;> exact ⟨_, rfl⟩

theorem tryRecvAll_withKcp (s : Session K) : ∃ kcp, s.tryRecvAll.1 = s.withKcp kcp := by
  unfold tryRecvAll
  split <;> exact ⟨_, rfl⟩

end Session

namespace Peer

variable {K : Type}

theorem setSession_setSession (p : Peer K) (id : SessionId) (first second : Session K) :
    (p.setSession id first).setSession id second = p.setSession id second := by
  simp only [setSession]
  congr 1
  refine Store.ext ?_ rfl
  simp only [Store.modify, List.modify_modify_eq]
  rfl

theorem setSession_same {p : Peer K} {id : SessionId} {s : Session K}
    (present : p.sessions.object? id = some s) : p.setSession id s = p := by
  simp only [setSession, Store.modify_same p.sessions (fun _ => s) present rfl]

theorem object?_setSession_cases {p : Peer K} {id id' : SessionId} {s s₁ s' : Session K}
    (present : p.sessions.object? id = some s)
    (present' : (p.setSession id s₁).sessions.object? id' = some s') :
    (id' = id ∧ s' = s₁) ∨ p.sessions.object? id' = some s' := by
  simp only [setSession, Store.object?_modify] at present'
  split at present'
  · rename_i same
    subst same
    rw [present, Option.map_some, Option.some.injEq] at present'
    exact Or.inl ⟨rfl, present'.symm⟩
  · exact Or.inr present'

theorem find_setSession_other {p : Peer K} {can can' : CanonicalAddr} {id : SessionId}
    {s : Session K} (found : p.sessions.find can = some (id, s)) (s' : Session K)
    (other : can' ≠ can) : (p.setSession id s').sessions.find can' = p.sessions.find can' := by
  rw [setSession, Store.find_modify _ _ _ found, if_neg other]

theorem find_insertSession (p : Peer K) (can : CanonicalAddr) (s : Session K) :
    (p.insertSession can s).sessions.find can = some (p.sessions.fresh, s) := by
  rw [insertSession, Store.find_insertNew, if_pos rfl]

theorem find_insertSession_other (p : Peer K) {can can' : CanonicalAddr} (s : Session K)
    (other : can' ≠ can) : (p.insertSession can s).sessions.find can' = p.sessions.find can' := by
  rw [insertSession, Store.find_insertNew, if_neg other]

/-- A session that leaves the map is written unseen. -/
theorem find_removed {p : Peer K} {can : CanonicalAddr} {id : SessionId} {s : Session K}
    (found : p.sessions.find can = some (id, s)) (s' : Session K) (can' : CanonicalAddr) :
    ((p.removeKey can).setSession id s').sessions.find can' =
      if can' = can then none else p.sessions.find can' := by
  have unnamed : (p.sessions.remove can).lookup can' ≠ some id := by
    rw [Store.lookup_remove]
    split
    · simp
    · rename_i other
      exact fun named => other (Store.lookup_injective named (Store.find_eq_some.mp found).1)
  change ((p.sessions.remove can).modify id _).find can' = _
  rw [Store.find_modify_unnamed _ _ _ unnamed, Store.find_remove]

/-- Keys and addresses agree, said of the sessions themselves. -/
theorem keyed_iff {p : Peer K} : p.registry.Keyed ↔
    ∀ can id s, p.sessions.find can = some (id, s) → canonicalize s.peerAddr = can := by
  constructor
  · intro keyed can id s found
    refine keyed can id s.view ?_
    rw [registry_find, found, Option.map_some]
  · intro keyed can id v found
    rw [registry_find, Option.map_eq_some_iff] at found
    obtain ⟨⟨id', s⟩, found, same⟩ := found
    cases same
    exact keyed can id' s found

variable [Kcp K]

/-- The indivisible parts of the operations, each at the session of one address. -/
inductive Effect (op : PeerOp) (can : CanonicalAddr) : Peer K → Peer K → Prop
  | write {p : Peer K} {id : SessionId} {s : Session K}
      (found : p.sessions.find can = some (id, s)) (kcp : K) (lastRx : UInt64) {socket : Socket}
      {out : List Submission}
      (written : Session.Writes s ((s.withKcp kcp).touch lastRx) socket out) :
      Effect op can p ((p.setSession id ((s.withKcp kcp).touch lastRx)).submit (some id) out)
  | syn {p : Peer K} {id : SessionId} {s : Session K}
      (found : p.sessions.find can = some (id, s)) (waiting : s.inner.state = .synSent)
      (sentAt : UInt64) (retries : UInt32)
      (counted : retries = s.synRetries ∨
        s.synRetries < p.config.synMaxRetries ∧ retries = s.synRetries + 1) (socket : Socket) :
      Effect op can p
        ((p.setSession id { s with synSentAt := sentAt, synRetries := retries }).submit (some id)
          [s.synSubmission s.inner.convId socket])
  | establish {p : Peer K} {id : SessionId} {s : Session K} {src : SocketAddr}
      (found : p.sessions.find can = some (id, s)) (waiting : s.inner.state = .synSent)
      (own : canonicalize src = can) (now : UInt64) :
      Effect op can p ((p.setSession id (s.establish now)).emit (.connected src) id)
  | adopt {p : Peer K} {id : SessionId} {s : Session K} {src : SocketAddr} {conv : UInt32}
      (found : p.sessions.find can = some (id, s)) (waiting : s.inner.state = .synSent)
      (own : canonicalize src = can) (isSyn : op.IsSyn src conv) (now : UInt64) :
      Effect op can p ((p.setSession id (s.adopt conv now)).emit (.connected src) id)
  | initiate {p : Peer K} {peer : SocketAddr} {data : Bytes} {draw : DrawnConv} {clock : Clock}
      {socket : Socket} (asked : op = .send peer data draw clock socket)
      (own : canonicalize peer = can) (absent : p.sessions.find can = none) :
      Effect op can p (p.insertSession can
        (Session.newOutbound draw.val peer p.incarnation p.config clock.epochMs))
  | accept {p : Peer K} {src : SocketAddr} {conv : UInt32} (isSyn : op.IsSyn src conv)
      (own : canonicalize src = can) (clock : Clock) : Effect op can p (p.synInsert src conv clock)
  | supersede {p : Peer K} {id : SessionId} {s : Session K} {src : SocketAddr}
      (found : p.sessions.find can = some (id, s)) (own : canonicalize src = can) :
      Effect op can p ((p.setSession id s.markClosed).emit (.peerRestarted src) id)
  | close {p : Peer K} {id : SessionId} {s : Session K} {addr : SocketAddr}
      (found : p.sessions.find can = some (id, s)) (own : canonicalize addr = can) :
      Effect op can p (((p.removeKey can).setSession id s.markClosed).emit (.disconnected addr) id)
  | acknowledge {p : Peer K} {dest : SocketAddr} (own : canonicalize dest = can) (conv : UInt32)
      (socket : Socket) : Effect op can p (p.sendSynAck conv dest socket)
  | reset {p : Peer K} {dest : SocketAddr} (own : canonicalize dest = can) (conv : UInt32)
      (socket : Socket) : Effect op can p (p.sendReset conv dest socket)
  | deliver {p : Peer K} {id : SessionId} {s : Session K}
      (found : p.sessions.find can = some (id, s)) (msgs : List Bytes) :
      Effect op can p (p.appendData id s.peerAddr msgs).notify

/-- What an operation does at the session of one address. -/
abbrev EffectsAt (op : PeerOp) (can : CanonicalAddr) : Peer K → Peer K → Prop :=
  Relation.ReflTransGen (Effect op can)

/-- What an operation is made of. -/
abbrev Effects (op : PeerOp) : Peer K → Peer K → Prop :=
  Relation.ReflTransGen fun p p' => ∃ can, Effect op can p p'

theorem EffectsAt.effects {op : PeerOp} {can : CanonicalAddr} {p p' : Peer K}
    (effects : EffectsAt op can p p') : Effects op p p' := by
  induction effects with
  | refl => exact .refl
  | tail _ effect ih => exact ih.tail ⟨can, effect⟩

/-- An entry into `Established` and the flush that follows it. -/
theorem pump_effects {op : PeerOp} {can : CanonicalAddr} {p : Peer K} {id : SessionId}
    {s s₁ : Session K} {e : Event}
    (found : p.sessions.find can = some (id, s)) (ready : s₁.inner.state = .established)
    (entered : Effect op can p ((p.setSession id s₁).emit e id)) (now : UInt32) (socket : Socket) :
    EffectsAt op can p (((p.setSession id (s₁.pump now socket).1).submit (some id)
      (s₁.pump now socket).2).emit e id) := by
  refine (Relation.ReflTransGen.single entered).tail ?_
  have found' : ((p.setSession id s₁).emit e id).sessions.find can = some (id, s₁) :=
    find_setSession found s₁
  have flushed : Effect op can _ _ := .write found' (s₁.pump now socket).1.inner.kcp s₁.lastRx
    (Session.pump_writes s₁ now socket ready)
  have commuted : (p.setSession id s₁).emit e id = (p.emit e id).setSession id s₁ := rfl
  rw [commuted, setSession_setSession] at flushed
  exact flushed

section Incoming

variable {p : Peer K} {data payload : Bytes} {src : SocketAddr} {clock : Clock} {socket : Socket}

theorem handleKcpData_effects :
    EffectsAt (.incoming data src clock socket) (canonicalize src) p
      (p.handleKcpData payload src clock socket).1 := by
  unfold handleKcpData
  cases found : p.sessions.find (canonicalize src) with
  | none =>
      dsimp only
      split
      · exact .single (.reset rfl _ socket)
      · exact .refl
  | some entry =>
      obtain ⟨id, s⟩ := entry
      have kept : ∀ kcp, Kcp.Quiets s.inner.kcp kcp →
          EffectsAt (.incoming data src clock socket) (canonicalize src) p
            (p.setSession id ((s.touch clock.epochMs).withKcp kcp)) := by
        intro kcp calls
        have effect : Effect (.incoming data src clock socket) _ _ _ :=
          .write found kcp clock.epochMs (.nothing socket calls.silents)
        simp only [submit, List.map_nil, List.append_nil] at effect
        exact .single effect
      have fed : Kcp.Quiets s.inner.kcp ((s.touch clock.epochMs).input payload).1.inner.kcp :=
        Session.input_quiets (s.touch clock.epochMs) payload
      obtain ⟨kcp, same⟩ := (s.touch clock.epochMs).input_withKcp payload
      dsimp only
      split
      · rename_i s' e input
        rw [input] at fed same
        simp only at same
        subst same
        exact kept kcp fed
      · rename_i s' _ input
        rw [input] at fed same
        simp only at same
        subst same
        have drained := fed.trans (Session.tryRecvAll_quiets ((s.touch clock.epochMs).withKcp kcp))
        obtain ⟨kcp', same'⟩ := ((s.touch clock.epochMs).withKcp kcp).tryRecvAll_withKcp
        split
        · rename_i s'' msgs e received
          rw [received] at drained same'
          simp only at same'
          subst same'
          exact kept kcp' drained
        · rename_i s'' _ received
          rw [received] at drained same'
          simp only at same'
          subst same'
          exact kept kcp' drained
        · rename_i s'' msg msgs _ received
          rw [received] at drained same'
          simp only at same'
          subst same'
          refine (kept kcp' drained).tail ?_
          exact .deliver (find_setSession found _) (msg :: msgs)

theorem accept_effects {conv : UInt32}
    (isSyn : PeerOp.IsSyn (.incoming data src clock socket) src conv) :
    EffectsAt (.incoming data src clock socket) (canonicalize src) p
      ((p.sendSynAck conv src socket).synInsert src conv clock) := by
  refine (Relation.ReflTransGen.single (.acknowledge rfl conv socket)).tail ?_
  exact .accept isSyn rfl clock

theorem handleSyn_effects (parsed : splitPacket data = some (.syn, payload)) :
    EffectsAt (.incoming data src clock socket) (canonicalize src) p
      (p.handleSyn payload src clock socket).1 := by
  unfold handleSyn
  split
  · exact .refl
  · rename_i conv decoded
    have isSyn : PeerOp.IsSyn (.incoming data src clock socket) src conv := by
      refine ⟨data, clock, socket, rfl, ?_⟩
      simp only [Msg.decode, parsed, decoded, Option.elim_some]
    split
    · exact .refl
    · rename_i myAddr _
      unfold synDecide
      cases found : p.sessions.find (canonicalize src) with
      | none => exact accept_effects isSyn
      | some entry =>
          obtain ⟨id, s⟩ := entry
          dsimp only
          by_cases same : s.inner.convId = conv
          · rw [if_pos same]
            cases s.inner.state with
            | synSent => exact .refl
            | established =>
                have touched : Effect (.incoming data src clock socket) _ _ _ :=
                  .write found s.inner.kcp clock.epochMs (.nothing socket .refl)
                simp only [submit, List.map_nil, List.append_nil] at touched
                refine (Relation.ReflTransGen.single touched).tail ?_
                exact .acknowledge rfl conv socket
          · rw [if_neg same]
            cases state : s.inner.state with
            | synSent =>
                dsimp only
                split
                · have entered := pump_effects found rfl
                    (.adopt found state rfl isSyn clock.epochMs) clock.currentMs socket
                  exact entered.tail (.acknowledge rfl conv socket)
                · have entered : EffectsAt (.incoming data src clock socket) _ _ _ :=
                    pump_effects found rfl (.establish found state rfl clock.epochMs)
                      clock.currentMs socket
                  exact entered.tail (.acknowledge rfl s.inner.convId socket)
            | established =>
                exact .head (.supersede found rfl) (accept_effects isSyn)

theorem handleSynAck_effects :
    EffectsAt (.incoming data src clock socket) (canonicalize src) p
      (p.handleSynAck payload src clock socket).1 := by
  unfold handleSynAck synAckAccept
  split
  · exact .refl
  · cases found : p.sessions.find (canonicalize src) with
    | none => exact .refl
    | some entry =>
        obtain ⟨id, s⟩ := entry
        dsimp only
        split
        · exact .refl
        · rename_i state
          split
          · exact pump_effects found rfl (.establish found state rfl clock.epochMs)
              clock.currentMs socket
          · exact .refl

theorem handleReset_effects :
    EffectsAt (.incoming data src clock socket) (canonicalize src) p
      (p.handleReset payload src).1 := by
  unfold handleReset
  split
  · exact .refl
  · split
    · exact .refl
    · rename_i id s found
      split
      · exact .single (.close found rfl)
      · exact .refl

theorem handleIncoming_effects :
    EffectsAt (.incoming data src clock socket) (canonicalize src) p
      (p.handleIncoming data src clock socket).1 := by
  unfold handleIncoming
  split
  · exact .refl
  · exact handleKcpData_effects
  · rename_i parsed
    exact handleSyn_effects parsed
  · exact handleSynAck_effects
  · exact handleReset_effects

end Incoming

theorem sendOn_effects {op : PeerOp} {can : CanonicalAddr} {p : Peer K} {id : SessionId}
    {s : Session K} (found : p.sessions.find can = some (id, s))
    (data : Bytes) (clock : Clock) (socket : Socket) :
    EffectsAt op can p (p.sendOn id s data clock socket).1 := by
  have written := Session.sendData_writes s data clock.currentMs socket
  obtain ⟨kcp, same⟩ := s.sendData_withKcp data clock.currentMs socket
  simp only [sendOn]
  rw [same] at written ⊢
  exact .single (.write found kcp s.lastRx written)

theorem send_effects (p : Peer K) (peer : SocketAddr) (data : Bytes) (draw : DrawnConv)
    (clock : Clock) (socket : Socket) :
    EffectsAt (.send peer data draw clock socket) (canonicalize peer) p
      (p.send peer data draw clock socket).1 := by
  unfold send
  cases found : p.sessions.find (canonicalize peer) with
  | some entry => exact sendOn_effects found data clock socket
  | none =>
      refine .trans ?_ (sendOn_effects (find_initiateSession p peer draw clock socket)
        data clock socket)
      refine (Relation.ReflTransGen.single (.initiate rfl rfl found)).tail ?_
      have inserted := p.find_insertSession (canonicalize peer)
        (Session.newOutbound draw.val peer p.incarnation p.config clock.epochMs)
      have greeted : ∀ sentAt, Effect (.send peer data draw clock socket) (canonicalize peer) _ _ :=
        fun sentAt => Effect.syn inserted rfl sentAt 0 (.inl rfl) socket
      simp only [initiateSession, Session.sendSyn]
      split
      · exact greeted clock.epochMs
      · exact greeted clock.epochMs

theorem disconnect_effects (p : Peer K) (peer : SocketAddr) (socket : Socket) :
    EffectsAt (.disconnect peer socket) (canonicalize peer) p (p.disconnect peer socket) := by
  unfold disconnect
  split
  · exact .refl
  · rename_i id s found
    refine (Relation.ReflTransGen.single (.close found rfl)).tail ?_
    exact .reset rfl s.inner.convId socket

theorem retry_effect {op : PeerOp} {can : CanonicalAddr} {p : Peer K} {id : SessionId}
    {s : Session K} (found : p.sessions.find can = some (id, s))
    (nowEpoch now : UInt64) (socket : Socket) :
    EffectsAt op can p
      ((p.setSession id (s.maybeRetrySyn p.config nowEpoch now socket).1).submit (some id)
        (s.maybeRetrySyn p.config nowEpoch now socket).2.1) := by
  have kept : EffectsAt op can p ((p.setSession id s).submit (some id) []) := by
    rw [setSession_same (Store.find_eq_some.mp found).2]
    simp only [submit, List.map_nil, List.append_nil]
    exact .refl
  unfold Session.maybeRetrySyn Session.retrySyn
  split
  · exact kept
  · split
    · exact kept
    · rename_i waiting
      split
      · exact kept
      · rename_i below
        split
        · exact kept
        · refine .single (.syn found waiting now (s.synRetries + 1) (.inr ⟨?_, rfl⟩) socket)
          exact UInt32.not_le.mp below

theorem scanSession_effects {op : PeerOp} {can : CanonicalAddr} (p : Peer K) (tick : Tick)
    (socket : Socket) :
    EffectsAt op can p (p.scanSession tick socket can).1 := by
  unfold scanSession
  cases found : p.sessions.find can with
  | none => exact .refl
  | some entry =>
      obtain ⟨id, s⟩ := entry
      dsimp only
      split
      · exact .refl
      · have written := Session.update_writes s tick.nowMs socket
        obtain ⟨kcp, same⟩ := s.update_withKcp tick.nowMs socket
        split
        · rename_i s' out result
          rw [result] at written same
          simp only at written same
          subst same
          exact .single (.write found kcp s.lastRx written)
        · rename_i s' out r _ result
          rw [result] at written same
          simp only at written same
          subst same
          have updated : EffectsAt op can p _ := .single (.write found kcp s.lastRx written)
          have found' : ((p.setSession id (s.withKcp kcp)).submit (some id) out).sessions.find can =
              some (id, s.withKcp kcp) := find_setSession found _
          have retried := updated.trans
            (retry_effect found' tick.nowEpoch (tick.retryClock can) socket)
          split
          · rename_i s'' out' result'
            rw [result'] at retried
            exact retried
          · rename_i s'' out' r' _ result'
            rw [result'] at retried
            exact retried

theorem scan_effects (tick : Tick) (socket socket' : Socket) (order : List CanonicalAddr)
    (p : Peer K) : Effects (.tick tick socket') p (scan tick socket order p).1 := by
  induction order generalizing p with
  | nil => exact .refl
  | cons can rest ih =>
      simp only [scan]
      exact (scanSession_effects p tick socket).effects.trans (ih _)

theorem prune_effects {op : PeerOp} {can : CanonicalAddr} {p : Peer K}
    (keyed : p.registry.Keyed) (socket : Socket) : EffectsAt op can p (prune socket p can) := by
  unfold prune
  split
  · exact .refl
  · rename_i id s found
    have own : canonicalize s.peerAddr = can := keyed_iff.mp keyed can id s found
    refine (Relation.ReflTransGen.single (.close found own)).tail ?_
    exact .reset own s.inner.convId socket

theorem foldl_prune_effects (tick : Tick) (socket socket' : Socket) (toRemove : List CanonicalAddr)
    {p : Peer K} (keyed : p.registry.Keyed) :
    Effects (.tick tick socket') p (toRemove.foldl (prune socket) p) := by
  induction toRemove generalizing p with
  | nil => exact .refl
  | cons can rest ih =>
      refine (prune_effects keyed socket).effects.trans (ih ?_)
      rw [registry_prune]
      exact Registry.keyed_of_steps (Registry.prune_steps _ keyed can) keyed

/-- Every atomic operation is a sequence of effects. -/
theorem apply_effects {p p' : Peer K} {op : PeerOp} (applied : p.apply op = some p')
    (keyed : p.registry.Keyed) : Effects op p p' := by
  cases op with
  | send peer data draw clock socket =>
      obtain rfl := Option.some.inj applied
      exact (send_effects ..).effects
  | disconnect peer socket =>
      obtain rfl := Option.some.inj applied
      exact (disconnect_effects ..).effects
  | tick tick socket =>
      obtain ⟨_, rfl⟩ := apply_tick applied
      refine (scan_effects tick socket socket tick.order p).trans
        (foldl_prune_effects tick socket socket _ ?_)
      rw [registry_scan]
      exact keyed
  | incoming data src clock socket =>
      obtain rfl := Option.some.inj applied
      exact handleIncoming_effects.effects

/-- What an effect does to a session that exists. -/
inductive Alters (op : PeerOp) (can : CanonicalAddr) (config : KcpConfig) :
    Session K → Session K → Prop
  | write {s : Session K} (kcp : K) (lastRx : UInt64) {socket : Socket} {out : List Submission}
      (written : Session.Writes s ((s.withKcp kcp).touch lastRx) socket out) :
      Alters op can config s ((s.withKcp kcp).touch lastRx)
  | syn {s : Session K} (waiting : s.inner.state = .synSent) (sentAt : UInt64) (retries : UInt32)
      (counted : retries = s.synRetries ∨
        s.synRetries < config.synMaxRetries ∧ retries = s.synRetries + 1) :
      Alters op can config s { s with synSentAt := sentAt, synRetries := retries }
  | establish {s : Session K} (waiting : s.inner.state = .synSent) (now : UInt64) :
      Alters op can config s (s.establish now)
  | adopt {s : Session K} {src : SocketAddr} {conv : UInt32} (waiting : s.inner.state = .synSent)
      (own : canonicalize src = can) (isSyn : op.IsSyn src conv) (now : UInt64) :
      Alters op can config s (s.adopt conv now)
  | close {s : Session K} : Alters op can config s s.markClosed

/-- The sessions that an operation creates. -/
inductive Creates (op : PeerOp) (can : CanonicalAddr) (config : KcpConfig) : Session K → Prop
  | initiate {peer : SocketAddr} {data : Bytes} {draw : DrawnConv} {clock : Clock} {socket : Socket}
      (asked : op = .send peer data draw clock socket) (own : canonicalize peer = can)
      (incarnation : UInt64) (now : UInt64) :
      Creates op can config (Session.newOutbound draw.val peer incarnation config now)
  | accept {src : SocketAddr} {conv : UInt32} (isSyn : op.IsSyn src conv)
      (own : canonicalize src = can) (incarnation : UInt64) (now : UInt64) :
      Creates op can config (Session.newInbound conv src incarnation config now)

/-- Where the contents of a session after an effect come from. -/
theorem Effect.object {op : PeerOp} {can : CanonicalAddr} {p p' : Peer K}
    (effect : Effect op can p p') {id : SessionId} {s' : Session K}
    (present' : p'.sessions.object? id = some s') :
    p.sessions.object? id = some s' ∨
      (∃ s, p.sessions.find can = some (id, s) ∧ Alters op can p.config s s') ∨
      (id = p.sessions.fresh ∧ Creates op can p.config s') := by
  have altered : ∀ {id₁ : SessionId} {s₁ s₂ : Session K},
      p.sessions.find can = some (id₁, s₁) → Alters op can p.config s₁ s₂ →
      (p.setSession id₁ s₂).sessions.object? id = some s' →
      p.sessions.object? id = some s' ∨
        (∃ s, p.sessions.find can = some (id, s) ∧ Alters op can p.config s s') ∨
        (id = p.sessions.fresh ∧ Creates op can p.config s') := by
    intro id₁ s₁ s₂ found alters present'
    rcases object?_setSession_cases (Store.find_eq_some.mp found).2 present' with
      ⟨rfl, rfl⟩ | kept
    · exact Or.inr (Or.inl ⟨s₁, found, alters⟩)
    · exact Or.inl kept
  have created : ∀ {s₂ : Session K}, Creates op can p.config s₂ →
      (p.insertSession can s₂).sessions.object? id = some s' →
      p.sessions.object? id = some s' ∨
        (∃ s, p.sessions.find can = some (id, s) ∧ Alters op can p.config s s') ∨
        (id = p.sessions.fresh ∧ Creates op can p.config s') := by
    intro s₂ creates present'
    simp only [insertSession, Store.object?_insertNew] at present'
    split at present'
    · rename_i fresh
      cases present'
      exact Or.inr (Or.inr ⟨fresh, creates⟩)
    · exact Or.inl present'
  cases effect with
  | write found kcp lastRx written => exact altered found (.write kcp lastRx written) present'
  | syn found waiting sentAt retries counted =>
      exact altered found (.syn waiting sentAt retries counted) present'
  | establish found waiting own now => exact altered found (.establish waiting now) present'
  | adopt found waiting own isSyn now => exact altered found (.adopt waiting own isSyn now) present'
  | initiate asked own absent => exact created (.initiate asked own _ _) present'
  | accept isSyn own clock =>
      subst own
      exact created (.accept isSyn rfl _ _) present'
  | supersede found own => exact altered found .close present'
  | close found own => exact altered found .close present'
  | acknowledge own conv => exact Or.inl present'
  | reset own conv => exact Or.inl present'
  | deliver found msgs => exact Or.inl present'

theorem Effect.fresh_le {op : PeerOp} {can : CanonicalAddr} {p p' : Peer K}
    (effect : Effect op can p p') : p.sessions.fresh ≤ p'.sessions.fresh := by
  cases effect <;>
    simp [setSession, removeKey, insertSession, synInsert, submit, emit, sendSynAck, sendReset,
      appendData, notify]

/-- A session that exists still exists after an effect, altered at most once. -/
theorem Effect.kept {op : PeerOp} {can : CanonicalAddr} {p p' : Peer K}
    (effect : Effect op can p p') {id : SessionId} {s : Session K}
    (present : p.sessions.object? id = some s) :
    ∃ s', p'.sessions.object? id = some s' ∧ (s' = s ∨ Alters op can p.config s s') := by
  have below := Store.object?_lt present
  obtain ⟨s', present'⟩ := Store.object?_of_lt (Nat.lt_of_lt_of_le below effect.fresh_le)
  refine ⟨s', present', ?_⟩
  rcases effect.object present' with same | ⟨s₁, found, alters⟩ | ⟨fresh, _⟩
  · rw [present, Option.some.injEq] at same
    exact Or.inl same.symm
  · have same := (Store.find_eq_some.mp found).2
    rw [present, Option.some.injEq] at same
    subst same
    exact Or.inr alters
  · exact absurd fresh (Nat.ne_of_lt below)

theorem Effect.config {op : PeerOp} {can : CanonicalAddr} {p p' : Peer K}
    (effect : Effect op can p p') : p'.config = p.config := by
  cases effect <;> rfl

/-- An effect is seen under its own key only. -/
theorem Effect.find_other {op : PeerOp} {can can' : CanonicalAddr} {p p' : Peer K}
    (effect : Effect op can p p') (other : can' ≠ can) :
    p'.sessions.find can' = p.sessions.find can' := by
  cases effect with
  | write found => exact find_setSession_other found _ other
  | syn found => exact find_setSession_other found _ other
  | establish found => exact find_setSession_other found _ other
  | adopt found => exact find_setSession_other found _ other
  | initiate => exact find_insertSession_other p _ other
  | accept isSyn own clock =>
      subst own
      exact find_insertSession_other p _ other
  | supersede found => exact find_setSession_other found _ other
  | close found => exact (find_removed found _ can').trans (if_neg other)
  | acknowledge => rfl
  | reset => rfl
  | deliver => rfl

theorem Effect.keyed {op : PeerOp} {can : CanonicalAddr} {p p' : Peer K}
    (effect : Effect op can p p') (keyed : p.registry.Keyed) : p'.registry.Keyed := by
  rw [keyed_iff] at keyed ⊢
  intro can' id' s' found'
  by_cases other : can' ≠ can
  · rw [effect.find_other other] at found'
    exact keyed can' id' s' found'
  · obtain rfl := not_ne_iff.mp other
    have written : ∀ {id : SessionId} {s s₁ : Session K}, p.sessions.find can' = some (id, s) →
        (p.setSession id s₁).sessions.find can' = some (id', s') → s₁.peerAddr = s.peerAddr →
        canonicalize s'.peerAddr = can' := by
      intro id₁ s s₁ found found' same
      rw [find_setSession found] at found'
      cases found'
      rw [same]
      exact keyed can' _ s found
    have inserted : ∀ {s₁ : Session K}, canonicalize s₁.peerAddr = can' →
        (p.insertSession can' s₁).sessions.find can' = some (id', s') →
        canonicalize s'.peerAddr = can' := by
      intro s₁ own found'
      rw [find_insertSession] at found'
      cases found'
      exact own
    cases effect with
    | write found => exact written found found' rfl
    | syn found => exact written found found' rfl
    | establish found => exact written found found' rfl
    | adopt found => exact written found found' rfl
    | initiate asked own => exact inserted own found'
    | accept isSyn own clock =>
        subst own
        exact inserted rfl found'
    | supersede found => exact written found found' rfl
    | close found =>
        have gone := (find_removed found _ can').symm.trans found'
        simp at gone
    | acknowledge => exact keyed can' id' s' found'
    | reset => exact keyed can' id' s' found'
    | deliver => exact keyed can' id' s' found'

theorem EffectsAt.keyed {op : PeerOp} {can : CanonicalAddr} {p p' : Peer K}
    (effects : EffectsAt op can p p') (keyed : p.registry.Keyed) : p'.registry.Keyed := by
  induction effects with
  | refl => exact keyed
  | tail _ effect ih => exact effect.keyed ih

theorem EffectsAt.find_other {op : PeerOp} {can can' : CanonicalAddr} {p p' : Peer K}
    (effects : EffectsAt op can p p') (other : can' ≠ can) :
    p'.sessions.find can' = p.sessions.find can' := by
  induction effects with
  | refl => rfl
  | tail _ effect ih => rw [effect.find_other other, ih]

/-- What every effect preserves, every operation preserves; keys and addresses
agree throughout. -/
theorem Effects.invariant {op : PeerOp} {P : Peer K → Prop}
    (keep : ∀ can p p', Effect op can p p' → p.registry.Keyed → P p → P p')
    {p p' : Peer K} (effects : Effects op p p') (keyed : p.registry.Keyed) (ok : P p) :
    p'.registry.Keyed ∧ P p' := by
  induction effects with
  | refl => exact ⟨keyed, ok⟩
  | tail _ effect ih =>
      obtain ⟨can, effect⟩ := effect
      exact ⟨effect.keyed ih.1, keep can _ _ effect ih.1 ih.2⟩

end Peer

end KcpPeer
