import KcpPeer.Lives
import KcpPeer.Pruning
import KcpPeer.TickOrder

set_option autoImplicit false

namespace KcpPeer

theorem toNat_retry {retries limit : UInt32} (below : retries < limit) :
    (retries + 1).toNat = retries.toNat + 1 := by
  have bound := limit.toNat_lt
  rw [UInt32.lt_iff_toNat_lt] at below
  rw [UInt32.toNat_add, UInt32.toNat_one, Nat.mod_eq_of_lt (by omega)]

def Submission.isSyn (submission : Submission) : Bool :=
  match splitPacket submission.bytes with
  | some (.syn, _) => true
  | _ => false

/-- The SYNs that the code of one session object submitted. -/
def synsOf (id : SessionId) (outbox : List Outgoing) : Nat :=
  outbox.countP fun o => decide (o.origin = some id) && o.isSyn

section SynsOf

variable {K : Type} (id : SessionId)

theorem synsOf_append (left right : List Outgoing) :
    synsOf id (left ++ right) = synsOf id left + synsOf id right :=
  List.countP_append

/-- SYN_ACKs and RESETs belong to no session. -/
theorem synsOf_none (out : List Submission) :
    synsOf id (out.map fun submission => ⟨submission, none⟩) = 0 := by
  simp [synsOf]

/-- What an instance wrote is KcpData. -/
theorem synsOf_output (s : Session K) (socket : Socket) (bufs : List Bytes) (id' : SessionId) :
    synsOf id ((s.output socket bufs).map fun submission => ⟨submission, some id'⟩) = 0 := by
  simp only [synsOf, List.countP_eq_zero]
  intro o mem
  obtain ⟨submission, there, rfl⟩ := List.mem_map.mp mem
  obtain ⟨buf, _, rfl⟩ := List.mem_map.mp there
  simp [Submission.isSyn, Socket.submit]

theorem synsOf_syn (s : Session K) (conv : UInt32) (socket : Socket) (id' : SessionId) :
    synsOf id [⟨s.synSubmission conv socket, some id'⟩] = if id' = id then 1 else 0 := by
  simp [synsOf, Submission.isSyn, Session.synSubmission, Socket.submit]

theorem synsOf_other {id' : SessionId} (other : id' ≠ id) (out : List Submission) :
    synsOf id (out.map fun submission => ⟨submission, some id'⟩) = 0 := by
  simp [synsOf, other]

end SynsOf

namespace Session

variable {K : Type} [Kcp K]

/-- A retry that is not refused counts itself. -/
theorem maybeRetrySyn_syns (s : Session K) (config : KcpConfig) (nowEpoch now : UInt64)
    (socket : Socket) (id : SessionId) :
    synsOf id ((s.maybeRetrySyn config nowEpoch now socket).2.1.map
        fun submission => ⟨submission, some id⟩) + s.synRetries.toNat =
      (s.maybeRetrySyn config nowEpoch now socket).1.synRetries.toNat := by
  unfold maybeRetrySyn retrySyn
  repeat' split
  · exact Nat.zero_add _
  · exact Nat.zero_add _
  · exact Nat.zero_add _
  · exact Nat.zero_add _
  · rename_i below _
    simp only [List.map_cons, List.map_nil, synsOf_syn, ↓reduceIte,
      toNat_retry (UInt32.not_le.mp below)]
    omega

/-- A scan submits a SYN exactly when it counts one more retry. -/
theorem scan_syns (s : Session K) (config : KcpConfig) (tick : Tick) (now : UInt64)
    (socket : Socket) (id : SessionId) :
    synsOf id ((s.scan config tick now socket).2.1.map fun submission => ⟨submission, some id⟩) +
        s.synRetries.toNat = (s.scan config tick now socket).1.synRetries.toNat := by
  have retries : (s.update tick.nowMs socket).1.synRetries = s.synRetries := by
    obtain ⟨kcp, written⟩ := s.update_withKcp tick.nowMs socket
    rw [written]
    rfl
  have silent : synsOf id ((s.update tick.nowMs socket).2.1.map
      fun submission => ⟨submission, some id⟩) = 0 := by
    obtain ⟨bufs, _, written, _⟩ := s.update_writes tick.nowMs socket
    rw [written, synsOf_output]
  have retried := (s.update tick.nowMs socket).1.maybeRetrySyn_syns config tick.nowEpoch now
    socket id
  unfold scan
  split
  · exact Nat.zero_add _
  · split
    · rename_i result
      rw [result] at retries silent
      rw [silent, retries, Nat.zero_add]
    · rename_i result
      rw [result] at retries silent retried
      rw [retries] at retried
      split
      · rename_i result'
        rw [result'] at retried
        simp only [List.map_append, synsOf_append, silent, Nat.zero_add]
        exact retried
      · rename_i result'
        rw [result'] at retried
        simp only [List.map_append, synsOf_append, silent, Nat.zero_add]
        exact retried

end Session

namespace Peer

variable {K : Type} (id : SessionId)

theorem sendReset_syns (p : Peer K) (conv : UInt32) (dest : SocketAddr) (socket : Socket) :
    synsOf id (p.sendReset conv dest socket).outbox = synsOf id p.outbox := by
  simp only [sendReset, submit, synsOf_append, synsOf_none, Nat.add_zero]

theorem sendSynAck_syns (p : Peer K) (conv : UInt32) (dest : SocketAddr) (socket : Socket) :
    synsOf id (p.sendSynAck conv dest socket).outbox = synsOf id p.outbox := by
  simp only [sendSynAck, submit, synsOf_append, synsOf_none, Nat.add_zero]

theorem prune_syns (socket : Socket) (p : Peer K) (can : CanonicalAddr) :
    synsOf id (prune socket p can).outbox = synsOf id p.outbox := by
  unfold prune
  split
  · rfl
  · exact sendReset_syns id p _ _ socket

theorem disconnect_syns (p : Peer K) (peer : SocketAddr) (socket : Socket) :
    synsOf id (p.disconnect peer socket).outbox = synsOf id p.outbox := by
  unfold disconnect
  split
  · rfl
  · exact sendReset_syns id p _ _ socket

variable [Kcp K]

theorem sendOn_syns (p : Peer K) (id' : SessionId) (s : Session K) (data : Bytes) (clock : Clock)
    (socket : Socket) :
    synsOf id (p.sendOn id' s data clock socket).1.outbox = synsOf id p.outbox := by
  obtain ⟨bufs, _, written, _⟩ := s.sendData_writes data clock.currentMs socket
  simp only [sendOn, submit, setSession, synsOf_append, written, synsOf_output, Nat.add_zero]

theorem pump_syns (p : Peer K) (id' : SessionId) (s : Session K) (now : UInt32) (socket : Socket) :
    synsOf id (p.submit (some id') (s.pump now socket).2).outbox = synsOf id p.outbox := by
  simp only [Session.pump, submit, synsOf_append, synsOf_output, Nat.add_zero]

theorem handleKcpData_syns (p : Peer K) (payload : Bytes) (src : SocketAddr) (clock : Clock)
    (socket : Socket) :
    synsOf id (p.handleKcpData payload src clock socket).1.outbox = synsOf id p.outbox := by
  cases found : p.sessions.find (canonicalize src) with
  | none =>
      simp only [handleKcpData, found]
      split
      · exact sendReset_syns id p _ src socket
      · rfl
  | some entry =>
      rw [handleKcpData_feed p payload src clock socket found]
      rcases Kcp.feed entry.2.inner.kcp payload with ⟨kcp, msgs, e | _⟩
      · rfl
      · cases msgs with
        | nil => rfl
        | cons msg msgs => rfl

theorem synDecide_syns (p : Peer K) (src : SocketAddr) (conv : UInt32) (myAddr : SocketAddr)
    (clock : Clock) (socket : Socket) :
    synsOf id (p.synDecide src conv myAddr clock socket).1.outbox = synsOf id p.outbox := by
  unfold synDecide
  cases p.sessions.find (canonicalize src) with
  | none => rfl
  | some entry =>
      dsimp only
      split
      · split
        · rfl
        · rfl
      · split
        · split
          · exact pump_syns id (p.setSession entry.1 _) entry.1 _ clock.currentMs socket
          · exact pump_syns id (p.setSession entry.1 _) entry.1 _ clock.currentMs socket
        · rfl

theorem handleSyn_syns (p : Peer K) (payload : Bytes) (src : SocketAddr) (clock : Clock)
    (socket : Socket) :
    synsOf id (p.handleSyn payload src clock socket).1.outbox = synsOf id p.outbox := by
  unfold handleSyn
  cases readConv payload with
  | none => rfl
  | some conv =>
      cases socket.localAddr with
      | error e => rfl
      | ok myAddr =>
          have decided := synDecide_syns id p src conv myAddr clock socket
          rcases decision : p.synDecide src conv myAddr clock socket with
            ⟨p₁, action, sendAckTo, ackConv⟩
          rw [decision] at decided
          have acknowledged : synsOf id
              (p₁.synAcknowledge ⟨action, sendAckTo, ackConv⟩ socket).outbox =
                synsOf id p₁.outbox := by
            cases sendAckTo with
            | none => rfl
            | some dest => exact sendSynAck_syns id p₁ ackConv dest socket
          dsimp only
          rw [decision, ← decided]
          refine Eq.trans ?_ acknowledged
          cases action with
          | createNew => exact sendSynAck_syns id _ conv src socket
          | keepExisting => rfl
          | ignore => rfl

theorem handleSynAck_syns (p : Peer K) (payload : Bytes) (src : SocketAddr) (clock : Clock)
    (socket : Socket) :
    synsOf id (p.handleSynAck payload src clock socket).1.outbox = synsOf id p.outbox := by
  unfold handleSynAck
  cases readConv payload with
  | none => rfl
  | some conv =>
      dsimp only [synAckAccept]
      cases p.sessions.find (canonicalize src) with
      | none => rfl
      | some entry =>
          dsimp only
          split
          · rfl
          · split
            · exact pump_syns id (p.setSession entry.1 _) entry.1 _ clock.currentMs socket
            · rfl

theorem handleIncoming_syns (p : Peer K) (data : Bytes) (src : SocketAddr) (clock : Clock)
    (socket : Socket) :
    synsOf id (p.handleIncoming data src clock socket).1.outbox = synsOf id p.outbox := by
  unfold handleIncoming
  split
  · rfl
  · exact handleKcpData_syns id p _ src clock socket
  · exact handleSyn_syns id p _ src clock socket
  · exact handleSynAck_syns id p _ src clock socket
  · unfold handleReset
    repeat' split
    all_goals rfl

/-- The SYN retries a session object has counted. -/
def retriesOf (p : Peer K) : Nat :=
  match p.sessions.object? id with
  | some s => s.synRetries.toNat
  | none => 0

/-- From `p` to `p'` the session submitted at most `allowance` SYNs it did not count. -/
def Tries (allowance : Nat) (p p' : Peer K) : Prop :=
  synsOf id p'.outbox + retriesOf id p ≤ allowance + synsOf id p.outbox + retriesOf id p'

variable {id}

omit [Kcp K] in
theorem Tries.refl (p : Peer K) : Tries id 0 p p := by
  unfold Tries
  omega

omit [Kcp K] in
theorem Tries.trans {a b : Nat} {p p' p'' : Peer K} (first : Tries id a p p')
    (second : Tries id b p' p'') : Tries id (a + b) p p'' := by
  unfold Tries at *
  omega

/-- An effect takes back no retry. -/
theorem Effect.retriesOf_le {op : PeerOp} {can : CanonicalAddr} {p p' : Peer K}
    (effect : Effect op can p p') : retriesOf id p ≤ retriesOf id p' := by
  unfold retriesOf
  cases present : p.sessions.object? id with
  | none => exact Nat.zero_le _
  | some s =>
      obtain ⟨s', present', rfl | altered⟩ := effect.kept present
      · rw [present']
      · rw [present']
        cases altered with
        | syn waiting sentAt retries counted =>
            rcases counted with rfl | ⟨below, rfl⟩
            · exact Nat.le_refl _
            · simp only [toNat_retry below]
              omega
        | _ => exact Nat.le_refl _

theorem Effects.retriesOf_le {op : PeerOp} {p p' : Peer K} (effects : Effects op p p') :
    retriesOf id p ≤ retriesOf id p' := by
  induction effects with
  | refl => exact Nat.le_refl _
  | tail _ effect ih =>
      obtain ⟨can, effect⟩ := effect
      exact ih.trans effect.retriesOf_le

/-- A step whose SYNs are known otherwise. -/
theorem Tries.of_effects {op : PeerOp} {p p' : Peer K} {allowance : Nat}
    (effects : Effects op p p') (syns : synsOf id p'.outbox ≤ allowance + synsOf id p.outbox) :
    Tries id allowance p p' := by
  have kept : retriesOf id p ≤ retriesOf id p' := effects.retriesOf_le
  unfold Tries
  omega

theorem scanSession_tries (p : Peer K) (tick : Tick) (socket : Socket) (can : CanonicalAddr) :
    Tries id 0 p (p.scanSession tick socket can).1 := by
  cases found : p.sessions.find can with
  | none =>
      rw [scanSession_absent tick socket found]
      exact .refl p
  | some entry =>
      obtain ⟨id', s⟩ := entry
      by_cases same : id' = id
      · subst same
        have present := (Store.find_eq_some.mp found).2
        have counted := s.scan_syns p.config tick (tick.retryClock can) socket id'
        rw [scanSession_found tick socket found]
        simp only [Tries, retriesOf, synsOf_append, Store.object?_modify_self, present,
          Option.map_some]
        omega
      · have effects : EffectsAt (.tick tick socket) can p (p.scanSession tick socket can).1 :=
          scanSession_effects p tick socket
        refine .of_effects effects.effects ?_
        rw [scanSession_found tick socket found]
        simp only [synsOf_append, synsOf_other id same]
        omega

theorem updateTick_tries {p : Peer K} {tick : Tick} {socket : Socket}
    (keyed : p.registry.Keyed) : Tries id 0 p (p.updateTick tick socket) := by
  have scanned : ∀ (order : List CanonicalAddr) (p : Peer K),
      Tries id 0 p (scan tick socket order p).1 := by
    intro order
    induction order with
    | nil => exact fun p => .refl p
    | cons can rest ih => exact fun p => (scanSession_tries p tick socket can).trans (ih _)
  have removed : ∀ (keys : List CanonicalAddr) (p : Peer K),
      synsOf id (keys.foldl (prune socket) p).outbox = synsOf id p.outbox := by
    intro keys
    induction keys with
    | nil => exact fun p => rfl
    | cons can rest ih => exact fun p => (ih _).trans (prune_syns id socket p can)
  refine (scanned tick.order p).trans (.of_effects (foldl_prune_effects tick socket socket _ ?_)
    (Nat.le_of_eq ((removed _ _).trans (Nat.zero_add _).symm)))
  rw [registry_scan]
  exact keyed

/-- A session is allowed one SYN, its first, by the operation that creates it. -/
theorem apply_tries {p p' : Peer K} {op : PeerOp} (keyed : p.registry.Keyed)
    (applied : p.apply op = some p') :
    Tries id (if p.sessions.fresh ≤ id ∧ id < p'.sessions.fresh then 1 else 0) p p' := by
  have effects := apply_effects applied keyed
  cases op with
  | tick tick socket =>
      obtain ⟨_, rfl⟩ := apply_tick applied
      have tries : Tries id 0 p (p.updateTick tick socket) := updateTick_tries keyed
      unfold Tries at *
      omega
  | disconnect peer socket =>
      obtain rfl := Option.some.inj applied
      refine .of_effects effects ?_
      rw [disconnect_syns]
      omega
  | incoming data src clock socket =>
      obtain rfl := Option.some.inj applied
      refine .of_effects effects ?_
      rw [handleIncoming_syns]
      omega
  | send peer data draw clock socket =>
      obtain rfl := Option.some.inj applied
      refine .of_effects effects ?_
      unfold send
      cases p.sessions.find (canonicalize peer) with
      | some entry =>
          dsimp only
          rw [sendOn_syns]
          omega
      | none =>
          have fresh := fresh_initiateSession p peer draw clock socket
          have kept : ∀ s : Session K, ((p.initiateSession peer draw clock socket).1.sendOn
              (p.initiateSession peer draw clock socket).2.1 s data clock socket).1.sessions.fresh =
                (p.initiateSession peer draw clock socket).1.sessions.fresh :=
            fun s => Store.fresh_modify ..
          dsimp only
          rw [sendOn_syns, kept, fresh]
          simp only [initiateSession, submit, setSession, insertSession, List.map_cons,
            List.map_nil, synsOf_append, synsOf_syn]
          split
          · rename_i born
            subst born
            rw [if_pos ⟨Nat.le_refl _, Nat.lt_succ_self _⟩]
            omega
          · omega

theorem Effect.bounded {op : PeerOp} {can : CanonicalAddr} {p p' : Peer K}
    (effect : Effect op can p p')
    (bounded : ∀ id s, p.sessions.object? id = some s → s.synRetries ≤ p.config.synMaxRetries) :
    ∀ id s, p'.sessions.object? id = some s → s.synRetries ≤ p'.config.synMaxRetries := by
  intro id s' present'
  rw [effect.config]
  rcases effect.object present' with same | ⟨s, found, altered⟩ | ⟨_, created⟩
  · exact bounded id s' same
  · have before := bounded id s (Store.find_eq_some.mp found).2
    cases altered with
    | syn waiting sentAt retries counted =>
        rcases counted with rfl | ⟨below, rfl⟩
        · exact before
        · rw [UInt32.le_iff_toNat_le]
          rw [UInt32.lt_iff_toNat_lt] at below
          simp only [toNat_retry (UInt32.lt_iff_toNat_lt.mpr below)]
          omega
    | _ => exact before
  · cases created with
    | initiate => exact UInt32.zero_le
    | accept => exact UInt32.zero_le

theorem fresh_apply_le {p p' : Peer K} {op : PeerOp} (keyed : p.registry.Keyed)
    (applied : p.apply op = some p') : p.sessions.fresh ≤ p'.sessions.fresh := by
  have effects := apply_effects applied keyed
  clear applied keyed
  induction effects with
  | refl => exact Nat.le_refl _
  | tail _ effect ih =>
      obtain ⟨can, effect⟩ := effect
      exact ih.trans effect.fresh_le

end Peer

/-- What holds of the SYNs of every session object: one for its creation and one for each
retry it counts, and no more retries than allowed. -/
structure Attempted {K : Type} (p : Peer K) : Prop where
  counted : ∀ id, synsOf id p.outbox ≤
    p.retriesOf id + if id < p.sessions.fresh then 1 else 0
  bounded : ∀ id s, p.sessions.object? id = some s → s.synRetries ≤ p.config.synMaxRetries

theorem peerMachine_attempted {K : Type} [Kcp K] {incarnation : UInt64} {config : KcpConfig}
    {p : Peer K} (reached : (peerMachine K incarnation config).Reach Machine.always p) :
    Attempted p := by
  refine reached.invariant_with (P := Attempted) (fun _ => peerMachine_keyed) ?_ ?_
  · refine ⟨fun id => Nat.zero_le _, fun id s present => ?_⟩
    simp [peerMachine, Peer.bind] at present
  · rintro before op after ⟨counted, bounded⟩ keyed _ applied
    refine ⟨fun id => ?_, ?_⟩
    · have tries : Peer.Tries id (if before.sessions.fresh ≤ id ∧ id < after.sessions.fresh then 1
          else 0) before after := Peer.apply_tries keyed applied
      have grown := Peer.fresh_apply_le keyed applied
      have count := counted id
      unfold Peer.Tries at tries
      by_cases old : id < before.sessions.fresh
      · rw [if_pos old] at count
        rw [if_neg (fun born => Nat.not_le_of_lt old born.1)] at tries
        rw [if_pos (Nat.lt_of_lt_of_le old grown)]
        omega
      · rw [if_neg old] at count
        by_cases born : id < after.sessions.fresh
        · rw [if_pos ⟨Nat.not_lt.mp old, born⟩] at tries
          rw [if_pos born]
          omega
        · rw [if_neg (fun both => born both.2)] at tries
          rw [if_neg born]
          omega
    · exact (Peer.Effects.invariant
        (P := fun p => ∀ id s, p.sessions.object? id = some s →
          s.synRetries ≤ p.config.synMaxRetries)
        (fun _ _ _ effect _ => effect.bounded) (Peer.apply_effects applied keyed) keyed bounded).2

end KcpPeer
