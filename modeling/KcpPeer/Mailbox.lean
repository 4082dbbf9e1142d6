import KcpPeer.KcpSpec
import KcpPeer.Moves

set_option autoImplicit false

namespace KcpPeer

/-- The messages appended to `pending_data` so far, each with its session. -/
def appended (log : List LogEntry) : List (SessionId × DataMessage) :=
  log.filterMap fun entry =>
    match entry with
    | .event .. => none
    | .data msg id => some (id, msg)

theorem appended_append (log log' : List LogEntry) :
    appended (log ++ log') = appended log ++ appended log' := List.filterMap_append

theorem appended_batch (id : SessionId) (batch : List DataMessage) :
    appended (batch.map fun msg => .data msg id) = batch.map fun msg => (id, msg) := by
  rw [appended, List.filterMap_map, ← List.filterMap_eq_map]
  rfl

/-- The receive task holds messages it has drained, or has still to notify. -/
def RecvPc.hands : RecvPc → Bool
  | .kcpDrained .. => true
  | .kcpAppended => true
  | _ => false

/-- The messages that are out of their instance and not yet in `pending_data`. -/
def RecvPc.batch : RecvPc → List (SessionId × Bytes)
  | .kcpDrained id msgs => msgs.map fun data => (id, data)
  | _ => []

theorem RecvPc.batch_of_hands {pc : RecvPc} (free : pc.hands = false) : pc.batch = [] := by
  cases pc with
  | kcpDrained id msgs => cases free
  | _ => rfl

namespace Session

variable {K : Type} [Kcp K]

/-- The messages that `kcp.recv` returns in the loop of `try_recv_all`. -/
def received : Nat → K → List Bytes
  | 0, _ => []
  | fuel + 1, kcp =>
      match Kcp.peeksize kcp with
      | .error _ => []
      | .ok size =>
          match Kcp.recv kcp size with
          | (_, .error _) => []
          | (kcp, .ok buf) => buf :: received fuel kcp

/-- What the session's instance yields to one `try_recv_all`. -/
def yields (s : Session K) : List Bytes := received (Kcp.rcvQueue s.inner.kcp).length s.inner.kcp

theorem drain_received (fuel : Nat) (kcp : K) (out : List Bytes) :
    (drain fuel kcp out).2.1 = out ++ received fuel kcp := by
  induction fuel generalizing kcp out with
  | zero => exact (List.append_nil out).symm
  | succ fuel ih =>
      cases peeked : Kcp.peeksize kcp with
      | error e => simp only [drain, received, peeked, List.append_nil]
      | ok size =>
          cases taken : Kcp.recv kcp size with
          | mk kcp' result =>
              cases result with
              | error e => simp only [drain, received, peeked, taken, List.append_nil]
              | ok buf =>
                  simp only [drain, received, peeked, taken]
                  rw [ih, List.append_assoc, List.singleton_append]

/-- The loop ends where `peeksize` finds no message, with the front of the receive
queue moved out in its order. -/
theorem drain_complete (law : RecvQueue K) (fuel : Nat) (kcp : K) (out : List Bytes)
    (enough : (Kcp.rcvQueue kcp).length ≤ fuel) :
    (drain fuel kcp out).2.2 = .ok () ∧
      Kcp.rcvQueue kcp = received fuel kcp ++ Kcp.rcvQueue (drain fuel kcp out).1 ∧
      ∃ e, Kcp.peeksize (drain fuel kcp out).1 = .error e := by
  induction fuel generalizing kcp out with
  | zero =>
      refine ⟨rfl, rfl, ?_⟩
      cases peeked : Kcp.peeksize kcp with
      | error e => exact ⟨e, peeked⟩
      | ok size =>
          obtain ⟨kcp', msg, _, front⟩ := law.front kcp size peeked
          rw [front] at enough
          cases enough
  | succ fuel ih =>
      cases peeked : Kcp.peeksize kcp with
      | error e =>
          simp only [drain, received, peeked]
          exact ⟨trivial, rfl, e, rfl⟩
      | ok size =>
          obtain ⟨kcp', msg, taken, front⟩ := law.front kcp size peeked
          rw [front, List.length_cons] at enough
          obtain ⟨ok, moved, dry⟩ := ih kcp' (out ++ [msg]) (Nat.le_of_succ_le_succ enough)
          simp only [drain, received, peeked, taken]
          refine ⟨ok, ?_, dry⟩
          rw [front, List.cons_append, ← moved]

theorem tryRecvAll_ok (law : RecvQueue K) (s : Session K) : s.tryRecvAll.2.2.isOk = true := by
  obtain ⟨ok, _⟩ := drain_complete law _ s.inner.kcp [] (Nat.le_refl _)
  unfold tryRecvAll
  split
  · rename_i failed
    rw [failed] at ok
    cases ok
  · rfl

theorem tryRecvAll_front (law : RecvQueue K) (s : Session K) :
    Kcp.rcvQueue s.inner.kcp = s.yields ++ Kcp.rcvQueue s.tryRecvAll.1.inner.kcp := by
  obtain ⟨_, moved, _⟩ := drain_complete law _ s.inner.kcp [] (Nat.le_refl _)
  unfold tryRecvAll
  split
  · rename_i result
    rw [result] at moved
    exact moved
  · rename_i result
    rw [result] at moved
    exact moved

theorem tryRecvAll_yields (s : Session K) : s.tryRecvAll.2.1 = s.yields := by
  have drained := drain_received (Kcp.rcvQueue s.inner.kcp).length s.inner.kcp []
  unfold tryRecvAll
  split
  · rename_i same
    rw [same] at drained
    exact drained
  · rename_i same
    rw [same] at drained
    exact drained

end Session

namespace Peer

variable {K : Type}

/-- What the peer keeps for `recv()`. -/
def mail (p : Peer K) : List DataMessage × Notify × List (SessionId × DataMessage) :=
  (p.pendingData, p.dataNotify, appended p.log)

theorem mail_eq {p p' : Peer K} (same : p'.mail = p.mail) :
    p'.pendingData = p.pendingData ∧ p'.dataNotify = p.dataNotify ∧
      appended p'.log = appended p.log := by
  simpa only [mail, Prod.mk.injEq] using same

@[simp] theorem mail_submit (p : Peer K) (origin : Option SessionId) (out : List Submission) :
    (p.submit origin out).mail = p.mail := rfl

@[simp] theorem mail_setSession (p : Peer K) (id : SessionId) (s : Session K) :
    (p.setSession id s).mail = p.mail := rfl

@[simp] theorem mail_removeKey (p : Peer K) (can : CanonicalAddr) :
    (p.removeKey can).mail = p.mail := rfl

@[simp] theorem mail_insertSession (p : Peer K) (can : CanonicalAddr) (s : Session K) :
    (p.insertSession can s).mail = p.mail := rfl

@[simp] theorem mail_sendReset (p : Peer K) (conv : UInt32) (dest : SocketAddr) (socket : Socket) :
    (p.sendReset conv dest socket).mail = p.mail := rfl

@[simp] theorem mail_emit (p : Peer K) (e : Event) (id : SessionId) :
    (p.emit e id).mail = p.mail := by
  simp only [mail, emit, appended_append]
  rw [show appended [.event e id] = [] from rfl, List.append_nil]

@[simp] theorem mail_synAcknowledge (p : Peer K) (result : SynResult) (socket : Socket) :
    (p.synAcknowledge result socket).mail = p.mail := by
  unfold synAcknowledge
  split
  · rfl
  · rfl

@[simp] theorem mail_disconnect (p : Peer K) (peer : SocketAddr) (socket : Socket) :
    (p.disconnect peer socket).mail = p.mail := by
  unfold disconnect
  split
  · rfl
  · simp only [mail_emit, mail_sendReset, mail_setSession, mail_removeKey]

@[simp] theorem mail_prune (p : Peer K) (socket : Socket) (can : CanonicalAddr) :
    (prune socket p can).mail = p.mail := by
  unfold prune
  split
  · rfl
  · simp only [mail_emit, mail_sendReset, mail_setSession, mail_removeKey]

variable [Kcp K]

@[simp] theorem mail_synInsert (p : Peer K) (src : SocketAddr) (conv : UInt32) (clock : Clock) :
    (p.synInsert src conv clock).mail = p.mail := by
  simp only [synInsert, mail_emit, mail_insertSession]

@[simp] theorem mail_synDecide (p : Peer K) (src : SocketAddr) (conv : UInt32)
    (myAddr : SocketAddr) (clock : Clock) (socket : Socket) :
    (p.synDecide src conv myAddr clock socket).1.mail = p.mail := by
  unfold synDecide
  repeat' split
  all_goals simp only [mail_emit, mail_submit, mail_setSession]

@[simp] theorem mail_synAckAccept (p : Peer K) (src : SocketAddr) (conv : UInt32) (clock : Clock)
    (socket : Socket) : (p.synAckAccept src conv clock socket).mail = p.mail := by
  unfold synAckAccept
  repeat' split
  all_goals simp only [mail_emit, mail_submit, mail_setSession]

end Peer

namespace Tasks

variable {K : Type} [Kcp K] {n n' : Tasks K}

/-- The messages that leave their instance in this step. -/
def yields (n : Tasks K) : TaskStep → List (SessionId × Bytes)
  | .recv .. =>
      match n.recv with
      | .kcpFed id =>
          match n.peer.sessions.object? id with
          | some s => s.yields.map fun data => (id, data)
          | none => []
      | _ => []
  | _ => []

/-- What a step of the tasks can do to what is kept for `recv()`. -/
inductive Mails (n : Tasks K) (label : TaskStep) (n' : Tasks K) : Prop
  | drains (id : SessionId) (s : Session K) (fed : n.recv = .kcpFed id)
      (present : n.peer.sessions.object? id = some s)
      (yielded : n.yields label = s.yields.map fun data => (id, data))
      (same : n'.peer.mail = n.peer.mail) (next : n'.recv ≠ .kcpAppended)
      (batch : s.tryRecvAll.2.2.isOk = true → n'.recv.batch = s.yields.map fun data => (id, data))
  | appends (id : SessionId) (msgs : List Bytes) (s : Session K)
      (drained : n.recv = .kcpDrained id msgs) (present : n.peer.sessions.object? id = some s)
      (yielded : n.yields label = []) (after : n'.peer = n.peer.appendData id s.peerAddr msgs)
      (next : n'.recv = .kcpAppended)
  | notifies (pushed : n.recv = .kcpAppended) (yielded : n.yields label = [])
      (after : n'.peer = n.peer.notify) (next : n'.recv = .idle)
  | takes (msg : DataMessage) (rest : List DataMessage)
      (isTake : label = .take) (pending : n.peer.pendingData = msg :: rest)
      (after : n' = { n with peer := { n.peer with pendingData := rest } })
  | rests (yielded : n.yields label = []) (same : n'.peer.mail = n.peer.mail)
      (next : n'.recv = n.recv ∨ n.recv.hands = false ∧ n'.recv.hands = false)

theorem Arrives.mails {data : Bytes} {src : SocketAddr} {clock : Clock} {socket : Socket}
    (idle : n.recv = .idle) (first : n.Arrives data src clock socket n') :
    n.Mails (.arrive data src clock socket) n' := by
  have free : n.recv.hands = false := by rw [idle]; rfl
  have rests : n'.peer.mail = n.peer.mail → n'.recv.hands = false →
      n.Mails (.arrive data src clock socket) n' := fun same next =>
    .rests rfl same (Or.inr ⟨free, next⟩)
  cases first with
  | ignored => exact rests rfl free
  | kcpFound id payload found => exact rests rfl rfl
  | kcpUnknown payload => exact rests rfl rfl
  | syn payload conv myAddr => exact rests (Peer.mail_synDecide ..) rfl
  | synAck conv => exact rests (Peer.mail_synAckAccept ..) free
  | resetFound conv id found => exact rests rfl rfl

theorem Handles.mails {clock : Clock} {socket : Socket} (next : n.Handles clock socket n') :
    n.Mails (.recv clock socket) n' := by
  have rests : ∀ {pc : RecvPc}, n.recv = pc → (∀ id, pc ≠ .kcpFed id) → pc.hands = false →
      n'.peer.mail = n.peer.mail → n'.recv.hands = false → n.Mails (.recv clock socket) n' := by
    rintro pc rfl quiet free same next
    refine .rests ?_ same (Or.inr ⟨free, next⟩)
    simp only [yields]
  have drains : ∀ {id : SessionId} {s : Session K}, n.recv = .kcpFed id →
      n.peer.sessions.object? id = some s →
      n.yields (.recv clock socket) = s.yields.map fun data => (id, data) := by
    intro id s fed present
    simp only [yields, fed, present]
  cases next with
  | answered src payload conv unknown => exact rests unknown nofun rfl rfl rfl
  | unanswered src payload unknown => exact rests unknown nofun rfl rfl rfl
  | stamped id payload s found => exact rests found nofun rfl rfl rfl
  | refused id payload s stamped => exact rests stamped nofun rfl rfl rfl
  | fed id payload s stamped => exact rests stamped nofun rfl rfl rfl
  | dry id s fed present nothing =>
      refine .drains id s fed present (drains fed present) rfl nofun ?_
      intro ok
      rw [← s.tryRecvAll_yields, nothing ok]
      rfl
  | drained id s fed present =>
      refine .drains id s fed present (drains fed present) rfl nofun ?_
      intro _
      rw [← s.tryRecvAll_yields]
      rfl
  | appended id msgs s drained present =>
      exact .appends id msgs s drained present (by simp only [yields, drained]) rfl rfl
  | notified pushed => exact .notifies pushed (by simp only [yields, pushed]) rfl rfl
  | creates src conv result decided =>
      exact rests decided nofun rfl (Peer.mail_synAcknowledge ..) rfl
  | acknowledged src conv result decided =>
      exact rests decided nofun rfl (Peer.mail_synAcknowledge ..) rfl
  | created src conv creating => exact rests creating nofun rfl rfl rfl
  | inserted src conv created => exact rests created nofun rfl (Peer.mail_synInsert ..) rfl
  | isMatched src conv id s found => exact rests found nofun rfl rfl rfl
  | unmatched src conv id found => exact rests found nofun rfl rfl rfl
  | removed src conv id isMatched => exact rests isMatched nofun rfl rfl rfl
  | closed src id s removed => exact rests removed nofun rfl rfl rfl
  | announced src id closed => exact rests closed nofun rfl (Peer.mail_emit ..) rfl

theorem Scans.mail {now : UInt64} {socket : Socket} (next : n.Scans now socket n') :
    n'.peer.mail = n.peer.mail ∧ n'.recv = n.recv := by
  cases next with
  | prunes can judged rest horizon => exact ⟨Peer.mail_prune .., rfl⟩
  | _ => exact ⟨rfl, rfl⟩

theorem Advances.mail {index : Nat} {draw : DrawnConv} {clock : Clock} {socket : Socket}
    {pc : SendPc} (next : n.Advances index draw clock socket pc n') :
    n'.peer.mail = n.peer.mail ∧ n'.recv = n.recv := by
  cases next with
  | _ => exact ⟨rfl, rfl⟩

theorem step_mails {label : TaskStep} (taken : n.step label = some n') : n.Mails label n' := by
  cases step_moves taken with
  | arrives data src clock socket idle _ first => exact first.mails idle
  | handles clock socket _ next => exact next.mails
  | scans now socket _ next =>
      obtain ⟨same, still⟩ := next.mail
      exact .rests rfl same (Or.inl still)
  | advances index draw clock socket pc reads _ next =>
      obtain ⟨same, still⟩ := next.mail
      exact .rests rfl same (Or.inl still)
  | disconnects peer socket => exact .rests rfl (Peer.mail_disconnect ..) (Or.inl rfl)
  | takes msg rest pending => exact .takes msg rest rfl pending rfl
  | _ => exact .rests rfl rfl (Or.inl rfl)

end Tasks

end KcpPeer
