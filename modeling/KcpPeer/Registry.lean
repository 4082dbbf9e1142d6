import KcpPeer.Transport
import Mathlib.Logic.Relation

set_option autoImplicit false

namespace KcpPeer

/-- What the handshake and the session map depend on in a session. -/
structure View where
  peerAddr : SocketAddr
  closed : Bool
  state : SessionState
  convId : UInt32
  deriving DecidableEq, Repr

namespace Session

variable {K : Type}

def view (s : Session K) : View := ⟨s.peerAddr, s.closed, s.inner.state, s.inner.convId⟩

@[simp] theorem view_markClosed (s : Session K) :
    s.markClosed.view = { s.view with closed := true } := rfl

@[simp] theorem view_establish (s : Session K) (now : UInt64) :
    (s.establish now).view = { s.view with state := .established } := rfl

@[simp] theorem inner_sendSyn (s : Session K) (conv : UInt32) (now : UInt64) (socket : Socket) :
    (s.sendSyn conv now socket).inner = s.inner := by
  unfold sendSyn
  split
  · rfl
  · rfl

@[simp] theorem view_sendSyn (s : Session K) (conv : UInt32) (now : UInt64) (socket : Socket) :
    (s.sendSyn conv now socket).view = s.view := by
  unfold sendSyn
  split <;> rfl

variable [Kcp K]

@[simp] theorem view_adopt (s : Session K) (conv : UInt32) (now : UInt64) :
    (s.adopt conv now).view = { s.view with state := .established, convId := conv } := rfl

@[simp] theorem view_newOutbound (conv : UInt32) (peer : SocketAddr) (incarnation : UInt64)
    (config : KcpConfig) (now : UInt64) :
    (newOutbound conv peer incarnation config now : Session K).view =
      ⟨peer, false, .synSent, conv⟩ := rfl

@[simp] theorem view_newInbound (conv : UInt32) (peer : SocketAddr) (incarnation : UInt64)
    (config : KcpConfig) (now : UInt64) :
    (newInbound conv peer incarnation config now : Session K).view =
      ⟨peer, false, .established, conv⟩ := rfl

@[simp] theorem view_pump (s : Session K) (now : UInt32) (socket : Socket) :
    (s.pump now socket).1.view = s.view := rfl

@[simp] theorem view_queueData (s : Session K) (data : Bytes) (now : UInt32) (socket : Socket) :
    (s.queueData data now socket).1.view = s.view := by
  unfold queueData
  dsimp only
  repeat' split
  all_goals rfl

@[simp] theorem view_sendData (s : Session K) (data : Bytes) (now : UInt32) (socket : Socket) :
    (s.sendData data now socket).1.view = s.view := by
  unfold sendData
  split
  · rfl
  · exact view_queueData s data now socket

@[simp] theorem view_update (s : Session K) (now : UInt32) (socket : Socket) :
    (s.update now socket).1.view = s.view := by
  unfold update
  dsimp only
  repeat' split
  all_goals rfl

@[simp] theorem view_input (s : Session K) (data : Bytes) : (s.input data).1.view = s.view := by
  unfold input
  split <;> rfl

@[simp] theorem view_tryRecvAll (s : Session K) : s.tryRecvAll.1.view = s.view := by
  unfold tryRecvAll
  split <;> rfl

@[simp] theorem view_retrySyn (s : Session K) (conv : UInt32) (config : KcpConfig)
    (nowEpoch now : UInt64) (socket : Socket) :
    (s.retrySyn conv config nowEpoch now socket).1.view = s.view := by
  unfold retrySyn
  repeat' split
  all_goals rfl

@[simp] theorem view_maybeRetrySyn (s : Session K) (config : KcpConfig)
    (nowEpoch now : UInt64) (socket : Socket) :
    (s.maybeRetrySyn config nowEpoch now socket).1.view = s.view := by
  unfold maybeRetrySyn
  repeat' split
  · rfl
  · rfl
  · exact view_retrySyn s _ config nowEpoch now socket

end Session

/-- The abstract peer: which session each address has, what is visible of every
session object, and the history of events and deliveries. -/
structure Registry where
  sessions : Store CanonicalAddr View
  log : List LogEntry

namespace Registry

def emit (r : Registry) (e : Event) (id : SessionId) : Registry :=
  { r with log := r.log ++ [.event e id] }

def set (r : Registry) (id : SessionId) (v : View) : Registry :=
  { r with sessions := r.sessions.modify id fun _ => v }

/-- `initiate_session` registers an outbound session. -/
def openTo (r : Registry) (peer : SocketAddr) (conv : UInt32) : Registry :=
  { r with sessions := r.sessions.insertNew (canonicalize peer) ⟨peer, false, .synSent, conv⟩ }

/-- The SYN handler registers an inbound session. -/
def accept (r : Registry) (src : SocketAddr) (conv : UInt32) : Registry :=
  emit
    { r with sessions := r.sessions.insertNew (canonicalize src) ⟨src, false, .established, conv⟩ }
    (.connected src) r.sessions.fresh

/-- A handshake completes with the given conversation id. -/
def establish (r : Registry) (id : SessionId) (v : View) (conv : UInt32) (src : SocketAddr) :
    Registry :=
  (r.set id { v with state := .established, convId := conv }).emit (.connected src) id

/-- The SYN handler gives up an established session. -/
def supersede (r : Registry) (id : SessionId) (v : View) (src : SocketAddr) : Registry :=
  (r.set id { v with closed := true }).emit (.peerRestarted src) id

/-- A session leaves the map and is closed. -/
def close (r : Registry) (can : CanonicalAddr) (id : SessionId) (v : View) (addr : SocketAddr) :
    Registry :=
  (set { r with sessions := r.sessions.remove can } id { v with closed := true }).emit
    (.disconnected addr) id

def deliver (r : Registry) (id : SessionId) (msgs : List DataMessage) : Registry :=
  { r with log := r.log ++ msgs.map fun msg => .data msg id }

/-- The effect of a SYN carrying `conv`; `yields` is the comparison
`from > my_addr` of the tie-break. -/
def syn (r : Registry) (src : SocketAddr) (conv : UInt32) (yields : Bool) : Registry :=
  match r.sessions.find (canonicalize src) with
  | none => r.accept src conv
  | some (id, v) =>
      if v.convId = conv then r
      else
        match v.state with
        | .synSent => r.establish id v (if yields then conv else v.convId) src
        | .established => (r.supersede id v src).accept src conv

def synAck (r : Registry) (src : SocketAddr) (conv : UInt32) : Registry :=
  match r.sessions.find (canonicalize src) with
  | none => r
  | some (id, v) =>
      match v.state with
      | .established => r
      | .synSent => if v.convId = conv then r.establish id v v.convId src else r

def reset (r : Registry) (src : SocketAddr) (conv : UInt32) : Registry :=
  match r.sessions.find (canonicalize src) with
  | none => r
  | some (id, v) => if v.convId = conv then r.close (canonicalize src) id v src else r

def disconnect (r : Registry) (peer : SocketAddr) : Registry :=
  match r.sessions.find (canonicalize peer) with
  | none => r
  | some (id, v) => r.close (canonicalize peer) id v peer

def prune (r : Registry) (can : CanonicalAddr) : Registry :=
  match r.sessions.find can with
  | none => r
  | some (id, v) => r.close can id v v.peerAddr

def send (r : Registry) (peer : SocketAddr) (conv : UInt32) : Registry :=
  match r.sessions.find (canonicalize peer) with
  | some _ => r
  | none => r.openTo peer conv

end Registry

namespace Peer

variable {K : Type}

def registry (p : Peer K) : Registry := ⟨p.sessions.map Session.view, p.log⟩

@[simp] theorem registry_bind (incarnation : UInt64) (config : KcpConfig) :
    (bind incarnation config : Peer K).registry = ⟨.empty, []⟩ := rfl

@[simp] theorem registry_submit (p : Peer K) (origin : Option SessionId) (out : List Submission) :
    (p.submit origin out).registry = p.registry := rfl

@[simp] theorem registry_emit (p : Peer K) (e : Event) (id : SessionId) :
    (p.emit e id).registry = p.registry.emit e id := rfl

@[simp] theorem registry_notify (p : Peer K) : p.notify.registry = p.registry := rfl

@[simp] theorem registry_sendReset (p : Peer K) (conv : UInt32) (dest : SocketAddr)
    (socket : Socket) : (p.sendReset conv dest socket).registry = p.registry := rfl

@[simp] theorem registry_sendSynAck (p : Peer K) (conv : UInt32) (dest : SocketAddr)
    (socket : Socket) : (p.sendSynAck conv dest socket).registry = p.registry := rfl

@[simp] theorem registry_removeKey (p : Peer K) (can : CanonicalAddr) :
    (p.removeKey can).registry = { p.registry with sessions := p.registry.sessions.remove can } :=
  rfl

@[simp] theorem registry_setSession (p : Peer K) (id : SessionId) (s : Session K) :
    (p.setSession id s).registry = p.registry.set id s.view := by
  simp only [registry, setSession, Registry.set]
  rw [Store.map_modify _ _ _ _ (fun _ => s.view) fun _ => rfl]

@[simp] theorem registry_insertSession (p : Peer K) (can : CanonicalAddr) (s : Session K) :
    (p.insertSession can s).registry =
      { p.registry with sessions := p.registry.sessions.insertNew can s.view } := by
  simp only [registry, insertSession, Store.map_insertNew]

theorem registry_find (p : Peer K) (can : CanonicalAddr) :
    p.registry.sessions.find can =
      (p.sessions.find can).map fun found => (found.1, found.2.view) :=
  Store.find_map p.sessions Session.view can

theorem registry_object? (p : Peer K) (id : SessionId) :
    p.registry.sessions.object? id = (p.sessions.object? id).map Session.view :=
  Store.object?_map p.sessions Session.view id

/-- Writing back a session whose view has not changed is invisible. -/
theorem registry_setSession_same (p : Peer K) {id : SessionId} {s s' : Session K}
    (present : p.sessions.object? id = some s) (same : s'.view = s.view) :
    (p.setSession id s').registry = p.registry := by
  have visible : p.registry.sessions.object? id = some s.view := by
    rw [registry_object?, present, Option.map_some]
  rw [registry_setSession, same, Registry.set,
    Store.modify_same p.registry.sessions (fun _ => s.view) visible rfl]

/-- Writing a session that is in the store makes it the session's contents. -/
theorem object?_setSession (p : Peer K) {id : SessionId} {s : Session K} (s' : Session K)
    (present : p.sessions.object? id = some s) :
    (p.setSession id s').sessions.object? id = some s' := by
  simp only [setSession, Store.object?_modify_self, present, Option.map_some]

theorem find_setSession {p : Peer K} {can : CanonicalAddr} {id : SessionId} {s : Session K}
    (found : p.sessions.find can = some (id, s)) (s' : Session K) :
    (p.setSession id s').sessions.find can = some (id, s') := by
  rw [setSession, Store.find_modify _ _ _ found, if_pos rfl]

theorem object?_insertSession (p : Peer K) (can : CanonicalAddr) (s : Session K) :
    (p.insertSession can s).sessions.object? p.sessions.fresh = some s := by
  simp only [insertSession, Store.object?_insertNew, ↓reduceIte]

theorem registry_disconnect (p : Peer K) (peer : SocketAddr) (socket : Socket) :
    (p.disconnect peer socket).registry = p.registry.disconnect peer := by
  unfold disconnect Registry.disconnect
  rw [registry_find]
  cases p.sessions.find (canonicalize peer) with
  | none => rfl
  | some entry =>
      simp only [Option.map_some, registry_emit, registry_sendReset, registry_setSession,
        registry_removeKey, Session.view_markClosed, Registry.close]

theorem registry_prune (p : Peer K) (socket : Socket) (can : CanonicalAddr) :
    (prune socket p can).registry = p.registry.prune can := by
  unfold prune Registry.prune
  rw [registry_find]
  cases p.sessions.find can with
  | none => rfl
  | some entry =>
      simp only [Option.map_some, registry_emit, registry_setSession, registry_sendReset,
        registry_removeKey, Session.view_markClosed, Registry.close]
      rfl

theorem registry_foldl_prune (socket : Socket) (toRemove : List CanonicalAddr) (p : Peer K) :
    (toRemove.foldl (prune socket) p).registry = toRemove.foldl Registry.prune p.registry := by
  induction toRemove generalizing p with
  | nil => rfl
  | cons can rest ih =>
      simp only [List.foldl_cons]
      rw [ih, registry_prune]

variable [Kcp K]

theorem registry_sendOn (p : Peer K) {id : SessionId} {s : Session K} (data : Bytes)
    (clock : Clock) (socket : Socket) (present : p.sessions.object? id = some s) :
    (p.sendOn id s data clock socket).1.registry = p.registry := by
  simp only [sendOn, registry_submit]
  exact registry_setSession_same p present (Session.view_sendData s data clock.currentMs socket)

theorem registry_initiateSession (p : Peer K) (peer : SocketAddr) (draw : DrawnConv)
    (clock : Clock) (socket : Socket) :
    (p.initiateSession peer draw clock socket).1.registry = p.registry.openTo peer draw.val := by
  simp only [initiateSession, registry_submit]
  rw [registry_setSession_same _ (object?_insertSession p _ _) (Session.view_sendSyn ..)]
  simp only [registry_insertSession, Session.view_newOutbound, Registry.openTo]

theorem object?_initiateSession (p : Peer K) (peer : SocketAddr) (draw : DrawnConv)
    (clock : Clock) (socket : Socket) :
    (p.initiateSession peer draw clock socket).1.sessions.object?
        (p.initiateSession peer draw clock socket).2.1 =
      some (p.initiateSession peer draw clock socket).2.2 := by
  simp only [initiateSession]
  exact object?_setSession _ _ (object?_insertSession p _ _)

theorem find_initiateSession (p : Peer K) (peer : SocketAddr) (draw : DrawnConv)
    (clock : Clock) (socket : Socket) :
    (p.initiateSession peer draw clock socket).1.sessions.find (canonicalize peer) =
      some ((p.initiateSession peer draw clock socket).2.1,
        (p.initiateSession peer draw clock socket).2.2) := by
  simp only [initiateSession]
  refine find_setSession (s := Session.newOutbound draw.val peer p.incarnation p.config
    clock.epochMs) ?_ _
  rw [insertSession, Store.find_insertNew, if_pos rfl]

theorem fresh_initiateSession (p : Peer K) (peer : SocketAddr) (draw : DrawnConv)
    (clock : Clock) (socket : Socket) :
    (p.initiateSession peer draw clock socket).1.sessions.fresh = p.sessions.fresh + 1 := by
  simp only [initiateSession, submit, setSession, insertSession, Store.fresh_modify,
    Store.fresh_insertNew]

theorem registry_send (p : Peer K) (peer : SocketAddr) (data : Bytes) (draw : DrawnConv)
    (clock : Clock) (socket : Socket) :
    (p.send peer data draw clock socket).1.registry = p.registry.send peer draw.val := by
  unfold send Registry.send
  rw [registry_find]
  cases found : p.sessions.find (canonicalize peer) with
  | none =>
      dsimp only [Option.map_none]
      rw [registry_sendOn _ _ _ _ (object?_initiateSession p peer draw clock socket),
        registry_initiateSession]
  | some entry =>
      exact registry_sendOn p data clock socket (Store.find_eq_some.mp found).2

/-- A KcpData datagram is visible only through the messages it completes. -/
theorem registry_handleKcpData (p : Peer K) (payload : Bytes) (src : SocketAddr) (clock : Clock)
    (socket : Socket) :
    (p.handleKcpData payload src clock socket).1.registry = p.registry ∨
      ∃ id s msgs, p.sessions.find (canonicalize src) = some (id, s) ∧
        (p.handleKcpData payload src clock socket).1.registry = p.registry.deliver id msgs := by
  unfold handleKcpData
  cases found : p.sessions.find (canonicalize src) with
  | none =>
      dsimp only
      split
      · exact Or.inl rfl
      · exact Or.inl rfl
  | some entry =>
      obtain ⟨id, s⟩ := entry
      have present := (Store.find_eq_some.mp found).2
      dsimp only
      have fed := Session.view_input (s.touch clock.epochMs) payload
      split
      · rename_i s' e input
        rw [input] at fed
        exact Or.inl (registry_setSession_same p present fed)
      · rename_i s' _ input
        rw [input] at fed
        have drained := Session.view_tryRecvAll s'
        split
        · rename_i s'' msgs e received
          rw [received] at drained
          exact Or.inl (registry_setSession_same p present (drained.trans fed))
        · rename_i s'' _ received
          rw [received] at drained
          exact Or.inl (registry_setSession_same p present (drained.trans fed))
        · rename_i s'' msg msgs _ received
          rw [received] at drained
          refine Or.inr ⟨id, s, (msg :: msgs).map fun data => ⟨s''.peerAddr, data⟩, rfl, ?_⟩
          have written := registry_setSession_same p present (drained.trans fed)
          rw [registry_notify, Registry.deliver, ← written]
          rfl

theorem registry_synFinish_createNew (p : Peer K) (src : SocketAddr) (conv : UInt32)
    (clock : Clock) (socket : Socket) :
    (p.synFinish ⟨.createNew, none, 0⟩ src conv clock socket).registry =
      p.registry.accept src conv := by
  simp only [synFinish, synInsert, registry_emit, registry_insertSession, registry_sendSynAck,
    Session.view_newInbound, Registry.accept]
  simp only [registry, Store.fresh_map]
  rfl

theorem registry_handleSyn (p : Peer K) {payload : Bytes} {conv : UInt32} {myAddr : SocketAddr}
    (src : SocketAddr) (clock : Clock) (socket : Socket) (decoded : readConv payload = some conv)
    (local_addr : socket.localAddr = .ok myAddr) :
    (p.handleSyn payload src clock socket).1.registry =
      p.registry.syn src conv (decide (myAddr < src)) := by
  simp only [handleSyn, decoded, local_addr, synDecide, Registry.syn, registry_find]
  cases found : p.sessions.find (canonicalize src) with
  | none => exact registry_synFinish_createNew p src conv clock socket
  | some entry =>
      obtain ⟨id, s⟩ := entry
      have present := (Store.find_eq_some.mp found).2
      simp only [Option.map_some]
      by_cases same : s.inner.convId = conv
      · rw [if_pos same, if_pos (show s.view.convId = conv from same)]
        cases state : s.inner.state with
        | synSent => rfl
        | established => exact registry_setSession_same p present rfl
      · rw [if_neg same, if_neg (show ¬ s.view.convId = conv from same)]
        have viewState : s.view.state = s.inner.state := rfl
        cases state : s.inner.state with
        | synSent =>
            rw [state] at viewState
            simp only [viewState, decide_eq_true_eq]
            by_cases yields : myAddr < src
            · simp only [yields, ↓reduceIte]
              simp only [synFinish, synAcknowledge, registry_sendSynAck, registry_emit,
                registry_submit, registry_setSession, Session.view_pump, Session.view_adopt,
                Registry.establish]
            · simp only [yields, ↓reduceIte]
              simp only [synFinish, synAcknowledge, registry_sendSynAck, registry_emit,
                registry_submit, registry_setSession, Session.view_pump, Session.view_establish,
                Registry.establish]
        | established =>
            rw [state] at viewState
            simp only [viewState]
            have unanswered : ∀ q : Peer K, q.synAcknowledge ⟨.createNew, none, 0⟩ socket = q :=
              fun _ => rfl
            rw [unanswered, registry_synFinish_createNew]
            simp only [registry_emit, registry_setSession, Session.view_markClosed,
              Registry.supersede]

theorem registry_handleSynAck (p : Peer K) {payload : Bytes} {conv : UInt32}
    (src : SocketAddr) (clock : Clock) (socket : Socket) (decoded : readConv payload = some conv) :
    (p.handleSynAck payload src clock socket).1.registry = p.registry.synAck src conv := by
  simp only [handleSynAck, decoded, synAckAccept, Registry.synAck, registry_find]
  cases p.sessions.find (canonicalize src) with
  | none => rfl
  | some entry =>
      obtain ⟨id, s⟩ := entry
      simp only [Option.map_some]
      have viewState : s.view.state = s.inner.state := rfl
      cases state : s.inner.state with
      | established => simp only [viewState, state]
      | synSent =>
          simp only [viewState, state]
          by_cases same : s.inner.convId = conv
          · rw [if_pos same, if_pos (show s.view.convId = conv from same)]
            simp only [registry_emit, registry_submit, registry_setSession, Session.view_pump,
              Session.view_establish, Registry.establish]
          · rw [if_neg same, if_neg (show ¬ s.view.convId = conv from same)]

theorem registry_handleReset (p : Peer K) {payload : Bytes} {conv : UInt32}
    (src : SocketAddr) (decoded : readConv payload = some conv) :
    (p.handleReset payload src).1.registry = p.registry.reset src conv := by
  simp only [handleReset, decoded, Registry.reset, registry_find]
  cases p.sessions.find (canonicalize src) with
  | none => rfl
  | some entry =>
      obtain ⟨id, s⟩ := entry
      simp only [Option.map_some]
      by_cases same : s.inner.convId = conv
      · rw [if_pos same, if_pos (show s.view.convId = conv from same)]
        simp only [registry_emit, registry_setSession, registry_removeKey,
          Session.view_markClosed, Registry.close]
      · rw [if_neg same, if_neg (show ¬ s.view.convId = conv from same)]

theorem registry_scanSession (p : Peer K) (tick : Tick) (socket : Socket) (can : CanonicalAddr) :
    (p.scanSession tick socket can).1.registry = p.registry := by
  unfold scanSession
  cases found : p.sessions.find can with
  | none => rfl
  | some entry =>
      obtain ⟨id, s⟩ := entry
      have present := (Store.find_eq_some.mp found).2
      dsimp only
      split
      · rfl
      · have updated := Session.view_update s tick.nowMs socket
        split
        · rename_i s' out result
          rw [result] at updated
          exact registry_setSession_same p present updated
        · rename_i s' out r _ result
          rw [result] at updated
          have first := registry_setSession_same p present updated
          have written := object?_setSession p s' present
          have retried := Session.view_maybeRetrySyn s' p.config tick.nowEpoch
            (tick.retryClock can) socket
          dsimp only [submit, setSession] at written ⊢
          split
          · rename_i s'' out' result'
            rw [result'] at retried
            exact (registry_setSession_same _ written retried).trans first
          · rename_i s'' out' r' _ result'
            rw [result'] at retried
            exact (registry_setSession_same _ written retried).trans first

theorem registry_scan (tick : Tick) (socket : Socket) (order : List CanonicalAddr) (p : Peer K) :
    (scan tick socket order p).1.registry = p.registry := by
  induction order generalizing p with
  | nil => rfl
  | cons can rest ih =>
      simp only [scan]
      rw [ih, registry_scanSession]

/-- A tick removes the keys on `to_remove` and changes nothing else that is visible. -/
theorem registry_updateTick (p : Peer K) (tick : Tick) (socket : Socket) :
    (p.updateTick tick socket).registry =
      (scan tick socket tick.order p).2.foldl Registry.prune p.registry := by
  simp only [updateTick]
  rw [registry_foldl_prune, registry_scan]

end Peer

end KcpPeer
