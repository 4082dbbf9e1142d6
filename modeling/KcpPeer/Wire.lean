import KcpPeer.Handshake
import KcpPeer.SessionOutput

set_option autoImplicit false

namespace KcpPeer

/-- The message a datagram carries; `junk` is what `handle_incoming` rejects. -/
def Msg.decode (bytes : Bytes) : Msg :=
  match splitPacket bytes with
  | none => .junk
  | some (.kcpData, payload) => .data (readConv payload)
  | some (.syn, payload) => (readConv payload).elim .junk .syn
  | some (.synAck, payload) => (readConv payload).elim .junk .synAck
  | some (.reset, payload) => (readConv payload).elim .junk .reset

@[simp] theorem Msg.decode_syn (conv : UInt32) :
    Msg.decode (encodeControl .syn conv) = .syn conv := by
  simp [Msg.decode]

@[simp] theorem Msg.decode_synAck (conv : UInt32) :
    Msg.decode (encodeControl .synAck conv) = .synAck conv := by
  simp [Msg.decode]

@[simp] theorem Msg.decode_reset (conv : UInt32) :
    Msg.decode (encodeControl .reset conv) = .reset conv := by
  simp [Msg.decode]

@[simp] theorem Msg.decode_kcpData (buf : Bytes) :
    Msg.decode (encodeKcpData buf) = .data (readConv buf) := by
  simp [Msg.decode]

theorem Msg.decode_eq_syn {bytes : Bytes} {conv : UInt32} (isSyn : Msg.decode bytes = .syn conv) :
    ∃ payload, splitPacket bytes = some (.syn, payload) ∧ readConv payload = some conv := by
  unfold Msg.decode at isSyn
  split at isSyn
  · cases isSyn
  · cases isSyn
  · rename_i payload parsed
    refine ⟨payload, parsed, ?_⟩
    cases decoded : readConv payload with
    | none => simp [decoded] at isSyn
    | some conv' => simpa [decoded] using isSyn
  · rename_i payload _
    cases decoded : readConv payload <;> simp [decoded] at isSyn
  · rename_i payload _
    cases decoded : readConv payload <;> simp [decoded] at isSyn

def Outgoing.msg (o : Outgoing) : Msg := Msg.decode o.bytes

/-- The abstract slot of an address. -/
def Registry.slot (r : Registry) (can : CanonicalAddr) : Slot :=
  (r.sessions.find can).map fun found => (found.2.state, found.2.convId)

namespace Registry

variable (r : Registry) (src : SocketAddr) (conv : UInt32) (ds : List (Option UInt32))

theorem syn_respond (yields : Bool) :
    (r.syn src conv yields).slot (canonicalize src) =
        (respond yields (r.slot (canonicalize src)) ds (.syn conv)).slot ∧
      eventsFor (canonicalize src) (r.syn src conv yields).log =
        eventsFor (canonicalize src) r.log ++
          (respond yields (r.slot (canonicalize src)) ds (.syn conv)).events := by
  unfold Registry.syn
  cases found : r.sessions.find (canonicalize src) with
  | none =>
      simp only [slot, found, Option.map_none, respond, find_accept, ↓reduceIte, Option.map_some,
        true_and]
      exact eventsFor_own r.log _ rfl
  | some entry =>
      obtain ⟨id, v⟩ := entry
      by_cases same : v.convId = conv
      · simp only [slot, found, Option.map_some, respond, same, ↓reduceIte]
        cases v.state <;> simp
      · simp only [slot, found, Option.map_some, respond, same, ↓reduceIte]
        cases state : v.state with
        | synSent =>
            dsimp only
            rw [find_establish _ _ found, if_pos rfl]
            exact ⟨rfl, eventsFor_own r.log id rfl⟩
        | established =>
            dsimp only
            rw [find_accept, if_pos rfl]
            have superseded : eventsFor (canonicalize src) (r.supersede id v src).log =
                eventsFor (canonicalize src) r.log ++ [.peerRestarted] :=
              eventsFor_own r.log id rfl
            refine ⟨rfl, ?_⟩
            rw [show eventsFor (canonicalize src) r.log ++ [.peerRestarted, .connected] =
              eventsFor (canonicalize src) r.log ++ [.peerRestarted] ++ [.connected] by simp,
              ← superseded]
            exact eventsFor_own _ _ rfl

theorem synAck_respond (yields : Bool) :
    (r.synAck src conv).slot (canonicalize src) =
        (respond yields (r.slot (canonicalize src)) ds (.synAck conv)).slot ∧
      eventsFor (canonicalize src) (r.synAck src conv).log =
        eventsFor (canonicalize src) r.log ++
          (respond yields (r.slot (canonicalize src)) ds (.synAck conv)).events := by
  unfold Registry.synAck
  cases found : r.sessions.find (canonicalize src) with
  | none => simp [slot, found, respond]
  | some entry =>
      obtain ⟨id, v⟩ := entry
      cases state : v.state with
      | established => simp [slot, found, respond, state]
      | synSent =>
          by_cases same : v.convId = conv
          · simp only [slot, found, Option.map_some, respond, same, ↓reduceIte, state]
            rw [find_establish _ _ found, if_pos rfl]
            exact ⟨rfl, eventsFor_own r.log id rfl⟩
          · simp [slot, found, respond, state, same]

theorem reset_respond (yields : Bool) :
    (r.reset src conv).slot (canonicalize src) =
        (respond yields (r.slot (canonicalize src)) ds (.reset conv)).slot ∧
      eventsFor (canonicalize src) (r.reset src conv).log =
        eventsFor (canonicalize src) r.log ++
          (respond yields (r.slot (canonicalize src)) ds (.reset conv)).events := by
  unfold Registry.reset
  cases found : r.sessions.find (canonicalize src) with
  | none => simp [slot, found, respond]
  | some entry =>
      obtain ⟨id, v⟩ := entry
      by_cases same : v.convId = conv
      · simp only [slot, found, Option.map_some, respond, same, ↓reduceIte]
        rw [find_close _ found, if_pos rfl]
        exact ⟨rfl, eventsFor_own r.log id rfl⟩
      · simp [slot, found, respond, same]

end Registry

theorem respond_data (yields : Bool) (slot : Slot) (ds : List (Option UInt32))
    (conv : Option UInt32) : (respond yields slot ds (.data conv)).slot = slot ∧
      (respond yields slot ds (.data conv)).events = [] := by
  cases slot <;> cases conv <;> exact ⟨rfl, rfl⟩

theorem respond_reset_out (yields : Bool) (slot : Slot) (ds : List (Option UInt32))
    (conv : UInt32) : (respond yields slot ds (.reset conv)).out = [] := by
  simp only [respond]
  repeat' split
  all_goals rfl

namespace Peer

variable {K : Type}

def slot (p : Peer K) (can : CanonicalAddr) : Slot := p.registry.slot can

theorem slot_eq (p : Peer K) (can : CanonicalAddr) :
    p.slot can =
      (p.sessions.find can).map fun found => (found.2.inner.state, found.2.inner.convId) := by
  rw [slot, Registry.slot, registry_find, Option.map_map]
  rfl

theorem slot_some {p : Peer K} {can : CanonicalAddr} {id : SessionId} {s : Session K}
    (found : p.sessions.find can = some (id, s)) :
    p.slot can = some (s.inner.state, s.inner.convId) := by
  rw [slot_eq, found, Option.map_some]

theorem slot_none {p : Peer K} {can : CanonicalAddr} (absent : p.sessions.find can = none) :
    p.slot can = none := by
  rw [slot_eq, absent, Option.map_none]

/-- The messages of what a peer submits, and where they come in its outbox. -/
def Sends (p p' : Peer K) (msgs : List Msg) : Prop :=
  ∃ out, p'.outbox = p.outbox ++ out ∧ out.map Outgoing.msg = msgs

theorem Sends.nothing {p p' : Peer K} (same : p'.outbox = p.outbox) : p.Sends p' [] :=
  ⟨[], by rw [same, List.append_nil], rfl⟩

theorem Sends.trans {p p' p'' : Peer K} {first second : List Msg} (left : p.Sends p' first)
    (right : p'.Sends p'' second) : p.Sends p'' (first ++ second) := by
  obtain ⟨out, grown, rfl⟩ := left
  obtain ⟨out', grown', rfl⟩ := right
  exact ⟨out ++ out', by rw [grown', grown, List.append_assoc], List.map_append⟩

theorem sendSynAck_sends (p : Peer K) (conv : UInt32) (dest : SocketAddr) (socket : Socket) :
    p.Sends (p.sendSynAck conv dest socket) [.synAck conv] :=
  ⟨_, rfl, by simp [Outgoing.msg, Socket.submit]⟩

theorem sendReset_sends (p : Peer K) (conv : UInt32) (dest : SocketAddr) (socket : Socket) :
    p.Sends (p.sendReset conv dest socket) (List.replicate 3 (.reset conv)) :=
  ⟨_, rfl, by simp [Outgoing.msg, Socket.submit]⟩

variable [Kcp K]

theorem handleReset_outbox (p : Peer K) (payload : Bytes) (src : SocketAddr) :
    (p.handleReset payload src).1.outbox = p.outbox := by
  unfold handleReset
  repeat' split
  all_goals rfl

/-- A session's KCP output goes out as data. -/
theorem sends_of_writes (p : Peer K) (id : SessionId) {s s' : Session K} {socket : Socket}
    {out : List Submission} (written : Session.Writes s s' socket out) :
    ∃ ds, p.Sends ((p.setSession id s').submit (some id) out) (ds.map .data) ∧
      (s.inner.state = .synSent → ds = []) := by
  obtain ⟨bufs, _, rfl, waiting⟩ := written
  refine ⟨bufs.map readConv, ⟨_, rfl, ?_⟩, ?_⟩
  · simp [Session.output, Outgoing.msg, Socket.submit, Function.comp_def]
  · intro sent
    rw [(waiting sent).1, List.map_nil]

/-- The submissions of a SYN handler are those of `respond`. -/
theorem handleSyn_sends (p : Peer K) {payload : Bytes} {conv : UInt32} {myAddr : SocketAddr}
    (src : SocketAddr) (clock : Clock) (socket : Socket) (decoded : readConv payload = some conv)
    (local_addr : socket.localAddr = .ok myAddr) :
    ∃ ds, p.Sends (p.handleSyn payload src clock socket).1
      (respond (decide (myAddr < src)) (p.slot (canonicalize src)) ds (.syn conv)).out := by
  simp only [handleSyn, decoded, local_addr, synDecide]
  cases found : p.sessions.find (canonicalize src) with
  | none =>
      rw [slot_none found]
      exact ⟨[], sendSynAck_sends p conv src socket⟩
  | some entry =>
      obtain ⟨id, s⟩ := entry
      rw [slot_some found]
      dsimp only
      by_cases same : s.inner.convId = conv
      · simp only [respond, same, ↓reduceIte]
        cases s.inner.state with
        | established => exact ⟨[], sendSynAck_sends _ conv src socket⟩
        | synSent => exact ⟨[], .nothing rfl⟩
      · simp only [respond, same, ↓reduceIte]
        cases s.inner.state with
        | established => exact ⟨[], sendSynAck_sends _ conv src socket⟩
        | synSent =>
            dsimp only
            by_cases yields : myAddr < src
            · simp only [yields, decide_true, ↓reduceIte]
              obtain ⟨ds, flushed, _⟩ := sends_of_writes p id
                (Session.pump_writes (s.adopt conv clock.epochMs) clock.currentMs socket rfl)
              exact ⟨ds, Sends.trans flushed (sendSynAck_sends _ conv src socket)⟩
            · simp only [yields, decide_false, ↓reduceIte]
              obtain ⟨ds, flushed, _⟩ := sends_of_writes p id
                (Session.pump_writes (s.establish clock.epochMs) clock.currentMs socket rfl)
              exact ⟨ds, Sends.trans flushed (sendSynAck_sends _ s.inner.convId src socket)⟩

theorem handleSynAck_sends (p : Peer K) {payload : Bytes} {conv : UInt32} (yields : Bool)
    (src : SocketAddr) (clock : Clock) (socket : Socket) (decoded : readConv payload = some conv) :
    ∃ ds, p.Sends (p.handleSynAck payload src clock socket).1
      (respond yields (p.slot (canonicalize src)) ds (.synAck conv)).out := by
  simp only [handleSynAck, decoded, synAckAccept]
  cases found : p.sessions.find (canonicalize src) with
  | none =>
      rw [slot_none found]
      exact ⟨[], .nothing rfl⟩
  | some entry =>
      obtain ⟨id, s⟩ := entry
      rw [slot_some found]
      dsimp only
      cases s.inner.state with
      | established => exact ⟨[], .nothing rfl⟩
      | synSent =>
          by_cases same : s.inner.convId = conv
          · simp only [respond, same, ↓reduceIte]
            obtain ⟨ds, flushed, _⟩ := sends_of_writes p id
              (Session.pump_writes (s.establish clock.epochMs) clock.currentMs socket rfl)
            exact ⟨ds, flushed⟩
          · simp only [respond, same, ↓reduceIte]
            exact ⟨[], .nothing rfl⟩

theorem handleKcpData_sends (p : Peer K) (yields : Bool) (ds : List (Option UInt32))
    (payload : Bytes) (src : SocketAddr) (clock : Clock) (socket : Socket) :
    p.Sends (p.handleKcpData payload src clock socket).1
      (respond yields (p.slot (canonicalize src)) ds (.data (readConv payload))).out := by
  unfold handleKcpData
  cases found : p.sessions.find (canonicalize src) with
  | none =>
      rw [slot_none found]
      cases readConv payload with
      | none => exact .nothing rfl
      | some conv => exact sendReset_sends p conv src socket
  | some entry =>
      rw [slot_some found]
      dsimp only [respond]
      split
      · exact .nothing rfl
      · split
        · exact .nothing rfl
        · exact .nothing rfl
        · exact .nothing rfl

/-- What a step does to the slot and the events of an address, and to the
outbox, is what the reply says. -/
structure Answers (p p' : Peer K) (can : CanonicalAddr) (reply : Reply) : Prop where
  slot : p'.slot can = reply.slot
  events : eventsFor can p'.log = eventsFor can p.log ++ reply.events
  sends : p.Sends p' reply.out

/-- A handled datagram does what `respond` says. -/
theorem handleIncoming_respond (p : Peer K) (data : Bytes) (src : SocketAddr) (clock : Clock)
    (socket : Socket) {myAddr : SocketAddr} (local_addr : socket.localAddr = .ok myAddr) :
    ∃ ds, p.Answers (p.handleIncoming data src clock socket).1 (canonicalize src)
      (respond (decide (myAddr < src)) (p.slot (canonicalize src)) ds (.decode data)) := by
  have ignored : p.Answers p (canonicalize src)
      (respond (decide (myAddr < src)) (p.slot (canonicalize src)) [] .junk) :=
    ⟨rfl, (List.append_nil _).symm, .nothing rfl⟩
  cases parsed : splitPacket data with
  | none =>
      simp only [handleIncoming, Msg.decode, parsed]
      exact ⟨[], ignored⟩
  | some packet =>
      obtain ⟨typ, payload⟩ := packet
      cases typ with
      | kcpData =>
          simp only [handleIncoming, Msg.decode, parsed]
          have sent := handleKcpData_sends p (decide (myAddr < src)) [] payload src clock socket
          have unchanged := respond_data (decide (myAddr < src)) (p.slot (canonicalize src)) []
            (readConv payload)
          refine ⟨[], ?_, ?_, sent⟩
          · rw [unchanged.1]
            rcases registry_handleKcpData p payload src clock socket with
              same | ⟨id, s, msgs, _, delivered⟩
            · rw [slot, same, slot]
            · rw [slot, delivered, slot]
              rfl
          · rw [unchanged.2, List.append_nil]
            rcases registry_handleKcpData p payload src clock socket with
              same | ⟨id, s, msgs, _, delivered⟩
            · exact congrArg (fun r => eventsFor (canonicalize src) r.log) same
            · exact (congrArg (fun r => eventsFor (canonicalize src) r.log) delivered).trans
                (eventsFor_data ..)
      | syn =>
          cases decoded : readConv payload with
          | none =>
              simp only [handleIncoming, Msg.decode, parsed, handleSyn, decoded, Option.elim_none]
              exact ⟨[], ignored⟩
          | some conv =>
              simp only [handleIncoming, Msg.decode, parsed, decoded, Option.elim_some]
              obtain ⟨ds, sent⟩ := handleSyn_sends p src clock socket decoded local_addr
              have visible := registry_handleSyn p src clock socket decoded local_addr
              have responds := p.registry.syn_respond src conv ds (decide (myAddr < src))
              rw [← visible] at responds
              exact ⟨ds, responds.1, responds.2, sent⟩
      | synAck =>
          cases decoded : readConv payload with
          | none =>
              simp only [handleIncoming, Msg.decode, parsed, handleSynAck, decoded,
                Option.elim_none]
              exact ⟨[], ignored⟩
          | some conv =>
              simp only [handleIncoming, Msg.decode, parsed, decoded, Option.elim_some]
              obtain ⟨ds, sent⟩ :=
                handleSynAck_sends p (decide (myAddr < src)) src clock socket decoded
              have visible := registry_handleSynAck p src clock socket decoded
              have responds := p.registry.synAck_respond src conv ds (decide (myAddr < src))
              rw [← visible] at responds
              exact ⟨ds, responds.1, responds.2, sent⟩
      | reset =>
          cases decoded : readConv payload with
          | none =>
              simp only [handleIncoming, Msg.decode, parsed, handleReset, decoded, Option.elim_none]
              exact ⟨[], ignored⟩
          | some conv =>
              simp only [handleIncoming, Msg.decode, parsed, decoded, Option.elim_some]
              have visible := registry_handleReset p src decoded
              have responds := p.registry.reset_respond src conv [] (decide (myAddr < src))
              rw [← visible] at responds
              refine ⟨[], responds.1, responds.2, ?_⟩
              rw [respond_reset_out]
              exact .nothing (handleReset_outbox p payload src)

theorem sendOn_sends (p : Peer K) (id : SessionId) (s : Session K) (data : Bytes) (clock : Clock)
    (socket : Socket) :
    ∃ ds, p.Sends (p.sendOn id s data clock socket).1 (ds.map .data) ∧
      (s.inner.state = .synSent → ds = []) := by
  simp only [sendOn]
  exact sends_of_writes p id (Session.sendData_writes s data clock.currentMs socket)

theorem initiateSession_sends (p : Peer K) (peer : SocketAddr) (draw : DrawnConv) (clock : Clock)
    (socket : Socket) :
    p.Sends (p.initiateSession peer draw clock socket).1 [.syn draw.val] := by
  refine ⟨_, rfl, ?_⟩
  simp [Outgoing.msg, Session.synSubmission, Socket.submit, Session.newOutbound]

/-- `send()` to a peer without a session opens one. -/
theorem send_opens (p : Peer K) (peer : SocketAddr) (data : Bytes) (draw : DrawnConv)
    (clock : Clock) (socket : Socket) (absent : p.slot (canonicalize peer) = none) :
    p.Answers (p.send peer data draw clock socket).1 (canonicalize peer)
      ⟨some (.synSent, draw.val), [.syn draw.val], []⟩ := by
  have none : p.sessions.find (canonicalize peer) = none := by
    rw [slot_eq, Option.map_eq_none_iff] at absent
    exact absent
  have visible := registry_send p peer data draw clock socket
  rw [Registry.send, registry_find, none, Option.map_none] at visible
  refine ⟨?_, ?_, ?_⟩
  · rw [slot, visible, Registry.slot, Registry.find_openTo, if_pos rfl]
    rfl
  · rw [List.append_nil]
    exact congrArg (fun r => eventsFor (canonicalize peer) r.log) visible
  · simp only [send, none]
    obtain ⟨ds, queued, waiting⟩ := sendOn_sends (p.initiateSession peer draw clock socket).1
      (p.initiateSession peer draw clock socket).2.1 (p.initiateSession peer draw clock socket).2.2
      data clock socket
    have fresh : (p.initiateSession peer draw clock socket).2.2.inner.state = .synSent := by
      simp only [initiateSession, Session.sendSyn]
      split <;> rfl
    rw [waiting fresh] at queued
    exact (initiateSession_sends p peer draw clock socket).trans queued

/-- `send()` to a peer with a session sends at most data. -/
theorem send_offers (p : Peer K) (peer : SocketAddr) (data : Bytes) (draw : DrawnConv)
    (clock : Clock) (socket : Socket) (present : p.slot (canonicalize peer) ≠ none) :
    ∃ ds sent, p.Answers (p.send peer data draw clock socket).1 (canonicalize peer)
        ⟨p.slot (canonicalize peer), sent, []⟩ ∧
      sent.Sublist (Handshake.offers (p.slot (canonicalize peer)) ds) ∧
      ∀ m ∈ sent, ∃ d, m = .data d := by
  have visible := registry_send p peer data draw clock socket
  cases found : p.sessions.find (canonicalize peer) with
  | none => exact absurd (slot_none found) present
  | some entry =>
      obtain ⟨id, s⟩ := entry
      rw [Registry.send, registry_find, found, Option.map_some] at visible
      obtain ⟨ds, queued, waiting⟩ := sendOn_sends p id s data clock socket
      refine ⟨ds, ds.map .data, ⟨?_, ?_, ?_⟩, ?_, ?_⟩
      · rw [slot, visible, slot]
      · rw [List.append_nil]
        exact congrArg (fun r => eventsFor (canonicalize peer) r.log) visible
      · simp only [send, found]
        exact queued
      · rw [slot_some found]
        cases state : s.inner.state with
        | established => exact List.Sublist.refl _
        | synSent =>
            rw [waiting state]
            exact List.nil_sublist _
      · intro m mem
        obtain ⟨d, _, rfl⟩ := List.mem_map.mp mem
        exact ⟨d, rfl⟩

theorem scanSession_sends (p : Peer K) (tick : Tick) (socket : Socket) (can : CanonicalAddr) :
    ∃ ds sent, p.Sends (p.scanSession tick socket can).1 sent ∧
      sent.Sublist (Handshake.offers (p.slot can) ds) := by
  have silent : ∃ ds sent, p.Sends p sent ∧ sent.Sublist (Handshake.offers (p.slot can) ds) :=
    ⟨[], [], .nothing rfl, List.nil_sublist _⟩
  unfold scanSession
  cases found : p.sessions.find can with
  | none => exact silent
  | some entry =>
      obtain ⟨id, s⟩ := entry
      dsimp only
      rw [slot_some found]
      split
      · exact ⟨[], [], .nothing rfl, List.nil_sublist _⟩
      · obtain ⟨ds, first, waiting⟩ := sends_of_writes p id
          (Session.update_writes s tick.nowMs socket)
        have updated : (s.update tick.nowMs socket).1.view = s.view := Session.view_update ..
        have ready : (ds.map Msg.data).Sublist
            (Handshake.offers (some (s.inner.state, s.inner.convId)) ds) := by
          cases state : s.inner.state with
          | established => exact List.Sublist.refl _
          | synSent =>
              rw [waiting state]
              exact List.nil_sublist _
        split
        · rename_i s' out result
          rw [result] at first
          exact ⟨ds, _, first, ready⟩
        · rename_i s' out r _ result
          rw [result] at first updated
          have retried := Session.maybeRetrySyn_output s'
            ((p.setSession id s').submit (some id) out).config tick.nowEpoch (tick.retryClock can)
            socket
          have sent : ∀ (s'' : Session K) (out' : List Submission),
              (out' = [] ∨ (s'.inner.state = .synSent ∧
                out' = [s'.synSubmission s'.inner.convId socket])) →
              ∃ ds sent, p.Sends
                ((((p.setSession id s').submit (some id) out).setSession id s'').submit (some id)
                  out') sent ∧
              sent.Sublist (Handshake.offers (some (s.inner.state, s.inner.convId)) ds) := by
            intro s'' out' retried
            rcases retried with rfl | ⟨sent, rfl⟩
            · refine ⟨ds, ds.map .data ++ [], first.trans ⟨[], ?_, rfl⟩, ?_⟩
              · simp [submit, setSession]
              · rw [List.append_nil]
                exact ready
            · have state : s.inner.state = .synSent := (congrArg View.state updated).symm.trans sent
              have conv : s'.inner.convId = s.inner.convId := congrArg View.convId updated
              refine ⟨[], ds.map .data ++ [.syn s.inner.convId], first.trans ⟨_, rfl, ?_⟩, ?_⟩
              · simp [Outgoing.msg, Session.synSubmission, Socket.submit, conv]
              · rw [waiting state, state]
                exact List.Sublist.refl _
          split
          · rename_i s'' out' result'
            rw [result'] at retried
            exact sent s'' out' retried
          · rename_i s'' out' r' _ result'
            rw [result'] at retried
            exact sent s'' out' retried

/-- A tick that removes nothing leaves the registry alone. -/
theorem updateTick_registry (p : Peer K) (tick : Tick) (socket : Socket)
    (kept : (scan tick socket tick.order p).2 = []) :
    (p.updateTick tick socket).registry = p.registry := by
  rw [registry_updateTick, kept]
  rfl

end Peer

end KcpPeer
