import KcpPeer.OneSided
import KcpPeer.Reliable
import KcpPeer.SessionStep

set_option autoImplicit false

namespace KcpPeer

/-- No KCP packet is in the datagram. -/
def Bytes.IsControl (bytes : Bytes) : Prop := ∀ packet, splitPacket bytes ≠ some (.kcpData, packet)

theorem isControl_encodeControl {typ : PacketType} (conv : UInt32) (control : typ ≠ .kcpData) :
    Bytes.IsControl (encodeControl typ conv) := by
  intro packet same
  rw [splitPacket_encodeControl, Option.some.injEq, Prod.mk.injEq] at same
  exact control same.1

namespace Session

variable {K : Type} [Kcp K]

/-- A session whose instance is left alone. -/
theorem Turn.still (s s' : Session K) (kcp : s'.inner.kcp = s.inner.kcp)
    (addr : s'.peerAddr = s.peerAddr) (socket : Socket) : Turn s s' socket [] [] [] [] [] := by
  refine ⟨addr, [], ?_, rfl⟩
  rw [kcp]
  exact .nothing _

theorem Turn.trans {s s' s'' : Session K} {socket : Socket} {calls calls' : List KcpCall}
    {out out' : List Submission} {msgs fed sent msgs' fed' sent' : List Bytes}
    (first : Turn s s' socket calls out msgs fed sent)
    (second : Turn s' s'' socket calls' out' msgs' fed' sent') :
    Turn s s'' socket (calls ++ calls') (out ++ out') (msgs ++ msgs') (fed ++ fed')
      (sent ++ sent') := by
  obtain ⟨addr, bufs, served, rfl⟩ := first
  obtain ⟨addr', bufs', served', rfl⟩ := second
  refine ⟨addr'.trans addr, bufs ++ bufs', served.trans served', ?_⟩
  simp only [output, addr, List.map_append]

/-- The scan of a session: KCP output, and perhaps a SYN. -/
theorem scan_turn (s : Session K) (config : KcpConfig) (tick : Tick) (now : UInt64)
    (socket : Socket) :
    ∃ calls out syns, Turn s (s.scan config tick now socket).1 socket calls out [] [] [] ∧
      (∀ call ∈ calls, call.KeepsConv) ∧ (s.scan config tick now socket).2.1 = out ++ syns ∧
      ∀ submission ∈ syns, Bytes.IsControl submission.bytes := by
  obtain ⟨calls, turn, keeps⟩ := s.update_turn tick.nowMs socket
  unfold scan
  split
  · exact ⟨[], [], [], .still s s rfl rfl socket, by simp, rfl, by simp⟩
  · split
    · rename_i updated
      rw [updated] at turn
      exact ⟨calls, _, [], turn, keeps, (List.append_nil _).symm, by simp⟩
    · rename_i s' out result _ updated
      rw [updated] at turn
      have kcp := maybeRetrySyn_kcp s' config tick.nowEpoch now socket
      have addr := congrArg View.peerAddr (view_maybeRetrySyn s' config tick.nowEpoch now socket)
      have retried := turn.trans (.still s' _ kcp addr socket)
      rw [List.append_nil, List.append_nil] at retried
      have control : ∀ submission ∈ (s'.maybeRetrySyn config tick.nowEpoch now socket).2.1,
          Bytes.IsControl submission.bytes := by
        rcases maybeRetrySyn_output s' config tick.nowEpoch now socket with nothing | ⟨_, syn⟩
        · rw [nothing]
          simp
        · rw [syn]
          intro submission mem
          rw [List.mem_singleton.mp mem]
          exact isControl_encodeControl _ (by decide)
      split
      · rename_i again
        rw [again] at retried control
        exact ⟨calls, out, _, retried, keeps, rfl, control⟩
      · rename_i again
        rw [again] at retried control
        exact ⟨calls, out, _, retried, keeps, rfl, control⟩

/-- `send_data`: a payload that is accepted has been taken by the instance. -/
theorem sendData_turn (s : Session K) (data : Bytes) (now : UInt32) (socket : Socket) :
    ∃ calls sent, Turn s (s.sendData data now socket).1 socket calls
        (s.sendData data now socket).2.1 [] [] sent ∧
      (∀ call ∈ calls, call.KeepsConv) ∧ sent.Sublist [data] ∧
      ((s.sendData data now socket).2.2.isOk → Kcp.taken s.inner.kcp calls = [data]) := by
  unfold sendData
  split
  · refine ⟨[], [], .still s s rfl rfl socket, by simp, List.nil_sublist _, ?_⟩
    rintro ⟨⟩
  · obtain ⟨calls, turn, keeps, taken⟩ := s.queueData_turn data now socket
    refine ⟨calls, _, turn, keeps, ?_, taken⟩
    split
    · exact List.Sublist.refl _
    · exact List.nil_sublist _

/-- The handling of one KCP packet. -/
theorem fed_turn (law : RecvQueue K) (s : Session K) (payload : Bytes) (now : UInt64)
    (socket : Socket) :
    ∃ calls msgs, Turn s ((s.fed payload now)) socket calls [] msgs [payload] [] ∧
      (∀ call ∈ calls, call.KeepsConv) ∧
      (Kcp.feed s.inner.kcp payload).2.1 = msgs ∧
      ((Kcp.feed s.inner.kcp payload).2.2.isOk = false → msgs = []) := by
  unfold fed Kcp.feed
  rcases fed : Kcp.input s.inner.kcp payload with ⟨kcp, e | _⟩
  · exact ⟨_, [], ⟨rfl, [], .input fed, rfl⟩, by simp [KcpCall.KeepsConv], rfl, fun _ => rfl⟩
  · have returned := drain_received (Kcp.rcvQueue kcp).length kcp []
    obtain ⟨ok, _, _⟩ := drain_complete law _ kcp [] (Nat.le_refl _)
    obtain ⟨calls, served, keeps⟩ := drain_served law (Kcp.rcvQueue kcp).length kcp []
    rw [List.nil_append] at returned
    refine ⟨_, _, ⟨rfl, [], (Kcp.Served.input fed).trans served, rfl⟩, ?_, returned, ?_⟩
    · simpa [KcpCall.KeepsConv] using keeps
    · intro failed
      dsimp only at failed
      rw [ok] at failed
      cases failed

end Session

namespace Peer

variable {K : Type} [Kcp K]

/-- What one operation does at the session `id`, filed under `can`. -/
structure Plays (p p' : Peer K) (can : CanonicalAddr) (id : SessionId) (s s' : Session K)
    (calls : List KcpCall) (msgs fed sent : List Bytes) : Prop where
  found : p'.sessions.find can = some (id, s')
  conv : s'.inner.convId = s.inner.convId
  addr : s'.peerAddr = s.peerAddr
  keeps : ∀ call ∈ calls, call.KeepsConv
  served : ∃ bufs, Kcp.Served s.inner.kcp s'.inner.kcp calls bufs msgs fed sent ∧
    ∀ o ∈ p'.outbox, o ∈ p.outbox ∨
      ∀ packet, splitPacket o.bytes = some (.kcpData, packet) → packet ∈ bufs
  messages : appended p'.log = appended p.log ++ msgs.map fun data => (id, ⟨s.peerAddr, data⟩)
  config : p'.config = p.config

section Plays

variable {p p' : Peer K} {can : CanonicalAddr} {id : SessionId} {s s' : Session K}
  {socket : Socket} {calls : List KcpCall} {out : List Submission} {msgs fed sent : List Bytes}

/-- The session is written, and what its instance put out goes to the socket, with
control packets after it. -/
theorem Plays.writes (found : p.sessions.find can = some (id, s))
    (turn : s.Turn s' socket calls out msgs fed sent) (keeps : ∀ call ∈ calls, call.KeepsConv)
    (conv : s'.inner.convId = s.inner.convId)
    (sessions : p'.sessions = (p.setSession id s').sessions) (controls : List Outgoing)
    (outbox : p'.outbox = p.outbox ++
      (out.map fun submission => ⟨submission, some id⟩) ++ controls)
    (quiet : ∀ o ∈ controls, Bytes.IsControl o.bytes)
    (messages : appended p'.log = appended p.log ++
      msgs.map fun data => (id, ⟨s.peerAddr, data⟩))
    (config : p'.config = p.config) : p.Plays p' can id s s' calls msgs fed sent := by
  obtain ⟨addr, bufs, served, rfl⟩ := turn
  refine ⟨?_, conv, addr, keeps, ⟨bufs, served, ?_⟩, messages, config⟩
  · rw [sessions]
    exact find_setSession found s'
  · intro o mem
    rw [outbox] at mem
    rcases List.mem_append.mp mem with mem | control
    · rcases List.mem_append.mp mem with old | new
      · exact Or.inl old
      · obtain ⟨submission, submitted, rfl⟩ := List.mem_map.mp new
        obtain ⟨buf, written, rfl⟩ := List.mem_map.mp submitted
        refine Or.inr fun packet parsed => ?_
        rw [Socket.submit, splitPacket_encodeKcpData] at parsed
        cases parsed
        exact written
    · exact Or.inr fun packet parsed => absurd parsed (quiet o control packet)

/-- Nothing happens at the session. -/
theorem Plays.rests (found : p.sessions.find can = some (id, s))
    (sessions : p'.sessions = p.sessions) (controls : List Outgoing)
    (outbox : p'.outbox = p.outbox ++ controls) (quiet : ∀ o ∈ controls, Bytes.IsControl o.bytes)
    (messages : appended p'.log = appended p.log) (config : p'.config = p.config) :
    p.Plays p' can id s s [] [] [] [] := by
  refine ⟨by rw [sessions]; exact found, rfl, rfl, by simp, ⟨[], .nothing _, ?_⟩,
    messages.trans (List.append_nil _).symm, config⟩
  intro o mem
  rw [outbox] at mem
  rcases List.mem_append.mp mem with old | control
  · exact Or.inl old
  · exact Or.inr fun packet parsed => absurd parsed (quiet o control packet)

end Plays

theorem handleKcpData_plays (law : RecvQueue K) (p : Peer K) (payload : Bytes) (src : SocketAddr)
    (clock : Clock) (socket : Socket) {id : SessionId} {s : Session K}
    (found : p.sessions.find (canonicalize src) = some (id, s)) :
    ∃ s' calls msgs, p.Plays (p.handleKcpData payload src clock socket).1 (canonicalize src) id
      s s' calls msgs [payload] [] := by
  obtain ⟨calls, msgs, turn, keeps, given, nothing⟩ := s.fed_turn law payload clock.epochMs socket
  have sessions := handleKcpData_sessions p payload src clock socket found
  have after := handleKcpData_feed p payload src clock socket found
  refine ⟨s.fed payload clock.epochMs, calls, msgs, ?_⟩
  rcases fed : Kcp.feed s.inner.kcp payload with ⟨kcp, got, e | _⟩
  all_goals rw [fed] at after given nothing
  · obtain rfl := nothing rfl
    refine .writes found turn keeps rfl sessions [] ?_ (by simp) ?_ ?_
    · rw [after]
      simp [setSession]
    · rw [after]
      simp [setSession]
    · rw [after]
      rfl
  · obtain rfl : got = msgs := given
    refine .writes found turn keeps rfl sessions [] ?_ (by simp) ?_ ?_
    · rw [after]
      cases got <;> simp [setSession, appendData, notify]
    · rw [after]
      cases got with
      | nil => simp [setSession]
      | cons first rest =>
          simp [setSession, appendData, notify, appended, Function.comp_def]
    · rw [after]
      cases got <;> rfl

theorem pump_plays {p p' : Peer K} {can : CanonicalAddr} {id : SessionId} {s : Session K}
    (found : p.sessions.find can = some (id, s)) (now : UInt64) (clock : Clock) (socket : Socket)
    (e : Event)
    (after : p' = ((p.setSession id ((s.establish now).pump clock.currentMs socket).1).submit
      (some id) ((s.establish now).pump clock.currentMs socket).2).emit e id) :
    ∃ s' calls, p.Plays p' can id s s' calls [] [] [] := by
  obtain ⟨calls, turn, keeps⟩ := (s.establish now).pump_turn clock.currentMs socket
  obtain ⟨addr, bufs, served, out⟩ := turn
  subst after
  refine ⟨_, calls, .writes found ⟨addr, bufs, served, out⟩ keeps rfl rfl [] ?_ (by simp) ?_ rfl⟩
  · exact (List.append_nil _).symm
  · simp [emit, submit, setSession, appended]

/-- A SYN that bears the conversation id of the session. -/
theorem handleSyn_plays (p : Peer K) {payload : Bytes} {src : SocketAddr} (clock : Clock)
    (socket : Socket) {id : SessionId} {s : Session K}
    (found : p.sessions.find (canonicalize src) = some (id, s))
    (own : ∀ conv, readConv payload = some conv → conv = s.inner.convId) :
    ∃ s', p.Plays (p.handleSyn payload src clock socket).1 (canonicalize src) id s s'
      [] [] [] [] := by
  have idle : p.Plays p (canonicalize src) id s s [] [] [] [] :=
    .rests found rfl [] (List.append_nil _).symm (by simp) rfl rfl
  unfold handleSyn
  split
  · exact ⟨s, idle⟩
  · rename_i conv decoded
    obtain rfl := own conv decoded
    split
    · exact ⟨s, idle⟩
    · simp only [synDecide, found, ↓reduceIte]
      cases s.inner.state with
      | synSent => exact ⟨s, idle⟩
      | established =>
          have touched : s.Turn (s.touch clock.epochMs) socket [] [] [] [] [] :=
            .still s (s.touch clock.epochMs) rfl rfl socket
          refine ⟨s.touch clock.epochMs, .writes found touched (by simp) rfl rfl
            [⟨socket.submit (encodeControl .synAck s.inner.convId) src, none⟩] ?_ ?_ ?_ rfl⟩
          · simp [synFinish, synAcknowledge, sendSynAck, submit, setSession]
          · intro o mem
            rw [List.mem_singleton.mp mem]
            exact isControl_encodeControl _ (by decide)
          · simp [synFinish, synAcknowledge, sendSynAck, submit, setSession]

theorem handleSynAck_plays (p : Peer K) (payload : Bytes) (src : SocketAddr) (clock : Clock)
    (socket : Socket) {id : SessionId} {s : Session K}
    (found : p.sessions.find (canonicalize src) = some (id, s)) :
    ∃ s' calls, p.Plays (p.handleSynAck payload src clock socket).1 (canonicalize src) id s s'
      calls [] [] [] := by
  have idle : p.Plays p (canonicalize src) id s s [] [] [] [] :=
    .rests found rfl [] (List.append_nil _).symm (by simp) rfl rfl
  unfold handleSynAck
  split
  · exact ⟨s, [], idle⟩
  · simp only [synAckAccept, found]
    cases s.inner.state with
    | established => exact ⟨s, [], idle⟩
    | synSent =>
        dsimp only
        split
        · exact pump_plays found clock.epochMs clock socket (.connected src) rfl
        · exact ⟨s, [], idle⟩

/-- A datagram that neither resets the session nor bears a SYN of another conversation. -/
theorem handleIncoming_plays (law : RecvQueue K) (p : Peer K) (data : Bytes) (src : SocketAddr)
    (clock : Clock) (socket : Socket) {id : SessionId} {s : Session K}
    (found : p.sessions.find (canonicalize src) = some (id, s))
    (own : ∀ conv, Msg.decode data = .syn conv → conv = s.inner.convId)
    (noReset : ∀ conv, Msg.decode data ≠ .reset conv) :
    ∃ s' calls msgs fed, p.Plays (p.handleIncoming data src clock socket).1 (canonicalize src) id
        s s' calls msgs fed [] ∧
      ∀ packet ∈ fed, splitPacket data = some (.kcpData, packet) := by
  have idle : p.Plays p (canonicalize src) id s s [] [] [] [] :=
    .rests found rfl [] (List.append_nil _).symm (by simp) rfl rfl
  unfold handleIncoming
  split
  · exact ⟨s, [], [], [], idle, by simp⟩
  · rename_i payload parsed
    obtain ⟨s', calls, msgs, plays⟩ := handleKcpData_plays law p payload src clock socket found
    refine ⟨s', calls, msgs, [payload], plays, ?_⟩
    intro packet mem
    rw [List.mem_singleton.mp mem]
    exact parsed
  · rename_i payload parsed
    have bears : ∀ conv, readConv payload = some conv → conv = s.inner.convId := by
      intro conv decoded
      exact own conv (by simp [Msg.decode, parsed, decoded])
    obtain ⟨s', plays⟩ := handleSyn_plays p clock socket found bears
    exact ⟨s', [], [], [], plays, by simp⟩
  · rename_i payload parsed
    obtain ⟨s', calls, plays⟩ := handleSynAck_plays p payload src clock socket found
    exact ⟨s', calls, [], [], plays, by simp⟩
  · rename_i payload parsed
    cases decoded : readConv payload with
    | none =>
        simp only [handleReset, decoded]
        exact ⟨s, [], [], [], idle, by simp⟩
    | some conv => exact absurd (by simp [Msg.decode, parsed, decoded]) (noReset conv)

theorem sendOn_plays (p : Peer K) (data : Bytes) (clock : Clock) (socket : Socket)
    {can : CanonicalAddr} {id : SessionId} {s : Session K}
    (found : p.sessions.find can = some (id, s)) :
    ∃ s' calls sent, p.Plays (p.sendOn id s data clock socket).1 can id s s' calls [] [] sent ∧
      sent.Sublist [data] ∧
      ((p.sendOn id s data clock socket).2.isOk → Kcp.taken s.inner.kcp calls = [data]) := by
  obtain ⟨calls, sent, turn, keeps, sub, taken⟩ := s.sendData_turn data clock.currentMs socket
  refine ⟨_, calls, sent, .writes found turn keeps ?_ rfl [] ?_ (by simp) ?_ rfl, sub, taken⟩
  · exact congrArg View.convId (Session.view_sendData ..)
  · exact (List.append_nil _).symm
  · exact (List.append_nil _).symm

theorem scanSession_plays (p : Peer K) (tick : Tick) (socket : Socket) {can : CanonicalAddr}
    {id : SessionId} {s : Session K} (found : p.sessions.find can = some (id, s)) :
    ∃ s' calls, p.Plays (p.scanSession tick socket can).1 can id s s' calls [] [] [] := by
  obtain ⟨calls, out, syns, turn, keeps, split, control⟩ :=
    s.scan_turn p.config tick (tick.retryClock can) socket
  rw [scanSession_eq, found]
  refine ⟨_, calls, .writes found turn keeps ?_ rfl
    (syns.map fun submission => ⟨submission, some id⟩) ?_ ?_ ?_ rfl⟩
  · exact congrArg View.convId (Session.view_scan ..)
  · simp only [submit, setSession, split, List.map_append, List.append_assoc]
  · intro o mem
    obtain ⟨submission, written, rfl⟩ := List.mem_map.mp mem
    exact control submission written
  · exact (List.append_nil _).symm

/-- All that a peer has to do with one remote: the calls that its session's instance has had,
the messages it gave out and the packets it wrote. -/
structure Hosts (p : Peer K) (config : KcpConfig) (conv : UInt32) (remote : SocketAddr)
    (calls : List KcpCall) : Prop where
  held : ∀ id s, p.sessions.find (canonicalize remote) = some (id, s) →
    s.inner.convId = conv ∧ s.peerAddr = remote ∧
      s.inner.kcp = ((Kcp.transducer K).run (Kcp.configured K config conv) calls).1
  blank : p.sessions.find (canonicalize remote) = none → calls = []
  messages : (appended p.log).map Prod.snd =
    ((Kcp.transducer K).told KcpOut.took? (Kcp.configured K config conv) calls).map
      fun data => ⟨remote, data⟩
  packets : ∀ o ∈ p.outbox, ∀ packet, splitPacket o.bytes = some (.kcpData, packet) →
    packet ∈ (Kcp.transducer K).told KcpOut.wrote? (Kcp.configured K config conv) calls
  ownConfig : p.config = config

section Hosts

variable {p p' : Peer K} {config : KcpConfig} {conv : UInt32} {remote : SocketAddr}
  {calls : List KcpCall}

theorem Hosts.plays (hosts : p.Hosts config conv remote calls) {id : SessionId}
    {s s' : Session K} (found : p.sessions.find (canonicalize remote) = some (id, s))
    {more : List KcpCall} {msgs fed sent : List Bytes}
    (plays : p.Plays p' (canonicalize remote) id s s' more msgs fed sent) :
    p'.Hosts config conv remote (calls ++ more) := by
  obtain ⟨own, addr, kcp⟩ := hosts.held id s found
  obtain ⟨bufs, served, outbox⟩ := plays.served
  rw [kcp] at served
  have wrote : (Kcp.transducer K).told KcpOut.wrote?
      ((Kcp.transducer K).run (Kcp.configured K config conv) calls).1 more = bufs := served.wrote
  have took : (Kcp.transducer K).told KcpOut.took?
      ((Kcp.transducer K).run (Kcp.configured K config conv) calls).1 more = msgs := served.took
  refine ⟨?_, ?_, ?_, ?_, plays.config.trans hosts.ownConfig⟩
  · intro id' s'' found'
    rw [plays.found] at found'
    cases found'
    refine ⟨plays.conv.trans own, plays.addr.trans addr, ?_⟩
    rw [Transducer.run_append]
    exact served.final.symm
  · intro absent
    rw [plays.found] at absent
    cases absent
  · rw [plays.messages, List.map_append, hosts.messages, Transducer.told_append, took,
      List.map_append, List.map_map, addr]
    rfl
  · intro o mem packet parsed
    rw [Transducer.told_append, wrote]
    rcases outbox o mem with old | new
    · exact List.mem_append_left _ (hosts.packets o old packet parsed)
    · exact List.mem_append_right _ (new packet parsed)

/-- A peer that had no session for the remote got one, or sent control packets at most. -/
theorem Hosts.opens (hosts : p.Hosts config conv remote [])
    (held : ∀ id s, p'.sessions.find (canonicalize remote) = some (id, s) →
      s.inner.convId = conv ∧ s.peerAddr = remote ∧ s.inner.kcp = Kcp.configured K config conv)
    (controls : List Outgoing) (outbox : p'.outbox = p.outbox ++ controls)
    (quiet : ∀ o ∈ controls, Bytes.IsControl o.bytes)
    (messages : appended p'.log = appended p.log) (same : p'.config = p.config) :
    p'.Hosts config conv remote [] := by
  refine ⟨held, fun _ => rfl, ?_, ?_, same.trans hosts.ownConfig⟩
  · rw [messages]
    exact hosts.messages
  · intro o mem packet parsed
    rw [outbox] at mem
    rcases List.mem_append.mp mem with old | control
    · exact hosts.packets o old packet parsed
    · exact absurd parsed (quiet o control packet)

theorem Hosts.stays (hosts : p.Hosts config conv remote [])
    (absent : p.sessions.find (canonicalize remote) = none) (sessions : p'.sessions = p.sessions)
    (controls : List Outgoing) (outbox : p'.outbox = p.outbox ++ controls)
    (quiet : ∀ o ∈ controls, Bytes.IsControl o.bytes)
    (messages : appended p'.log = appended p.log) (same : p'.config = p.config) :
    p'.Hosts config conv remote [] := by
  refine hosts.opens ?_ controls outbox quiet messages same
  intro id s found
  rw [sessions, absent] at found
  cases found

theorem Hosts.handleSyn (hosts : p.Hosts config conv remote [])
    (absent : p.sessions.find (canonicalize remote) = none) {payload : Bytes} (clock : Clock)
    (socket : Socket) (own : ∀ conv', readConv payload = some conv' → conv' = conv) :
    (p.handleSyn payload remote clock socket).1.Hosts config conv remote [] := by
  unfold Peer.handleSyn
  split
  · exact hosts
  · rename_i conv' decoded
    obtain rfl := own conv' decoded
    split
    · exact hosts
    · simp only [synDecide, absent]
      refine hosts.opens ?_ [⟨socket.submit (encodeControl .synAck conv') remote, none⟩] rfl
        ?_ ?_ rfl
      · intro id s found
        have there := find_insertSession (p.sendSynAck conv' remote socket) (canonicalize remote)
          (Session.newInbound conv' remote p.incarnation p.config clock.epochMs)
        cases there.symm.trans found
        refine ⟨rfl, rfl, ?_⟩
        rw [← hosts.ownConfig]
        rfl
      · intro o mem
        rw [List.mem_singleton.mp mem]
        exact isControl_encodeControl _ (by decide)
      · simp [synFinish, synAcknowledge, synInsert, sendSynAck, submit, emit, insertSession,
          appended]

/-- A datagram from a remote for which there is no session. -/
theorem Hosts.handleIncoming (hosts : p.Hosts config conv remote [])
    (absent : p.sessions.find (canonicalize remote) = none) (data : Bytes) (clock : Clock)
    (socket : Socket) (own : ∀ conv', Msg.decode data = .syn conv' → conv' = conv) :
    (p.handleIncoming data remote clock socket).1.Hosts config conv remote [] := by
  unfold Peer.handleIncoming
  split
  · exact hosts
  · simp only [handleKcpData, absent]
    split
    · refine hosts.stays absent rfl _ rfl ?_ rfl rfl
      intro o mem
      obtain ⟨submission, copy, rfl⟩ := List.mem_map.mp mem
      obtain rfl := List.eq_of_mem_replicate copy
      exact isControl_encodeControl _ (by decide)
    · exact hosts
  · rename_i payload parsed
    refine hosts.handleSyn absent clock socket ?_
    intro conv' decoded
    exact own conv' (by simp [Msg.decode, parsed, decoded])
  · unfold handleSynAck
    split
    · exact hosts
    · simp only [synAckAccept, absent]
      exact hosts
  · unfold handleReset
    split
    · exact hosts
    · simp only [absent]
      exact hosts

theorem Hosts.initiateSession (draw : DrawnConv)
    (hosts : p.Hosts config draw.val remote []) (clock : Clock) (socket : Socket) :
    (p.initiateSession remote draw clock socket).1.Hosts config draw.val remote [] := by
  have there := find_initiateSession p remote draw clock socket
  refine hosts.opens ?_ [⟨socket.submit (encodeControl .syn draw.val) remote, some
    p.sessions.fresh⟩] rfl ?_ rfl rfl
  · intro id s found
    cases there.symm.trans found
    have view := Session.view_sendSyn (Session.newOutbound draw.val remote p.incarnation p.config
      clock.epochMs : Session K) draw.val clock.epochMs socket
    refine ⟨congrArg View.convId view, congrArg View.peerAddr view, ?_⟩
    simp only [Peer.initiateSession, Session.inner_sendSyn]
    rw [← hosts.ownConfig]
    rfl
  · intro o mem
    rw [List.mem_singleton.mp mem]
    exact isControl_encodeControl _ (by decide)

end Hosts

end Peer

/-- A `send()` call: who called it with which payload, and whether it returned `Ok`. -/
structure Offer where
  x : Side
  data : Bytes
  accepted : Bool

def Offer.saidBy (x : Side) (offer : Offer) : Option Bytes :=
  if offer.x = x then some offer.data else none

def Offer.acceptedOf (x : Side) (offer : Offer) : Option Bytes :=
  if offer.x = x ∧ offer.accepted then some offer.data else none

namespace Network

variable {K : Type} [Kcp K]

/-- The `send()` call that a step is. -/
def offers (setting : Setting) (n : Network K) : Action → List Offer
  | .send x data draw clock sendTo =>
      let sent := (n.party x).peer.send (setting.addr x.other) data draw clock
        (socketOf setting x sendTo)
      [⟨x, data, sent.2.isOk⟩]
  | _ => []

/-- The buffers that a side's instance has written. -/
def wrote (K : Type) [Kcp K] (setting : Setting) (conv : UInt32)
    (calls : Side → List KcpCall) (x : Side) : List Bytes :=
  (Kcp.transducer K).told KcpOut.wrote? (Kcp.configured K (setting.config x) conv) (calls x)

/-- The payloads that a side's instance has taken. -/
def taken (K : Type) [Kcp K] (setting : Setting) (conv : UInt32)
    (calls : Side → List KcpCall) (x : Side) : List Bytes :=
  Kcp.taken (Kcp.configured K (setting.config x) conv) (calls x)

/-- The two instances are linked through the network. -/
structure Conversation (setting : Setting) (n : Network K) (noted : List Offer) (conv : UInt32)
    (calls : Side → List KcpCall) : Prop where
  linked : Kcp.Linked K setting.config conv calls
  hosts : ∀ x, (n.party x).peer.Hosts (setting.config x) conv (setting.addr x.other) (calls x)
  flights : ∀ f ∈ n.flights, ∀ packet, splitPacket f.bytes = some (.kcpData, packet) →
    packet ∈ wrote K setting conv calls f.dst.other
  said : ∀ x, (taken K setting conv calls x).Sublist (noted.filterMap (Offer.saidBy x))
  kept : ∀ x, (noted.filterMap (Offer.acceptedOf x)).Sublist (taken K setting conv calls x)

section Conversation

variable {setting : Setting} {n m : Network K} {noted : List Offer} {conv : UInt32}
  {calls : Side → List KcpCall}

theorem wrote_more (x y : Side) (more : List KcpCall) {packet : Bytes}
    (mem : packet ∈ wrote K setting conv calls y) :
    packet ∈ wrote K setting conv (Function.update calls x (calls x ++ more)) y := by
  by_cases same : y = x
  · subst same
    rw [wrote, Function.update_self, Transducer.told_append]
    exact List.mem_append_left _ mem
  · rw [wrote, Function.update_of_ne same]
    exact mem

/-- A side acts, and makes some further calls into its instance. -/
theorem Conversation.acts (ok : n.Conversation setting noted conv calls) (x : Side)
    (party : Party K) (parties : m.party = n.party) (flights : ∀ f ∈ m.flights, f ∈ n.flights)
    (more : List KcpCall) (extra : List Offer)
    (hosts : party.peer.Hosts (setting.config x) conv (setting.addr x.other) (calls x ++ more))
    (keeps : ∀ call ∈ more, call.KeepsConv)
    (heard : ∀ call ∈ more, ∀ packet, call.fed? = some packet →
      packet ∈ wrote K setting conv calls x.other)
    (takes : (Kcp.taken ((Kcp.transducer K).run (Kcp.configured K (setting.config x) conv)
      (calls x)).1 more).Sublist (extra.filterMap (Offer.saidBy x)))
    (accepts : (extra.filterMap (Offer.acceptedOf x)).Sublist
      (Kcp.taken ((Kcp.transducer K).run (Kcp.configured K (setting.config x) conv)
        (calls x)).1 more))
    (elsewhere : extra.filterMap (Offer.acceptedOf x.other) = []) :
    (m.launch setting x party).Conversation setting (noted ++ extra) conv
      (Function.update calls x (calls x ++ more)) := by
  have grown : taken K setting conv (Function.update calls x (calls x ++ more)) x =
      taken K setting conv calls x ++ Kcp.taken ((Kcp.transducer K).run
        (Kcp.configured K (setting.config x) conv) (calls x)).1 more := by
    rw [taken, Function.update_self, Kcp.taken_append]
    rfl
  have same : taken K setting conv (Function.update calls x (calls x ++ more)) x.other =
      taken K setting conv calls x.other := by
    rw [taken, Function.update_of_ne (Side.other_ne x)]
    rfl
  refine ⟨?_, ?_, ?_, ?_, ?_⟩
  · refine ok.linked.calls x ?_ more keeps ?_
    · rintro y rfl
      exact Side.other_ne x
    · intro call mem packet fed
      exact ⟨x.other, rfl, heard call mem packet fed⟩
  · intro y
    rcases Side.eq_or_eq_other x y with rfl | rfl
    · rw [Function.update_self]
      simp only [launch, Function.update_self]
      exact ⟨hosts.held, hosts.blank, hosts.messages, by simp, hosts.ownConfig⟩
    · rw [Function.update_of_ne (Side.other_ne x)]
      simp only [launch, Function.update_of_ne (Side.other_ne x), parties]
      exact ok.hosts x.other
  · intro f mem packet parsed
    rcases List.mem_append.mp mem with old | new
    · exact wrote_more x _ more (ok.flights f (flights f old) packet parsed)
    · obtain ⟨o, kept, rfl⟩ := List.mem_map.mp new
      have written := hosts.packets o (List.mem_of_mem_filter kept) packet parsed
      simp only [Side.other_other, wrote, Function.update_self]
      exact written
  · intro y
    rw [List.filterMap_append]
    rcases Side.eq_or_eq_other x y with rfl | rfl
    · rw [grown]
      exact (ok.said y).append takes
    · rw [same]
      exact (ok.said x.other).trans (List.sublist_append_left _ _)
  · intro y
    rw [List.filterMap_append]
    rcases Side.eq_or_eq_other x y with rfl | rfl
    · rw [grown]
      exact (ok.kept y).append accepts
    · rw [same, elsewhere, List.append_nil]
      exact ok.kept x.other

/-- Nothing is said, and no call is made. -/
theorem Conversation.quiet (ok : n.Conversation setting noted conv calls)
    (parties : m.party = n.party) (flights : ∀ f ∈ m.flights, f ∈ n.flights) :
    m.Conversation setting noted conv calls :=
  ⟨ok.linked, by rw [parties]; exact ok.hosts, fun f mem => ok.flights f (flights f mem),
    ok.said, ok.kept⟩

/-- As long as there is no session the conversation id is open. -/
theorem Conversation.reopen (ok : n.Conversation setting noted conv calls)
    (absent : ∀ x, (n.party x).peer.sessions.find (canOf setting x) = none) (conv' : UInt32) :
    n.Conversation setting noted conv' fun _ => [] := by
  have blank : ∀ x, calls x = [] := fun x => (ok.hosts x).blank (absent x)
  refine ⟨.start, ?_, ?_, ?_, ?_⟩
  · intro x
    have hosts := ok.hosts x
    rw [blank x] at hosts
    refine ⟨?_, fun _ => rfl, hosts.messages, hosts.packets, hosts.ownConfig⟩
    intro id s found
    cases (absent x).symm.trans found
  · intro f mem packet parsed
    have written := ok.flights f mem packet parsed
    rw [wrote, blank] at written
    cases written
  · intro x
    exact List.nil_sublist _
  · intro x
    have kept := ok.kept x
    rw [taken, blank] at kept
    exact kept

/-- A side makes calls that send nothing. -/
theorem Conversation.hushed (ok : n.Conversation setting noted conv calls) (x : Side)
    (party : Party K) (parties : m.party = n.party) (flights : ∀ f ∈ m.flights, f ∈ n.flights)
    {can : CanonicalAddr} (home : can = canOf setting x) {id : SessionId} {s s' : Session K}
    (found : (n.party x).peer.sessions.find can = some (id, s)) {more : List KcpCall}
    {msgs fed : List Bytes} (plays : (n.party x).peer.Plays party.peer can id s s' more msgs fed [])
    (heard : ∀ packet ∈ fed, packet ∈ wrote K setting conv calls x.other) :
    (m.launch setting x party).Conversation setting noted conv
      (Function.update calls x (calls x ++ more)) := by
  subst home
  obtain ⟨bufs, served, _⟩ := plays.served
  have none := Kcp.taken_sublist ((Kcp.transducer K).run
    (Kcp.configured K (setting.config x) conv) (calls x)).1 more
  rw [served.sent] at none
  have acts := ok.acts x party parties flights more [] ((ok.hosts x).plays found plays)
    plays.keeps (by
      intro call mem packet hears
      refine heard packet ?_
      rw [← served.fed]
      exact List.mem_filterMap.mpr ⟨call, mem, hears⟩) none (List.nil_sublist _) rfl
  rw [List.append_nil] at acts
  exact acts

/-- A side without a session answers. -/
theorem Conversation.answers (ok : n.Conversation setting noted conv calls) (x : Side)
    (party : Party K) (parties : m.party = n.party) (flights : ∀ f ∈ m.flights, f ∈ n.flights)
    (blank : calls x = [])
    (hosts : party.peer.Hosts (setting.config x) conv (setting.addr x.other) []) :
    (m.launch setting x party).Conversation setting noted conv calls := by
  have acts := ok.acts x party parties flights [] [] (by rw [blank]; exact hosts) (by simp)
    (by simp) (List.nil_sublist _) (List.nil_sublist _) rfl
  rw [List.append_nil, List.append_nil, Function.update_eq_self] at acts
  exact acts

/-- A side hands a payload to its session. -/
theorem Conversation.hands (ok : n.Conversation setting noted conv calls) (x : Side) {p : Peer K}
    (hosts : p.Hosts (setting.config x) conv (setting.addr x.other) (calls x))
    {id : SessionId} {s : Session K} (found : p.sessions.find (canOf setting x) = some (id, s))
    (data : Bytes) (clock : Clock) (socket : Socket) (party : Party K)
    (after : party.peer = (p.sendOn id s data clock socket).1) :
    ∃ calls', (n.launch setting x party).Conversation setting
      (noted ++ [⟨x, data, (p.sendOn id s data clock socket).2.isOk⟩]) conv calls' := by
  obtain ⟨s', more, sent, plays, sub, took⟩ := p.sendOn_plays data clock socket found
  obtain ⟨bufs, served, _⟩ := plays.served
  obtain ⟨_, _, kcp⟩ := hosts.held id s found
  have taken := Kcp.taken_sublist s.inner.kcp more
  rw [served.sent] at taken
  rw [kcp] at taken took
  have fed := served.fed
  rw [List.filterMap_eq_nil_iff] at fed
  refine ⟨_, ok.acts x party rfl (fun _ mem => mem) more _ ?_ plays.keeps ?_ ?_ ?_ ?_⟩
  · rw [after]
    exact hosts.plays found plays
  · intro call mem packet hears
    cases (fed call mem).symm.trans hears
  · simpa [Offer.saidBy] using taken.trans sub
  · cases accepted : (p.sendOn id s data clock socket).2.isOk with
    | true => simp [Offer.acceptedOf, took accepted]
    | false => simp [Offer.acceptedOf]
  · simp [Offer.acceptedOf, (Side.other_ne x).symm]

section Step

variable {h : Handshake} {n' : Network K} (refines : Refines setting n h)
  (oneSided : h.OneSided (tie setting) .a)

include refines oneSided

omit [Kcp K] in
theorem syn_own {f : Flight} (mem : f ∈ n.flights) {conv' : UInt32}
    (isSyn : Msg.decode f.bytes = .syn conv') : f.dst = .b ∧ h.drawn .a = some conv' := by
  have inFlight : (f.dst, Msg.decode f.bytes) ∈ h.net := by
    rw [refines.net]
    exact List.mem_map_of_mem (f := fun f => (f.dst, Msg.decode f.bytes)) mem
  rw [isSyn] at inFlight
  have drawn := oneSided.agreed.syn f.dst conv' inFlight
  cases dst : f.dst with
  | a =>
      rw [dst] at drawn
      cases oneSided.undrawn.symm.trans drawn
  | b =>
      rw [dst] at drawn
      exact ⟨rfl, drawn⟩

omit [Kcp K] in
theorem conv_of_find {x : Side} {id : SessionId} {s : Session K}
    (found : (n.party x).peer.sessions.find (canOf setting x) = some (id, s)) :
    h.drawn .a = some s.inner.convId :=
  oneSided.conv_eq ((refines.slot x).trans (Peer.slot_some found))

theorem Conversation.deliver (law : RecvQueue K) (ok : n.Conversation setting noted conv calls)
    {index : Nat} {clock : Clock} {sendTo : Bytes → SocketAddr → Except IoError Nat}
    (taken : n.step setting (.deliver index clock sendTo) = some n') :
    ∃ calls', n'.Conversation setting noted conv calls' := by
  simp only [step, Option.map_eq_some_iff] at taken
  obtain ⟨f, arrived, rfl⟩ := taken
  have mem := List.mem_of_getElem? arrived
  have flights : ∀ f' ∈ n.flights.eraseIdx index, f' ∈ n.flights :=
    fun f' still => List.mem_of_mem_eraseIdx still
  have noReset : ∀ conv', Msg.decode f.bytes ≠ .reset conv' := by
    intro conv' isReset
    refine oneSided.agreed.reset f.dst conv' ?_
    rw [refines.net, ← isReset]
    exact List.mem_map_of_mem (f := fun f => (f.dst, Msg.decode f.bytes)) mem
  cases found : (n.party f.dst).peer.sessions.find (canOf setting f.dst) with
  | some entry =>
      obtain ⟨id, s⟩ := entry
      have own : ∀ conv', Msg.decode f.bytes = .syn conv' → conv' = s.inner.convId := by
        intro conv' isSyn
        have drawn := (syn_own refines oneSided mem isSyn).2
        exact Option.some.inj (drawn.symm.trans (conv_of_find refines oneSided found))
      obtain ⟨s', more, msgs, fed, plays, heard⟩ := (n.party f.dst).peer.handleIncoming_plays law
        f.bytes (setting.addr f.dst.other) clock (socketOf setting f.dst sendTo) found own noReset
      have known : ∀ packet ∈ fed, packet ∈ wrote K setting conv calls f.dst.other :=
        fun packet given => ok.flights f mem packet (heard packet given)
      exact ⟨_, ok.hushed (m := { n with flights := n.flights.eraseIdx index }) f.dst
        ((n.party f.dst).receive f (setting.addr f.dst.other) clock (socketOf setting f.dst sendTo))
        rfl flights rfl found plays known⟩
  | none =>
      have blank := (ok.hosts f.dst).blank found
      have hosts := ok.hosts f.dst
      rw [blank] at hosts
      refine ⟨calls, ok.answers (m := { n with flights := n.flights.eraseIdx index }) f.dst
        ((n.party f.dst).receive f (setting.addr f.dst.other) clock (socketOf setting f.dst sendTo))
        rfl flights blank (hosts.handleIncoming found f.bytes clock
          (socketOf setting f.dst sendTo) ?_)⟩
      -- the SYN is the one that the other side has opened its session with
      intro conv' isSyn
      obtain ⟨_, drawn⟩ := syn_own refines oneSided mem isSyn
      cases opened : (n.party .a).peer.sessions.find (canOf setting .a) with
      | none =>
          have slot : h.slot .a = none := (refines.slot .a).trans (by
            rw [Peer.slot_eq, opened]
            rfl)
          cases (oneSided.agreed.absent .a slot).symm.trans drawn
      | some entry =>
          have own := ((ok.hosts .a).held entry.1 entry.2 opened).1
          have same := (conv_of_find refines oneSided opened).symm.trans drawn
          rw [← Option.some.inj same, own]

theorem Conversation.send (ok : n.Conversation setting noted conv calls) {x : Side}
    {data : Bytes} {draw : DrawnConv} {clock : Clock}
    {sendTo : Bytes → SocketAddr → Except IoError Nat}
    (started : n.StartedByA setting (.send x data draw clock sendTo))
    (taken : n.step setting (.send x data draw clock sendTo) = some n') :
    ∃ conv' calls', n'.Conversation setting
      (noted ++ n.offers setting (.send x data draw clock sendTo)) conv' calls' := by
  obtain rfl := Option.some.inj taken
  cases found : (n.party x).peer.sessions.find (canOf setting x) with
  | some entry =>
      obtain ⟨id, s⟩ := entry
      have sent : (n.party x).peer.send (setting.addr x.other) data draw clock
          (socketOf setting x sendTo) =
          (n.party x).peer.sendOn id s data clock (socketOf setting x sendTo) := by
        unfold canOf at found
        simp only [Peer.send, found]
      obtain ⟨calls', after⟩ := ok.hands x (ok.hosts x) found data clock
        (socketOf setting x sendTo) ((n.party x).send (setting.addr x.other) data draw clock
          (socketOf setting x sendTo)) (congrArg Prod.fst sent)
      rw [← sent] at after
      exact ⟨conv, calls', after⟩
  | none =>
      have slot : h.slot x = none := (refines.slot x).trans (by
        rw [Peer.slot_eq, found]
        rfl)
      have starter : x = .a := by
        cases x with
        | a => rfl
        | b => exact absurd ((refines.slot .b).symm.trans slot) started
      -- the other side cannot have a session yet
      have absent : ∀ y, (n.party y).peer.sessions.find (canOf setting y) = none := by
        intro y
        rcases Side.eq_or_eq_other x y with rfl | rfl
        · exact found
        · cases other : (n.party x.other).peer.sessions.find (canOf setting x.other) with
          | none => rfl
          | some entry =>
              have drawn := conv_of_find refines oneSided other
              rw [← starter] at drawn
              cases (oneSided.agreed.absent x slot).symm.trans drawn
      have anew := ok.reopen absent draw.val
      have opened := (anew.hosts x).initiateSession draw clock (socketOf setting x sendTo)
      have there := Peer.find_initiateSession (n.party x).peer (setting.addr x.other) draw clock
        (socketOf setting x sendTo)
      have free : (n.party x).peer.sessions.find (canonicalize (setting.addr x.other)) = none :=
        found
      have sent : (n.party x).peer.send (setting.addr x.other) data draw clock
          (socketOf setting x sendTo) =
          let opening := (n.party x).peer.initiateSession (setting.addr x.other) draw clock
            (socketOf setting x sendTo)
          opening.1.sendOn opening.2.1 opening.2.2 data clock (socketOf setting x sendTo) := by
        simp only [Peer.send, free]
      obtain ⟨calls', after⟩ := anew.hands x opened there data clock (socketOf setting x sendTo)
        ((n.party x).send (setting.addr x.other) data draw clock (socketOf setting x sendTo))
        (congrArg Prod.fst sent)
      rw [← sent] at after
      exact ⟨draw.val, calls', after⟩

omit oneSided in
theorem Conversation.tick (ok : n.Conversation setting noted conv calls) {x : Side} {tick : Tick}
    {sendTo : Bytes → SocketAddr → Except IoError Nat}
    (calm : n.Calm setting (.tick x tick sendTo))
    (taken : n.step setting (.tick x tick sendTo) = some n') :
    ∃ calls', n'.Conversation setting noted conv calls' := by
  obtain ⟨p', applied, rfl⟩ := Option.map_eq_some_iff.mp taken
  obtain ⟨order, rfl⟩ := Peer.apply_tick applied
  have scanned := (refines.tidy x).updateTick_eq order calm
  cases found : (n.party x).peer.sessions.find (canOf setting x) with
  | some entry =>
      obtain ⟨id, s⟩ := entry
      have plays : ∃ s' more, (n.party x).peer.Plays ((n.party x).peer.updateTick tick
          (socketOf setting x sendTo)) (canOf setting x) id s s' more [] [] [] := by
        rcases scanned with same | scanned
        · rw [same]
          exact ⟨s, [], .rests found rfl [] (List.append_nil _).symm (by simp) rfl rfl⟩
        · rw [scanned]
          exact Peer.scanSession_plays _ tick _ found
      obtain ⟨s', more, plays⟩ := plays
      exact ⟨_, ok.hushed (m := n) x { n.party x with peer := _ } rfl (fun _ mem => mem) rfl found
        plays (by simp)⟩
  | none =>
      have idle : (n.party x).peer.updateTick tick (socketOf setting x sendTo) =
          (n.party x).peer := by
        rcases scanned with same | scanned
        · exact same
        · rw [scanned, Peer.scanSession, found]
      have blank := (ok.hosts x).blank found
      have hosts := ok.hosts x
      rw [blank] at hosts
      refine ⟨calls, ok.answers (m := n) x { n.party x with peer := _ } rfl (fun _ mem => mem)
        blank ?_⟩
      rw [idle]
      exact hosts

end Step

/-- One step of a one-sided run. -/
theorem Conversation.step (law : RecvQueue K) (distinct : setting.addr .a ≠ setting.addr .b)
    (reached : (networkMachine K setting).Reach (OneSidedStep setting) n)
    (ok : n.Conversation setting noted conv calls) {act : Action} {n' : Network K}
    (allowed : n.OneSidedStep setting act) (taken : n.step setting act = some n') :
    ∃ conv' calls', n'.Conversation setting (noted ++ n.offers setting act) conv' calls' := by
  obtain ⟨h, refines, oneSided⟩ := oneSided_refines distinct reached
  have silent : ∀ calls', n'.Conversation setting noted conv calls' →
      ∃ conv' calls', n'.Conversation setting (noted ++ []) conv' calls' := by
    intro calls' after
    rw [List.append_nil]
    exact ⟨conv, calls', after⟩
  cases act with
  | send x data draw clock sendTo => exact ok.send refines oneSided allowed.2 taken
  | disconnect x sendTo => exact allowed.1.elim
  | tick x tick sendTo =>
      obtain ⟨calls', after⟩ := ok.tick refines allowed.1 taken
      exact silent calls' after
  | rebind x incarnation => exact allowed.1.elim
  | deliver index clock sendTo =>
      obtain ⟨calls', after⟩ := ok.deliver refines oneSided law taken
      exact silent calls' after
  | drop index =>
      simp only [Network.step] at taken
      split at taken
      · obtain rfl := Option.some.inj taken
        exact silent calls (ok.quiet rfl fun f still => List.mem_of_mem_eraseIdx still)
      · cases taken
  | duplicate index =>
      simp only [Network.step, Option.map_eq_some_iff] at taken
      obtain ⟨f, found, rfl⟩ := taken
      refine silent calls (ok.quiet rfl ?_)
      intro f' mem
      rcases List.mem_append.mp mem with old | copy
      · exact old
      · rw [List.mem_singleton.mp copy]
        exact List.mem_of_getElem? found

end Conversation

theorem start_conversation (setting : Setting) :
    ((networkMachine K setting).start).Conversation setting [] 0 fun _ => [] := by
  refine ⟨.start, ?_, ?_, fun _ => List.nil_sublist _, fun _ => List.nil_sublist _⟩
  · intro x
    refine ⟨?_, fun _ => rfl, rfl, ?_, rfl⟩
    · rintro id s ⟨⟩
    · rintro o ⟨⟩
  · rintro f ⟨⟩

/-- One-sided runs, with what is offered on the way. -/
theorem run_conversation (law : RecvQueue K) {setting : Setting}
    (distinct : setting.addr .a ≠ setting.addr .b) {actions : List Action} {n : Network K}
    (ran : (networkMachine K setting).exec (OneSidedStep setting) (networkMachine K setting).start
      actions = some n) :
    ∃ conv calls, n.Conversation setting
      ((networkMachine K setting).observed (offers setting) (networkMachine K setting).start
        actions) conv calls := by
  have reached := Machine.exec_observed (P := fun (n : Network K) noted =>
      (networkMachine K setting).Reach (OneSidedStep setting) n ∧
        ∃ conv calls, n.Conversation setting noted conv calls)
    (by
      intro before act after noted holds allowed taken
      obtain ⟨reached, conv, calls, ok⟩ := holds
      exact ⟨.step reached allowed taken, ok.step law distinct reached allowed taken⟩)
    actions ⟨.start, 0, _, start_conversation setting⟩ ran
  rw [List.nil_append] at reached
  exact reached.2

end Network

/-- Messages arrive in order end to end. Only `a` opens sessions, and neither side disconnects,
is bound again or has a tick that removes its session. Then whatever the network loses,
duplicates, delays and reorders, as long as what each side is asked to send, with one byte
more for each payload, stays below 2³¹ bytes, what each side hands over to its application are
the first of the payloads that the other side's `send()` calls put into its session, each once,
in order and under the other side's address; every payload that was accepted with `Ok` is among
the payloads put in. -/
theorem payloads_arrive_in_order (K : Type) [Kcp K] (queue : RecvQueue K)
    (promise : Kcp.Reliable K) (setting : Setting) (distinct : setting.addr .a ≠ setting.addr .b)
    (actions : List Action) (n : Network K)
    (ran : (networkMachine K setting).exec (Network.OneSidedStep setting)
      (networkMachine K setting).start actions = some n)
    (small : ∀ x, Kcp.volume (((networkMachine K setting).observed (Network.offers setting)
      (networkMachine K setting).start actions).filterMap (Offer.saidBy x)) < 2 ^ 31) (x : Side) :
    ∃ queued delivered,
      queued.Sublist (((networkMachine K setting).observed (Network.offers setting)
        (networkMachine K setting).start actions).filterMap (Offer.saidBy x)) ∧
      (((networkMachine K setting).observed (Network.offers setting)
        (networkMachine K setting).start actions).filterMap (Offer.acceptedOf x)).Sublist queued ∧
      delivered <+: queued ∧
      (appended (n.party x.other).peer.log).map Prod.snd =
        delivered.map fun data => ⟨setting.addr x, data⟩ := by
  obtain ⟨conv, calls, ok⟩ := Network.run_conversation queue distinct ran
  have fits : ∀ y, Kcp.volume (Network.taken K setting conv calls y) < 2 ^ 31 := fun y =>
    Nat.lt_of_le_of_lt (Kcp.volume_sublist (ok.said y)) (small y)
  have arrived := promise setting.config conv calls ok.linked fits x.other
  rw [Side.other_other] at arrived
  refine ⟨_, _, ok.said x, ok.kept x, arrived, ?_⟩
  have messages := (ok.hosts x.other).messages
  rw [Side.other_other] at messages
  exact messages

/-- A datagram with two payloads is delivered twice. -/
theorem payloads_arrive_in_order_duplicated :
    ∃ (n : Network SampleKcp) (queued delivered : List Bytes), queued.Sublist [[1], [2]] ∧
      List.Sublist [[1], [2]] queued ∧ delivered <+: queued ∧
      (appended (n.party .b).peer.log).map Prod.snd =
        delivered.map (fun data => ⟨Setting.sample.addr .a, data⟩) ∧
      ((appended (n.party .b).peer.log).map Prod.snd).map DataMessage.data = [[1], [2]] := by
  let actions : List Action := [.sendSample .a [1] .ten, .sendSample .a [2] .ten,
    .deliverSample 0, .deliverSample 0, .duplicate 0, .deliverSample 0, .deliverSample 0,
    .sendSample .b [9] .twenty, .deliverSample 0]
  have run : ((networkMachine SampleKcp Setting.sample).exec
      (Network.OneSidedStep Setting.sample) (networkMachine SampleKcp Setting.sample).start
      actions).any (fun n => decide
        (((appended (n.party .b).peer.log).map Prod.snd).map DataMessage.data = [[1], [2]])) =
      true := by
    decide +kernel
  obtain ⟨n, ran, checked⟩ := (Option.any_eq_true ..).mp run
  have small : ∀ x, Kcp.volume (((networkMachine SampleKcp Setting.sample).observed
      (Network.offers Setting.sample) (networkMachine SampleKcp Setting.sample).start
      actions).filterMap (Offer.saidBy x)) < 2 ^ 31 := by
    intro x
    cases x <;> decide +kernel
  obtain ⟨queued, delivered, said, kept, first, arrived⟩ := payloads_arrive_in_order SampleKcp
    SampleKcp.recvQueue SampleKcp.reliable Setting.sample (by decide) actions n ran small .a
  exact ⟨n, queued, delivered, said, kept, first, arrived, of_decide_eq_true checked⟩

end KcpPeer
