import KcpPeer.Mailbox
import KcpPeer.SampleKcp
import KcpPeer.SessionStep

set_option autoImplicit false

namespace KcpPeer

/-- Complete messages in the `kcp` crate: `peeksize` fails only when there is none, a
new instance has none, and only `input` adds one. -/
structure OnlyInputCompletes (K : Type) [Kcp K] : Prop extends RecvQueue K where
  dry : ∀ (k : K) e, Kcp.peeksize k = .error e → Kcp.rcvQueue k = []
  fresh : ∀ (config : KcpConfig) conv, Kcp.rcvQueue (config.applyTo (Kcp.new conv) : K) = []
  setConv : ∀ (k : K) conv, Kcp.rcvQueue (Kcp.setConv k conv) = Kcp.rcvQueue k
  send : ∀ (k : K) data, Kcp.rcvQueue (Kcp.send k data).1 = Kcp.rcvQueue k
  update : ∀ (k : K) now writer, Kcp.rcvQueue (Kcp.update k now writer).1 = Kcp.rcvQueue k
  flush : ∀ (k : K) writer, Kcp.rcvQueue (Kcp.flush k writer).1 = Kcp.rcvQueue k

namespace Session

variable {K : Type} [Kcp K]

/-- The complete messages of a session's instance. -/
def complete (s : Session K) : List Bytes := Kcp.rcvQueue s.inner.kcp

variable (law : OnlyInputCompletes K)

include law

theorem complete_pump (s : Session K) (now : UInt32) (socket : Socket) :
    (s.pump now socket).1.complete = s.complete :=
  (law.flush _ _).trans (law.update _ _ _)

theorem complete_sendData (s : Session K) (data : Bytes) (now : UInt32) (socket : Socket) :
    (s.sendData data now socket).1.complete = s.complete := by
  have taken := law.send s.inner.kcp data
  unfold sendData queueData
  dsimp only
  split
  · rfl
  · split
    · rfl
    · split
      · rename_i sent
        rw [sent] at taken
        exact taken
      · rename_i kcp _ sent
        rw [sent] at taken
        split
        · exact taken
        · have updated := law.update kcp now (DirectOutput.write socket s.peerAddr)
          split
          · rename_i result
            rw [result] at updated
            exact updated.trans taken
          · rename_i kcp' _ _ result
            rw [result] at updated
            have flushed := law.flush kcp' (DirectOutput.write socket s.peerAddr)
            split
            · rename_i result'
              rw [result'] at flushed
              exact flushed.trans (updated.trans taken)
            · rename_i result'
              rw [result'] at flushed
              exact flushed.trans (updated.trans taken)

theorem complete_scan (s : Session K) (config : KcpConfig) (tick : Tick) (now : UInt64)
    (socket : Socket) : (s.scan config tick now socket).1.complete = s.complete := by
  have updated : (s.update tick.nowMs socket).1.complete = s.complete := by
    have step := law.update s.inner.kcp tick.nowMs (DirectOutput.write socket s.peerAddr)
    unfold update
    dsimp only
    split
    · rfl
    · split
      · rfl
      · split
        · rename_i result
          rw [result] at step
          exact step
        · rename_i result
          rw [result] at step
          split
          · exact step
          · exact step
  refine scan_rule (P := fun s' => s'.complete = s.complete) rfl updated ?_
  intro updated
  exact (congrArg Kcp.rcvQueue (maybeRetrySyn_kcp ..)).trans updated

/-- A successful `input` is followed by a drain of every complete message. -/
theorem feed_of_ok {kcp kcp' : K} {payload : Bytes} (fed : Kcp.input kcp payload = (kcp', .ok ())) :
    (Kcp.feed kcp payload).2 = (Kcp.rcvQueue kcp', .ok ()) ∧
      Kcp.rcvQueue (Kcp.feed kcp payload).1 = [] := by
  obtain ⟨ok, moved, e, empty⟩ := drain_complete law.toRecvQueue _ kcp' [] (Nat.le_refl _)
  have handed := drain_received (Kcp.rcvQueue kcp').length kcp' []
  rw [law.dry _ e empty, List.append_nil] at moved
  simp only [Kcp.feed, fed]
  refine ⟨Prod.ext ?_ ok, law.dry _ e empty⟩
  rw [handed, ← moved, List.nil_append]

/-- The session is left drained if and only if `input` returns `Ok` or completes nothing. -/
theorem complete_fed_iff (s : Session K) (payload : Bytes) (now : UInt64) :
    (s.fed payload now).complete = [] ↔
      (Kcp.input s.inner.kcp payload).2.isOk = true ∨
        Kcp.rcvQueue (Kcp.input s.inner.kcp payload).1 = [] := by
  change Kcp.rcvQueue (Kcp.feed s.inner.kcp payload).1 = [] ↔ _
  rcases input : Kcp.input s.inner.kcp payload with ⟨kcp, e | _⟩
  · simp only [Kcp.feed, input, Except.isOk, Except.toBool, Bool.false_eq_true, false_or]
  · exact iff_of_true (feed_of_ok law input).2 (Or.inl rfl)

end Session

namespace Peer

variable {K : Type} [Kcp K]

/-- No session in the map has a complete message left in its instance. -/
def Drained (p : Peer K) : Prop :=
  ∀ can id s, p.sessions.find can = some (id, s) → s.complete = []

/-- The step is not a KcpData datagram that an instance refuses after its earlier
segments have made a message complete. -/
def StrandsNothing (p : Peer K) : PeerOp → Prop
  | .incoming data src _ _ =>
      ∀ payload id s, splitPacket data = some (.kcpData, payload) →
        p.sessions.find (canonicalize src) = some (id, s) →
        (Kcp.input s.inner.kcp payload).2.isOk = true ∨
          Kcp.rcvQueue (Kcp.input s.inner.kcp payload).1 = []
  | _ => True

variable (law : OnlyInputCompletes K)

include law

theorem SessionBirth.complete {p : Peer K} {can : CanonicalAddr} {op : PeerOp} {s : Session K}
    (birth : SessionBirth p can op s) : s.complete = [] := by
  cases birth with
  | inbound own kind read clock socket => exact law.fresh ..
  | outbound own data draw clock socket =>
      rw [Session.complete_sendData law, Session.complete, Session.inner_sendSyn]
      exact law.fresh ..

theorem Drained.apply {p p' : Peer K} (drained : p.Drained) {op : PeerOp}
    (quiet : p.StrandsNothing op) (applied : p.apply op = some p') : p'.Drained := by
  refine (apply_follows applied).each drained ?_ fun can s birth => birth.complete law
  intro can id s s' found step empty
  cases step with
  | same => exact empty
  | sent => exact (Session.complete_sendData law ..).trans empty
  | scanned => exact (Session.complete_scan law ..).trans empty
  | touched => exact empty
  | established => exact (Session.complete_pump law ..).trans empty
  | adopted =>
      rw [Session.complete_pump law]
      exact (law.setConv ..).trans empty
  | fed own kind =>
      subst own
      exact (s.complete_fed_iff law _ _).mpr (quiet _ id s kind found)

theorem handleIncoming_drained_iff {p : Peer K} (drained : p.Drained) (data : Bytes)
    (src : SocketAddr) (clock : Clock) (socket : Socket) :
    (p.handleIncoming data src clock socket).1.Drained ↔
      p.StrandsNothing (.incoming data src clock socket) := by
  constructor
  · intro after payload id s kind found
    have sessions := handleKcpData_sessions p payload src clock socket found
    rw [← s.complete_fed_iff law payload clock.epochMs]
    refine after (canonicalize src) id _ ?_
    simp only [handleIncoming, kind, sessions]
    exact find_setSession found _
  · intro quiet
    exact drained.apply law quiet rfl

/-- Whatever has become complete is appended to `pending_data`. -/
theorem handleKcpData_pendingData (p : Peer K) (payload : Bytes) {src : SocketAddr}
    (clock : Clock) (socket : Socket) {id : SessionId} {s : Session K}
    (found : p.sessions.find (canonicalize src) = some (id, s))
    (quiet : (Kcp.input s.inner.kcp payload).2.isOk = true ∨
      Kcp.rcvQueue (Kcp.input s.inner.kcp payload).1 = []) :
    (p.handleKcpData payload src clock socket).1.pendingData = p.pendingData ++
      (Kcp.rcvQueue (Kcp.input s.inner.kcp payload).1).map fun msg => ⟨s.peerAddr, msg⟩ := by
  rw [handleKcpData_feed p payload src clock socket found]
  rcases input : Kcp.input s.inner.kcp payload with ⟨kcp, e | _⟩
  · simp only [input, Except.isOk, Except.toBool, Bool.false_eq_true, false_or] at quiet
    simp only [Kcp.feed, input, quiet]
    exact (List.append_nil _).symm
  · have handed := (Session.feed_of_ok law input).1
    rcases all : Kcp.feed s.inner.kcp payload with ⟨kcp', msgs, result⟩
    rw [all] at handed
    cases handed
    cases Kcp.rcvQueue kcp with
    | nil => exact (List.append_nil _).symm
    | cons msg msgs => rfl

end Peer

/-- In every run without a datagram that an instance refuses after it has completed a
message, no session in the map keeps a complete message. The next `handle_incoming`
keeps it so exactly if its datagram is not of that kind, and then everything that has
become complete is appended to `pending_data`. -/
theorem complete_messages_handed_over (K : Type) [Kcp K] (law : OnlyInputCompletes K)
    (incarnation : UInt64) (config : KcpConfig) (p : Peer K)
    (reached : (peerMachine K incarnation config).Reach Peer.StrandsNothing p) :
    p.Drained ∧
      ∀ data src clock socket,
        ((p.handleIncoming data src clock socket).1.Drained ↔
          p.StrandsNothing (.incoming data src clock socket)) ∧
        (p.StrandsNothing (.incoming data src clock socket) →
          ∀ payload id s, splitPacket data = some (.kcpData, payload) →
            p.sessions.find (canonicalize src) = some (id, s) →
            (p.handleIncoming data src clock socket).1.pendingData = p.pendingData ++
              (Kcp.rcvQueue (Kcp.input s.inner.kcp payload).1).map
                fun msg => ⟨s.peerAddr, msg⟩) := by
  have drained : p.Drained := by
    refine reached.invariant (fun can id s found => ?_) ?_
    · cases found
    · intro p op p' drained quiet applied
      exact drained.apply law quiet applied
  refine ⟨drained, ?_⟩
  intro data src clock socket
  refine ⟨Peer.handleIncoming_drained_iff law drained data src clock socket, ?_⟩
  intro quiet payload id s kind found
  simp only [Peer.handleIncoming, kind]
  exact p.handleKcpData_pendingData law payload clock socket found (quiet payload id s kind found)

namespace SampleKcp

theorem writeOut_received (writer : Writer) (k : SampleKcp) :
    (writeOut writer k).1.received = k.received := by
  unfold writeOut
  repeat' split
  all_goals rfl

theorem onlyInputCompletes : OnlyInputCompletes SampleKcp where
  toRecvQueue := recvQueue
  dry k e peeked := by
    cases queue : k.received with
    | nil => exact queue
    | cons msg rest => simp [Kcp.peeksize, queue] at peeked
  fresh _ _ := rfl
  setConv _ _ := rfl
  send _ _ := rfl
  update k now writer := writeOut_received writer { k with updated := true, current := now }
  flush k writer := by
    simp only [Kcp.flush]
    split
    · exact writeOut_received writer k
    · rfl

/-- Message 0 of conversation 20, and behind it a segment of conversation 21. -/
def mixed : Bytes :=
  encodeKcpData ((Kcp.new 20 : SampleKcp).segment cmdPush 0 0 [7] ++
    (Kcp.new 21 : SampleKcp).segment cmdPush 0 0 [8])

end SampleKcp

/-- The peer that has accepted SYN(20) of 10.0.0.2. -/
def Peer.acceptedTwenty : Peer SampleKcp :=
  ((Peer.bind 1 .default).handleIncoming (encodeControl .syn 20) .remote .sample .sample).1

theorem complete_messages_handed_over_single :
    (peerMachine SampleKcp 1 .default).Reach Peer.StrandsNothing Peer.acceptedTwenty ∧
      (Peer.acceptedTwenty.handleIncoming SampleKcp.datagram .remote .sample
        .sample).1.pendingData = [⟨.remote, [7]⟩] := by
  have taken : (peerMachine SampleKcp 1 .default).step (.bind 1 .default)
      (.incoming (encodeControl .syn 20) .remote .sample .sample) = some .acceptedTwenty := rfl
  have reached : (peerMachine SampleKcp 1 .default).Reach Peer.StrandsNothing .acceptedTwenty := by
    refine .step .start ?_ taken
    rintro payload id s isData
    simp at isData
  refine ⟨reached, ?_⟩
  have handed := (complete_messages_handed_over SampleKcp SampleKcp.onlyInputCompletes 1 .default
    .acceptedTwenty reached).2 SampleKcp.datagram .remote .sample .sample
  rw [handed.2 ?_ _ 0 _ rfl rfl]
  · decide +kernel
  · rintro payload id s ⟨⟩ ⟨⟩
    exact Or.inl (by decide +kernel)

/-- The instance accepts message `[7]` of conversation 20 and refuses the rest of the
datagram: `handle_incoming` returns the error and leaves the message behind. -/
theorem refused_datagram_strands_message :
    ∃ p : Peer SampleKcp, (peerMachine SampleKcp 1 .default).Reach Machine.always p ∧
      p = (Peer.acceptedTwenty.handleIncoming SampleKcp.mixed .remote .sample .sample).1 ∧
      (Peer.acceptedTwenty.handleIncoming SampleKcp.mixed .remote .sample .sample).2 =
        .error (.kcp .convInconsistent) ∧
      (∃ id s, p.sessions.find (canonicalize .remote) = some (id, s) ∧ s.complete = [[7]]) ∧
      p.pendingData = [] ∧ ¬ p.Drained := by
  have taken : (peerMachine SampleKcp 1 .default).step (.bind 1 .default)
      (.incoming (encodeControl .syn 20) .remote .sample .sample) = some .acceptedTwenty := rfl
  have taken' : (peerMachine SampleKcp 1 .default).step .acceptedTwenty
      (.incoming SampleKcp.mixed .remote .sample .sample) =
        some (Peer.acceptedTwenty.handleIncoming SampleKcp.mixed .remote .sample .sample).1 := rfl
  have left : ∃ id s, (Peer.acceptedTwenty.handleIncoming SampleKcp.mixed .remote .sample
      .sample).1.sessions.find (canonicalize .remote) = some (id, s) ∧ s.complete = [[7]] :=
    ⟨0, _, rfl, by decide +kernel⟩
  refine ⟨_, .step (.step .start trivial taken) trivial taken', rfl, rfl, left, rfl, ?_⟩
  intro drained
  obtain ⟨id, s, found, complete⟩ := left
  rw [drained _ id s found] at complete
  cases complete

end KcpPeer
