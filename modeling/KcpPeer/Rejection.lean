import KcpPeer.SampleKcp
import KcpPeer.SessionStep

set_option autoImplicit false

namespace KcpPeer

theorem Session.touch_withKcp_eq_iff {K : Type} (s : Session K) (now : UInt64) (kcp : K) :
    (s.touch now).withKcp kcp = s ↔ kcp = s.inner.kcp ∧ s.lastRx = now := by
  constructor
  · intro same
    have instances := congrArg (fun s : Session K => s.inner.kcp) same
    have stamps := congrArg Session.lastRx same
    exact ⟨instances, stamps.symm⟩
  · rintro ⟨rfl, rfl⟩
    rfl

namespace Peer

variable {K : Type}

/-- A session written back as it was. -/
theorem setSession_eq_iff (p : Peer K) {id : SessionId} {s : Session K} (s' : Session K)
    (present : p.sessions.object? id = some s) : p.setSession id s' = p ↔ s' = s := by
  constructor
  · intro same
    have written := object?_setSession p s' present
    rw [same, present] at written
    exact (Option.some.inj written).symm
  · rintro rfl
    rw [setSession, Store.modify_same p.sessions (fun _ => s') present rfl]

variable [Kcp K]

/-- The control arms check what they can refuse before they touch anything. -/
theorem handleSyn_rejected {p : Peer K} {payload : Bytes} {src : SocketAddr} {clock : Clock}
    {socket : Socket} {e : Error K}
    (rejected : (p.handleSyn payload src clock socket).2 = .error e) :
    (p.handleSyn payload src clock socket).1 = p := by
  unfold handleSyn at rejected ⊢
  split at rejected
  · rfl
  · split at rejected
    · rfl
    · cases rejected

theorem handleSynAck_rejected {p : Peer K} {payload : Bytes} {src : SocketAddr} {clock : Clock}
    {socket : Socket} {e : Error K}
    (rejected : (p.handleSynAck payload src clock socket).2 = .error e) :
    (p.handleSynAck payload src clock socket).1 = p := by
  unfold handleSynAck at rejected ⊢
  split at rejected
  · rfl
  · cases rejected

theorem handleReset_rejected {p : Peer K} {payload : Bytes} {src : SocketAddr} {e : Error K}
    (rejected : (p.handleReset payload src).2 = .error e) :
    (p.handleReset payload src).1 = p := by
  unfold handleReset at rejected ⊢
  split at rejected
  · rfl
  · split at rejected
    · cases rejected
    · split at rejected
      · cases rejected
      · cases rejected

/-- For a KcpData datagram from an address that has a session: the instance takes it
in, or refuses it without a change to itself at a time that `last_rx` already has. -/
def RefusesQuietly (p : Peer K) (data : Bytes) (src : SocketAddr) (clock : Clock) : Prop :=
  ∀ payload id s, splitPacket data = some (.kcpData, payload) →
    p.sessions.find (canonicalize src) = some (id, s) →
    (Kcp.feed s.inner.kcp payload).2.2.isOk = true ∨
      ((Kcp.feed s.inner.kcp payload).1 = s.inner.kcp ∧ s.lastRx = clock.epochMs)

variable (p : Peer K) (data : Bytes) (src : SocketAddr) (clock : Clock) (socket : Socket)

theorem unchanged_iff_refusesQuietly :
    ((∃ e, (p.handleIncoming data src clock socket).2 = .error e) →
      (p.handleIncoming data src clock socket).1 = p) ↔ p.RefusesQuietly data src clock := by
  cases kind : splitPacket data with
  | none => simp [handleIncoming, kind, RefusesQuietly]
  | some packet =>
      obtain ⟨typ, payload⟩ := packet
      cases typ with
      | syn =>
          refine iff_of_true ?_ (by simp [RefusesQuietly, kind])
          simp only [handleIncoming, kind]
          rintro ⟨e, rejected⟩
          exact handleSyn_rejected rejected
      | synAck =>
          refine iff_of_true ?_ (by simp [RefusesQuietly, kind])
          simp only [handleIncoming, kind]
          rintro ⟨e, rejected⟩
          exact handleSynAck_rejected rejected
      | reset =>
          refine iff_of_true ?_ (by simp [RefusesQuietly, kind])
          simp only [handleIncoming, kind]
          rintro ⟨e, rejected⟩
          exact handleReset_rejected rejected
      | kcpData =>
          simp only [handleIncoming, kind]
          cases found : p.sessions.find (canonicalize src) with
          | none =>
              refine iff_of_true ?_ (by simp [RefusesQuietly, found])
              rintro ⟨e, rejected⟩
              simp only [handleKcpData, found] at rejected
              split at rejected
              · cases rejected
              · cases rejected
          | some entry =>
              obtain ⟨id, s⟩ := entry
              have quiet : p.RefusesQuietly data src clock ↔
                  (Kcp.feed s.inner.kcp payload).2.2.isOk = true ∨
                    ((Kcp.feed s.inner.kcp payload).1 = s.inner.kcp ∧
                      s.lastRx = clock.epochMs) := by
                simp [RefusesQuietly, kind, found]
              rw [quiet, handleKcpData_feed p payload src clock socket found]
              rcases Kcp.feed s.inner.kcp payload with ⟨kcp, msgs, e | _⟩
              · -- the refusal: what is written back is what was read
                simp only [Except.error.injEq, exists_eq', forall_const, Except.isOk,
                  Except.toBool, Bool.false_eq_true, false_or]
                rw [p.setSession_eq_iff _ (Store.find_eq_some.mp found).2,
                  Session.touch_withKcp_eq_iff]
              · refine iff_of_true ?_ (Or.inl rfl)
                cases msgs with
                | nil => rintro ⟨e, ⟨⟩⟩
                | cons msg msgs => rintro ⟨e, ⟨⟩⟩

/-- What the header check of the instance refuses has changed `last_rx` and nothing else. -/
theorem handleKcpData_refused {payload : Bytes} {id : SessionId} {s : Session K} {e : Kcp.Err K}
    (found : p.sessions.find (canonicalize src) = some (id, s))
    (refused : Kcp.input s.inner.kcp payload = (s.inner.kcp, .error e)) :
    (p.handleKcpData payload src clock socket).2 = .error (.kcp e) ∧
      ((p.handleKcpData payload src clock socket).1 = p ↔ s.lastRx = clock.epochMs) := by
  have fed : Kcp.feed s.inner.kcp payload = (s.inner.kcp, [], .error e) := by
    simp only [Kcp.feed, refused]
  rw [p.handleKcpData_feed payload src clock socket found, fed]
  refine ⟨rfl, ?_⟩
  rw [p.setSession_eq_iff _ (Store.find_eq_some.mp found).2, Session.touch_withKcp_eq_iff]
  exact and_iff_right rfl

end Peer

/-- A datagram that is rejected leaves the peer exactly as it was, if and only if it
is not one that an instance refuses after its session's `last_rx` has been set. What the
header check of the instance refuses leaves the peer so if and only if `last_rx` is the
reading of the clock already. -/
theorem rejected_datagram_changes_nothing_iff (K : Type) [Kcp K] (p : Peer K) (data : Bytes)
    (src : SocketAddr) (clock : Clock) (socket : Socket) :
    (((∃ e, (p.handleIncoming data src clock socket).2 = .error e) →
      (p.handleIncoming data src clock socket).1 = p) ↔ p.RefusesQuietly data src clock) ∧
    ∀ (check : HeaderCheck K) (payload : Bytes) (id : SessionId) (s : Session K),
      splitPacket data = some (.kcpData, payload) →
      p.sessions.find (canonicalize src) = some (id, s) →
      payload.length < 24 ∨ readConv payload ≠ some (check.conv s.inner.kcp) →
      (∃ e, (p.handleIncoming data src clock socket).2 = .error e) ∧
        ((p.handleIncoming data src clock socket).1 = p ↔ s.lastRx = clock.epochMs) := by
  refine ⟨p.unchanged_iff_refusesQuietly data src clock socket, ?_⟩
  intro check payload id s parsed found wrong
  obtain ⟨e, refused⟩ := check.refuses s.inner.kcp payload wrong
  simp only [Peer.handleIncoming, parsed]
  obtain ⟨rejected, unchanged⟩ := p.handleKcpData_refused src clock socket found refused
  exact ⟨⟨_, rejected⟩, unchanged⟩

/-- A datagram of conversation 21. -/
def SampleKcp.foreign : Bytes :=
  encodeKcpData ((Kcp.new 21 : SampleKcp).segment SampleKcp.cmdPush 0 0 [7])

/-- The datagram of conversation 21 meets a session of conversation 20 that was heard of at
1000 ms: at that time it changes nothing, and at 2000 ms it does. -/
theorem rejected_datagram_changes_nothing_iff_foreign :
    ∃ p : Peer SampleKcp,
      (∃ e, (p.handleIncoming SampleKcp.foreign .remote .sample .sample).2 = .error e) ∧
      (p.handleIncoming SampleKcp.foreign .remote .sample .sample).1 = p ∧
      (p.handleIncoming SampleKcp.foreign .remote ⟨2000, 2000⟩ .sample).1 ≠ p := by
  let p : Peer SampleKcp :=
    ((Peer.bind 1 .default).handleIncoming (encodeControl .syn 20) .remote .sample .sample).1
  let s : Session SampleKcp := Session.newInbound 20 .remote 1 .default 1000
  have found : p.sessions.find (canonicalize .remote) = some (0, s) := rfl
  have refused := fun clock => (rejected_datagram_changes_nothing_iff SampleKcp p
    SampleKcp.foreign .remote clock .sample).2 SampleKcp.headerCheck _ 0 s rfl found
    (Or.inr (by decide +kernel))
  refine ⟨p, (refused .sample).1, (refused .sample).2.mpr rfl, ?_⟩
  intro unchanged
  exact absurd ((refused ⟨2000, 2000⟩).2.mp unchanged) (by decide)

/-- A session of conversation 20 was heard of last at 1000 ms. A datagram of conversation
21 is refused by the instance at 2000 ms, and the session outlives its timeout. -/
theorem rejected_datagram_postpones_timeout :
    ∃ p : Peer SampleKcp, (peerMachine SampleKcp 1 .default).Reach Machine.always p ∧
      (p.handleIncoming SampleKcp.foreign .remote ⟨2000, 2000⟩ .sample).2 =
        .error (.kcp .convInconsistent) ∧
      (∃ id s s', p.sessions.find (canonicalize .remote) = some (id, s) ∧
        (p.handleIncoming SampleKcp.foreign .remote ⟨2000, 2000⟩ .sample).1.sessions.find
          (canonicalize .remote) = some (id, s') ∧ s'.inner.kcp = s.inner.kcp ∧
        s.idleExpired p.config 61500 = true ∧ s'.idleExpired p.config 61500 = false) ∧
      ¬ ((∃ e, (p.handleIncoming SampleKcp.foreign .remote ⟨2000, 2000⟩ .sample).2 = .error e) →
        (p.handleIncoming SampleKcp.foreign .remote ⟨2000, 2000⟩ .sample).1 = p) := by
  let p : Peer SampleKcp :=
    ((Peer.bind 1 .default).handleIncoming (encodeControl .syn 20) .remote .sample .sample).1
  have taken : (peerMachine SampleKcp 1 .default).step (.bind 1 .default)
      (.incoming (encodeControl .syn 20) .remote .sample .sample) = some p := rfl
  have reached : (peerMachine SampleKcp 1 .default).Reach Machine.always p :=
    .step .start trivial taken
  have rejected : (p.handleIncoming SampleKcp.foreign .remote ⟨2000, 2000⟩ .sample).2 =
      .error (.kcp .convInconsistent) := by rfl
  refine ⟨p, reached, rejected, ⟨0, _, _, rfl, rfl, rfl, by decide +kernel, by decide +kernel⟩, ?_⟩
  intro unchanged
  have stamps := congrArg (fun p : Peer SampleKcp =>
    (p.sessions.object? 0).map Session.lastRx) (unchanged ⟨_, rejected⟩)
  exact absurd stamps (by decide +kernel)

end KcpPeer
