import KcpPeer.KcpSpec
import KcpPeer.RegistryStep
import KcpPeer.SampleKcp

set_option autoImplicit false

namespace KcpPeer

namespace Session

variable {K : Type} [Kcp K]

/-- The instance takes the payload: its `send` is called and returns `Ok`. -/
def takes (s : Session K) (data : Bytes) : Bool :=
  !s.closed && !Kcp.isDeadLink s.inner.kcp && (Kcp.send s.inner.kcp data).2.isOk

/-- The instance has taken the payload of an established session, and then `update`
or `flush` returns an error. -/
def failsLate (s : Session K) (data : Bytes) (now : UInt32) (socket : Socket) : Bool :=
  let writer := DirectOutput.write socket s.peerAddr
  match s.inner.state with
  | .synSent => false
  | .established =>
      s.takes data &&
        match Kcp.update (Kcp.send s.inner.kcp data).1 now writer with
        | (_, _, .error _) => true
        | (kcp, _, .ok _) => !(Kcp.flush kcp writer).2.2.isOk

/-- The exits of `send_data`: before the payload is taken, after an error of `update`
or `flush`, and the last one. -/
theorem sendData_exits (q : SendQueue K) (s : Session K) (data : Bytes) (now : UInt32)
    (socket : Socket) :
    ((s.sendData data now socket).2.2.isOk = false ∧ s.takes data = false ∧
        s.failsLate data now socket = false ∧ (s.sendData data now socket).2.1 = [] ∧
        q.queued (s.sendData data now socket).1.inner.kcp = q.queued s.inner.kcp) ∨
      ((s.sendData data now socket).2.2.isOk = false ∧ s.takes data = true ∧
        s.failsLate data now socket = true) ∨
      ((s.sendData data now socket).2.2.isOk = true ∧ s.takes data = true ∧
        s.failsLate data now socket = false) := by
  have early : s.takes data = false → s.failsLate data now socket = false := by
    intro refused
    simp only [failsLate, refused, Bool.false_and]
    split <;> rfl
  unfold sendData
  cases closed : s.closed with
  | true =>
      have refused : s.takes data = false := by
        simp only [takes, closed, Bool.not_true, Bool.false_and]
      exact Or.inl ⟨rfl, refused, early refused, rfl, rfl⟩
  | false =>
      simp only [Bool.false_eq_true, ↓reduceIte, queueData]
      cases dead : Kcp.isDeadLink s.inner.kcp with
      | true =>
          have refused : s.takes data = false := by
            simp only [takes, dead, Bool.not_true, Bool.and_false, Bool.false_and]
          exact Or.inl ⟨rfl, refused, early refused, rfl, rfl⟩
      | false =>
          simp only [Bool.false_eq_true, ↓reduceIte]
          rcases sent : Kcp.send s.inner.kcp data with ⟨kcp, e | _⟩
          · have refused : s.takes data = false := by
              simp only [takes, sent, Except.isOk, Except.toBool, Bool.and_false]
            exact Or.inl ⟨rfl, refused, early refused, rfl, q.refused _ _ _ _ sent⟩
          · have taken : s.takes data = true := by
              simp [takes, closed, dead, sent, Except.isOk, Except.toBool]
            right
            cases state : s.inner.state with
            | synSent =>
                refine Or.inr ⟨rfl, taken, ?_⟩
                simp only [failsLate, state]
            | established =>
                simp only [failsLate, state, taken, sent, Bool.true_and]
                rcases Kcp.update kcp now (DirectOutput.write socket s.peerAddr) with
                  ⟨kcp', first, e | _⟩
                · exact Or.inl ⟨rfl, trivial, rfl⟩
                · dsimp only
                  rcases Kcp.flush kcp' (DirectOutput.write socket s.peerAddr) with
                    ⟨kcp'', second, e | _⟩
                  · exact Or.inl ⟨rfl, trivial, rfl⟩
                  · exact Or.inr ⟨rfl, trivial, rfl⟩

end Session

namespace Peer

variable {K : Type} [Kcp K]

/-- The session that `send()` hands its payload to, opened if the map has none. -/
def sessionFor (p : Peer K) (peer : SocketAddr) (draw : DrawnConv) (clock : Clock)
    (socket : Socket) : Peer K × SessionId × Session K :=
  match p.sessions.find (canonicalize peer) with
  | some (id, s) => (p, id, s)
  | none => p.initiateSession peer draw clock socket

theorem send_sessionFor (p : Peer K) (peer : SocketAddr) (data : Bytes) (draw : DrawnConv)
    (clock : Clock) (socket : Socket) :
    p.send peer data draw clock socket =
      (p.sessionFor peer draw clock socket).1.sendOn (p.sessionFor peer draw clock socket).2.1
        (p.sessionFor peer draw clock socket).2.2 data clock socket := by
  unfold send sessionFor
  cases p.sessions.find (canonicalize peer) with
  | none => rfl
  | some entry => rfl

/-- The send queue of a session object; an object that does not exist has none. -/
def queuedIn (q : SendQueue K) (p : Peer K) (id : SessionId) : List Bytes :=
  match p.sessions.object? id with
  | some s => q.queued s.inner.kcp
  | none => []

/-- Every send queue is as it was, and no KcpData datagram was submitted. -/
structure Unqueued (q : SendQueue K) (p p' : Peer K) : Prop where
  queues : ∀ id, queuedIn q p' id = queuedIn q p id
  silent : ∃ out, p'.outbox = p.outbox ++ out ∧ ∀ o ∈ out, ∀ buf, o.bytes ≠ encodeKcpData buf

theorem Unqueued.trans {q : SendQueue K} {p p' p'' : Peer K} (first : Unqueued q p p')
    (second : Unqueued q p' p'') : Unqueued q p p'' := by
  obtain ⟨out, grown, control⟩ := first.silent
  obtain ⟨out', grown', control'⟩ := second.silent
  refine ⟨fun id => (second.queues id).trans (first.queues id), out ++ out', ?_, ?_⟩
  · rw [grown', grown, List.append_assoc]
  · intro o mem
    rcases List.mem_append.mp mem with old | new
    · exact control o old
    · exact control' o new

theorem Unqueued.setSession {q : SendQueue K} (p : Peer K) {id : SessionId} {s s' : Session K}
    (present : p.sessions.object? id = some s)
    (same : q.queued s'.inner.kcp = q.queued s.inner.kcp) :
    Unqueued q p (p.setSession id s') := by
  refine ⟨?_, [], (List.append_nil _).symm, nofun⟩
  intro id'
  by_cases own : id = id'
  · subst own
    simp only [queuedIn, object?_setSession p s' present, present, same]
  · simp only [queuedIn, Peer.setSession, Store.object?_modify_ne _ _ own]

/-- A new session has an empty queue, and its SYN is all that is submitted. -/
theorem sessionFor_unqueued (q : SendQueue K) (p : Peer K) (peer : SocketAddr) (draw : DrawnConv)
    (clock : Clock) (socket : Socket) :
    Unqueued q p (p.sessionFor peer draw clock socket).1 ∧
      (p.sessionFor peer draw clock socket).1.sessions.object?
          (p.sessionFor peer draw clock socket).2.1 =
        some (p.sessionFor peer draw clock socket).2.2 := by
  unfold sessionFor
  cases found : p.sessions.find (canonicalize peer) with
  | some entry =>
      exact ⟨⟨fun _ => rfl, [], (List.append_nil _).symm, nofun⟩, (Store.find_eq_some.mp found).2⟩
  | none =>
      refine ⟨?_, object?_initiateSession p peer draw clock socket⟩
      let s : Session K := Session.newOutbound draw.val peer p.incarnation p.config clock.epochMs
      have empty : q.queued s.inner.kcp = [] := SendQueue.queued_applyTo ..
      have kcp : (s.sendSyn s.inner.convId clock.epochMs socket).inner.kcp = s.inner.kcp := by
        rw [Session.inner_sendSyn]
      have inserted : Unqueued q p (p.insertSession (canonicalize peer) s) := by
        refine ⟨?_, [], (List.append_nil _).symm, nofun⟩
        intro id
        simp only [queuedIn, insertSession, Store.object?_insertNew]
        by_cases isNew : id = p.sessions.fresh
        · have none : p.sessions.object? id = none := by
            rw [isNew]
            exact List.getElem?_eq_none (Nat.le_refl _)
          simp only [isNew, ↓reduceIte]
          rw [← isNew, none]
          exact empty
        · simp only [isNew, ↓reduceIte]
      have greeted : Unqueued q (p.insertSession (canonicalize peer) s)
          (((p.insertSession (canonicalize peer) s).setSession p.sessions.fresh
            (s.sendSyn s.inner.convId clock.epochMs socket)).submit (some p.sessions.fresh)
            [s.synSubmission s.inner.convId socket]) := by
        have written := Unqueued.setSession (q := q) _
          (object?_insertSession p (canonicalize peer) s) (congrArg q.queued kcp)
        refine ⟨written.queues,
          [⟨s.synSubmission s.inner.convId socket, some p.sessions.fresh⟩], rfl, ?_⟩
        intro o mem buf isData
        obtain rfl := List.mem_singleton.mp mem
        have read := congrArg splitPacket isData
        change splitPacket (encodeControl .syn s.inner.convId) = _ at read
        simp at read
      exact inserted.trans greeted

end Peer

/-- One call of `send()`: the state it is made in, and what its environment answers. -/
structure Attempt (K : Type) where
  before : Peer K
  draw : DrawnConv
  clock : Clock
  socket : Socket

namespace Attempt

variable {K : Type} [Kcp K]

def send (a : Attempt K) (peer : SocketAddr) (data : Bytes) : Peer K × Except (Error K) Unit :=
  a.before.send peer data a.draw a.clock a.socket

/-- The session that gets the payload. -/
def session (a : Attempt K) (peer : SocketAddr) : Session K :=
  (a.before.sessionFor peer a.draw a.clock a.socket).2.2

def failsLate (a : Attempt K) (peer : SocketAddr) (data : Bytes) : Bool :=
  (a.session peer).failsLate data a.clock.currentMs a.socket

/-- A caller repeats its `send()` until one returns `Ok`, whatever happens to the peer
in between: how often an instance takes the payload. -/
def deliveries (peer : SocketAddr) (data : Bytes) : List (Attempt K) → Nat
  | [] => 0
  | a :: rest =>
      (if (a.session peer).takes data then 1 else 0) +
        if (a.send peer data).2.isOk then 0 else deliveries peer data rest

/-- The exits of `send()`. -/
theorem send_exits (q : SendQueue K) (a : Attempt K) (peer : SocketAddr) (data : Bytes) :
    ((a.send peer data).2.isOk = false ∧ (a.session peer).takes data = false ∧
        a.failsLate peer data = false ∧ a.before.Unqueued q (a.send peer data).1) ∨
      ((a.send peer data).2.isOk = false ∧ (a.session peer).takes data = true ∧
        a.failsLate peer data = true) ∨
      ((a.send peer data).2.isOk = true ∧ (a.session peer).takes data = true ∧
        a.failsLate peer data = false) := by
  obtain ⟨opened, present⟩ :=
    Peer.sessionFor_unqueued q a.before peer a.draw a.clock a.socket
  simp only [send, Peer.send_sessionFor, Peer.sendOn, failsLate, session]
  rcases Session.sendData_exits q (a.before.sessionFor peer a.draw a.clock a.socket).2.2 data
    a.clock.currentMs a.socket with ⟨failed, refused, early, nothing, same⟩ | late | sent
  · refine Or.inl ⟨failed, refused, early, opened.trans ?_⟩
    rw [nothing]
    have written := Peer.Unqueued.setSession _ present same
    exact ⟨written.queues, [], rfl, by rintro _ ⟨⟩⟩
  · exact Or.inr (Or.inl late)
  · exact Or.inr (Or.inr sent)

theorem deliveries_le_one (q : SendQueue K) (peer : SocketAddr) (data : Bytes)
    (attempts : List (Attempt K)) (early : ∀ a ∈ attempts, a.failsLate peer data = false) :
    deliveries peer data attempts ≤ 1 := by
  induction attempts with
  | nil => exact Nat.zero_le 1
  | cons a rest ih =>
      have later := ih fun a mem => early a (List.mem_cons_of_mem _ mem)
      have now := early a List.mem_cons_self
      simp only [deliveries]
      rcases a.send_exits q peer data with ⟨failed, refused, _⟩ | ⟨_, _, late⟩ | ⟨sent, taken, _⟩
      · simp only [failed, refused, Bool.false_eq_true, ↓reduceIte, Nat.zero_add]
        exact later
      · rw [now] at late
        cases late
      · simp only [sent, taken, ↓reduceIte]
        omega

end Attempt

/-- A `send()` that returns an error has left its payload in no send queue and on no
datagram, if and only if the error did not come from the `update` or `flush` after the
instance had taken the payload; and then repeating it until `Ok` delivers it at most once. -/
theorem failed_send_not_queued_iff (K : Type) [Kcp K] (q : SendQueue K) (peer : SocketAddr)
    (data : Bytes) :
    (∀ a : Attempt K,
      ((∃ e, (a.send peer data).2 = .error e) →
        (a.session peer).takes data = false ∧ a.before.Unqueued q (a.send peer data).1) ↔
      a.failsLate peer data = false) ∧
    ∀ attempts : List (Attempt K), (∀ a ∈ attempts, a.failsLate peer data = false) →
      Attempt.deliveries peer data attempts ≤ 1 := by
  refine ⟨?_, Attempt.deliveries_le_one q peer data⟩
  intro a
  rcases a.send_exits q peer data with ⟨_, refused, early, unqueued⟩ | ⟨failed, taken, late⟩ |
    ⟨sent, _, early⟩
  · exact iff_of_true (fun _ => ⟨refused, unqueued⟩) early
  · refine iff_of_false ?_ (by rw [late]; decide)
    intro holds
    have isError : ∃ e, (a.send peer data).2 = .error e := by
      cases result : (a.send peer data).2 with
      | error e => exact ⟨e, rfl⟩
      | ok _ =>
          rw [result] at failed
          cases failed
    rw [(holds isError).1] at taken
    cases taken
  · refine iff_of_true ?_ early
    rintro ⟨e, failed⟩
    rw [failed] at sent
    cases sent

/-- The peer that accepted SYN(20), and the same when that session has been closed. -/
def Peer.accepting : Peer SampleKcp :=
  ((Peer.bind 1 .default).handleIncoming (encodeControl .syn 20) .remote .sample .sample).1

def Attempt.onClosed : Attempt SampleKcp where
  before := { Peer.accepting with
    sessions := Peer.accepting.sessions.modify 0 Session.markClosed }
  draw := .ten
  clock := .sample
  socket := .sample

/-- The first call finds its session closed; the second one, made when the session has left
the map, gets through. -/
theorem failed_send_not_queued_iff_closed :
    ∃ second : Attempt SampleKcp,
      (Attempt.onClosed.send .remote [1]).2 = .error .sessionClosed ∧
      Attempt.onClosed.before.Unqueued SampleKcp.sendQueue (Attempt.onClosed.send .remote [1]).1 ∧
      (second.send .remote [1]).2 = .ok () ∧ (second.session .remote).takes [1] = true ∧
      Attempt.deliveries .remote [1] [Attempt.onClosed, second] ≤ 1 := by
  let second : Attempt SampleKcp := ⟨Peer.bind 1 .default, .ten, .sample, .sample⟩
  have closed : (Attempt.onClosed.send .remote [1]).2 = .error .sessionClosed := rfl
  have early : Attempt.onClosed.failsLate .remote [1] = false := rfl
  have early' : second.failsLate .remote [1] = false := rfl
  obtain ⟨safe, once⟩ :=
    failed_send_not_queued_iff SampleKcp SampleKcp.sendQueue .remote [1]
  refine ⟨second, closed, ((safe Attempt.onClosed).mpr early ⟨_, closed⟩).2, rfl, rfl, ?_⟩
  refine once _ fun a mem => ?_
  rcases List.mem_pair.mp mem with rfl | rfl
  · exact early
  · exact early'

/-- A socket whose `send_to` returns an error. -/
def Socket.unreachable : Socket where
  localAddr := .ok (Setting.sample.addr .a)
  sendTo _ _ := .error ⟨.other, "network is unreachable"⟩

/-- The socket fails while `[1]` is flushed: `send()` returns an error, but the instance
has taken the message. The caller sends it again, and the instance takes it twice. -/
theorem failed_send_delivers_twice :
    ∃ p : Peer SampleKcp, (peerMachine SampleKcp 1 .default).Reach Machine.always p ∧
      let first : Attempt SampleKcp := ⟨p, .ten, .sample, .unreachable⟩
      let second : Attempt SampleKcp :=
        ⟨(first.send .remote [1]).1, .ten, .sample, .sample⟩
      (first.send .remote [1]).2 =
          .error (.kcp (.ioError ⟨.other, "network is unreachable"⟩)) ∧
        (second.send .remote [1]).2 = .ok () ∧
        Attempt.deliveries .remote [1] [first, second] = 2 ∧
        ((second.send .remote [1]).1.sessions.object? 0).map (fun s => s.inner.kcp.sent) =
          some [[1], [1]] ∧
        ¬ ((∃ e, (first.send .remote [1]).2 = .error e) →
          (first.session .remote).takes [1] = false ∧
            p.Unqueued SampleKcp.sendQueue (first.send .remote [1]).1) := by
  have taken : (peerMachine SampleKcp 1 .default).step (.bind 1 .default)
      (.incoming (encodeControl .syn 20) .remote .sample .sample) = some .accepting := rfl
  refine ⟨.accepting, .step .start trivial taken, rfl, rfl, by decide +kernel,
    by decide +kernel, ?_⟩
  intro unqueued
  have refused := (unqueued ⟨_, rfl⟩).1
  exact absurd refused (by decide +kernel)

end KcpPeer
