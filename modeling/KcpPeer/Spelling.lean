import KcpPeer.SampleKcp
import KcpPeer.SessionOutput

set_option autoImplicit false

namespace KcpPeer

/-- The window sizes that `stats()` reads from an instance. -/
class KcpWindows (K : Type) where
  sndWnd : K → UInt32
  rcvWnd : K → UInt32
  rmtWnd : K → UInt32

structure PeerStats where
  convId : UInt32
  sendWnd : UInt32
  recvWnd : UInt32
  rmtWnd : UInt32
  waitSnd : Nat
  deadLink : Bool
  elapsed : Duration

namespace Peer

variable {K : Type} [Kcp K]

/-- `now` is the reading of `epoch_ms()`. -/
def stats [KcpWindows K] (p : Peer K) (peer : SocketAddr) (now : UInt64) : Option PeerStats :=
  match p.sessions.find (canonicalize peer) with
  | none => none
  | some (_, s) =>
      if s.closed then none
      else
        some {
          convId := s.inner.convId
          sendWnd := KcpWindows.sndWnd s.inner.kcp
          recvWnd := KcpWindows.rcvWnd s.inner.kcp
          rmtWnd := KcpWindows.rmtWnd s.inner.kcp
          waitSnd := Kcp.waitSnd s.inner.kcp
          deadLink := Kcp.isDeadLink s.inner.kcp
          elapsed := .fromMillis (saturatingSub now s.lastRx) }

/-- The datagrams that were submitted between two states all go to `dest`. -/
def SentOnlyTo (p p' : Peer K) (dest : SocketAddr) : Prop :=
  ∃ out, p'.outbox = p.outbox ++ out ∧ ∀ o ∈ out, o.dest = dest

def SendsAlike (p : Peer K) (s : Session K) (left right : SocketAddr) : Prop :=
  ∀ data draw clock socket,
    p.send left data draw clock socket = p.send right data draw clock socket ∧
      p.SentOnlyTo (p.send left data draw clock socket).1 s.peerAddr

def StatsAlike [KcpWindows K] (p : Peer K) (left right : SocketAddr) : Prop :=
  ∀ now, p.stats left now = p.stats right now

/-- The state after the call includes the events and their addresses. -/
def DisconnectsAlike (p : Peer K) (s : Session K) (left right : SocketAddr) : Prop :=
  ∀ socket, p.disconnect left socket = p.disconnect right socket ∧
    p.SentOnlyTo (p.disconnect left socket) s.peerAddr

/-- Calls with one spelling of an address and with another have the same result and
the same effects, and what they send goes to the session's `peer_addr`. -/
structure Interchangeable [KcpWindows K] (p : Peer K) (s : Session K) (left right : SocketAddr) :
    Prop where
  send : p.SendsAlike s left right
  stats : p.StatsAlike left right
  disconnect : p.DisconnectsAlike s left right

variable {p : Peer K} {id : SessionId} {s : Session K} {left right : SocketAddr}

theorem sendsAlike (same : canonicalize left = canonicalize right)
    (found : p.sessions.find (canonicalize left) = some (id, s)) : p.SendsAlike s left right := by
  intro data draw clock socket
  constructor
  · simp only [send, ← same, found]
  · obtain ⟨bufs, _, written, _⟩ := s.sendData_writes data clock.currentMs socket
    simp only [send, found, sendOn]
    refine ⟨_, rfl, ?_⟩
    intro o mem
    rw [written] at mem
    obtain ⟨submission, inOutput, rfl⟩ := List.mem_map.mp mem
    obtain ⟨buf, _, rfl⟩ := List.mem_map.mp inOutput
    rfl

theorem statsAlike [KcpWindows K] (same : canonicalize left = canonicalize right) :
    p.StatsAlike left right := by
  intro now
  simp only [stats, same]

omit [Kcp K] in
/-- The three RESETs of `disconnect()` go where the caller says. -/
theorem disconnect_outbox (found : p.sessions.find (canonicalize left) = some (id, s))
    (socket : Socket) :
    (p.disconnect left socket).outbox = p.outbox ++ List.replicate 3
      ⟨socket.submit (encodeControl .reset s.inner.convId) left, none⟩ := by
  simp only [disconnect, found]
  rfl

omit [Kcp K] in
theorem disconnectsAlike_iff (same : canonicalize left = canonicalize right)
    (found : p.sessions.find (canonicalize left) = some (id, s)) :
    p.DisconnectsAlike s left right ↔ left = s.peerAddr ∧ right = s.peerAddr := by
  have found' : p.sessions.find (canonicalize right) = some (id, s) := same ▸ found
  constructor
  · intro alike
    obtain ⟨equal, out, sent, onlyTo⟩ := alike .sample
    have resets := disconnect_outbox found .sample
    have resets' := disconnect_outbox found' .sample
    have isLeft : left = s.peerAddr := by
      rw [sent, List.append_cancel_left_eq] at resets
      have first := onlyTo ⟨Socket.sample.submit (encodeControl .reset s.inner.convId) left, none⟩
      rw [resets] at first
      exact first (List.mem_cons_self ..)
    refine ⟨isLeft, ?_⟩
    rw [equal, resets', List.append_cancel_left_eq] at resets
    have dest := congrArg (fun o : Outgoing => o.dest) (List.cons.inj resets).1
    exact dest.trans isLeft
  · rintro ⟨rfl, rfl⟩ socket
    refine ⟨rfl, _, disconnect_outbox found socket, ?_⟩
    intro o mem
    rw [List.eq_of_mem_replicate mem]
    rfl

end Peer

/-- In every state with a session for the address, `send()` and `stats()` do not depend
on how the address is spelled, and `disconnect()` does not either if and only if both
spellings are the one that the session has. -/
theorem spellings_interchangeable_iff (K : Type) [Kcp K] [KcpWindows K] (p : Peer K)
    (id : SessionId) (s : Session K) (left right : SocketAddr)
    (same : canonicalize left = canonicalize right)
    (found : p.sessions.find (canonicalize left) = some (id, s)) :
    p.SendsAlike s left right ∧ p.StatsAlike left right ∧
      (p.Interchangeable s left right ↔ left = s.peerAddr ∧ right = s.peerAddr) := by
  have alike := Peer.disconnectsAlike_iff same found
  refine ⟨Peer.sendsAlike same found, Peer.statsAlike same, ?_⟩
  constructor
  · intro interchangeable
    exact alike.mp interchangeable.disconnect
  · intro asStored
    exact ⟨Peer.sendsAlike same found, Peer.statsAlike same, alike.mpr asStored⟩

/-- Default windows of the crate; nothing else of the sample looks at them. -/
instance : KcpWindows SampleKcp where
  sndWnd _ := 128
  rcvWnd _ := 128
  rmtWnd _ := 128

/-- `10.0.0.2:7000` as a dual-stack socket reports it. -/
def SocketAddr.mappedRemote : SocketAddr := .v6 ⟨0xffff0a000002#128, 7000, 0, 0⟩

/-- A dual-stack IPv6 socket. It sends to an IPv4 destination in either form. -/
def Socket.dualStack : Socket := .reliable (.v6 ⟨0xffff0a000001#128, 7000, 0, 0⟩)

/-- The peer that a dual-stack socket connected to `::ffff:10.0.0.2`. -/
def Peer.dualStack : Peer SampleKcp :=
  ((Peer.bind 1 .default).handleIncoming (encodeControl .syn 20) .mappedRemote .sample
    .dualStack).1

theorem Peer.dualStack_reach :
    (peerMachine SampleKcp 1 .default).Reach Machine.always Peer.dualStack := by
  have taken : (peerMachine SampleKcp 1 .default).step (.bind 1 .default)
      (.incoming (encodeControl .syn 20) .mappedRemote .sample .dualStack) =
        some Peer.dualStack := rfl
  exact .step .start trivial taken

theorem spellings_interchangeable_iff_stored :
    ∃ s, Peer.dualStack.sessions.find (canonicalize .mappedRemote) = some (0, s) ∧
      Peer.dualStack.Interchangeable s .mappedRemote .mappedRemote := by
  refine ⟨_, rfl, ?_⟩
  exact (spellings_interchangeable_iff SampleKcp Peer.dualStack 0 _ .mappedRemote .mappedRemote
    rfl rfl).2.2.mpr ⟨rfl, rfl⟩

/-- `disconnect()` with the IPv4 spelling of the session's address: the RESETs go to that
spelling, and the event names it. -/
theorem disconnect_depends_on_spelling :
    (peerMachine SampleKcp 1 .default).Reach Machine.always Peer.dualStack ∧
      canonicalize .mappedRemote = canonicalize .remote ∧
      ∃ s, Peer.dualStack.sessions.find (canonicalize .remote) = some (0, s) ∧
        s.peerAddr = .mappedRemote ∧
        ((Peer.dualStack.disconnect .mappedRemote .dualStack).outbox.drop 1).map
            (fun o => o.dest) = List.replicate 3 .mappedRemote ∧
        ((Peer.dualStack.disconnect .remote .dualStack).outbox.drop 1).map
            (fun o => o.dest) = List.replicate 3 .remote ∧
        (Peer.dualStack.disconnect .mappedRemote .dualStack).log =
          Peer.dualStack.log ++ [.event (.disconnected .mappedRemote) 0] ∧
        (Peer.dualStack.disconnect .remote .dualStack).log =
          Peer.dualStack.log ++ [.event (.disconnected .remote) 0] ∧
        ¬ Peer.dualStack.Interchangeable s .mappedRemote .remote := by
  refine ⟨Peer.dualStack_reach, by decide, _, rfl, rfl, by decide, by decide, rfl, rfl, ?_⟩
  intro interchangeable
  have same := (interchangeable.disconnect .dualStack).1
  have logs := congrArg Peer.log same
  exact absurd logs (by decide)

end KcpPeer
