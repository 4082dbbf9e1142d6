import KcpPeer.SampleKcp
import KcpPeer.Wire

set_option autoImplicit false

/- A handshake from any two states of its ends, however they came about: lost or
crossed handshakes, restarts, sessions that one side has given up. -/
namespace KcpPeer

/-- The conversation id a side settles on when a SYN with `conv` reaches it. -/
def settled (yields : Bool) (conv : UInt32) : Slot → UInt32
  | some (.synSent, own) => if yields then conv else own
  | _ => conv

/-- What a side announces when a SYN with `conv` reaches it. -/
def greeting (conv : UInt32) : Slot → List Lifecycle
  | some (.established, own) => if own = conv then [] else [.peerRestarted, .connected]
  | _ => [.connected]

theorem respond_syn (yields : Bool) (slot : Slot) (ds : List (Option UInt32)) (conv : UInt32)
    (distinct : slot ≠ some (.synSent, conv)) :
    (respond yields slot ds (.syn conv)).slot = some (.established, settled yields conv slot) ∧
      (respond yields slot ds (.syn conv)).events = greeting conv slot := by
  rcases slot with _ | ⟨state, own⟩
  · exact ⟨rfl, rfl⟩
  · by_cases same : own = conv
    · subst same
      cases state with
      | synSent => exact absurd rfl distinct
      | established => simp [respond, settled, greeting]
    · cases state with
      | synSent => simp [respond, settled, greeting, same]
      | established => simp [respond, settled, greeting, same]

namespace Peer

variable {K : Type}

/-- The datagrams for `dest` that a peer's socket has taken between two states. -/
def answers (p p' : Peer K) (dest : SocketAddr) : List Bytes :=
  ((p'.outbox.drop p.outbox.length).filter fun o => o.accepted && decide (o.dest = dest)).map
    (·.bytes)

variable [Kcp K]

/-- Datagrams from one address are handled one after the other. -/
inductive Receives (src : SocketAddr) : Peer K → List Bytes → Peer K → Prop
  | nil (p : Peer K) : Receives src p [] p
  | cons {p p' : Peer K} {datagram : Bytes} {rest : List Bytes} (clock : Clock) (socket : Socket)
      (myAddr : SocketAddr) (bound : socket.localAddr = .ok myAddr)
      (later : Receives src (p.handleIncoming datagram src clock socket).1 rest p') :
      Receives src p (datagram :: rest) p'

/-- The slot and the events that a peer has for an address. -/
def shown (p : Peer K) (can : CanonicalAddr) : Slot × List Lifecycle :=
  (p.slot can, eventsFor can p.log)

theorem shown_handleIncoming (p : Peer K) (data : Bytes) (src : SocketAddr) (clock : Clock)
    (socket : Socket) {myAddr : SocketAddr} (bound : socket.localAddr = .ok myAddr) :
    ∃ ds, (p.handleIncoming data src clock socket).1.shown (canonicalize src) =
      ((respond (decide (myAddr < src)) (p.slot (canonicalize src)) ds (.decode data)).slot,
        eventsFor (canonicalize src) p.log ++
          (respond (decide (myAddr < src)) (p.slot (canonicalize src)) ds
            (.decode data)).events) := by
  obtain ⟨ds, answers⟩ := p.handleIncoming_respond data src clock socket bound
  exact ⟨ds, Prod.ext answers.slot answers.events⟩

/-- A side that waits for a SYN_ACK is moved by the one for its own conversation only,
whatever data comes before. -/
theorem Receives.waiting {src : SocketAddr} {p p' : Peer K} {data : List Bytes} {kept conv : UInt32}
    (isData : ∀ d ∈ data, ∃ buf, d = encodeKcpData buf)
    (waiting : p.slot (canonicalize src) = some (.synSent, conv))
    (received : Receives src p (data ++ [encodeControl .synAck kept]) p') :
    p'.shown (canonicalize src) =
      if conv = kept then
        (some (.established, conv), eventsFor (canonicalize src) p.log ++ [.connected])
      else p.shown (canonicalize src) := by
  induction data generalizing p with
  | nil =>
      cases received with
      | cons clock socket myAddr bound later =>
          cases later
          obtain ⟨ds, shows⟩ := p.shown_handleIncoming (encodeControl .synAck kept) src clock socket
            bound
          rw [shows, waiting, Msg.decode_synAck]
          by_cases same : conv = kept
          · simp [respond, same]
          · simp [respond, same, shown, waiting]
  | cons d rest ih =>
      cases received with
      | cons clock socket myAddr bound later =>
          obtain ⟨buf, rfl⟩ := isData _ List.mem_cons_self
          obtain ⟨ds, shows⟩ := p.shown_handleIncoming (encodeKcpData buf) src clock socket bound
          have unmoved := respond_data (decide (myAddr < src)) (p.slot (canonicalize src)) ds
            (readConv buf)
          rw [Msg.decode_kcpData, unmoved.1, unmoved.2, List.append_nil] at shows
          have slot := congrArg Prod.fst shows
          have events := congrArg Prod.snd shows
          simp only [shown] at slot events
          rw [ih (fun d mem => isData d (List.mem_cons_of_mem _ mem)) (slot.trans waiting) later,
            events, show _ = p.shown (canonicalize src) from shows]

/-- What a side submits when a SYN reaches it: nothing, or data of its own session and
then the SYN_ACK. -/
theorem handleIncoming_syn_outbox (p : Peer K) (conv : UInt32) (src : SocketAddr) (clock : Clock)
    (socket : Socket) {myAddr : SocketAddr} (bound : socket.localAddr = .ok myAddr)
    (distinct : p.slot (canonicalize src) ≠ some (.synSent, conv)) :
    ∃ out, (∀ o ∈ out, ∃ buf, o.bytes = encodeKcpData buf) ∧
      (p.handleIncoming (encodeControl .syn conv) src clock socket).1.outbox =
        p.outbox ++ (out ++ [⟨socket.submit (encodeControl .synAck
          (settled (decide (myAddr < src)) conv (p.slot (canonicalize src)))) src, none⟩]) := by
  have flushed : ∀ (id : SessionId) (s s₁ : Session K), s₁.inner.state = .established →
      ∀ o ∈ ((s₁.pump clock.currentMs socket).2.map fun submission =>
        (⟨submission, some id⟩ : Outgoing)), ∃ buf, o.bytes = encodeKcpData buf := by
    intro id s s₁ ready o mem
    obtain ⟨bufs, _, written, _⟩ := s₁.pump_writes clock.currentMs socket ready
    rw [written] at mem
    obtain ⟨submission, inOutput, rfl⟩ := List.mem_map.mp mem
    obtain ⟨buf, _, rfl⟩ := List.mem_map.mp inOutput
    exact ⟨buf, rfl⟩
  simp only [handleIncoming, splitPacket_encodeControl, handleSyn, readConv_toLeBytes_self, bound,
    synDecide]
  cases found : p.sessions.find (canonicalize src) with
  | none =>
      rw [slot_none found]
      exact ⟨[], by simp, rfl⟩
  | some entry =>
      obtain ⟨id, s⟩ := entry
      rw [slot_some found] at distinct ⊢
      dsimp only
      by_cases same : s.inner.convId = conv
      · simp only [same, ↓reduceIte]
        cases state : s.inner.state with
        | synSent => exact absurd (by rw [state, same]) distinct
        | established => exact ⟨[], by simp, rfl⟩
      · simp only [same, ↓reduceIte]
        cases state : s.inner.state with
        | established => exact ⟨[], by simp, rfl⟩
        | synSent =>
            dsimp only
            by_cases yields : myAddr < src
            · simp only [yields, decide_true, ↓reduceIte]
              exact ⟨_, flushed id s (s.adopt conv clock.epochMs) rfl, by
                simp [synFinish, synAcknowledge, sendSynAck, submit, emit, setSession, settled]⟩
            · simp only [yields, decide_false, ↓reduceIte]
              exact ⟨_, flushed id s (s.establish clock.epochMs) rfl, by
                simp [synFinish, synAcknowledge, sendSynAck, submit, emit, setSession, settled]⟩

/-- The SYN of a side at `x` reaches the other side at `y`, whose socket takes every
datagram, and everything it answers to `x` is handled there. -/
inductive SynRound (x y : SocketAddr) (conv : UInt32) (a b : Peer K) : Peer K → Peer K → Prop
  | mk (clock : Clock) (socket : Socket) (bound : socket.localAddr = .ok y)
      (takes : ∀ bytes dest, (socket.sendTo bytes dest).isOk = true) {a' : Peer K}
      (answered : Receives y a
        (answers b (b.handleIncoming (encodeControl .syn conv) x clock socket).1 x) a') :
      SynRound x y conv a b a' (b.handleIncoming (encodeControl .syn conv) x clock socket).1

/-- What a round does to the side that sent the SYN, and to the other one. -/
theorem SynRound.shown {x y : SocketAddr} {conv : UInt32} {a b a' b' : Peer K}
    (round : SynRound x y conv a b a' b')
    (waiting : a.slot (canonicalize y) = some (.synSent, conv))
    (distinct : b.slot (canonicalize x) ≠ some (.synSent, conv)) :
    let kept := settled (decide (y < x)) conv (b.slot (canonicalize x))
    (a'.shown (canonicalize y) =
        if conv = kept then
          (some (.established, conv), eventsFor (canonicalize y) a.log ++ [.connected])
        else a.shown (canonicalize y)) ∧
      b'.shown (canonicalize x) = (some (.established, kept),
        eventsFor (canonicalize x) b.log ++ greeting conv (b.slot (canonicalize x))) := by
  obtain ⟨clock, socket, bound, takes, answered⟩ := round
  obtain ⟨out, isData, grown⟩ := b.handleIncoming_syn_outbox conv x clock socket bound distinct
  obtain ⟨ds, shows⟩ := b.shown_handleIncoming (encodeControl .syn conv) x clock socket bound
  rw [Msg.decode_syn, (respond_syn _ _ _ _ distinct).1, (respond_syn _ _ _ _ distinct).2] at shows
  refine ⟨?_, shows⟩
  have taken : ∀ bytes, (socket.submit bytes x).accepted = true := fun bytes => takes bytes x
  have dest : ∀ bytes, (socket.submit bytes x).dest = x := fun _ => rfl
  simp only [answers, grown, List.drop_left, List.filter_append, List.filter_cons, taken, dest,
    decide_true, Bool.and_self, ↓reduceIte, List.filter_nil, List.map_append, List.map_cons,
    List.map_nil] at answered
  refine Receives.waiting ?_ waiting answered
  intro d mem
  obtain ⟨o, inOut, rfl⟩ := List.mem_map.mp mem
  exact isData o (List.mem_filter.mp inOut).1

/-- A SYN with the conversation id that the side itself waits for. -/
theorem SynRound.stuck {x y : SocketAddr} {conv : UInt32} {a b a' b' : Peer K}
    (round : SynRound x y conv a b a' b')
    (alike : b.slot (canonicalize x) = some (.synSent, conv)) : a' = a ∧ b' = b := by
  obtain ⟨clock, socket, bound, _, answered⟩ := round
  have unmoved : (b.handleIncoming (encodeControl .syn conv) x clock socket).1 = b := by
    simp only [handleIncoming, splitPacket_encodeControl, handleSyn, readConv_toLeBytes_self, bound,
      synDecide]
    rw [slot_eq, Option.map_eq_some_iff] at alike
    obtain ⟨⟨id, s⟩, found, same⟩ := alike
    have state : s.inner.state = .synSent := (Prod.mk.inj same).1
    have convId : s.inner.convId = conv := (Prod.mk.inj same).2
    simp only [found, state, convId, ↓reduceIte]
    rfl
  simp only [unmoved, answers, List.drop_length, List.filter_nil, List.map_nil] at answered
  cases answered
  exact ⟨rfl, unmoved⟩

/-- Both sides have the conversation, and the one that sent the SYN has announced it. -/
structure Recovered (x y : SocketAddr) (conv : UInt32) (before : List Lifecycle) (a b : Peer K) :
    Prop where
  sender : a.shown (canonicalize y) = (some (.established, conv), before ++ [.connected])
  receiver : b.slot (canonicalize x) = some (.established, conv)

end Peer

open Peer in
/-- A waiting side recovers from whatever session the other side holds, within two of its own
SYNs that get through and are answered. Only where both sides wait for a SYN_ACK of the same
conversation id does its SYN change nothing. The first SYN fails only against the side that
keeps its own id in a simultaneous open, and the second then makes that side start over. -/
theorem handshake_recovers (K : Type) [Kcp K] (x y : SocketAddr) (conv : UInt32)
    (a b a' b' : Peer K) (waiting : a.slot (canonicalize y) = some (.synSent, conv))
    (round : SynRound x y conv a b a' b') :
    let history := eventsFor (canonicalize y) a.log
    let others := eventsFor (canonicalize x) b.log
    (b.slot (canonicalize x) = some (.synSent, conv) → a' = a ∧ b' = b) ∧
      (b.slot (canonicalize x) ≠ some (.synSent, conv) →
        (Recovered x y conv history a' b' ∧
          eventsFor (canonicalize x) b'.log = others ++ greeting conv (b.slot (canonicalize x))) ∨
        (¬ y < x ∧ ∃ own, own ≠ conv ∧ b.slot (canonicalize x) = some (.synSent, own) ∧
          ∀ a'' b'', SynRound x y conv a' b' a'' b'' → Recovered x y conv history a'' b'' ∧
            eventsFor (canonicalize x) b''.log =
              others ++ [.connected, .peerRestarted, .connected])) := by
  intro history others
  refine ⟨round.stuck, ?_⟩
  intro distinct
  obtain ⟨sender, receiver⟩ := round.shown waiting distinct
  obtain ⟨slot, events⟩ := Prod.mk.inj receiver
  by_cases same : conv = settled (decide (y < x)) conv (b.slot (canonicalize x))
  · rw [if_pos same] at sender
    exact Or.inl ⟨⟨sender, same ▸ slot⟩, events⟩
  · -- the side at `y` waited with its own id and has kept it
    rw [if_neg same] at sender
    have waiting' : a'.slot (canonicalize y) = some (.synSent, conv) :=
      (congrArg Prod.fst sender).trans waiting
    have history' : eventsFor (canonicalize y) a'.log = history := congrArg Prod.snd sender
    rcases held : b.slot (canonicalize x) with _ | ⟨state, own⟩
    · exact absurd (by rw [held]; rfl) same
    · cases state with
      | established => exact absurd (by rw [held]; rfl) same
      | synSent =>
          have kept : ¬ y < x := by
            intro yields
            exact same (by simp [held, settled, yields])
          have other : own ≠ conv := by
            rintro rfl
            exact distinct held
          rw [held, settled, decide_eq_false kept] at slot
          simp only [Bool.false_eq_true, ↓reduceIte] at slot
          refine Or.inr ⟨kept, own, other, rfl, ?_⟩
          intro a'' b'' again
          obtain ⟨sender', receiver'⟩ := again.shown waiting' (by rw [slot]; simp)
          obtain ⟨slot', events'⟩ := Prod.mk.inj receiver'
          rw [slot] at sender' slot' events'
          simp only [settled, ↓reduceIte] at sender' slot'
          refine ⟨⟨?_, slot'⟩, ?_⟩
          · rw [sender', history']
          · rw [events', events, held]
            simp [greeting, other]
            rfl

open Peer in
/-- 10.0.0.2 still has the session of 10.0.0.1 before its restart. -/
theorem handshake_recovers_restart :
    ∃ a b a' b' : Peer SampleKcp, a.slot (canonicalize .remote) = some (.synSent, 20) ∧
      b.slot (canonicalize (Setting.sample.addr .a)) = some (.established, 10) ∧
      SynRound (Setting.sample.addr .a) .remote 20 a b a' b' ∧
      Recovered (Setting.sample.addr .a) .remote 20 [] a' b' := by
  let a : Peer SampleKcp := ((Peer.bind 1 .default).send .remote [7] .twenty .sample .sample).1
  let b : Peer SampleKcp := ((Peer.bind 2 .default).handleIncoming (encodeControl .syn 10)
    (Setting.sample.addr .a) .sample (.reliable .remote)).1
  let b' : Peer SampleKcp := (b.handleIncoming (encodeControl .syn 20)
    (Setting.sample.addr .a) .sample (.reliable .remote)).1
  let a' : Peer SampleKcp :=
    (a.handleIncoming (encodeControl .synAck 20) .remote .sample .sample).1
  have waiting : a.slot (canonicalize .remote) = some (.synSent, 20) := by decide +kernel
  have stale : b.slot (canonicalize (Setting.sample.addr .a)) = some (.established, 10) := by
    decide +kernel
  have answer : answers b b' (Setting.sample.addr .a) = [encodeControl .synAck 20] := by
    decide +kernel
  have answered : Receives .remote a (answers b b' (Setting.sample.addr .a)) a' := by
    rw [answer]
    exact .cons .sample .sample _ rfl (.nil _)
  have round : SynRound (Setting.sample.addr .a) .remote 20 a b a' b' :=
    .mk .sample (.reliable .remote) rfl (fun _ _ => rfl) answered
  refine ⟨a, b, a', b', waiting, stale, round, ?_⟩
  rcases (handshake_recovers SampleKcp (Setting.sample.addr .a) .remote 20 a b a' b' waiting
    round).2 (by rw [stale]; decide) with ⟨recovered, _⟩ | ⟨_, own, _, held, _⟩
  · exact recovered
  · rw [stale] at held
    cases held

end KcpPeer
