import KcpPeer.Coherence
import KcpPeer.Effects

set_option autoImplicit false

namespace KcpPeer

variable {K : Type}

namespace Network

variable {setting : Setting} {n : Network K}

@[simp] theorem launch_party_self (x : Side) (party : Party K) :
    (n.launch setting x party).party x =
      { party with peer := { party.peer with outbox := [] } } :=
  Function.update_self ..

theorem launch_party_other {x y : Side} (other : y ≠ x) (party : Party K) :
    (n.launch setting x party).party y = n.party y :=
  Function.update_of_ne other ..

end Network

variable [Kcp K] {c : ConvStamp K}

namespace Peer

theorem Alters.coherent {op : PeerOp} {can : CanonicalAddr} {config : KcpConfig} {s s' : Session K}
    (alters : Alters op can config s s') (ok : s.Coherent c) : s'.Coherent c := by
  cases alters with
  | write kcp lastRx written => exact (ok.writes written rfl).1
  | syn => exact ok.same rfl ⟨rfl, rfl⟩
  | establish waiting now => exact ok.establish now
  | adopt waiting own isSyn now => exact ok.adopt waiting _ now
  | close => exact ok.same rfl ⟨rfl, rfl⟩

theorem Creates.coherent {op : PeerOp} {can : CanonicalAddr} {config : KcpConfig} {s : Session K}
    (creates : Creates op can config s) : s.Coherent c := by
  cases creates with
  | initiate => exact .of_new config rfl
  | accept => exact .of_new config rfl

/-- The session object is established with the conversation id `conv`. -/
def Settled (p : Peer K) (id : SessionId) (conv : UInt32) : Prop :=
  ∃ s, p.sessions.object? id = some s ∧ s.inner.state = .established ∧ s.inner.convId = conv

/-- An established session stays established and keeps its conversation id, in
the map or out of it. -/
theorem Effect.settled {op : PeerOp} {can : CanonicalAddr} {p p' : Peer K}
    (effect : Effect op can p p') {id : SessionId} {conv : UInt32} (settled : p.Settled id conv) :
    p'.Settled id conv := by
  obtain ⟨s, present, ready, same⟩ := settled
  obtain ⟨s', present', altered⟩ := effect.kept present
  refine ⟨s', present', ?_⟩
  have notWaiting : s.inner.state ≠ .synSent := by
    rw [ready]
    decide
  rcases altered with rfl | altered
  · exact ⟨ready, same⟩
  · cases altered with
    | write => exact ⟨ready, same⟩
    | syn waiting => exact absurd waiting notWaiting
    | establish waiting => exact absurd waiting notWaiting
    | adopt waiting => exact absurd waiting notWaiting
    | close => exact ⟨ready, same⟩

theorem Effects.settled {op : PeerOp} {p p' : Peer K} (effects : Effects op p p') {id : SessionId}
    {conv : UInt32} (settled : p.Settled id conv) : p'.Settled id conv := by
  induction effects with
  | refl => exact settled
  | tail _ effect ih =>
      obtain ⟨_, effect⟩ := effect
      exact effect.settled ih

/-- Every session is coherent, and the data in the outbox comes from established
sessions and carries their conversation ids. -/
structure Voiced (c : ConvStamp K) (p : Peer K) : Prop where
  sessions : ∀ id s, p.sessions.object? id = some s → s.Coherent c
  outbox : ∀ o ∈ p.outbox, ∀ d, o.msg = .data d →
    ∃ id conv, o.origin = some id ∧ d = some conv ∧ p.Settled id conv

theorem Effect.voiced {op : PeerOp} {can : CanonicalAddr} {p p' : Peer K}
    (effect : Effect op can p p') (ok : p.Voiced c) : p'.Voiced c := by
  have sessions : ∀ id s, p'.sessions.object? id = some s → s.Coherent c := by
    intro id s' present'
    rcases effect.object present' with kept | ⟨s, found, alters⟩ | ⟨_, creates⟩
    · exact ok.sessions id s' kept
    · exact alters.coherent (ok.sessions id s (Store.find_eq_some.mp found).2)
    · exact creates.coherent
  have old : ∀ o ∈ p.outbox, ∀ d, o.msg = .data d →
      ∃ id conv, o.origin = some id ∧ d = some conv ∧ p'.Settled id conv := by
    intro o mem d isData
    obtain ⟨id, conv, origin, carried, settled⟩ := ok.outbox o mem d isData
    exact ⟨id, conv, origin, carried, effect.settled settled⟩
  have control : ∀ {origin : Option SessionId} {out : List Submission},
      p'.outbox = (p.submit origin out).outbox →
      (∀ o ∈ out, ∀ d, Msg.decode o.bytes ≠ .data d) → p'.Voiced c := by
    intro origin out grown noData
    refine ⟨sessions, ?_⟩
    intro o mem d isData
    rw [grown] at mem
    rcases List.mem_append.mp mem with before | new
    · exact old o before d isData
    · obtain ⟨submission, sent, rfl⟩ := List.mem_map.mp new
      exact absurd isData (noData submission sent d)
  have quiet : p'.outbox = p.outbox → p'.Voiced c := by
    intro same
    refine ⟨sessions, ?_⟩
    rw [same]
    exact old
  cases effect with
  | @write id s found kcp lastRx socket out written =>
      have present := (Store.find_eq_some.mp found).2
      obtain ⟨_, stamped⟩ := (ok.sessions id s present).writes written rfl
      refine ⟨sessions, ?_⟩
      intro o mem d isData
      rcases List.mem_append.mp mem with before | new
      · exact old o before d isData
      · obtain ⟨submission, sent, rfl⟩ := List.mem_map.mp new
        obtain ⟨buf, rfl, stamp, ready⟩ := stamped submission sent
        have carried : readConv buf = d := by
          simpa [Outgoing.msg, Socket.submit] using isData
        refine ⟨id, s.inner.convId, rfl, carried.symm.trans stamp, ?_⟩
        exact ⟨_, object?_setSession p _ present, ready, rfl⟩
  | syn found =>
      refine control rfl ?_
      intro o mem d
      cases List.mem_singleton.mp mem
      simp [Session.synSubmission, Socket.submit]
  | acknowledge =>
      refine control rfl ?_
      intro o mem d
      cases List.mem_singleton.mp mem
      simp [Socket.submit]
  | reset =>
      refine control rfl ?_
      intro o mem d
      cases List.eq_of_mem_replicate mem
      simp [Socket.submit]
  | establish => exact quiet rfl
  | adopt => exact quiet rfl
  | initiate => exact quiet rfl
  | accept => exact quiet rfl
  | supersede => exact quiet rfl
  | close => exact quiet rfl
  | deliver => exact quiet rfl

end Peer

namespace Network

variable {setting : Setting} {n n' : Network K}

/-- What a step of the network is: one side does an operation, one side is bound
anew, or datagrams get lost or are copied. -/
inductive Moves (setting : Setting) (n : Network K) : Network K → Prop
  | act (x : Side) {op : PeerOp} {party : Party K} {flights : List Flight}
      (effects : Peer.Effects op (n.party x).peer party.peer)
      (sameBind : party.bindNo = (n.party x).bindNo) (known : ∀ f ∈ flights, f ∈ n.flights) :
      Moves setting n (launch { n with flights } setting x party)
  | rebind (x : Side) (incarnation : UInt64) :
      Moves setting n { n with
        party := Function.update n.party x
          (.bind incarnation (setting.config x) ((n.party x).bindNo + 1)) }
  | wire {flights : List Flight} (known : ∀ f ∈ flights, f ∈ n.flights) :
      Moves setting n { n with flights }

theorem step_moves {action : Action} (taken : n.step setting action = some n')
    (keyed : ∀ x, (n.party x).peer.registry.Keyed) : Moves setting n n' := by
  cases action with
  | send x data draw clock sendTo =>
      obtain rfl := Option.some.inj taken
      exact .act x (Peer.send_effects ..).effects rfl fun _ mem => mem
  | disconnect x sendTo =>
      obtain rfl := Option.some.inj taken
      exact .act x (Peer.disconnect_effects ..).effects rfl fun _ mem => mem
  | tick x tick sendTo =>
      obtain ⟨peer, applied, rfl⟩ := Option.map_eq_some_iff.mp taken
      have effects : Peer.Effects _ (n.party x).peer ({ n.party x with peer } : Party K).peer :=
        Peer.apply_effects applied (keyed x)
      exact .act x effects rfl fun _ mem => mem
  | rebind x incarnation =>
      obtain rfl := Option.some.inj taken
      exact .rebind x incarnation
  | deliver index clock sendTo =>
      obtain ⟨f, flying, rfl⟩ := Option.map_eq_some_iff.mp taken
      exact .act f.dst (Peer.handleIncoming_effects (K := K)).effects rfl
        fun _ mem => List.mem_of_mem_eraseIdx mem
  | drop index =>
      simp only [step] at taken
      split at taken
      · obtain rfl := Option.some.inj taken
        exact .wire fun _ mem => List.mem_of_mem_eraseIdx mem
      · cases taken
  | duplicate index =>
      obtain ⟨f, flying, rfl⟩ := Option.map_eq_some_iff.mp taken
      refine .wire ?_
      intro g mem
      rcases List.mem_append.mp mem with old | copy
      · exact old
      · cases List.mem_singleton.mp copy
        exact List.mem_of_getElem? flying

theorem Moves.bindNo_le (moves : Moves setting n n') (x : Side) :
    (n.party x).bindNo ≤ (n'.party x).bindNo := by
  cases moves with
  | act y effects sameBind known =>
      by_cases same : x = y
      · subst same
        simp [sameBind]
      · rw [launch_party_other same]
  | rebind y incarnation =>
      by_cases same : x = y
      · subst same
        simp [Party.bind]
      · simp [Function.update_of_ne same]
  | wire known => exact Nat.le_refl _

theorem Moves.settled (moves : Moves setting n n') {x : Side} {id : SessionId} {conv : UInt32}
    (sameBind : (n'.party x).bindNo = (n.party x).bindNo)
    (settled : (n.party x).peer.Settled id conv) : (n'.party x).peer.Settled id conv := by
  cases moves with
  | act y effects _ known =>
      by_cases same : x = y
      · subst same
        rw [launch_party_self]
        exact effects.settled settled
      · rw [launch_party_other same]
        exact settled
  | rebind y incarnation =>
      by_cases same : x = y
      · subst same
        simp [Party.bind] at sameBind
      · simpa only [Function.update_of_ne same] using settled
  | wire known => exact settled

/-- The invariant of the pair: a data datagram that left the current bind of its
sender comes from an established session and carries its conversation id. -/
structure Voiced (c : ConvStamp K) (n : Network K) : Prop where
  keyed : ∀ x, (n.party x).peer.registry.Keyed
  idle : ∀ x, (n.party x).peer.outbox = []
  sessions : ∀ x id s, (n.party x).peer.sessions.object? id = some s → s.Coherent c
  flights : ∀ f ∈ n.flights, ∀ d, Msg.decode f.bytes = .data d →
    f.bindNo ≤ (n.party f.dst.other).bindNo ∧
      (f.bindNo = (n.party f.dst.other).bindNo →
        ∃ id conv, f.origin = some id ∧ d = some conv ∧
          (n.party f.dst.other).peer.Settled id conv)

theorem Moves.voiced (moves : Moves setting n n') (ok : n.Voiced c) : n'.Voiced c := by
  -- a datagram that was in flight before keeps its session, or its bind is over
  have old : ∀ f ∈ n.flights, ∀ d, Msg.decode f.bytes = .data d →
      f.bindNo ≤ (n'.party f.dst.other).bindNo ∧
        (f.bindNo = (n'.party f.dst.other).bindNo →
          ∃ id conv, f.origin = some id ∧ d = some conv ∧
            (n'.party f.dst.other).peer.Settled id conv) := by
    intro f mem d isData
    obtain ⟨bound, carried⟩ := ok.flights f mem d isData
    have later := moves.bindNo_le f.dst.other
    refine ⟨bound.trans later, ?_⟩
    intro current
    have sameBind : (n'.party f.dst.other).bindNo = (n.party f.dst.other).bindNo := by omega
    obtain ⟨id, conv, origin, stamp, settled⟩ := carried (current.trans sameBind)
    exact ⟨id, conv, origin, stamp, moves.settled sameBind settled⟩
  cases moves with
  | @act x op party flights effects sameBind known =>
      have before : (n.party x).peer.Voiced c := by
        refine ⟨ok.sessions x, ?_⟩
        rw [ok.idle x]
        rintro o ⟨⟩
      obtain ⟨keyed, after⟩ := effects.invariant (P := Peer.Voiced c)
        (fun _ _ _ effect _ voiced => effect.voiced voiced) (ok.keyed x) before
      refine ⟨launch_each (P := fun _ party => party.peer.registry.Keyed) keyed ok.keyed,
        launch_each (P := fun _ party => party.peer.outbox = []) rfl ok.idle,
        launch_each (P := fun _ party => ∀ id s, party.peer.sessions.object? id = some s →
          s.Coherent c) after.sessions ok.sessions, ?_⟩
      · intro f mem d isData
        rcases List.mem_append.mp mem with before | new
        · exact old f (known f before) d isData
        · obtain ⟨o, sent, rfl⟩ := List.mem_map.mp new
          rw [Side.other_other, launch_party_self]
          refine ⟨Nat.le_refl _, fun _ => ?_⟩
          exact after.outbox o (List.mem_filter.mp sent).1 d isData
  | rebind x incarnation =>
      refine ⟨?_, ?_, ?_, old⟩
      · refine (Function.forall_update_iff n.party fun _ party => party.peer.registry.Keyed).mpr
          ⟨?_, fun y _ => ok.keyed y⟩
        intro can id v found
        simp [Party.bind] at found
      · exact (Function.forall_update_iff n.party fun _ party => party.peer.outbox = []).mpr
          ⟨rfl, fun y _ => ok.idle y⟩
      · refine (Function.forall_update_iff n.party fun _ party =>
          ∀ id s, party.peer.sessions.object? id = some s → s.Coherent c).mpr
          ⟨?_, fun y _ => ok.sessions y⟩
        intro id s present
        simp [Party.bind, Peer.bind] at present
  | wire known => exact ⟨ok.keyed, ok.idle, ok.sessions, fun f mem => old f (known f mem)⟩

/-- B answers data for a session it does not have with RESETs that carry the
datagram's conversation id. -/
theorem deliver_unknown (ok : n.Voiced c) {f : Flight} {payload : Bytes} {conv : UInt32}
    {index : Nat} {clock : Clock} {sendTo : Bytes → SocketAddr → Except IoError Nat}
    (flying : n.flights[index]? = some f) (isData : splitPacket f.bytes = some (.kcpData, payload))
    (stamp : readConv payload = some conv)
    (unknown : (n.party f.dst).peer.sessions.find (canonicalize (setting.addr f.dst.other)) = none)
    (taken : n.step setting (.deliver index clock sendTo) = some n') :
    ∃ answers, n'.flights = n.flights.eraseIdx index ++ answers ∧
      ∀ g ∈ answers, g.dst = f.dst.other ∧ g.bytes = encodeControl .reset conv := by
  simp only [step, flying, Option.map_some, Option.some.injEq] at taken
  subst taken
  refine ⟨_, rfl, ?_⟩
  intro g mem
  obtain ⟨o, sent, rfl⟩ := List.mem_map.mp mem
  refine ⟨rfl, ?_⟩
  have submitted := (List.mem_filter.mp sent).1
  simp only [Party.receive, Peer.handleIncoming, isData, Peer.handleKcpData, unknown, stamp,
    Peer.sendReset, Peer.submit, ok.idle, List.nil_append, List.map_replicate] at submitted
  cases List.eq_of_mem_replicate submitted
  rfl

/-- A RESET that carries `conv` removes the session with that id, and no other. -/
theorem deliver_reset {g : Flight} {conv : UInt32} {index : Nat} {clock : Clock}
    {sendTo : Bytes → SocketAddr → Except IoError Nat} (flying : n.flights[index]? = some g)
    (isReset : g.bytes = encodeControl .reset conv)
    (taken : n.step setting (.deliver index clock sendTo) = some n') :
    (∀ id,
      (n.party g.dst).peer.sessions.lookup (canonicalize (setting.addr g.dst.other)) = some id →
      (n.party g.dst).peer.Settled id conv →
      (n'.party g.dst).peer.sessions.lookup (canonicalize (setting.addr g.dst.other)) = none) ∧
    ∀ can id s, (n.party g.dst).peer.sessions.find can = some (id, s) → s.inner.convId ≠ conv →
      (n'.party g.dst).peer.sessions.find can = some (id, s) := by
  simp only [step, flying, Option.map_some, Option.some.injEq] at taken
  subst taken
  simp only [launch_party_self, Party.receive, Peer.handleIncoming, isReset,
    splitPacket_encodeControl, Peer.handleReset, readConv_toLeBytes_self]
  cases found : (n.party g.dst).peer.sessions.find (canonicalize (setting.addr g.dst.other)) with
  | none =>
      refine ⟨?_, fun _ _ _ entry _ => entry⟩
      intro id named
      rw [Store.find_eq_none.mp found] at named
      cases named
  | some entry =>
      obtain ⟨id₁, s₁⟩ := entry
      obtain ⟨named₁, present₁⟩ := Store.find_eq_some.mp found
      dsimp only
      by_cases same : s₁.inner.convId = conv
      · rw [if_pos same]
        have removed := Peer.find_removed found s₁.markClosed
        refine ⟨?_, ?_⟩
        · intro id named settled
          exact Store.find_eq_none.mp ((removed _).trans (if_pos rfl))
        · intro can id s entry apart
          refine (removed can).trans ?_
          rw [if_neg]
          · exact entry
          · rintro rfl
            rw [found] at entry
            cases entry
            exact apart same
      · rw [if_neg same]
        refine ⟨?_, fun _ _ _ entry _ => entry⟩
        rintro id named ⟨s, present, _, agreed⟩
        rw [named₁] at named
        cases named
        rw [present₁] at present
        cases present
        exact absurd agreed same

end Network

theorem networkMachine_voiced {setting : Setting} {n : Network K}
    (reached : (networkMachine K setting).Reach Machine.always n) : n.Voiced c := by
  refine reached.invariant (P := Network.Voiced c) ⟨?_, ?_, ?_, ?_⟩ ?_
  · intro x can id v found
    simp [networkMachine, Party.bind] at found
  · intro x
    rfl
  · rintro x id s ⟨⟩
  · rintro f ⟨⟩
  · intro before action after ok _ taken
    exact (Network.step_moves taken ok.keyed).voiced ok

/-- From a state on, the binds of a side only grow, and while the bind lasts its
established sessions keep their conversation ids. -/
theorem networkMachine_settled {setting : Setting} {n later : Network K} (ok : n.Voiced c)
    (reached : ((networkMachine K setting).startingAt n).Reach Machine.always later) :
    later.Voiced c ∧ ∀ x id conv, (n.party x).peer.Settled id conv →
      (n.party x).bindNo ≤ (later.party x).bindNo ∧
        ((later.party x).bindNo = (n.party x).bindNo → (later.party x).peer.Settled id conv) := by
  refine reached.invariant (P := fun later => later.Voiced c ∧
    ∀ x id conv, (n.party x).peer.Settled id conv →
      (n.party x).bindNo ≤ (later.party x).bindNo ∧
        ((later.party x).bindNo = (n.party x).bindNo → (later.party x).peer.Settled id conv)) ?_ ?_
  · exact ⟨ok, fun x id conv settled => ⟨Nat.le_refl _, fun _ => settled⟩⟩
  · rintro before action after ⟨voiced, kept⟩ _ taken
    have moves := Network.step_moves taken voiced.keyed
    refine ⟨moves.voiced voiced, ?_⟩
    intro x id conv settled
    obtain ⟨bound, carried⟩ := kept x id conv settled
    have later := moves.bindNo_le x
    refine ⟨bound.trans later, ?_⟩
    intro current
    exact moves.settled (by omega) (carried (by omega))

/-- Every KcpData datagram comes from an established session and carries the
conversation id that the session keeps; so the RESETs which answer it close that
session while it is held, and never a session with another id. -/
theorem half_open_reset_closes_its_session (K : Type) [Kcp K] (c : ConvStamp K)
    (setting : Setting) (n : Network K)
    (reached : (networkMachine K setting).Reach Machine.always n) :
    -- an established session keeps its conversation id in every later state of its peer
    (∀ x id s, (n.party x).peer.sessions.object? id = some s → s.inner.state = .established →
      ∀ later, ((networkMachine K setting).startingAt n).Reach Machine.always later →
        (later.party x).bindNo = (n.party x).bindNo →
        ∃ s', (later.party x).peer.sessions.object? id = some s' ∧
          s'.inner.state = .established ∧ s'.inner.convId = s.inner.convId) ∧
    ∀ f ∈ n.flights, ∀ payload, splitPacket f.bytes = some (.kcpData, payload) →
      f.bindNo = (n.party f.dst.other).bindNo →
      ∃ id s, f.origin = some id ∧
        (n.party f.dst.other).peer.sessions.object? id = some s ∧
        s.inner.state = .established ∧ readConv payload = some s.inner.convId ∧
        ∀ later, ((networkMachine K setting).startingAt n).Reach Machine.always later →
          -- the datagram reaches a peer without a session: what it answers
          (∀ index clock sendTo after, later.flights[index]? = some f →
            (later.party f.dst).peer.sessions.find
              (canonicalize (setting.addr f.dst.other)) = none →
            later.step setting (.deliver index clock sendTo) = some after →
            ∃ answers, after.flights = later.flights.eraseIdx index ++ answers ∧
              ∀ g ∈ answers, g.dst = f.dst.other ∧
                g.bytes = encodeControl .reset s.inner.convId) ∧
          -- such a RESET comes back, in any copy and at any time
          (∀ index g clock sendTo after, later.flights[index]? = some g → g.dst = f.dst.other →
            g.bytes = encodeControl .reset s.inner.convId →
            later.step setting (.deliver index clock sendTo) = some after →
            ((later.party g.dst).bindNo = f.bindNo →
              (later.party g.dst).peer.sessions.lookup
                (canonicalize (setting.addr f.dst)) = some id →
              (after.party g.dst).peer.sessions.lookup (canonicalize (setting.addr f.dst)) = none) ∧
            ∀ can id' s', (later.party g.dst).peer.sessions.find can = some (id', s') →
              s'.inner.convId ≠ s.inner.convId →
              (after.party g.dst).peer.sessions.find can = some (id', s')) := by
  have ok := networkMachine_voiced (c := c) reached
  refine ⟨?_, ?_⟩
  · intro x id s present ready later run sameBind
    exact ((networkMachine_settled ok run).2 x id _ ⟨s, present, ready, rfl⟩).2 sameBind
  · intro f flying payload isData current
    have decoded : Msg.decode f.bytes = .data (readConv payload) := by
      simp only [Msg.decode, isData]
    obtain ⟨id, conv, origin, stamp, settled⟩ := (ok.flights f flying _ decoded).2 current
    obtain ⟨s, present, ready, rfl⟩ := settled
    refine ⟨id, s, origin, present, ready, stamp, ?_⟩
    intro later run
    obtain ⟨voiced, kept⟩ := networkMachine_settled ok run
    refine ⟨?_, ?_⟩
    · intro index clock sendTo after flying' unknown taken
      exact Network.deliver_unknown voiced flying' isData stamp unknown taken
    · intro index g clock sendTo after flying' dst isReset taken
      obtain ⟨removes, spares⟩ := Network.deliver_reset flying' isReset taken
      rw [dst, Side.other_other] at removes
      refine ⟨?_, spares⟩
      intro sameBind named
      rw [dst] at sameBind named ⊢
      refine removes id named ?_
      exact (kept f.dst.other id _ ⟨s, present, ready, rfl⟩).2 (sameBind.trans current)

/-- The first data of a new session, written when the SYN_ACK arrives, reaches a peer that
has been bound again: the RESET it answers with removes the session. -/
theorem half_open_reset_closes_its_session_flushed :
    ∃ n : Network SampleKcp, (networkMachine SampleKcp .sample).Reach Machine.always n ∧
      ∃ f ∈ n.flights, ∃ payload id s, splitPacket f.bytes = some (.kcpData, payload) ∧
        f.origin = some id ∧ (n.party f.dst.other).peer.sessions.object? id = some s ∧
        s.inner.state = .established ∧ readConv payload = some s.inner.convId ∧
        ∃ later, ((networkMachine SampleKcp .sample).startingAt n).Reach Machine.always later ∧
        ∃ after, later.step .sample (.deliverSample 0) = some after ∧
          (∀ g ∈ after.flights, g.dst = f.dst.other ∧
            g.bytes = encodeControl .reset s.inner.convId) ∧
        ∃ final, after.step .sample (.deliverSample 0) = some final ∧
          (final.party f.dst.other).peer.sessions.lookup
            (canonicalize (Setting.sample.addr f.dst)) = none := by
  let M := networkMachine SampleKcp .sample
  have run : (M.exec Machine.always M.start
      [.sendSample .a [1] .ten, .deliverSample 0, .deliverSample 0]).any
      (fun n => n.flights.any fun f =>
        decide ((splitPacket f.bytes).map (·.1) = some .kcpData) &&
          decide (f.bindNo = (n.party f.dst.other).bindNo ∧ f.origin = some 0) &&
        ((M.startingAt n).exec Machine.always n [.rebind .b 3]).any fun later =>
          decide (later.flights = [f] ∧ (later.party f.dst).peer.sessions.lookup
            (canonicalize (Setting.sample.addr f.dst.other)) = none) &&
        (later.step .sample (.deliverSample 0)).any fun after =>
          decide (after.flights ≠ [] ∧ (after.party f.dst.other).bindNo = f.bindNo ∧
            (after.party f.dst.other).peer.sessions.lookup
              (canonicalize (Setting.sample.addr f.dst)) = some 0)) = true := by
    decide +kernel
  obtain ⟨n, reached, checked⟩ := Machine.Reach.exec_any _ run
  obtain ⟨f, flying, checked⟩ := List.any_eq_true.mp checked
  simp only [Bool.and_eq_true, decide_eq_true_eq, Option.map_eq_some_iff, Prod.exists] at checked
  obtain ⟨⟨⟨typ, payload, isData, rfl⟩, current, fromZero⟩, checked⟩ := checked
  obtain ⟨id, s, origin, present, ready, stamp, comesBack⟩ :=
    (half_open_reset_closes_its_session SampleKcp SampleKcp.convStamp .sample n reached).2 f
      flying payload isData current
  obtain rfl : 0 = id := Option.some.inj (fromZero.symm.trans origin)
  refine ⟨n, reached, f, flying, payload, 0, s, isData, origin, present, ready, stamp, ?_⟩
  -- the datagram is delivered to the peer that was bound again
  obtain ⟨later, reached', checked⟩ := Machine.Reach.exec_any (M := M.startingAt n) _ checked
  simp only [Bool.and_eq_true, decide_eq_true_eq] at checked
  obtain ⟨⟨alone, unknown⟩, checked⟩ := checked
  obtain ⟨after, taken, checked⟩ := (Option.any_eq_true ..).mp checked
  obtain ⟨answered, sameBind, named⟩ := of_decide_eq_true checked
  obtain ⟨answers, flights, resets⟩ := (comesBack later reached').1 0 _ _ after
    (by rw [alone]; rfl) (Store.find_eq_none.mpr unknown) taken
  rw [alone] at flights
  replace flights : after.flights = answers := flights
  refine ⟨later, reached', after, taken, fun g mem => resets g (flights ▸ mem), ?_⟩
  -- and its RESET comes back
  obtain ⟨g, others, first⟩ := List.exists_cons_of_ne_nil answered
  obtain ⟨dst, isReset⟩ := resets g (by rw [← flights, first]; exact List.mem_cons_self)
  have first : after.flights[0]? = some g := by rw [first]; rfl
  have stepped : (M.startingAt n).step later (.deliverSample 0) = some after := taken
  have reached'' : (M.startingAt n).Reach Machine.always after := .step reached' trivial stepped
  obtain ⟨final, back⟩ : ∃ final, after.step .sample (.deliverSample 0) = some final := by
    simp only [Action.deliverSample, Network.step, first, Option.map_some]
    exact ⟨_, rfl⟩
  refine ⟨final, back, ?_⟩
  have removes := ((comesBack after reached'').2 0 g _ _ final first dst isReset back).1
  rw [dst] at removes
  exact removes sameBind named

end KcpPeer
