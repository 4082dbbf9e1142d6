import KcpPeer.Backlog
import KcpPeer.HalfOpen
import KcpPeer.SampleKcp
import KcpPeer.SessionStep

set_option autoImplicit false

namespace KcpPeer

/-- How the `kcp` crate counts segments: only `update` and `flush` advance `snd_nxt`, and
only `input` and `recv` advance `rcv_nxt`. `input` refuses a datagram whose first segment
is cut off or bears another conversation id before it changes anything. -/
structure SegmentCount (K : Type) [Kcp K] extends ConvField K where
  sndNxt : K → Nat
  rcvNxt : K → Nat
  initial : ∀ (config : KcpConfig) conv, sndNxt (config.applyTo (Kcp.new conv)) = 0 ∧
    rcvNxt (config.applyTo (Kcp.new conv)) = 0
  send : ∀ k data, sndNxt (Kcp.send k data).1 = sndNxt k ∧ rcvNxt (Kcp.send k data).1 = rcvNxt k
  foreign : ∀ k data, readConv data ≠ some (conv k) → ∃ e, Kcp.input k data = (k, .error e)

/-- The count of the sample instance. -/
def SampleKcp.segmentCount : SegmentCount SampleKcp where
  toConvField := convStamp.field
  sndNxt := sndNxt
  rcvNxt := rcvNxt
  initial _ _ := ⟨rfl, rfl⟩
  send _ _ := ⟨rfl, rfl⟩
  foreign k data other := by
    simp only [Kcp.input]
    split
    · exact ⟨_, rfl⟩
    · rename_i long
      obtain ⟨length, isLength⟩ : ∃ n, data.length = n + 1 := ⟨data.length - 1, by omega⟩
      have nonempty : data.isEmpty = false := by
        cases data
        · cases isLength
        · rfl
      simp only [isLength, inputLoop, nonempty, Bool.false_eq_true, ↓reduceIte]
      split
      · exact ⟨_, rfl⟩
      · rename_i conv read
        rw [if_pos]
        · exact ⟨_, rfl⟩
        · rintro rfl
          exact other read

namespace Session

variable {K : Type} [Kcp K]

/-- The instance is as `configure` has left it, but for payloads that `send` has queued:
it was asked for no output and given no datagram. -/
def Virgin (s : Session K) : Prop :=
  ∃ (config : KcpConfig) (payloads : List Bytes),
    s.inner.kcp = payloads.foldl (fun kcp data => (Kcp.send kcp data).1)
      (config.applyTo (Kcp.new s.inner.convId))

theorem Virgin.of_new {s : Session K} (config : KcpConfig)
    (isNew : s.inner.kcp = config.applyTo (Kcp.new s.inner.convId)) : s.Virgin :=
  ⟨config, [], isNew⟩

theorem Virgin.same {s s' : Session K} (virgin : s.Virgin) (kcp : s'.inner.kcp = s.inner.kcp)
    (conv : s'.inner.convId = s.inner.convId) : s'.Virgin := by
  unfold Virgin
  rw [kcp, conv]
  exact virgin

theorem Virgin.send {s s' : Session K} (virgin : s.Virgin) (data : Bytes)
    (kcp : s'.inner.kcp = (Kcp.send s.inner.kcp data).1)
    (conv : s'.inner.convId = s.inner.convId) : s'.Virgin := by
  obtain ⟨config, payloads, is⟩ := virgin
  refine ⟨config, payloads ++ [data], ?_⟩
  rw [kcp, conv, is, List.foldl_append]
  rfl

/-- What the new instance has and `send` keeps. -/
theorem Virgin.rule {s : Session K} (virgin : s.Virgin) {P : K → Prop}
    (new : ∀ config : KcpConfig, P (config.applyTo (Kcp.new s.inner.convId)))
    (send : ∀ kcp data, P kcp → P (Kcp.send kcp data).1) : P s.inner.kcp := by
  obtain ⟨config, payloads, is⟩ := virgin
  rw [is]
  exact List.foldlRecOn payloads _ (new config) fun kcp ok data _ => send kcp data ok

variable (count : SegmentCount K)

theorem Virgin.conv {s : Session K} (virgin : s.Virgin) :
    count.conv s.inner.kcp = s.inner.convId := by
  refine virgin.rule (P := fun kcp => count.conv kcp = s.inner.convId) ?_ ?_
  · intro config
    exact count.toConvField.applyTo config s.inner.convId
  · intro kcp data ok
    exact (count.silent _ _ (.send kcp data)).trans ok

/-- Both sequence numbers are the initial ones. -/
theorem Virgin.counts {s : Session K} (virgin : s.Virgin) :
    count.sndNxt s.inner.kcp = 0 ∧ count.rcvNxt s.inner.kcp = 0 := by
  refine virgin.rule (P := fun kcp => count.sndNxt kcp = 0 ∧ count.rcvNxt kcp = 0) ?_ ?_
  · intro config
    exact count.initial config _
  · intro kcp data ok
    obtain ⟨snd, rcv⟩ := count.send kcp data
    exact ⟨snd.trans ok.1, rcv.trans ok.2⟩

/-- Before the handshake the update task does not touch the instance. -/
theorem scan_waiting {s : Session K} (waiting : s.inner.state = .synSent) (config : KcpConfig)
    (tick : Tick) (now : UInt64) (socket : Socket) :
    (s.scan config tick now socket).1.inner.kcp = s.inner.kcp := by
  have updated : (s.update tick.nowMs socket).1 = s := by
    unfold update
    rw [waiting]
  refine scan_rule (P := fun s' => s'.inner.kcp = s.inner.kcp) rfl (by rw [updated]) ?_
  intro same
  exact (maybeRetrySyn_kcp ..).trans same

/-- Before the handshake a payload is at most queued. -/
theorem sendData_waiting {s : Session K} (waiting : s.inner.state = .synSent) (data : Bytes)
    (now : UInt32) (socket : Socket) :
    (s.sendData data now socket).1.inner.kcp = s.inner.kcp ∨
      (s.sendData data now socket).1.inner.kcp = (Kcp.send s.inner.kcp data).1 := by
  rcases sendData_synSent s data now socket waiting with ⟨_, sent⟩ | ⟨_, same | ⟨e, sent⟩⟩
  · exact Or.inr (congrArg Prod.fst sent).symm
  · exact Or.inl same
  · exact Or.inr (congrArg Prod.fst sent).symm

theorem Virgin.sendData {s : Session K} (virgin : s.Virgin) (waiting : s.inner.state = .synSent)
    (data : Bytes) (now : UInt32) (socket : Socket) : (s.sendData data now socket).1.Virgin := by
  have conv := congrArg View.convId (s.view_sendData data now socket)
  rcases sendData_waiting waiting data now socket with kcp | kcp
  · exact virgin.same kcp conv
  · exact virgin.send data kcp conv

include count in
/-- A datagram of another conversation is refused. -/
theorem Virgin.fed {s : Session K} (virgin : s.Virgin) {payload : Bytes}
    (other : readConv payload ≠ some s.inner.convId) (now : UInt64) :
    (s.fed payload now).Virgin := by
  rw [← virgin.conv count] at other
  obtain ⟨e, refused⟩ := count.foreign s.inner.kcp payload other
  refine virgin.same ?_ rfl
  simp only [Session.fed, Kcp.feed, refused]
  rfl

end Session

namespace Peer

variable {K : Type} [Kcp K] (count : SegmentCount K) {config : KcpConfig} {can : CanonicalAddr}
  {op : PeerOp} {s s' : Session K}

/-- No step but the tie-break changes a conversation id. -/
theorem SessionStep.waiting_of_conv (step : SessionStep config can op s s')
    (changed : s'.inner.convId ≠ s.inner.convId) : s.inner.state = .synSent := by
  cases step with
  | same => exact absurd rfl changed
  | sent own data draw clock socket =>
      exact absurd (congrArg View.convId (s.view_sendData data clock.currentMs socket)) changed
  | scanned tick socket =>
      exact absurd (congrArg View.convId (s.view_scan config tick _ socket)) changed
  | fed => exact absurd rfl changed
  | touched => exact absurd rfl changed
  | established clock socket waiting => exact waiting
  | adopted own kind read clock socket waiting => exact waiting

/-- The operation feeds a session that has yet to be established with data of its own
conversation. -/
def FeedsEarly (can : CanonicalAddr) (s : Session K) (op : PeerOp) : Prop :=
  ∃ data src clock socket payload, op = .incoming data src clock socket ∧
    canonicalize src = can ∧ splitPacket data = some (.kcpData, payload) ∧
    s.inner.state = .synSent ∧ readConv payload = some s.inner.convId

include count in
theorem SessionStep.virgin (step : SessionStep config can op s s') (unfed : ¬ FeedsEarly can s op)
    (ok : s.inner.state = .synSent → s.Virgin) (waiting' : s'.inner.state = .synSent) :
    s'.Virgin := by
  cases step with
  | same => exact ok waiting'
  | sent own data draw clock socket =>
      have state := congrArg View.state (s.view_sendData data clock.currentMs socket)
      have waiting : s.inner.state = .synSent := state.symm.trans waiting'
      exact (ok waiting).sendData waiting data clock.currentMs socket
  | scanned tick socket =>
      have view := s.view_scan config tick (tick.retryClock can) socket
      have waiting : s.inner.state = .synSent := (congrArg View.state view).symm.trans waiting'
      exact (ok waiting).same (Session.scan_waiting waiting config tick _ socket)
        (congrArg View.convId view)
  | @fed src own data payload kind clock socket =>
      have waiting : s.inner.state = .synSent := waiting'
      refine (ok waiting).fed count ?_ clock.epochMs
      intro read
      exact unfed ⟨data, src, clock, socket, payload, rfl, own, kind, waiting, read⟩
  | touched => exact (ok waiting').same rfl rfl
  | established => cases waiting'
  | adopted => cases waiting'

theorem SessionBirth.virgin {p : Peer K} (birth : SessionBirth p can op s)
    (waiting : s.inner.state = .synSent) : s.Virgin := by
  cases birth with
  | @outbound peer own data draw clock socket =>
      refine Session.Virgin.sendData ?_ ?_ data clock.currentMs socket
      · refine .of_new p.config ?_
        rw [Session.inner_sendSyn]
        rfl
      · rw [Session.inner_sendSyn]
        rfl
  | inbound => cases waiting

end Peer

namespace Network

variable {K : Type} [Kcp K] (count : SegmentCount K) {setting : Setting} {n n' : Network K}

/-- The step delivers data to a session of the same conversation that has yet to be
established. -/
def earlyData (setting : Setting) (n : Network K) : Action → Bool
  | .deliver index _ _ =>
      n.flights[index]?.any fun f =>
        match Msg.decode f.bytes, (n.party f.dst).peer.slot (canOf setting f.dst) with
        | .data (some conv), some (.synSent, own) => conv == own
        | _, _ => false
  | _ => false

/-- What a step does to the sessions of one side. -/
inductive Turn (setting : Setting) (n : Network K) (x : Side) (p' : Peer K) : Action → Prop
  | rests (action : Action) (same : p'.sessions = (n.party x).peer.sessions) :
      Turn setting n x p' action
  | anew (action : Action) (empty : p'.sessions = .empty) : Turn setting n x p' action
  | acts (action : Action) {op : PeerOp}
      (deaf : ∀ data src clock socket, op ≠ .incoming data src clock socket)
      (follows : Peer.Follows op (n.party x).peer p') : Turn setting n x p' action
  | hears {f : Flight} {index : Nat} (clock : Clock)
      (sendTo : Bytes → SocketAddr → Except IoError Nat) (flying : n.flights[index]? = some f)
      (own : f.dst = x)
      (follows : Peer.Follows
        (.incoming f.bytes (setting.addr x.other) clock (socketOf setting x sendTo))
        (n.party x).peer p') : Turn setting n x p' (.deliver index clock sendTo)

omit [Kcp K] in
theorem launch_sessions_other {x y : Side} (other : y ≠ x) (party : Party K)
    (flights : List Flight) :
    ((launch { n with flights } setting x party).party y).peer.sessions =
      (n.party y).peer.sessions := by
  rw [launch_party_other other]

theorem step_turn {action : Action} (taken : n.step setting action = some n') (x : Side) :
    n.Turn setting x (n'.party x).peer action := by
  cases action with
  | send y data draw clock sendTo =>
      obtain rfl := Option.some.inj taken
      by_cases mine : x = y
      · subst mine
        rw [launch_party_self]
        have follows := Peer.send_follows (n.party x).peer (setting.addr x.other) data draw clock
          (socketOf setting x sendTo)
        exact .acts _ (by rintro _ _ _ _ ⟨⟩) follows
      · exact .rests _ (launch_sessions_other mine ..)
  | disconnect y sendTo =>
      obtain rfl := Option.some.inj taken
      by_cases mine : x = y
      · subst mine
        rw [launch_party_self]
        have follows := Peer.disconnect_follows (n.party x).peer (setting.addr x.other)
          (socketOf setting x sendTo)
        exact .acts _ (by rintro _ _ _ _ ⟨⟩) follows
      · exact .rests _ (launch_sessions_other mine ..)
  | tick y tick sendTo =>
      obtain ⟨peer, applied, rfl⟩ := Option.map_eq_some_iff.mp taken
      by_cases mine : x = y
      · subst mine
        rw [launch_party_self]
        have follows := Peer.apply_follows applied
        exact .acts _ (by rintro _ _ _ _ ⟨⟩) follows
      · exact .rests _ (launch_sessions_other mine ..)
  | rebind y incarnation =>
      obtain rfl := Option.some.inj taken
      by_cases mine : x = y
      · subst mine
        exact .anew _ (by simp only [Function.update_self, Party.bind, Peer.bind])
      · exact .rests _ (by simp only [Function.update_of_ne mine])
  | deliver index clock sendTo =>
      obtain ⟨f, flying, rfl⟩ := Option.map_eq_some_iff.mp taken
      by_cases mine : x = f.dst
      · rw [mine, launch_party_self]
        exact .hears clock sendTo flying rfl (Peer.handleIncoming_follows (n.party f.dst).peer
          f.bytes (setting.addr f.dst.other) clock (socketOf setting f.dst sendTo))
      · exact .rests _ (launch_sessions_other mine ..)
  | drop index =>
      simp only [step] at taken
      split at taken
      · obtain rfl := Option.some.inj taken
        exact .rests _ rfl
      · cases taken
  | duplicate index =>
      obtain ⟨f, flying, rfl⟩ := Option.map_eq_some_iff.mp taken
      exact .rests _ rfl

/-- Every session that has yet to be established has an untouched instance. -/
def WaitingVirgin (n : Network K) : Prop :=
  ∀ x can id s, (n.party x).peer.sessions.find can = some (id, s) →
    s.inner.state = .synSent → s.Virgin

include count in
theorem WaitingVirgin.step (ok : n.WaitingVirgin) {action : Action}
    (late : n.earlyData setting action = false) (taken : n.step setting action = some n') :
    n'.WaitingVirgin := by
  intro x
  have turn := step_turn taken x
  have follows : ∀ {op : PeerOp}, Peer.Follows op (n.party x).peer (n'.party x).peer →
      (∀ can id s, (n.party x).peer.sessions.find can = some (id, s) →
        ¬ Peer.FeedsEarly can s op) →
      ∀ can id s, (n'.party x).peer.sessions.find can = some (id, s) →
        s.inner.state = .synSent → s.Virgin := by
    intro op follows unfed
    refine follows.each (P := fun s => s.inner.state = .synSent → s.Virgin) (ok x) ?_ ?_
    · intro can id s s' found step before
      exact step.virgin count (unfed can id s found) before
    · intro can s birth
      exact birth.virgin
  cases turn with
  | rests _ same =>
      rw [same]
      exact ok x
  | anew _ empty =>
      rw [empty]
      intro can id s found
      rw [Store.find_empty] at found
      cases found
  | acts _ deaf follows' =>
      refine follows follows' ?_
      rintro can id s found ⟨data, src, clock, socket, payload, same, _⟩
      exact deaf _ _ _ _ same
  | @hears f index clock sendTo flying own follows' =>
      refine follows follows' ?_
      rintro can id s found ⟨data, src, clock', socket, payload, same, home, kind, waiting, read⟩
      cases same
      subst own
      have slot := Peer.slot_some (home ▸ found)
      simp only [earlyData, flying, Option.any_some, Msg.decode, kind, read, canOf, slot, waiting,
        BEq.rfl, Bool.true_eq_false] at late

/-- A session that the next step gives the remote's conversation id has an untouched
instance, and its sequence numbers are those that every conversation starts with. -/
def AdoptsVirgin (count : SegmentCount K) (setting : Setting) (n : Network K) : Prop :=
  ∀ action n' x can id s s', n.step setting action = some n' →
    (n.party x).peer.sessions.find can = some (id, s) →
    (n'.party x).peer.sessions.find can = some (id, s') → s'.inner.convId ≠ s.inner.convId →
    s.Virgin ∧ count.sndNxt s.inner.kcp = 0 ∧ count.rcvNxt s.inner.kcp = 0

/-- The tie-break gives another conversation id to waiting sessions only. -/
theorem waiting_of_conv {action : Action} (taken : n.step setting action = some n') {x : Side}
    {can : CanonicalAddr} {id : SessionId} {s s' : Session K}
    (found : (n.party x).peer.sessions.find can = some (id, s))
    (found' : (n'.party x).peer.sessions.find can = some (id, s'))
    (changed : s'.inner.convId ≠ s.inner.convId) : s.inner.state = .synSent := by
  have follows : ∀ {op : PeerOp}, Peer.Follows op (n.party x).peer (n'.party x).peer →
      s.inner.state = .synSent := by
    intro op follows
    rcases follows can id s' found' with ⟨s₀, before, step⟩ | ⟨fresh, _⟩
    · cases before.symm.trans found
      exact step.waiting_of_conv changed
    · exact absurd fresh (Nat.ne_of_lt (Store.lookup_lt (Store.find_eq_some.mp found).1))
  cases step_turn taken x with
  | rests _ same =>
      rw [same, found] at found'
      cases found'
      exact absurd rfl changed
  | anew _ empty =>
      rw [empty, Store.find_empty] at found'
      cases found'
  | acts _ _ follows' => exact follows follows'
  | hears _ _ _ _ follows' => exact follows follows'

end Network

/-- The steps that peers and network do without a timer and without copies. -/
def Action.isCall : Action → Bool
  | .send .. | .disconnect .. | .deliver .. | .drop _ => true
  | _ => false

/-- As long as no session receives data of its own conversation before it is established,
the tie-break adopts conversation ids onto untouched instances only. -/
theorem adopts_virgin_without_early_data (K : Type) [Kcp K] (count : SegmentCount K)
    (setting : Setting) (n : Network K)
    (reached : (networkMachine K setting).Reach
      (fun n action => n.earlyData setting action = false) n) :
    n.AdoptsVirgin count setting := by
  have virgin : n.WaitingVirgin := by
    refine reached.invariant (P := Network.WaitingVirgin) ?_ ?_
    · intro x can id s found
      simp [networkMachine, Party.bind, Peer.bind] at found
    · intro before action after ok late taken
      exact ok.step count late taken
  intro action n' x can id s s' taken found found' changed
  have untouched := virgin x can id s found (Network.waiting_of_conv taken found found' changed)
  exact ⟨untouched, untouched.counts count⟩

open Network in
/-- Both peers open, and `b`'s SYN reaches `a` before any data does. -/
theorem adopts_virgin_without_early_data_opening :
    ∃ n : Network SampleKcp,
      (n.party .a).peer.slot (canOf Setting.sample .a) = some (.synSent, 10) ∧
      ((n.step Setting.sample (.deliverSample 1)).map fun n' =>
        (n'.party .a).peer.slot (canOf Setting.sample .a)) = some (some (.established, 20)) ∧
      n.AdoptsVirgin SampleKcp.segmentCount Setting.sample := by
  have run : ((networkMachine SampleKcp Setting.sample).exec
      (fun n action => n.earlyData Setting.sample action = false)
      (networkMachine SampleKcp Setting.sample).start
      [.sendSample .a [1] .ten, .sendSample .b [2] .twenty]).any
      (fun n => decide ((n.party .a).peer.slot (canOf Setting.sample .a) = some (.synSent, 10) ∧
        ((n.step Setting.sample (.deliverSample 1)).map fun n' =>
          (n'.party .a).peer.slot (canOf Setting.sample .a)) = some (some (.established, 20)))) =
      true := by
    decide +kernel
  obtain ⟨n, reached, checked⟩ := Machine.Reach.exec_any _ run
  obtain ⟨before, after⟩ := of_decide_eq_true checked
  exact ⟨n, before, after, adopts_virgin_without_early_data SampleKcp SampleKcp.segmentCount
    Setting.sample n reached⟩

open Network in
/-- `b` accepts `a`'s SYN, and its SYN_ACK is lost. Its data reaches `a`, which has yet to be
established. `b` disconnects, its RESETs are lost, and it opens a new session: `a` adopts the
new conversation id on an instance that counts from 1. -/
theorem adoption_after_early_data :
    ∃ n : Network SampleKcp,
      (networkMachine SampleKcp Setting.sample).Reach (fun _ action => action.isCall = true) n ∧
        ¬ n.AdoptsVirgin SampleKcp.segmentCount Setting.sample := by
  have run : ((networkMachine SampleKcp Setting.sample).exec
      (fun _ action => action.isCall = true) (networkMachine SampleKcp Setting.sample).start
      [.sendSample .a [1] .ten, .deliverSample 0, .drop 0, .sendSample .b [2] .twenty,
        .deliverSample 0, .disconnect .b fun bytes _ => .ok bytes.length, .drop 0, .drop 0, .drop 0,
        .sendSample .b [3] .twenty]).any
      (fun n => (n.step Setting.sample (.deliverSample 0)).any fun n' =>
        ((n.party .a).peer.sessions.find (canOf Setting.sample .a)).any fun (id, s) =>
          ((n'.party .a).peer.sessions.find (canOf Setting.sample .a)).any fun (id', s') =>
            decide (id = id' ∧ s'.inner.convId ≠ s.inner.convId ∧ s.inner.kcp.rcvNxt = 1)) =
      true := by
    decide +kernel
  obtain ⟨n, reached, checked⟩ := Machine.Reach.exec_any _ run
  obtain ⟨n', taken, checked⟩ := (Option.any_eq_true ..).mp checked
  obtain ⟨⟨id, s⟩, found, checked⟩ := (Option.any_eq_true ..).mp checked
  obtain ⟨⟨id', s'⟩, found', checked⟩ := (Option.any_eq_true ..).mp checked
  obtain ⟨rfl, changed, advanced⟩ := of_decide_eq_true checked
  refine ⟨n, reached, fun holds => ?_⟩
  obtain ⟨_, _, initial⟩ := holds _ n' .a _ id s s' taken found found' changed
  exact absurd (advanced.symm.trans initial) (by decide)

end KcpPeer
