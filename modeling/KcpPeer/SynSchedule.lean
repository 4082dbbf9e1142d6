import KcpPeer.Backoff
import KcpPeer.SampleKcp

set_option autoImplicit false

namespace KcpPeer

/-- A session that waits for its SYN_ACK, the last reading of the clock, and the instants
at which `maybe_retry_syn` has handed a SYN to the socket. -/
structure SynWait (K : Type) where
  session : Session K
  clock : UInt64
  retries : List UInt64

/-- What happens to a session as long as it stays SynSent and open. A call of
`maybe_retry_syn` is given `nowEpoch`, hands its SYN over at `sentAt`, if it does, and
reads `now` after that. -/
inductive WaitOp where
  | call (nowEpoch sentAt now : UInt64) (socket : Socket)
  | sendData (data : Bytes) (now : UInt32) (socket : Socket)
  | fed (payload : Bytes) (now : UInt64)
  | touched (now : UInt64)

namespace SynWait

variable {K : Type}

/-- The clock does not go back: `nowEpoch` may have been read long before the call, but
what the call does follows every earlier reading. -/
def Timely (w : SynWait K) : WaitOp → Prop
  | .call nowEpoch sentAt now _ => w.clock ≤ sentAt ∧ nowEpoch ≤ sentAt ∧ sentAt ≤ now
  | .sendData _ _ _ | .fed _ _ | .touched _ => True

instance (w : SynWait K) : (op : WaitOp) → Decidable (w.Timely op)
  | .call _ _ _ _ => inferInstanceAs (Decidable (_ ∧ _ ∧ _))
  | .sendData _ _ _ | .fed _ _ | .touched _ => isTrue trivial

variable [Kcp K]

/-- A session created at `created`, after its `send_syn`, which reads the clock only when
the socket has taken the SYN; no call comes between the SYN and the store of that reading. -/
def opened (conv : UInt32) (peer : SocketAddr) (incarnation : UInt64) (config : KcpConfig)
    (created read : UInt64) (socket : Socket) : SynWait K :=
  let s : Session K := Session.newOutbound conv peer incarnation config created
  let s := s.sendSyn s.inner.convId read socket
  ⟨s, s.synSentAt, []⟩

/-- The result of `maybe_retry_syn` is that the session is dead. -/
def DeadLink (w : SynWait K) (config : KcpConfig) (nowEpoch now : UInt64) (socket : Socket) :
    Prop :=
  (w.session.maybeRetrySyn config nowEpoch now socket).2.2 = .error .deadLink

/-- What an operation does to it. -/
def after (config : KcpConfig) (w : SynWait K) : WaitOp → SynWait K
  | .call nowEpoch sentAt now socket =>
      let (s, out, _) := w.session.maybeRetrySyn config nowEpoch now socket
      ⟨s, now, w.retries ++ out.map fun _ => sentAt⟩
  | .sendData data now socket => { w with session := (w.session.sendData data now socket).1 }
  | .fed payload now => { w with session := w.session.fed payload now }
  | .touched now => { w with session := w.session.touch now }

end SynWait

def waitMachine (K : Type) [Kcp K] (config : KcpConfig) (start : SynWait K) :
    Machine (SynWait K) WaitOp where
  start := start
  step w op := some (w.after config op)

theorem Session.sendSyn_eq {K : Type} (s : Session K) (conv : UInt32) (read : UInt64)
    (socket : Socket) :
    s.sendSyn conv read socket = { s with
      synSentAt := if (s.synSubmission conv socket).accepted then read else s.synSentAt } := by
  unfold Session.sendSyn
  split
  · rfl
  · rfl

namespace SynWait

variable {K : Type}

/-- The session waits, all its SYNs lie before `syn_sent_at`, and each came when the wait
after the one before it was over. -/
structure Scheduled (config : KcpConfig) (first : UInt64) (w : SynWait K) : Prop where
  isOpen : w.session.closed = false
  waiting : w.session.inner.state = .synSent
  count : w.session.synRetries.toNat = w.retries.length
  few : w.retries.length ≤ config.synMaxRetries.toNat
  past : ∀ syn ∈ first :: w.retries, syn ≤ w.session.synSentAt
  read : w.session.synSentAt ≤ w.clock
  spaced : Spaced UInt64.toNat (fun i => config.retryBase * 2 ^ i) first w.retries

/-- Neither the KCP instance nor `last_rx` matters to the schedule. -/
theorem Scheduled.frame {config : KcpConfig} {first : UInt64} {w : SynWait K}
    (scheduled : w.Scheduled config first) (kcp : K) (lastRx : UInt64) :
    Scheduled config first { w with session := (w.session.touch lastRx).withKcp kcp } where
  isOpen := scheduled.isOpen
  waiting := scheduled.waiting
  count := scheduled.count
  few := scheduled.few
  past := scheduled.past
  read := scheduled.read
  spaced := scheduled.spaced

/-- A call that sends nothing. -/
theorem Scheduled.spared {config : KcpConfig} {first : UInt64} {w : SynWait K}
    (scheduled : w.Scheduled config first) {now : UInt64} (later : w.clock ≤ now) :
    Scheduled config first ⟨w.session, now, w.retries⟩ where
  isOpen := scheduled.isOpen
  waiting := scheduled.waiting
  count := scheduled.count
  few := scheduled.few
  past := scheduled.past
  read := UInt64.le_trans scheduled.read later
  spaced := scheduled.spaced

/-- A call that finds the wait over. -/
theorem Scheduled.retried {config : KcpConfig} {first : UInt64} {w : SynWait K}
    (scheduled : w.Scheduled config first) {nowEpoch sentAt now : UInt64}
    (after : w.clock ≤ sentAt) (read : nowEpoch ≤ sentAt) (later : sentAt ≤ now)
    (more : w.session.synRetries.toNat < config.synMaxRetries.toNat)
    (next : (w.session.synRetries + 1).toNat = w.session.synRetries.toNat + 1)
    (due : config.retryBase * 2 ^ w.session.synRetries.toNat ≤
      nowEpoch.toNat - w.session.synSentAt.toNat) :
    Scheduled config first
      ⟨{ w.session with synSentAt := now, synRetries := w.session.synRetries + 1 }, now,
        w.retries ++ [sentAt]⟩ := by
  have reached : w.session.synSentAt ≤ sentAt := UInt64.le_trans scheduled.read after
  rw [scheduled.count] at more due
  refine ⟨scheduled.isOpen, scheduled.waiting, ?_, ?_, ?_, UInt64.le_refl now, ?_⟩
  · rw [List.length_append, List.length_singleton, ← scheduled.count]
    exact next
  · rw [List.length_append, List.length_singleton]
    exact more
  · intro syn mem
    rw [← List.cons_append] at mem
    refine UInt64.le_trans ?_ later
    rcases List.mem_append.mp mem with earlier | last
    · exact UInt64.le_trans (scheduled.past syn earlier) reached
    · rw [List.mem_singleton.mp last]
      exact UInt64.le_refl _
  · refine scheduled.spaced.append ?_
    intro syn mem
    have earlier := scheduled.past syn mem
    rw [UInt64.le_iff_toNat_le] at earlier reached read
    -- where the elapsed time is cut off at zero, there is nothing to wait for
    omega

variable [Kcp K]

theorem scheduled_opened {conv : UInt32} {peer : SocketAddr} {incarnation : UInt64}
    {config : KcpConfig} {created read : UInt64} {socket : Socket} {first : UInt64}
    (sent : first ≤ if (socket.sendTo (encodeControl .syn conv) peer).isOk then read else created) :
    (opened (K := K) conv peer incarnation config created read socket).Scheduled config first := by
  simp only [opened, Session.sendSyn_eq]
  constructor
  · rfl
  · rfl
  · rfl
  · exact Nat.zero_le _
  · intro syn mem
    rw [List.mem_singleton.mp mem]
    exact sent
  · exact UInt64.le_refl _
  · exact Spaced.nil first

theorem Scheduled.call {config : KcpConfig} {first : UInt64} {w : SynWait K}
    (scheduled : w.Scheduled config first) (few : config.synMaxRetries.toNat ≤ 64)
    (fits : config.retryBase * 2 ^ config.synMaxRetries.toNat < 2 ^ 64)
    {nowEpoch sentAt now : UInt64} {socket : Socket}
    (timely : w.Timely (.call nowEpoch sentAt now socket)) :
    Scheduled config first
      ⟨(w.session.maybeRetrySyn config nowEpoch now socket).1, now, w.retries ++
        (w.session.maybeRetrySyn config nowEpoch now socket).2.1.map fun _ => sentAt⟩ := by
  obtain ⟨after, read, later⟩ := timely
  have spared := scheduled.spared (UInt64.le_trans after later)
  rw [Session.maybeRetrySyn_waiting scheduled.isOpen scheduled.waiting]
  rcases w.session.retrySyn_cases w.session.inner.convId config nowEpoch now socket with
    ⟨_, same⟩ | ⟨_, _, same⟩ | ⟨more, due, next, retried⟩
  · rw [same]
    simpa using spared
  · rw [same]
    simpa using spared
  · have small : w.session.synRetries.toNat < 64 := by omega
    have wait : config.retryBase * 2 ^ w.session.synRetries.toNat < 2 ^ 64 :=
      Nat.lt_of_le_of_lt
        (Nat.mul_le_mul_left _ (Nat.pow_le_pow_right (by omega) (Nat.le_of_lt more))) fits
    rw [Session.retryWait_toNat small wait] at due
    rw [retried]
    exact scheduled.retried after read later more next due

theorem reach_scheduled {config : KcpConfig} {first : UInt64} {start : SynWait K}
    (started : start.Scheduled config first) (few : config.synMaxRetries.toNat ≤ 64)
    (fits : config.retryBase * 2 ^ config.synMaxRetries.toNat < 2 ^ 64) {w : SynWait K}
    (reached : (waitMachine K config start).Reach Timely w) : w.Scheduled config first := by
  refine reached.invariant started ?_
  intro w op w' scheduled timely taken
  cases op with
  | call nowEpoch sentAt now socket =>
      cases taken
      exact scheduled.call few fits timely
  | sendData data now socket =>
      cases taken
      obtain ⟨kcp, written⟩ := w.session.sendData_withKcp data now socket
      rw [after, written]
      exact scheduled.frame kcp w.session.lastRx
  | fed payload now =>
      cases taken
      exact scheduled.frame _ now
  | touched now =>
      cases taken
      exact scheduled.frame w.session.inner.kcp now

/-- The exact condition for `DeadLink`: every retry has been sent. -/
theorem Scheduled.deadLink_iff {config : KcpConfig} {first : UInt64} {w : SynWait K}
    (scheduled : w.Scheduled config first) (nowEpoch now : UInt64) (socket : Socket) :
    w.DeadLink config nowEpoch now socket ↔
      w.retries.length = config.synMaxRetries.toNat := by
  have few := scheduled.few
  have count := scheduled.count
  unfold DeadLink
  rw [Session.maybeRetrySyn_waiting scheduled.isOpen scheduled.waiting]
  rcases w.session.retrySyn_cases w.session.inner.convId config nowEpoch now socket with
    ⟨exhausted, same⟩ | ⟨more, _, same⟩ | ⟨more, _, _, same⟩
  · rw [same]
    exact iff_of_true rfl (by omega)
  · rw [same]
    exact iff_of_false (by rintro ⟨⟩) (by omega)
  · rw [same]
    exact iff_of_false (by rintro ⟨⟩) (by omega)

end SynWait

namespace Session

variable {K : Type} [Kcp K]

/-- A session that waits is one that its schedule's machine has reached by `clock`. -/
def Waits (config : KcpConfig) (clock : UInt64) (s : Session K) : Prop :=
  s.closed = false → s.inner.state = .synSent →
    ∃ conv peer incarnation created socket, ∃ w : SynWait K, w.session = s ∧ w.clock ≤ clock ∧
      (waitMachine K config (.opened conv peer incarnation config created created socket)).Reach
        SynWait.Timely w

theorem Waits.later {config : KcpConfig} {clock clock' : UInt64} {s : Session K}
    (waits : s.Waits config clock) (later : clock ≤ clock') : s.Waits config clock' := by
  intro isOpen waiting
  obtain ⟨conv, peer, incarnation, created, socket, w, same, before, reached⟩ :=
    waits isOpen waiting
  exact ⟨conv, peer, incarnation, created, socket, w, same, UInt64.le_trans before later, reached⟩

/-- A step that leaves the session waiting is one of the machine. -/
theorem Waits.step {config : KcpConfig} {clock clock' : UInt64} {s s' : Session K}
    (waits : s.Waits config clock) (kept : s'.view = s.view) (op : WaitOp)
    (next : s.closed = false → s.inner.state = .synSent → ∀ w : SynWait K, w.session = s →
      w.clock ≤ clock → w.Timely op ∧ (w.after config op).session = s' ∧
        (w.after config op).clock ≤ clock') :
    s'.Waits config clock' := by
  intro isOpen waiting
  rw [show s'.closed = s.closed from congrArg View.closed kept] at isOpen
  rw [show s'.inner.state = s.inner.state from congrArg View.state kept] at waiting
  obtain ⟨conv, peer, incarnation, created, socket, w, same, before, reached⟩ :=
    waits isOpen waiting
  obtain ⟨timely, written, later⟩ := next isOpen waiting w same before
  exact ⟨conv, peer, incarnation, created, socket, w.after config op, written, later,
    .step reached timely rfl⟩

theorem scan_maybeRetrySyn {s : Session K} (isOpen : s.closed = false)
    (waiting : s.inner.state = .synSent) (config : KcpConfig) (tick : Tick) (now : UInt64)
    (socket : Socket) :
    (s.scan config tick now socket).1 = (s.maybeRetrySyn config tick.nowEpoch now socket).1 := by
  simp only [scan, isOpen, Bool.false_eq_true, ↓reduceIte, update, waiting]
  split
  · rename_i retried
    rw [retried]
  · rename_i retried
    rw [retried]

theorem Waits.scan {config : KcpConfig} {clock : UInt64} {s : Session K}
    (waits : s.Waits config clock) {tick : Tick} {now : UInt64} (after : clock ≤ now)
    (read : tick.nowEpoch ≤ now) (socket : Socket) :
    (s.scan config tick now socket).1.Waits config now := by
  refine waits.step (s.view_scan ..) (.call tick.nowEpoch now now socket) ?_
  rintro isOpen waiting w rfl before
  refine ⟨⟨UInt64.le_trans before after, read, UInt64.le_refl now⟩, ?_, UInt64.le_refl now⟩
  exact (scan_maybeRetrySyn isOpen waiting config tick now socket).symm

theorem Waits.sendData {config : KcpConfig} {clock : UInt64} {s : Session K}
    (waits : s.Waits config clock) (data : Bytes) (now : UInt32) (socket : Socket) :
    (s.sendData data now socket).1.Waits config clock := by
  refine waits.step (s.view_sendData ..) (.sendData data now socket) ?_
  rintro _ _ w rfl before
  exact ⟨trivial, rfl, before⟩

theorem waits_opened (conv : UInt32) (peer : SocketAddr) (incarnation : UInt64)
    (config : KcpConfig) (created : UInt64) (socket : Socket) :
    ((newOutbound conv peer incarnation config created : Session K).sendSyn conv created
      socket).Waits config created := by
  intro _ _
  refine ⟨conv, peer, incarnation, created, socket, _, rfl, ?_, .start⟩
  simp only [SynWait.opened, sendSyn_eq, newOutbound, ite_self]
  exact UInt64.le_refl created

end Session

namespace Clocked

variable {K : Type} [Kcp K]

/-- Every waiting session of a peer has its place in its own schedule. -/
def Waiting (config : KcpConfig) (c : Clocked K) : Prop :=
  ∀ can id s, c.peer.sessions.find can = some (id, s) → s.Waits config c.clock

theorem Waiting.step {config : KcpConfig} {c : Clocked K} (waiting : c.Waiting config)
    (configured : c.peer.config = config) {op : PeerOp} (timely : c.Timely op) {p : Peer K}
    (applied : c.peer.apply op = some p) :
    Waiting config ⟨p, op.readings.getLastD c.clock⟩ := by
  subst configured
  have later : c.clock ≤ op.readings.getLastD c.clock := timely.last _ List.mem_cons_self
  intro can id s' found'
  rcases Peer.apply_follows applied can id s' found' with ⟨s, found, step⟩ | ⟨_, birth⟩
  · have waits := waiting can id s found
    cases step with
    | same => exact waits.later later
    | sent own data draw clock socket =>
        exact (waits.sendData data clock.currentMs socket).later later
    | @fed src own data payload kind clock socket =>
        refine waits.step rfl (.fed payload clock.epochMs) ?_
        rintro _ _ w rfl before
        exact ⟨trivial, rfl, UInt64.le_trans before later⟩
    | touched clock socket =>
        refine waits.step rfl (.touched clock.epochMs) ?_
        rintro _ _ w rfl before
        exact ⟨trivial, rfl, UInt64.le_trans before later⟩
    | established =>
        intro _ state
        cases state
    | adopted =>
        intro _ state
        cases state
    | scanned tick socket =>
        obtain ⟨after, read, before⟩ := timely.retryClock applied found
        exact (waits.scan after read socket).later before
  · cases birth with
    | inbound =>
        intro _ state
        cases state
    | @outbound peer own data draw clock socket =>
        have opened : Session.Waits c.peer.config clock.epochMs
            ((Session.newOutbound draw.val peer c.peer.incarnation c.peer.config clock.epochMs :
              Session K).sendSyn draw.val clock.epochMs socket) :=
          Session.waits_opened draw.val peer c.peer.incarnation c.peer.config clock.epochMs socket
        refine Session.Waits.later (opened.sendData data clock.currentMs socket) ?_
        exact timely.last clock.epochMs (List.mem_cons_of_mem _ List.mem_cons_self)

theorem reach_waiting {incarnation : UInt64} {config : KcpConfig} {c : Clocked K}
    (reached : (clockedMachine K incarnation config).Reach Timely c) : c.Waiting config := by
  refine reached.invariant_with (fun c => reach_configured) ?_ ?_
  · intro can id s found
    cases found
  · rintro c op c' waiting ⟨_, configured⟩ timely taken
    obtain ⟨p, applied, rfl⟩ := Option.map_eq_some_iff.mp taken
    exact waiting.step configured timely applied

/-- In every run of a peer, each session that waits is on its schedule. -/
theorem reach_scheduled {incarnation : UInt64} {config : KcpConfig}
    (few : config.synMaxRetries.toNat ≤ 64)
    (fits : config.retryBase * 2 ^ config.synMaxRetries.toNat < 2 ^ 64) {c : Clocked K}
    (reached : (clockedMachine K incarnation config).Reach Timely c) {can : CanonicalAddr}
    {id : SessionId} {s : Session K} (found : c.peer.sessions.find can = some (id, s))
    (isOpen : s.closed = false) (waiting : s.inner.state = .synSent) :
    ∃ first retries, SynWait.Scheduled config first ⟨s, c.clock, retries⟩ := by
  obtain ⟨conv, peer, incarnation, created, socket, w, rfl, before, ran⟩ :=
    reach_waiting reached can id s found isOpen waiting
  have started : (SynWait.opened (K := K) conv peer incarnation config created created
      socket).Scheduled config created := SynWait.scheduled_opened (by simp)
  exact ⟨created, w.retries, (SynWait.reach_scheduled started few fits ran).spared before⟩

end Clocked

/-- The retries of a session that stays SynSent and open after its first SYN, sent at
`first`: when each is sent at the earliest, how many there are, and when `maybe_retry_syn`
gives up. `send_syn` reads the clock after the SYN; a SYN that the socket refuses is dated,
as in the code, to the creation of the session. -/
theorem syn_retry_schedule (K : Type) [Kcp K] (conv : UInt32) (peer : SocketAddr)
    (incarnation : UInt64) (config : KcpConfig) (created read : UInt64) (socket : Socket)
    (first : UInt64) (few : config.synMaxRetries.toNat ≤ 64)
    (fits : config.retryBase * 2 ^ config.synMaxRetries.toNat < 2 ^ 64)
    (sent : first ≤ if (socket.sendTo (encodeControl .syn conv) peer).isOk then read else created)
    {w : SynWait K} (reached : (waitMachine K config
      (.opened conv peer incarnation config created read socket)).Reach SynWait.Timely w) :
    (∀ i retry, w.retries[i]? = some retry →
      first.toNat + config.retryBase * (2 ^ (i + 1) - 1) ≤ retry.toNat) ∧
    (∀ i before retry, (first :: w.retries)[i]? = some before → w.retries[i]? = some retry →
      before.toNat + config.retryBase * 2 ^ i ≤ retry.toNat) ∧
    w.retries.length ≤ config.synMaxRetries.toNat ∧
    (∀ nowEpoch now socket, w.DeadLink config nowEpoch now socket ↔
      w.retries.length = config.synMaxRetries.toNat) ∧
    (∀ nowEpoch now socket, w.DeadLink config nowEpoch now socket →
      first.toNat + config.retryBase * (2 ^ config.synMaxRetries.toNat - 1) ≤ w.clock.toNat) := by
  have scheduled := SynWait.reach_scheduled (SynWait.scheduled_opened sent) few fits reached
  refine ⟨?_, scheduled.spaced, scheduled.few, scheduled.deadLink_iff, ?_⟩
  · intro i retry found
    rw [← waits_sum]
    exact scheduled.spaced.since found
  · intro nowEpoch now socket dead
    rw [← (scheduled.deadLink_iff nowEpoch now socket).mp dead, ← waits_sum]
    refine scheduled.spaced.elapsed ?_
    intro syn mem
    exact UInt64.le_iff_toNat_le.mp (UInt64.le_trans (scheduled.past syn mem) scheduled.read)

/-- The default schedule, with late ticks, up to its end. -/
theorem default_schedule_exhausted :
    ∃ w : SynWait SampleKcp, w.retries = [1160, 1470, 2075, 3275, 5676] ∧
      (∀ nowEpoch now socket, w.DeadLink .default nowEpoch now socket) ∧
      1000 + 150 * (2 ^ 5 - 1) ≤ w.clock.toNat := by
  let start : SynWait SampleKcp := .opened 10 .remote 1 .default 998 1001 .sample
  let call (nowEpoch sentAt now : UInt64) : WaitOp := .call nowEpoch sentAt now .sample
  have run : ((waitMachine SampleKcp .default start).exec SynWait.Timely start
      [call 1100 1101 1101, .sendData [7] 1120 .sample, call 1155 1160 1161, call 1311 1312 1312,
        .fed [] 1400, call 1470 1470 1471, call 2075 2075 2075, call 3275 3275 3276,
        call 5676 5676 5678]).any
        (fun w => decide (w.retries = [1160, 1470, 2075, 3275, 5676])) = true := by
    decide +kernel
  obtain ⟨w, reached, checked⟩ := Machine.Reach.exec_any _ run
  have retries := of_decide_eq_true checked
  obtain ⟨_, _, _, deadLink, last⟩ := syn_retry_schedule SampleKcp 10 .remote 1 .default 998 1001
    .sample 1000 (by decide) (by decide) (by decide) reached
  have dead : ∀ nowEpoch now socket, w.DeadLink .default nowEpoch now socket := by
    intro nowEpoch now socket
    rw [deadLink, retries]
    rfl
  exact ⟨w, retries, dead, last 6000 6000 .sample (dead 6000 6000 .sample)⟩

end KcpPeer
