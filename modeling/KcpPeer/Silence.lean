import KcpPeer.Unanswered

set_option autoImplicit false

namespace KcpPeer

/-- What an operation notes of a remote, and when. -/
inductive Sign where
  | opened (can : CanonicalAddr) (time : UInt64)
  | heard (can : CanonicalAddr) (time : UInt64)
  | fed (id : SessionId) (time : UInt64)
  deriving DecidableEq, Repr

/-- No more than `session_timeout` lies between the two readings of the clock. -/
def KcpConfig.Recent (config : KcpConfig) (now time : UInt64) : Prop :=
  (saturatingSub now time).toNat * 1000000 ≤ config.sessionTimeout.asNanos

theorem asNanos_fromMillis (ms : UInt64) :
    (Duration.fromMillis ms).asNanos = ms.toNat * 1000000 := by
  change (ms / 1000).toNat * 1000000000 + ms.toNat % 1000 * 1000000 = _
  rw [UInt64.toNat_div, show (1000 : UInt64).toNat = 1000 from rfl]
  generalize ms.toNat = millis
  omega

theorem KcpConfig.Recent.later {config : KcpConfig} {now first last : UInt64}
    (recent : config.Recent now first) (le : first ≤ last) : config.Recent now last := by
  have less : saturatingSub now last ≤ saturatingSub now first := saturatingSub_mono le
  rw [UInt64.le_iff_toNat_le] at less
  exact (Nat.mul_le_mul_right 1000000 less).trans recent

namespace Session

variable {K : Type}

theorem idleExpired_eq_false {s : Session K} {config : KcpConfig} {now : UInt64} :
    s.idleExpired config now = false ↔ s.lastRx = 0 ∨ config.Recent now s.lastRx := by
  unfold idleExpired KcpConfig.Recent
  rw [asNanos_fromMillis, decide_eq_false_iff_not, not_and_or, Nat.not_lt]
  refine or_congr_left ?_
  rw [UInt64.lt_iff_toNat_lt, ← UInt64.toNat_inj, show (0 : UInt64).toNat = 0 from rfl]
  omega

theorem lastRx_sendSyn [Kcp K] (s : Session K) (conv : UInt32) (now : UInt64) (socket : Socket) :
    (s.sendSyn conv now socket).lastRx = s.lastRx := by
  unfold sendSyn
  split
  · rfl
  · rfl

/-- What the clock of the session is set by. -/
def DatedBy (s : Session K) (can : CanonicalAddr) (noted : List Sign) : Prop :=
  .heard can s.lastRx ∈ noted ∨ s.inner.state = .synSent ∧ .opened can s.lastRx ∈ noted

theorem DatedBy.keep {s s' : Session K} {can : CanonicalAddr} {noted : List Sign}
    (dated : s.DatedBy can noted) (state : s'.inner.state = s.inner.state)
    (lastRx : s'.lastRx = s.lastRx) (more : List Sign) : s'.DatedBy can (noted ++ more) := by
  unfold DatedBy
  rw [state, lastRx]
  exact dated.imp (List.mem_append_left _) fun opened =>
    ⟨opened.1, List.mem_append_left _ opened.2⟩

end Session

namespace Peer

variable {K : Type}

/-- A KcpData datagram that finds a session is noted for it, too. -/
def signs (p : Peer K) : PeerOp → List Sign
  | .send peer _ _ clock _ =>
      match p.sessions.find (canonicalize peer) with
      | some _ => []
      | none => [.opened (canonicalize peer) clock.epochMs]
  | .incoming data src clock _ =>
      .heard (canonicalize src) clock.epochMs ::
        match splitPacket data, p.sessions.find (canonicalize src) with
        | some (.kcpData, _), some (id, _) => [.fed id clock.epochMs]
        | _, _ => []
  | .disconnect .. | .tick .. => []

theorem heard_mem_signs (p : Peer K) (data : Bytes) (src : SocketAddr) (clock : Clock)
    (socket : Socket) :
    .heard (canonicalize src) clock.epochMs ∈ p.signs (.incoming data src clock socket) :=
  List.mem_cons_self

theorem fed_mem_signs {p : Peer K} {op : PeerOp} {id : SessionId} {time : UInt64}
    (fed : .fed id time ∈ p.signs op) :
    ∃ data src clock socket payload s, op = .incoming data src clock socket ∧
      splitPacket data = some (.kcpData, payload) ∧
      p.sessions.find (canonicalize src) = some (id, s) ∧ time = clock.epochMs := by
  cases op with
  | send peer data draw clock socket =>
      simp only [signs] at fed
      split at fed
      · simp at fed
      · simp at fed
  | disconnect => simp [signs] at fed
  | tick => simp [signs] at fed
  | incoming data src clock socket =>
      rcases List.mem_cons.mp fed with heard | fed
      · cases heard
      · split at fed
        · rename_i payload id' s kind found
          cases List.mem_singleton.mp fed
          exact ⟨data, src, clock, socket, payload, s, rfl, kind, found, rfl⟩
        · cases fed

end Peer

namespace Clocked

variable {K : Type}

/-- How the clocks of the sessions stand to what has been noted. -/
structure Dated (c : Clocked K) (noted : List Sign) : Prop where
  dated : ∀ can id s, c.peer.sessions.find can = some (id, s) → s.DatedBy can noted
  recent : ∀ can id s time, c.peer.sessions.find can = some (id, s) → .fed id time ∈ noted →
    time ≤ s.lastRx
  past : ∀ id time, .fed id time ∈ noted → id < c.peer.sessions.fresh ∧ time ≤ c.clock

variable [Kcp K]

/-- The session of an address is left alone, or is noted to be heard of. -/
theorem Dated.dated_step {c : Clocked K} {noted : List Sign} (ok : c.Dated noted) {op : PeerOp}
    {p : Peer K} (applied : c.peer.apply op = some p) {can : CanonicalAddr} {id : SessionId}
    {s' : Session K} (found' : p.sessions.find can = some (id, s')) :
    s'.DatedBy can (noted ++ c.peer.signs op) := by
  have kept : p.sessions.find can = c.peer.sessions.find can →
      s'.DatedBy can (noted ++ c.peer.signs op) := by
    intro same
    exact (ok.dated can id s' (same.symm.trans found')).keep rfl rfl _
  have heard : ∀ {data : Bytes} {src : SocketAddr} {clock : Clock} {socket : Socket},
      op = .incoming data src clock socket → s'.lastRx = clock.epochMs →
      s'.DatedBy can (noted ++ c.peer.signs op) := by
    rintro data src clock socket rfl lastRx
    by_cases own : can = canonicalize src
    · subst own
      refine Or.inl (List.mem_append_right _ ?_)
      rw [lastRx]
      exact c.peer.heard_mem_signs data src clock socket
    · obtain rfl := Option.some.inj applied
      exact kept (Peer.handleIncoming_effects.find_other own)
  rcases Peer.apply_follows applied can id s' found' with ⟨s, found, step⟩ | ⟨isNew, birth⟩
  · have before := ok.dated can id s found
    cases step with
    | same => exact before.keep rfl rfl _
    | sent own data draw clock socket =>
        obtain ⟨kcp, written⟩ := s.sendData_withKcp data clock.currentMs socket
        rw [written]
        exact before.keep rfl rfl _
    | scanned tick socket =>
        obtain ⟨view, lastRx⟩ := s.scan_keeps c.peer.config tick (tick.retryClock can) socket
        exact before.keep (congrArg View.state view) lastRx _
    | fed => exact heard rfl rfl
    | touched => exact heard rfl rfl
    | established => exact heard rfl rfl
    | adopted => exact heard rfl rfl
  · cases birth with
    | inbound => exact heard rfl rfl
    | @outbound peer own data draw clock socket =>
        subst own
        obtain rfl := Option.some.inj applied
        cases found : c.peer.sessions.find (canonicalize peer) with
        | some entry =>
            -- a session that exists is used, and none is opened
            have after : (c.peer.send peer data draw clock socket).1.sessions.find
                (canonicalize peer) =
                some (entry.1, (entry.2.sendData data clock.currentMs socket).1) := by
              simp only [Peer.send, found]
              exact Peer.find_setSession found _
            have same : entry.1 = id :=
              congrArg Prod.fst (Option.some.inj (after.symm.trans found'))
            have born := Store.object?_lt (Store.find_eq_some.mp found).2
            exact absurd (same.trans isNew) (Nat.ne_of_lt born)
        | none =>
            have noted' : .opened (canonicalize peer) clock.epochMs ∈
                c.peer.signs (.send peer data draw clock socket) := by
              simp only [Peer.signs, found, List.mem_singleton]
            let s : Session K :=
              Session.newOutbound draw.val peer c.peer.incarnation c.peer.config clock.epochMs
            obtain ⟨kcp, written⟩ :=
              (s.sendSyn draw.val clock.epochMs socket).sendData_withKcp data clock.currentMs socket
            refine Or.inr ⟨?_, List.mem_append_right _ ?_⟩
            · rw [written]
              exact congrArg View.state (s.view_sendSyn draw.val clock.epochMs socket)
            · rw [written]
              refine Eq.mp ?_ noted'
              congr 2
              exact (s.lastRx_sendSyn draw.val clock.epochMs socket).symm

/-- Feeding a session moves its clock up to now, and nothing moves it back. -/
theorem Dated.recent_step {c : Clocked K} {noted : List Sign} (ok : c.Dated noted) {op : PeerOp}
    (timely : c.Timely op) {p : Peer K} (applied : c.peer.apply op = some p) {can : CanonicalAddr}
    {id : SessionId} {s' : Session K} (found' : p.sessions.find can = some (id, s'))
    {time : UInt64} (fed : .fed id time ∈ noted ++ c.peer.signs op) : time ≤ s'.lastRx := by
  rcases List.mem_append.mp fed with old | new
  · obtain ⟨born, past⟩ := ok.past id time old
    have now : ∀ {data : Bytes} {src : SocketAddr} {clock : Clock} {socket : Socket},
        op = .incoming data src clock socket → s'.lastRx = clock.epochMs → time ≤ s'.lastRx := by
      rintro data src clock socket rfl lastRx
      rw [lastRx]
      exact UInt64.le_trans past ((List.pairwise_cons.mp timely).1 _ (List.mem_singleton_self _))
    rcases Peer.apply_follows applied can id s' found' with ⟨s, found, step⟩ | ⟨isNew, _⟩
    · have before := ok.recent can id s time found old
      cases step with
      | same => exact before
      | sent own data draw clock socket =>
          obtain ⟨kcp, written⟩ := s.sendData_withKcp data clock.currentMs socket
          rw [written]
          exact before
      | scanned tick socket =>
          rw [(s.scan_keeps c.peer.config tick (tick.retryClock can) socket).2]
          exact before
      | fed => exact now rfl rfl
      | touched => exact now rfl rfl
      | established => exact now rfl rfl
      | adopted => exact now rfl rfl
    · exact absurd isNew (Nat.ne_of_lt born)
  · obtain ⟨data, src, clock, socket, payload, s, rfl, kind, found, rfl⟩ :=
      Peer.fed_mem_signs new
    obtain rfl := Option.some.inj applied
    have sessions : (c.peer.handleIncoming data src clock socket).1.sessions =
        (c.peer.setSession id (s.fed payload clock.epochMs)).sessions := by
      unfold Peer.handleIncoming
      rw [kind]
      exact Peer.handleKcpData_sessions c.peer payload src clock socket found
    have there := Peer.find_setSession found (s.fed payload clock.epochMs)
    rw [← sessions] at there
    have key : can = canonicalize src := Store.lookup_injective
      (Store.find_eq_some.mp found').1 (Store.find_eq_some.mp there).1
    subst key
    cases there.symm.trans found'
    exact UInt64.le_refl _

theorem Dated.step {c : Clocked K} {noted : List Sign} (ok : c.Dated noted)
    (keyed : c.peer.registry.Keyed) {op : PeerOp} (timely : c.Timely op) {p : Peer K}
    (applied : c.peer.apply op = some p) :
    Dated ⟨p, op.readings.getLastD c.clock⟩ (noted ++ c.peer.signs op) := by
  have fresh := Peer.fresh_apply_le keyed applied
  refine ⟨fun can id s' found' => ok.dated_step applied found',
    fun can id s' time found' fed => ok.recent_step timely applied found' fed, ?_⟩
  intro id time fed
  rcases List.mem_append.mp fed with old | new
  · obtain ⟨born, past⟩ := ok.past id time old
    exact ⟨Nat.lt_of_lt_of_le born fresh,
      UInt64.le_trans past (timely.last _ List.mem_cons_self)⟩
  · obtain ⟨data, src, clock, socket, payload, s, rfl, kind, found, rfl⟩ :=
      Peer.fed_mem_signs new
    have born := Store.object?_lt (Store.find_eq_some.mp found).2
    exact ⟨Nat.lt_of_lt_of_le born fresh, UInt64.le_refl _⟩

theorem reach_peer {guard : Clocked K → PeerOp → Prop} {incarnation : UInt64} {config : KcpConfig}
    {c : Clocked K} (reached : (clockedMachine K incarnation config).Reach guard c) :
    (peerMachine K incarnation config).Reach Machine.always c.peer := by
  induction reached with
  | start => exact .start
  | step _ _ taken ih =>
      obtain ⟨p, applied, rfl⟩ := Option.map_eq_some_iff.mp taken
      exact .step ih trivial applied

theorem start_dated (incarnation : UInt64) (config : KcpConfig) :
    ((clockedMachine K incarnation config).start).Dated [] := by
  refine ⟨?_, ?_, ?_⟩
  · rintro can id s ⟨⟩
  · rintro can id s time ⟨⟩
  · rintro id time ⟨⟩

/-- Runs on a clock that does not go back, with what is noted on the way. -/
theorem run_dated {incarnation : UInt64} {config : KcpConfig} {ops : List PeerOp} {c : Clocked K}
    (ran : (clockedMachine K incarnation config).exec Timely
      (clockedMachine K incarnation config).start ops = some c) :
    (clockedMachine K incarnation config).Reach Timely c ∧ c.Dated
      ((clockedMachine K incarnation config).observed (fun c op => c.peer.signs op)
        (clockedMachine K incarnation config).start ops) := by
  have kept := Machine.exec_observed
    (P := fun (c : Clocked K) noted =>
      (clockedMachine K incarnation config).Reach Timely c ∧ c.Dated noted)
    (by
      rintro before op after noted ⟨reached, ok⟩ timely taken
      obtain ⟨p, applied, rfl⟩ := Option.map_eq_some_iff.mp taken
      exact ⟨.step reached timely taken, ok.step (reach_configured reached).1 timely applied⟩)
    ops ⟨.start, start_dated incarnation config⟩ ran
  rw [List.nil_append] at kept
  exact kept

end Clocked

namespace Peer

variable {K : Type} [Kcp K]

/-- A session that the map names is open. -/
theorem opened_of_find {incarnation : UInt64} {config : KcpConfig} {p : Peer K}
    (reached : (peerMachine K incarnation config).Reach Machine.always p) {can : CanonicalAddr}
    {id : SessionId} {s : Session K} (found : p.sessions.find can = some (id, s)) :
    s.closed = false := by
  obtain ⟨named, present⟩ := Store.find_eq_some.mp found
  have visible : p.registry.sessions.object? id = some s.view := by
    rw [registry_object?, present, Option.map_some]
  have life := (peerMachine_lives reached).life id s.view visible
  rw [names_registry.mpr ⟨can, named⟩] at life
  generalize eventsOf id p.registry.log = events at life
  cases life with
  | waiting opened => exact opened
  | established opened => exact opened

end Peer

/-- Silence ends sessions, and nothing else counts as silence. After every tick, each session
that is left was heard of, or opened and is waiting for its first answer, no longer than
`session_timeout` ago; and an established session that was fed a KcpData datagram no longer
ago than that is left by the tick unless its link is dead. A reading of 0 counts as no reading,
as in the source. -/
theorem silence_ends_sessions (K : Type) [Kcp K] (incarnation : UInt64) (config : KcpConfig)
    (ops : List PeerOp) (c : Clocked K)
    (ran : (clockedMachine K incarnation config).exec Clocked.Timely
      (clockedMachine K incarnation config).start ops = some c)
    (tick : Tick) (socket : Socket) (order : tick.order.Perm c.peer.sessions.keys) :
    let noted := (clockedMachine K incarnation config).observed (fun c op => c.peer.signs op)
      (clockedMachine K incarnation config).start ops
    let p' := c.peer.updateTick tick socket
    (∀ can id s', p'.sessions.find can = some (id, s') →
        ∃ time, (.heard can time ∈ noted ∨
            s'.inner.state = .synSent ∧ .opened can time ∈ noted) ∧
          (time = 0 ∨ config.Recent tick.nowEpoch time)) ∧
      (∀ can id s time, c.peer.sessions.find can = some (id, s) → .fed id time ∈ noted →
        config.Recent tick.nowEpoch time → s.inner.state = .established →
        s.deadLinked tick.nowMs socket = false →
        ∃ s', p'.sessions.find can = some (id, s') ∧ s'.view = s.view) := by
  intro noted p'
  obtain ⟨reached, dated⟩ := Clocked.run_dated ran
  have configured := (Clocked.reach_configured reached).2
  have nodup : tick.order.Nodup := order.nodup_iff.mpr c.peer.sessions.keys_nodup
  refine ⟨?_, ?_⟩
  · intro can id s' found'
    have left : p'.sessions.find can = _ := Peer.find_updateTick order nodup can
    rw [found'] at left
    split at left
    · cases left
    · rename_i spared
      obtain ⟨⟨id', s⟩, found, same⟩ := Option.map_eq_some_iff.mp left.symm
      cases same
      have opened := Peer.opened_of_find (Clocked.reach_peer reached) found
      obtain ⟨view, lastRx⟩ := s.scan_keeps c.peer.config tick (tick.retryClock can) socket
      refine ⟨s.lastRx, ?_, ?_⟩
      · rw [show (s.scan c.peer.config tick (tick.retryClock can) socket).1.inner.state =
          s.inner.state from congrArg View.state view]
        exact dated.dated can id s found
      · have kept : s.deserves c.peer.config tick socket = false := by
          simpa only [Peer.deserves, found, Bool.not_eq_true] using spared
        simp only [Session.deserves, opened, Bool.not_false, Bool.true_and,
          Bool.or_eq_false_iff] at kept
        rw [← configured]
        exact Session.idleExpired_eq_false.mp kept.1
  · intro can id s time found fed recent ready alive
    have later := recent.later (dated.recent can id s time found fed)
    rw [← configured] at later
    have spared : s.deserves c.peer.config tick socket = false := by
      simp only [Session.deserves, ready, alive, Session.idleExpired_eq_false.mpr (Or.inr later),
        Bool.or_false, Bool.and_false]
    obtain ⟨s', found', view, _⟩ := Peer.updateTick_spares order nodup found spared
    exact ⟨s', found', view⟩

/-- A session that is opened at 1000 ms and fed at 40000 ms is left by the tick at 62000 ms. -/
theorem silence_ends_sessions_fed :
    ∃ (c : Clocked SampleKcp) (s s' : Session SampleKcp),
      c.peer.sessions.find (canonicalize .remote) = some (0, s) ∧
      (c.peer.updateTick (.lone 62000) .sample).sessions.find (canonicalize .remote) =
        some (0, s') ∧ s'.view = s.view := by
  let ops : List PeerOp :=
    [.incoming (encodeControl .syn 20) .remote ⟨1000, 1000⟩ .sample,
      .incoming SampleKcp.datagram .remote ⟨40000, 40000⟩ .sample]
  have run : ((clockedMachine SampleKcp 1 .default).exec Clocked.Timely
      (clockedMachine SampleKcp 1 .default).start ops).any (fun c =>
        decide (c.peer.sessions.keys = [canonicalize .remote]) &&
        (c.peer.sessions.find (canonicalize .remote)).any fun entry => decide (entry.1 = 0) &&
          decide (entry.2.inner.state = .established) &&
          !entry.2.deadLinked (Tick.lone 62000).nowMs .sample) = true := by
    decide +kernel
  obtain ⟨c, ran, checked⟩ := (Option.any_eq_true ..).mp run
  obtain ⟨keys, held⟩ := Bool.and_eq_true_iff.mp checked
  obtain ⟨⟨id, s⟩, found, held⟩ := (Option.any_eq_true ..).mp held
  simp only [Bool.and_eq_true, decide_eq_true_eq, Bool.not_eq_true'] at held
  obtain ⟨⟨rfl, ready⟩, alive⟩ := held
  have order : (Tick.lone 62000).order.Perm c.peer.sessions.keys := by
    rw [of_decide_eq_true keys]
    exact .refl _
  have noted : .fed 0 40000 ∈ (clockedMachine SampleKcp 1 .default).observed
      (fun c op => c.peer.signs op) (clockedMachine SampleKcp 1 .default).start ops := by
    decide +kernel
  obtain ⟨_, stays⟩ :=
    silence_ends_sessions SampleKcp 1 .default ops c ran (.lone 62000) .sample order
  have recent : KcpConfig.default.Recent (Tick.lone 62000).nowEpoch 40000 := by
    unfold KcpConfig.Recent
    decide
  obtain ⟨s', found', view⟩ :=
    stays (canonicalize .remote) 0 s 40000 found noted recent ready alive
  exact ⟨c, s, s', found, found', view⟩

end KcpPeer
