import KcpPeer.Pruning
import KcpPeer.Lib.Spacing

set_option autoImplicit false

namespace KcpPeer

namespace KcpConfig

/-- `base` of the documented schedule, in whole milliseconds. -/
def retryBase (config : KcpConfig) : Nat := config.synRetryInterval.asMillis

/-- Every wait `base * 2^i` that a session can get to within the range of the clock is
a shift by less than 64 that loses no bit. The earlier waits sum up to `base * (2^i - 1)`. -/
def BackoffFits (config : KcpConfig) : Prop :=
  ∀ i < config.synMaxRetries.toNat, config.retryBase * (2 ^ i - 1) < 2 ^ 64 →
    i < 64 ∧ config.retryBase * 2 ^ i < 2 ^ 64

end KcpConfig

/-- The time after the first `i` waits. -/
theorem waits_succ (base i : Nat) :
    base * (2 ^ (i + 1) - 1) = base * (2 ^ i - 1) + base * 2 ^ i := by
  have positive : 1 ≤ 2 ^ i := Nat.one_le_two_pow
  rw [← Nat.mul_add, Nat.pow_succ]
  congr 1
  omega

theorem waits_sum (base i : Nat) :
    ∑ j ∈ Finset.range i, base * 2 ^ j = base * (2 ^ i - 1) := by
  induction i with
  | zero => simp
  | succ i ih => rw [Finset.sum_range_succ, ih, waits_succ]

namespace Session

theorem retryWait_toNat {config : KcpConfig} {retries : UInt32} (small : retries.toNat < 64)
    (fits : config.retryBase * 2 ^ retries.toNat < 2 ^ 64) :
    (retryWait config retries).toNat = config.retryBase * 2 ^ retries.toNat := by
  have base : config.retryBase < 2 ^ 64 := by
    have positive : 0 < 2 ^ retries.toNat := Nat.two_pow_pos _
    exact Nat.lt_of_le_of_lt (Nat.le_mul_of_pos_right _ positive) fits
  have shift : retries.toUInt64.toNat % 64 = retries.toNat := by
    rw [UInt32.toNat_toUInt64, Nat.mod_eq_of_lt small]
  change (UInt64.ofNat config.retryBase <<< retries.toUInt64).toNat = _
  rw [UInt64.toNat_shiftLeft, shift, UInt64.toNat_ofNat', Nat.mod_eq_of_lt base,
    Nat.shiftLeft_eq, Nat.mod_eq_of_lt fits]

theorem saturatingSub_toNat (left right : UInt64) :
    (saturatingSub left right).toNat = left.toNat - right.toNat := by
  unfold saturatingSub
  split
  · rename_i below
    rw [UInt64.lt_iff_toNat_lt] at below
    simp only [UInt64.toNat_zero]
    omega
  · rename_i above
    exact UInt64.toNat_sub_of_le _ _ (UInt64.not_lt.mp above)

variable {K : Type}

/-- The shift that the next `maybe_retry_syn` of the session evaluates, if it gets to
it, is exact. -/
def WaitExact (config : KcpConfig) (s : Session K) : Prop :=
  s.closed = false → s.inner.state = .synSent → s.synRetries < config.synMaxRetries →
    s.synRetries.toNat < 64 ∧
      (retryWait config s.synRetries).toNat = config.retryBase * 2 ^ s.synRetries.toNat

/-- A waiting session has sat out all its earlier waits. -/
def WaitsServed (config : KcpConfig) (s : Session K) : Prop :=
  s.inner.state = .synSent → config.retryBase * (2 ^ s.synRetries.toNat - 1) ≤ s.synSentAt.toNat

theorem WaitsServed.exact {config : KcpConfig} {s : Session K} (served : s.WaitsServed config)
    (fits : config.BackoffFits) : s.WaitExact config := by
  intro _ waiting more
  rw [UInt32.lt_iff_toNat_lt] at more
  obtain ⟨small, exact⟩ := fits _ more (Nat.lt_of_le_of_lt (served waiting) s.synSentAt.toNat_lt)
  exact ⟨small, retryWait_toNat small exact⟩

variable [Kcp K]

/-- What `maybe_retry_syn` does after the state check: the retries are used up, or the
wait is not over, or it is over and one more retry is on its way. -/
theorem retrySyn_cases (s : Session K) (conv : UInt32) (config : KcpConfig)
    (nowEpoch now : UInt64) (socket : Socket) :
    (config.synMaxRetries.toNat ≤ s.synRetries.toNat ∧
      s.retrySyn conv config nowEpoch now socket = (s, [], .error .deadLink)) ∨
    (s.synRetries.toNat < config.synMaxRetries.toNat ∧
      nowEpoch.toNat - s.synSentAt.toNat < (retryWait config s.synRetries).toNat ∧
      s.retrySyn conv config nowEpoch now socket = (s, [], .ok false)) ∨
    (s.synRetries.toNat < config.synMaxRetries.toNat ∧
      (retryWait config s.synRetries).toNat ≤ nowEpoch.toNat - s.synSentAt.toNat ∧
      (s.synRetries + 1).toNat = s.synRetries.toNat + 1 ∧
      s.retrySyn conv config nowEpoch now socket =
        ({ s with synSentAt := now, synRetries := s.synRetries + 1 },
          [s.synSubmission conv socket], .ok true)) := by
  unfold retrySyn
  split
  · rename_i exhausted
    exact Or.inl ⟨UInt32.le_iff_toNat_le.mp exhausted, rfl⟩
  · rename_i more
    rw [UInt32.not_le, UInt32.lt_iff_toNat_lt] at more
    split
    · rename_i early
      rw [UInt64.lt_iff_toNat_lt, saturatingSub_toNat] at early
      exact Or.inr (Or.inl ⟨more, early, rfl⟩)
    · rename_i due
      rw [UInt64.not_lt, UInt64.le_iff_toNat_le, saturatingSub_toNat] at due
      have bound := config.synMaxRetries.toNat_lt
      refine Or.inr (Or.inr ⟨more, due, ?_, rfl⟩)
      rw [UInt32.toNat_add, UInt32.toNat_one, Nat.mod_eq_of_lt (by omega)]

theorem maybeRetrySyn_waiting {s : Session K} (isOpen : s.closed = false)
    (waiting : s.inner.state = .synSent) (config : KcpConfig) (nowEpoch now : UInt64)
    (socket : Socket) : s.maybeRetrySyn config nowEpoch now socket =
      s.retrySyn s.inner.convId config nowEpoch now socket := by
  simp only [maybeRetrySyn, isOpen, waiting, Bool.false_eq_true, ↓reduceIte]

theorem WaitsServed.maybeRetrySyn {config : KcpConfig} {s : Session K}
    (served : s.WaitsServed config) (fits : config.BackoffFits) {nowEpoch now : UInt64}
    (later : nowEpoch ≤ now) (socket : Socket) :
    (s.maybeRetrySyn config nowEpoch now socket).1.WaitsServed config := by
  unfold Session.maybeRetrySyn
  split
  · exact served
  · rename_i isOpen
    split
    · exact served
    · rename_i waiting
      rcases s.retrySyn_cases s.inner.convId config nowEpoch now socket with
        ⟨_, same⟩ | ⟨_, _, same⟩ | ⟨more, due, next, retried⟩
      · rw [same]
        exact served
      · rw [same]
        exact served
      · rw [retried]
        intro _
        obtain ⟨_, wait⟩ := served.exact fits (Bool.eq_false_iff.mpr isOpen) waiting
          (UInt32.lt_iff_toNat_lt.mpr more)
        have sum := served waiting
        rw [wait] at due
        rw [UInt64.le_iff_toNat_le] at later
        dsimp only
        rw [next, waits_succ]
        cases base : config.retryBase with
        | zero => simp
        | succ n =>
            -- the wait is positive, so the elapsed time was not cut off at zero
            have positive : 0 < config.retryBase * 2 ^ s.synRetries.toNat :=
              Nat.mul_pos (by omega) (Nat.two_pow_pos _)
            rw [← base]
            omega

theorem WaitsServed.scan {config : KcpConfig} {s : Session K} (served : s.WaitsServed config)
    (fits : config.BackoffFits) {tick : Tick} {now : UInt64} (later : tick.nowEpoch ≤ now)
    (socket : Socket) : (s.scan config tick now socket).1.WaitsServed config := by
  have updated : (s.update tick.nowMs socket).1.WaitsServed config := by
    obtain ⟨kcp, written⟩ := s.update_withKcp tick.nowMs socket
    rw [written]
    exact served
  refine scan_rule served updated ?_
  intro updated
  exact updated.maybeRetrySyn fits later socket

theorem WaitsServed.sendData {config : KcpConfig} {s : Session K} (served : s.WaitsServed config)
    (data : Bytes) (now : UInt32) (socket : Socket) :
    (s.sendData data now socket).1.WaitsServed config := by
  obtain ⟨kcp, written⟩ := s.sendData_withKcp data now socket
  rw [written]
  exact served

end Session

/-- The readings of `epoch_ms()` during an operation, in their order. -/
def PeerOp.readings : PeerOp → List UInt64
  | .send _ _ _ clock _ => [clock.epochMs]
  | .disconnect _ _ => []
  | .tick t _ => t.nowEpoch :: t.order.map t.retryClock
  | .incoming _ _ clock _ => [clock.epochMs]

/-- A peer and the last reading of its clock. -/
structure Clocked (K : Type) where
  peer : Peer K
  clock : UInt64

def clockedMachine (K : Type) [Kcp K] (incarnation : UInt64) (config : KcpConfig) :
    Machine (Clocked K) PeerOp where
  start := ⟨.bind incarnation config, 0⟩
  step c op := (c.peer.apply op).map fun p => ⟨p, op.readings.getLastD c.clock⟩

namespace Clocked

variable {K : Type}

/-- The clock does not go back during the operation. -/
def Timely (c : Clocked K) (op : PeerOp) : Prop := (c.clock :: op.readings).Pairwise (· ≤ ·)

instance (c : Clocked K) (op : PeerOp) : Decidable (c.Timely op) :=
  inferInstanceAs (Decidable (List.Pairwise _ _))

/-- The clock is never read after the last reading. -/
theorem Timely.last {c : Clocked K} {op : PeerOp} (timely : c.Timely op) :
    ∀ reading ∈ c.clock :: op.readings, reading ≤ op.readings.getLastD c.clock := by
  have refl : Std.Refl (fun reading reading' : UInt64 => reading ≤ reading') := ⟨UInt64.le_refl⟩
  intro reading mem
  rw [← List.getLast_eq_getLastD (List.cons_ne_nil _ _)]
  exact List.Pairwise.rel_getLast timely mem

/-- Every shift that the next tick evaluates is exact. -/
def BackoffExact (config : KcpConfig) (c : Clocked K) : Prop :=
  ∀ can id s, c.peer.sessions.find can = some (id, s) → s.WaitExact config

/-- A tick that reads the same time everywhere. -/
def tickAt (c : Clocked K) (now : UInt64) : Tick := ⟨0, now, fun _ => now, c.peer.sessions.keys⟩

theorem readings_tickAt (c : Clocked K) (now : UInt64) (socket : Socket) :
    (PeerOp.tick (c.tickAt now) socket).readings =
      List.replicate (c.peer.sessions.keys.length + 1) now := by
  simp [PeerOp.readings, tickAt, List.replicate_succ]

theorem tickAt_timely {c : Clocked K} {now : UInt64} (later : c.clock ≤ now) (socket : Socket) :
    c.Timely (.tick (c.tickAt now) socket) := by
  rw [Timely, readings_tickAt]
  refine List.pairwise_cons.mpr ⟨?_, List.pairwise_replicate.mpr (Or.inr (UInt64.le_refl now))⟩
  intro reading mem
  rw [List.eq_of_mem_replicate mem]
  exact later

variable [Kcp K]

/-- The clock read after the retry of a session that the tick meets. -/
theorem Timely.retryClock {c : Clocked K} {tick : Tick} {socket : Socket} {p : Peer K}
    (timely : c.Timely (.tick tick socket)) (applied : c.peer.apply (.tick tick socket) = some p)
    {can : CanonicalAddr} {id : SessionId} {s : Session K}
    (found : c.peer.sessions.find can = some (id, s)) :
    c.clock ≤ tick.retryClock can ∧ tick.nowEpoch ≤ tick.retryClock can ∧
      tick.retryClock can ≤ (PeerOp.tick tick socket).readings.getLastD c.clock := by
  obtain ⟨perm, rfl⟩ := Peer.apply_tick applied
  have listed : can ∈ tick.order := (List.isPerm_iff.mp perm).mem_iff.mpr
    (Store.mem_keys_iff.mpr ⟨id, (Store.find_eq_some.mp found).1⟩)
  have mem : tick.retryClock can ∈ tick.order.map tick.retryClock := List.mem_map_of_mem listed
  obtain ⟨before, ordered⟩ := List.pairwise_cons.mp timely
  have read := (List.pairwise_cons.mp ordered).1 _ mem
  have mem := List.mem_cons_of_mem tick.nowEpoch mem
  exact ⟨before _ mem, read, timely.last _ (List.mem_cons_of_mem _ mem)⟩

theorem reach_configured {incarnation : UInt64} {config : KcpConfig}
    {guard : Clocked K → PeerOp → Prop}
    {c : Clocked K} (reached : (clockedMachine K incarnation config).Reach guard c) :
    c.peer.registry.Keyed ∧ c.peer.config = config := by
  refine reached.invariant (P := fun c => c.peer.registry.Keyed ∧ c.peer.config = config) ?_ ?_
  · refine ⟨?_, rfl⟩
    intro can id v found
    cases found
  · rintro c op c' ⟨keyed, configured⟩ _ taken
    obtain ⟨p, applied, rfl⟩ := Option.map_eq_some_iff.mp taken
    exact (Peer.apply_effects applied keyed).invariant (P := fun p => p.config = config)
      (fun can p p' effect _ same => effect.config.trans same) keyed configured

/-- Every waiting session has sat out its earlier waits. -/
def Served (config : KcpConfig) (c : Clocked K) : Prop :=
  ∀ can id s, c.peer.sessions.find can = some (id, s) → s.WaitsServed config

theorem Served.step {config : KcpConfig} (fits : config.BackoffFits) {c : Clocked K}
    (served : c.Served config) (configured : c.peer.config = config) {op : PeerOp}
    (timely : c.Timely op) {p : Peer K} (applied : c.peer.apply op = some p) (clock : UInt64) :
    Served config ⟨p, clock⟩ := by
  refine (Peer.apply_follows applied).each served ?_ ?_
  · intro can id s s' found step waits
    rw [configured] at step
    cases step with
    | same => exact waits
    | sent own data draw clock socket => exact waits.sendData data clock.currentMs socket
    | fed => exact waits
    | touched => exact waits
    | established =>
        intro waiting
        cases waiting
    | adopted =>
        intro waiting
        cases waiting
    | scanned tick socket =>
        obtain ⟨_, later, _⟩ := timely.retryClock applied found
        exact waits.scan fits later socket
  · intro can s birth
    cases birth with
    | inbound =>
        intro waiting
        cases waiting
    | @outbound peer own data draw clock socket =>
        let s : Session K :=
          Session.newOutbound draw.val peer c.peer.incarnation c.peer.config clock.epochMs
        have first : (s.sendSyn draw.val clock.epochMs socket).synRetries = 0 := by
          unfold Session.sendSyn
          split
          · rfl
          · rfl
        refine Session.WaitsServed.sendData ?_ data clock.currentMs socket
        intro _
        rw [first]
        simp

theorem reach_served {incarnation : UInt64} {config : KcpConfig} (fits : config.BackoffFits)
    {c : Clocked K} (reached : (clockedMachine K incarnation config).Reach Timely c) :
    c.Served config := by
  refine reached.invariant_with (fun c => reach_configured) ?_ ?_
  · intro can id s found
    cases found
  · rintro c op c' served ⟨_, configured⟩ timely taken
    obtain ⟨p, applied, rfl⟩ := Option.map_eq_some_iff.mp taken
    exact served.step fits configured timely applied _

/-- A session, opened at time 0, that has just been retried for the `i`-th time. -/
structure Retried (config : KcpConfig) (i : Nat) (c : Clocked K) : Prop where
  clock : c.clock.toNat = config.retryBase * (2 ^ i - 1)
  session : ∃ id s, c.peer.sessions.find (canonicalize .remote) = some (id, s) ∧
    s.closed = false ∧ s.inner.state = .synSent ∧ s.lastRx = 0 ∧ s.synSentAt = c.clock ∧
    s.synRetries.toNat = i

theorem tickAt_taken (incarnation : UInt64) (config : KcpConfig) (c : Clocked K) (now : UInt64)
    (socket : Socket) :
    (clockedMachine K incarnation config).step c (.tick (c.tickAt now) socket) =
      some ⟨c.peer.updateTick (c.tickAt now) socket, now⟩ := by
  have perm : (c.tickAt now).order.isPerm c.peer.sessions.keys :=
    List.isPerm_iff.mpr (.refl _)
  have last : (PeerOp.tick (c.tickAt now) socket).readings.getLastD c.clock = now := by
    rw [readings_tickAt, List.getLastD_eq_getLast?, List.getLast?_replicate]
    rfl
  simp only [clockedMachine, Peer.apply, perm, ↓reduceIte, Option.map_some, last]

/-- The `send()` that opens it. -/
theorem exists_opened (incarnation : UInt64) (config : KcpConfig) :
    ∃ c, (clockedMachine K incarnation config).Reach Timely c ∧ c.Retried config 0 := by
  let p : Peer K := .bind incarnation config
  let s : Session K := Session.newOutbound 10 .remote incarnation config 0
  let op : PeerOp := .send .remote [] .ten ⟨0, 0⟩ .sample
  have opened := Peer.find_initiateSession p .remote .ten ⟨0, 0⟩ .sample
  have found : (p.send .remote [] .ten ⟨0, 0⟩ .sample).1.sessions.find (canonicalize .remote) =
      some (0, ((s.sendSyn 10 0 .sample).sendData [] 0 .sample).1) := Peer.find_setSession opened _
  obtain ⟨kcp, written⟩ := (s.sendSyn 10 0 .sample).sendData_withKcp [] 0 .sample
  have taken : (clockedMachine K incarnation config).step
      (clockedMachine K incarnation config).start
      op = some ⟨(p.send .remote [] .ten ⟨0, 0⟩ .sample).1, 0⟩ := rfl
  refine ⟨_, .step .start ?_ taken, ⟨?_, 0, _, found, ?_⟩⟩
  · exact (by decide : ([0, 0] : List UInt64).Pairwise (· ≤ ·))
  · simp
  · rw [written]
    exact ⟨rfl, rfl, rfl, rfl, rfl⟩

/-- The tick that finds the wait over, when the wait is computed exactly. -/
theorem Retried.next {incarnation : UInt64} {config : KcpConfig} {c : Clocked K} {i : Nat}
    (reached : (clockedMachine K incarnation config).Reach Timely c) (retried : c.Retried config i)
    (exact : c.BackoffExact config) (more : i < config.synMaxRetries.toNat)
    (fits : config.retryBase * (2 ^ (i + 1) - 1) < 2 ^ 64) :
    ∃ c', (clockedMachine K incarnation config).Reach Timely c' ∧ c'.Retried config (i + 1) := by
  obtain ⟨clock, id, s, found, isOpen, waiting, lastRx, sentAt, count⟩ := retried
  obtain ⟨_, configured⟩ := reach_configured reached
  let now : UInt64 := .ofNat (config.retryBase * (2 ^ (i + 1) - 1))
  have nowNat : now.toNat = config.retryBase * (2 ^ (i + 1) - 1) := by
    rw [UInt64.toNat_ofNat', Nat.mod_eq_of_lt fits]
  have unexhausted : ¬ config.synMaxRetries ≤ s.synRetries := by
    rw [UInt32.not_le, UInt32.lt_iff_toNat_lt, count]
    exact more
  obtain ⟨_, wait⟩ := exact _ id s found isOpen waiting (UInt32.not_le.mp unexhausted)
  have due : ¬ saturatingSub now s.synSentAt < Session.retryWait config s.synRetries := by
    rw [UInt64.lt_iff_toNat_lt, Session.saturatingSub_toNat, wait, nowNat, sentAt, clock, count,
      waits_succ]
    omega
  let tick : Tick := c.tickAt now
  have order : tick.order.Perm c.peer.sessions.keys := .refl _
  have scanned : s.scan config tick now .sample =
      ({ s with synSentAt := now, synRetries := s.synRetries + 1 },
        [s.synSubmission s.inner.convId .sample], false) := by
    simp only [Session.scan, isOpen, Bool.false_eq_true, ↓reduceIte, Session.update, waiting,
      Session.maybeRetrySyn, Session.retrySyn, unexhausted, due, Session.idleExpired, lastRx, tick,
      tickAt]
    simp
  have spared : c.peer.deserves tick .sample (canonicalize .remote) = false := by
    simp only [Peer.deserves, found, configured]
    rw [← s.scan_deserves config tick now .sample, scanned]
  have after : (c.peer.updateTick tick .sample).sessions.find (canonicalize .remote) =
      some (id, { s with synSentAt := now, synRetries := s.synRetries + 1 }) := by
    rw [Peer.find_updateTick order c.peer.sessions.keys_nodup, spared, found]
    simp only [Bool.false_eq_true, ↓reduceIte, Option.map_some, configured, tick,
      tickAt]
    exact congrArg (fun r => some (id, r.1)) scanned
  have later : c.clock ≤ now := by
    rw [UInt64.le_iff_toNat_le, clock, nowNat, waits_succ]
    exact Nat.le_add_right _ _
  refine ⟨_, .step reached (tickAt_timely later .sample) (tickAt_taken incarnation config c now _),
    ?_⟩
  refine ⟨nowNat, id, _, after, isOpen, waiting, lastRx, rfl, ?_⟩
  have bound := config.synMaxRetries.toNat_lt
  rw [UInt32.toNat_add, UInt32.toNat_one, count, Nat.mod_eq_of_lt (by omega)]

/-- As long as the waits are computed exactly, the session gets to every retry that the
range of the clock allows. -/
theorem exists_retried {incarnation : UInt64} {config : KcpConfig}
    (exact : ∀ c : Clocked K, (clockedMachine K incarnation config).Reach Timely c →
      c.BackoffExact config) (i : Nat) (more : i ≤ config.synMaxRetries.toNat)
    (fits : config.retryBase * (2 ^ i - 1) < 2 ^ 64) :
    ∃ c : Clocked K, (clockedMachine K incarnation config).Reach Timely c ∧ c.Retried config i := by
  induction i with
  | zero => exact exists_opened incarnation config
  | succ i ih =>
      have earlier : config.retryBase * (2 ^ i - 1) < 2 ^ 64 := by
        rw [waits_succ] at fits
        omega
      obtain ⟨c, reached, retried⟩ := ih (by omega) earlier
      exact retried.next reached (exact c reached) (by omega) fits

end Clocked

/-- In every run whose clock does not go back, every shift that `maybe_retry_syn`
evaluates is by less than 64 and equals `base * 2^retries`, if and only if the configured
backoff fits. -/
theorem syn_backoff_exact_iff (K : Type) [Kcp K] (incarnation : UInt64) (config : KcpConfig) :
    (∀ c : Clocked K, (clockedMachine K incarnation config).Reach Clocked.Timely c →
      c.BackoffExact config) ↔ config.BackoffFits := by
  constructor
  · intro exact i more fits
    obtain ⟨c, reached, retried⟩ := Clocked.exists_retried exact i (Nat.le_of_lt more) fits
    obtain ⟨id, s, found, isOpen, waiting, _, _, rfl⟩ := retried.session
    obtain ⟨small, wait⟩ := exact c reached _ id s found isOpen waiting
      (UInt32.lt_iff_toNat_lt.mpr more)
    exact ⟨small, wait ▸ UInt64.toNat_lt _⟩
  · intro fits c reached can id s found
    exact (Clocked.reach_served fits reached can id s found).exact fits

/-- An interval of half a millisecond, which counts as zero, and 65 retries. -/
def KcpConfig.subMillisecond : KcpConfig :=
  { KcpConfig.default with
    synRetryInterval := ⟨0, ⟨500000, by decide⟩⟩
    synMaxRetries := 65 }

/-- `send()` and 64 ticks within one millisecond: the next tick shifts by 64. -/
theorem sub_millisecond_shifts_by_64 :
    ∃ c : Clocked SampleKcp,
      (clockedMachine SampleKcp 1 .subMillisecond).Reach Clocked.Timely c ∧
      (∃ id s, c.peer.sessions.find (canonicalize .remote) = some (id, s) ∧ s.closed = false ∧
        s.inner.state = .synSent ∧ s.synRetries = 64 ∧
        s.synRetries < KcpConfig.subMillisecond.synMaxRetries) ∧
      ¬ c.BackoffExact .subMillisecond := by
  let tick : Tick := ⟨1000, 1000, fun _ => 1000, [canonicalize .remote]⟩
  have run : ((clockedMachine SampleKcp 1 .subMillisecond).exec Clocked.Timely
      (clockedMachine SampleKcp 1 .subMillisecond).start
      (.send .remote [1] .ten .sample .sample :: List.replicate 64 (.tick tick .sample))).any
        (fun c => (c.peer.sessions.find (canonicalize .remote)).any fun (_, s) =>
          !s.closed && decide (s.inner.state = .synSent) && decide (s.synRetries = 64)) = true := by
    decide +kernel
  obtain ⟨c, reached, checked⟩ := Machine.Reach.exec_any _ run
  obtain ⟨⟨id, s⟩, found, checked⟩ := (Option.any_eq_true ..).mp checked
  simp only [Bool.and_eq_true, Bool.not_eq_true', decide_eq_true_eq] at checked
  obtain ⟨⟨isOpen, waiting⟩, count⟩ := checked
  have more : s.synRetries < KcpConfig.subMillisecond.synMaxRetries := by
    rw [count]
    decide
  refine ⟨c, reached, ⟨id, s, found, isOpen, waiting, count, more⟩, ?_⟩
  intro exact
  have small := (exact _ id s found isOpen waiting more).1
  rw [count] at small
  exact absurd small (by decide)

end KcpPeer
