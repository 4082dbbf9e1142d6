import KcpPeer.Attempts
import KcpPeer.Backoff

set_option autoImplicit false

namespace KcpPeer

/-- The operation is no datagram from the address and no `disconnect` of it. -/
def PeerOp.spares (can : CanonicalAddr) : PeerOp → Bool
  | .incoming _ src .. => decide (canonicalize src ≠ can)
  | .disconnect peer _ => decide (canonicalize peer ≠ can)
  | .send .. | .tick .. => true

/-- The later of two readings of the clock. -/
def later (left right : UInt64) : UInt64 := if left < right then right else left

theorem le_later_left (left right : UInt64) : left ≤ later left right := by
  unfold later
  split
  · rename_i below
    exact UInt64.le_of_lt below
  · exact UInt64.le_refl _

theorem le_later_right (left right : UInt64) : right ≤ later left right := by
  unfold later
  split
  · exact UInt64.le_refl _
  · rename_i above
    exact UInt64.not_lt.mp above

/-- The ticks of a run that come at least `gap` after the last reading of the clock that a
SYN toward the address may have been sent at. -/
def pauses (gap : UInt64) (can : CanonicalAddr) : UInt64 → List PeerOp → Nat
  | _, [] => 0
  | last, .tick tick _ :: rest =>
      (if gap ≤ saturatingSub tick.nowEpoch last then 1 else 0) +
        pauses gap can (later last (tick.retryClock can)) rest
  | last, _ :: rest => pauses gap can last rest

namespace Session

variable {K : Type} [Kcp K]

/-- A waiting session that a tick does not give up is left alone, or sends one more SYN. -/
theorem scan_retries {s : Session K} {config : KcpConfig} {tick : Tick} {socket : Socket}
    (now : UInt64) (opened : s.closed = false) (waiting : s.inner.state = .synSent)
    (spared : s.deserves config tick socket = false) :
    s.synRetries < config.synMaxRetries ∧
      (s.scan config tick now socket).1 =
        if saturatingSub tick.nowEpoch s.synSentAt < retryWait config s.synRetries then s
        else { s with synSentAt := now, synRetries := s.synRetries + 1 } := by
  simp only [deserves, opened, waiting, Bool.not_false, Bool.true_and, Bool.or_eq_false_iff,
    decide_eq_false_iff_not] at spared
  refine ⟨UInt32.not_le.mp spared.2, ?_⟩
  simp only [scan, opened, update, waiting, maybeRetrySyn, retrySyn, spared.2, Bool.false_eq_true,
    ↓reduceIte]
  by_cases early : saturatingSub tick.nowEpoch s.synSentAt < retryWait config s.synRetries
  · simp only [early, ↓reduceIte]
  · simp only [early, ↓reduceIte]

end Session

theorem saturatingSub_mono {now first last : UInt64} (le : first ≤ last) :
    saturatingSub now last ≤ saturatingSub now first := by
  rw [UInt64.le_iff_toNat_le] at le
  rw [UInt64.le_iff_toNat_le, Session.saturatingSub_toNat, Session.saturatingSub_toNat]
  omega

namespace Peer

variable {K : Type} [Kcp K] {can : CanonicalAddr} {id : SessionId} {p p' : Peer K}

/-- The session still waits, after at least `tried` retries and with its last SYN sent no
later than `last`. -/
def Waits (can : CanonicalAddr) (id : SessionId) (last : UInt64) (tried : Nat) (p : Peer K) :
    Prop :=
  ∃ s, p.sessions.find can = some (id, s) ∧ s.inner.state = .synSent ∧ s.synSentAt ≤ last ∧
    tried ≤ s.synRetries.toNat

/-- The session was given up, with one `Disconnected` and no other event. -/
def GaveUp (id : SessionId) (p : Peer K) : Prop :=
  p.Gone id ∧ eventsOf id p.log = [.disconnected]

omit [Kcp K] in
theorem eventsOf_trace (same : p'.trace id = p.trace id) :
    eventsOf id p'.log = eventsOf id p.log := by
  have filtered : ∀ log : List LogEntry,
      eventsOf id (log.filter fun entry => decide (entry.session = id)) = eventsOf id log := by
    intro log
    rw [eventsOf, eventsOf, List.filterMap_filter]
    apply List.filterMap_congr
    intro entry _
    cases entry with
    | event e id' => by_cases own : id' = id <;> simp [LogEntry.session, LogEntry.eventOf, own]
    | data msg id' => simp [LogEntry.eventOf]
  have logs := congrArg (fun trace => eventsOf id trace.2.1) same
  simp only [trace, filtered] at logs
  exact logs

theorem GaveUp.apply {op : PeerOp} (gaveUp : GaveUp id p) (keyed : p.registry.Keyed)
    (applied : p.apply op = some p') : GaveUp id p' := by
  obtain ⟨gone, same⟩ := apply_gone keyed applied gaveUp.1
  exact ⟨gone, (eventsOf_trace same).trans gaveUp.2⟩

/-- No operation but a tick does anything to a session that waits. -/
theorem Waits.apply {op : PeerOp} {last : UInt64} {tried : Nat} (waits : Waits can id last tried p)
    (spares : op.spares can = true) (other : ∀ tick socket, op ≠ .tick tick socket)
    (applied : p.apply op = some p') : Waits can id last tried p' := by
  obtain ⟨s, found, state, sentAt, counted⟩ := waits
  have kept : p'.sessions.find can = p.sessions.find can → Waits can id last tried p' :=
    fun same => ⟨s, same.trans found, state, sentAt, counted⟩
  cases op with
  | tick tick socket => exact absurd rfl (other tick socket)
  | disconnect peer socket =>
      obtain rfl := Option.some.inj applied
      exact kept ((disconnect_effects p peer socket).find_other
        (Ne.symm (of_decide_eq_true spares)))
  | incoming data src clock socket =>
      obtain rfl := Option.some.inj applied
      exact kept (handleIncoming_effects.find_other (Ne.symm (of_decide_eq_true spares)))
  | send peer data draw clock socket =>
      obtain rfl := Option.some.inj applied
      by_cases own : can = canonicalize peer
      · subst own
        obtain ⟨kcp, written⟩ := s.sendData_withKcp data clock.currentMs socket
        refine ⟨s.withKcp kcp, ?_, state, sentAt, counted⟩
        simp only [send, found, sendOn, written]
        exact find_setSession found _
      · exact kept ((send_effects p peer data draw clock socket).find_other own)

omit [Kcp K] in
/-- A session that the map names is open, and has caused no event while it waits. -/
theorem Lives.waiting (lives : p.registry.Lives) {s : Session K}
    (found : p.sessions.find can = some (id, s)) (state : s.inner.state = .synSent) :
    s.closed = false ∧ eventsOf id p.log = [] := by
  obtain ⟨named, present⟩ := Store.find_eq_some.mp found
  have visible : p.registry.sessions.object? id = some s.view := by
    rw [registry_object?, present, Option.map_some]
  have life := lives.life id s.view visible
  rw [names_registry.mpr ⟨can, named⟩] at life
  have history : eventsOf id p.registry.log = eventsOf id p.log := rfl
  rw [history] at life
  generalize eventsOf id p.log = events at life ⊢
  cases life with
  | waiting opened _ => exact ⟨opened, rfl⟩
  | established _ ready =>
      have ready : s.inner.state = .established := ready
      rw [state] at ready
      cases ready

omit [Kcp K] in
/-- A session that is closed was given up if no `Connected` was ever about it. -/
theorem Lives.gaveUp (lives : p.registry.Lives) {s : Session K}
    (present : p.sessions.object? id = some s) (closed : s.closed = true)
    (silent : .connected ∉ eventsOf id p.log) : GaveUp id p := by
  have visible : p.registry.sessions.object? id = some s.view := by
    rw [registry_object?, present, Option.map_some]
  have life := lives.life id s.view visible
  have history : eventsOf id p.registry.log = eventsOf id p.log := rfl
  rw [history] at life
  have named : p.registry.names id = true ↔ ∃ can, p.sessions.lookup can = some id :=
    names_registry
  generalize p.registry.names id = there at life named
  have gone : there = false → p.Gone id := by
    rintro rfl
    exact ⟨Store.object?_lt present, fun can same => by simpa using named.mpr ⟨can, same⟩⟩
  generalize events : eventsOf id p.log = told at life silent
  cases life with
  | waiting opened _ => cases opened.symm.trans closed
  | established opened _ => cases opened.symm.trans closed
  | abandoned _ _ => exact ⟨gone rfl, events⟩
  | ended _ _ _ => simp at silent

theorem Waits.tick {gap last : UInt64} {tried : Nat} {tick : Tick} {socket : Socket}
    (lives : p.registry.Lives) (lives' : p'.registry.Lives)
    (paced : ∀ r < p.config.synMaxRetries, Session.retryWait p.config r ≤ gap)
    (waits : Waits can id last tried p) (applied : p.apply (.tick tick socket) = some p') :
    GaveUp id p' ∨ Waits can id (later last (tick.retryClock can))
      (tried + if gap ≤ saturatingSub tick.nowEpoch last then 1 else 0) p' := by
  obtain ⟨s, found, state, sentAt, counted⟩ := waits
  obtain ⟨opened, silent⟩ := Lives.waiting lives found state
  obtain ⟨order, rfl⟩ := apply_tick applied
  have perm := List.isPerm_iff.mp order
  have nodup : tick.order.Nodup := perm.nodup_iff.mpr p.sessions.keys_nodup
  cases due : s.deserves p.config tick socket with
  | true =>
      obtain ⟨_, s', present, closed⟩ := updateTick_removes perm nodup found due
      refine Or.inl (Lives.gaveUp lives' present closed ?_)
      have goodbyes : (p.updateTick tick socket).log = p.log ++
          (tick.order.filter (p.deserves tick socket)).filterMap p.disconnectedEvent :=
        (updateTick_says_goodbye perm nodup).1
      rw [goodbyes, eventsOf, List.filterMap_append]
      intro connected
      rcases List.mem_append.mp connected with before | goodbye
      · exact absurd (silent ▸ before : Lifecycle.connected ∈ ([] : List Lifecycle))
          List.not_mem_nil
      · obtain ⟨entry, mem, told⟩ := List.mem_filterMap.mp goodbye
        obtain ⟨key, _, farewell⟩ := List.mem_filterMap.mp mem
        obtain ⟨entry', _, rfl⟩ := Option.map_eq_some_iff.mp farewell
        simp [LogEntry.eventOf, Event.kind] at told
  | false =>
      obtain ⟨below, scanned⟩ := Session.scan_retries (tick.retryClock can) opened state due
      have found' : (p.updateTick tick socket).sessions.find can = _ :=
        find_updateTick perm nodup can
      simp only [deserves, found, due, Bool.false_eq_true, ↓reduceIte, Option.map_some,
        scanned] at found'
      refine Or.inr ⟨_, found', ?_⟩
      by_cases early : saturatingSub tick.nowEpoch s.synSentAt <
          Session.retryWait p.config s.synRetries
      · have soon : ¬ gap ≤ saturatingSub tick.nowEpoch last := by
          intro late
          have le :=
            UInt64.le_trans (paced _ below) (UInt64.le_trans late (saturatingSub_mono sentAt))
          exact absurd early (UInt64.not_lt.mpr le)
        rw [if_pos early, if_neg soon]
        exact ⟨state, UInt64.le_trans sentAt (le_later_left ..), counted⟩
      · rw [if_neg early]
        refine ⟨state, le_later_right .., ?_⟩
        simp only [toNat_retry below]
        split
        · omega
        · omega

theorem config_apply {op : PeerOp} (keyed : p.registry.Keyed) (applied : p.apply op = some p') :
    p'.config = p.config :=
  ((apply_effects applied keyed).invariant (P := fun q => q.config = p.config)
    (fun _ _ _ effect _ same => effect.config.trans same) keyed rfl).2

theorem Waits.step {op : PeerOp} {gap last : UInt64} {tried : Nat} (keyed : p.registry.Keyed)
    (lives : p.registry.Lives)
    (paced : ∀ r < p.config.synMaxRetries, Session.retryWait p.config r ≤ gap)
    (spares : op.spares can = true) (waits : Waits can id last tried p)
    (applied : p.apply op = some p') (rest : List PeerOp) :
    GaveUp id p' ∨ ∃ last' tried', Waits can id last' tried' p' ∧
      tried + pauses gap can last (op :: rest) = tried' + pauses gap can last' rest := by
  by_cases isTick : ∃ tick socket, op = .tick tick socket
  · obtain ⟨tick, socket, rfl⟩ := isTick
    have lives' := Registry.lives_of_steps (apply_steps applied keyed) lives
    refine (waits.tick lives lives' paced applied).imp_right fun waits' => ?_
    exact ⟨_, _, waits', (Nat.add_assoc ..).symm⟩
  · have other : ∀ tick socket, op ≠ .tick tick socket :=
      fun tick socket same => isTick ⟨tick, socket, same⟩
    refine Or.inr ⟨last, tried, waits.apply spares other applied, ?_⟩
    cases op with
    | tick tick socket => exact absurd rfl (other tick socket)
    | send => rfl
    | disconnect => rfl
    | incoming => rfl

theorem GaveUp.exec {incarnation : UInt64} {config : KcpConfig} (ops : List PeerOp)
    (keyed : p.registry.Keyed) (gaveUp : GaveUp id p)
    (ran : (peerMachine K incarnation config).exec Machine.always p ops = some p') :
    GaveUp id p' := by
  induction ops generalizing p with
  | nil =>
      obtain rfl := Option.some.inj ran
      exact gaveUp
  | cons op rest ih =>
      obtain ⟨next, applied, ran⟩ := Option.bind_eq_some_iff.mp ran
      exact ih (Registry.keyed_of_steps (apply_steps applied keyed) keyed)
        (gaveUp.apply keyed applied) ran

/-- A run of operations that leave the address alone. -/
theorem Waits.exec {incarnation : UInt64} {config : KcpConfig} {gap : UInt64}
    (ops : List PeerOp) (spared : ∀ op ∈ ops, op.spares can = true) (keyed : p.registry.Keyed)
    (lives : p.registry.Lives)
    (paced : ∀ r < p.config.synMaxRetries, Session.retryWait p.config r ≤ gap)
    {last : UInt64} {tried : Nat} (waits : Waits can id last tried p)
    (ran : (peerMachine K incarnation config).exec Machine.always p ops = some p') :
    GaveUp id p' ∨ ∃ last', Waits can id last' (tried + pauses gap can last ops) p' := by
  induction ops generalizing p last tried with
  | nil =>
      obtain rfl := Option.some.inj ran
      exact Or.inr ⟨last, waits⟩
  | cons op rest ih =>
      obtain ⟨next, applied, ran⟩ := Option.bind_eq_some_iff.mp ran
      have keyed' := Registry.keyed_of_steps (apply_steps applied keyed) keyed
      rcases waits.step keyed lives paced (spared op List.mem_cons_self) applied rest with
        ended | ⟨last', tried', waits', same⟩
      · exact Or.inl (ended.exec rest keyed' ran)
      · rw [same]
        refine ih (fun op mem => spared op (List.mem_cons_of_mem _ mem)) keyed'
          (Registry.lives_of_steps (apply_steps applied keyed) lives) ?_ waits' ran
        rw [config_apply keyed applied]
        exact paced

section Reached

variable {incarnation : UInt64} {config : KcpConfig} {s : Session K}

theorem config_reached (reached : (peerMachine K incarnation config).Reach Machine.always p) :
    p.config = config := by
  refine reached.invariant_with (P := fun q => q.config = config)
    (fun _ => peerMachine_keyed) rfl ?_
  intro before op after same keyed _ applied
  exact (config_apply keyed applied).trans same

/-- No object of a reachable state has used up more retries than there are. -/
theorem retries_le (reached : (peerMachine K incarnation config).Reach Machine.always p)
    (present : p.sessions.object? id = some s) :
    s.synRetries.toNat ≤ config.synMaxRetries.toNat := by
  have bound := (peerMachine_attempted reached).bounded id s present
  rw [config_reached reached] at bound
  exact UInt32.le_iff_toNat_le.mp bound

theorem retriesOf_le (reached : (peerMachine K incarnation config).Reach Machine.always p)
    (id : SessionId) : p.retriesOf id ≤ config.synMaxRetries.toNat := by
  unfold retriesOf
  cases present : p.sessions.object? id with
  | none => exact Nat.zero_le _
  | some s => exact retries_le reached present

end Reached

end Peer

/-- An unanswered handshake ends. No session object ever submits more SYNs than its first
and `syn_max_retries` more. Where nothing comes from the address of a waiting session and it
is not disconnected, whatever else happens, each tick that comes a `gap` after the one before
costs the session one of its retries, so that after as many such ticks as there are retries
left, and one more, it is gone, and its only event is one `Disconnected`. -/
theorem unanswered_handshakes_end (K : Type) [Kcp K] (incarnation : UInt64) (config : KcpConfig)
    (p : Peer K) (reached : (peerMachine K incarnation config).Reach Machine.always p) :
    (∀ i, synsOf i p.outbox ≤ config.synMaxRetries.toNat + 1) ∧
      ∀ gap : UInt64, (∀ r < config.synMaxRetries, Session.retryWait config r ≤ gap) →
        ∀ (can : CanonicalAddr) (id : SessionId) (s : Session K),
          p.sessions.find can = some (id, s) → s.inner.state = .synSent →
          ∀ ops : List PeerOp, (∀ op ∈ ops, op.spares can = true) →
          ∀ p' : Peer K, (peerMachine K incarnation config).exec Machine.always p ops = some p' →
          config.synMaxRetries.toNat < s.synRetries.toNat + pauses gap can s.synSentAt ops →
          (∀ key, p'.sessions.lookup key ≠ some id) ∧ eventsOf id p'.log = [.disconnected] := by
  obtain ⟨counted, _⟩ := peerMachine_attempted reached
  refine ⟨fun i => ?_, ?_⟩
  · have count := counted i
    have limit := Peer.retriesOf_le reached i
    split at count
    · omega
    · omega
  · intro gap paced can id s found waiting ops spared p' ran many
    have keyed := peerMachine_keyed reached
    have waits : Peer.Waits can id s.synSentAt s.synRetries.toNat p :=
      ⟨s, found, waiting, UInt64.le_refl _, Nat.le_refl _⟩
    have paced' : ∀ r < p.config.synMaxRetries, Session.retryWait p.config r ≤ gap := by
      rw [Peer.config_reached reached]
      exact paced
    rcases waits.exec ops spared keyed (peerMachine_lives reached) paced' ran with
      ⟨gone, events⟩ | ⟨_, s', found', _, _, tried⟩
    · exact ⟨gone.unnamed, events⟩
    · have reached' : (peerMachine K incarnation config).Reach Machine.always p' :=
        .exec ops (fun _ _ _ allowed => allowed) reached ran
      have most := Peer.retries_le reached' (Store.find_eq_some.mp found').2
      omega

/-- A tick that finds every clock at `now`. -/
def Tick.lone (now : UInt64) : Tick :=
  ⟨now.toUInt32, now, fun _ => now, [canonicalize .remote]⟩

/-- Five retries and one tick more, 3000 ms apart. -/
theorem unanswered_handshakes_end_default :
    ∃ p p' : Peer SampleKcp,
      (peerMachine SampleKcp 1 .default).Reach Machine.always p ∧
      (peerMachine SampleKcp 1 .default).exec Machine.always p
        ([4000, 7000, 10000, 13000, 16000, 19000].map fun now => .tick (.lone now) .sample) =
          some p' ∧
      (∀ key, p'.sessions.lookup key ≠ some 0) ∧ eventsOf 0 p'.log = [.disconnected] ∧
      synsOf 0 p'.outbox ≤ 6 := by
  let ops : List PeerOp :=
    [4000, 7000, 10000, 13000, 16000, 19000].map fun now => .tick (.lone now) .sample
  have run : ((peerMachine SampleKcp 1 .default).exec Machine.always
      (peerMachine SampleKcp 1 .default).start
      [.send .remote [1] .ten .sample .sample]).any (fun p =>
        (p.sessions.find (canonicalize .remote)).any (fun entry => decide (entry.1 = 0) &&
          decide (entry.2.inner.state = .synSent) &&
          decide (5 < entry.2.synRetries.toNat +
            pauses 2400 (canonicalize .remote) entry.2.synSentAt ops)) &&
        ((peerMachine SampleKcp 1 .default).exec Machine.always p ops).isSome) = true := by
    decide +kernel
  obtain ⟨p, reached, checked⟩ := Machine.Reach.exec_any _ run
  simp only [Bool.and_eq_true] at checked
  obtain ⟨held, went⟩ := checked
  obtain ⟨⟨id, s⟩, found, held⟩ := (Option.any_eq_true ..).mp held
  simp only [Bool.and_eq_true, decide_eq_true_eq] at held
  obtain ⟨⟨rfl, waiting⟩, many⟩ := held
  obtain ⟨p', ran⟩ := Option.isSome_iff_exists.mp went
  have paced : ∀ r < KcpConfig.default.synMaxRetries,
      Session.retryWait KcpConfig.default r ≤ 2400 := by
    intro r below
    have cases : r = 0 ∨ r = 1 ∨ r = 2 ∨ r = 3 ∨ r = 4 := by
      have below : r.toNat < 5 := UInt32.lt_iff_toNat_lt.mp below
      simp only [← UInt32.toNat_inj, UInt32.reduceToNat]
      omega
    rcases cases with rfl | rfl | rfl | rfl | rfl <;> decide
  have reached' : (peerMachine SampleKcp 1 .default).Reach Machine.always p' :=
    .exec ops (fun _ _ _ allowed => allowed) reached ran
  obtain ⟨gone, events⟩ := (unanswered_handshakes_end SampleKcp 1 .default p reached).2 2400 paced
    (canonicalize .remote) 0 s found waiting ops (by decide) p' ran many
  exact ⟨p, p', reached, ran, gone, events,
    (unanswered_handshakes_end SampleKcp 1 .default p' reached').1 0⟩

end KcpPeer
