import KcpPeer.SampleKcp
import KcpPeer.SessionStep

set_option autoImplicit false

namespace KcpPeer

namespace Session

variable {K : Type} [Kcp K]

/-- The link is dead before the tick's `update`, or after one that returned `Ok`. -/
def deadLinked (s : Session K) (now : UInt32) (socket : Socket) : Bool :=
  Kcp.isDeadLink s.inner.kcp ||
    match Kcp.update s.inner.kcp now (DirectOutput.write socket s.peerAddr) with
    | (kcp, _, .ok _) => Kcp.isDeadLink kcp
    | (_, _, .error _) => false

/-- A tick has a reason to remove the session: its link is dead, its SYN retries are
used up, or nothing has been heard from its peer for too long. -/
def deserves (s : Session K) (config : KcpConfig) (tick : Tick) (socket : Socket) : Bool :=
  !s.closed &&
    (s.idleExpired config tick.nowEpoch ||
      match s.inner.state with
      | .established => s.deadLinked tick.nowMs socket
      | .synSent => decide (config.synMaxRetries ≤ s.synRetries))

/-- The flag of the scan is the reason to remove the session. -/
theorem scan_deserves (s : Session K) (config : KcpConfig) (tick : Tick) (now : UInt64)
    (socket : Socket) : (s.scan config tick now socket).2.2 = s.deserves config tick socket := by
  unfold scan deserves
  cases closed : s.closed with
  | true => rfl
  | false =>
      simp only [Bool.false_eq_true, ↓reduceIte, Bool.not_false, Bool.true_and]
      cases state : s.inner.state with
      | synSent =>
          simp only [update, state, maybeRetrySyn, closed, Bool.false_eq_true, ↓reduceIte, retrySyn]
          by_cases exhausted : config.synMaxRetries ≤ s.synRetries
          · simp only [exhausted, ↓reduceIte, decide_true, Bool.or_true]
          · simp only [exhausted, ↓reduceIte, decide_false, Bool.or_false]
            by_cases early : saturatingSub tick.nowEpoch s.synSentAt < retryWait config s.synRetries
            · simp only [early, ↓reduceIte]
            · simp only [early, ↓reduceIte]
              rfl
      | established =>
          simp only [update, state, deadLinked]
          cases dead : Kcp.isDeadLink s.inner.kcp with
          | true => simp only [↓reduceIte, Bool.true_or, Bool.or_true]
          | false =>
              simp only [Bool.false_eq_true, ↓reduceIte, Bool.false_or]
              rcases Kcp.update s.inner.kcp tick.nowMs (DirectOutput.write socket s.peerAddr) with
                ⟨kcp, out, e | _⟩
              · simp only [maybeRetrySyn, withKcp, closed, state, Bool.false_eq_true, ↓reduceIte,
                  Bool.or_false]
                rfl
              · dsimp only
                cases after : Kcp.isDeadLink kcp with
                | true => simp only [↓reduceIte, Bool.or_true]
                | false =>
                    simp only [maybeRetrySyn, withKcp, closed, state, Bool.false_eq_true,
                      ↓reduceIte, Bool.or_false]
                    rfl

theorem lastRx_maybeRetrySyn (s : Session K) (config : KcpConfig)
    (nowEpoch now : UInt64) (socket : Socket) :
    (s.maybeRetrySyn config nowEpoch now socket).1.lastRx = s.lastRx := by
  unfold maybeRetrySyn retrySyn
  repeat' split
  all_goals rfl

theorem scan_keeps (s : Session K) (config : KcpConfig) (tick : Tick) (now : UInt64)
    (socket : Socket) :
    (s.scan config tick now socket).1.view = s.view ∧
      (s.scan config tick now socket).1.lastRx = s.lastRx := by
  have updated : (s.update tick.nowMs socket).1.lastRx = s.lastRx := by
    obtain ⟨kcp, written⟩ := s.update_withKcp tick.nowMs socket
    rw [written]
    rfl
  refine ⟨s.view_scan config tick now socket, ?_⟩
  refine scan_rule (P := fun s' => s'.lastRx = s.lastRx) rfl updated ?_
  intro updated
  exact (lastRx_maybeRetrySyn ..).trans updated

/-- A RESET is no part of what a scan submits. -/
theorem scan_control (s : Session K) (config : KcpConfig) (tick : Tick) (now : UInt64)
    (socket : Socket) :
    ∀ o ∈ (s.scan config tick now socket).2.1, ∀ conv, o.bytes ≠ encodeControl .reset conv := by
  have written : ∀ o ∈ (s.update tick.nowMs socket).2.1, ∀ conv,
      o.bytes ≠ encodeControl .reset conv := by
    obtain ⟨bufs, _, written, _⟩ := s.update_writes tick.nowMs socket
    rw [written]
    intro o mem conv isReset
    obtain ⟨buf, _, rfl⟩ := List.mem_map.mp mem
    have read := congrArg splitPacket isReset
    change splitPacket (encodeKcpData buf) = _ at read
    simp at read
  have retried : ∀ (s : Session K), ∀ o ∈ (s.maybeRetrySyn config tick.nowEpoch now socket).2.1,
      ∀ conv, o.bytes ≠ encodeControl .reset conv := by
    intro s o mem conv isReset
    rcases s.maybeRetrySyn_output config tick.nowEpoch now socket with nothing | ⟨_, syn⟩
    · rw [nothing] at mem
      cases mem
    · rw [syn] at mem
      obtain rfl := List.mem_singleton.mp mem
      have read := congrArg splitPacket isReset
      change splitPacket (encodeControl .syn s.inner.convId) = _ at read
      simp at read
  intro o mem
  unfold scan at mem
  split at mem
  · cases mem
  · split at mem
    · rename_i updated
      rw [updated] at written
      exact written o mem
    · rename_i s₁ _ _ _ updated
      rw [updated] at written
      have second := retried s₁
      split at mem
      · rename_i result
        rw [result] at second
        exact (List.mem_append.mp mem).elim (written o) (second o)
      · rename_i result
        rw [result] at second
        exact (List.mem_append.mp mem).elim (written o) (second o)

end Session

namespace Peer

variable {K : Type}

/-- Every session keeps what is visible of it and its `last_rx`, and no RESET is
submitted. -/
structure Kept (p p' : Peer K) : Prop where
  config : p'.config = p.config
  sessions : ∀ can id s, p.sessions.find can = some (id, s) →
    ∃ s', p'.sessions.find can = some (id, s') ∧ s'.view = s.view ∧ s'.lastRx = s.lastRx
  outbox : ∃ out, p'.outbox = p.outbox ++ out ∧
    ∀ o ∈ out, ∀ conv, o.bytes ≠ encodeControl .reset conv

theorem Kept.refl (p : Peer K) : Kept p p where
  config := rfl
  sessions _ _ s found := ⟨s, found, rfl, rfl⟩
  outbox := ⟨[], (List.append_nil _).symm, nofun⟩

theorem Kept.trans {p p' p'' : Peer K} (first : Kept p p') (second : Kept p' p'') :
    Kept p p'' where
  config := second.config.trans first.config
  sessions can id s found := by
    obtain ⟨s', found', view, lastRx⟩ := first.sessions can id s found
    obtain ⟨s'', found'', view', lastRx'⟩ := second.sessions can id s' found'
    exact ⟨s'', found'', view'.trans view, lastRx'.trans lastRx⟩
  outbox := by
    obtain ⟨out, grown, control⟩ := first.outbox
    obtain ⟨out', grown', control'⟩ := second.outbox
    refine ⟨out ++ out', by rw [grown', grown, List.append_assoc], ?_⟩
    intro o mem
    rcases List.mem_append.mp mem with old | new
    · exact control o old
    · exact control' o new

theorem Kept.write {p : Peer K} {can : CanonicalAddr} {id : SessionId} {s s' : Session K}
    (found : p.sessions.find can = some (id, s)) (view : s'.view = s.view)
    (lastRx : s'.lastRx = s.lastRx) {out : List Submission}
    (control : ∀ o ∈ out, ∀ conv, o.bytes ≠ encodeControl .reset conv) :
    Kept p ((p.setSession id s').submit (some id) out) where
  config := rfl
  sessions can' id' s₀ found₀ := by
    by_cases own : can' = can
    · subst own
      rw [found] at found₀
      cases found₀
      exact ⟨s', find_setSession found s', view, lastRx⟩
    · exact ⟨s₀, (find_setSession_other found s' own).trans found₀, rfl, rfl⟩
  outbox := by
    refine ⟨_, rfl, ?_⟩
    intro o mem
    obtain ⟨submission, written, rfl⟩ := List.mem_map.mp mem
    exact control submission written

/-- The `Disconnected` of a removed session. -/
def disconnectedEvent (p : Peer K) (can : CanonicalAddr) : Option LogEntry :=
  (p.sessions.find can).map fun (id, s) => .event (.disconnected s.peerAddr) id

/-- The three RESETs to a removed session's peer. -/
def farewell (p : Peer K) (socket : Socket) (can : CanonicalAddr) : List Outgoing :=
  match p.sessions.find can with
  | none => []
  | some (_, s) =>
      List.replicate 3 ⟨socket.submit (encodeControl .reset s.inner.convId) s.peerAddr, none⟩

/-- A closed session is not opened again by a removal. -/
theorem prune_stays_closed (socket : Socket) (p : Peer K) (can : CanonicalAddr) {id : SessionId}
    (closed : ∃ s, p.sessions.object? id = some s ∧ s.closed = true) :
    ∃ s, (prune socket p can).sessions.object? id = some s ∧ s.closed = true := by
  unfold prune
  cases found : p.sessions.find can with
  | none => exact closed
  | some entry =>
      obtain ⟨id', s'⟩ := entry
      change ∃ s,
        ((p.sessions.remove can).modify id' fun _ => s'.markClosed).object? id = some s ∧ _
      rw [Store.object?_modify, Store.object?_remove]
      split
      · obtain ⟨s, present, _⟩ := closed
        rw [present]
        exact ⟨_, rfl, rfl⟩
      · exact closed

theorem foldl_prune_stays_closed (socket : Socket) (removed : List CanonicalAddr) (p : Peer K)
    {id : SessionId} (closed : ∃ s, p.sessions.object? id = some s ∧ s.closed = true) :
    ∃ s, (removed.foldl (prune socket) p).sessions.object? id = some s ∧ s.closed = true := by
  induction removed generalizing p with
  | nil => exact closed
  | cons head rest ih => exact ih _ (prune_stays_closed socket p head closed)

theorem foldl_prune_closes (socket : Socket) (removed : List CanonicalAddr) (p : Peer K)
    {can : CanonicalAddr} {id : SessionId} {s : Session K} (mem : can ∈ removed)
    (found : p.sessions.find can = some (id, s)) :
    ∃ s', (removed.foldl (prune socket) p).sessions.object? id = some s' ∧ s'.closed = true := by
  induction removed generalizing p with
  | nil => cases mem
  | cons head rest ih =>
      by_cases isHead : can = head
      · subst isHead
        refine foldl_prune_stays_closed socket rest (prune socket p can) ?_
        unfold prune
        rw [found]
        change ∃ s',
          ((p.sessions.remove can).modify id fun _ => s.markClosed).object? id = some s' ∧ _
        rw [Store.object?_modify_self, Store.object?_remove, (Store.find_eq_some.mp found).2]
        exact ⟨_, rfl, rfl⟩
      · rcases List.mem_cons.mp mem with same | inRest
        · exact absurd same isHead
        · exact ih _ inRest ((find_prune socket p head can).trans ((if_neg isHead).trans found))

/-- Each removal emits one `Disconnected` and submits three RESETs. -/
theorem foldl_prune_effect (socket : Socket) (removed : List CanonicalAddr) (nodup : removed.Nodup)
    (p : Peer K) :
    (removed.foldl (prune socket) p).log = p.log ++ removed.filterMap p.disconnectedEvent ∧
      (removed.foldl (prune socket) p).outbox =
        p.outbox ++ removed.flatMap (p.farewell socket) := by
  induction removed generalizing p with
  | nil => exact ⟨(List.append_nil _).symm, (List.append_nil _).symm⟩
  | cons can rest ih =>
      obtain ⟨notMem, nodup⟩ := List.nodup_cons.mp nodup
      have elsewhere : ∀ can' ∈ rest,
          (prune socket p can).sessions.find can' = p.sessions.find can' := by
        intro can' mem
        rw [find_prune, if_neg]
        rintro rfl
        exact notMem mem
      have events : rest.filterMap (prune socket p can).disconnectedEvent =
          rest.filterMap p.disconnectedEvent := by
        apply List.filterMap_congr
        intro can' mem
        simp only [disconnectedEvent, elsewhere can' mem]
      have resets : rest.flatMap ((prune socket p can).farewell socket) =
          rest.flatMap (p.farewell socket) := by
        apply List.flatMap_congr
        intro can' mem
        simp only [farewell, elsewhere can' mem]
      obtain ⟨log, outbox⟩ := ih nodup (prune socket p can)
      rw [List.foldl_cons, log, outbox, events, resets]
      unfold prune
      simp only [List.filterMap_cons, List.flatMap_cons, disconnectedEvent, farewell]
      cases p.sessions.find can with
      | none => exact ⟨rfl, rfl⟩
      | some entry =>
          refine ⟨?_, ?_⟩
          · simp [emit, setSession, sendReset, submit, removeKey]
          · simp [emit, setSession, sendReset, submit, removeKey]

/-- A scanned session is said goodbye to as it would have been before. -/
theorem Kept.goodbye {p p' : Peer K} (kept : Kept p p') {can : CanonicalAddr} {id : SessionId}
    {s : Session K} (found : p.sessions.find can = some (id, s)) (socket : Socket) :
    p'.disconnectedEvent can = p.disconnectedEvent can ∧
      p'.farewell socket can = p.farewell socket can := by
  obtain ⟨s', found', view, _⟩ := kept.sessions can id s found
  have peerAddr : s'.peerAddr = s.peerAddr := congrArg View.peerAddr view
  have convId : s'.inner.convId = s.inner.convId := congrArg View.convId view
  simp only [disconnectedEvent, farewell, found, found', Option.map_some, peerAddr, convId,
    and_self]

variable [Kcp K]

def deserves (p : Peer K) (tick : Tick) (socket : Socket) (can : CanonicalAddr) : Bool :=
  match p.sessions.find can with
  | none => false
  | some (_, s) => s.deserves p.config tick socket

theorem scanSession_deserves (p : Peer K) (tick : Tick) (socket : Socket) (can : CanonicalAddr) :
    (p.scanSession tick socket can).2 = p.deserves tick socket can := by
  rw [scanSession_eq, deserves]
  cases p.sessions.find can with
  | none => rfl
  | some entry => exact entry.2.scan_deserves ..

theorem scanSession_kept (p : Peer K) (tick : Tick) (socket : Socket) (can : CanonicalAddr) :
    Kept p (p.scanSession tick socket can).1 := by
  rw [scanSession_eq]
  cases found : p.sessions.find can with
  | none => exact .refl p
  | some entry =>
      obtain ⟨view, lastRx⟩ := entry.2.scan_keeps p.config tick (tick.retryClock can) socket
      exact .write found view lastRx
        (entry.2.scan_control p.config tick (tick.retryClock can) socket)

theorem scan_kept (tick : Tick) (socket : Socket) (order : List CanonicalAddr) (p : Peer K) :
    Kept p (scan tick socket order p).1 := by
  induction order generalizing p with
  | nil => exact .refl p
  | cons can rest ih =>
      simp only [scan]
      exact (scanSession_kept p tick socket can).trans (ih _)

/-- Scanning one session is no reason to remove another. -/
theorem deserves_scanSession (p : Peer K) (tick : Tick) (socket : Socket)
    {can can' : CanonicalAddr} (other : can' ≠ can) :
    (p.scanSession tick socket can).1.deserves tick socket can' = p.deserves tick socket can' := by
  have effects : EffectsAt (.tick tick socket) can p (p.scanSession tick socket can).1 :=
    scanSession_effects p tick socket
  simp only [deserves, effects.find_other other, (scanSession_kept p tick socket can).config]

/-- `to_remove` after the scan, in the order of the iteration. -/
theorem scan_toRemove (tick : Tick) (socket : Socket) (order : List CanonicalAddr)
    (nodup : order.Nodup) (p : Peer K) :
    (scan tick socket order p).2 = order.filter (p.deserves tick socket) := by
  induction order generalizing p with
  | nil => rfl
  | cons can rest ih =>
      obtain ⟨notMem, nodup⟩ := List.nodup_cons.mp nodup
      have others : rest.filter ((p.scanSession tick socket can).1.deserves tick socket) =
          rest.filter (p.deserves tick socket) := by
        apply List.filter_congr
        intro can' mem
        apply deserves_scanSession
        rintro rfl
        exact notMem mem
      simp only [scan]
      rw [ih nodup, others, scanSession_deserves, List.filter_cons]

theorem deserves_eq_true {p : Peer K} {tick : Tick} {socket : Socket} {can : CanonicalAddr} :
    p.deserves tick socket can = true ↔
      ∃ id s, p.sessions.find can = some (id, s) ∧ s.deserves p.config tick socket = true := by
  unfold deserves
  cases p.sessions.find can with
  | none => simp
  | some entry =>
      obtain ⟨id, s⟩ := entry
      simp

section Tick

variable {p : Peer K} {tick : Tick} {socket : Socket}

theorem updateTick_eq (nodup : tick.order.Nodup) :
    p.updateTick tick socket =
      (tick.order.filter (p.deserves tick socket)).foldl (prune socket)
        (scan tick socket tick.order p).1 := by
  rw [← scan_toRemove tick socket tick.order nodup]
  rfl

theorem mem_removed_iff (order : tick.order.Perm p.sessions.keys) {can : CanonicalAddr} :
    can ∈ tick.order.filter (p.deserves tick socket) ↔ p.deserves tick socket can = true := by
  refine ⟨fun mem => (List.mem_filter.mp mem).2, fun due => List.mem_filter.mpr ⟨?_, due⟩⟩
  obtain ⟨id, s, found, _⟩ := deserves_eq_true.mp due
  exact order.mem_iff.mpr (Store.mem_keys_iff.mpr ⟨id, (Store.find_eq_some.mp found).1⟩)

variable (order : tick.order.Perm p.sessions.keys) (nodup : tick.order.Nodup)

include order nodup

/-- The map after a tick. -/
theorem find_updateTick (can : CanonicalAddr) :
    (p.updateTick tick socket).sessions.find can =
      if p.deserves tick socket can then none
      else (p.sessions.find can).map fun (id, s) =>
        (id, (s.scan p.config tick (tick.retryClock can) socket).1) := by
  rw [updateTick_eq nodup, find_foldl_prune, find_scan tick socket tick.order nodup]
  simp only [mem_removed_iff order]
  split
  · rfl
  · cases found : p.sessions.find can with
    | none =>
        split
        · rfl
        · rfl
    | some entry =>
        have mem : can ∈ tick.order :=
          order.mem_iff.mpr (Store.mem_keys_iff.mpr ⟨_, (Store.find_eq_some.mp found).1⟩)
        simp only [mem, ↓reduceIte]

theorem updateTick_removes {can : CanonicalAddr} {id : SessionId} {s : Session K}
    (found : p.sessions.find can = some (id, s)) (due : s.deserves p.config tick socket = true) :
    (p.updateTick tick socket).sessions.find can = none ∧
      ∃ s', (p.updateTick tick socket).sessions.object? id = some s' ∧ s'.closed = true := by
  have mem := (mem_removed_iff order).mpr (deserves_eq_true.mpr ⟨id, s, found, due⟩)
  obtain ⟨s', found', _, _⟩ := (scan_kept tick socket tick.order p).sessions can id s found
  constructor
  · rw [find_updateTick order nodup, if_pos ((mem_removed_iff order).mp mem)]
  · rw [updateTick_eq nodup]
    exact foldl_prune_closes socket _ _ mem found'

theorem updateTick_spares {can : CanonicalAddr} {id : SessionId} {s : Session K}
    (found : p.sessions.find can = some (id, s))
    (spared : s.deserves p.config tick socket = false) :
    ∃ s', (p.updateTick tick socket).sessions.find can = some (id, s') ∧ s'.view = s.view ∧
      s'.lastRx = s.lastRx := by
  refine ⟨_, ?_, s.scan_keeps p.config tick (tick.retryClock can) socket⟩
  rw [find_updateTick order nodup]
  simp only [deserves, found, spared, Bool.false_eq_true, ↓reduceIte, Option.map_some]

theorem updateTick_says_goodbye :
    (p.updateTick tick socket).log =
        p.log ++ (tick.order.filter (p.deserves tick socket)).filterMap p.disconnectedEvent ∧
      ∃ out, (p.updateTick tick socket).outbox = p.outbox ++ out ++
          (tick.order.filter (p.deserves tick socket)).flatMap (p.farewell socket) ∧
        ∀ o ∈ out, ∀ conv, o.bytes ≠ encodeControl .reset conv := by
  have kept := scan_kept tick socket tick.order p
  have goodbye : ∀ can ∈ tick.order.filter (p.deserves tick socket),
      (scan tick socket tick.order p).1.disconnectedEvent can = p.disconnectedEvent can ∧
        (scan tick socket tick.order p).1.farewell socket can = p.farewell socket can := by
    intro can mem
    obtain ⟨id, s, found, _⟩ := deserves_eq_true.mp ((mem_removed_iff order).mp mem)
    exact kept.goodbye found socket
  obtain ⟨log, outbox⟩ := foldl_prune_effect socket _ (nodup.filter (p.deserves tick socket))
    (scan tick socket tick.order p).1
  rw [updateTick_eq nodup]
  constructor
  · rw [log, List.filterMap_congr fun can mem => (goodbye can mem).1]
    exact congrArg (· ++ _) (congrArg Registry.log (registry_scan tick socket tick.order p))
  · obtain ⟨out, grown, control⟩ := kept.outbox
    refine ⟨out, ?_, control⟩
    rw [outbox, grown, List.flatMap_congr fun can mem => (goodbye can mem).2]

end Tick

end Peer

/-- One tick removes the sessions that deserve it and no others. Each of them is closed,
and its peer gets three RESETs and its owner one `Disconnected`, in the order of the
iteration; every other session stays in the map as it was. -/
theorem tick_prunes_deserving (K : Type) [Kcp K] (p : Peer K) (tick : Tick) (socket : Socket)
    (order : tick.order.Perm p.sessions.keys) :
    let p' := p.updateTick tick socket
    let removed := tick.order.filter (p.deserves tick socket)
    (∀ can id s, p.sessions.find can = some (id, s) → s.deserves p.config tick socket = true →
        p'.sessions.find can = none ∧
          ∃ s', p'.sessions.object? id = some s' ∧ s'.closed = true) ∧
      (∀ can id s, p.sessions.find can = some (id, s) →
        s.deserves p.config tick socket = false →
        ∃ s', p'.sessions.find can = some (id, s') ∧ s'.view = s.view ∧ s'.lastRx = s.lastRx) ∧
      (∀ can, p.sessions.find can = none → p'.sessions.find can = none) ∧
      removed.Nodup ∧ (∀ can, can ∈ removed ↔ p.deserves tick socket can = true) ∧
      p'.log = p.log ++ removed.filterMap p.disconnectedEvent ∧
      ∃ out, p'.outbox = p.outbox ++ out ++ removed.flatMap (p.farewell socket) ∧
        ∀ o ∈ out, ∀ conv, o.bytes ≠ encodeControl .reset conv := by
  intro p' removed
  have nodup : tick.order.Nodup := order.nodup_iff.mpr p.sessions.keys_nodup
  refine ⟨?_, ?_, ?_, nodup.filter _, ?_, Peer.updateTick_says_goodbye order nodup⟩
  · intro can id s found due
    exact Peer.updateTick_removes order nodup found due
  · intro can id s found spared
    exact Peer.updateTick_spares order nodup found spared
  · intro can absent
    change (p.updateTick tick socket).sessions.find can = none
    rw [Peer.find_updateTick order nodup, absent]
    split
    · rfl
    · rfl
  · intro can
    exact Peer.mem_removed_iff order

/-- The peer of 10.0.0.2, last heard of at 1000 ms, and a tick at 62000 ms. -/
theorem tick_prunes_deserving_idle :
    ∃ (p : Peer SampleKcp) (tick : Tick),
      (peerMachine SampleKcp 1 .default).Reach Machine.always p ∧
      tick.order.Perm p.sessions.keys ∧ p.deserves tick .sample (canonicalize .remote) = true ∧
      (p.updateTick tick .sample).sessions.find (canonicalize .remote) = none ∧
      (p.updateTick tick .sample).log = p.log ++ [.event (.disconnected .remote) 0] := by
  let p : Peer SampleKcp :=
    ((Peer.bind 1 .default).handleIncoming (encodeControl .syn 20) .remote .sample .sample).1
  let tick : Tick := ⟨62000, 62000, fun _ => 62000, [canonicalize .remote]⟩
  have taken : (peerMachine SampleKcp 1 .default).step (.bind 1 .default)
      (.incoming (encodeControl .syn 20) .remote .sample .sample) = some p := rfl
  have order : tick.order.Perm p.sessions.keys := .refl _
  have due : p.deserves tick .sample (canonicalize .remote) = true := by decide +kernel
  obtain ⟨removes, _, _, _, _, log, _⟩ := tick_prunes_deserving SampleKcp p tick .sample order
  obtain ⟨id, s, found, dueNow⟩ := Peer.deserves_eq_true.mp due
  refine ⟨p, tick, .step .start trivial taken, order, due, (removes _ id s found dueNow).1, ?_⟩
  rw [log]
  decide +kernel

end KcpPeer
