import KcpPeer.Isolation
import KcpPeer.Lib.Confluence
import KcpPeer.Unread

set_option autoImplicit false

namespace KcpPeer

/-- The address an entry of the history is about. -/
def LogEntry.address : LogEntry → CanonicalAddr
  | .event e _ => canonicalize e.peer
  | .data msg _ => canonicalize msg.peer

def Outgoing.address (o : Outgoing) : CanonicalAddr := canonicalize o.dest

namespace Session

variable {K : Type} [Kcp K]

theorem scan_dest (s : Session K) (config : KcpConfig) (tick : Tick) (now : UInt64)
    (socket : Socket) : ∀ o ∈ (s.scan config tick now socket).2.1, o.dest = s.peerAddr := by
  have updated : ∀ o ∈ (s.update tick.nowMs socket).2.1, o.dest = s.peerAddr := by
    obtain ⟨bufs, _, written, _⟩ := s.update_writes tick.nowMs socket
    rw [written]
    intro o mem
    obtain ⟨buf, _, rfl⟩ := List.mem_map.mp mem
    rfl
  have retried : ∀ o ∈ ((s.update tick.nowMs socket).1.maybeRetrySyn config tick.nowEpoch now
      socket).2.1, o.dest = s.peerAddr := by
    obtain ⟨kcp, written⟩ := s.update_withKcp tick.nowMs socket
    rw [written]
    rcases (s.withKcp kcp).maybeRetrySyn_output config tick.nowEpoch now socket with
      nothing | ⟨_, syn⟩
    · rw [nothing]
      simp
    · rw [syn]
      intro o mem
      rw [List.mem_singleton.mp mem]
      rfl
  intro o mem
  unfold scan at mem
  split at mem
  · cases mem
  · split at mem
    · rename_i result
      rw [result] at updated
      exact updated o mem
    · rename_i result
      rw [result] at updated retried
      split at mem
      · rename_i result'
        rw [result'] at retried
        exact (List.mem_append.mp mem).elim (updated o) (retried o)
      · rename_i result'
        rw [result'] at retried
        exact (List.mem_append.mp mem).elim (updated o) (retried o)

end Session

namespace Peer

variable {K : Type}

/-- Two peers that differ in the order of their log and of their outbox only, and
agree on the order of what is about one address. -/
structure Shuffled (p q : Peer K) : Prop where
  rest : { q with log := p.log, outbox := p.outbox } = p
  log : ∀ can, (q.log.filter fun e => decide (e.address = can)) =
    p.log.filter fun e => decide (e.address = can)
  outbox : ∀ can, (q.outbox.filter fun o => decide (o.address = can)) =
    p.outbox.filter fun o => decide (o.address = can)

namespace Shuffled

variable {p q r : Peer K}

theorem refl (p : Peer K) : Shuffled p p := ⟨rfl, fun _ => rfl, fun _ => rfl⟩

theorem trans (first : Shuffled p q) (second : Shuffled q r) : Shuffled p r := by
  refine ⟨?_, fun can => (second.log can).trans (first.log can),
    fun can => (second.outbox can).trans (first.outbox can)⟩
  have outer := first.rest
  rw [← second.rest] at outer
  exact outer

theorem sessions (shuffled : Shuffled p q) : q.sessions = p.sessions := by
  have same := congrArg Peer.sessions shuffled.rest
  exact same

theorem keyed (shuffled : Shuffled p q) (keyed : p.registry.Keyed) : q.registry.Keyed := by
  rw [keyed_iff] at keyed ⊢
  rwa [shuffled.sessions]

/-- Both are one peer without a history, put behind two histories. -/
theorem common (shuffled : Shuffled p q) : ∃ base : Peer K,
    p = base.recast id p.log p.outbox ∧ q = base.recast id q.log q.outbox := by
  refine ⟨{ p with log := [], outbox := [] }, ?_, ?_⟩
  · simp only [recast_id, List.append_nil]
  · rw [recast_id]
    simp only [List.append_nil]
    conv_rhs => rw [← shuffled.rest]

theorem behind (shuffled : Shuffled p q) (base : Peer K) :
    Shuffled (base.recast id p.log p.outbox) (base.recast id q.log q.outbox) := by
  simp only [recast_id]
  refine ⟨rfl, fun can => ?_, fun can => ?_⟩
  · simp only [List.filter_append, shuffled.log can]
  · simp only [List.filter_append, shuffled.outbox can]

/-- A function that does not read the histories keeps them shuffled. -/
theorem map (shuffled : Shuffled p q) (f : Peer K → Peer K)
    (unread : ∀ log outbox p, f (recast id log outbox p) = (f p).recast id log outbox) :
    Shuffled (f p) (f q) := by
  obtain ⟨base, left, right⟩ := shuffled.common
  rw [left, right, unread, unread]
  exact shuffled.behind (f base)

theorem apply [Kcp K] (shuffled : Shuffled p q) {op : PeerOp} {p' : Peer K}
    (applied : p.apply op = some p') : ∃ q', q.apply op = some q' ∧ Shuffled p' q' := by
  obtain ⟨base, left, right⟩ := shuffled.common
  rw [left, apply_recast, Option.map_eq_some_iff] at applied
  obtain ⟨after, applied, rfl⟩ := applied
  refine ⟨after.recast id q.log q.outbox, ?_, shuffled.behind after⟩
  conv_lhs => rw [right]
  rw [apply_recast, applied, Option.map_some]

/-- Two stretches of history about two addresses, in either order. -/
theorem exchange {can can' : CanonicalAddr} (other : can ≠ can') (p : Peer K)
    (sessions : Store CanonicalAddr (Session K)) {logged logged' : List LogEntry}
    {sent sent' : List Outgoing}
    (aboutLog : ∀ e ∈ logged, e.address = can) (aboutLog' : ∀ e ∈ logged', e.address = can')
    (aboutOut : ∀ o ∈ sent, o.address = can) (aboutOut' : ∀ o ∈ sent', o.address = can') :
    Shuffled
      { p with
        sessions := sessions
        log := p.log ++ logged ++ logged'
        outbox := p.outbox ++ sent ++ sent' }
      { p with
        sessions := sessions
        log := p.log ++ logged' ++ logged
        outbox := p.outbox ++ sent' ++ sent } :=
  ⟨rfl, List.filter_exchange LogEntry.address aboutLog aboutLog' other p.log,
    List.filter_exchange Outgoing.address aboutOut aboutOut' other p.outbox⟩

end Shuffled

/-- The three RESETs of a removal, as they stand in the outbox. -/
def resets (socket : Socket) (s : Session K) : List Outgoing :=
  (List.replicate 3 (socket.submit (encodeControl .reset s.inner.convId) s.peerAddr)).map
    fun submission => ⟨submission, none⟩

theorem prune_absent {p : Peer K} {can : CanonicalAddr} (socket : Socket)
    (absent : p.sessions.find can = none) : prune socket p can = p := by
  simp only [prune, absent]

theorem prune_found {p : Peer K} {can : CanonicalAddr} {id : SessionId} {s : Session K}
    (socket : Socket) (found : p.sessions.find can = some (id, s)) :
    prune socket p can =
      { p with
        sessions := (p.sessions.remove can).modify id fun _ => s.markClosed
        log := p.log ++ [.event (.disconnected s.peerAddr) id]
        outbox := p.outbox ++ resets socket s } := by
  simp only [prune, found]
  rfl

theorem distinct {p : Peer K} {can can' : CanonicalAddr} {id id' : SessionId} {s s' : Session K}
    (found : p.sessions.find can = some (id, s)) (found' : p.sessions.find can' = some (id', s'))
    (other : can ≠ can') : id ≠ id' := by
  rintro rfl
  exact other (Store.lookup_injective (Store.find_eq_some.mp found).1
    (Store.find_eq_some.mp found').1)

theorem prune_exchange {p : Peer K} (keyed : p.registry.Keyed) {can can' : CanonicalAddr}
    (socket : Socket) (other : can ≠ can') :
    Shuffled (prune socket (prune socket p can) can') (prune socket (prune socket p can') can) := by
  have after := (find_prune socket p can can').trans (if_neg other.symm)
  have after' := (find_prune socket p can' can).trans (if_neg other)
  cases found : p.sessions.find can with
  | none =>
      rw [prune_absent socket found, prune_absent socket (after'.trans found)]
      exact .refl _
  | some entry =>
      obtain ⟨id, s⟩ := entry
      cases found' : p.sessions.find can' with
      | none =>
          rw [prune_absent socket found', prune_absent socket (after.trans found')]
          exact .refl _
      | some entry' =>
          obtain ⟨id', s'⟩ := entry'
          have farewell :
              ∀ e ∈ [LogEntry.event (.disconnected s.peerAddr) id], e.address = can := by
            simpa [LogEntry.address, Event.peer] using keyed_iff.mp keyed can id s found
          have farewell' : ∀ e ∈ [LogEntry.event (.disconnected s'.peerAddr) id'],
              e.address = can' := by
            simpa [LogEntry.address, Event.peer] using keyed_iff.mp keyed can' id' s' found'
          have toward : ∀ o ∈ resets socket s, o.address = can := by
            simpa [resets, Outgoing.address, Socket.submit] using keyed_iff.mp keyed can id s found
          have toward' : ∀ o ∈ resets socket s', o.address = can' := by
            simpa [resets, Outgoing.address, Socket.submit] using
              keyed_iff.mp keyed can' id' s' found'
          have store :
              (((p.sessions.remove can').modify id' fun _ => s'.markClosed).remove can).modify id
                (fun _ => s.markClosed) =
              (((p.sessions.remove can).modify id fun _ => s.markClosed).remove can').modify id'
                (fun _ => s'.markClosed) := by
            change (((p.sessions.remove can').remove can).modify id' _).modify id _ =
              (((p.sessions.remove can).remove can').modify id _).modify id' _
            rw [Store.remove_comm, Store.modify_comm _ _ _ (distinct found found' other).symm]
          rw [prune_found socket (after.trans found'), prune_found socket (after'.trans found),
            prune_found socket found, prune_found socket found']
          dsimp only
          rw [store]
          exact .exchange other p _ farewell farewell' toward toward'

variable [Kcp K]

theorem find_scanSession_other (p : Peer K) (tick : Tick) (socket : Socket)
    {can can' : CanonicalAddr} (other : can' ≠ can) :
    (p.scanSession tick socket can).1.sessions.find can' = p.sessions.find can' := by
  have effects : EffectsAt (.tick tick socket) can p (p.scanSession tick socket can).1 :=
    scanSession_effects p tick socket
  exact effects.find_other other

theorem scanSession_absent {p : Peer K} {can : CanonicalAddr} (tick : Tick) (socket : Socket)
    (absent : p.sessions.find can = none) : (p.scanSession tick socket can).1 = p := by
  rw [scanSession_eq, absent]

theorem scanSession_found {p : Peer K} {can : CanonicalAddr} {id : SessionId} {s : Session K}
    (tick : Tick) (socket : Socket) (found : p.sessions.find can = some (id, s)) :
    (p.scanSession tick socket can).1 =
      { p with
        sessions := p.sessions.modify id fun _ =>
          (s.scan p.config tick (tick.retryClock can) socket).1
        log := p.log ++ []
        outbox := p.outbox ++ (s.scan p.config tick (tick.retryClock can) socket).2.1.map
          fun submission => ⟨submission, some id⟩ } := by
  rw [scanSession_eq, found, List.append_nil]
  rfl

theorem scanSession_exchange {p : Peer K} (keyed : p.registry.Keyed) {can can' : CanonicalAddr}
    (tick : Tick) (socket : Socket) (other : can ≠ can') :
    Shuffled ((p.scanSession tick socket can).1.scanSession tick socket can').1
      ((p.scanSession tick socket can').1.scanSession tick socket can).1 := by
  have after := find_scanSession_other p tick socket other.symm
  have after' := find_scanSession_other p tick socket other
  cases found : p.sessions.find can with
  | none =>
      rw [scanSession_absent tick socket found, scanSession_absent tick socket (after'.trans found)]
      exact .refl _
  | some entry =>
      obtain ⟨id, s⟩ := entry
      cases found' : p.sessions.find can' with
      | none =>
          rw [scanSession_absent tick socket found',
            scanSession_absent tick socket (after.trans found')]
          exact .refl _
      | some entry' =>
          obtain ⟨id', s'⟩ := entry'
          have toward : ∀ {can : CanonicalAddr} {id : SessionId} {s : Session K} {now : UInt64},
              p.sessions.find can = some (id, s) →
              ∀ o ∈ (s.scan p.config tick now socket).2.1.map
                (fun submission => (⟨submission, some id⟩ : Outgoing)), o.address = can := by
            intro can id s now found o mem
            obtain ⟨submission, sent, rfl⟩ := List.mem_map.mp mem
            have dest := s.scan_dest p.config tick now socket submission sent
            exact (congrArg canonicalize dest).trans (keyed_iff.mp keyed can id s found)
          rw [scanSession_found tick socket (after.trans found'),
            scanSession_found tick socket (after'.trans found),
            scanSession_found tick socket found, scanSession_found tick socket found']
          dsimp only
          rw [Store.modify_comm _ _ _ (distinct found found' other).symm]
          have quiet : ∀ {can : CanonicalAddr}, ∀ e ∈ ([] : List LogEntry), e.address = can :=
            fun _ mem => absurd mem List.not_mem_nil
          exact .exchange other p _ quiet quiet (toward found) (toward found')

theorem confluent_scan (tick : Tick) (socket : Socket) :
    Confluent (fun (p : Peer K) can => (p.scanSession tick socket can).1)
      (fun p => p.registry.Keyed) Shuffled where
  refl := .refl
  trans := .trans
  keep := by
    intro p can keyed
    have effects : EffectsAt (.tick tick socket) can p (p.scanSession tick socket can).1 :=
      scanSession_effects p tick socket
    exact effects.keyed keyed
  congr := by
    intro p q can _ _ shuffled
    exact shuffled.map (fun p => (p.scanSession tick socket can).1) fun log outbox p =>
      congrArg Prod.fst (scanSession_recast id log outbox p tick socket can)
  exchange := fun keyed other => scanSession_exchange keyed tick socket other

omit [Kcp K] in
theorem confluent_prune (socket : Socket) :
    Confluent (prune socket (K := K)) (fun p => p.registry.Keyed) Shuffled where
  refl := .refl
  trans := .trans
  keep := by
    intro p can keyed
    rw [registry_prune]
    exact Registry.keyed_of_steps (Registry.prune_steps _ keyed can) keyed
  congr := by
    intro p q can _ _ shuffled
    exact shuffled.map (fun p => prune socket p can) fun log outbox p =>
      prune_recast id log outbox socket p can
  exchange := fun keyed other => prune_exchange keyed socket other

theorem scan_foldl (tick : Tick) (socket : Socket) (order : List CanonicalAddr) (p : Peer K) :
    (scan tick socket order p).1 =
      order.foldl (fun p can => (p.scanSession tick socket can).1) p := by
  induction order generalizing p with
  | nil => rfl
  | cons can rest ih =>
      simp only [scan, List.foldl_cons]
      exact ih _

/-- Two iterations of the map in different orders scan and remove the same sessions. -/
theorem updateTick_shuffled {p : Peer K} (keyed : p.registry.Keyed) {tick : Tick}
    (socket : Socket) {order : List CanonicalAddr} (perm : tick.order.Perm order)
    (nodup : tick.order.Nodup) :
    Shuffled (p.updateTick tick socket) (p.updateTick { tick with order := order } socket) := by
  have nodup' : order.Nodup := perm.nodup_iff.mp nodup
  have scanned : Shuffled (scan tick socket tick.order p).1 (scan tick socket order p).1 := by
    rw [scan_foldl, scan_foldl]
    exact (confluent_scan tick socket).foldl_perm perm nodup keyed
  have keyed' : (scan tick socket tick.order p).1.registry.Keyed := by
    rw [scan_foldl]
    exact (confluent_scan tick socket).foldl_keep tick.order keyed
  have reordered : p.updateTick { tick with order := order } socket =
      (order.filter (p.deserves tick socket)).foldl (prune socket)
        (scan tick socket order p).1 := by
    rw [← scan_toRemove tick socket order nodup' p, ← scan_order tick order socket order p]
    rfl
  rw [updateTick_eq nodup, reordered]
  refine ((confluent_prune socket).foldl_congr _ keyed' (scanned.keyed keyed') scanned).trans ?_
  exact (confluent_prune socket).foldl_perm (perm.filter _) (nodup.filter _)
    (scanned.keyed keyed')

end Peer

/-- The same operation, or the same tick with its map iterated in another order. -/
inductive PeerOp.Reorders : PeerOp → PeerOp → Prop
  | same (op : PeerOp) : Reorders op op
  | tick {tick : Tick} {order : List CanonicalAddr} (perm : tick.order.Perm order)
      (socket : Socket) : Reorders (.tick tick socket) (.tick { tick with order := order } socket)

theorem Peer.Shuffled.step {K : Type} [Kcp K] {p q p' : Peer K} {op op' : PeerOp}
    (shuffled : Shuffled p q) (keyed : p.registry.Keyed) (reorders : op.Reorders op')
    (applied : p.apply op = some p') : ∃ q', q.apply op' = some q' ∧ Shuffled p' q' := by
  obtain ⟨q', applied', shuffled'⟩ := shuffled.apply applied
  cases reorders with
  | same => exact ⟨q', applied', shuffled'⟩
  | @tick tick order perm socket =>
      obtain ⟨iterated, rfl⟩ := Peer.apply_tick applied'
      have keys := List.isPerm_iff.mp iterated
      refine ⟨q.updateTick { tick with order := order } socket, ?_, shuffled'.trans ?_⟩
      · exact if_pos (List.isPerm_iff.mpr (perm.symm.trans keys))
      · exact updateTick_shuffled (shuffled.keyed keyed) socket perm
          (keys.nodup_iff.mpr q.sessions.keys_nodup)

theorem Peer.Shuffled.exec {K : Type} [Kcp K] {incarnation : UInt64} {config : KcpConfig}
    {ops ops' : List PeerOp} (reorders : List.Forall₂ PeerOp.Reorders ops ops') {p q p' : Peer K}
    (shuffled : Shuffled p q) (keyed : p.registry.Keyed)
    (ran : (peerMachine K incarnation config).exec Machine.always p ops = some p') :
    ∃ q', (peerMachine K incarnation config).exec Machine.always q ops' = some q' ∧
      Shuffled p' q' := by
  induction reorders generalizing p q with
  | nil =>
      obtain rfl := Option.some.inj ran
      exact ⟨q, rfl, shuffled⟩
  | cons reorder _ ih =>
      obtain ⟨next, applied, ran⟩ := Option.bind_eq_some_iff.mp ran
      obtain ⟨next', applied', shuffled'⟩ := shuffled.step keyed reorder applied
      obtain ⟨q', ran', final⟩ := ih shuffled'
        (Registry.keyed_of_steps (Peer.apply_steps applied keyed) keyed) ran
      exact ⟨q', Option.bind_eq_some_iff.mpr ⟨next', applied', ran'⟩, final⟩

/-- The order in which a tick happens to iterate the session map never matters: a run of
atomic operations and the same run with each of its ticks iterating in another order, in which
the socket answers each datagram alike, end with the same sessions and messages, have the same
events and datagrams, in the same order for each remote, and give every further call the same
answer. -/
theorem tick_order_never_matters (K : Type) [Kcp K] (incarnation : UInt64) (config : KcpConfig)
    (ops ops' : List PeerOp) (reorders : List.Forall₂ PeerOp.Reorders ops ops') (p : Peer K)
    (ran : (peerMachine K incarnation config).exec Machine.always (.bind incarnation config) ops =
      some p) :
    ∃ q, (peerMachine K incarnation config).exec Machine.always (.bind incarnation config) ops' =
        some q ∧
      q.sessions = p.sessions ∧ q.pendingData = p.pendingData ∧ q.dataNotify = p.dataNotify ∧
      q.log.Perm p.log ∧ q.outbox.Perm p.outbox ∧
      (∀ can, (q.log.filter fun e => decide (e.address = can)) =
        p.log.filter fun e => decide (e.address = can)) ∧
      (∀ can, (q.outbox.filter fun o => decide (o.address = can)) =
        p.outbox.filter fun o => decide (o.address = can)) ∧
      (∀ peer data draw clock socket, (q.send peer data draw clock socket).2 =
        (p.send peer data draw clock socket).2) ∧
      (∀ data src clock socket, (q.handleIncoming data src clock socket).2 =
        (p.handleIncoming data src clock socket).2) := by
  have keyed : (Peer.bind incarnation config : Peer K).registry.Keyed := by
    intro can id v found
    simp at found
  obtain ⟨q, ran', shuffled⟩ := (Peer.Shuffled.refl _).exec reorders keyed ran
  obtain ⟨base, left, right⟩ := shuffled.common
  have pending := congrArg Peer.pendingData shuffled.rest
  have notify := congrArg Peer.dataNotify shuffled.rest
  refine ⟨q, ran', shuffled.sessions, by exact pending, by exact notify,
    List.perm_of_filter_eq LogEntry.address shuffled.log,
    List.perm_of_filter_eq Outgoing.address shuffled.outbox, shuffled.log, shuffled.outbox, ?_, ?_⟩
  · intro peer data draw clock socket
    rw [left, right, Peer.send_recast, Peer.send_recast]
  · intro data src clock socket
    rw [left, right, Peer.handleIncoming_recast, Peer.handleIncoming_recast]

/-- Two silent remotes, reaped by one tick in the one order or in the other. -/
theorem tick_order_never_matters_two_remotes :
    ∃ p q : Peer SampleKcp,
      (peerMachine SampleKcp 1 .default).exec Machine.always (.bind 1 .default)
        [.incoming (encodeControl .syn 5) .remote .sample .sample,
          .incoming (encodeControl .syn 6) .third .sample .sample,
          .tick ⟨62000, 62000, fun _ => 62000, [canonicalize .third, canonicalize .remote]⟩
            .sample] = some p ∧
      (peerMachine SampleKcp 1 .default).exec Machine.always (.bind 1 .default)
        [.incoming (encodeControl .syn 5) .remote .sample .sample,
          .incoming (encodeControl .syn 6) .third .sample .sample,
          .tick ⟨62000, 62000, fun _ => 62000, [canonicalize .remote, canonicalize .third]⟩
            .sample] = some q ∧
      q.log.Perm p.log ∧ p.log =
        [.event (.connected .remote) 0, .event (.connected .third) 1,
          .event (.disconnected .third) 1, .event (.disconnected .remote) 0] := by
  have run : ((peerMachine SampleKcp 1 .default).exec Machine.always (.bind 1 .default)
      [.incoming (encodeControl .syn 5) .remote .sample .sample,
        .incoming (encodeControl .syn 6) .third .sample .sample,
        .tick ⟨62000, 62000, fun _ => 62000, [canonicalize .third, canonicalize .remote]⟩
          .sample]).any (fun p => decide (p.log =
        [.event (.connected .remote) 0, .event (.connected .third) 1,
          .event (.disconnected .third) 1, .event (.disconnected .remote) 0])) = true := by
    decide +kernel
  obtain ⟨p, ran, log⟩ := (Option.any_eq_true ..).mp run
  obtain ⟨q, ran', _, _, _, perm, _⟩ := tick_order_never_matters SampleKcp 1 .default _ _
    (.cons (.same _) (.cons (.same _) (.cons (.tick (.swap _ _ []) .sample) .nil))) p ran
  exact ⟨p, q, ran, ran', perm, of_decide_eq_true log⟩

end KcpPeer
