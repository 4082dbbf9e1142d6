import KcpPeer.Effects
import KcpPeer.SampleKcp

set_option autoImplicit false

namespace KcpPeer

def LogEntry.eventFor (can : CanonicalAddr) : LogEntry → Option Event
  | .event e _ => if canonicalize e.peer = can then some e else none
  | .data _ _ => none

def LogEntry.messageFor (can : CanonicalAddr) : LogEntry → Option DataMessage
  | .event _ _ => none
  | .data msg _ => if canonicalize msg.peer = can then some msg else none

/-- What a peer shows about one address: the session it holds, the events, the
datagrams sent toward it, and the messages it put on `pending_data`. -/
structure Slice (K : Type) where
  session : Option (Session K)
  events : List Event
  sent : List Submission
  messages : List DataMessage

namespace Peer

variable {K : Type}

def slice (p : Peer K) (can : CanonicalAddr) : Slice K where
  session := (p.sessions.find can).map (·.2)
  events := p.log.filterMap (LogEntry.eventFor can)
  sent := (p.outbox.filter fun o => decide (canonicalize o.dest = can)).map (·.toSubmission)
  messages := p.log.filterMap (LogEntry.messageFor can)

/-- Two peers that show the same about `can` and answer it alike. -/
structure Alike (can : CanonicalAddr) (p q : Peer K) : Prop where
  incarnation : q.incarnation = p.incarnation
  config : q.config = p.config
  slice : q.slice can = p.slice can

namespace Alike

variable {can : CanonicalAddr} {p q r : Peer K} {id id' : SessionId} {s : Session K}

theorem refl (can : CanonicalAddr) (p : Peer K) : Alike can p p := ⟨rfl, rfl, rfl⟩

theorem symm (alike : Alike can p q) : Alike can q p :=
  ⟨alike.incarnation.symm, alike.config.symm, alike.slice.symm⟩

theorem trans (first : Alike can p q) (second : Alike can q r) : Alike can p r :=
  ⟨second.incarnation.trans first.incarnation, second.config.trans first.config,
    second.slice.trans first.slice⟩

theorem session (alike : Alike can p q) : (q.slice can).session = (p.slice can).session :=
  congrArg Slice.session alike.slice

theorem stored {p' : Peer K} (same : p' = { p with sessions := p'.sessions })
    (found : p'.sessions.find can = p.sessions.find can) : Alike can p p' := by
  rw [same]
  refine ⟨rfl, rfl, ?_⟩
  simp only [Peer.slice, found]

theorem submitted (origin : Option SessionId) {out : List Submission}
    (away : ∀ o ∈ out, canonicalize o.dest ≠ can) : Alike can p (p.submit origin out) := by
  refine ⟨rfl, rfl, ?_⟩
  have unseen : (out.map fun submission => (⟨submission, origin⟩ : Outgoing)).filter
      (fun o => decide (canonicalize o.dest = can)) = [] := by
    rw [List.filter_eq_nil_iff]
    intro o mem
    obtain ⟨submission, sent, rfl⟩ := List.mem_map.mp mem
    simpa using away submission sent
  simp only [Peer.slice, Peer.submit, List.filter_append, unseen, List.append_nil]

theorem emitted {e : Event} (id : SessionId) (away : canonicalize e.peer ≠ can) :
    Alike can p (p.emit e id) := by
  refine ⟨rfl, rfl, ?_⟩
  simp [Peer.slice, Peer.emit, LogEntry.eventFor, LogEntry.messageFor, away]

theorem delivered {peer : SocketAddr} (id : SessionId) (msgs : List Bytes)
    (away : canonicalize peer ≠ can) : Alike can p (p.appendData id peer msgs).notify := by
  refine ⟨rfl, rfl, ?_⟩
  simp [Peer.slice, Peer.appendData, Peer.notify, LogEntry.eventFor, LogEntry.messageFor, away,
    Function.comp_def]

/-- A step that grows the log and the outbox and leaves the rest. -/
theorem grow (alike : Alike can p q) {p' q' : Peer K} {logged logged' : List LogEntry}
    {out out' : List Outgoing}
    (constants : p'.incarnation = p.incarnation ∧ p'.config = p.config ∧
      q'.incarnation = q.incarnation ∧ q'.config = q.config)
    (session : (q'.slice can).session = (p'.slice can).session)
    (log : p'.log = p.log ++ logged ∧ q'.log = q.log ++ logged')
    (outbox : p'.outbox = p.outbox ++ out ∧ q'.outbox = q.outbox ++ out')
    (events : logged'.filterMap (LogEntry.eventFor can) = logged.filterMap (LogEntry.eventFor can))
    (messages : logged'.filterMap (LogEntry.messageFor can) =
      logged.filterMap (LogEntry.messageFor can))
    (sent : (out'.filter fun o => decide (canonicalize o.dest = can)).map (·.toSubmission) =
      (out.filter fun o => decide (canonicalize o.dest = can)).map (·.toSubmission)) :
    Alike can p' q' := by
  obtain ⟨incarnation, config, incarnation', config'⟩ := constants
  have before := alike.slice
  simp only [Peer.slice, Slice.mk.injEq] at before session
  obtain ⟨_, beforeEvents, beforeSent, beforeMessages⟩ := before
  refine ⟨?_, ?_, ?_⟩
  · rw [incarnation', incarnation, alike.incarnation]
  · rw [config', config, alike.config]
  · simp only [Peer.slice, Slice.mk.injEq]
    rw [log.1, log.2, outbox.1, outbox.2]
    simp only [List.filterMap_append, List.filter_append, List.map_append]
    rw [session, beforeEvents, beforeSent, beforeMessages, events, messages, sent]
    exact ⟨rfl, rfl, rfl, rfl⟩

/-- Two alike peers hold the same session, or none. -/
theorem find (alike : Alike can p q) :
    (p.sessions.find can = none ∧ q.sessions.find can = none) ∨
      ∃ id id' s, p.sessions.find can = some (id, s) ∧ q.sessions.find can = some (id', s) := by
  have same := alike.session
  simp only [Peer.slice] at same
  cases found : p.sessions.find can with
  | none =>
      rw [found, Option.map_none, Option.map_eq_none_iff] at same
      exact Or.inl ⟨rfl, same⟩
  | some entry =>
      obtain ⟨id, s⟩ := entry
      rw [found, Option.map_some, Option.map_eq_some_iff] at same
      obtain ⟨⟨id', s'⟩, found', rfl⟩ := same
      exact Or.inr ⟨id, id', s', rfl, found'⟩

/-- Steps that log and submit nothing. -/
theorem store (alike : Alike can p q) {p' q' : Peer K}
    (session : (q'.slice can).session = (p'.slice can).session)
    (left : p' = { p with sessions := p'.sessions })
    (right : q' = { q with sessions := q'.sessions }) :
    Alike can p' q' := by
  rw [left, right] at session ⊢
  exact alike.grow ⟨rfl, rfl, rfl, rfl⟩ session
    ⟨(List.append_nil _).symm, (List.append_nil _).symm⟩
    ⟨(List.append_nil _).symm, (List.append_nil _).symm⟩ rfl rfl rfl

theorem setSession (alike : Alike can p q) (found : p.sessions.find can = some (id, s))
    (found' : q.sessions.find can = some (id', s)) (s' : Session K) :
    Alike can (p.setSession id s') (q.setSession id' s') := by
  refine alike.store ?_ rfl rfl
  simp only [Peer.slice, find_setSession found, find_setSession found', Option.map_some]

theorem insert (alike : Alike can p q) (s : Session K) :
    Alike can (p.insertSession can s) (q.insertSession can s) := by
  refine alike.store ?_ rfl rfl
  simp only [Peer.slice, insertSession, Store.find_insertNew, ↓reduceIte, Option.map_some]

theorem remove (alike : Alike can p q) (found : p.sessions.find can = some (id, s))
    (found' : q.sessions.find can = some (id', s)) (s' : Session K) :
    Alike can ((p.removeKey can).setSession id s') ((q.removeKey can).setSession id' s') := by
  refine alike.store ?_ rfl rfl
  simp only [Peer.slice, find_removed found, find_removed found', ↓reduceIte, Option.map_none]

theorem submit (alike : Alike can p q) (origin origin' : Option SessionId) (out : List Submission) :
    Alike can (p.submit origin out) (q.submit origin' out) := by
  refine alike.grow ⟨rfl, rfl, rfl, rfl⟩ alike.session
    ⟨(List.append_nil _).symm, (List.append_nil _).symm⟩ ⟨rfl, rfl⟩ rfl rfl ?_
  simp only [List.filter_map, List.map_map, Function.comp_def]

theorem emit (alike : Alike can p q) (e : Event) (id id' : SessionId) :
    Alike can (p.emit e id) (q.emit e id') :=
  alike.grow ⟨rfl, rfl, rfl, rfl⟩ alike.session ⟨rfl, rfl⟩
    ⟨(List.append_nil _).symm, (List.append_nil _).symm⟩ rfl rfl rfl

theorem deliver (alike : Alike can p q) (id id' : SessionId) (peer : SocketAddr)
    (msgs : List Bytes) :
    Alike can (p.appendData id peer msgs).notify (q.appendData id' peer msgs).notify := by
  refine alike.grow ⟨rfl, rfl, rfl, rfl⟩ alike.session ⟨rfl, rfl⟩
    ⟨(List.append_nil _).symm, (List.append_nil _).symm⟩ ?_ ?_ rfl
  · simp only [List.map_map, List.filterMap_map, Function.comp_def, LogEntry.eventFor]
  · simp only [List.map_map, List.filterMap_map, Function.comp_def, LogEntry.messageFor]

end Alike

theorem disconnect_alike {p q : Peer K} {src : SocketAddr} (alike : Alike (canonicalize src) p q)
    (socket : Socket) :
    Alike (canonicalize src) (p.disconnect src socket) (q.disconnect src socket) := by
  unfold disconnect
  rcases alike.find with ⟨absent, absent'⟩ | ⟨id, id', s, found, found'⟩
  · rw [absent, absent']
    exact alike
  · rw [found, found']
    exact ((alike.remove found found' s.markClosed).submit none none _).emit (.disconnected src) id
      id'

theorem prune_alike {p q : Peer K} {can : CanonicalAddr} (alike : Alike can p q)
    (socket : Socket) : Alike can (prune socket p can) (prune socket q can) := by
  unfold prune
  rcases alike.find with ⟨absent, absent'⟩ | ⟨id, id', s, found, found'⟩
  · rw [absent, absent']
    exact alike
  · rw [found, found']
    exact ((alike.remove found found' s.markClosed).submit none none _).emit
      (.disconnected s.peerAddr) id id'

/-- `q` is `p` without what it has for other addresses than `can`. -/
structure Reduced (can : CanonicalAddr) (p q : Peer K) : Prop where
  keyed : p.registry.Keyed
  keyedReduced : q.registry.Keyed
  alone : ∀ other, other ≠ can → q.sessions.find other = none
  alike : Alike can p q

/-- The reduced peer iterates what is left of the map. -/
theorem Reduced.tick_order {can : CanonicalAddr} {p q : Peer K} (reduced : Reduced can p q)
    {order : List CanonicalAddr}
    (iterates : order.isPerm p.sessions.keys) :
    (order.filter (decide <| · = can)).isPerm q.sessions.keys := by
  have perm := List.isPerm_iff.mp iterates
  rw [List.isPerm_iff, List.perm_ext_iff_of_nodup
    ((perm.nodup_iff.mpr p.sessions.keys_nodup).filter _) q.sessions.keys_nodup]
  have held : can ∈ p.sessions.keys ↔ can ∈ q.sessions.keys := by
    simp only [Store.mem_keys_iff]
    rcases reduced.alike.find with ⟨absent, absent'⟩ | ⟨id, id', s, found, found'⟩
    · rw [Store.find_eq_none.mp absent, Store.find_eq_none.mp absent']
    · rw [(Store.find_eq_some.mp found).1, (Store.find_eq_some.mp found').1]
      simp
  intro key
  rw [List.mem_filter, perm.mem_iff, decide_eq_true_eq]
  constructor
  · rintro ⟨mem, rfl⟩
    exact held.mp mem
  · intro mem
    by_cases own : key = can
    · subst own
      exact ⟨held.mpr mem, rfl⟩
    · obtain ⟨id, named⟩ := Store.mem_keys_iff.mp mem
      rw [Store.find_eq_none.mp (reduced.alone key own)] at named
      cases named

variable [Kcp K]

section Lockstep

/- Two peers that are alike for an address stay so when they do the same
operation for that address. -/
variable {p q : Peer K} {src : SocketAddr} (alike : Alike (canonicalize src) p q)

include alike

theorem handleKcpData_alike (payload : Bytes) (clock : Clock) (socket : Socket) :
    Alike (canonicalize src) (p.handleKcpData payload src clock socket).1
      (q.handleKcpData payload src clock socket).1 := by
  unfold handleKcpData
  rcases alike.find with ⟨absent, absent'⟩ | ⟨id, id', s, found, found'⟩
  · rw [absent, absent']
    cases readConv payload with
    | none => exact alike
    | some conv => exact alike.submit none none _
  · rw [found, found']
    dsimp only
    split
    · exact alike.setSession found found' _
    · split
      · exact alike.setSession found found' _
      · exact alike.setSession found found' _
      · exact (alike.setSession found found' _).deliver id id' _ _

theorem synInsert_alike (conv : UInt32) (clock : Clock) :
    Alike (canonicalize src) (p.synInsert src conv clock) (q.synInsert src conv clock) := by
  simp only [synInsert, alike.incarnation, alike.config]
  exact (alike.insert _).emit (.connected src) _ _

theorem handleSyn_alike (payload : Bytes) (clock : Clock) (socket : Socket) :
    Alike (canonicalize src) (p.handleSyn payload src clock socket).1
      (q.handleSyn payload src clock socket).1 := by
  unfold handleSyn
  split
  · exact alike
  · rename_i conv _
    split
    · exact alike
    · unfold synDecide
      rcases alike.find with ⟨absent, absent'⟩ | ⟨id, id', s, found, found'⟩
      · rw [absent, absent']
        exact synInsert_alike (alike.submit none none _) conv clock
      · rw [found, found']
        dsimp only
        by_cases same : s.inner.convId = conv
        · rw [if_pos same, if_pos same]
          cases s.inner.state with
          | synSent => exact alike
          | established => exact (alike.setSession found found' _).submit none none _
        · rw [if_neg same, if_neg same]
          cases s.inner.state with
          | synSent =>
              dsimp only
              split
              · exact (((alike.setSession found found' _).submit (some id) (some id') _).emit
                  (.connected src) id id').submit none none _
              · exact (((alike.setSession found found' _).submit (some id) (some id') _).emit
                  (.connected src) id id').submit none none _
          | established =>
              exact synInsert_alike (((alike.setSession found found' s.markClosed).emit
                (.peerRestarted src) id id').submit none none _) conv clock

theorem handleSynAck_alike (payload : Bytes) (clock : Clock) (socket : Socket) :
    Alike (canonicalize src) (p.handleSynAck payload src clock socket).1
      (q.handleSynAck payload src clock socket).1 := by
  unfold handleSynAck synAckAccept
  split
  · exact alike
  · rcases alike.find with ⟨absent, absent'⟩ | ⟨id, id', s, found, found'⟩
    · rw [absent, absent']
      exact alike
    · rw [found, found']
      dsimp only
      split
      · exact alike
      · split
        · exact ((alike.setSession found found' _).submit (some id) (some id') _).emit
            (.connected src) id id'
        · exact alike

theorem handleReset_alike (payload : Bytes) :
    Alike (canonicalize src) (p.handleReset payload src).1 (q.handleReset payload src).1 := by
  unfold handleReset
  split
  · exact alike
  · rcases alike.find with ⟨absent, absent'⟩ | ⟨id, id', s, found, found'⟩
    · rw [absent, absent']
      exact alike
    · rw [found, found']
      dsimp only
      split
      · exact (alike.remove found found' s.markClosed).emit (.disconnected src) id id'
      · exact alike

theorem handleIncoming_alike (data : Bytes) (clock : Clock) (socket : Socket) :
    Alike (canonicalize src) (p.handleIncoming data src clock socket).1
      (q.handleIncoming data src clock socket).1 := by
  unfold handleIncoming
  split
  · exact alike
  · exact handleKcpData_alike alike _ clock socket
  · exact handleSyn_alike alike _ clock socket
  · exact handleSynAck_alike alike _ clock socket
  · exact handleReset_alike alike _

theorem send_alike (data : Bytes) (draw : DrawnConv) (clock : Clock) (socket : Socket) :
    Alike (canonicalize src) (p.send src data draw clock socket).1
      (q.send src data draw clock socket).1 := by
  have sendOn : ∀ {p q : Peer K} {id id' : SessionId} {s : Session K},
      Alike (canonicalize src) p q → p.sessions.find (canonicalize src) = some (id, s) →
      q.sessions.find (canonicalize src) = some (id', s) →
      Alike (canonicalize src) (p.sendOn id s data clock socket).1
        (q.sendOn id' s data clock socket).1 := by
    intro p q id id' s alike found found'
    exact (alike.setSession found found' _).submit (some id) (some id') _
  unfold send
  rcases alike.find with ⟨absent, absent'⟩ | ⟨id, id', s, found, found'⟩
  · rw [absent, absent']
    dsimp only
    have found := find_initiateSession p src draw clock socket
    have found' := find_initiateSession q src draw clock socket
    have created : Session.newOutbound (K := K) draw.val src q.incarnation q.config clock.epochMs =
        Session.newOutbound draw.val src p.incarnation p.config clock.epochMs := by
      rw [alike.incarnation, alike.config]
    simp only [initiateSession, created] at found found' ⊢
    refine sendOn ?_ found found'
    exact ((alike.insert _).setSession (find_insertSession ..) (find_insertSession ..) _).submit
      _ _ _
  · rw [found, found']
    exact sendOn alike found found'

end Lockstep

section Tick

variable {p q : Peer K} {can : CanonicalAddr} (alike : Alike can p q)

include alike

theorem scanSession_alike (tick : Tick) (socket : Socket) :
    Alike can (p.scanSession tick socket can).1 (q.scanSession tick socket can).1 ∧
      (q.scanSession tick socket can).2 = (p.scanSession tick socket can).2 := by
  unfold scanSession
  rcases alike.find with ⟨absent, absent'⟩ | ⟨id, id', s, found, found'⟩
  · rw [absent, absent']
    exact ⟨alike, rfl⟩
  · rw [found, found']
    dsimp only
    split
    · exact ⟨alike, rfl⟩
    · split
      · exact ⟨(alike.setSession found found' _).submit _ _ _, rfl⟩
      · rename_i s' out _ _ _
        have updated := (alike.setSession found found' s').submit (some id) (some id') out
        have held : ((p.setSession id s').submit (some id) out).sessions.find can = some (id, s') :=
          find_setSession found s'
        have held' : ((q.setSession id' s').submit (some id') out).sessions.find can =
            some (id', s') := find_setSession found' s'
        rw [show ((q.setSession id' s').submit (some id') out).config =
          ((p.setSession id s').submit (some id) out).config from updated.config]
        split
        · exact ⟨(updated.setSession held held' _).submit _ _ _, rfl⟩
        · exact ⟨(updated.setSession held held' _).submit _ _ _, rfl⟩

end Tick

/-- An effect at one address is not seen at another. -/
theorem Effect.alike_other {op : PeerOp} {can can' : CanonicalAddr} {p p' : Peer K}
    (effect : Effect op can' p p') (keyed : p.registry.Keyed) (other : can ≠ can') :
    Alike can p p' := by
  have away : ∀ {addr : SocketAddr}, canonicalize addr = can' → canonicalize addr ≠ can := by
    intro addr own same
    exact other (same.symm.trans own)
  have held : ∀ {id : SessionId} {s : Session K}, p.sessions.find can' = some (id, s) →
      canonicalize s.peerAddr ≠ can :=
    fun found => away (keyed_iff.mp keyed can' _ _ found)
  have written : ∀ {id : SessionId} {s : Session K} (s' : Session K),
      p.sessions.find can' = some (id, s) → Alike can p (p.setSession id s') :=
    fun s' found => .stored rfl (find_setSession_other found s' other)
  cases effect with
  | @write id s found kcp lastRx socket out sent =>
      obtain ⟨bufs, _, rfl, _⟩ := sent
      refine (written _ found).trans (.submitted (some id) ?_)
      intro o mem
      obtain ⟨buf, _, rfl⟩ := List.mem_map.mp mem
      exact held found
  | @syn id s found =>
      refine (written _ found).trans (.submitted (some id) ?_)
      intro o mem
      cases List.mem_singleton.mp mem
      exact held found
  | establish found waiting own now => exact (written _ found).trans (.emitted _ (away own))
  | adopt found waiting own isSyn now => exact (written _ found).trans (.emitted _ (away own))
  | initiate asked own absent => exact .stored rfl (find_insertSession_other p _ other)
  | accept isSyn own clock =>
      subst own
      have inserted : ∀ s, Alike can p (p.insertSession (canonicalize _) s) :=
        fun s => .stored rfl (find_insertSession_other p s other)
      exact (inserted _).trans (.emitted _ (away rfl))
  | supersede found own => exact (written _ found).trans (.emitted _ (away own))
  | @close id s addr found own =>
      have removed : Alike can p ((p.removeKey can').setSession id s.markClosed) :=
        .stored rfl ((find_removed found _ can).trans (if_neg other))
      exact removed.trans (.emitted _ (away own))
  | acknowledge own conv =>
      refine .submitted none ?_
      intro o mem
      cases List.mem_singleton.mp mem
      exact away own
  | reset own conv =>
      refine .submitted none ?_
      intro o mem
      cases List.eq_of_mem_replicate mem
      exact away own
  | deliver found msgs => exact .delivered _ msgs (held found)

namespace Reduced

variable {can can' : CanonicalAddr} {p p' q q' : Peer K} {op op' : PeerOp}

/-- An operation at another address is not done by the reduced peer. -/
theorem skip (reduced : Reduced can p q) (effects : EffectsAt op can' p p') (other : can ≠ can') :
    Reduced can p' q := by
  induction effects with
  | refl => exact reduced
  | tail _ effect ih =>
      exact ⟨effect.keyed ih.keyed, ih.keyedReduced, ih.alone,
        (effect.alike_other ih.keyed other).symm.trans ih.alike⟩

/-- An operation at `can` is done by both. -/
theorem both (reduced : Reduced can p q) (effects : EffectsAt op can p p')
    (effects' : EffectsAt op' can q q') (alike : Alike can p' q') : Reduced can p' q' := by
  refine ⟨effects.keyed reduced.keyed, effects'.keyed reduced.keyedReduced, ?_, alike⟩
  intro other apart
  rw [effects'.find_other apart]
  exact reduced.alone other apart

theorem scan (tick : Tick) (socket : Socket) (order : List CanonicalAddr) :
    ∀ {p q : Peer K}, Reduced can p q →
      Reduced can (Peer.scan tick socket order p).1
        (Peer.scan tick socket (order.filter (decide <| · = can)) q).1 ∧
      (Peer.scan tick socket (order.filter (decide <| · = can)) q).2 =
        (Peer.scan tick socket order p).2.filter (decide <| · = can) := by
  induction order with
  | nil => exact fun reduced => ⟨reduced, rfl⟩
  | cons key rest ih =>
      intro p q reduced
      have scanned : EffectsAt (.tick tick socket) key p (p.scanSession tick socket key).1 :=
        scanSession_effects p tick socket
      by_cases own : key = can
      · subst own
        obtain ⟨alike, sameDead⟩ := scanSession_alike reduced.alike tick socket
        have scanned' : EffectsAt (.tick tick socket) key q (q.scanSession tick socket key).1 :=
          scanSession_effects q tick socket
        obtain ⟨later, removed⟩ := ih (reduced.both scanned scanned' alike)
        simp only [decide_true, List.filter_cons_of_pos, Peer.scan]
        refine ⟨later, ?_⟩
        rw [removed, sameDead]
        split
        · rw [List.filter_cons_of_pos (by simp)]
        · rfl
      · obtain ⟨later, removed⟩ := ih (reduced.skip scanned (Ne.symm own))
        rw [List.filter_cons_of_neg (by simpa using own)]
        simp only [Peer.scan]
        refine ⟨later, ?_⟩
        rw [removed]
        split
        · rw [List.filter_cons_of_neg (by simpa using own)]
        · rfl

theorem foldl_prune (socket : Socket) (toRemove : List CanonicalAddr) :
    ∀ {p q : Peer K}, Reduced can p q →
      Reduced can (toRemove.foldl (prune socket) p)
        ((toRemove.filter (decide <| · = can)).foldl (prune socket) q) := by
  induction toRemove with
  | nil => exact fun reduced => reduced
  | cons key rest ih =>
      intro p q reduced
      have pruned : EffectsAt (.disconnect key.addr socket) key p (prune socket p key) :=
        prune_effects reduced.keyed socket
      by_cases own : key = can
      · subst own
        have pruned' : EffectsAt (.disconnect key.addr socket) key q (prune socket q key) :=
          prune_effects reduced.keyedReduced socket
        rw [List.filter_cons_of_pos (by simp)]
        exact ih (reduced.both pruned pruned' (prune_alike reduced.alike socket))
      · rw [List.filter_cons_of_neg (by simpa using own)]
        exact ih (reduced.skip pruned (Ne.symm own))

end Reduced

/-- The order of iteration is not a reading of the clock. -/
theorem scan_order (tick : Tick) (order : List CanonicalAddr) (socket : Socket)
    (keys : List CanonicalAddr) (p : Peer K) :
    scan { tick with order } socket keys p = scan tick socket keys p := by
  induction keys generalizing p with
  | nil => rfl
  | cons key rest ih =>
      simp only [scan, ih]
      rfl

end Peer

/-- What is left of an operation when everything that is not for `can` is
deleted: packets from and calls toward other addresses go, and a tick iterates
what is left of the map. -/
def PeerOp.restrict (can : CanonicalAddr) : PeerOp → Option PeerOp
  | .send peer data draw clock socket =>
      if canonicalize peer = can then some (.send peer data draw clock socket) else none
  | .disconnect peer socket =>
      if canonicalize peer = can then some (.disconnect peer socket) else none
  | .tick inputs socket =>
      some (.tick { inputs with order := inputs.order.filter (decide <| · = can) } socket)
  | .incoming data src clock socket =>
      if canonicalize src = can then some (.incoming data src clock socket) else none

namespace Peer

variable {K : Type} [Kcp K] {can : CanonicalAddr} {p p' q : Peer K} {op : PeerOp}

/-- A deleted operation is invisible at `can`. -/
theorem Reduced.deleted (reduced : Reduced can p q) (gone : op.restrict can = none)
    (applied : p.apply op = some p') : Reduced can p' q := by
  cases op with
  | send peer data draw clock socket =>
      obtain rfl := Option.some.inj applied
      simp only [PeerOp.restrict, ite_eq_right_iff, reduceCtorEq, imp_false] at gone
      exact reduced.skip (send_effects ..) (Ne.symm gone)
  | disconnect peer socket =>
      obtain rfl := Option.some.inj applied
      simp only [PeerOp.restrict, ite_eq_right_iff, reduceCtorEq, imp_false] at gone
      exact reduced.skip (disconnect_effects ..) (Ne.symm gone)
  | tick tick socket => cases gone
  | incoming data src clock socket =>
      obtain rfl := Option.some.inj applied
      simp only [PeerOp.restrict, ite_eq_right_iff, reduceCtorEq, imp_false] at gone
      exact reduced.skip handleIncoming_effects (Ne.symm gone)

/-- What is left of an operation has the same effect at `can`. -/
theorem Reduced.kept {op' : PeerOp} (reduced : Reduced can p q) (left : op.restrict can = some op')
    (applied : p.apply op = some p') : ∃ q', q.apply op' = some q' ∧ Reduced can p' q' := by
  cases op with
  | send peer data draw clock socket =>
      obtain rfl := Option.some.inj applied
      simp only [PeerOp.restrict, Option.ite_none_right_eq_some, Option.some.injEq] at left
      obtain ⟨rfl, rfl⟩ := left
      refine ⟨_, rfl, reduced.both (send_effects ..) (send_effects ..) ?_⟩
      exact send_alike reduced.alike data draw clock socket
  | disconnect peer socket =>
      obtain rfl := Option.some.inj applied
      simp only [PeerOp.restrict, Option.ite_none_right_eq_some, Option.some.injEq] at left
      obtain ⟨rfl, rfl⟩ := left
      refine ⟨_, rfl, reduced.both (disconnect_effects ..) (disconnect_effects ..) ?_⟩
      exact disconnect_alike reduced.alike socket
  | tick tick socket =>
      obtain rfl := Option.some.inj left
      obtain ⟨iterates, rfl⟩ := apply_tick applied
      refine ⟨_, if_pos (reduced.tick_order iterates), ?_⟩
      obtain ⟨scanned, removed⟩ := reduced.scan tick socket tick.order
      simp only [updateTick, scan_order, removed]
      exact scanned.foldl_prune socket _
  | incoming data src clock socket =>
      obtain rfl := Option.some.inj applied
      simp only [PeerOp.restrict, Option.ite_none_right_eq_some, Option.some.injEq] at left
      obtain ⟨rfl, rfl⟩ := left
      refine ⟨_, rfl, reduced.both handleIncoming_effects handleIncoming_effects ?_⟩
      exact handleIncoming_alike reduced.alike data clock socket

end Peer

/-- A run and what is left of it show the same about `can` at the end of every
run, so after each of the steps that are left. -/
theorem peers_do_not_interfere (K : Type) [Kcp K] (incarnation : UInt64) (config : KcpConfig)
    (can : CanonicalAddr) (ops : List PeerOp) (p : Peer K)
    (ran : (peerMachine K incarnation config).exec Machine.always
      (peerMachine K incarnation config).start ops = some p) :
    ∃ q, (peerMachine K incarnation config).exec Machine.always
        (peerMachine K incarnation config).start (ops.filterMap (PeerOp.restrict can)) = some q ∧
      q.slice can = p.slice can := by
  have runs : ∀ (ops : List PeerOp) (p₀ q₀ : Peer K), Peer.Reduced can p₀ q₀ →
      (peerMachine K incarnation config).exec Machine.always p₀ ops = some p →
      ∃ q, (peerMachine K incarnation config).exec Machine.always q₀
        (ops.filterMap (PeerOp.restrict can)) = some q ∧ Peer.Reduced can p q := by
    intro ops
    induction ops with
    | nil =>
        intro p₀ q₀ reduced ran
        obtain rfl := Option.some.inj ran
        exact ⟨q₀, rfl, reduced⟩
    | cons op rest ih =>
        intro p₀ q₀ reduced ran
        obtain ⟨p₁, applied, ran⟩ := Option.bind_eq_some_iff.mp ran
        cases left : op.restrict can with
        | none =>
            rw [List.filterMap_cons_none left]
            exact ih p₁ q₀ (reduced.deleted left applied) ran
        | some op' =>
            obtain ⟨q₁, applied', reduced'⟩ := reduced.kept left applied
            obtain ⟨q, ran', final⟩ := ih p₁ q₁ reduced' ran
            rw [List.filterMap_cons_some left]
            exact ⟨q, Option.bind_eq_some_iff.mpr ⟨q₁, applied', ran'⟩, final⟩
  have empty : (Peer.bind incarnation config : Peer K).registry.Keyed := by
    intro key id v found
    simp at found
  obtain ⟨q, ran', reduced⟩ := runs ops _ _
    ⟨empty, empty, fun _ _ => rfl, .refl can (.bind incarnation config)⟩ ran
  exact ⟨q, ran', reduced.alike.slice⟩

/-- `10.0.0.3:7000`, a third address. -/
def SocketAddr.third : SocketAddr := .v4 ⟨0x0a000003, 7000⟩

/-- Two remotes open sessions; without the other one the peer acknowledges the
first just the same. -/
theorem peers_do_not_interfere_two_remotes :
    ∃ p q : Peer SampleKcp,
      (peerMachine SampleKcp 1 .default).exec Machine.always
        (peerMachine SampleKcp 1 .default).start
        [.incoming (encodeControl .syn 5) .remote .sample .sample,
          .incoming (encodeControl .syn 6) .third .sample .sample,
          .tick ⟨1000, 1000, fun _ => 1000, [canonicalize .third, canonicalize .remote]⟩ .sample] =
        some p ∧
      q.slice (canonicalize .remote) = p.slice (canonicalize .remote) ∧
      (p.slice (canonicalize .remote)).sent =
        [⟨.remote, encodeControl .synAck 5, true⟩] := by
  have run : ((peerMachine SampleKcp 1 .default).exec Machine.always
      (peerMachine SampleKcp 1 .default).start
      [.incoming (encodeControl .syn 5) .remote .sample .sample,
        .incoming (encodeControl .syn 6) .third .sample .sample,
        .tick ⟨1000, 1000, fun _ => 1000, [canonicalize .third, canonicalize .remote]⟩ .sample]).any
      (fun p => decide ((p.slice (canonicalize .remote)).sent =
        [⟨.remote, encodeControl .synAck 5, true⟩])) = true := by
    decide +kernel
  obtain ⟨p, ran, sent⟩ := (Option.any_eq_true ..).mp run
  obtain ⟨q, _, same⟩ := peers_do_not_interfere SampleKcp 1 .default (canonicalize .remote) _ p ran
  exact ⟨p, q, ran, same, of_decide_eq_true sent⟩

end KcpPeer
