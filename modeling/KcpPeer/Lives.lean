import KcpPeer.Effects
import KcpPeer.EventLog
import KcpPeer.SampleKcp

set_option autoImplicit false

namespace KcpPeer

/-- What a log entry says about the session object `id`. -/
def LogEntry.eventOf (id : SessionId) : LogEntry → Option Lifecycle
  | .event e id' => if id' = id then some e.kind else none
  | .data _ _ => none

/-- The events about one session object, oldest first. -/
def eventsOf (id : SessionId) (log : List LogEntry) : List Lifecycle :=
  log.filterMap (LogEntry.eventOf id)

section EventsOf

variable {id : SessionId} (log : List LogEntry) (e : Event)

theorem eventsOf_own : eventsOf id (log ++ [.event e id]) = eventsOf id log ++ [e.kind] := by
  simp [eventsOf, LogEntry.eventOf]

theorem eventsOf_other {id' : SessionId} (other : id ≠ id') :
    eventsOf id (log ++ [.event e id']) = eventsOf id log := by
  simp [eventsOf, LogEntry.eventOf, other.symm]

theorem eventsOf_data (id' : SessionId) (msgs : List DataMessage) :
    eventsOf id (log ++ msgs.map fun msg => .data msg id') = eventsOf id log := by
  simp [eventsOf, LogEntry.eventOf]

end EventsOf

/-- The lives a session can have had so far: `named` tells whether the map names it, and
the list holds the events about it. -/
inductive Life : View → Bool → List Lifecycle → Prop
  | waiting {v : View} (opened : v.closed = false) (state : v.state = .synSent) : Life v true []
  | established {v : View} (opened : v.closed = false) (state : v.state = .established) :
      Life v true [.connected]
  | abandoned {v : View} (closed : v.closed = true) (state : v.state = .synSent) :
      Life v false [.disconnected]
  | ended {v : View} {last : Lifecycle} (closed : v.closed = true) (state : v.state = .established)
      (farewell : last = .disconnected ∨ last = .peerRestarted) : Life v false [.connected, last]

namespace Registry

/-- The map names the session. -/
def names (r : Registry) (id : SessionId) : Bool :=
  r.sessions.keys.any fun can => decide (r.sessions.lookup can = some id)

theorem names_eq_true {r : Registry} {id : SessionId} :
    r.names id = true ↔ ∃ can, r.sessions.lookup can = some id := by
  simp only [names, List.any_eq_true, decide_eq_true_eq]
  constructor
  · rintro ⟨can, _, named⟩
    exact ⟨can, named⟩
  · rintro ⟨can, named⟩
    exact ⟨can, Store.mem_keys_iff.mpr ⟨id, named⟩, named⟩

theorem names_congr {r r' : Registry} {id : SessionId}
    (same : ∀ can, r'.sessions.lookup can = some id ↔ r.sessions.lookup can = some id) :
    r'.names id = r.names id := by
  rw [Bool.eq_iff_iff, names_eq_true, names_eq_true]
  exact exists_congr same

/-- Every session object has had one of the lives, and no event is about one that does not
exist yet. -/
structure Lives (r : Registry) : Prop where
  life : ∀ id v, r.sessions.object? id = some v → Life v (r.names id) (eventsOf id r.log)
  unborn : ∀ id, r.sessions.fresh ≤ id → eventsOf id r.log = []

section Steps

variable {r : Registry} {id : SessionId} {v : View} {src : SocketAddr}

/-- A session is added under a key that is free. -/
theorem Lives.add (lives : r.Lives) {can : CanonicalAddr} (absent : r.sessions.find can = none)
    {v : View} {log : List LogEntry} (own : Life v true (eventsOf r.sessions.fresh log))
    (others : ∀ id, id ≠ r.sessions.fresh → eventsOf id log = eventsOf id r.log) :
    Lives ⟨r.sessions.insertNew can v, log⟩ := by
  refine ⟨?_, ?_⟩
  · intro id' v' present
    rw [Store.object?_insertNew] at present
    split at present
    · rename_i isNew
      cases present
      subst isNew
      have named : names ⟨r.sessions.insertNew can v, log⟩ r.sessions.fresh = true :=
        names_eq_true.mpr ⟨can, (Store.lookup_insertNew ..).trans (if_pos rfl)⟩
      rw [named]
      exact own
    · rename_i other
      have named : names ⟨r.sessions.insertNew can v, log⟩ id' = r.names id' := by
        apply names_congr
        intro can'
        rw [Store.lookup_insertNew]
        split
        · rename_i same
          rw [same, Store.find_eq_none.mp absent]
          simp [Ne.symm other]
        · exact Iff.rfl
      rw [named, others id' other]
      exact lives.life id' v' present
  · intro id' above
    rw [Store.fresh_insertNew] at above
    rw [others id' (by omega)]
    exact lives.unborn id' (by omega)

/-- One session is written, and one event about it is logged. -/
theorem Lives.write (lives : r.Lives) (present : r.sessions.object? id = some v) (v' : View)
    (e : Event) {index : Store CanonicalAddr View}
    (objects : ∀ id', index.object? id' = r.sessions.object? id')
    (fresh : index.fresh = r.sessions.fresh)
    (lookups : ∀ id', id' ≠ id →
      ∀ can, index.lookup can = some id' ↔ r.sessions.lookup can = some id')
    (own : Life v (r.names id) (eventsOf id r.log) →
      Life v' (names ⟨index, []⟩ id) (eventsOf id r.log ++ [e.kind])) :
    Lives ⟨index.modify id fun _ => v', r.log ++ [.event e id]⟩ := by
  refine ⟨?_, ?_⟩
  · intro id' v₁ present'
    rw [Store.object?_modify, objects] at present'
    split at present'
    · rename_i same
      subst same
      rw [present, Option.map_some, Option.some.injEq] at present'
      subst present'
      rw [eventsOf_own]
      exact own (lives.life id v present)
    · rename_i other
      have named : names ⟨index.modify id fun _ => v', r.log ++ [.event e id]⟩ id' = r.names id' :=
        names_congr fun can => lookups id' (Ne.symm other) can
      rw [named, eventsOf_other _ _ (Ne.symm other)]
      exact lives.life id' v₁ present'
  · intro id' above
    rw [Store.fresh_modify, fresh] at above
    have below := Nat.lt_of_lt_of_le (Store.object?_lt present) above
    rw [eventsOf_other _ _ (Nat.ne_of_gt below)]
    exact lives.unborn id' above

theorem Lives.establish (lives : r.Lives)
    (found : r.sessions.find (canonicalize src) = some (id, v)) (waiting : v.state = .synSent)
    (conv : UInt32) : (r.establish id v conv src).Lives := by
  obtain ⟨named, present⟩ := Store.find_eq_some.mp found
  refine lives.write present _ (.connected src) (fun _ => rfl) rfl (fun _ _ _ => Iff.rfl) ?_
  intro before
  have there : names ⟨r.sessions, []⟩ id = r.names id := rfl
  rw [there, names_eq_true.mpr ⟨_, named⟩]
  rw [names_eq_true.mpr ⟨_, named⟩] at before
  generalize eventsOf id r.log = events at before ⊢
  cases before with
  | waiting opened => exact .established opened rfl
  | established _ state =>
      rw [waiting] at state
      cases state

/-- A session leaves the map, with an event that may be its last. -/
theorem Lives.leave (lives : r.Lives) {can : CanonicalAddr}
    (found : r.sessions.find can = some (id, v)) (e : Event)
    (farewell : e.kind = .disconnected ∨ e.kind = .peerRestarted ∧ v.state = .established) :
    Lives ⟨(r.sessions.remove can).modify id fun _ => { v with closed := true },
      r.log ++ [.event e id]⟩ := by
  obtain ⟨named, present⟩ := Store.find_eq_some.mp found
  refine lives.write present _ e (fun _ => rfl) rfl ?_ ?_
  · intro id' other can'
    rw [Store.lookup_remove]
    split
    · rename_i same
      rw [same, named]
      simp [Ne.symm other]
    · exact Iff.rfl
  · intro before
    have gone : names ⟨r.sessions.remove can, []⟩ id = false := by
      rw [Bool.eq_false_iff, Ne, names_eq_true]
      rintro ⟨can', still⟩
      rw [Store.lookup_remove] at still
      split at still
      · cases still
      · rename_i other
        exact other (Store.lookup_injective still named)
    rw [gone]
    rw [names_eq_true.mpr ⟨_, named⟩] at before
    generalize eventsOf id r.log = events at before ⊢
    cases before with
    | waiting _ state =>
        rcases farewell with kind | ⟨_, ready⟩
        · rw [kind]
          exact .abandoned rfl state
        · rw [state] at ready
          cases ready
    | established _ state => exact .ended rfl state (farewell.imp_right And.left)

theorem fresh_set (v : View) (e : Event) :
    ((r.set id v).emit e id).sessions.fresh = r.sessions.fresh := Store.fresh_modify ..

/-- One step of the registry, one case for each kind. -/
theorem Step.lives {r' : Registry} (step : Step r r') (lives : r.Lives) : r'.Lives := by
  cases step with
  | deliver id msgs =>
      refine ⟨fun id' v present => ?_, fun id' above => ?_⟩
      · have same : eventsOf id' (r.deliver id msgs).log = eventsOf id' r.log := eventsOf_data ..
        rw [same]
        exact lives.life id' v present
      · exact (eventsOf_data ..).trans (lives.unborn id' above)
  | openTo peer conv absent =>
      refine lives.add absent ?_ fun _ _ => rfl
      rw [lives.unborn _ (Nat.le_refl _)]
      exact .waiting rfl rfl
  | accept src conv absent =>
      refine lives.add absent ?_ fun _ other => eventsOf_other _ _ other
      rw [eventsOf_own, lives.unborn _ (Nat.le_refl _)]
      exact .established rfl rfl
  | establish id v conv src found waiting => exact lives.establish found waiting conv
  | close id v addr found => exact lives.leave found (.disconnected addr) (Or.inl rfl)
  | restart id v conv src found ready =>
      have left := lives.leave found (.peerRestarted src) (Or.inr ⟨rfl, ready⟩)
      have absent : ((r.sessions.remove (canonicalize src)).modify id
          fun _ => { v with closed := true }).find (canonicalize src) = none := by
        rw [Store.find_eq_none, Store.lookup_modify, Store.lookup_remove, if_pos rfl]
      have fresh : ((r.sessions.remove (canonicalize src)).modify id
          fun _ => { v with closed := true }).fresh = r.sessions.fresh := Store.fresh_modify ..
      have own : Life ⟨src, false, .established, conv⟩ true
          (eventsOf ((r.sessions.remove (canonicalize src)).modify id
              fun _ => { v with closed := true }).fresh
            (r.log ++ [.event (.peerRestarted src) id] ++
              [.event (.connected src) (r.supersede id v src).sessions.fresh])) := by
        rw [fresh, supersede, fresh_set, eventsOf_own, ← fresh, left.unborn _ (Nat.le_refl _)]
        exact .established rfl rfl
      have joined := left.add absent own fun id' other => eventsOf_other _ _ (by
        rw [supersede, fresh_set, ← fresh]
        exact other)
      have store : ((r.sessions.remove (canonicalize src)).modify id
            fun _ => { v with closed := true }).insertNew (canonicalize src)
              ⟨src, false, .established, conv⟩ =
          (r.sessions.modify id fun _ => { v with closed := true }).insertNew (canonicalize src)
            ⟨src, false, .established, conv⟩ :=
        Store.insertNew_remove (r.sessions.modify id fun _ => { v with closed := true }) _ _
      rw [store] at joined
      exact joined

end Steps

theorem lives_of_steps {r r' : Registry} (steps : Relation.ReflTransGen Step r r')
    (lives : r.Lives) : r'.Lives := by
  induction steps with
  | refl => exact lives
  | tail _ step ih => exact step.lives ih

end Registry

def LogEntry.session : LogEntry → SessionId
  | .event _ id => id
  | .data _ id => id

namespace Peer

variable {K : Type}

/-- Everything there is about one session object: its contents, the entries of the log it
is named in, and the datagrams that its own code submitted. -/
def trace (p : Peer K) (id : SessionId) : Option (Session K) × List LogEntry × List Outgoing :=
  (p.sessions.object? id, p.log.filter fun entry => decide (entry.session = id),
    p.outbox.filter fun o => decide (o.origin = some id))

/-- A session that exists and that no key names. -/
structure Gone (p : Peer K) (id : SessionId) : Prop where
  born : id < p.sessions.fresh
  unnamed : ∀ can, p.sessions.lookup can ≠ some id

section Trace

variable {p : Peer K} {id id' : SessionId}

theorem trace_setSession (other : id' ≠ id) (s : Session K) :
    (p.setSession id' s).trace id = p.trace id := by
  simp only [trace, setSession, Store.object?_modify_ne _ _ other]

theorem trace_insertSession (gone : p.Gone id) (can : CanonicalAddr) (s : Session K) :
    (p.insertSession can s).trace id = p.trace id := by
  simp only [trace, insertSession, Store.object?_insertNew]
  rw [if_neg (Nat.ne_of_lt gone.born)]

theorem trace_emit (other : id' ≠ id) (e : Event) : (p.emit e id').trace id = p.trace id := by
  simp [trace, emit, LogEntry.session, other]

theorem trace_appendData (other : id' ≠ id) (peer : SocketAddr) (msgs : List Bytes) :
    (p.appendData id' peer msgs).trace id = p.trace id := by
  simp [trace, appendData, LogEntry.session, other]

theorem trace_submit {origin : Option SessionId} (other : origin ≠ some id)
    (out : List Submission) : (p.submit origin out).trace id = p.trace id := by
  simp [trace, submit, other]

theorem Gone.other (gone : p.Gone id) {can : CanonicalAddr} {s : Session K}
    (found : p.sessions.find can = some (id', s)) : id' ≠ id := by
  rintro rfl
  exact gone.unnamed can (Store.find_eq_some.mp found).1

end Trace

variable [Kcp K]

/-- No effect reaches a session that is gone. -/
theorem Effect.gone {op : PeerOp} {can : CanonicalAddr} {p p' : Peer K} {id : SessionId}
    (effect : Effect op can p p') (gone : p.Gone id) :
    p'.Gone id ∧ p'.trace id = p.trace id := by
  have below := Nat.lt_of_lt_of_le gone.born effect.fresh_le
  have unborn : p.sessions.fresh ≠ id := Nat.ne_of_gt gone.born
  have written : ∀ {id' : SessionId} {s s' : Session K},
      p.sessions.find can = some (id', s) → (p.setSession id' s').trace id = p.trace id :=
    fun found => trace_setSession (gone.other found) _
  have mine : ∀ {id' : SessionId} {s : Session K},
      p.sessions.find can = some (id', s) → (some id' : Option SessionId) ≠ some id :=
    fun found same => gone.other found (Option.some.inj same)
  have removed : ∀ can', (p.sessions.remove can).lookup can' ≠ some id := by
    intro can'
    rw [Store.lookup_remove]
    split
    · simp
    · exact gone.unnamed can'
  have inserted : ∀ (s : Session K) can', (p.insertSession can s).sessions.lookup can' ≠
      some id := by
    intro s can'
    rw [insertSession, Store.lookup_insertNew]
    split
    · exact fun same => unborn (Option.some.inj same)
    · exact gone.unnamed can'
  cases effect with
  | write found =>
      exact ⟨⟨below, gone.unnamed⟩, (trace_submit (mine found) _).trans (written found)⟩
  | syn found => exact ⟨⟨below, gone.unnamed⟩, (trace_submit (mine found) _).trans (written found)⟩
  | establish found =>
      exact ⟨⟨below, gone.unnamed⟩, (trace_emit (gone.other found) _).trans (written found)⟩
  | adopt found =>
      exact ⟨⟨below, gone.unnamed⟩, (trace_emit (gone.other found) _).trans (written found)⟩
  | supersede found =>
      exact ⟨⟨below, gone.unnamed⟩, (trace_emit (gone.other found) _).trans (written found)⟩
  | initiate => exact ⟨⟨below, inserted _⟩, trace_insertSession gone _ _⟩
  | accept isSyn own clock =>
      subst own
      exact ⟨⟨below, inserted _⟩, (trace_emit unborn _).trans (trace_insertSession gone _ _)⟩
  | close found =>
      have kept : (p.removeKey can).trace id = p.trace id := rfl
      exact ⟨⟨below, removed⟩, (trace_emit (gone.other found) _).trans
        ((trace_setSession (gone.other found) _).trans kept)⟩
  | acknowledge => exact ⟨⟨below, gone.unnamed⟩, trace_submit (by simp) _⟩
  | reset => exact ⟨⟨below, gone.unnamed⟩, trace_submit (by simp) _⟩
  | @deliver id' s found msgs =>
      have delivered : (p.appendData id' s.peerAddr msgs).trace id = p.trace id :=
        trace_appendData (gone.other found) _ _
      exact ⟨⟨below, gone.unnamed⟩, delivered⟩

theorem apply_gone {op : PeerOp} {p p' : Peer K} {id : SessionId} (keyed : p.registry.Keyed)
    (applied : p.apply op = some p') (gone : p.Gone id) :
    p'.Gone id ∧ p'.trace id = p.trace id := by
  have effects := apply_effects applied keyed
  clear applied keyed
  induction effects with
  | refl => exact ⟨gone, rfl⟩
  | tail _ effect ih =>
      obtain ⟨can, effect⟩ := effect
      obtain ⟨after, same⟩ := effect.gone ih.1
      exact ⟨after, same.trans ih.2⟩

omit [Kcp K] in
theorem names_registry {p : Peer K} {id : SessionId} :
    p.registry.names id = true ↔ ∃ can, p.sessions.lookup can = some id :=
  Registry.names_eq_true

end Peer

theorem peerMachine_lives {K : Type} [Kcp K] {incarnation : UInt64} {config : KcpConfig}
    {p : Peer K} (reached : (peerMachine K incarnation config).Reach Machine.always p) :
    p.registry.Lives := by
  refine reached.invariant_with (P := fun p => p.registry.Lives)
    (fun _ => peerMachine_keyed) ?_ ?_
  · exact ⟨fun _ _ present => by simp [peerMachine] at present, fun _ _ => rfl⟩
  · intro before op after lives keyed _ applied
    exact Registry.lives_of_steps (Peer.apply_steps applied keyed) lives

/-- Every session object lives once, where operations are atomic. In every state they reach
it is open exactly while the map names it; by then it has caused no event while `SynSent` and
one `Connected` while `Established`; and when it is gone its events ended with one
`Disconnected`, or with one `PeerRestarted` after its `Connected`. From then on no further
operation changes it, is logged about it or has its code submit a datagram. -/
theorem sessions_live_once (K : Type) [Kcp K] (incarnation : UInt64) (config : KcpConfig)
    (p : Peer K) (reached : (peerMachine K incarnation config).Reach Machine.always p)
    (id : SessionId) (s : Session K) (present : p.sessions.object? id = some s) :
    (s.closed = false ↔ ∃ can, p.sessions.lookup can = some id) ∧
      (s.closed = false → s.inner.state = .synSent → eventsOf id p.log = []) ∧
      (s.closed = false → s.inner.state = .established → eventsOf id p.log = [.connected]) ∧
      (s.closed = true → s.inner.state = .synSent → eventsOf id p.log = [.disconnected]) ∧
      (s.closed = true → s.inner.state = .established →
        eventsOf id p.log = [.connected, .disconnected] ∨
          eventsOf id p.log = [.connected, .peerRestarted]) ∧
      (s.closed = true → ∀ p',
        ((peerMachine K incarnation config).startingAt p).Reach Machine.always p' →
          p'.trace id = p.trace id ∧ ∀ can, p'.sessions.lookup can ≠ some id) := by
  have visible : p.registry.sessions.object? id = some s.view := by
    rw [Peer.registry_object?, present, Option.map_some]
  have life := (peerMachine_lives reached).life id s.view visible
  have history : eventsOf id p.registry.log = eventsOf id p.log := rfl
  rw [history] at life
  have named : p.registry.names id = true ↔ ∃ can, p.sessions.lookup can = some id :=
    Peer.names_registry
  have frozen : s.closed = true → (¬ ∃ can, p.sessions.lookup can = some id) → ∀ p',
      ((peerMachine K incarnation config).startingAt p).Reach Machine.always p' →
        p'.trace id = p.trace id ∧ ∀ can, p'.sessions.lookup can ≠ some id := by
    intro _ unnamed p' later
    have gone : p.Gone id := ⟨Store.object?_lt present, fun can same => unnamed ⟨can, same⟩⟩
    have kept := later.invariant
      (P := fun p' => p'.registry.Keyed ∧ p'.Gone id ∧ p'.trace id = p.trace id)
      ⟨peerMachine_keyed reached, gone, rfl⟩ (by
        rintro before op after ⟨keyed, gone, same⟩ _ applied
        obtain ⟨gone', same'⟩ := Peer.apply_gone keyed applied gone
        exact ⟨Registry.keyed_of_steps (Peer.apply_steps applied keyed) keyed, gone',
          same'.trans same⟩)
    exact ⟨kept.2.2, kept.2.1.unnamed⟩
  generalize p.registry.names id = there at life named
  generalize eventsOf id p.log = events at life ⊢
  cases life with
  | waiting opened state =>
      have opened : s.closed = false := opened
      have state : s.inner.state = .synSent := state
      simp [opened, state, ← named]
  | established opened state =>
      have opened : s.closed = false := opened
      have state : s.inner.state = .established := state
      simp [opened, state, ← named]
  | abandoned closed state =>
      have closed : s.closed = true := closed
      have state : s.inner.state = .synSent := state
      simp only [← named, Bool.false_eq_true, not_false_eq_true] at frozen
      simpa [closed, state, ← named] using frozen closed trivial
  | ended closed state farewell =>
      have closed : s.closed = true := closed
      have state : s.inner.state = .established := state
      simp only [← named, Bool.false_eq_true, not_false_eq_true] at frozen
      simpa [closed, state, ← named, farewell] using frozen closed trivial

/-- The session of a remote that came back, after it was given up. -/
theorem sessions_live_once_restarted :
    ∃ (p : Peer SampleKcp) (s : Session SampleKcp),
      (peerMachine SampleKcp 1 .default).Reach Machine.always p ∧
      p.sessions.object? 0 = some s ∧ s.closed = true ∧
      (eventsOf 0 p.log = [.connected, .disconnected] ∨
        eventsOf 0 p.log = [.connected, .peerRestarted]) ∧
      ¬ ∃ can, p.sessions.lookup can = some 0 := by
  have run : ((peerMachine SampleKcp 1 .default).exec Machine.always
      (peerMachine SampleKcp 1 .default).start
      [.incoming (encodeControl .syn 10) .remote .sample .sample,
        .incoming (encodeControl .syn 20) .remote .sample .sample]).any
      (fun p => (p.sessions.object? 0).any fun s =>
        s.closed && decide (s.inner.state = .established)) = true := by
    decide +kernel
  obtain ⟨p, reached, checked⟩ := Machine.Reach.exec_any _ run
  obtain ⟨s, present, checked⟩ := (Option.any_eq_true ..).mp checked
  simp only [Bool.and_eq_true, decide_eq_true_eq] at checked
  obtain ⟨closed, state⟩ := checked
  obtain ⟨opened, _, _, _, ended, _⟩ :=
    sessions_live_once SampleKcp 1 .default p reached 0 s present
  refine ⟨p, s, reached, present, closed, ended closed state, fun named => ?_⟩
  rw [opened.mpr named] at closed
  cases closed

end KcpPeer
