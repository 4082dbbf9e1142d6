import KcpPeer.SampleKcp
import Mathlib.Data.List.Chain

set_option autoImplicit false

namespace KcpPeer

inductive Lifecycle where
  | connected
  | disconnected
  | peerRestarted
  deriving DecidableEq, Repr

def Event.peer : Event → SocketAddr
  | .connected peer | .disconnected peer | .peerRestarted peer => peer

def Event.kind : Event → Lifecycle
  | .connected _ => .connected
  | .disconnected _ => .disconnected
  | .peerRestarted _ => .peerRestarted

def LogEntry.event? : LogEntry → Option Event
  | .event e _ => some e
  | .data .. => none

/-- What a log entry says about the address `can`. -/
def LogEntry.lifecycle (can : CanonicalAddr) : LogEntry → Option Lifecycle
  | .event e _ => if canonicalize e.peer = can then some e.kind else none
  | .data _ _ => none

/-- The events of a log whose address canonicalizes to `can`, oldest first. -/
def eventsFor (can : CanonicalAddr) (log : List LogEntry) : List Lifecycle :=
  log.filterMap (LogEntry.lifecycle can)

theorem eventsFor_append (can : CanonicalAddr) (left right : List LogEntry) :
    eventsFor can (left ++ right) = eventsFor can left ++ eventsFor can right :=
  List.filterMap_append

theorem eventsFor_own {can : CanonicalAddr} (log : List LogEntry) {e : Event} (id : SessionId)
    (own : canonicalize e.peer = can) :
    eventsFor can (log ++ [.event e id]) = eventsFor can log ++ [e.kind] := by
  rw [eventsFor_append]
  simp [eventsFor, LogEntry.lifecycle, own]

theorem eventsFor_other {can : CanonicalAddr} (log : List LogEntry) {e : Event} (id : SessionId)
    (other : canonicalize e.peer ≠ can) :
    eventsFor can (log ++ [.event e id]) = eventsFor can log := by
  rw [eventsFor_append]
  simp [eventsFor, LogEntry.lifecycle, other]

theorem eventsFor_data (can : CanonicalAddr) (log : List LogEntry) (msgs : List DataMessage)
    (id : SessionId) :
    eventsFor can (log ++ msgs.map fun msg => .data msg id) = eventsFor can log := by
  rw [eventsFor_append]
  have silent : eventsFor can (msgs.map fun msg => LogEntry.data msg id) = [] := by
    simp [eventsFor, LogEntry.lifecycle]
  rw [silent, List.append_nil]

/-- Which event may come next for one address. -/
def Follows : Lifecycle → Lifecycle → Prop
  | .connected, next => next ≠ .connected
  | .disconnected, next => next ≠ .peerRestarted
  | .peerRestarted, next => next = .connected

/-- The history of one address between two operations: every event may follow
the one before it, and no restart is at either end. -/
structure Grammar (events : List Lifecycle) : Prop where
  chain : events.IsChain Follows
  first : events.head? ≠ some .peerRestarted
  last : events.getLast? ≠ some .peerRestarted

theorem Grammar.nil : Grammar [] where
  chain := .nil
  first := by simp
  last := by simp

theorem Grammar.snoc {events : List Lifecycle} {next : Lifecycle} (ok : Grammar events)
    (follows : ∀ before, events.getLast? = some before → Follows before next)
    (noRestart : next ≠ .peerRestarted) : Grammar (events ++ [next]) where
  chain := by
    rw [List.isChain_append]
    refine ⟨ok.chain, List.isChain_singleton _, ?_⟩
    intro before isLast after isFirst
    simp only [List.head?_cons, Option.mem_def, Option.some.injEq] at isFirst
    subst isFirst
    exact follows before isLast
  first := by
    cases events with
    | nil => simpa using noRestart
    | cons head rest => simpa using ok.first
  last := by simpa using noRestart

/-- Two `Connected` events have another event between them. -/
theorem Grammar.separated {before between after : List Lifecycle}
    (ok : Grammar (before ++ .connected :: between ++ .connected :: after)) :
    ∃ e ∈ between, e = .disconnected ∨ e = .peerRestarted := by
  have chain := ok.chain
  rw [List.append_assoc, List.isChain_append] at chain
  have tail := chain.2.1
  cases between with
  | nil =>
      simp only [List.cons_append, List.nil_append, List.isChain_cons_cons] at tail
      exact absurd rfl tail.1
  | cons next rest =>
      simp only [List.cons_append, List.isChain_cons_cons] at tail
      refine ⟨next, List.mem_cons_self, ?_⟩
      cases next with
      | connected => exact absurd rfl tail.1
      | disconnected => exact Or.inl rfl
      | peerRestarted => exact Or.inr rfl

/-- A restart comes right after a `Connected` and right before the next one. -/
theorem Grammar.restart_between {before after : List Lifecycle}
    (ok : Grammar (before ++ .peerRestarted :: after)) :
    before.getLast? = some .connected ∧ after.head? = some .connected := by
  have chain := ok.chain
  rw [List.isChain_append] at chain
  obtain ⟨_, tail, joint⟩ := chain
  constructor
  · cases isLast : before.getLast? with
    | none =>
        have empty : before = [] := List.getLast?_eq_none_iff.mp isLast
        exact absurd (by simp [empty]) ok.first
    | some previous =>
        have follows := joint previous isLast .peerRestarted (by simp)
        cases previous with
        | connected => rfl
        | disconnected => exact absurd rfl follows
        | peerRestarted => cases follows
  · cases after with
    | nil => exact absurd (by simp) ok.last
    | cons next rest =>
        rw [List.isChain_cons_cons] at tail
        rw [List.head?_cons, show next = .connected from tail.1]

namespace Registry

/-- The map holds an established session for the address. -/
def EstablishedFor (r : Registry) (can : CanonicalAddr) : Prop :=
  ∃ id v, r.sessions.find can = some (id, v) ∧ v.state = .established

/-- The history of every address agrees with the map. -/
structure Mirrored (r : Registry) (can : CanonicalAddr) : Prop where
  grammar : Grammar (eventsFor can r.log)
  live : r.EstablishedFor can ↔ (eventsFor can r.log).getLast? = some .connected

/-- An operation on another address leaves the history of `can` alone. -/
theorem Mirrored.frame {r r' : Registry} {can : CanonicalAddr} (ok : r.Mirrored can)
    (find : r'.sessions.find can = r.sessions.find can)
    (events : eventsFor can r'.log = eventsFor can r.log) : r'.Mirrored can := by
  refine ⟨events ▸ ok.grammar, ?_⟩
  simp only [EstablishedFor, find, events]
  exact ok.live

/-- One more event for `can`, which leaves the map in the state it announces. -/
theorem Mirrored.extend {r r' : Registry} {can : CanonicalAddr} {next : Lifecycle}
    (ok : r.Mirrored can) (events : eventsFor can r'.log = eventsFor can r.log ++ [next])
    (follows : ∀ before, (eventsFor can r.log).getLast? = some before → Follows before next)
    (noRestart : next ≠ .peerRestarted) (live : r'.EstablishedFor can ↔ next = .connected) :
    r'.Mirrored can where
  grammar := events ▸ ok.grammar.snoc follows noRestart
  live := by
    rw [live, events, List.getLast?_append_of_ne_nil _ (by simp)]
    simp

theorem Mirrored.not_last {r : Registry} {can : CanonicalAddr} (ok : r.Mirrored can)
    (idle : ¬ r.EstablishedFor can) (before : Lifecycle)
    (isLast : (eventsFor can r.log).getLast? = some before) : before = .disconnected := by
  cases before with
  | connected => exact absurd (ok.live.mpr isLast) idle
  | disconnected => rfl
  | peerRestarted => exact absurd isLast ok.grammar.last

/-- `Connected` may be announced for an address that has no established session. -/
theorem Mirrored.connect {r r' : Registry} {can : CanonicalAddr} (ok : r.Mirrored can)
    (idle : ¬ r.EstablishedFor can)
    (events : eventsFor can r'.log = eventsFor can r.log ++ [.connected])
    (live : r'.EstablishedFor can) : r'.Mirrored can := by
  apply ok.extend events
  · intro before isLast
    rw [ok.not_last idle before isLast]
    exact nofun
  · exact nofun
  · exact iff_of_true live rfl

theorem Mirrored.restart {r r' : Registry} {can : CanonicalAddr} (ok : r.Mirrored can)
    (ready : r.EstablishedFor can)
    (events : eventsFor can r'.log = eventsFor can r.log ++ [.peerRestarted] ++ [.connected])
    (live : r'.EstablishedFor can) : r'.Mirrored can := by
  have isLast := ok.live.mp ready
  refine ⟨⟨?_, ?_, ?_⟩, ?_⟩
  · rw [events, List.append_assoc, List.isChain_append]
    refine ⟨ok.grammar.chain, ?_, ?_⟩
    · simp only [List.cons_append, List.nil_append, List.isChain_cons_cons, List.isChain_singleton,
        and_true]
      exact rfl
    · intro before isLast' after isFirst
      rw [Option.mem_def, isLast, Option.some.injEq] at isLast'
      simp only [List.cons_append, List.head?_cons, Option.mem_def, Option.some.injEq] at isFirst
      subst isLast' isFirst
      exact nofun
  · rw [events]
    cases history : eventsFor can r.log with
    | nil => simp [history] at isLast
    | cons head rest =>
        have first := ok.grammar.first
        simpa [history] using first
  · rw [events]
    simp
  · rw [events]
    simpa using live

/-- One step keeps the history of every address in agreement with the map. -/
theorem Step.mirrored {r r' : Registry} (step : Step r r') (can : CanonicalAddr)
    (ok : r.Mirrored can) : r'.Mirrored can := by
  cases step with
  | deliver id msgs => exact ok.frame rfl (eventsFor_data can r.log msgs id)
  | openTo peer conv absent =>
      by_cases same : can = canonicalize peer
      · have idle : ¬ r.EstablishedFor can := by
          rintro ⟨id, v, found, _⟩
          rw [same, absent] at found
          cases found
        refine ⟨ok.grammar, iff_of_false ?_ (fun isLast => idle (ok.live.mpr isLast))⟩
        rintro ⟨id, v, found, ready⟩
        rw [find_openTo, if_pos same] at found
        cases found
        cases ready
      · exact ok.frame (by rw [find_openTo, if_neg same]) rfl
  | accept src conv absent =>
      by_cases same : can = canonicalize src
      · apply ok.connect
        · rintro ⟨id, v, found, _⟩
          rw [same, absent] at found
          cases found
        · exact eventsFor_own r.log _ same.symm
        · exact ⟨_, _, (find_accept conv can).trans (if_pos same), rfl⟩
      · exact ok.frame ((find_accept conv can).trans (if_neg same))
          (eventsFor_other r.log _ (Ne.symm same))
  | establish id v conv src found waiting =>
      by_cases same : can = canonicalize src
      · apply ok.connect
        · rintro ⟨id', v', found', ready⟩
          rw [same, found] at found'
          cases found'
          rw [waiting] at ready
          cases ready
        · exact eventsFor_own r.log id same.symm
        · exact ⟨_, _, (find_establish conv can found).trans (if_pos same), rfl⟩
      · exact ok.frame ((find_establish conv can found).trans (if_neg same))
          (eventsFor_other r.log id (Ne.symm same))
  | restart id v conv src found ready =>
      by_cases same : can = canonicalize src
      · have superseded : eventsFor can (r.supersede id v src).log =
            eventsFor can r.log ++ [.peerRestarted] := eventsFor_own r.log id same.symm
        apply ok.restart
        · exact ⟨id, v, same ▸ found, ready⟩
        · rw [← superseded]
          exact eventsFor_own _ _ same.symm
        · exact ⟨_, _, (find_accept conv can).trans (if_pos same), rfl⟩
      · have superseded : eventsFor can (r.supersede id v src).log = eventsFor can r.log :=
          eventsFor_other r.log id (Ne.symm same)
        apply ok.frame
        · rw [find_accept, if_neg same, find_supersede can found, if_neg same]
        · rw [← superseded]
          exact eventsFor_other _ _ (Ne.symm same)
  | close id v addr found =>
      by_cases same : can = canonicalize addr
      · have logged : eventsFor can (r.close (canonicalize addr) id v addr).log =
            eventsFor can r.log ++ [.disconnected] := eventsFor_own r.log id same.symm
        apply ok.extend logged
        · intro before isLast
          cases before with
          | connected => exact nofun
          | disconnected => exact nofun
          | peerRestarted => exact absurd isLast ok.grammar.last
        · exact nofun
        · apply iff_of_false
          · rintro ⟨id', v', found', _⟩
            rw [find_close can found, if_pos same] at found'
            cases found'
          · exact nofun
      · exact ok.frame ((find_close can found).trans (if_neg same))
          (eventsFor_other r.log id (Ne.symm same))

theorem steps_mirrored {r r' : Registry} (steps : Relation.ReflTransGen Step r r')
    (can : CanonicalAddr) (ok : r.Mirrored can) : r'.Mirrored can := by
  induction steps with
  | refl => exact ok
  | tail _ step ih => exact step.mirrored can ih

end Registry

theorem peerMachine_mirrored {K : Type} [Kcp K] {incarnation : UInt64} {config : KcpConfig}
    {guard : Peer K → PeerOp → Prop} {p : Peer K}
    (reached : (peerMachine K incarnation config).Reach guard p) (can : CanonicalAddr) :
    p.registry.Mirrored can := by
  refine reached.invariant_with (P := fun p => p.registry.Mirrored can)
    (fun _ => peerMachine_keyed) ?_ ?_
  · refine ⟨Grammar.nil, iff_of_false ?_ (by simp [eventsFor, peerMachine])⟩
    rintro ⟨id, v, found, _⟩
    simp [peerMachine] at found
  · intro before op after ok keyed _ applied
    exact Registry.steps_mirrored (Peer.apply_steps applied keyed) can ok

/-- Over every run of atomic operations the events of an address mirror its
session: `Connected` is last exactly while an established session is held, two
`Connected` are separated, and a restart lies between two of them. -/
theorem event_log_mirrors_session_map (K : Type) [Kcp K] (incarnation : UInt64)
    (config : KcpConfig) (p : Peer K)
    (reached : (peerMachine K incarnation config).Reach Machine.always p) (can : CanonicalAddr) :
    ((∃ id s, p.sessions.find can = some (id, s) ∧ s.inner.state = .established) ↔
      (eventsFor can p.log).getLast? = some .connected) ∧
    (∀ before between after,
      eventsFor can p.log = before ++ .connected :: between ++ .connected :: after →
        ∃ e ∈ between, e = .disconnected ∨ e = .peerRestarted) ∧
    (∀ before after, eventsFor can p.log = before ++ .peerRestarted :: after →
      before.getLast? = some .connected ∧ after.head? = some .connected) := by
  have ok := peerMachine_mirrored reached can
  have history : eventsFor can p.registry.log = eventsFor can p.log := rfl
  refine ⟨?_, ?_, ?_⟩
  · rw [← history, ← ok.live]
    constructor
    · rintro ⟨id, s, found, ready⟩
      exact ⟨id, s.view, by rw [Peer.registry_find, found]; rfl, ready⟩
    · rintro ⟨id, v, found, ready⟩
      rw [Peer.registry_find, Option.map_eq_some_iff] at found
      obtain ⟨⟨id', s⟩, found, same⟩ := found
      cases same
      exact ⟨id', s, found, ready⟩
  · intro before between after shape
    exact Grammar.separated (shape ▸ history ▸ ok.grammar)
  · intro before after shape
    exact Grammar.restart_between (shape ▸ history ▸ ok.grammar)

/-- A peer that has accepted one SYN. -/
theorem event_log_mirrors_session_map_accepted :
    ∃ p, (peerMachine SampleKcp 1 KcpConfig.default).Reach Machine.always p ∧
      ∃ id s, p.sessions.find (canonicalize (Setting.sample.addr .a)) = some (id, s) ∧
        s.inner.state = .established := by
  have run : ((peerMachine SampleKcp 1 KcpConfig.default).exec Machine.always
      (peerMachine SampleKcp 1 KcpConfig.default).start
      [.incoming (encodeControl .syn 5) (Setting.sample.addr .a) .sample
        (.reliable (Setting.sample.addr .b))]).any
      (fun p => decide ((eventsFor (canonicalize (Setting.sample.addr .a)) p.log).getLast? =
        some .connected)) = true := by
    decide +kernel
  obtain ⟨p, reached, checked⟩ := Machine.Reach.exec_any _ run
  exact ⟨p, reached, (event_log_mirrors_session_map SampleKcp 1 KcpConfig.default p reached
    (canonicalize (Setting.sample.addr .a))).1.mpr (of_decide_eq_true checked)⟩

end KcpPeer
