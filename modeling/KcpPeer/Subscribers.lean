import KcpPeer.EventLog
import KcpPeer.Lib.Broadcast
import KcpPeer.Unread

set_option autoImplicit false

namespace KcpPeer

/-- What an event says about an address, to someone who keeps a table of the addresses
with an established session. -/
def Event.learn (table : CanonicalAddr → Bool) (e : Event) : CanonicalAddr → Bool :=
  fun can => if canonicalize e.peer = can then decide (e.kind = .connected) else table can

def Event.lifecycle (can : CanonicalAddr) (e : Event) : Option Lifecycle :=
  if canonicalize e.peer = can then some e.kind else none

/-- The last event about an address decides. -/
theorem Event.foldl_learn (events : List Event) (table : CanonicalAddr → Bool)
    (can : CanonicalAddr) :
    events.foldl Event.learn table can =
      match (events.filterMap (Event.lifecycle can)).getLast? with
      | none => table can
      | some kind => decide (kind = .connected) := by
  induction events generalizing table with
  | nil => rfl
  | cons e rest ih =>
      rw [List.foldl_cons, ih, List.filterMap_cons]
      by_cases own : canonicalize e.peer = can
      · simp only [Event.lifecycle, Event.learn, own, ↓reduceIte, List.getLast?_cons]
        cases (rest.filterMap (Event.lifecycle can)).getLast? with
        | none => rfl
        | some kind => rfl
      · simp only [Event.lifecycle, Event.learn, own, ↓reduceIte]

namespace Peer

variable {K : Type}

/-- Everything the peer has sent to its event channel. -/
def events (p : Peer K) : List Event := p.log.filterMap LogEntry.event?

def establishedWith (p : Peer K) (can : CanonicalAddr) : Bool :=
  match p.sessions.find can with
  | some (_, s) => decide (s.inner.state = .established)
  | none => false

theorem eventsFor_events (p : Peer K) (can : CanonicalAddr) :
    p.events.filterMap (Event.lifecycle can) = eventsFor can p.log := by
  rw [events, List.filterMap_filterMap]
  apply List.filterMap_congr
  intro entry _
  cases entry with
  | event e id => rfl
  | data msg id => rfl

theorem establishedWith_eq_true {p : Peer K} {can : CanonicalAddr} :
    p.establishedWith can = true ↔
      ∃ id s, p.sessions.find can = some (id, s) ∧ s.inner.state = .established := by
  unfold establishedWith
  cases p.sessions.find can with
  | none => simp
  | some entry =>
      obtain ⟨id, s⟩ := entry
      simp

theorem establishedFor_registry {p : Peer K} {can : CanonicalAddr} :
    p.registry.EstablishedFor can ↔ p.establishedWith can = true := by
  rw [establishedWith_eq_true]
  constructor
  · rintro ⟨id, v, found, ready⟩
    rw [registry_find, Option.map_eq_some_iff] at found
    obtain ⟨⟨id', s⟩, found, same⟩ := found
    cases same
    exact ⟨id', s, found, ready⟩
  · rintro ⟨id, s, found, ready⟩
    exact ⟨id, s.view, by rw [registry_find, found]; rfl, ready⟩

variable [Kcp K]

theorem events_apply {p p' : Peer K} {op : PeerOp} (applied : p.apply op = some p') :
    p'.events = p.events ++ p'.events.drop p.events.length := by
  obtain ⟨after, _, rfl⟩ := apply_appends applied
  simp only [events, List.filterMap_append, List.drop_left]

/-- The events of an operation tell how it changed the sessions. -/
theorem establishedWith_apply {incarnation : UInt64} {config : KcpConfig} {p p' : Peer K}
    (reached : (peerMachine K incarnation config).Reach Machine.always p) {op : PeerOp}
    (applied : p.apply op = some p') (can : CanonicalAddr) :
    p'.establishedWith can =
      (p'.events.drop p.events.length).foldl Event.learn p.establishedWith can := by
  have mirrored : ∀ {p : Peer K}, (peerMachine K incarnation config).Reach Machine.always p →
      p.establishedWith can = decide ((eventsFor can p.log).getLast? = some .connected) := by
    intro p reached
    rw [Bool.eq_iff_iff, decide_eq_true_eq, ← establishedFor_registry]
    exact (peerMachine_mirrored reached can).live
  have grown := congrArg (List.filterMap (Event.lifecycle can)) (events_apply applied)
  rw [List.filterMap_append, eventsFor_events, eventsFor_events] at grown
  rw [mirrored (.step reached trivial applied), Event.foldl_learn, mirrored reached, grown,
    List.getLast?_append]
  cases ((p'.events.drop p.events.length).filterMap (Event.lifecycle can)).getLast? with
  | none => rfl
  | some kind => simp only [Option.some_or, Option.some.injEq]

end Peer

/-- A receiver of `events()`, with the addresses that had an established session when it
subscribed. -/
structure Watcher extends Subscriber Event where
  established : CanonicalAddr → Bool

/-- A peer with its event channel and the receivers that were handed out. -/
structure Audience (K : Type) where
  peer : Peer K
  channel : Broadcast Event
  watchers : List Watcher

inductive AudienceStep where
  | peer (op : PeerOp)
  | events
  | receive (watcher : Nat)

/-- `event_tx.send` puts every event of an operation on the channel. A channel without
receivers keeps nothing, which no later receiver can tell. -/
def Audience.step {K : Type} [Kcp K] (n : Audience K) : AudienceStep → Option (Audience K)
  | .peer op => (n.peer.apply op).map fun p =>
      { n with
        peer := p
        channel := (p.events.drop n.peer.events.length).foldl Broadcast.send n.channel }
  | .events => some
      { n with watchers := n.watchers ++ [⟨.new n.channel, n.peer.establishedWith⟩] }
  | .receive i =>
      match n.watchers[i]? with
      | none => none
      | some w => some
          { n with
            watchers := n.watchers.set i { w with toSubscriber := w.receive n.channel } }

/-- `bind_with` creates the channel. `capacity` is what it grants, which may be more than
was asked for. -/
def audienceMachine (K : Type) [Kcp K] (incarnation : UInt64) (config : KcpConfig)
    (capacity : Nat) : Machine (Audience K) AudienceStep where
  start := ⟨.bind incarnation config, .channel capacity, []⟩
  step := Audience.step

/-- What holds of every receiver, however the steps were interleaved. -/
structure Informed {K : Type} [Kcp K] (incarnation : UInt64) (config : KcpConfig) (capacity : Nat)
    (n : Audience K) : Prop where
  reached : (peerMachine K incarnation config).Reach Machine.always n.peer
  capacity : n.channel.capacity = capacity
  carries : n.channel.Carries n.peer.events
  faithful : ∀ w ∈ n.watchers, w.toSubscriber.Faithful n.peer.events
  table : ∀ w ∈ n.watchers, ∀ can, n.peer.establishedWith can =
    (n.peer.events.drop w.since).foldl Event.learn w.established can

section Informed

variable {K : Type} [Kcp K] {incarnation : UInt64} {config : KcpConfig} {capacity : Nat}
  {n : Audience K}

theorem Informed.peer (informed : Informed incarnation config capacity n) {op : PeerOp}
    {p : Peer K} (applied : n.peer.apply op = some p) :
    Informed incarnation config capacity { n with
      peer := p
      channel := (p.events.drop n.peer.events.length).foldl Broadcast.send n.channel } := by
  have grown := Peer.events_apply applied
  refine ⟨.step informed.reached trivial applied, ?_, ?_, ?_, ?_⟩
  · rw [Broadcast.foldl_send_capacity]
    exact informed.capacity
  · have carries := informed.carries.foldl_send (p.events.drop n.peer.events.length)
    rwa [← grown] at carries
  · intro w mem
    have faithful := (informed.faithful w mem).grow (p.events.drop n.peer.events.length)
    rwa [← grown] at faithful
  · intro w mem can
    have since := (informed.faithful w mem).started.trans (informed.faithful w mem).within
    have before : n.peer.establishedWith =
        (n.peer.events.drop w.since).foldl Event.learn w.established :=
      funext (informed.table w mem)
    have step := Peer.establishedWith_apply informed.reached applied can
    rw [before, ← List.foldl_append, ← List.drop_append_of_le_length since, ← grown] at step
    exact step

theorem Informed.subscribe (informed : Informed incarnation config capacity n) :
    Informed incarnation config capacity
      { n with watchers := n.watchers ++ [⟨.new n.channel, n.peer.establishedWith⟩] } := by
  refine ⟨informed.reached, informed.capacity, informed.carries, ?_, ?_⟩
  · intro w mem
    rcases List.mem_append.mp mem with old | new
    · exact informed.faithful w old
    · obtain rfl := List.mem_singleton.mp new
      exact .new informed.carries
  · intro w mem can
    rcases List.mem_append.mp mem with old | new
    · exact informed.table w old can
    · obtain rfl := List.mem_singleton.mp new
      have nothing : n.peer.events.drop n.channel.sent = [] :=
        List.drop_eq_nil_of_le (Nat.le_of_eq informed.carries.sent.symm)
      simp only [Subscriber.new, Broadcast.subscribe, nothing, List.foldl_nil]

theorem Informed.receive (informed : Informed incarnation config capacity n) {i : Nat}
    {w : Watcher} (there : n.watchers[i]? = some w) :
    Informed incarnation config capacity { n with
      watchers := n.watchers.set i { w with toSubscriber := w.receive n.channel } } := by
  have mem := List.mem_of_getElem? there
  refine ⟨informed.reached, informed.capacity, informed.carries, ?_, ?_⟩
  · intro w' mem'
    rcases List.mem_or_eq_of_mem_set mem' with old | rfl
    · exact informed.faithful w' old
    · exact (informed.faithful w mem).receive informed.carries
  · intro w' mem' can
    rcases List.mem_or_eq_of_mem_set mem' with old | rfl
    · exact informed.table w' old can
    · exact informed.table w mem can

end Informed

theorem audienceMachine_informed {K : Type} [Kcp K] {incarnation : UInt64} {config : KcpConfig}
    {capacity : Nat} {n : Audience K}
    (reached : (audienceMachine K incarnation config capacity).Reach Machine.always n) :
    Informed incarnation config capacity n := by
  refine reached.invariant (P := Informed incarnation config capacity) ?_ ?_
  · exact ⟨.start, rfl, Broadcast.carries_channel capacity,
      fun _ mem => absurd mem List.not_mem_nil, fun _ mem => absurd mem List.not_mem_nil⟩
  · intro before step after informed _ taken
    cases step with
    | peer op =>
        obtain ⟨p, applied, rfl⟩ := Option.map_eq_some_iff.mp taken
        exact informed.peer applied
    | events =>
        obtain rfl := Option.some.inj taken
        exact informed.subscribe
    | receive i =>
        change (match before.watchers[i]? with | none => none | some w => some _) = _ at taken
        cases there : before.watchers[i]? with
        | none =>
            rw [there] at taken
            cases taken
        | some w =>
            rw [there] at taken
            obtain rfl := Option.some.inj taken
            exact informed.receive there

/-- Subscribers can follow the sessions. In every run, whenever they subscribed and however
late they read: what a subscriber has been told accounts for exactly the events sent since
it subscribed, in order, and a lag names the number of events it skips; it lags only when
more events wait than the configured capacity; and for one that never lagged and has read
everything, the addresses that had an established session when it subscribed, which `events()`
does not tell it, and the events alone give exactly those that have one now. -/
theorem subscribers_can_follow (K : Type) [Kcp K] (incarnation : UInt64) (config : KcpConfig)
    (capacity : Nat) (granted : config.eventChannelCapacity ≤ capacity) (n : Audience K)
    (reached : (audienceMachine K incarnation config capacity).Reach Machine.always n)
    (w : Watcher) (mem : w ∈ n.watchers) :
    let waiting := n.peer.events.drop w.cursor
    Broadcast.Accounts w.told ((n.peer.events.take w.cursor).drop w.since) ∧
      ((n.channel.receive w.cursor).2 = .empty ↔ waiting = []) ∧
      (∀ e, (n.channel.receive w.cursor).2 = .value e → waiting.head? = some e) ∧
      (∀ missed, (n.channel.receive w.cursor).2 = .lagged missed →
        config.eventChannelCapacity < waiting.length ∧ missed = waiting.length - capacity) ∧
      ((∀ missed, .lagged missed ∉ w.told) → waiting = [] → ∀ can,
        (w.told.filterMap Received.value?).foldl Event.learn w.established can =
          n.peer.establishedWith can) := by
  intro waiting
  have informed := audienceMachine_informed reached
  have faithful := informed.faithful w mem
  have length : waiting.length = n.peer.events.length - w.cursor := List.length_drop ..
  have next := informed.carries.receive w.cursor
  rw [informed.capacity, ← length] at next
  have head : n.peer.events[w.cursor]? = waiting.head? := by
    rw [List.head?_drop]
  refine ⟨faithful.accounts, ?_, ?_, ?_, ?_⟩
  · rw [next]
    by_cases behind : capacity < waiting.length
    · have some : waiting ≠ [] := List.ne_nil_of_length_pos (by omega)
      simp only [behind, ↓reduceIte, some, reduceCtorEq]
    · rw [if_neg behind, head]
      cases waiting with
      | nil => simp
      | cons e rest => simp
  · intro e told
    rw [next] at told
    split at told
    · cases told
    · rw [head] at told
      cases first : waiting.head? with
      | none =>
          rw [first] at told
          cases told
      | some e' =>
          rw [first] at told
          cases told
          rfl
  · intro missed told
    rw [next] at told
    split at told
    · rename_i behind
      cases told
      omega
    · split at told
      · cases told
      · cases told
  · intro kept drained can
    rw [Broadcast.Accounts.values faithful.accounts kept, informed.table w mem can,
      List.take_of_length_le (List.drop_eq_nil_iff.mp drained)]

/-- A subscriber that reads what follows knows that the remote is connected. -/
theorem subscribers_can_follow_connected :
    ∃ (n : Audience SampleKcp) (w : Watcher),
      (audienceMachine SampleKcp 1 .default 1024).Reach Machine.always n ∧ w ∈ n.watchers ∧
      w.told = [.empty, .value (.connected .remote)] ∧
      (w.told.filterMap Received.value?).foldl Event.learn w.established (canonicalize .remote) =
        n.peer.establishedWith (canonicalize .remote) ∧
      n.peer.establishedWith (canonicalize .remote) = true := by
  have run : ((audienceMachine SampleKcp 1 .default 1024).exec Machine.always
      (audienceMachine SampleKcp 1 .default 1024).start
      [.events, .receive 0, .peer (.incoming (encodeControl .syn 10) .remote .sample .sample),
        .receive 0]).any
      (fun n => n.watchers.any (fun w =>
          decide (w.told = [.empty, .value (.connected .remote)]) &&
          decide (n.peer.events.drop w.cursor = [])) &&
        n.peer.establishedWith (canonicalize .remote)) = true := by
    decide +kernel
  obtain ⟨n, reached, checked⟩ := Machine.Reach.exec_any _ run
  simp only [Bool.and_eq_true, List.any_eq_true, decide_eq_true_eq] at checked
  obtain ⟨⟨w, mem, told, drained⟩, established⟩ := checked
  have kept : ∀ missed, .lagged missed ∉ w.told := by
    intro missed mem
    simp [told] at mem
  obtain ⟨_, _, _, _, follow⟩ :=
    subscribers_can_follow SampleKcp 1 .default 1024 (Nat.le_refl _) n reached w mem
  exact ⟨n, w, reached, mem, told, follow kept drained _, established⟩

end KcpPeer
