import KcpPeer.SampleKcp
import KcpPeer.Simulation

set_option autoImplicit false

namespace KcpPeer

namespace Registry

/-- No session that the map holds is closed. -/
def AllOpen (r : Registry) : Prop :=
  ∀ can id v, r.sessions.find can = some (id, v) → v.closed = false

theorem Step.allOpen {r r' : Registry} (step : Step r r') (isOpen : r.AllOpen) : r'.AllOpen := by
  intro can id' v' found'
  cases step with
  | deliver => exact isOpen can id' v' found'
  | openTo peer conv =>
      rw [find_openTo] at found'
      split at found'
      · cases found'
        rfl
      · exact isOpen can id' v' found'
  | accept src conv =>
      rw [find_accept] at found'
      split at found'
      · cases found'
        rfl
      · exact isOpen can id' v' found'
  | establish id v conv src found =>
      rw [find_establish conv can found] at found'
      split at found'
      · cases found'
        exact isOpen _ _ v found
      · exact isOpen can id' v' found'
  | restart id v conv src found =>
      rw [find_accept, find_supersede can found] at found'
      split at found'
      · cases found'
        rfl
      · exact isOpen can id' v' found'
  | close id v addr found =>
      rw [find_close can found] at found'
      split at found'
      · cases found'
      · exact isOpen can id' v' found'

/-- The session object is established. -/
def IsEstablished (r : Registry) (id : SessionId) : Prop :=
  ∃ v, r.sessions.object? id = some v ∧ v.state = .established

theorem isEstablished_close {r : Registry} {can : CanonicalAddr} {id id' : SessionId} {v : View}
    {addr : SocketAddr} (found : r.sessions.find can = some (id, v))
    (ready : (r.close can id v addr).IsEstablished id') : r.IsEstablished id' := by
  obtain ⟨v', present, state⟩ := ready
  simp only [close, emit, set] at present
  rw [Store.object?_modify, Store.object?_remove] at present
  split at present
  · rename_i same
    subst same
    have held := (Store.find_eq_some.mp found).2
    rw [held, Option.map_some] at present
    cases present
    exact ⟨v, held, state⟩
  · exact ⟨v', present, state⟩

theorem isEstablished_disconnect {r : Registry} {peer : SocketAddr} {id : SessionId}
    (ready : (r.disconnect peer).IsEstablished id) : r.IsEstablished id := by
  unfold disconnect at ready
  split at ready
  · exact ready
  · rename_i found
    exact isEstablished_close found ready

theorem isEstablished_foldl_prune (toRemove : List CanonicalAddr) {r : Registry} {id : SessionId}
    (ready : (toRemove.foldl prune r).IsEstablished id) : r.IsEstablished id := by
  induction toRemove generalizing r with
  | nil => exact ready
  | cons can rest ih =>
      have before := ih ready
      unfold prune at before
      split at before
      · exact before
      · rename_i found
        exact isEstablished_close found before

theorem isEstablished_send {r : Registry} {peer : SocketAddr} {conv : UInt32} {id : SessionId}
    (ready : (r.send peer conv).IsEstablished id) : r.IsEstablished id := by
  unfold send at ready
  split at ready
  · exact ready
  · obtain ⟨v, present, state⟩ := ready
    simp only [openTo] at present
    rw [Store.object?_insertNew] at present
    split at present
    · cases present
      cases state
    · exact ⟨v, present, state⟩

end Registry

/-- `f` carries a SYN of an earlier session than `g`, counting the sender's
sessions over all its binds. -/
def Flight.Older (f g : Flight) : Prop :=
  ∃ i j, f.origin = some i ∧ g.origin = some j ∧
    (f.bindNo < g.bindNo ∨ f.bindNo = g.bindNo ∧ i < j)

namespace Network

variable {K : Type}

theorem isEstablished_iff (p : Peer K) (id : SessionId) :
    Party.isEstablished p id = true ↔ p.registry.IsEstablished id := by
  unfold Party.isEstablished Registry.IsEstablished
  rw [Peer.registry_object?]
  cases p.sessions.object? id with
  | none => simp
  | some s => simp [Session.view]

/-- Every established session object was established by a datagram to its side. -/
def Attributed (n : Network K) : Prop :=
  ∀ x id, (n.party x).peer.registry.IsEstablished id →
    ∃ g, (n.party x).establishedBy id = some g ∧ g.dst = x

theorem Attributed.launch {setting : Setting} {n m : Network K} (ok : n.Attributed) {x : Side}
    {party : Party K} (same : m.party = n.party)
    (attributed : ∀ id, party.peer.registry.IsEstablished id →
      ∃ g, party.establishedBy id = some g ∧ g.dst = x) :
    (m.launch setting x party).Attributed := by
  intro y id ready
  by_cases own : y = x
  · subst own
    simp only [Network.launch, Function.update_self] at ready ⊢
    exact attributed id ready
  · simp only [Network.launch, Function.update_of_ne own, same] at ready ⊢
    exact ok y id ready

/-- What a step adds to the log of a side. -/
def news (n n' : Network K) (x : Side) : List LogEntry :=
  (n'.party x).peer.log.drop (n.party x).peer.log.length

/-- The step makes the side emit `PeerRestarted` for the other. -/
def AnnouncesRestart (setting : Setting) (n n' : Network K) (x : Side) : Prop :=
  ∃ entry ∈ news n n' x, entry.event? = some (.peerRestarted (setting.addr x.other))

instance (setting : Setting) (n n' : Network K) (x : Side) :
    Decidable (AnnouncesRestart setting n n' x) :=
  inferInstanceAs (Decidable (∃ entry ∈ news n n' x, _))

/-- The step closes the session and puts another in its place. -/
def Replaces (setting : Setting) (n' : Network K) (x : Side) (id : SessionId) : Prop :=
  ((n'.party x).peer.sessions.object? id).map Session.closed = some true ∧
    (n'.party x).peer.sessions.lookup (canOf setting x) ≠ none ∧
    (n'.party x).peer.sessions.lookup (canOf setting x) ≠ some id

instance (setting : Setting) (n' : Network K) (x : Side) (id : SessionId) :
    Decidable (Replaces setting n' x id) :=
  inferInstanceAs (Decidable (_ ∧ _ ∧ _))

/-- The step leaves the session in the map, open, with its conversation id and
state, and announces no restart. -/
def Undisturbed (setting : Setting) (n n' : Network K) (x : Side) (id : SessionId)
    (s : Session K) : Prop :=
  (∃ s', (n'.party x).peer.sessions.find (canOf setting x) = some (id, s') ∧ s'.closed = false ∧
    s'.inner.convId = s.inner.convId ∧ s'.inner.state = s.inner.state) ∧
  ¬ AnnouncesRestart setting n n' x

/-- A SYN of the session's own conversation leaves the registry as it is. -/
theorem no_restart_of_same {setting : Setting} {n n' : Network K} {x : Side}
    (same : (n'.party x).peer.registry = (n.party x).peer.registry) :
    ¬ AnnouncesRestart setting n n' x := by
  rintro ⟨entry, mem, _⟩
  have log : (n'.party x).peer.log = (n.party x).peer.log := congrArg Registry.log same
  rw [news, log, List.drop_length] at mem
  cases mem

/-- The SYN of another conversation replaces the session and announces a restart. -/
theorem restart_of_replaced {setting : Setting} {n n' : Network K} {x : Side} {id : SessionId}
    {s : Session K} {conv : UInt32}
    (held : (n.party x).peer.sessions.find (canOf setting x) = some (id, s))
    (replaced : (n'.party x).peer.registry =
      ((n.party x).peer.registry.supersede id s.view (setting.addr x.other)).accept
        (setting.addr x.other) conv) :
    AnnouncesRestart setting n n' x ∧ Replaces setting n' x id := by
  have present := (Store.find_eq_some.mp held).2
  have below : id < (n.party x).peer.sessions.fresh := Store.object?_lt present
  have visible : (n.party x).peer.registry.sessions.object? id = some s.view := by
    rw [Peer.registry_object?, present, Option.map_some]
  have size : (n.party x).peer.registry.sessions.fresh = (n.party x).peer.sessions.fresh :=
    Store.fresh_map ..
  refine ⟨?_, ?_, ?_⟩
  · have log : (n'.party x).peer.log = (n.party x).peer.log ++
        [.event (.peerRestarted (setting.addr x.other)) id,
          .event (.connected (setting.addr x.other)) (n.party x).peer.registry.sessions.fresh] := by
      have shown := congrArg Registry.log replaced
      simpa [Registry.accept, Registry.supersede, Registry.emit, Registry.set, Peer.registry]
        using shown
    refine ⟨.event (.peerRestarted (setting.addr x.other)) id, ?_, rfl⟩
    rw [news, log, List.drop_left]
    exact List.mem_cons_self
  · have object : (n'.party x).peer.registry.sessions.object? id =
        some { s.view with closed := true } := by
      rw [replaced]
      simp only [Registry.accept, Registry.emit, Registry.supersede, Registry.set]
      rw [Store.object?_insertNew, if_neg, Store.object?_modify_self, visible, Option.map_some]
      rw [Store.fresh_modify, size]
      exact Nat.ne_of_lt below
    rw [Peer.registry_object?, Option.map_eq_some_iff] at object
    obtain ⟨s', stored, view⟩ := object
    rw [stored, Option.map_some]
    exact congrArg (fun v => some v.closed) view
  · have found : (n'.party x).peer.registry.sessions.find (canOf setting x) =
        some ((n.party x).peer.sessions.fresh,
          ⟨setting.addr x.other, false, .established, conv⟩) := by
      have own : canOf setting x = canonicalize (setting.addr x.other) := rfl
      rw [replaced, Registry.find_accept, if_pos own]
      simp only [Registry.supersede, Registry.emit, Registry.set, Store.fresh_modify, size]
    rw [Peer.registry_find, Option.map_eq_some_iff] at found
    obtain ⟨entry, found, view⟩ := found
    have named := (Store.find_eq_some.mp (show (n'.party x).peer.sessions.find (canOf setting x) =
      some (entry.1, entry.2) from found)).1
    have other : entry.1 = (n.party x).peer.sessions.fresh := congrArg Prod.fst view
    rw [named, other]
    exact ⟨Option.some_ne_none _, fun same => Nat.ne_of_gt below (Option.some.inj same)⟩

variable [Kcp K] {setting : Setting} {n n' : Network K}

/-- Every step takes each peer along registry steps, or binds it anew. -/
theorem step_registry (act : Action) (taken : n.step setting act = some n')
    (keyed : ∀ x, (n.party x).peer.registry.Keyed) (x : Side) :
    Relation.ReflTransGen Registry.Step (n.party x).peer.registry (n'.party x).peer.registry ∨
      (n'.party x).peer.registry = ⟨.empty, []⟩ := by
  have launched : ∀ (m : Network K) (y : Side) (party : Party K), m.party = n.party →
      Relation.ReflTransGen Registry.Step (n.party y).peer.registry party.peer.registry →
      Relation.ReflTransGen Registry.Step (n.party x).peer.registry
        ((m.launch setting y party).party x).peer.registry := by
    intro m y party same steps
    by_cases own : x = y
    · subst own
      simp only [launch, Function.update_self]
      exact steps
    · simp only [launch, Function.update_of_ne own, same]
      exact .refl
  cases act with
  | send y data draw clock sendTo =>
      obtain rfl := Option.some.inj taken
      refine Or.inl (launched n y _ rfl ?_)
      simp only [Party.send]
      rw [Peer.registry_send]
      exact Registry.send_steps ..
  | disconnect y sendTo =>
      obtain rfl := Option.some.inj taken
      refine Or.inl (launched n y _ rfl ?_)
      rw [Peer.registry_disconnect]
      exact Registry.disconnect_steps ..
  | tick y tick sendTo =>
      simp only [step, Option.map_eq_some_iff] at taken
      obtain ⟨p', applied, rfl⟩ := taken
      exact Or.inl (launched n y _ rfl (Peer.apply_steps applied (keyed y)))
  | rebind y incarnation =>
      obtain rfl := Option.some.inj taken
      by_cases own : x = y
      · subst own
        right
        simp only [Function.update_self]
        rfl
      · left
        simp only [Function.update_of_ne own]
        exact .refl
  | deliver index clock sendTo =>
      simp only [step, Option.map_eq_some_iff] at taken
      obtain ⟨f, found, rfl⟩ := taken
      exact Or.inl (launched _ f.dst _ rfl (Peer.handleIncoming_steps ..))
  | drop index =>
      simp only [step] at taken
      split at taken
      · obtain rfl := Option.some.inj taken
        exact Or.inl .refl
      · cases taken
  | duplicate index =>
      simp only [step, Option.map_eq_some_iff] at taken
      obtain ⟨f, found, rfl⟩ := taken
      exact Or.inl .refl

/-- An invariant of registry steps that a fresh peer meets holds of both peers. -/
theorem registry_invariant {guard : Network K → Action → Prop} {P : Registry → Prop}
    (base : P ⟨.empty, []⟩) (keep : ∀ r r', r.Keyed → Registry.Step r r' → P r → P r')
    (reached : (networkMachine K setting).Reach guard n) (x : Side) :
    (n.party x).peer.registry.Keyed ∧ P (n.party x).peer.registry := by
  refine reached.invariant (P := fun n => ∀ x, (n.party x).peer.registry.Keyed ∧
    P (n.party x).peer.registry) ?_ ?_ x
  · intro x
    exact ⟨fun _ _ _ found => by simp [networkMachine, Party.bind] at found, base⟩
  · intro before act after ok _ taken x
    rcases step_registry act taken (fun y => (ok y).1) x with steps | fresh
    · refine ⟨Registry.keyed_of_steps steps (ok x).1, ?_⟩
      have both : ∀ r, Relation.ReflTransGen Registry.Step (before.party x).peer.registry r →
          r.Keyed ∧ P r := by
        intro r steps
        induction steps with
        | refl => exact ok x
        | tail _ step ih => exact ⟨step.keyed ih.1, keep _ _ ih.1 step ih.2⟩
      exact (both _ steps).2
    · rw [fresh]
      exact ⟨fun _ _ _ found => by simp at found, base⟩

theorem Attributed.step (ok : n.Attributed) (act : Action)
    (taken : n.step setting act = some n') : n'.Attributed := by
  cases act with
  | send x data draw clock sendTo =>
      obtain rfl := Option.some.inj taken
      refine ok.launch rfl ?_
      intro id ready
      simp only [Party.send] at ready ⊢
      rw [Peer.registry_send] at ready
      exact ok x id (Registry.isEstablished_send ready)
  | disconnect x sendTo =>
      obtain rfl := Option.some.inj taken
      refine ok.launch rfl ?_
      intro id ready
      dsimp only at ready ⊢
      rw [Peer.registry_disconnect] at ready
      exact ok x id (Registry.isEstablished_disconnect ready)
  | tick x tick sendTo =>
      obtain ⟨p', applied, rfl⟩ := Option.map_eq_some_iff.mp taken
      obtain ⟨_, rfl⟩ := Peer.apply_tick applied
      refine ok.launch rfl ?_
      intro id ready
      dsimp only at ready ⊢
      rw [Peer.registry_updateTick] at ready
      exact ok x id (Registry.isEstablished_foldl_prune _ ready)
  | rebind x incarnation =>
      obtain rfl := Option.some.inj taken
      intro y id ready
      by_cases own : y = x
      · subst own
        simp only [Function.update_self] at ready
        obtain ⟨v, present, _⟩ := ready
        simp [Party.bind] at present
      · simp only [Function.update_of_ne own] at ready ⊢
        exact ok y id ready
  | deliver index clock sendTo =>
      simp only [Network.step, Option.map_eq_some_iff] at taken
      obtain ⟨f, found, rfl⟩ := taken
      refine ok.launch rfl ?_
      intro id ready
      simp only [Party.receive] at ready ⊢
      split
      · exact ⟨f, rfl, rfl⟩
      · rename_i old
        apply ok f.dst id
        rw [← isEstablished_iff] at ready ⊢
        simpa [ready] using old
  | drop index =>
      simp only [Network.step] at taken
      split at taken
      · obtain rfl := Option.some.inj taken
        exact ok
      · cases taken
  | duplicate index =>
      simp only [Network.step, Option.map_eq_some_iff] at taken
      obtain ⟨f, found, rfl⟩ := taken
      exact ok

theorem attributed {guard : Network K → Action → Prop}
    (reached : (networkMachine K setting).Reach guard n) : n.Attributed := by
  refine reached.invariant (P := Attributed) ?_ ?_
  · rintro x id ⟨v, present, _⟩
    simp [networkMachine, Party.bind] at present
  · intro before act after ok _ taken
    exact ok.step act taken

/-- A SYN that reaches an established session is answered again, or replaces it. -/
theorem deliver_syn_established {index : Nat} {clock : Clock}
    {sendTo : Bytes → SocketAddr → Except IoError Nat} {f : Flight} {conv : UInt32}
    {id : SessionId} {s : Session K} (inFlight : n.flights[index]? = some f)
    (isSyn : Msg.decode f.bytes = .syn conv)
    (held : (n.party f.dst).peer.sessions.find (canOf setting f.dst) = some (id, s))
    (ready : s.inner.state = .established)
    (taken : n.step setting (.deliver index clock sendTo) = some n') :
    (n'.party f.dst).peer.registry =
      if s.inner.convId = conv then (n.party f.dst).peer.registry
      else ((n.party f.dst).peer.registry.supersede id s.view (setting.addr f.dst.other)).accept
        (setting.addr f.dst.other) conv := by
  simp only [step, inFlight, Option.map_some, Option.some.injEq] at taken
  obtain ⟨payload, parsed, decoded⟩ := Msg.decode_eq_syn isSyn
  have visible := Peer.registry_handleSyn (n.party f.dst).peer (setting.addr f.dst.other) clock
    (socketOf setting f.dst sendTo) decoded
    (show (socketOf setting f.dst sendTo).localAddr = .ok (setting.addr f.dst) from rfl)
  have handled : (n'.party f.dst).peer.registry = ((n.party f.dst).peer.handleSyn payload
      (setting.addr f.dst.other) clock (socketOf setting f.dst sendTo)).1.registry := by
    rw [← taken]
    simp only [launch, Function.update_self, Party.receive, Peer.handleIncoming, parsed]
    rfl
  have found : (n.party f.dst).peer.registry.sessions.find
      (canonicalize (setting.addr f.dst.other)) = some (id, s.view) := by
    rw [Peer.registry_find]
    exact congrArg (Option.map _) held
  rw [handled, visible, Registry.syn, found]
  simp only [Session.view, ready]

end Network

section Syn

open Network

variable (K : Type) [Kcp K] (setting : Setting) (n n' : Network K)
  (reached : (networkMachine K setting).Reach Machine.always n)
  {index : Nat} {clock : Clock} {sendTo : Bytes → SocketAddr → Except IoError Nat} {f : Flight}
  {conv : UInt32} {id : SessionId} {s : Session K} (inFlight : n.flights[index]? = some f)
  (isSyn : Msg.decode f.bytes = .syn conv)
  (held : (n.party f.dst).peer.sessions.find (canOf setting f.dst) = some (id, s))
  (ready : s.inner.state = .established)
  (taken : n.step setting (.deliver index clock sendTo) = some n')

include reached inFlight isSyn held ready taken

/-- A SYN that reaches an established session is taken for a restart exactly
when it comes from another bind than the session does, if and only if its
conversation id differs from the session's exactly then. -/
theorem restart_announced_iff :
    ∃ g, (n.party f.dst).establishedBy id = some g ∧ g.dst = f.dst ∧
      ((AnnouncesRestart setting n n' f.dst ∧ Replaces setting n' f.dst id ↔ f.bindNo ≠ g.bindNo) ↔
        (conv ≠ s.inner.convId ↔ f.bindNo ≠ g.bindNo)) := by
  have present := (Store.find_eq_some.mp held).2
  have established : (n.party f.dst).peer.registry.IsEstablished id := by
    refine ⟨s.view, ?_, ready⟩
    rw [Peer.registry_object?, present, Option.map_some]
  obtain ⟨g, by_g, toSide⟩ := attributed reached f.dst id established
  refine ⟨g, by_g, toSide, ?_⟩
  have effect := deliver_syn_established inFlight isSyn held ready taken
  have detected : (AnnouncesRestart setting n n' f.dst ∧ Replaces setting n' f.dst id) ↔
      conv ≠ s.inner.convId := by
    by_cases same : s.inner.convId = conv
    · rw [if_pos same] at effect
      exact iff_of_false (fun restart => no_restart_of_same effect restart.1)
        (fun apart => apart same.symm)
    · rw [if_neg same] at effect
      exact iff_of_true (restart_of_replaced held effect) (Ne.symm same)
  rw [detected]

/-- A SYN of an earlier session leaves an established session alone exactly
when it carries the session's own conversation id. -/
theorem stale_syn_undisturbed_iff :
    ∀ g conv', (n.party f.dst).establishedBy id = some g → Msg.decode g.bytes = .syn conv' →
      f.Older g → (Undisturbed setting n n' f.dst id s ↔ conv = s.inner.convId) := by
  intro g conv' _ _ _
  have effect := deliver_syn_established inFlight isSyn held ready taken
  constructor
  · rintro ⟨_, silent⟩
    by_contra apart
    rw [if_neg (Ne.symm apart)] at effect
    exact silent (restart_of_replaced held effect).1
  · intro same
    rw [if_pos same.symm] at effect
    refine ⟨?_, no_restart_of_same effect⟩
    have isOpen := (registry_invariant (P := Registry.AllOpen) (fun _ _ _ found => by simp at found)
      (fun _ _ _ step isOpen => step.allOpen isOpen) reached f.dst).2
    have found : (n.party f.dst).peer.registry.sessions.find (canOf setting f.dst) =
        some (id, s.view) := by
      rw [Peer.registry_find, held, Option.map_some]
    have still := found
    rw [← effect, Peer.registry_find, Option.map_eq_some_iff] at still
    obtain ⟨⟨id', s'⟩, found', view⟩ := still
    obtain ⟨rfl, sameView⟩ := Prod.mk.inj view
    have unclosed : s'.view.closed = s.view.closed := congrArg View.closed sameView
    have sameConv : s'.view.convId = s.view.convId := congrArg View.convId sameView
    have sameState : s'.view.state = s.view.state := congrArg View.state sameView
    exact ⟨s', found', unclosed.trans (isOpen _ _ _ found), sameConv, sameState⟩

end Syn

section Runs

open Network

/-- What meets when the datagram at `index` is delivered: the datagram, the
session its receiver holds, and the network afterwards. -/
def Network.meeting (n : Network SampleKcp) (index : Nat) :
    Option (Flight × SessionId × Session SampleKcp × Network SampleKcp) :=
  match n.flights[index]?, n.step Setting.sample (.deliverSample index) with
  | some f, some n' => ((n.party f.dst).peer.sessions.find (canOf Setting.sample f.dst)).map
      fun found => (f, found.1, found.2, n')
  | _, _ => none

theorem Network.meeting_spec {n n' : Network SampleKcp} {index : Nat} {f : Flight}
    {id : SessionId} {s : Session SampleKcp} (met : n.meeting index = some (f, id, s, n')) :
    n.flights[index]? = some f ∧
      (n.party f.dst).peer.sessions.find (canOf Setting.sample f.dst) = some (id, s) ∧
      n.step Setting.sample (.deliverSample index) = some n' := by
  unfold Network.meeting at met
  split at met
  · rename_i f' n'' inFlight taken
    obtain ⟨⟨id', s'⟩, held, same⟩ := Option.map_eq_some_iff.mp met
    cases same
    exact ⟨inFlight, held, taken⟩
  · cases met

/-- `a` disconnects and connects again; its RESETs are delayed. -/
def reconnectRun : List Action :=
  [.sendSample .a [1] .ten, .deliverSample 0,
    .disconnect .a fun bytes _ => .ok bytes.length, .sendSample .a [2] .twenty]

/-- The second session of the same bind is announced as a restart. -/
theorem restart_announced_on_reconnect :
    ∃ (n n' : Network SampleKcp) (f g : Flight) (id : SessionId) (s : Session SampleKcp),
      (networkMachine SampleKcp Setting.sample).Reach Machine.always n ∧
      n.meeting 4 = some (f, id, s, n') ∧ Msg.decode f.bytes = .syn 20 ∧
      s.inner.state = .established ∧ (n.party f.dst).establishedBy id = some g ∧
      ¬ (AnnouncesRestart Setting.sample n n' f.dst ∧ Replaces Setting.sample n' f.dst id ↔
        f.bindNo ≠ g.bindNo) := by
  have run : ((networkMachine SampleKcp Setting.sample).exec Machine.always
      (networkMachine SampleKcp Setting.sample).start reconnectRun).any (fun n =>
        (n.meeting 4).any fun (f, id, s, n') =>
          ((n.party f.dst).establishedBy id).any fun g =>
            decide (Msg.decode f.bytes = .syn 20 ∧ s.inner.state = .established ∧
              AnnouncesRestart Setting.sample n n' f.dst ∧ Replaces Setting.sample n' f.dst id ∧
              f.bindNo = g.bindNo)) = true := by
    decide +kernel
  obtain ⟨n, reached, checked⟩ := Machine.Reach.exec_any _ run
  obtain ⟨⟨f, id, s, n'⟩, met, checked⟩ := (Option.any_eq_true ..).mp checked
  obtain ⟨g, by_g, checked⟩ := (Option.any_eq_true ..).mp checked
  obtain ⟨isSyn, ready, announced, replaced, sameBind⟩ := of_decide_eq_true checked
  exact ⟨n, n', f, g, id, s, reached, met, isSyn, ready, by_g,
    fun iff => iff.mp ⟨announced, replaced⟩ sameBind⟩

/-- `a` is bound anew and connects again. -/
def rebindRun : List Action :=
  [.sendSample .a [1] .ten, .deliverSample 0, .rebind .a 3,
    .sendSample .a [2] .twenty]

theorem restart_announced_iff_rebind :
    ∃ (n n' : Network SampleKcp) (f g : Flight) (id : SessionId),
      (n.party f.dst).establishedBy id = some g ∧ f.bindNo ≠ g.bindNo ∧
      (AnnouncesRestart Setting.sample n n' f.dst ∧ Replaces Setting.sample n' f.dst id ↔
        f.bindNo ≠ g.bindNo) := by
  have run : ((networkMachine SampleKcp Setting.sample).exec Machine.always
      (networkMachine SampleKcp Setting.sample).start rebindRun).any (fun n =>
        (n.meeting 1).any fun (f, id, s, n') =>
          ((n.party f.dst).establishedBy id).any fun g =>
            decide (Msg.decode f.bytes = .syn 20 ∧ s.inner.state = .established ∧
              20 ≠ s.inner.convId ∧ f.bindNo ≠ g.bindNo)) = true := by
    decide +kernel
  obtain ⟨n, reached, checked⟩ := Machine.Reach.exec_any _ run
  obtain ⟨⟨f, id, s, n'⟩, met, checked⟩ := (Option.any_eq_true ..).mp checked
  obtain ⟨g, by_g, checked⟩ := (Option.any_eq_true ..).mp checked
  obtain ⟨isSyn, ready, apart, rebound⟩ := of_decide_eq_true checked
  obtain ⟨inFlight, held, taken⟩ := Network.meeting_spec met
  obtain ⟨g', by_g', _, exactly⟩ := restart_announced_iff SampleKcp Setting.sample n n' reached
    inFlight isSyn held ready taken
  obtain rfl := Option.some.inj (by_g'.symm.trans by_g)
  exact ⟨n, n', f, g', id, by_g', rebound, exactly.mpr (iff_of_true apart rebound)⟩

/-- A copy of `a`'s first SYN outlives a disconnect and is delivered to the
session that `a`'s second SYN, with the drawn conversation id, has established. -/
def staleRun (draw : DrawnConv) : List Action :=
  [.sendSample .a [1] .ten, .duplicate 0, .deliverSample 0,
    .disconnect .a fun bytes _ => .ok bytes.length, .deliverSample 2, .sendSample .a [2] draw,
    .deliverSample 4]

def Flight.older (f g : Flight) : Bool :=
  match f.origin, g.origin with
  | some i, some j => decide (f.bindNo < g.bindNo ∨ f.bindNo = g.bindNo ∧ i < j)
  | _, _ => false

theorem Flight.older_of_older {f g : Flight} (checked : f.older g = true) : f.Older g := by
  unfold Flight.older at checked
  split at checked
  · rename_i i j fromI fromJ
    exact ⟨i, j, fromI, fromJ, of_decide_eq_true checked⟩
  · cases checked

theorem stale_syn_disturbs :
    ∃ (n n' : Network SampleKcp) (f g : Flight) (id : SessionId) (s : Session SampleKcp),
      (networkMachine SampleKcp Setting.sample).Reach Machine.always n ∧
      n.meeting 0 = some (f, id, s, n') ∧ Msg.decode f.bytes = .syn 10 ∧
      s.inner.state = .established ∧ (n.party f.dst).establishedBy id = some g ∧
      Msg.decode g.bytes = .syn 20 ∧ f.Older g ∧ ¬ Undisturbed Setting.sample n n' f.dst id s := by
  have run : ((networkMachine SampleKcp Setting.sample).exec Machine.always
      (networkMachine SampleKcp Setting.sample).start (staleRun .twenty)).any (fun n =>
        (n.meeting 0).any fun (f, id, s, n') =>
          ((n.party f.dst).establishedBy id).any fun g =>
            f.older g && decide (Msg.decode f.bytes = .syn 10 ∧ s.inner.state = .established ∧
              Msg.decode g.bytes = .syn 20 ∧
              AnnouncesRestart Setting.sample n n' f.dst)) = true := by
    decide +kernel
  obtain ⟨n, reached, checked⟩ := Machine.Reach.exec_any _ run
  obtain ⟨⟨f, id, s, n'⟩, met, checked⟩ := (Option.any_eq_true ..).mp checked
  obtain ⟨g, by_g, checked⟩ := (Option.any_eq_true ..).mp checked
  obtain ⟨older, checked⟩ := (Bool.and_eq_true_iff ..).mp checked
  obtain ⟨isSyn, ready, bySyn, announced⟩ := of_decide_eq_true checked
  exact ⟨n, n', f, g, id, s, reached, met, isSyn, ready, by_g, bySyn, Flight.older_of_older older,
    fun undisturbed => undisturbed.2 announced⟩

/-- With the same conversation id drawn twice the stale SYN does no harm. -/
theorem stale_syn_undisturbed_iff_same_draw :
    ∃ (n n' : Network SampleKcp) (f g : Flight) (id : SessionId) (s : Session SampleKcp),
      (n.party f.dst).establishedBy id = some g ∧ f.Older g ∧
      Undisturbed Setting.sample n n' f.dst id s := by
  have run : ((networkMachine SampleKcp Setting.sample).exec Machine.always
      (networkMachine SampleKcp Setting.sample).start (staleRun .ten)).any (fun n =>
        (n.meeting 0).any fun (f, id, s, _) =>
          ((n.party f.dst).establishedBy id).any fun g =>
            f.older g && decide (Msg.decode f.bytes = .syn 10 ∧ s.inner.state = .established ∧
              Msg.decode g.bytes = .syn 10 ∧ 10 = s.inner.convId)) = true := by
    decide +kernel
  obtain ⟨n, reached, checked⟩ := Machine.Reach.exec_any _ run
  obtain ⟨⟨f, id, s, n'⟩, met, checked⟩ := (Option.any_eq_true ..).mp checked
  obtain ⟨g, by_g, checked⟩ := (Option.any_eq_true ..).mp checked
  obtain ⟨older, checked⟩ := (Bool.and_eq_true_iff ..).mp checked
  obtain ⟨isSyn, ready, bySyn, same⟩ := of_decide_eq_true checked
  obtain ⟨inFlight, held, taken⟩ := Network.meeting_spec met
  have stale := Flight.older_of_older older
  exact ⟨n, n', f, g, id, s, by_g, stale, (stale_syn_undisturbed_iff SampleKcp Setting.sample n n'
    reached inFlight isSyn held ready taken g 10 by_g bySyn stale).mpr same⟩

end Runs

end KcpPeer
