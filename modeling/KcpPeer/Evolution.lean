import KcpPeer.EventLog
import KcpPeer.Interleave

set_option autoImplicit false

namespace KcpPeer

namespace Registry

/-- A session after one has been written. -/
theorem object?_set {r : Registry} {id id' : SessionId} {v v' : View}
    (present : (r.set id v).sessions.object? id' = some v') :
    id = id' ∧ v' = v ∨ id ≠ id' ∧ r.sessions.object? id' = some v' := by
  rw [set, Store.object?_modify] at present
  split at present
  · rename_i same
    obtain ⟨_, _, rfl⟩ := Option.map_eq_some_iff.mp present
    exact Or.inl ⟨same, rfl⟩
  · rename_i other
    exact Or.inr ⟨other, present⟩

/-- Sessions are never freed, keep their address and stay closed, and a key comes
to name only a session that has just been created for it. -/
structure Evolves (r r' : Registry) : Prop where
  object : ∀ id v, r.sessions.object? id = some v → ∃ v', r'.sessions.object? id = some v' ∧
    v'.peerAddr = v.peerAddr ∧ (v.closed = true → v'.closed = true)
  lookup : ∀ can id, r'.sessions.lookup can = some id → r.sessions.lookup can = some id ∨
    r.sessions.fresh ≤ id ∧ ∃ v, r'.sessions.object? id = some v ∧ canonicalize v.peerAddr = can
  fresh : r.sessions.fresh ≤ r'.sessions.fresh

namespace Evolves

variable {r r' r'' : Registry}

theorem same (sessions : r'.sessions = r.sessions) : r.Evolves r' := by
  refine ⟨?_, ?_, ?_⟩
  · intro id v present
    exact ⟨v, by rw [sessions]; exact present, rfl, fun closed => closed⟩
  · intro can id named
    rw [sessions] at named
    exact Or.inl named
  · rw [sessions]

theorem trans (first : r.Evolves r') (second : r'.Evolves r'') : r.Evolves r'' := by
  refine ⟨?_, ?_, first.fresh.trans second.fresh⟩
  · intro id v present
    obtain ⟨v', present', addr', closed'⟩ := first.object id v present
    obtain ⟨v'', present'', addr'', closed''⟩ := second.object id v' present'
    exact ⟨v'', present'', addr''.trans addr', fun closed => closed'' (closed' closed)⟩
  · intro can id named
    rcases second.lookup can id named with old | ⟨recent, created⟩
    · rcases first.lookup can id old with older | ⟨recent, v, present, home⟩
      · exact Or.inl older
      · obtain ⟨v', present', addr', _⟩ := second.object id v present
        exact Or.inr ⟨recent, v', present', by rw [addr']; exact home⟩
    · exact Or.inr ⟨first.fresh.trans recent, created⟩

theorem set {id : SessionId} {v : View} (v' : View) (present : r.sessions.object? id = some v)
    (addr : v'.peerAddr = v.peerAddr) (closed : v.closed = true → v'.closed = true) :
    r.Evolves (r.set id v') := by
  refine ⟨?_, ?_, ?_⟩
  · intro other v₀ there
    by_cases same : id = other
    · subst same
      rw [present] at there
      cases there
      refine ⟨v', ?_, addr, closed⟩
      simp only [Registry.set, Store.object?_modify_self, present, Option.map_some]
    · refine ⟨v₀, ?_, rfl, fun closed => closed⟩
      rw [Registry.set, Store.object?_modify_ne _ _ same]
      exact there
  · intro can other named
    exact Or.inl named
  · simp only [Registry.set, Store.fresh_modify, Nat.le_refl]

theorem insertNew (can : CanonicalAddr) (v : View) (home : canonicalize v.peerAddr = can) :
    r.Evolves { r with sessions := r.sessions.insertNew can v } := by
  refine ⟨?_, ?_, ?_⟩
  · intro id v₀ present
    refine ⟨v₀, ?_, rfl, fun closed => closed⟩
    have below := Store.object?_lt present
    rw [Store.object?_insertNew, if_neg (by omega)]
    exact present
  · intro other id named
    rw [Store.lookup_insertNew] at named
    split at named
    · rename_i same
      cases named
      refine Or.inr ⟨Nat.le_refl _, v, ?_, home.trans same.symm⟩
      rw [Store.object?_insertNew, if_pos rfl]
    · exact Or.inl named
  · simp only [Store.fresh_insertNew]
    omega

theorem remove (can : CanonicalAddr) :
    r.Evolves { r with sessions := r.sessions.remove can } := by
  refine ⟨fun id v present => ⟨v, present, rfl, fun closed => closed⟩, ?_, Nat.le_refl _⟩
  intro other id named
  rw [Store.lookup_remove] at named
  split at named
  · cases named
  · exact Or.inl named

theorem accept (src : SocketAddr) (conv : UInt32) : r.Evolves (r.accept src conv) :=
  (insertNew (canonicalize src) ⟨src, false, .established, conv⟩ rfl).trans (same rfl)

section Held

variable {can : CanonicalAddr} {id : SessionId} {v : View}
  (found : r.sessions.find can = some (id, v))

include found

theorem establish (conv : UInt32) (src : SocketAddr) : r.Evolves (r.establish id v conv src) :=
  (set { v with state := .established, convId := conv } (Store.find_eq_some.mp found).2 rfl
    fun closed => closed).trans (same rfl)

theorem supersede (src : SocketAddr) : r.Evolves (r.supersede id v src) :=
  (set { v with closed := true } (Store.find_eq_some.mp found).2 rfl
    fun _ => rfl).trans (same rfl)

theorem close (addr : SocketAddr) : r.Evolves (r.close can id v addr) := by
  have present := (Store.find_eq_some.mp found).2
  have closed := set (r := { r with sessions := r.sessions.remove can })
    { v with closed := true } present rfl fun _ => rfl
  exact ((remove can).trans closed).trans (same rfl)

end Held

/-- A session that no key names is never named again. -/
theorem unnamed (evolves : r.Evolves r') {id : SessionId} (below : id < r.sessions.fresh)
    (unnamed : ∀ can, r.sessions.lookup can ≠ some id) (can : CanonicalAddr) :
    r'.sessions.lookup can ≠ some id := by
  intro named
  rcases evolves.lookup can id named with old | ⟨recent, _⟩
  · exact unnamed can old
  · exact Nat.not_le_of_lt below recent

end Evolves

/-- A session that is closed leaves the map. -/
theorem unnamed_close {r : Registry} {can : CanonicalAddr} {id : SessionId} {v : View}
    (found : r.sessions.find can = some (id, v)) (addr : SocketAddr) (can' : CanonicalAddr) :
    (r.close can id v addr).sessions.lookup can' ≠ some id := by
  intro named
  change (r.sessions.remove can).lookup can' = some id at named
  rw [Store.lookup_remove] at named
  split at named
  · cases named
  · rename_i other
    exact other (Store.lookup_injective named (Store.find_eq_some.mp found).1)

end Registry

/-- The session a RESET is being handled for. -/
inductive RecvPc.Aims (src : SocketAddr) (id : SessionId) : RecvPc → Prop
  | found (conv : UInt32) : Aims src id (.resetFound src conv id)
  | isMatched (conv : UInt32) : Aims src id (.resetMatched src conv id)
  | removed : Aims src id (.resetRemoved src id)
  | closed : Aims src id (.resetClosed src id)

/-- The RESET handler has done its removal and has yet to close the session or to
announce it. -/
inductive RecvPc.Resetting (id : SessionId) : RecvPc → Prop
  | removed (src : SocketAddr) : Resetting id (.resetRemoved src id)
  | closed (src : SocketAddr) : Resetting id (.resetClosed src id)

theorem RecvPc.Resetting.aims {id : SessionId} {pc : RecvPc} (resetting : pc.Resetting id) :
    ∃ src, pc.Aims src id := by
  cases resetting with
  | removed src => exact ⟨src, .removed⟩
  | closed src => exact ⟨src, .closed⟩

namespace Board

theorem Step.evolves {actor : Actor} {b b' : Board} (step : b.Step actor b') :
    b.registry.Evolves b'.registry := by
  cases step with
  | rests => exact .same rfl
  | hears => exact .same rfl
  | establishes id v conv src pc idle found => exact .establish found conv src
  | supersedes id v conv src idle found => exact .supersede found src
  | proceeds => exact .same rfl
  | delivers => exact .same rfl
  | accepts src conv => exact .accept src conv
  | misses => exact .same rfl
  | unmaps src => exact .remove (canonicalize src)
  | closes src id v removed present => exact .set _ present rfl fun _ => rfl
  | announces => exact .same rfl
  | updates => exact .same rfl
  | passes => exact .same rfl
  | prunes can judged removed rest horizon v removing found => exact .close found v.peerAddr
  | opens peer conv => exact .insertNew (canonicalize peer) ⟨peer, false, .synSent, conv⟩ rfl
  | disconnects peer id v unlocked found => exact .close found peer
  | queues => exact .same rfl

/-- What holds in every interleaving. -/
structure Sound (b : Board) : Prop where
  keyed : ∀ can id v, b.registry.sessions.lookup can = some id →
    b.registry.sessions.object? id = some v → canonicalize v.peerAddr = can
  aimed : ∀ src id, b.recv.Aims src id →
    ∃ v, b.registry.sessions.object? id = some v ∧ canonicalize v.peerAddr = canonicalize src
  unnamed : ∀ id, b.recv.Resetting id → ∀ can, b.registry.sessions.lookup can ≠ some id
  logged : ∀ e id, LogEntry.event e id ∈ b.registry.log → id < b.registry.sessions.fresh

theorem Step.aims {actor : Actor} {b b' : Board} (step : b.Step actor b') {src : SocketAddr}
    {id : SessionId} (aims : b'.recv.Aims src id) :
    b.recv.Aims src id ∨ b.registry.sessions.lookup (canonicalize src) = some id := by
  cases step with
  | hears pc atRest starts =>
      cases starts with
      | resetFound src conv id found =>
          cases aims
          exact Or.inr found
      | _ => cases aims
  | establishes id v conv src pc atRest found waiting next =>
      rcases next with rfl | ⟨theirs, result, rfl, _⟩
      · cases aims
      · cases aims
  | supersedes => cases aims
  | proceeds pc next =>
      generalize b.recv = before at next ⊢
      cases next with
      | matched src conv id =>
          cases aims
          exact Or.inl (.found conv)
      | _ => cases aims
  | delivers => cases aims
  | accepts => cases aims
  | misses src conv id isMatched =>
      cases aims
      rw [isMatched]
      exact Or.inl (.isMatched conv)
  | unmaps src conv id removed v isMatched =>
      cases aims
      rw [isMatched]
      exact Or.inl (.isMatched conv)
  | closes src id v removed =>
      cases aims
      rw [removed]
      exact Or.inl .removed
  | announces => cases aims
  | _ => exact Or.inl aims

theorem Step.resetting {actor : Actor} {b b' : Board} (step : b.Step actor b') {id : SessionId}
    (resetting : b'.recv.Resetting id) :
    b.recv.Resetting id ∨ ∃ src conv, actor = .recv ∧ b.recv = .resetMatched src conv id ∧
      b'.registry.sessions = b.registry.sessions.remove (canonicalize src) := by
  cases step with
  | hears pc atRest starts => cases starts <;> cases resetting
  | establishes id v conv src pc atRest found waiting next =>
      rcases next with rfl | ⟨theirs, result, rfl, _⟩
      · cases resetting
      · cases resetting
  | supersedes => cases resetting
  | proceeds pc next =>
      generalize b.recv = before at next
      cases next <;> cases resetting
  | delivers => cases resetting
  | accepts => cases resetting
  | misses src conv id isMatched unlocked absent =>
      cases resetting
      exact Or.inr ⟨src, conv, rfl, isMatched, (Store.remove_absent _ absent).symm⟩
  | unmaps src conv id removed v isMatched =>
      cases resetting
      exact Or.inr ⟨src, conv, rfl, isMatched, rfl⟩
  | closes src id v removed =>
      cases resetting
      rw [removed]
      exact Or.inl (.removed src)
  | announces => cases resetting
  | _ => exact Or.inl resetting

/-- What a step adds to the events. -/
inductive Emits (b b' : Board) : Event → SessionId → Prop
  | accepted (src : SocketAddr) (conv : UInt32) (created : b.recv = .synCreated src conv)
      (after : b'.registry = b.registry.accept src conv) :
      Emits b b' (.connected src) b.registry.sessions.fresh
  | established (id : SessionId) (v : View) (conv : UInt32) (src : SocketAddr)
      (found : b.registry.sessions.find (canonicalize src) = some (id, v))
      (waiting : v.state = .synSent) (after : b'.registry = b.registry.establish id v conv src) :
      Emits b b' (.connected src) id
  | superseded (id : SessionId) (v : View) (src : SocketAddr)
      (found : b.registry.sessions.find (canonicalize src) = some (id, v))
      (after : b'.registry = b.registry.supersede id v src)
      (replacing : ∃ conv, b'.recv = .synDecided src conv ⟨.createNew, none, 0⟩) :
      Emits b b' (.peerRestarted src) id
  | reset (src : SocketAddr) (id : SessionId) (closed : b.recv = .resetClosed src id)
      (after : b'.registry = b.registry.emit (.disconnected src) id) (rest : b'.recv = .idle) :
      Emits b b' (.disconnected src) id
  | closed (id : SessionId) (v : View) (addr : SocketAddr)
      (found : b.registry.sessions.find (canonicalize addr) = some (id, v))
      (after : b'.registry = b.registry.close (canonicalize addr) id v addr)
      (same : b'.recv = b.recv) : Emits b b' (.disconnected addr) id

section Invariant

variable {actor : Actor} {b b' : Board}

/-- A step leaves the log, delivers messages or emits one event. -/
theorem Step.log (ok : b.Sound) (step : b.Step actor b') :
    b'.registry.log = b.registry.log ∨
    (∃ id msgs batch, actor = .recv ∧ b.recv = .kcpDrained id msgs ∧
      b'.registry = b.registry.deliver id batch) ∨
    ∃ e id, Emits b b' e id ∧ b'.registry.log = b.registry.log ++ [.event e id] := by
  cases step with
  | establishes id v conv src pc atRest found waiting =>
      exact Or.inr (Or.inr ⟨_, id, .established id v conv src found waiting rfl, rfl⟩)
  | supersedes id v conv src atRest found =>
      exact Or.inr (Or.inr ⟨_, id, .superseded id v src found rfl ⟨conv, rfl⟩, rfl⟩)
  | delivers id msgs batch drained => exact Or.inr (Or.inl ⟨id, msgs, batch, rfl, drained, rfl⟩)
  | accepts src conv created =>
      exact Or.inr (Or.inr ⟨_, _, .accepted src conv created rfl, rfl⟩)
  | announces src id closed => exact Or.inr (Or.inr ⟨_, id, .reset src id closed rfl rfl, rfl⟩)
  | prunes can judged removed rest horizon v removing found =>
      obtain ⟨named, present⟩ := Store.find_eq_some.mp found
      have home := ok.keyed can removed v named present
      subst home
      exact Or.inr (Or.inr ⟨_, removed, .closed removed v v.peerAddr found rfl rfl, rfl⟩)
  | disconnects peer id v unlocked found =>
      exact Or.inr (Or.inr ⟨_, id, .closed id v peer found rfl rfl, rfl⟩)
  | _ => exact Or.inl rfl

theorem Step.grows (ok : b.Sound) (step : b.Step actor b') :
    ∃ new, b'.registry.log = b.registry.log ++ new := by
  rcases step.log ok with same | ⟨_, _, _, _, _, after⟩ | ⟨_, _, _, grown⟩
  · exact ⟨[], by rw [same, List.append_nil]⟩
  · exact ⟨_, by rw [after]; rfl⟩
  · exact ⟨_, grown⟩

theorem Emits.known (ok : b.Sound) {e : Event} {id : SessionId} (emits : Emits b b' e id) :
    id < b'.registry.sessions.fresh := by
  have found_lt : ∀ {can : CanonicalAddr} {v : View}, b.registry.sessions.find can = some (id, v) →
      id < b.registry.sessions.fresh :=
    fun found => Store.lookup_lt (Store.find_eq_some.mp found).1
  cases emits with
  | accepted src conv created after =>
      rw [after]
      exact Nat.lt_of_lt_of_eq (Nat.lt_succ_self _) (Store.fresh_insertNew ..).symm
  | established id v conv src found waiting after =>
      rw [after]
      exact Nat.lt_of_lt_of_eq (found_lt found) (Store.fresh_modify ..).symm
  | superseded id v src found after =>
      rw [after]
      exact Nat.lt_of_lt_of_eq (found_lt found) (Store.fresh_modify ..).symm
  | reset src id closed after =>
      obtain ⟨v, present, _⟩ := ok.aimed src id (by rw [closed]; exact .closed)
      rw [after]
      exact Store.object?_lt present
  | closed id v addr found after =>
      rw [after]
      exact Nat.lt_of_lt_of_eq (found_lt found) (Store.fresh_modify ..).symm

theorem Sound.step (ok : b.Sound) (step : b.Step actor b') : b'.Sound := by
  have evolves := step.evolves
  have keeps : ∀ {id : SessionId} {v : View} {can : CanonicalAddr},
      b.registry.sessions.object? id = some v → canonicalize v.peerAddr = can →
      ∃ v', b'.registry.sessions.object? id = some v' ∧ canonicalize v'.peerAddr = can := by
    intro id v can present home
    obtain ⟨v', present', addr, _⟩ := evolves.object id v present
    exact ⟨v', present', by rw [addr]; exact home⟩
  refine ⟨?_, ?_, ?_, ?_⟩
  · intro can id v' named present'
    rcases evolves.lookup can id named with old | ⟨_, v'', present'', home⟩
    · obtain ⟨v, present⟩ := Store.object?_of_lt (Store.lookup_lt old)
      obtain ⟨v'', present'', home⟩ := keeps present (ok.keyed can id v old present)
      rw [present'] at present''
      cases present''
      exact home
    · rw [present'] at present''
      cases present''
      exact home
  · intro src id aims
    rcases step.aims aims with before | named
    · obtain ⟨v, present, home⟩ := ok.aimed src id before
      exact keeps present home
    · obtain ⟨v, present⟩ := Store.object?_of_lt (Store.lookup_lt named)
      exact keeps present (ok.keyed _ id v named present)
  · intro id resetting
    rcases step.resetting resetting with before | ⟨src, conv, _, isMatched, removed⟩
    · obtain ⟨src, aims⟩ := before.aims
      obtain ⟨v, present, _⟩ := ok.aimed src id aims
      exact evolves.unnamed (Store.object?_lt present) (ok.unnamed id before)
    · intro can named
      rw [removed, Store.lookup_remove] at named
      split at named
      · cases named
      · rename_i other
        obtain ⟨v, present, home⟩ := ok.aimed src id (by rw [isMatched]; exact .isMatched conv)
        exact other ((ok.keyed can id v named present).symm.trans home)
  · intro e id mem
    rcases step.log ok with same | ⟨_, _, batch, _, _, after⟩ | ⟨e', id', emits, grown⟩
    · rw [same] at mem
      exact Nat.lt_of_lt_of_le (ok.logged e id mem) evolves.fresh
    · rw [after, Registry.deliver] at mem
      have old : LogEntry.event e id ∈ b.registry.log := by simpa using mem
      exact Nat.lt_of_lt_of_le (ok.logged e id old) evolves.fresh
    · rw [grown] at mem
      rcases List.mem_append.mp mem with old | new
      · exact Nat.lt_of_lt_of_le (ok.logged e id old) evolves.fresh
      · cases List.mem_singleton.mp new
        exact emits.known ok

end Invariant

end Board

section Run

variable {K : Type} [Kcp K] {incarnation : UInt64} {config : KcpConfig}

theorem start_sound : ((tasksMachine K incarnation config).start).board.Sound := by
  refine ⟨?_, ?_, ?_, ?_⟩
  · intro can id v named
    cases named
  · intro src id aims
    cases aims
  · intro id resetting
    cases resetting
  · intro e id mem
    cases mem

theorem tasksMachine_sound {guard : Tasks K → TaskStep → Prop} {n : Tasks K}
    (reached : (tasksMachine K incarnation config).Reach guard n) : n.board.Sound := by
  refine reached.invariant (P := fun n => n.board.Sound) start_sound ?_
  intro before label after ok _ taken
  exact ok.step (Tasks.step_board taken)

end Run

end KcpPeer
