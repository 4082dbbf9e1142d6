import KcpPeer.Evolution
import KcpPeer.SampleKcp

set_option autoImplicit false

namespace KcpPeer

/-- The session was announced as over, under its address. -/
def Registry.Ended (r : Registry) (id : SessionId) (addr : SocketAddr) : Prop :=
  ∃ e, LogEntry.event e id ∈ r.log ∧ e.kind ≠ .connected ∧
    canonicalize e.peer = canonicalize addr

theorem Registry.Ended.keep {r r' : Registry} {id : SessionId} {addr : SocketAddr}
    (ended : r.Ended id addr) (log : ∃ new, r'.log = r.log ++ new) : r'.Ended id addr := by
  obtain ⟨e, mem, kind, home⟩ := ended
  obtain ⟨new, grown⟩ := log
  refine ⟨e, ?_, kind, home⟩
  rw [grown]
  exact List.mem_append_left _ mem

theorem Registry.Ended.emit {r : Registry} {id : SessionId} {addr : SocketAddr} {e : Event}
    (kind : e.kind ≠ .connected) (home : canonicalize e.peer = canonicalize addr) :
    (r.emit e id).Ended id addr :=
  ⟨e, List.mem_append_right _ List.mem_cons_self, kind, home⟩

namespace Board

/-- What has become of a session that was once inserted. -/
inductive Accounted (b : Board) (id : SessionId) (addr : SocketAddr) (closed : Bool) : Prop
  | mapped (named : b.registry.sessions.lookup (canonicalize addr) = some id)
      (announced : closed = true → b.registry.Ended id addr)
  | ended (isClosed : closed = true) (announced : b.registry.Ended id addr)
  | removed (src : SocketAddr) (pending : b.recv = .resetRemoved src id)
  | closing (src : SocketAddr) (pending : b.recv = .resetClosed src id) (isClosed : closed = true)

/-- The SYN handler inserts where the map has no session or a closed one, and the
RESET handler removes no session but the one it looked up. -/
def KeepsLive (b : Board) : Actor → Prop
  | .recv =>
      match b.recv with
      | .synCreated src _ => ∀ id v,
          b.registry.sessions.find (canonicalize src) = some (id, v) → v.closed = true
      | .resetMatched src _ id => ∀ id',
          b.registry.sessions.lookup (canonicalize src) = some id' → id' = id
      | _ => True
  | _ => True

section Keep

variable {actor : Actor} {b b' : Board}

/-- A session keeps its account as long as it keeps its key; a closed one may lose it. -/
theorem Accounted.displace {id : SessionId} {addr : SocketAddr} {closed : Bool}
    (account : b.Accounted id addr closed)
    (named : b.registry.sessions.lookup (canonicalize addr) = some id →
      b'.registry.sessions.lookup (canonicalize addr) = some id ∨ closed = true)
    (log : ∃ new, b'.registry.log = b.registry.log ++ new)
    (stays : b.recv.Resetting id → b'.recv = b.recv) : b'.Accounted id addr closed := by
  cases account with
  | mapped before announced =>
      rcases named before with after | isClosed
      · exact .mapped after fun isClosed => (announced isClosed).keep log
      · exact .ended isClosed ((announced isClosed).keep log)
  | ended isClosed announced => exact .ended isClosed (announced.keep log)
  | removed src pending =>
      refine .removed src ?_
      rw [stays (by rw [pending]; exact .removed src)]
      exact pending
  | closing src pending isClosed =>
      refine .closing src ?_ isClosed
      rw [stays (by rw [pending]; exact .closed src)]
      exact pending

theorem Accounted.keep {id : SessionId} {addr : SocketAddr} {closed : Bool}
    (account : b.Accounted id addr closed)
    (named : b.registry.sessions.lookup (canonicalize addr) = some id →
      b'.registry.sessions.lookup (canonicalize addr) = some id)
    (log : ∃ new, b'.registry.log = b.registry.log ++ new)
    (stays : b.recv.Resetting id → b'.recv = b.recv) : b'.Accounted id addr closed :=
  account.displace (fun before => Or.inl (named before)) log stays

theorem Step.accepted (step : b.Step actor b') : b'.accepted = b.accepted ∨
    ∃ id data v, b.registry.sessions.object? id = some v ∧
      b'.accepted = b.accepted ++ [(id, data)] := by
  cases step with
  | queues id data v present => exact Or.inr ⟨id, data, v, present, rfl⟩
  | _ => exact Or.inl rfl

/-- A session leaves the map, is closed and is announced in one step. -/
theorem accounted_close (b' : Board) (ok : b.Sound)
    (all : ∀ id v, b.registry.sessions.object? id = some v → b.Accounted id v.peerAddr v.closed)
    {can : CanonicalAddr} {id : SessionId} {v : View} {addr : SocketAddr}
    (found : b.registry.sessions.find can = some (id, v)) (home : canonicalize addr = can)
    (after : b'.registry = b.registry.close can id v addr) (same : b'.recv = b.recv)
    (other : SessionId) (v' : View) (present' : b'.registry.sessions.object? other = some v') :
    b'.Accounted other v'.peerAddr v'.closed := by
  obtain ⟨named, present⟩ := Store.find_eq_some.mp found
  have log : b'.registry.log = b.registry.log ++ [.event (.disconnected addr) id] := by
    rw [after]
    rfl
  rw [after] at present'
  change ((b.registry.sessions.remove can).modify id _).object? other = _ at present'
  by_cases own : id = other
  · subst own
    rw [Store.object?_modify_self, Store.object?_remove, present, Option.map_some] at present'
    cases present'
    refine .ended rfl ?_
    rw [after]
    exact .emit (by simp [Event.kind]) (home.trans (ok.keyed can id v named present).symm)
  · rw [Store.object?_modify_ne _ _ own] at present'
    refine (all other v' present').keep ?_ ⟨_, log⟩ fun _ => same
    intro before
    rw [after]
    exact Store.lookup_remove_other named before (Ne.symm own)

/-- An insertion under a key that the new session is for. -/
theorem accounted_insert (b' : Board)
    (all : ∀ id v, b.registry.sessions.object? id = some v → b.Accounted id v.peerAddr v.closed)
    {can : CanonicalAddr} {v : View} (home : canonicalize v.peerAddr = can)
    (live : v.closed = false)
    (sessions : b'.registry.sessions = b.registry.sessions.insertNew can v)
    (log : ∃ new, b'.registry.log = b.registry.log ++ new)
    (stays : ∀ id, b.recv.Resetting id → b'.recv = b.recv)
    (replaced : ∀ id v, b.registry.sessions.find can = some (id, v) → v.closed = true)
    (id : SessionId) (v' : View) (present' : b'.registry.sessions.object? id = some v') :
    b'.Accounted id v'.peerAddr v'.closed := by
  rw [sessions, Store.object?_insertNew] at present'
  split at present'
  · rename_i isNew
    cases present'
    refine .mapped ?_ fun isClosed => ?_
    · rw [sessions, Store.lookup_insertNew, if_pos home, isNew]
    · rw [live] at isClosed
      cases isClosed
  · refine (all id v' present').displace ?_ log (stays id)
    intro named
    by_cases key : canonicalize v'.peerAddr = can
    · have found := Store.find_eq_some.mpr ⟨named, present'⟩
      rw [key] at found
      exact Or.inr (replaced id v' found)
    · left
      rw [sessions, Store.lookup_insertNew, if_neg key]
      exact named

/-- The RESET handler announces the session it has closed. -/
theorem accounted_announce (ok : b.Sound)
    (all : ∀ id v, b.registry.sessions.object? id = some v → b.Accounted id v.peerAddr v.closed)
    {src : SocketAddr} {id : SessionId} (closed : b.recv = .resetClosed src id) (other : SessionId)
    (v : View) (present : b.registry.sessions.object? other = some v) :
    Accounted { b with registry := b.registry.emit (.disconnected src) id, recv := .idle }
      other v.peerAddr v.closed := by
  have account := all other v present
  by_cases own : other = id
  · subst own
    obtain ⟨v', present', home⟩ := ok.aimed src other (by rw [closed]; exact .closed)
    rw [show v' = v from Option.some.inj (present'.symm.trans present)] at home
    have isClosed : v.closed = true := by
      cases account with
      | mapped named => exact absurd named (ok.unnamed other (by rw [closed]; exact .closed src) _)
      | ended isClosed => exact isClosed
      | removed src' pending =>
          rw [closed] at pending
          cases pending
      | closing _ _ isClosed => exact isClosed
    exact .ended isClosed (.emit (by simp [Event.kind]) home.symm)
  · refine account.keep (fun named => named) ⟨_, rfl⟩ ?_
    rw [closed]
    rintro ⟨⟩
    exact absurd rfl own

theorem accounted_step (ok : b.Sound)
    (all : ∀ id v, b.registry.sessions.object? id = some v → b.Accounted id v.peerAddr v.closed)
    (step : b.Step actor b') (live : b.KeepsLive actor) (id : SessionId) (v' : View)
    (present' : b'.registry.sessions.object? id = some v') :
    b'.Accounted id v'.peerAddr v'.closed := by
  have quiet : ∃ new, b.registry.log = b.registry.log ++ new := ⟨[], (List.append_nil _).symm⟩
  cases step with
  | rests => exact all id v' present'
  | hears pc atRest starts =>
      refine (all id v' present').keep (fun named => named) quiet ?_
      rw [atRest]
      rintro ⟨⟩
  | establishes id₀ v conv src pc atRest found waiting next =>
      have stays : b.recv.Resetting id → pc = b.recv := by
        rw [atRest]
        rintro ⟨⟩
      rcases Registry.object?_set present' with ⟨rfl, rfl⟩ | ⟨_, present⟩
      · exact (all id₀ v (Store.find_eq_some.mp found).2).keep (fun named => named) ⟨_, rfl⟩ stays
      · exact (all id v' present).keep (fun named => named) ⟨_, rfl⟩ stays
  | supersedes id₀ v conv src atRest found ready =>
      obtain ⟨named, present⟩ := Store.find_eq_some.mp found
      rcases Registry.object?_set present' with ⟨rfl, rfl⟩ | ⟨_, present⟩
      · have home := ok.keyed _ id₀ v named present
        refine .mapped ?_ fun _ => .emit (by simp [Event.kind]) home.symm
        rw [home]
        exact named
      · refine (all id v' present).keep (fun named => named) ⟨_, rfl⟩ ?_
        rw [atRest]
        rintro ⟨⟩
  | proceeds pc next =>
      refine (all id v' present').keep (fun named => named) quiet ?_
      intro resetting
      generalize b.recv = before at next resetting
      cases resetting <;> cases next
  | delivers id₀ msgs batch drained =>
      refine (all id v' present').keep (fun named => named) ⟨_, rfl⟩ ?_
      rw [drained]
      rintro ⟨⟩
  | accepts src conv created =>
      simp only [KeepsLive, created] at live
      refine accounted_insert { b with registry := b.registry.accept src conv, recv := .idle }
        all (v := ⟨src, false, .established, conv⟩) rfl rfl rfl ⟨_, rfl⟩ ?_ live id v' present'
      rw [created]
      rintro _ ⟨⟩
  | misses src conv id₀ isMatched =>
      refine (all id v' present').keep (fun named => named) quiet ?_
      rw [isMatched]
      rintro ⟨⟩
  | unmaps src conv id₀ removed v isMatched unlocked found =>
      simp only [KeepsLive, isMatched] at live
      obtain rfl := live removed (Store.find_eq_some.mp found).1
      by_cases own : id = removed
      · subst own
        exact .removed src rfl
      · refine (all id v' present').keep ?_ quiet ?_
        · intro named
          exact Store.lookup_remove_other (Store.find_eq_some.mp found).1 named own
        · rw [isMatched]
          rintro ⟨⟩
  | closes src id₀ v removed present =>
      rcases Registry.object?_set present' with ⟨rfl, rfl⟩ | ⟨other, present⟩
      · exact .closing src rfl rfl
      · refine (all id v' present).keep (fun named => named) quiet ?_
        rw [removed]
        rintro ⟨⟩
        exact absurd rfl other
  | announces src id₀ closed => exact accounted_announce ok all closed id v' present'
  | updates => exact (all id v' present').keep (fun named => named) quiet fun _ => rfl
  | passes => exact (all id v' present').keep (fun named => named) quiet fun _ => rfl
  | prunes can judged removed rest horizon v removing found =>
      obtain ⟨named, present⟩ := Store.find_eq_some.mp found
      exact accounted_close { b with
        registry := b.registry.close can removed v v.peerAddr
        upd := .removing rest horizon
        removals := b.removals ++ [.update removed judged] } ok all found
        (ok.keyed can removed v named present) rfl rfl id v' present'
  | opens peer conv absent =>
      refine accounted_insert { b with registry := b.registry.openTo peer conv }
        all (v := ⟨peer, false, .synSent, conv⟩) rfl rfl rfl quiet (fun _ _ => rfl) ?_ id v'
          present'
      intro id v found
      rw [(Store.find_eq_some.mp found).1] at absent
      cases absent
  | disconnects peer id₀ v unlocked found =>
      exact accounted_close
        { b with registry := b.registry.close (canonicalize peer) id₀ v peer } ok
        all found rfl rfl rfl id v' present'
  | queues => exact (all id v' present').keep (fun named => named) quiet fun _ => rfl

end Keep

end Board

namespace Tasks

variable {K : Type}

/-- Every session that was ever inserted is the map's entry for its address or is
closed, unless the RESET handler is about to close what it removed. -/
def NoOrphan (n : Tasks K) : Prop :=
  ∀ id s, n.peer.sessions.object? id = some s →
    n.peer.sessions.lookup (canonicalize s.peerAddr) = some id ∨ s.closed = true ∨
      ∃ src, n.recv = .resetRemoved src id

/-- A payload that `send()` returned `Ok` for is in a session of the map, or in one
that was announced as over, unless the RESET handler is about to announce it. -/
def NoLostPayload (n : Tasks K) : Prop :=
  ∀ id data, (id, data) ∈ n.accepted → ∃ s, n.peer.sessions.object? id = some s ∧
    (n.peer.sessions.lookup (canonicalize s.peerAddr) = some id ∨
      (∃ e, LogEntry.event e id ∈ n.peer.log ∧ e.kind ≠ .connected ∧
        canonicalize e.peer = canonicalize s.peerAddr) ∨
      n.recv.Resetting id)

/-- When the SYN handler inserts, the map has no session for the address or a
closed one; when the RESET handler removes, it has none or the one that was
looked up. -/
def keepsLive (n : Tasks K) : TaskStep → Bool
  | .recv .. =>
      match n.recv with
      | .synCreated src _ =>
          (n.peer.sessions.find (canonicalize src)).all fun found => found.2.closed
      | .resetMatched src _ id =>
          (n.peer.sessions.lookup (canonicalize src)).all fun named => decide (named = id)
      | _ => true
  | _ => true

variable [Kcp K]

theorem keepsLive_board {n n' : Tasks K} {label : TaskStep} (live : n.keepsLive label)
    (taken : n.step label = some n') : n.board.KeepsLive label.actor := by
  cases label with
  | recv clock socket =>
      simp only [keepsLive] at live
      simp only [TaskStep.actor, Board.KeepsLive, board]
      split
      · rename_i src conv created
        simp only [created] at live
        intro id v found
        rw [Peer.registry_find, Option.map_eq_some_iff] at found
        obtain ⟨⟨id', s⟩, found, same⟩ := found
        cases same
        rw [found] at live
        exact live
      · rename_i src conv id isMatched
        simp only [isMatched] at live
        intro id' named
        rw [show n.peer.sessions.lookup (canonicalize src) = some id' from named] at live
        exact of_decide_eq_true live
      · trivial
  | arrive data src clock socket =>
      simp only [step] at taken
      split at taken
      · rename_i atRest
        simp only [TaskStep.actor, Board.KeepsLive, board, atRest]
      · cases taken
  | _ => trivial

/-- Every session of every state is accounted for. -/
theorem reach_accounted {incarnation : UInt64} {config : KcpConfig} {n : Tasks K}
    (reached : (tasksMachine K incarnation config).Reach (fun n label => n.keepsLive label) n)
    (id : SessionId) (v : View) (present : n.board.registry.sessions.object? id = some v) :
    n.board.Accounted id v.peerAddr v.closed := by
  refine reached.invariant_with (P := fun n => ∀ id v,
    n.board.registry.sessions.object? id = some v → n.board.Accounted id v.peerAddr v.closed)
    (fun _ => tasksMachine_sound) ?_ ?_ id v present
  · intro id v present
    cases present
  · intro before label after all ok live taken
    exact Board.accounted_step ok all (step_board taken) (keepsLive_board live taken)

/-- A call queues its payload in a session that exists. -/
theorem reach_accepted {guard : Tasks K → TaskStep → Prop} {incarnation : UInt64}
    {config : KcpConfig} {n : Tasks K}
    (reached : (tasksMachine K incarnation config).Reach guard n) :
    ∀ id data, (id, data) ∈ n.accepted →
      ∃ v, n.board.registry.sessions.object? id = some v := by
  refine reached.invariant (P := fun n => ∀ id data, (id, data) ∈ n.board.accepted →
    ∃ v, n.board.registry.sessions.object? id = some v) ?_ ?_
  · intro id data mem
    cases mem
  · intro before label after known _ taken id data mem
    have step := step_board taken
    have evolves := step.evolves
    have old : (id, data) ∈ before.board.accepted →
        ∃ v, after.board.registry.sessions.object? id = some v := by
      intro mem
      obtain ⟨v, present⟩ := known id data mem
      obtain ⟨v', present', _⟩ := evolves.object id v present
      exact ⟨v', present'⟩
    rcases step.accepted with same | ⟨id', data', v, present, grown⟩
    · rw [same] at mem
      exact old mem
    · rw [grown] at mem
      rcases List.mem_append.mp mem with mem | new
      · exact old mem
      · cases List.mem_singleton.mp new
        obtain ⟨v', present', _⟩ := evolves.object id v present
        exact ⟨v', present'⟩

end Tasks

/-- No live session is orphaned, and no accepted payload is lost unannounced, in
any interleaving in which the two handlers find the map as they left it. -/
theorem no_live_session_orphaned (K : Type) [Kcp K] (incarnation : UInt64) (config : KcpConfig)
    (n : Tasks K)
    (reached : (tasksMachine K incarnation config).Reach (fun n label => n.keepsLive label) n) :
    n.NoOrphan ∧ n.NoLostPayload := by
  have accounted := fun {id : SessionId} {s : Session K} present =>
    Tasks.reach_accounted reached id s.view (Tasks.object?_board present)
  refine ⟨?_, ?_⟩
  · intro id s present
    cases accounted present with
    | mapped named => exact Or.inl named
    | ended isClosed => exact Or.inr (Or.inl isClosed)
    | removed src pending => exact Or.inr (Or.inr ⟨src, pending⟩)
    | closing _ _ isClosed => exact Or.inr (Or.inl isClosed)
  · intro id data mem
    obtain ⟨v, visible⟩ := Tasks.reach_accepted reached id data mem
    rw [Tasks.board, Peer.registry_object?, Option.map_eq_some_iff] at visible
    obtain ⟨s, present, _⟩ := visible
    refine ⟨s, present, ?_⟩
    cases accounted present with
    | mapped named => exact Or.inl named
    | ended _ announced => exact Or.inr (Or.inl announced)
    | removed src pending =>
        refine Or.inr (Or.inr ?_)
        rw [show n.recv = .resetRemoved src id from pending]
        exact .removed src
    | closing src pending =>
        refine Or.inr (Or.inr ?_)
        rw [show n.recv = .resetClosed src id from pending]
        exact .closed src

/-- A SYN is handled, `send()` uses its session, and a RESET ends it. -/
theorem no_live_session_orphaned_reset :
    ∃ n : Tasks SampleKcp, n.accepted = [(0, [1])] ∧ n.peer.sessions.keys = [] ∧
      n.NoOrphan ∧ n.NoLostPayload := by
  have run : ((tasksMachine SampleKcp 1 .default).exec (fun n label => n.keepsLive label)
      (tasksMachine SampleKcp 1 .default).start
      [.arriveSample (encodeControl .syn 20), .recvSample, .recvSample, .recvSample,
        .call .remote [1], .advanceSample, .advanceSample, .advanceSample,
        .arriveSample (encodeControl .reset 20), .recvSample, .recvSample, .recvSample,
        .recvSample]).any
      (fun n => decide (n.accepted = [(0, [1])] ∧ n.peer.sessions.keys = [])) = true := by
    decide +kernel
  obtain ⟨n, reached, checked⟩ := Machine.Reach.exec_any _ run
  obtain ⟨accepted, empty⟩ := of_decide_eq_true checked
  exact ⟨n, accepted, empty, no_live_session_orphaned SampleKcp 1 .default n reached⟩

/-- A SYN arrives for which the map has no session. Before its handler inserts one,
`send()` inserts its own, queues a payload and returns `Ok`; the handler then
overwrites that session, which is neither closed nor announced as over. -/
theorem live_session_orphaned :
    ∃ n : Tasks SampleKcp, (tasksMachine SampleKcp 1 .default).Reach Machine.always n ∧
      ¬ n.NoOrphan ∧ ¬ n.NoLostPayload := by
  have run : ((tasksMachine SampleKcp 1 .default).exec Machine.always
      (tasksMachine SampleKcp 1 .default).start
      [.arriveSample (encodeControl .syn 20), .recvSample, .recvSample,
        .call .remote [1], .advanceSample, .advanceSample, .advanceSample, .advanceSample,
        .advanceSample, .advanceSample, .advanceSample, .recvSample]).any
      (fun n => decide (n.accepted = [(0, [1])] ∧ n.recv = .idle ∧
        n.peer.log = [.event (.connected .remote) 1] ∧
        (n.peer.sessions.object? 0).map (fun s => (s.peerAddr, s.closed)) = some (.remote, false) ∧
        n.peer.sessions.lookup (canonicalize .remote) = some 1)) = true := by
    decide +kernel
  obtain ⟨n, reached, checked⟩ := Machine.Reach.exec_any _ run
  obtain ⟨accepted, atRest, log, view, named⟩ := of_decide_eq_true checked
  obtain ⟨s, present, fields⟩ := Option.map_eq_some_iff.mp view
  obtain ⟨addr, live⟩ := Prod.mk.inj fields
  have displaced : n.peer.sessions.lookup (canonicalize s.peerAddr) ≠ some 0 := by
    rw [addr, named]
    decide
  refine ⟨n, reached, ?_, ?_⟩
  · intro none
    rcases none 0 s present with entry | closed | ⟨src, pending⟩
    · exact displaced entry
    · rw [live] at closed
      cases closed
    · rw [atRest] at pending
      cases pending
  · intro none
    obtain ⟨s', present', kept⟩ := none 0 [1] (by rw [accepted]; exact List.mem_cons_self)
    obtain rfl := Option.some.inj (present.symm.trans present')
    rcases kept with entry | ⟨e, mem, _⟩ | pending
    · exact displaced entry
    · rw [log] at mem
      cases List.mem_singleton.mp mem
    · rw [atRest] at pending
      cases pending

end KcpPeer
