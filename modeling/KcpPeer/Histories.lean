import KcpPeer.Delivery
import KcpPeer.Lives

set_option autoImplicit false

namespace KcpPeer

/-- What is told about a session as it comes up. -/
def SessionState.opening : SessionState → List Lifecycle
  | .synSent => []
  | .established => [.connected]

theorem mem_eventsOf {id : SessionId} {log : List LogEntry} {kind : Lifecycle} :
    kind ∈ eventsOf id log ↔ ∃ e, LogEntry.event e id ∈ log ∧ e.kind = kind := by
  rw [eventsOf, List.mem_filterMap]
  constructor
  · rintro ⟨entry, mem, told⟩
    cases entry with
    | data msg session => cases told
    | event e session =>
        rw [LogEntry.eventOf, Option.ite_none_right_eq_some] at told
        obtain ⟨rfl, kind⟩ := told
        exact ⟨e, mem, Option.some.inj kind⟩
  · rintro ⟨e, mem, rfl⟩
    exact ⟨_, mem, if_pos rfl⟩

namespace Board

/-- What has been told about the end of a session object. -/
inductive Fate (b : Board) (id : SessionId) (v : View) : List Lifecycle → Prop
  | unended (opened : v.closed = false) : Fate b id v []
  | closing (closed : v.closed = true) (src : SocketAddr) (pending : b.recv = .resetClosed src id) :
      Fate b id v []
  | restarted (closed : v.closed = true) (ready : v.state = .established)
      (free : ∀ src, ¬ b.recv.Aims src id) : Fate b id v [.peerRestarted]
  | removed (closed : v.closed = true) (gone : ∀ can, b.registry.sessions.lookup can ≠ some id) :
      Fate b id v [.disconnected]
  | pruned (closed : v.closed = true) (ready : v.state = .established)
      (gone : ∀ can, b.registry.sessions.lookup can ≠ some id)
      (free : ∀ src, ¬ b.recv.Aims src id) : Fate b id v [.peerRestarted, .disconnected]
  | twice (closed : v.closed = true) (gone : ∀ can, b.registry.sessions.lookup can ≠ some id)
      (free : ∀ src, ¬ b.recv.Aims src id) : Fate b id v [.disconnected, .disconnected]

/-- Every session object has the history that its state and its fate account for. -/
structure Fates (b : Board) : Prop where
  fate : ∀ id v, b.registry.sessions.object? id = some v → ∃ farewell,
    eventsOf id b.registry.log = v.state.opening ++ farewell ∧ b.Fate id v farewell
  shut : ∀ src id v, b.recv = .resetClosed src id → b.registry.sessions.object? id = some v →
    v.closed = true

section Steps

variable {actor : Actor} {b b' : Board}

/-- A RESET is handled for a session that the map named when the receive task was at rest. -/
theorem Step.picks (step : b.Step actor b') {src : SocketAddr} {id : SessionId}
    (aims : b'.recv.Aims src id) : b.recv.Aims src id ∨
      b.recv = .idle ∧ b.registry.sessions.lookup (canonicalize src) = some id := by
  cases step with
  | hears pc atRest =>
      rcases (Step.hears pc atRest ‹_›).aims aims with before | named
      · exact Or.inl before
      · exact Or.inr ⟨atRest, named⟩
  | establishes id₀ v conv src₀ pc atRest found waiting next =>
      rcases next with rfl | ⟨theirs, result, rfl, _⟩
      · cases aims
      · cases aims
  | supersedes => cases aims
  | proceeds pc next =>
      generalize b.recv = before at next ⊢
      cases next with
      | matched src₀ conv id₀ =>
          cases aims
          exact Or.inl (.found conv)
      | _ => cases aims
  | delivers => cases aims
  | accepts => cases aims
  | misses src₀ conv id₀ isMatched =>
      cases aims
      rw [isMatched]
      exact Or.inl (.isMatched conv)
  | unmaps src₀ conv id₀ removed v isMatched =>
      cases aims
      rw [isMatched]
      exact Or.inl (.isMatched conv)
  | closes src₀ id₀ v removed =>
      cases aims
      rw [removed]
      exact Or.inl .removed
  | announces => cases aims
  | _ => exact Or.inl aims

/-- A session that has been told to be over is named only while it is being replaced. -/
theorem Announced.named (announced : b.Announced) {id : SessionId} {kind : Lifecycle}
    (told : kind ∈ eventsOf id b.registry.log) (ending : kind ≠ .connected) {can : CanonicalAddr}
    (named : b.registry.sessions.lookup can = some id) :
    ∃ src, b.recv.Replaces src ∧ canonicalize src = can := by
  obtain ⟨e, mem, rfl⟩ := mem_eventsOf.mp told
  exact announced.finished e id mem ending can named

/-- A session that is named, and is not being replaced, has not ended. -/
theorem Fate.open_of_named (sound : b.Sound) (announced : b.Announced) {id : SessionId} {v : View}
    {farewell : List Lifecycle} (fate : b.Fate id v farewell)
    (history : eventsOf id b.registry.log = v.state.opening ++ farewell) {can : CanonicalAddr}
    (named : b.registry.sessions.lookup can = some id)
    (keeps : (∀ src, ¬ b.recv.Replaces src) ∨ v.state = .synSent) :
    farewell = [] ∧ v.closed = false := by
  cases fate with
  | unended opened => exact ⟨rfl, opened⟩
  | closing closed src pending =>
      exact absurd named (sound.unnamed id (by rw [pending]; exact .closed src) can)
  | restarted closed ready free =>
      rcases keeps with keeps | waiting
      · have told : Lifecycle.peerRestarted ∈ eventsOf id b.registry.log := by
          rw [history]
          simp
        obtain ⟨src, replaces, _⟩ := announced.named told (by decide) named
        exact absurd replaces (keeps src)
      · rw [waiting] at ready
        cases ready
  | removed closed gone => exact absurd named (gone can)
  | pruned closed ready gone => exact absurd named (gone can)
  | twice closed gone => exact absurd named (gone can)

/-- What a step does not touch keeps its fate. -/
theorem Fate.keep (sound : b.Sound) (announced : b.Announced) (step : b.Step actor b')
    {id : SessionId} {v : View} {farewell : List Lifecycle} (fate : b.Fate id v farewell)
    (history : eventsOf id b.registry.log = v.state.opening ++ farewell)
    (present : b.registry.sessions.object? id = some v)
    (quiet : ∀ src, b.recv = .resetClosed src id → b'.recv = b.recv) : b'.Fate id v farewell := by
  have gone' : (∀ can, b.registry.sessions.lookup can ≠ some id) →
      ∀ can, b'.registry.sessions.lookup can ≠ some id :=
    fun gone => step.evolves.unnamed (Store.object?_lt present) gone
  have free' : farewell ≠ [] → (∀ src, ¬ b.recv.Aims src id) → ∀ src, ¬ b'.recv.Aims src id := by
    intro ended free src aims
    rcases step.picks aims with before | ⟨atRest, named⟩
    · exact free src before
    · have idle : ∀ src, ¬ b.recv.Replaces src := by
        rw [atRest]
        rintro src ⟨⟩
      exact ended (fate.open_of_named sound announced history named (Or.inl idle)).1
  cases fate with
  | unended opened => exact .unended opened
  | closing closed src pending =>
      exact .closing closed src ((quiet src pending).trans pending)
  | restarted closed ready free => exact .restarted closed ready (free' (by simp) free)
  | removed closed gone => exact .removed closed (gone' gone)
  | pruned closed ready gone free => exact .pruned closed ready (gone' gone) (free' (by simp) free)
  | twice closed gone free => exact .twice closed (gone' gone) (free' (by simp) free)

theorem Fates.shut_step (sound : b.Sound) (ok : b.Fates) (step : b.Step actor b')
    {src : SocketAddr} {id : SessionId} {v' : View} (pending : b'.recv = .resetClosed src id)
    (present' : b'.registry.sessions.object? id = some v') : v'.closed = true := by
  have kept : b'.recv = b.recv → v'.closed = true := by
    intro same
    rw [same] at pending
    obtain ⟨v, present, _⟩ := sound.aimed src id (by rw [pending]; exact .closed)
    obtain ⟨v'', present'', _, closed⟩ := step.evolves.object id v present
    cases present'.symm.trans present''
    exact closed (ok.shut src id v pending present)
  cases step with
  | hears pc atRest starts =>
      change pc = _ at pending
      subst pending
      cases starts
  | establishes id₀ v conv src₀ pc atRest found waiting next =>
      change pc = _ at pending
      subst pending
      rcases next with next | ⟨_, _, next, _⟩
      · cases next
      · cases next
  | supersedes => cases pending
  | proceeds pc next =>
      change pc = _ at pending
      subst pending
      generalize b.recv = before at next
      cases next
  | delivers => cases pending
  | accepts => cases pending
  | misses => cases pending
  | unmaps => cases pending
  | closes src₀ id₀ v removed present =>
      cases pending
      rcases Registry.object?_set present' with ⟨_, rfl⟩ | ⟨other, _⟩
      · rfl
      · exact absurd rfl other
  | announces => cases pending
  | _ => exact kept rfl

/-- A named session leaves the map and is announced as gone. -/
theorem Fates.close (sound : b.Sound) (announced : b.Announced) (ok : b.Fates)
    (step : b.Step actor b') {can : CanonicalAddr} {id₀ : SessionId} {v₀ : View} {addr : SocketAddr}
    (found : b.registry.sessions.find can = some (id₀, v₀))
    (after : b'.registry = b.registry.close can id₀ v₀ addr) (same : b'.recv = b.recv)
    {id : SessionId} {v' : View} (present' : b'.registry.sessions.object? id = some v') :
    ∃ farewell, eventsOf id b'.registry.log = v'.state.opening ++ farewell ∧
      b'.Fate id v' farewell := by
  obtain ⟨named, present⟩ := Store.find_eq_some.mp found
  have log : b'.registry.log = b.registry.log ++ [.event (.disconnected addr) id₀] := by
    rw [after]
    rfl
  rw [after] at present'
  rcases Registry.object?_set (r := { b.registry with sessions := b.registry.sessions.remove can })
      present' with ⟨rfl, rfl⟩ | ⟨other, kept⟩
  · have gone : ∀ can, b'.registry.sessions.lookup can ≠ some id₀ := by
      rw [after]
      exact Registry.unnamed_close found addr
    have told : eventsOf id₀ b'.registry.log =
        eventsOf id₀ b.registry.log ++ [.disconnected] := by
      rw [log, eventsOf_own]
      rfl
    obtain ⟨farewell, history, fate⟩ := ok.fate id₀ v₀ present
    rw [told, history, List.append_assoc]
    refine ⟨farewell ++ [.disconnected], rfl, ?_⟩
    cases fate with
    | unended opened => exact .removed rfl gone
    | closing closed src pending =>
        exact absurd named (sound.unnamed id₀ (by rw [pending]; exact .closed src) can)
    | restarted closed ready free => exact .pruned rfl ready gone (by rw [same]; exact free)
    | removed closed gone => exact absurd named (gone can)
    | pruned closed ready gone => exact absurd named (gone can)
    | twice closed gone => exact absurd named (gone can)
  · obtain ⟨farewell, history, fate⟩ := ok.fate id v' kept
    have told : eventsOf id b'.registry.log = eventsOf id b.registry.log := by
      rw [log]
      exact eventsOf_other _ _ (Ne.symm other)
    exact ⟨farewell, told.trans history,
      fate.keep sound announced step history kept fun _ _ => same⟩

/-- A new session object is one that nothing has been told about. -/
theorem Sound.untold (sound : b.Sound) {id : SessionId}
    (above : b.registry.sessions.fresh ≤ id) : eventsOf id b.registry.log = [] := by
  rw [List.eq_nil_iff_forall_not_mem]
  intro kind told
  obtain ⟨e, mem, _⟩ := mem_eventsOf.mp told
  exact absurd (sound.logged e id mem) (Nat.not_lt_of_le above)

theorem Fates.step (sound : b.Sound) (announced : b.Announced) (ok : b.Fates)
    (step : b.Step actor b') : b'.Fates := by
  refine ⟨?_, fun src id v' pending present' => ok.shut_step sound step pending present'⟩
  intro id v' present'
  have taken := step
  -- a session object that the step neither writes nor announces
  have keeps : ∀ v, b.registry.sessions.object? id = some v →
      eventsOf id b'.registry.log = eventsOf id b.registry.log →
      (∀ src, b.recv = .resetClosed src id → b'.recv = b.recv) →
      ∃ farewell, eventsOf id b'.registry.log = v.state.opening ++ farewell ∧
        b'.Fate id v farewell := by
    intro v present told quiet
    obtain ⟨farewell, history, fate⟩ := ok.fate id v present
    exact ⟨farewell, told.trans history,
      fate.keep sound announced taken history present quiet⟩
  have busy : ∀ {pc : RecvPc}, b.recv = pc → (∀ src, pc ≠ .resetClosed src id) →
      ∀ src, b.recv = .resetClosed src id → b'.recv = b.recv := by
    intro pc at' other src pending
    exact absurd (at'.symm.trans pending) (other src)
  cases step with
  | hears pc atRest => exact keeps v' present' rfl (busy atRest (by simp))
  | establishes id₀ v conv src pc atRest found waiting next =>
      obtain ⟨named, present⟩ := Store.find_eq_some.mp found
      rcases Registry.object?_set present' with ⟨rfl, rfl⟩ | ⟨other, kept⟩
      · obtain ⟨farewell, history, fate⟩ := ok.fate id₀ v present
        obtain ⟨rfl, opened⟩ := fate.open_of_named sound announced history named (Or.inr waiting)
        refine ⟨[], ?_, .unended opened⟩
        rw [waiting] at history
        refine (eventsOf_own b.registry.log _).trans ?_
        rw [history]
        rfl
      · exact keeps v' kept (eventsOf_other _ _ (Ne.symm other)) (busy atRest (by simp))
  | supersedes id₀ v conv src atRest found ready =>
      obtain ⟨named, present⟩ := Store.find_eq_some.mp found
      rcases Registry.object?_set present' with ⟨rfl, rfl⟩ | ⟨other, kept⟩
      · obtain ⟨farewell, history, fate⟩ := ok.fate id₀ v present
        have idle : ∀ src, ¬ b.recv.Replaces src := by
          rw [atRest]
          rintro src ⟨⟩
        obtain ⟨rfl, _⟩ := fate.open_of_named sound announced history named (Or.inl idle)
        refine ⟨[.peerRestarted], ?_, .restarted rfl ready (by rintro _ ⟨⟩)⟩
        refine (eventsOf_own b.registry.log _).trans ?_
        rw [history, List.append_nil]
        rfl
      · exact keeps v' kept (eventsOf_other _ _ (Ne.symm other)) (busy atRest (by simp))
  | proceeds pc next =>
      refine keeps v' present' rfl ?_
      intro src pending
      rw [pending] at next
      cases next
  | delivers id₀ msgs batch drained =>
      exact keeps v' present' (eventsOf_data ..) (busy drained (by simp))
  | accepts src conv created =>
      change (b.registry.sessions.insertNew _ _).object? id = _ at present'
      rw [Store.object?_insertNew] at present'
      split at present'
      · rename_i isNew
        cases present'
        subst isNew
        refine ⟨[], ?_, .unended rfl⟩
        refine (eventsOf_own b.registry.log _).trans ?_
        rw [sound.untold (Nat.le_refl _)]
        rfl
      · rename_i other
        exact keeps v' present' (eventsOf_other _ _ other) (busy created (by simp))
  | misses src conv id₀ isMatched => exact keeps v' present' rfl (busy isMatched (by simp))
  | unmaps src conv id₀ removed v isMatched =>
      exact keeps v' present' rfl (busy isMatched (by simp))
  | closes src id₀ v removed present =>
      rcases Registry.object?_set present' with ⟨rfl, rfl⟩ | ⟨other, kept⟩
      · obtain ⟨farewell, history, fate⟩ := ok.fate id₀ v present
        have aims : b.recv.Aims src id₀ := by
          rw [removed]
          exact .removed
        have gone := sound.unnamed id₀ (by rw [removed]; exact .removed src)
        refine ⟨farewell, history, ?_⟩
        cases fate with
        | unended opened => exact .closing rfl src rfl
        | closing closed src₀ pending =>
            rw [removed] at pending
            cases pending
        | restarted closed ready free => exact absurd aims (free src)
        | removed closed _ => exact .removed rfl gone
        | pruned closed ready _ free => exact absurd aims (free src)
        | twice closed _ free => exact absurd aims (free src)
      · exact keeps v' kept rfl (busy removed (by simp))
  | announces src id₀ closed =>
      by_cases own : id₀ = id
      · subst own
        have aims : b.recv.Aims src id₀ := by
          rw [closed]
          exact .closed
        have gone := sound.unnamed id₀ (by rw [closed]; exact .closed src)
        have shut := ok.shut src id₀ v' closed present'
        obtain ⟨farewell, history, fate⟩ := ok.fate id₀ v' present'
        refine ⟨farewell ++ [.disconnected], ?_, ?_⟩
        · refine (eventsOf_own b.registry.log _).trans ?_
          rw [history, List.append_assoc]
          rfl
        · cases fate with
          | unended opened =>
              rw [shut] at opened
              cases opened
          | closing => exact .removed shut gone
          | restarted _ ready free => exact absurd aims (free src)
          | removed => exact .twice shut gone (by rintro _ ⟨⟩)
          | pruned _ ready _ free => exact absurd aims (free src)
          | twice _ _ free => exact absurd aims (free src)
      · refine keeps v' present' (eventsOf_other _ _ (Ne.symm own)) (busy closed ?_)
        intro src₀ same
        cases same
        exact own rfl
  | prunes can judged removed rest horizon v removing found =>
      exact ok.close sound announced taken found rfl rfl present'
  | opens peer conv absent =>
      change (b.registry.sessions.insertNew _ _).object? id = _ at present'
      rw [Store.object?_insertNew] at present'
      split at present'
      · rename_i isNew
        cases present'
        subst isNew
        exact ⟨[], sound.untold (Nat.le_refl _), .unended rfl⟩
      · exact keeps v' present' rfl fun _ _ => rfl
  | disconnects peer id₀ v unlocked found =>
      exact ok.close sound announced taken found rfl rfl present'
  | _ => exact keeps v' present' rfl fun _ _ => rfl

end Steps

end Board

variable {K : Type} [Kcp K]

theorem tasksMachine_fates {guard : Tasks K → TaskStep → Prop} {incarnation : UInt64}
    {config : KcpConfig} {n : Tasks K}
    (reached : (tasksMachine K incarnation config).Reach guard n) : n.board.Fates := by
  refine reached.invariant_with (P := fun n => n.board.Fates)
    (fun _ reached => And.intro (tasksMachine_sound reached) (Tasks.reach_announced reached)) ?_ ?_
  · refine ⟨?_, ?_⟩
    · intro id v present
      cases present
    · intro src id v pending
      cases pending
  · intro before label after ok known _ taken
    exact ok.step known.1 known.2 (Tasks.step_board taken)

/-- What the application is told about one session object, in every interleaving of the tasks:
`Connected` exactly once it is established; nothing more while it is open, nor between the close
and the announcement of a RESET; and of an ended one a `Disconnected` or, when it was
established, a `PeerRestarted`, after which one more `Disconnected` can come and nothing else.
A closed session that is still named is one that the receive task is replacing. -/
theorem session_histories (K : Type) [Kcp K] (incarnation : UInt64) (config : KcpConfig)
    (n : Tasks K) (reached : (tasksMachine K incarnation config).Reach Machine.always n)
    (id : SessionId) (s : Session K) (present : n.peer.sessions.object? id = some s) :
    ∃ farewell,
      eventsOf id n.peer.log =
        (if s.inner.state = .established then [.connected] else []) ++ farewell ∧
      (s.closed = false ∧ farewell = [] ∨
        s.closed = true ∧
          (farewell = [.peerRestarted] ∧ s.inner.state = .established ∧
              (∀ can, n.peer.sessions.lookup can = some id →
                ∃ src, n.recv.Replaces src ∧ canonicalize src = can) ∨
            (∀ can, n.peer.sessions.lookup can ≠ some id) ∧
              (farewell = [] ∧ (∃ src, n.recv = .resetClosed src id) ∨
                farewell = [.disconnected] ∨ farewell = [.disconnected, .disconnected] ∨
                farewell = [.peerRestarted, .disconnected] ∧ s.inner.state = .established))) := by
  have sound := tasksMachine_sound reached
  obtain ⟨farewell, history, fate⟩ :=
    (tasksMachine_fates reached).fate id s.view (Tasks.object?_board present)
  have opening : s.view.state.opening =
      if s.inner.state = .established then [.connected] else [] := by
    change s.inner.state.opening = _
    cases s.inner.state <;> rfl
  refine ⟨farewell, by rw [← opening]; exact history, ?_⟩
  cases fate with
  | unended opened => exact .inl ⟨opened, rfl⟩
  | closing closed src pending =>
      have gone := sound.unnamed id (by rw [pending]; exact .closed src)
      exact .inr ⟨closed, .inr ⟨gone, .inl ⟨rfl, src, pending⟩⟩⟩
  | restarted closed ready free =>
      have told : Lifecycle.peerRestarted ∈ eventsOf id n.board.registry.log := by
        rw [history]
        simp
      refine .inr ⟨closed, .inl ⟨rfl, ready, fun can named => ?_⟩⟩
      exact (Tasks.reach_announced reached).named told (by decide) named
  | removed closed gone => exact .inr ⟨closed, .inr ⟨gone, .inr (.inl rfl)⟩⟩
  | pruned closed ready gone =>
      exact .inr ⟨closed, .inr ⟨gone, .inr (.inr (.inr ⟨rfl, ready⟩))⟩⟩
  | twice closed gone => exact .inr ⟨closed, .inr ⟨gone, .inr (.inr (.inl rfl))⟩⟩

/-- The remote resets the session while the application disconnects from it. -/
theorem session_histories_twice :
    ∃ (n : Tasks SampleKcp) (farewell : List Lifecycle),
      eventsOf 0 n.peer.log = [.connected] ++ farewell ∧
      farewell = [.disconnected, .disconnected] := by
  have run : ((tasksMachine SampleKcp 1 .default).exec Machine.always
      (tasksMachine SampleKcp 1 .default).start
      [.arriveSample (encodeControl .syn 20), .recvSample, .recvSample, .recvSample,
        .arriveSample (encodeControl .reset 20), .recvSample, .disconnect .remote .sample,
        .recvSample, .recvSample, .recvSample]).any
      (fun n => decide (eventsOf 0 n.peer.log = [.connected, .disconnected, .disconnected]) &&
        (n.peer.sessions.object? 0).any fun s => decide (s.inner.state = .established)) =
      true := by
    decide +kernel
  obtain ⟨n, reached, checked⟩ := Machine.Reach.exec_any _ run
  obtain ⟨events, checked⟩ := Bool.and_eq_true_iff.mp checked
  obtain ⟨s, present, ready⟩ := (Option.any_eq_true ..).mp checked
  obtain ⟨farewell, history, _⟩ := session_histories SampleKcp 1 .default n reached 0 s present
  rw [if_pos (of_decide_eq_true ready)] at history
  refine ⟨n, farewell, history, ?_⟩
  rw [of_decide_eq_true events] at history
  exact (List.cons.inj history).2.symm

end KcpPeer
