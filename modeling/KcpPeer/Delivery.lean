import KcpPeer.Evolution
import KcpPeer.SampleKcp

set_option autoImplicit false

namespace KcpPeer

/-- The session has been announced as connected, and not yet as over. -/
def Open (log : List LogEntry) (id : SessionId) : Prop :=
  (∃ peer, LogEntry.event (.connected peer) id ∈ log) ∧
    ∀ e, LogEntry.event e id ∈ log → e.kind = .connected

/-- Every message was appended after its session's `Connected` and before the
event that ends the session. -/
def DataBetweenEvents (log : List LogEntry) : Prop :=
  ∀ before msg id after, log = before ++ .data msg id :: after → Open before id

section Log

variable {log : List LogEntry}

theorem DataBetweenEvents.snoc (ok : DataBetweenEvents log) {entry : LogEntry}
    (allowed : ∀ msg id, entry = .data msg id → Open log id) :
    DataBetweenEvents (log ++ [entry]) := by
  intro before msg id after split
  rcases List.eq_nil_or_concat' after with rfl | ⟨middle, last, rfl⟩
  · obtain ⟨rfl, same⟩ := List.append_inj' split rfl
    exact allowed msg id (List.singleton_inj.mp same)
  · rw [← List.cons_append, ← List.append_assoc] at split
    exact ok before msg id middle (List.append_inj' split rfl).1

theorem Open.data {id : SessionId} (isOpen : Open log id) (msg : DataMessage) (id' : SessionId) :
    Open (log ++ [.data msg id']) id := by
  obtain ⟨⟨peer, mem⟩, all⟩ := isOpen
  refine ⟨⟨peer, List.mem_append_left _ mem⟩, ?_⟩
  intro e mem
  rcases List.mem_append.mp mem with mem | mem
  · exact all e mem
  · cases List.mem_singleton.mp mem

theorem DataBetweenEvents.deliver (ok : DataBetweenEvents log) {id : SessionId}
    (isOpen : Open log id) (batch : List DataMessage) :
    DataBetweenEvents (log ++ batch.map fun msg => .data msg id) := by
  induction batch generalizing log with
  | nil =>
      rw [List.map_nil, List.append_nil]
      exact ok
  | cons msg batch ih =>
      rw [List.map_cons, ← List.singleton_append, ← List.append_assoc]
      refine ih (ok.snoc ?_) (isOpen.data msg id)
      intro msg' id' same
      cases same
      exact isOpen

end Log

/-- The SYN handler is about to insert a session for the address. -/
inductive RecvPc.Replaces (src : SocketAddr) : RecvPc → Prop
  | decided (conv : UInt32) (result : SynResult) (creating : result.action = .createNew) :
      Replaces src (.synDecided src conv result)
  | creating (conv : UInt32) : Replaces src (.synCreating src conv)
  | created (conv : UInt32) : Replaces src (.synCreated src conv)

namespace Board

/-- The session that a message is appended for is established and the map's entry
for its address. -/
def DeliversLive (b : Board) : Actor → Prop
  | .recv =>
      match b.recv with
      | .kcpDrained id _ => ∃ v, b.registry.sessions.object? id = some v ∧
          v.state = .established ∧ b.registry.sessions.lookup (canonicalize v.peerAddr) = some id
      | _ => True
  | _ => True

/-- Established sessions have been announced, and a session that was announced as
over is out of the map, or is the one that the SYN handler is replacing. -/
structure Announced (b : Board) : Prop where
  established : ∀ id v, b.registry.sessions.object? id = some v → v.state = .established →
    ∃ peer, LogEntry.event (.connected peer) id ∈ b.registry.log
  finished : ∀ e id, LogEntry.event e id ∈ b.registry.log → e.kind ≠ .connected →
    ∀ can, b.registry.sessions.lookup can = some id →
      ∃ src, b.recv.Replaces src ∧ canonicalize src = can

section Keep

variable {actor : Actor} {b b' : Board}

/-- A session is established by the step that announces it. -/
theorem Step.established (step : b.Step actor b') {id : SessionId} {v' : View}
    (present' : b'.registry.sessions.object? id = some v') (ready : v'.state = .established) :
    (∃ v, b.registry.sessions.object? id = some v ∧ v.state = .established) ∨
      ∃ peer, LogEntry.event (.connected peer) id ∈ b'.registry.log := by
  have closed : ∀ {r : Registry} {id₀ : SessionId} {v : View},
      r.sessions.object? id₀ = some v →
      (r.set id₀ { v with closed := true }).sessions.object? id = some v' →
      ∃ v, r.sessions.object? id = some v ∧ v.state = .established := by
    intro r id₀ v present written
    rcases Registry.object?_set written with ⟨rfl, rfl⟩ | ⟨_, kept⟩
    · exact ⟨v, present, ready⟩
    · exact ⟨v', kept, ready⟩
  cases step with
  | establishes id₀ v conv src pc atRest found =>
      rcases Registry.object?_set present' with ⟨rfl, rfl⟩ | ⟨_, present⟩
      · exact Or.inr ⟨src, List.mem_append_right _ List.mem_cons_self⟩
      · exact Or.inl ⟨v', present, ready⟩
  | supersedes id₀ v conv src atRest found =>
      exact Or.inl (closed (Store.find_eq_some.mp found).2 present')
  | accepts src conv created =>
      change (b.registry.sessions.insertNew _ _).object? id = _ at present'
      rw [Store.object?_insertNew] at present'
      split at present'
      · rename_i isNew
        subst isNew
        exact Or.inr ⟨src, List.mem_append_right _ List.mem_cons_self⟩
      · exact Or.inl ⟨v', present', ready⟩
  | closes src id₀ v removed present => exact Or.inl (closed present present')
  | prunes can judged removed rest horizon v removing found =>
      exact Or.inl (closed (r := { b.registry with sessions := b.registry.sessions.remove can })
        (Store.find_eq_some.mp found).2 present')
  | opens peer conv absent =>
      change (b.registry.sessions.insertNew _ _).object? id = _ at present'
      rw [Store.object?_insertNew] at present'
      split at present'
      · cases present'
        cases ready
      · exact Or.inl ⟨v', present', ready⟩
  | disconnects peer id₀ v unlocked found =>
      exact Or.inl (closed
        (r := { b.registry with sessions := b.registry.sessions.remove (canonicalize peer) })
        (Store.find_eq_some.mp found).2 present')
  | _ => exact Or.inl ⟨v', present', ready⟩

/-- The SYN handler replaces the session until it has inserted the new one. -/
theorem Step.replaces (step : b.Step actor b') {src : SocketAddr} (replaces : b.recv.Replaces src) :
    b'.recv.Replaces src ∨
      ∃ conv, b'.registry = b.registry.accept src conv := by
  cases step with
  | hears pc atRest =>
      rw [atRest] at replaces
      cases replaces
  | establishes id v conv src pc atRest =>
      rw [atRest] at replaces
      cases replaces
  | supersedes id v conv src atRest =>
      rw [atRest] at replaces
      cases replaces
  | proceeds pc next =>
      generalize b.recv = before at next replaces
      cases replaces with
      | decided conv result creating =>
          cases next with
          | creates => exact Or.inl (.creating conv)
          | acknowledged _ _ _ kept => exact absurd creating kept
      | creating conv =>
          cases next
          exact Or.inl (.created conv)
      | created conv => cases next
  | delivers id msgs batch drained =>
      rw [drained] at replaces
      cases replaces
  | accepts src' conv created =>
      rw [created] at replaces
      cases replaces
      exact Or.inr ⟨conv, rfl⟩
  | misses src conv id isMatched =>
      rw [isMatched] at replaces
      cases replaces
  | unmaps src conv id removed v isMatched =>
      rw [isMatched] at replaces
      cases replaces
  | closes src id v removed =>
      rw [removed] at replaces
      cases replaces
  | announces src id closed =>
      rw [closed] at replaces
      cases replaces
  | _ => exact Or.inl replaces

theorem Announced.step (sound : b.Sound) (ok : b.Announced) (step : b.Step actor b') :
    b'.Announced := by
  obtain ⟨new, grown⟩ := step.grows sound
  have evolves := step.evolves
  refine ⟨?_, ?_⟩
  · intro id v' present' ready
    rcases step.established present' ready with ⟨v, present, ready⟩ | announced
    · obtain ⟨peer, mem⟩ := ok.established id v present ready
      refine ⟨peer, ?_⟩
      rw [grown]
      exact List.mem_append_left _ mem
    · exact announced
  · have before : ∀ e id, LogEntry.event e id ∈ b.registry.log → e.kind ≠ .connected →
        ∀ can, b'.registry.sessions.lookup can = some id →
          ∃ src, b'.recv.Replaces src ∧ canonicalize src = can := by
      intro e id mem ending can named
      rcases evolves.lookup can id named with old | ⟨recent, _⟩
      · obtain ⟨src, replaces, key⟩ := ok.finished e id mem ending can old
        rcases step.replaces replaces with still | ⟨conv, after⟩
        · exact ⟨src, still, key⟩
        · -- the key names the new session now
          rw [after] at named
          change (b.registry.sessions.insertNew _ _).lookup can = _ at named
          rw [Store.lookup_insertNew, if_pos key.symm] at named
          exact absurd (Option.some.inj named) (Nat.ne_of_gt (sound.logged e id mem))
      · exact absurd (sound.logged e id mem) (Nat.not_lt_of_le recent)
    intro e id mem ending can named
    rcases step.log sound with same | ⟨_, _, batch, _, _, after⟩ | ⟨e', id', emits, added⟩
    · rw [same] at mem
      exact before e id mem ending can named
    · rw [after, Registry.deliver] at mem
      have old : LogEntry.event e id ∈ b.registry.log := by simpa using mem
      exact before e id old ending can named
    · rw [added] at mem
      rcases List.mem_append.mp mem with old | recent
      · exact before e id old ending can named
      · cases List.mem_singleton.mp recent
        cases emits with
        | accepted => exact absurd rfl ending
        | established => exact absurd rfl ending
        | superseded id v src found after replacing =>
            obtain ⟨conv, at'⟩ := replacing
            refine ⟨src, ?_, ?_⟩
            · rw [at']
              exact .decided conv _ rfl
            · rw [after] at named
              exact Store.lookup_injective (Store.find_eq_some.mp found).1 named
        | reset src id closed after =>
            rw [after] at named
            exact absurd named (sound.unnamed id (by rw [closed]; exact .closed src) can)
        | closed id v addr found after =>
            rw [after] at named
            exact absurd named (Registry.unnamed_close found addr can)

/-- An established session of the map is open, unless it is being replaced. -/
theorem Announced.isOpen (ok : b.Announced) {id : SessionId} {v : View}
    (present : b.registry.sessions.object? id = some v) (ready : v.state = .established)
    {can : CanonicalAddr} (named : b.registry.sessions.lookup can = some id)
    (keeps : ∀ src, ¬ b.recv.Replaces src) : Open b.registry.log id := by
  refine ⟨ok.established id v present ready, ?_⟩
  intro e mem
  by_contra ending
  obtain ⟨src, replaces, _⟩ := ok.finished e id mem ending can named
  exact keeps src replaces

theorem dataBetweenEvents_step (sound : b.Sound) (announced : b.Announced)
    (ok : DataBetweenEvents b.registry.log) (step : b.Step actor b')
    (live : b.DeliversLive actor) : DataBetweenEvents b'.registry.log := by
  rcases step.log sound with same | ⟨id, msgs, batch, rfl, drained, after⟩ | ⟨e, id, _, grown⟩
  · rw [same]
    exact ok
  · simp only [DeliversLive, drained] at live
    obtain ⟨v, present, ready, named⟩ := live
    rw [after]
    refine ok.deliver (announced.isOpen present ready named ?_) batch
    rw [drained]
    rintro _ ⟨⟩
  · rw [grown]
    refine ok.snoc ?_
    rintro _ _ ⟨⟩

end Keep

end Board

namespace Tasks

variable {K : Type}

/-- When the messages of a session are appended, the session is `Established` and
the map's entry for its address. -/
def deliversLive (n : Tasks K) : TaskStep → Bool
  | .recv .. =>
      match n.recv with
      | .kcpDrained id _ => (n.peer.sessions.object? id).all fun s =>
          decide (s.inner.state = .established ∧
            n.peer.sessions.lookup (canonicalize s.peerAddr) = some id)
      | _ => true
  | _ => true

variable [Kcp K]

theorem deliversLive_board {n n' : Tasks K} {label : TaskStep} (live : n.deliversLive label)
    (taken : n.step label = some n') : n.board.DeliversLive label.actor := by
  cases label with
  | arrive data src clock socket =>
      simp only [step] at taken
      split at taken
      · rename_i atRest
        simp only [TaskStep.actor, Board.DeliversLive, board, atRest]
      · cases taken
  | recv clock socket =>
      simp only [deliversLive] at live
      simp only [TaskStep.actor, Board.DeliversLive, board]
      split
      · rename_i id msgs drained
        simp only [step, recvStep, drained, Option.map_eq_some_iff] at taken
        obtain ⟨s, present, _⟩ := taken
        simp only [drained, present] at live
        obtain ⟨ready, named⟩ := of_decide_eq_true live
        exact ⟨s.view, object?_board present, ready, named⟩
      · trivial
  | _ => trivial

theorem reach_announced {guard : Tasks K → TaskStep → Prop} {incarnation : UInt64}
    {config : KcpConfig} {n : Tasks K}
    (reached : (tasksMachine K incarnation config).Reach guard n) :
    n.board.Announced := by
  refine reached.invariant_with (P := fun n => n.board.Announced)
    (fun _ => tasksMachine_sound) ?_ ?_
  · refine ⟨?_, ?_⟩
    · intro id v present
      cases present
    · intro e id mem
      cases mem
  · intro before label after ok sound _ taken
    exact ok.step sound (step_board taken)

end Tasks

/-- Data lies between the lifecycle events of its session in any interleaving in
which messages are appended only for an established session of the map. -/
theorem data_between_events (K : Type) [Kcp K] (incarnation : UInt64) (config : KcpConfig)
    (n : Tasks K)
    (reached : (tasksMachine K incarnation config).Reach (fun n label => n.deliversLive label) n) :
    DataBetweenEvents n.peer.log := by
  refine reached.invariant_with (P := fun n => DataBetweenEvents n.board.registry.log)
    (fun _ reached => And.intro (tasksMachine_sound reached) (Tasks.reach_announced reached)) ?_ ?_
  · intro before msg id after split
    simp [tasksMachine, Tasks.start, Tasks.board] at split
  · intro before label after ok known live taken
    exact Board.dataBetweenEvents_step known.1 known.2 ok (Tasks.step_board taken)
      (Tasks.deliversLive_board live taken)

/-- A SYN and then data from the remote, and `disconnect()` after the delivery. -/
theorem data_between_events_accepted :
    ∃ n : Tasks SampleKcp, n.peer.log = [.event (.connected .remote) 0,
        .data ⟨.remote, [7]⟩ 0, .event (.disconnected .remote) 0] ∧
      DataBetweenEvents n.peer.log := by
  have run : ((tasksMachine SampleKcp 1 .default).exec (fun n label => n.deliversLive label)
      (tasksMachine SampleKcp 1 .default).start
      [.arriveSample (encodeControl .syn 20), .recvSample, .recvSample, .recvSample,
        .arriveSample SampleKcp.datagram, .recvSample, .recvSample, .recvSample, .recvSample,
        .recvSample, .disconnect .remote .sample]).any
      (fun n => decide (n.peer.log = [.event (.connected .remote) 0,
        .data ⟨.remote, [7]⟩ 0, .event (.disconnected .remote) 0])) = true := by
    decide +kernel
  obtain ⟨n, reached, checked⟩ := Machine.Reach.exec_any _ run
  exact ⟨n, of_decide_eq_true checked, data_between_events SampleKcp 1 .default n reached⟩

/-- `disconnect()` overtakes a delivery: its event precedes the message. -/
theorem data_after_disconnected :
    ∃ n : Tasks SampleKcp, (tasksMachine SampleKcp 1 .default).Reach Machine.always n ∧
      ¬ DataBetweenEvents n.peer.log := by
  have run : ((tasksMachine SampleKcp 1 .default).exec Machine.always
      (tasksMachine SampleKcp 1 .default).start
      [.arriveSample (encodeControl .syn 20), .recvSample, .recvSample, .recvSample,
        .arriveSample SampleKcp.datagram, .recvSample, .recvSample, .recvSample,
        .disconnect .remote .sample, .recvSample]).any
      (fun n => decide (n.peer.log = [.event (.connected .remote) 0,
        .event (.disconnected .remote) 0, .data ⟨.remote, [7]⟩ 0])) = true := by
    decide +kernel
  obtain ⟨n, reached, checked⟩ := Machine.Reach.exec_any _ run
  have log := of_decide_eq_true checked
  refine ⟨n, reached, fun ordered => ?_⟩
  have isOpen :=
    ordered [.event (.connected .remote) 0, .event (.disconnected .remote) 0] _ 0 [] log
  exact absurd (isOpen.2 (.disconnected .remote) (by simp)) (by simp [Event.kind])

end KcpPeer
