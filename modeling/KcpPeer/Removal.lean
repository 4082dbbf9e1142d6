import KcpPeer.Evolution
import KcpPeer.SampleKcp

set_option autoImplicit false

namespace KcpPeer

/-- The removal took out the object on which it was decided: the one that the scan of that
tick judged, having found its link dead, its SYN retries used up or its idle time over, or
one with the conversation id of the RESET. -/
def Removal.Justified (config : KcpConfig) : Removal → Prop
  | .update removed judged => removed = judged.id ∧ judged.finding.Holds config
  | .reset _ own conv => own = conv

instance (config : KcpConfig) : ∀ removal : Removal, Decidable (removal.Justified config)
  | .update .. => inferInstanceAs (Decidable (_ ∧ _))
  | .reset .. => inferInstanceAs (Decidable (_ = _))

/-- The entry is a `Disconnected` caused by the session. -/
def LogEntry.isDisconnected (id : SessionId) : LogEntry → Bool
  | .event (.disconnected _) id' => decide (id' = id)
  | _ => false

/-- How many `Disconnected` events the session has caused. -/
def disconnections (log : List LogEntry) (id : SessionId) : Nat :=
  log.countP (LogEntry.isDisconnected id)

section Count

variable {log : List LogEntry} {id : SessionId}

theorem disconnections_deliver (msgs : List DataMessage) (id' : SessionId) :
    disconnections (log ++ msgs.map fun msg => .data msg id') id = disconnections log id := by
  have none :
      (msgs.map fun msg => LogEntry.data msg id').countP (LogEntry.isDisconnected id) = 0 := by
    simp [LogEntry.isDisconnected]
  rw [disconnections, List.countP_append, none]
  rfl

theorem disconnections_other {e : Event} {id' : SessionId}
    (other : e.kind ≠ .disconnected ∨ id' ≠ id) :
    disconnections (log ++ [.event e id']) id = disconnections log id := by
  have none : LogEntry.isDisconnected id (.event e id') = false := by
    cases e with
    | connected peer => rfl
    | peerRestarted peer => rfl
    | disconnected peer =>
        rcases other with kind | apart
        · exact absurd rfl kind
        · simp [LogEntry.isDisconnected, apart]
  rw [disconnections, List.countP_append, List.countP_singleton, none]
  rfl

theorem disconnections_le (log : List LogEntry) (id : SessionId) (e : Event) (id' : SessionId) :
    disconnections (log ++ [.event e id']) id ≤ disconnections log id + 1 := by
  rw [disconnections, List.countP_append, List.countP_singleton]
  split
  · exact Nat.le_refl _
  · exact Nat.le_succ _

/-- A session that no event is about has caused none. -/
theorem disconnections_unknown (unknown : ∀ e, LogEntry.event e id ∉ log) :
    disconnections log id = 0 := by
  rw [disconnections, List.countP_eq_zero]
  intro entry mem
  cases entry with
  | data msg id' => simp [LogEntry.isDisconnected]
  | event e id' =>
      cases e with
      | connected peer => simp [LogEntry.isDisconnected]
      | peerRestarted peer => simp [LogEntry.isDisconnected]
      | disconnected peer =>
          simp only [LogEntry.isDisconnected, decide_eq_true_eq]
          rintro rfl
          exact unknown _ mem

end Count

namespace UpdPc

/-- What the update task has judged and has yet to remove. -/
def toRemove : UpdPc → List (CanonicalAddr × Verdict)
  | .scanning scan _ => scan.toRemove
  | .removing toRemove _ => toRemove
  | _ => []

/-- The number of sessions that existed when the scan began. -/
def horizon : UpdPc → Nat
  | .scanning scan _ => scan.horizon
  | .removing _ horizon => horizon
  | _ => 0

end UpdPc

namespace Board

/-- The RESET handler removes the session it looked up, and the update task none
that was inserted after its scan. -/
def RemovesOld (b : Board) : Actor → Prop
  | .recv =>
      match b.recv with
      | .resetMatched src _ id => b.registry.sessions.lookup (canonicalize src) = some id
      | _ => True
  | .upd =>
      match b.upd with
      | .removing ((can, _) :: _) horizon => ∀ id,
          b.registry.sessions.lookup can = some id → id < horizon
      | _ => True
  | .api => True

/-- A key on `to_remove` still names the object that was judged under it, or one
that was inserted after the scan. -/
structure Judged (b : Board) : Prop where
  horizon : b.upd.horizon ≤ b.registry.sessions.fresh
  pending : ∀ can judged, (can, judged) ∈ b.upd.toRemove → ∀ id,
    b.registry.sessions.lookup can = some id → id < b.upd.horizon → id = judged.id

/-- The session a RESET is being handled for still has its conversation id. -/
def Matched (b : Board) : Prop :=
  ∀ src conv id, b.recv = .resetMatched src conv id → ∀ v,
    b.registry.sessions.object? id = some v → v.convId = conv

/-- No session is announced as disconnected twice. -/
structure Once (b : Board) : Prop where
  once : ∀ id, disconnections b.registry.log id ≤ 1
  mapped : ∀ can id, b.registry.sessions.lookup can = some id →
    disconnections b.registry.log id = 0
  resetting : ∀ id, b.recv.Resetting id → disconnections b.registry.log id = 0

section Keep

variable {actor : Actor} {b b' : Board}

theorem Judged.step (ok : b.Judged) (step : b.Step actor b') : b'.Judged := by
  have evolves := step.evolves
  -- what is pending stays so, since a key comes to name only new objects
  have keep : b'.upd.horizon = b.upd.horizon →
      (∀ entry ∈ b'.upd.toRemove, entry ∈ b.upd.toRemove) → b'.Judged := by
    intro horizon toRemove
    refine ⟨?_, ?_⟩
    · rw [horizon]
      exact ok.horizon.trans evolves.fresh
    · intro can judged mem id named below
      rw [horizon] at below
      rcases evolves.lookup can id named with old | ⟨recent, _⟩
      · exact ok.pending can judged (toRemove _ mem) id old below
      · exact absurd (Nat.lt_of_lt_of_le below ok.horizon) (Nat.not_lt_of_le recent)
  cases step with
  | updates pc next =>
      generalize upd : b.upd = before at next
      cases next with
      | starts nowMs nowEpoch => exact ⟨Nat.zero_le _, fun _ _ mem => absurd mem List.not_mem_nil⟩
      | begins nowMs nowEpoch order =>
          exact ⟨Nat.le_refl _, fun _ _ mem => absurd mem List.not_mem_nil⟩
      | moves scan scan' phase phase' toRemove horizon =>
          refine keep ?_ ?_
          · rw [upd]
            exact horizon
          · rw [upd]
            intro entry mem
            change entry ∈ scan'.toRemove at mem
            rw [toRemove] at mem
            exact mem
      | judges scan phase phase' can verdict found =>
          refine ⟨by simpa [upd, UpdPc.horizon, Scan.judge] using ok.horizon, ?_⟩
          intro can' judged mem id' named below
          rcases List.mem_append.mp mem with old | new
          · have pending := ok.pending can' judged
            rw [upd] at pending
            exact pending old id' named below
          · cases List.mem_singleton.mp new
            exact Option.some.inj (named.symm.trans found)
      | ends scan phase =>
          refine keep ?_ ?_
          · rw [upd]
            rfl
          · rw [upd]
            exact fun _ mem => mem
      | stops horizon => exact ⟨Nat.zero_le _, fun _ _ mem => absurd mem List.not_mem_nil⟩
  | passes can judged rest horizon removing =>
      refine keep ?_ ?_
      · rw [removing]
        rfl
      · rw [removing]
        exact fun _ mem => List.mem_cons_of_mem _ mem
  | prunes can judged removed rest horizon v removing =>
      refine keep ?_ ?_
      · rw [removing]
        rfl
      · rw [removing]
        exact fun _ mem => List.mem_cons_of_mem _ mem
  | _ => exact keep rfl fun _ mem => mem

/-- A session that is closed keeps its conversation id. -/
theorem Matched.close (b' : Board) (ok : b.Matched) {can : CanonicalAddr} {id : SessionId}
    {v : View} {addr : SocketAddr} (found : b.registry.sessions.find can = some (id, v))
    (after : b'.registry = b.registry.close can id v addr) (same : b'.recv = b.recv) :
    b'.Matched := by
  intro src conv other isMatched v' present'
  rw [same] at isMatched
  rw [after] at present'
  rcases Registry.object?_set (r := { b.registry with sessions := b.registry.sessions.remove can })
    present' with ⟨rfl, rfl⟩ | ⟨_, present⟩
  · exact ok src conv id isMatched v (Store.find_eq_some.mp found).2
  · exact ok src conv other isMatched v' present

theorem Matched.step (sound : b.Sound) (ok : b.Matched) (step : b.Step actor b') : b'.Matched := by
  cases step with
  | hears pc atRest starts =>
      intro src conv id isMatched
      simp only at isMatched
      subst isMatched
      cases starts
  | establishes id v conv src pc atRest found waiting next =>
      intro src' conv' id' isMatched
      simp only at isMatched
      subst isMatched
      rcases next with same | ⟨_, _, same, _⟩
      · cases same
      · cases same
  | supersedes => rintro _ _ _ ⟨⟩
  | proceeds pc next =>
      intro src conv id isMatched v present
      simp only at isMatched
      subst isMatched
      generalize b.recv = before at next
      cases next with
      | matched _ _ _ v' present' same =>
          rw [present'] at present
          cases present
          exact same
  | delivers => rintro _ _ _ ⟨⟩
  | accepts => rintro _ _ _ ⟨⟩
  | misses => rintro _ _ _ ⟨⟩
  | unmaps => rintro _ _ _ ⟨⟩
  | closes => rintro _ _ _ ⟨⟩
  | announces => rintro _ _ _ ⟨⟩
  | prunes can judged removed rest horizon v removing found =>
      exact Matched.close { b with
        registry := b.registry.close can removed v v.peerAddr
        upd := .removing rest horizon
        removals := b.removals ++ [.update removed judged] } ok found rfl rfl
  | opens peer conv absent =>
      intro src conv' id isMatched v present
      obtain ⟨v', present', _⟩ := sound.aimed src id (by
        rw [show b.recv = .resetMatched src conv' id from isMatched]
        exact .isMatched conv')
      change (b.registry.sessions.insertNew _ _).object? id = _ at present
      have below := Store.object?_lt present'
      rw [Store.object?_insertNew, if_neg (Nat.ne_of_lt below)] at present
      exact ok src conv' id isMatched v present
  | disconnects peer id v unlocked found =>
      exact Matched.close { b with registry := b.registry.close (canonicalize peer) id v peer } ok
        found rfl rfl
  | rests => exact ok
  | updates => exact ok
  | passes => exact ok
  | queues => exact ok

/-- A session with no new `Disconnected` stays as it was. -/
theorem Once.carried (sound : b.Sound) (ok : b.Once) (step : b.Step actor b')
    (old : b.RemovesOld actor) {id : SessionId}
    (same : disconnections b'.registry.log id = disconnections b.registry.log id) :
    disconnections b'.registry.log id ≤ 1 ∧
      (∀ can, b'.registry.sessions.lookup can = some id → disconnections b'.registry.log id = 0) ∧
      (b'.recv.Resetting id → disconnections b'.registry.log id = 0) := by
  rw [same]
  refine ⟨ok.once id, ?_, ?_⟩
  · intro can named
    rcases step.evolves.lookup can id named with before | ⟨recent, _⟩
    · exact ok.mapped can id before
    · exact disconnections_unknown fun e mem => Nat.not_lt_of_le recent (sound.logged e id mem)
  · intro resetting
    rcases step.resetting resetting with before | ⟨src, conv, rfl, isMatched, _⟩
    · exact ok.resetting id before
    · simp only [RemovesOld, isMatched] at old
      exact ok.mapped _ id old

/-- A session that has caused none causes its one `Disconnected` as it leaves. -/
theorem Once.leaves (sound : b.Sound) (ok : b.Once) (step : b.Step actor b')
    (old : b.RemovesOld actor) {id : SessionId} {addr : SocketAddr}
    (grown : b'.registry.log = b.registry.log ++ [.event (.disconnected addr) id])
    (none : disconnections b.registry.log id = 0)
    (unnamed : ∀ can, b'.registry.sessions.lookup can ≠ some id)
    (left : ¬ b'.recv.Resetting id) : b'.Once := by
  have others : ∀ other, other ≠ id →
      disconnections b'.registry.log other = disconnections b.registry.log other := by
    intro other apart
    rw [grown]
    exact disconnections_other (Or.inr apart.symm)
  refine ⟨?_, ?_, ?_⟩
  · intro other
    by_cases own : other = id
    · subst own
      have bound := disconnections_le b.registry.log other (.disconnected addr) other
      rw [grown]
      omega
    · exact (ok.carried sound step old (others other own)).1
  · intro can other named
    by_cases own : other = id
    · subst own
      exact absurd named (unnamed can)
    · exact (ok.carried sound step old (others other own)).2.1 can named
  · intro other resetting
    by_cases own : other = id
    · subst own
      exact absurd resetting left
    · exact (ok.carried sound step old (others other own)).2.2 resetting

theorem Once.step (sound : b.Sound) (ok : b.Once) (step : b.Step actor b')
    (old : b.RemovesOld actor) : b'.Once := by
  have keep : (∀ id, disconnections b'.registry.log id = disconnections b.registry.log id) →
      b'.Once := by
    intro same
    refine ⟨fun id => ?_, fun can id named => ?_, fun id resetting => ?_⟩
    · exact (ok.carried sound step old (same id)).1
    · exact (ok.carried sound step old (same id)).2.1 can named
    · exact (ok.carried sound step old (same id)).2.2 resetting
  rcases step.log sound with same | ⟨_, _, batch, _, _, after⟩ | ⟨e, id, emits, grown⟩
  · exact keep fun id => by rw [same]
  · refine keep fun id => ?_
    rw [after]
    exact disconnections_deliver ..
  · cases emits with
    | accepted src conv created after =>
        refine keep fun id => ?_
        rw [grown]
        exact disconnections_other (Or.inl (by simp [Event.kind]))
    | established id v conv src found waiting after =>
        refine keep fun id => ?_
        rw [grown]
        exact disconnections_other (Or.inl (by simp [Event.kind]))
    | superseded id v src found after =>
        refine keep fun id => ?_
        rw [grown]
        exact disconnections_other (Or.inl (by simp [Event.kind]))
    | reset src id closed after rest =>
        have resetting : b.recv.Resetting id := by
          rw [closed]
          exact .closed src
        refine ok.leaves sound step old grown (ok.resetting id resetting) ?_ ?_
        · rw [after]
          exact sound.unnamed id resetting
        · rw [rest]
          rintro ⟨⟩
    | closed id v addr found after same =>
        have named := (Store.find_eq_some.mp found).1
        refine ok.leaves sound step old grown (ok.mapped _ id named) ?_ ?_
        · rw [after]
          exact Registry.unnamed_close found addr
        · rw [same]
          intro resetting
          exact sound.unnamed id resetting _ named

theorem justified_step {config : KcpConfig} (judged : b.Judged)
    (founded : ∀ entry ∈ b.upd.toRemove, entry.2.finding.Holds config) (isMatched : b.Matched)
    (step : b.Step actor b') (old : b.RemovesOld actor)
    (ok : ∀ removal ∈ b.removals, removal.Justified config) :
    ∀ removal ∈ b'.removals, removal.Justified config := by
  have add : ∀ removal : Removal, removal.Justified config →
      ∀ other ∈ b.removals ++ [removal], other.Justified config := by
    intro removal justified other mem
    rcases List.mem_append.mp mem with mem | mem
    · exact ok other mem
    · cases List.mem_singleton.mp mem
      exact justified
  cases step with
  | unmaps src conv id removed v at' unlocked found =>
      obtain ⟨named, present⟩ := Store.find_eq_some.mp found
      simp only [RemovesOld, at', named, Option.some.injEq] at old
      subst old
      exact add _ (isMatched src conv removed at' v present)
  | prunes can verdict removed rest horizon v removing found =>
      have named := (Store.find_eq_some.mp found).1
      have mem : (can, verdict) ∈ b.upd.toRemove := by
        rw [removing]
        exact List.mem_cons_self
      simp only [RemovesOld, removing] at old
      refine add _ ⟨judged.pending can verdict mem removed named ?_, founded _ mem⟩
      rw [removing]
      exact old removed named
  | _ => exact ok

end Keep

end Board

namespace Peer

variable {K : Type} (p : Peer K)

theorem config_synAcknowledge (result : SynResult) (socket : Socket) :
    (p.synAcknowledge result socket).config = p.config := by
  unfold synAcknowledge
  split
  · rfl
  · rfl

theorem config_prune (socket : Socket) (can : CanonicalAddr) :
    (prune socket p can).config = p.config := by
  unfold prune
  split
  · rfl
  · rfl

theorem config_disconnect (peer : SocketAddr) (socket : Socket) :
    (p.disconnect peer socket).config = p.config := by
  unfold disconnect
  split
  · rfl
  · rfl

variable [Kcp K]

theorem config_synDecide (src : SocketAddr) (conv : UInt32) (myAddr : SocketAddr) (clock : Clock)
    (socket : Socket) : (p.synDecide src conv myAddr clock socket).1.config = p.config := by
  unfold synDecide
  repeat' split
  all_goals rfl

theorem config_synAckAccept (src : SocketAddr) (conv : UInt32) (clock : Clock) (socket : Socket) :
    (p.synAckAccept src conv clock socket).config = p.config := by
  unfold synAckAccept
  repeat' split
  all_goals rfl

end Peer

namespace Tasks

variable {K : Type}

/-- When the RESET handler removes, the map has the session that was looked up;
when the update task removes, it has none or one from before the tick's scan. -/
def removesOld (n : Tasks K) : TaskStep → Bool
  | .recv .. =>
      match n.recv with
      | .resetMatched src _ id => decide (n.peer.sessions.lookup (canonicalize src) = some id)
      | _ => true
  | .upd .. =>
      match n.upd with
      | .removing ((can, _) :: _) horizon =>
          (n.peer.sessions.lookup can).all fun id => decide (id < horizon)
      | _ => true
  | _ => true

variable [Kcp K]

theorem removesOld_board {n n' : Tasks K} {label : TaskStep} (old : n.removesOld label)
    (taken : n.step label = some n') : n.board.RemovesOld label.actor := by
  cases label with
  | arrive data src clock socket =>
      simp only [step] at taken
      split at taken
      · rename_i atRest
        simp only [TaskStep.actor, Board.RemovesOld, board, atRest]
      · cases taken
  | recv clock socket =>
      simp only [removesOld] at old
      simp only [TaskStep.actor, Board.RemovesOld, board]
      split
      · rename_i src conv id isMatched
        simp only [isMatched] at old
        exact of_decide_eq_true old
      · trivial
  | tick nowMs nowEpoch =>
      simp only [step] at taken
      split at taken
      · rename_i atRest
        simp only [TaskStep.actor, Board.RemovesOld, board, atRest]
      · cases taken
  | scan order =>
      simp only [step] at taken
      split at taken
      · rename_i started
        simp only [TaskStep.actor, Board.RemovesOld, board, started]
      · cases taken
  | upd now socket =>
      simp only [removesOld] at old
      simp only [TaskStep.actor, Board.RemovesOld, board]
      split
      · rename_i can judged rest horizon removing
        simp only [removing] at old
        intro id named
        rw [show n.peer.sessions.lookup can = some id from named] at old
        exact of_decide_eq_true old
      · trivial
  | _ => trivial

theorem step_config {n n' : Tasks K} {label : TaskStep} (taken : n.step label = some n') :
    n'.peer.config = n.peer.config := by
  cases step_moves taken with
  | arrives data src clock socket idle _ first =>
      cases first with
      | syn => exact Peer.config_synDecide ..
      | synAck => exact Peer.config_synAckAccept ..
      | _ => rfl
  | handles clock socket _ next =>
      cases next with
      | creates => exact Peer.config_synAcknowledge ..
      | acknowledged => exact Peer.config_synAcknowledge ..
      | _ => rfl
  | scans now socket _ next =>
      cases next with
      | prunes => exact Peer.config_prune ..
      | _ => rfl
  | advances index draw clock socket pc reads _ next =>
      cases next with
      | _ => rfl
  | disconnects => exact Peer.config_disconnect ..
  | _ => rfl

/-- Every verdict that awaits its removal rests on what the scan has found. -/
structure Founded (n : Tasks K) (config : KcpConfig) : Prop where
  configured : n.peer.config = config
  founded : ∀ entry ∈ n.upd.toRemove, entry.2.finding.Holds config

theorem Founded.step {n n' : Tasks K} {config : KcpConfig} {label : TaskStep}
    (ok : n.Founded config) (taken : n.step label = some n') : n'.Founded config := by
  refine ⟨(step_config taken).trans ok.configured, ?_⟩
  have keep : (∀ entry ∈ n'.upd.toRemove, entry ∈ n.upd.toRemove) →
      ∀ entry ∈ n'.upd.toRemove, entry.2.finding.Holds config :=
    fun old entry mem => ok.founded entry (old entry mem)
  have judges : ∀ {scan : Scan} {phase : ScanPhase} {can : CanonicalAddr} {verdict : Verdict},
      n.upd = .scanning scan phase → verdict.finding.Holds n.peer.config →
      n'.upd = .scanning (scan.judge can verdict) .check →
      ∀ entry ∈ n'.upd.toRemove, entry.2.finding.Holds config := by
    intro scan phase can verdict scanning holds after entry mem
    have old := ok.founded entry
    rw [scanning] at old
    rw [after] at mem
    rcases List.mem_append.mp mem with mem | new
    · exact old mem
    · obtain rfl := List.mem_singleton.mp new
      exact ok.configured ▸ holds
  have stays : ∀ {scan : Scan} {phase : ScanPhase}, n.upd = .scanning scan phase →
      n'.upd.toRemove = scan.toRemove →
      ∀ entry ∈ n'.upd.toRemove, entry.2.finding.Holds config := by
    intro scan phase scanning same
    refine keep fun entry mem => ?_
    rw [same] at mem
    rw [scanning]
    exact mem
  cases step_moves taken with
  | arrives data src clock socket idle _ first =>
      refine keep ?_
      cases first with
      | _ => exact fun _ mem => mem
  | handles clock socket _ next =>
      refine keep ?_
      cases next with
      | _ => exact fun _ mem => mem
  | ticks => exact fun _ mem => absurd mem List.not_mem_nil
  | begins => exact fun _ mem => absurd mem List.not_mem_nil
  | scans now socket _ next =>
      cases next with
      | walks scan scan' phase phase' scanning toRemove => exact stays scanning toRemove
      | reads scan can rest id s scanning => exact stays scanning rfl
      | judges scan phase can verdict s scanning found holds => exact judges scanning holds rfl
      | updates scan can rest id s pc scanning keys found next =>
          rcases next with ⟨finding, holds, rfl⟩ | rfl
          · exact judges scanning holds rfl
          · exact stays scanning rfl
      | resends scan can rest id s conv pc scanning keys found next =>
          rcases next with ⟨finding, holds, rfl⟩ | rfl
          · exact judges scanning holds rfl
          · exact stays scanning rfl
      | ends scan phase scanning => exact stays scanning rfl
      | stops => exact fun _ mem => absurd mem List.not_mem_nil
      | prunes can judged rest horizon removing =>
          refine keep fun entry mem => ?_
          rw [removing]
          exact List.mem_cons_of_mem _ mem
  | advances index draw clock socket pc reads _ next =>
      refine keep ?_
      cases next with
      | _ => exact fun _ mem => mem
  | _ => exact keep fun _ mem => mem

/-- What holds when every removal finds what it was decided on. -/
structure Judicious (n : Tasks K) (config : KcpConfig) : Prop where
  judged : n.board.Judged
  founded : n.Founded config
  isMatched : n.board.Matched
  once : n.board.Once
  justified : ∀ removal ∈ n.removals, removal.Justified config

theorem reach_judicious {incarnation : UInt64} {config : KcpConfig} {n : Tasks K}
    (reached : (tasksMachine K incarnation config).Reach (fun n label => n.removesOld label) n) :
    n.Judicious config := by
  refine reached.invariant_with (P := fun n => n.Judicious config)
    (fun _ => tasksMachine_sound) ?_ ?_
  · refine ⟨⟨Nat.le_refl _, ?_⟩, ⟨rfl, ?_⟩, ?_, ⟨?_, ?_, ?_⟩, ?_⟩
    · intro can judged mem
      cases mem
    · intro entry mem
      cases mem
    · rintro _ _ _ ⟨⟩
    · intro id
      exact Nat.zero_le 1
    · intro can id named
      rfl
    · rintro _ ⟨⟩
    · intro removal mem
      cases mem
  · intro before label after ok sound allowed taken
    have step := step_board taken
    have old := removesOld_board allowed taken
    exact ⟨ok.judged.step step, ok.founded.step taken, ok.isMatched.step sound step,
      ok.once.step sound step old,
      Board.justified_step ok.judged ok.founded.founded ok.isMatched step old ok.justified⟩

end Tasks

end KcpPeer
