import KcpPeer.Quiescence
import KcpPeer.Shutdown

set_option autoImplicit false

namespace KcpPeer

/-- What the receive loop has still to do until it is left. The round that found the
token not cancelled may still take a datagram, and the handler of a SYN is the longest. -/
def LoopPc.recvRank : LoopPc → Nat
  | .top => 1
  | .entered => 24
  | .exited => 0

/-- What the update loop has still to do, with `mapped` sessions in the map. -/
def LoopPc.updRank (mapped : Nat) : LoopPc → Nat
  | .top => 1
  | .entered => 9 * mapped + 10
  | .exited => 0

/-- What `shutdown()` itself has still to do, with `mapped` sessions in the map. -/
def ShutdownPc.rank (mapped : Nat) : ShutdownPc → Nat
  | .running => 0
  | .cancelled => 3 * mapped + 2
  | .closing rest => 3 * rest.length + 1
  | .marked _ rest => 3 * rest.length + 3
  | .reading _ _ rest => 3 * rest.length + 2
  | .returned => 0

/-- The sessions of the snapshot that `shutdown()` has not finished with. -/
def ShutdownPc.held : ShutdownPc → List SessionId
  | .closing rest => rest
  | .marked id rest => id :: rest
  | .reading id _ rest => id :: rest
  | _ => []

/-- A step of the two background tasks. `shutdown()` has no part in it. -/
def ShutdownStep.background : ShutdownStep → Bool
  | .task (.recv ..) | .task (.scan ..) | .task (.upd ..) | .lookRecv | .lookUpd => true
  | _ => false

namespace Shutdown

variable {K : Type}

/-- A bound on the steps that are left once the token is cancelled. A session that is
still inserted weighs less than the step of the receive task that inserts it. -/
def remaining (d : Shutdown K) : Nat :=
  4 * (d.tasks.work + d.recvLoop.recvRank + d.updLoop.updRank d.tasks.mapped) +
    d.pc.rank d.tasks.mapped

/-- Both loops are left, and nothing of the peer runs any more. -/
structure Stopped (d : Shutdown K) : Prop where
  recv : d.recvLoop = .exited
  upd : d.updLoop = .exited
  rest : d.tasks.AtRest

/-- The tasks and `shutdown()` are where their loops put them. -/
structure Paced (d : Shutdown K) : Prop where
  grounded : d.tasks.Grounded
  recv : d.recvLoop ≠ .top → d.tasks.recv = .idle
  upd : d.updLoop ≠ .top → d.tasks.upd = .idle
  calls : d.pc ≠ .running → ∀ pc ∈ d.tasks.calls, pc = .done
  held : ∀ id ∈ d.pc.held, id < d.tasks.peer.sessions.fresh
  returned : d.pc = .returned → d.recvLoop = .exited ∧ d.updLoop = .exited

variable {d d' : Shutdown K}

theorem updRank_mono (pc : LoopPc) {mapped mapped' : Nat} (le : mapped' ≤ mapped) :
    pc.updRank mapped' ≤ pc.updRank mapped := by
  cases pc with
  | entered =>
      simp only [LoopPc.updRank]
      omega
  | _ => exact Nat.le_refl _

theorem rank_mono (pc : ShutdownPc) {mapped mapped' : Nat} (le : mapped' ≤ mapped + 1) :
    pc.rank mapped' ≤ pc.rank mapped + 3 := by
  cases pc with
  | cancelled =>
      simp only [ShutdownPc.rank]
      omega
  | _ => exact Nat.le_add_right _ 3

/-- A session that is inserted lengthens a tick that may still begin or has not read the
map yet. It cannot be both. -/
theorem rank_loop_lt {upd : UpdPc} (loop : LoopPc) (apart : loop ≠ .top → upd = .idle)
    {rank rank' mapped mapped' : Nat} (nearer : Tasks.Nearer rank rank' mapped mapped') :
    rank' + upd.rank mapped' + loop.updRank mapped' <
      rank + upd.rank mapped + loop.updRank mapped ∧ mapped' ≤ mapped + 1 := by
  have bound : mapped' ≤ mapped + 1 := by
    rcases nearer with ⟨_, le⟩ | ⟨_, le⟩
    · omega
    · exact le
  refine ⟨?_, bound⟩
  have less := Tasks.rank_upd_le upd nearer
  cases loop with
  | top =>
      simp only [LoopPc.updRank]
      omega
  | exited =>
      simp only [LoopPc.updRank]
      omega
  | entered =>
      have idle := apart (by rintro ⟨⟩)
      simp only [idle, UpdPc.rank, LoopPc.updRank]
      unfold Tasks.Nearer at nearer
      omega

variable [Kcp K]

theorem synDecide_keys (p : Peer K) (src : SocketAddr) (conv : UInt32) (myAddr : SocketAddr)
    (clock : Clock) (socket : Socket) :
    (p.synDecide src conv myAddr clock socket).1.sessions.keys = p.sessions.keys := by
  unfold Peer.synDecide
  repeat' split
  all_goals rfl

theorem synAckAccept_keys (p : Peer K) (src : SocketAddr) (conv : UInt32) (clock : Clock)
    (socket : Socket) :
    (p.synAckAccept src conv clock socket).sessions.keys = p.sessions.keys := by
  unfold Peer.synAckAccept
  repeat' split
  all_goals rfl

/-- The first section of a handler leaves the keys of the map, and at most 22 steps to do. -/
theorem arrives_rank {n n' : Tasks K} {data : Bytes} {src : SocketAddr} {clock : Clock}
    {socket : Socket} (idle : n.recv = .idle) (next : n.Arrives data src clock socket n') :
    n'.upd = n.upd ∧ n'.calls = n.calls ∧ n'.mapped = n.mapped ∧ n'.recv.rank ≤ 22 := by
  have none : n.recv.rank ≤ 22 := by
    rw [idle]
    exact Nat.zero_le _
  cases next with
  | ignored => exact ⟨rfl, rfl, rfl, none⟩
  | kcpFound id payload found => exact ⟨rfl, rfl, rfl, by simp [RecvPc.rank]⟩
  | kcpUnknown payload => exact ⟨rfl, rfl, rfl, by simp [RecvPc.rank]⟩
  | syn payload conv myAddr =>
      exact ⟨rfl, rfl, congrArg List.length (synDecide_keys ..), Nat.le_refl _⟩
  | synAck conv => exact ⟨rfl, rfl, congrArg List.length (synAckAccept_keys ..), none⟩
  | resetFound conv id found => exact ⟨rfl, rfl, rfl, by simp [RecvPc.rank]⟩

/-- A step of a task brings the end nearer once no call runs any more. -/
theorem Runs.remaining_lt (ok : d.Paced) (called : d.pc ≠ .running) {label : TaskStep}
    (runs : d.Runs label d') : d'.pc = d.pc ∧ d'.remaining < d.remaining := by
  have lowers : ∀ (tasks : Tasks K) (recvLoop updLoop : LoopPc),
      tasks.work + recvLoop.recvRank + updLoop.updRank tasks.mapped <
        d.tasks.work + d.recvLoop.recvRank + d.updLoop.updRank d.tasks.mapped →
      tasks.mapped ≤ d.tasks.mapped + 1 →
      remaining ⟨tasks, recvLoop, updLoop, d.pc, d.mark⟩ < d.remaining := by
    intro tasks recvLoop updLoop less bound
    have more := rank_mono d.pc bound
    simp only [remaining]
    omega
  cases runs with
  | arrives data src clock socket tasks entered moved =>
      obtain ⟨upd, calls, mapped, rank⟩ : tasks.upd = d.tasks.upd ∧
          tasks.calls = d.tasks.calls ∧ tasks.mapped = d.tasks.mapped ∧
          tasks.recv.rank ≤ 22 := by
        cases Tasks.step_moves moved with
        | arrives _ _ _ _ idle _ next => exact arrives_rank idle next
      refine ⟨rfl, lowers tasks .top d.updLoop ?_ (by omega)⟩
      simp only [Tasks.work, upd, calls, mapped, entered, LoopPc.recvRank]
      omega
  | ticks nowMs nowEpoch tasks entered moved =>
      obtain ⟨more, mapped⟩ : tasks.work ≤ d.tasks.work + 9 * d.tasks.mapped + 8 ∧
          tasks.mapped = d.tasks.mapped := by
        cases Tasks.step_moves moved with
        | skips => exact ⟨by omega, rfl⟩
        | ticks =>
            refine ⟨?_, rfl⟩
            simp only [Tasks.work, Tasks.mapped, UpdPc.rank]
            omega
      refine ⟨rfl, lowers tasks d.recvLoop .top ?_ (by omega)⟩
      simp only [entered, LoopPc.updRank]
      omega
  | handles clock socket tasks moved =>
      obtain ⟨upd, calls, nearer⟩ := (Tasks.recvStep_handles moved).nearer
      obtain ⟨less, bound⟩ := rank_loop_lt d.updLoop ok.upd nearer
      refine ⟨rfl, lowers tasks d.recvLoop d.updLoop ?_ bound⟩
      simp only [Tasks.work, upd, calls]
      omega
  | begins order tasks moved =>
      have less := Tasks.work_falls rfl moved
      have mapped : tasks.mapped = d.tasks.mapped := by
        cases Tasks.step_moves moved with
        | begins => rfl
      refine ⟨rfl, lowers tasks d.recvLoop d.updLoop ?_ (by omega)⟩
      rw [mapped]
      omega
  | scans now socket tasks moved =>
      obtain ⟨recv, calls, mapped, less⟩ := Tasks.updStep_nearer moved
      have loop := updRank_mono d.updLoop mapped
      refine ⟨rfl, lowers tasks d.recvLoop d.updLoop ?_ (by omega)⟩
      simp only [Tasks.work, recv, calls]
      omega
  | calls label tasks api running moved => exact absurd running called

/-- A task leaves the others where they are. -/
theorem step_frames {n n' : Tasks K} {label : TaskStep} (moved : n.step label = some n') :
    (label.actor ≠ .recv → n'.recv = n.recv) ∧ (label.actor ≠ .upd → n'.upd = n.upd) ∧
      (label.actor ≠ .api → n'.calls = n.calls) := by
  cases Tasks.step_moves moved with
  | arrives data src clock socket idle n' next =>
      obtain ⟨upd, calls, _, _⟩ := arrives_rank idle next
      exact ⟨fun other => absurd rfl other, fun _ => upd, fun _ => calls⟩
  | handles clock socket n' next =>
      obtain ⟨upd, calls, _⟩ := next.nearer
      exact ⟨fun other => absurd rfl other, fun _ => upd, fun _ => calls⟩
  | skips => exact ⟨fun _ => rfl, fun _ => rfl, fun _ => rfl⟩
  | ticks => exact ⟨fun _ => rfl, fun other => absurd rfl other, fun _ => rfl⟩
  | begins => exact ⟨fun _ => rfl, fun other => absurd rfl other, fun _ => rfl⟩
  | scans now socket n' next =>
      obtain ⟨recv, calls, _⟩ := Tasks.updStep_nearer moved
      exact ⟨fun _ => recv, fun other => absurd rfl other, fun _ => calls⟩
  | advances index draw clock socket pc reads n' next =>
      obtain ⟨_, recv, upd, _⟩ := next.nearer
      exact ⟨fun _ => recv, fun _ => upd, fun other => absurd rfl other⟩
  | calls => exact ⟨fun _ => rfl, fun _ => rfl, fun other => absurd rfl other⟩
  | cancels => exact ⟨fun _ => rfl, fun _ => rfl, fun other => absurd rfl other⟩
  | disconnects => exact ⟨fun _ => rfl, fun _ => rfl, fun _ => rfl⟩
  | takes => exact ⟨fun _ => rfl, fun _ => rfl, fun _ => rfl⟩

theorem Paced.task (ok : d.Paced) {label : TaskStep} (runs : d.Runs label d') : d'.Paced := by
  have keeps : ∀ (tasks : Tasks K) (recvLoop updLoop : LoopPc),
      d.tasks.step label = some tasks →
      (recvLoop ≠ .top → recvLoop = d.recvLoop ∧ tasks.recv = d.tasks.recv) →
      (updLoop ≠ .top → updLoop = d.updLoop ∧ tasks.upd = d.tasks.upd) →
      (d.pc ≠ .running → tasks.calls = d.tasks.calls) →
      (d.pc = .returned → recvLoop = d.recvLoop ∧ updLoop = d.updLoop) →
      Paced ⟨tasks, recvLoop, updLoop, d.pc, d.mark⟩ := by
    intro tasks recvLoop updLoop moved recv upd calls loops
    refine ⟨ok.grounded.step moved, ?_, ?_, ?_, ?_, ?_⟩
    · intro left
      obtain ⟨same, kept⟩ := recv left
      exact kept.trans (ok.recv (same ▸ left))
    · intro left
      obtain ⟨same, kept⟩ := upd left
      exact kept.trans (ok.upd (same ▸ left))
    · intro called
      rw [calls called]
      exact ok.calls called
    · intro id held
      exact Nat.lt_of_lt_of_le (ok.held id held) (Tasks.step_fresh moved)
    · intro returned
      obtain ⟨recvSame, updSame⟩ := loops returned
      obtain ⟨recvLeft, updLeft⟩ := ok.returned returned
      exact ⟨recvSame.trans recvLeft, updSame.trans updLeft⟩
  cases runs with
  | arrives data src clock socket tasks entered moved =>
      obtain ⟨_, upd, calls⟩ := step_frames moved
      refine keeps tasks .top d.updLoop moved (fun left => absurd rfl left)
        (fun _ => ⟨rfl, upd (by rintro ⟨⟩)⟩) (fun _ => calls (by rintro ⟨⟩)) ?_
      intro returned
      rw [(ok.returned returned).1] at entered
      cases entered
  | ticks nowMs nowEpoch tasks entered moved =>
      obtain ⟨recv, _, calls⟩ := step_frames moved
      refine keeps tasks d.recvLoop .top moved (fun _ => ⟨rfl, recv (by rintro ⟨⟩)⟩)
        (fun left => absurd rfl left) (fun _ => calls (by rintro ⟨⟩)) ?_
      intro returned
      rw [(ok.returned returned).2] at entered
      cases entered
  | handles clock socket tasks moved =>
      obtain ⟨_, upd, calls⟩ := step_frames moved
      refine keeps tasks d.recvLoop d.updLoop moved ?_ (fun _ => ⟨rfl, upd (by rintro ⟨⟩)⟩)
        (fun _ => calls (by rintro ⟨⟩)) (fun _ => ⟨rfl, rfl⟩)
      intro left
      simp only [Tasks.step, Tasks.recvStep, ok.recv left] at moved
      cases moved
  | begins order tasks moved =>
      obtain ⟨recv, _, calls⟩ := step_frames moved
      refine keeps tasks d.recvLoop d.updLoop moved (fun _ => ⟨rfl, recv (by rintro ⟨⟩)⟩) ?_
        (fun _ => calls (by rintro ⟨⟩)) (fun _ => ⟨rfl, rfl⟩)
      intro left
      simp only [Tasks.step, ok.upd left] at moved
      cases moved
  | scans now socket tasks moved =>
      obtain ⟨recv, _, calls⟩ := step_frames moved
      refine keeps tasks d.recvLoop d.updLoop moved (fun _ => ⟨rfl, recv (by rintro ⟨⟩)⟩) ?_
        (fun _ => calls (by rintro ⟨⟩)) (fun _ => ⟨rfl, rfl⟩)
      intro left
      simp only [Tasks.step, Tasks.updStep, ok.upd left] at moved
      cases moved
  | calls label tasks api running moved =>
      obtain ⟨recv, upd, _⟩ := step_frames moved
      exact keeps tasks d.recvLoop d.updLoop moved
        (fun _ => ⟨rfl, recv (by rw [api]; rintro ⟨⟩)⟩)
        (fun _ => ⟨rfl, upd (by rw [api]; rintro ⟨⟩)⟩)
        (fun called => absurd running called) (fun _ => ⟨rfl, rfl⟩)

omit [Kcp K] in
/-- What `shutdown()` writes to a session names no session anew. -/
theorem Paced.tasks (ok : d.Paced) (peer : Peer K)
    (fresh : peer.sessions.fresh = d.tasks.peer.sessions.fresh)
    (lookup : ∀ can, peer.sessions.lookup can = d.tasks.peer.sessions.lookup can) :
    Tasks.Grounded { d.tasks with peer } where
  recv := fun id held => Nat.lt_of_lt_of_eq (ok.grounded.recv id held) fresh.symm
  calls := fun pc mem id held =>
    Nat.lt_of_lt_of_eq (ok.grounded.calls pc mem id held) fresh.symm
  scan := by
    intro scan phase scanning can mem
    obtain ⟨id, named⟩ := ok.grounded.scan scan phase scanning can mem
    exact ⟨id, (lookup can).trans named⟩

/-- What holds of a state that `shutdown()` or a loop moves to. -/
structure Winds (d d' : Shutdown K) : Prop where
  paced : d'.Paced
  nearer : d.pc ≠ .running → d'.pc ≠ .running ∧ d'.remaining < d.remaining

omit [Kcp K] in
theorem look_called (called : d.pc ≠ .running) : d.look = .exited := if_neg called

omit [Kcp K] in
theorem Paced.lookRecv (ok : d.Paced) (inside : d.recvLoop ≠ .exited)
    (idle : d.tasks.recv = .idle) : d.Winds { d with recvLoop := d.look } where
  paced := by
    refine ⟨ok.grounded, fun _ => idle, ok.upd, ok.calls, ok.held, ?_⟩
    intro returned
    exact absurd (ok.returned returned).1 inside
  nearer := by
    intro called
    refine ⟨called, ?_⟩
    have less : d.look.recvRank < d.recvLoop.recvRank := by
      rw [look_called called]
      cases loop : d.recvLoop with
      | top => exact Nat.zero_lt_one
      | entered => exact Nat.zero_lt_succ _
      | exited => exact absurd loop inside
    simp only [remaining]
    omega

omit [Kcp K] in
theorem Paced.lookUpd (ok : d.Paced) (inside : d.updLoop ≠ .exited)
    (idle : d.tasks.upd = .idle) : d.Winds { d with updLoop := d.look } where
  paced := by
    refine ⟨ok.grounded, ok.recv, fun _ => idle, ok.calls, ok.held, ?_⟩
    intro returned
    exact absurd (ok.returned returned).2 inside
  nearer := by
    intro called
    refine ⟨called, ?_⟩
    have less : d.look.updRank d.tasks.mapped < d.updLoop.updRank d.tasks.mapped := by
      rw [look_called called]
      cases loop : d.updLoop with
      | top => exact Nat.zero_lt_one
      | entered => exact Nat.zero_lt_succ _
      | exited => exact absurd loop inside
    simp only [remaining]
    omega

omit [Kcp K] in
/-- `shutdown()` goes on, and may write to the sessions. -/
theorem Paced.own (ok : d.Paced) (calls : ∀ pc ∈ d.tasks.calls, pc = .done) (peer : Peer K)
    (pc : ShutdownPc) (mark : Nat) (fresh : peer.sessions.fresh = d.tasks.peer.sessions.fresh)
    (lookup : ∀ can, peer.sessions.lookup can = d.tasks.peer.sessions.lookup can)
    (keys : peer.sessions.keys = d.tasks.peer.sessions.keys)
    (held : ∀ id ∈ pc.held, id < d.tasks.peer.sessions.fresh)
    (returned : pc = .returned → d.recvLoop = .exited ∧ d.updLoop = .exited)
    (next : pc ≠ .running)
    (less : d.pc ≠ .running → pc.rank d.tasks.mapped < d.pc.rank d.tasks.mapped) :
    d.Winds ⟨{ d.tasks with peer }, d.recvLoop, d.updLoop, pc, mark⟩ where
  paced :=
    ⟨ok.tasks peer fresh lookup, ok.recv, ok.upd, fun _ => calls,
      fun id mem => Nat.lt_of_lt_of_eq (held id mem) fresh.symm, returned⟩
  nearer := by
    intro called
    refine ⟨next, ?_⟩
    have nearer := less called
    have mapped : Tasks.mapped { d.tasks with peer } = d.tasks.mapped := congrArg List.length keys
    have work : Tasks.work { d.tasks with peer } = d.tasks.work := by
      simp only [Tasks.work, mapped]
    simp only [remaining, mapped, work]
    omega

omit [Kcp K] in
/-- `shutdown()` goes on once it has been called, and its sessions are still those it held. -/
theorem Paced.goes_on (ok : d.Paced) (called : d.pc ≠ .running) (peer : Peer K) (pc : ShutdownPc)
    (fresh : peer.sessions.fresh = d.tasks.peer.sessions.fresh)
    (lookup : ∀ can, peer.sessions.lookup can = d.tasks.peer.sessions.lookup can)
    (keys : peer.sessions.keys = d.tasks.peer.sessions.keys)
    (held : ∀ id ∈ pc.held, id ∈ d.pc.held) (waits : pc ≠ .returned) (next : pc ≠ .running)
    (less : pc.rank d.tasks.mapped < d.pc.rank d.tasks.mapped) :
    d.Winds ⟨{ d.tasks with peer }, d.recvLoop, d.updLoop, pc, d.mark⟩ :=
  ok.own (ok.calls called) peer pc d.mark fresh lookup keys
    (fun id mem => ok.held id (held id mem)) (fun returned => absurd returned waits) next
    fun _ => less

theorem Paced.step (ok : d.Paced) {label : ShutdownStep} (taken : d.step label = some d') :
    d.Winds d' := by
  cases step_moves taken with
  | runs label d' next =>
      refine ⟨ok.task next, fun called => ?_⟩
      obtain ⟨same, less⟩ := next.remaining_lt ok called
      exact ⟨by rw [same]; exact called, less⟩
  | looksRecv inside idle => exact ok.lookRecv inside idle
  | looksUpd inside idle => exact ok.lookUpd inside idle
  | cancels running ended =>
      refine ok.own ended d.tasks.peer .cancelled _ rfl (fun _ => rfl) rfl ?_ ?_ ?_ ?_
      · rintro id ⟨⟩
      · rintro ⟨⟩
      · rintro ⟨⟩
      · exact fun called => absurd running called
  | snapshots order pc iterates =>
      have called : d.pc ≠ .running := by
        rw [pc]
        rintro ⟨⟩
      refine ok.own (ok.calls called) d.tasks.peer _ d.mark rfl (fun _ => rfl) rfl ?_ ?_ ?_ ?_
      · intro id mem
        obtain ⟨can, _, named⟩ := List.mem_filterMap.mp mem
        exact Store.lookup_lt named
      · rintro ⟨⟩
      · rintro ⟨⟩
      · intro _
        have visited : order.length = d.tasks.mapped := (List.isPerm_iff.mp iterates).length_eq
        have fewer : (order.filterMap d.tasks.peer.sessions.lookup).length ≤ order.length :=
          List.length_filterMap_le ..
        simp only [pc, ShutdownPc.rank]
        omega
  | closes id rest s pc present =>
      refine ok.goes_on ?_ (d.tasks.peer.setSession id s.markClosed) (.marked id rest)
        (Store.fresh_modify ..) (fun can => Store.lookup_modify ..) (Store.keys_modify ..) ?_ ?_ ?_
        ?_
      · rw [pc]
        rintro ⟨⟩
      · rw [pc]
        exact fun _ mem => mem
      · rintro ⟨⟩
      · rintro ⟨⟩
      · simp only [pc, ShutdownPc.rank, List.length_cons]
        omega
  | reads id rest s pc present =>
      refine ok.goes_on ?_ d.tasks.peer (.reading id s.inner.convId rest) rfl (fun _ => rfl) rfl
        ?_ ?_ ?_ ?_
      · rw [pc]
        rintro ⟨⟩
      · rw [pc]
        exact fun _ mem => mem
      · rintro ⟨⟩
      · rintro ⟨⟩
      · simp only [pc, ShutdownPc.rank]
        omega
  | resets socket id conv rest s pc present =>
      refine ok.goes_on ?_ (d.tasks.peer.sendReset conv s.peerAddr socket) (.closing rest) rfl
        (fun _ => rfl) rfl ?_ ?_ ?_ ?_
      · rw [pc]
        rintro ⟨⟩
      · rw [pc]
        exact fun _ mem => List.mem_cons_of_mem id mem
      · rintro ⟨⟩
      · rintro ⟨⟩
      · simp only [pc, ShutdownPc.rank]
        omega
  | joins pc recvLeft updLeft =>
      have called : d.pc ≠ .running := by
        rw [pc]
        rintro ⟨⟩
      refine ok.own (ok.calls called) d.tasks.peer .returned d.mark rfl (fun _ => rfl) rfl ?_
        (fun _ => ⟨recvLeft, updLeft⟩) ?_ ?_
      · rintro id ⟨⟩
      · rintro ⟨⟩
      · intro _
        simp only [pc, ShutdownPc.rank]
        omega

/-- Until the tasks have stopped one of them can go on, whatever `shutdown()` does. -/
theorem Paced.background (ok : d.Paced) (called : d.pc ≠ .running) :
    d.Stopped ∨ ∃ label d', label.background = true ∧ d.step label = some d' := by
  have answers : Socket := ⟨.error ⟨.other, ""⟩, fun _ _ => .ok 0⟩
  by_cases upd : d.tasks.upd = .idle
  · by_cases recv : d.tasks.recv = .idle
    · by_cases recvLeft : d.recvLoop = .exited
      · by_cases updLeft : d.updLoop = .exited
        · exact Or.inl ⟨recvLeft, updLeft, recv, upd, ok.calls called⟩
        · exact Or.inr ⟨.lookUpd, _, rfl, if_pos ⟨updLeft, upd⟩⟩
      · exact Or.inr ⟨.lookRecv, _, rfl, if_pos ⟨recvLeft, recv⟩⟩
    · have free : d.tasks.writable = true := by simp only [Tasks.writable, upd]
      obtain ⟨tasks, moved⟩ := ok.grounded.recv_goes_on recv free ⟨0, 0⟩ answers
      exact Or.inr ⟨.task (.recv ⟨0, 0⟩ answers), _, rfl,
        by simp only [Shutdown.step, taskStep, moved, Option.map_some]; rfl⟩
  · obtain ⟨tasks, moved | moved⟩ := ok.grounded.upd_goes_on upd 0 answers
    · exact Or.inr ⟨.task (.scan d.tasks.peer.sessions.keys), _, rfl,
        by simp only [Shutdown.step, taskStep, moved, Option.map_some]; rfl⟩
    · exact Or.inr ⟨.task (.upd 0 answers), _, rfl,
        by simp only [Shutdown.step, taskStep, moved, Option.map_some]; rfl⟩

/-- When the tasks have stopped nothing keeps `shutdown()` from going on until it returns. -/
theorem Paced.own_goes_on (ok : d.Paced) (called : d.pc ≠ .running) (stopped : d.Stopped) :
    d.pc = .returned ∨ ∃ label d', d.step label = some d' := by
  have answers : Socket := ⟨.error ⟨.other, ""⟩, fun _ _ => .ok 0⟩
  have present : ∀ id ∈ d.pc.held, ∃ s, d.tasks.peer.sessions.object? id = some s :=
    fun id mem => Store.object?_of_lt (ok.held id mem)
  cases pc : d.pc with
  | running => exact absurd pc called
  | cancelled =>
      have iterates : d.tasks.peer.sessions.keys.isPerm d.tasks.peer.sessions.keys :=
        List.isPerm_iff.mpr (List.Perm.refl _)
      exact Or.inr ⟨.snapshot d.tasks.peer.sessions.keys, _, if_pos ⟨pc, iterates⟩⟩
  | closing rest =>
      cases rest with
      | nil => exact Or.inr ⟨.join, _, if_pos ⟨pc, stopped.recv, stopped.upd⟩⟩
      | cons id rest =>
          obtain ⟨s, object⟩ := present id (by rw [pc]; exact List.mem_cons_self)
          exact Or.inr ⟨.close, _,
            by simp only [Shutdown.step, pc, object, Option.map_some]; rfl⟩
  | marked id rest =>
      obtain ⟨s, object⟩ := present id (by rw [pc]; exact List.mem_cons_self)
      exact Or.inr ⟨.read, _, by simp only [Shutdown.step, pc, object, Option.map_some]; rfl⟩
  | reading id conv rest =>
      obtain ⟨s, object⟩ := present id (by rw [pc]; exact List.mem_cons_self)
      exact Or.inr ⟨.reset answers, _,
        by simp only [Shutdown.step, pc, object, Option.map_some]; rfl⟩
  | returned => exact Or.inl rfl

/-- When `shutdown()` has returned nothing can move any more. -/
theorem Paced.ended (ok : d.Paced) (returned : d.pc = .returned) :
    d.Stopped ∧ ∀ label, d.step label = none := by
  obtain ⟨recvLeft, updLeft⟩ := ok.returned returned
  have recv := ok.recv (by rw [recvLeft]; rintro ⟨⟩)
  have upd := ok.upd (by rw [updLeft]; rintro ⟨⟩)
  have calls := ok.calls (by rw [returned]; rintro ⟨⟩)
  refine ⟨⟨recvLeft, updLeft, recv, upd, calls⟩, ?_⟩
  intro label
  cases label with
  | task label =>
      cases label with
      | arrive => simp [Shutdown.step, taskStep, recvLeft]
      | tick => simp [Shutdown.step, taskStep, updLeft]
      | recv => simp [Shutdown.step, taskStep, Tasks.step, Tasks.recvStep, recv]
      | scan => simp [Shutdown.step, taskStep, Tasks.step, upd]
      | upd => simp [Shutdown.step, taskStep, Tasks.step, Tasks.updStep, upd]
      | _ => simp [Shutdown.step, taskStep, returned]
  | lookRecv => simp [Shutdown.step, recvLeft]
  | lookUpd => simp [Shutdown.step, updLeft]
  | _ => simp [Shutdown.step, returned]

end Shutdown

section Run

variable {K : Type} [Kcp K] {incarnation : UInt64} {config : KcpConfig}

theorem shutdownMachine_paced {guard : Shutdown K → ShutdownStep → Prop} {d : Shutdown K}
    (reached : (shutdownMachine K incarnation config).Reach guard d) : d.Paced := by
  refine reached.invariant (P := Shutdown.Paced) ?_ ?_
  · have empty : (tasksMachine K incarnation config).Reach Machine.always _ := .start
    refine ⟨tasksMachine_grounded empty, fun _ => rfl, fun _ => rfl, ?_, ?_, ?_⟩
    · exact fun called => absurd rfl called
    · rintro id ⟨⟩
    · rintro ⟨⟩
  · intro before label after ok _ taken
    exact (ok.step taken).paced

end Run

/-- Once its token is cancelled a peer winds down, in every interleaving: at most
`remaining` steps are left, whatever the clock and the socket do; until the tasks have
stopped one of them can go on without `shutdown()`, so that dropping the peer or the future
of `shutdown()` stops them as well; `shutdown()` returns when they have, and then nothing
of the peer runs any more. -/
theorem shutdown_returns (K : Type) [Kcp K] (incarnation : UInt64) (config : KcpConfig)
    (d d' : Shutdown K)
    (reached : (shutdownMachine K incarnation config).Reach Machine.always d)
    (called : d.pc ≠ .running) (labels : List ShutdownStep)
    (ran : (shutdownMachine K incarnation config).exec Machine.always d labels = some d') :
    labels.length + d'.remaining ≤ d.remaining ∧
      (d'.Stopped ∨ ∃ label d'', label.background = true ∧ d'.step label = some d'') ∧
      (d'.Stopped → d'.pc = .returned ∨ ∃ label d'', d'.step label = some d'') ∧
      (d'.pc = .returned → d'.Stopped ∧ ∀ label, d'.step label = none) := by
  have falls : ∀ (before : Shutdown K) (label : ShutdownStep) (after : Shutdown K),
      before.Paced ∧ before.pc ≠ .running → Machine.always before label →
      before.step label = some after →
      (after.Paced ∧ after.pc ≠ .running) ∧ after.remaining < before.remaining := by
    intro before label after ok _ taken
    have winds := ok.1.step taken
    obtain ⟨next, less⟩ := winds.nearer ok.2
    exact ⟨⟨winds.paced, next⟩, less⟩
  obtain ⟨⟨paced, next⟩, bound⟩ :=
    Machine.exec_length_le falls labels ⟨shutdownMachine_paced reached, called⟩ ran
  exact ⟨bound, paced.background next, paced.own_goes_on next, paced.ended⟩

/-- The token is cancelled in the middle of the handler of a SYN; the handler ends between
two steps of `shutdown()`, which returns eight steps after the cancellation. -/
theorem shutdown_returns_midway :
    ∃ d d' : Shutdown SampleKcp,
      (shutdownMachine SampleKcp 1 .default).Reach Machine.always d ∧ d.pc = .cancelled ∧
        8 + d'.remaining ≤ d.remaining ∧ d'.pc = .returned ∧ d'.Stopped := by
  have run : ((shutdownMachine SampleKcp 1 .default).exec Machine.always
      (shutdownMachine SampleKcp 1 .default).start
      (ShutdownStep.sent ++ [.lookUpd, .lookRecv, .task (.arriveSample (encodeControl .syn 20)),
        .cancel])).any
      (fun d => decide (d.pc = .cancelled) && ((shutdownMachine SampleKcp 1 .default).exec
        Machine.always d
        [.snapshot [canonicalize .remote], .close, .task .recvSample, .read, .reset .sample,
          .lookRecv, .lookUpd, .join]).any fun d' => decide (d'.pc = .returned)) = true := by
    decide +kernel
  obtain ⟨d, reached, checked⟩ := Machine.Reach.exec_any _ run
  obtain ⟨cancelled, rest⟩ := Bool.and_eq_true_iff.mp checked
  obtain ⟨d', ran, returned⟩ := (Option.any_eq_true ..).mp rest
  have cancelled := of_decide_eq_true cancelled
  have returned := of_decide_eq_true returned
  obtain ⟨bound, _, _, ended⟩ := shutdown_returns SampleKcp 1 .default d d' reached
    (by rw [cancelled]; rintro ⟨⟩) _ ran
  exact ⟨d, d', reached, cancelled, bound, returned, (ended returned).1⟩

end KcpPeer
