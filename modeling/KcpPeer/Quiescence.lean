import KcpPeer.Evolution
import KcpPeer.Serial

set_option autoImplicit false

namespace KcpPeer

/-- How much the receive task has still to do with its datagram. What precedes the
insertion of a session weighs more: the insertion gives a starting scan one key more. -/
def RecvPc.rank : RecvPc → Nat
  | .idle => 0
  | .kcpUnknown .. => 1
  | .kcpFound .. => 5
  | .kcpStamped .. => 4
  | .kcpFed .. => 3
  | .kcpDrained .. => 2
  | .kcpAppended => 1
  | .synDecided .. => 22
  | .synCreating .. => 21
  | .synCreated .. => 20
  | .resetFound .. => 4
  | .resetMatched .. => 3
  | .resetRemoved .. => 2
  | .resetClosed .. => 1

def SendPc.rank : SendPc → Nat
  | .called .. => 26
  | .missing .. => 25
  | .creating .. => 24
  | .inserted .. => 5
  | .greeting .. => 4
  | .holding .. => 3
  | .opened .. => 2
  | .done => 0

def ScanPhase.rank : ScanPhase → Nat
  | .check => 5
  | .update => 4
  | .retry => 3
  | .resend _ => 2
  | .age => 1

/-- How much the update task has still to do in its tick, with `mapped` sessions in
the map. -/
def UpdPc.rank (mapped : Nat) : UpdPc → Nat
  | .idle => 0
  | .started .. => 9 * mapped + 8
  | .scanning scan phase => 9 * scan.keys.length + phase.rank + scan.toRemove.length + 2
  | .removing toRemove _ => toRemove.length + 1

/-- The step goes on with what a task has begun: it receives no datagram, starts no
tick and no call, and takes no message. -/
def TaskStep.goesOn : TaskStep → Bool
  | .recv .. | .scan .. | .upd .. | .advance .. | .cancel .. => true
  | .arrive .. | .tick .. | .call .. | .disconnect .. | .take => false

/-- The session object that the receive task has in hand. -/
def RecvPc.held : RecvPc → Option SessionId
  | .kcpFound id _ | .kcpStamped id _ | .kcpFed id | .kcpDrained id _ => some id
  | .resetFound _ _ id | .resetMatched _ _ id | .resetRemoved _ id | .resetClosed _ id => some id
  | _ => none

/-- The session object that a call has in hand. -/
def SendPc.held : SendPc → Option SessionId
  | .inserted id _ | .greeting id _ _ | .holding id _ | .opened id _ => some id
  | _ => none

namespace Tasks

variable {K : Type}

/-- The number of sessions in the map. -/
def mapped (n : Tasks K) : Nat := n.peer.sessions.keys.length

/-- A bound on the steps that the tasks can still take without new work. -/
def work (n : Tasks K) : Nat :=
  n.recv.rank + n.upd.rank n.mapped + (n.calls.map SendPc.rank).sum

/-- One task has come on, and has put at most one session into the map. -/
def Nearer (rank rank' mapped mapped' : Nat) : Prop :=
  rank' < rank ∧ mapped' ≤ mapped ∨ rank' + 10 ≤ rank ∧ mapped' ≤ mapped + 1

theorem rank_upd_le (pc : UpdPc) {rank rank' mapped mapped' : Nat}
    (nearer : Nearer rank rank' mapped mapped') :
    rank' + pc.rank mapped' < rank + pc.rank mapped := by
  unfold Nearer at nearer
  cases pc with
  | started => simp only [UpdPc.rank]; omega
  | _ => simp only [UpdPc.rank]; omega

variable {n n' : Tasks K}

theorem sessions_synAcknowledge (p : Peer K) (result : SynResult) (socket : Socket) :
    (p.synAcknowledge result socket).sessions = p.sessions := by
  unfold Peer.synAcknowledge
  split
  · rfl
  · rfl

variable [Kcp K]

theorem Handles.nearer {clock : Clock} {socket : Socket} (next : n.Handles clock socket n') :
    n'.upd = n.upd ∧ n'.calls = n.calls ∧
      Nearer n.recv.rank n'.recv.rank n.mapped n'.mapped := by
  have finishes : ∀ {peer : Peer K} {pc : RecvPc} {removals : List Removal},
      pc.rank < n.recv.rank → peer.sessions.keys.length ≤ n.mapped →
      Nearer n.recv.rank pc.rank n.mapped { n with peer, recv := pc, removals }.mapped :=
    fun less kept => Or.inl ⟨less, kept⟩
  cases next with
  | answered src payload conv unknown =>
      exact ⟨rfl, rfl, finishes (by simp [unknown, RecvPc.rank]) (Nat.le_refl _)⟩
  | unanswered src payload unknown =>
      exact ⟨rfl, rfl, finishes (by simp [unknown, RecvPc.rank]) (Nat.le_refl _)⟩
  | stamped id payload s found =>
      exact ⟨rfl, rfl, finishes (by simp [found, RecvPc.rank]) (Nat.le_refl _)⟩
  | refused id payload s stamped =>
      exact ⟨rfl, rfl, finishes (by simp [stamped, RecvPc.rank]) (Nat.le_refl _)⟩
  | fed id payload s stamped =>
      exact ⟨rfl, rfl, finishes (by simp [stamped, RecvPc.rank]) (Nat.le_refl _)⟩
  | dry id s fed =>
      exact ⟨rfl, rfl, finishes (by simp [fed, RecvPc.rank]) (Nat.le_refl _)⟩
  | drained id s fed =>
      exact ⟨rfl, rfl, finishes (by simp [fed, RecvPc.rank]) (Nat.le_refl _)⟩
  | appended id msgs s drained =>
      exact ⟨rfl, rfl, finishes (by simp [drained, RecvPc.rank]) (Nat.le_refl _)⟩
  | notified pushed =>
      exact ⟨rfl, rfl, finishes (by simp [pushed, RecvPc.rank]) (Nat.le_refl _)⟩
  | creates src conv result decided =>
      refine ⟨rfl, rfl, finishes (by simp [decided, RecvPc.rank]) ?_⟩
      rw [sessions_synAcknowledge]
      exact Nat.le_refl _
  | acknowledged src conv result decided =>
      refine ⟨rfl, rfl, finishes (by simp [decided, RecvPc.rank]) ?_⟩
      rw [sessions_synAcknowledge]
      exact Nat.le_refl _
  | created src conv creating =>
      exact ⟨rfl, rfl, finishes (by simp [creating, RecvPc.rank]) (Nat.le_refl _)⟩
  | inserted src conv created =>
      refine ⟨rfl, rfl, Or.inr ⟨by simp [created, RecvPc.rank], ?_⟩⟩
      exact Store.length_keys_insertNew_le ..
  | isMatched src conv id s found =>
      exact ⟨rfl, rfl, finishes (by simp [found, RecvPc.rank]) (Nat.le_refl _)⟩
  | unmatched src conv id found =>
      exact ⟨rfl, rfl, finishes (by simp [found, RecvPc.rank]) (Nat.le_refl _)⟩
  | removed src conv id isMatched =>
      exact ⟨rfl, rfl, finishes (by simp [isMatched, RecvPc.rank])
        (Store.length_keys_remove_le ..)⟩
  | closed src id s removed =>
      exact ⟨rfl, rfl, finishes (by simp [removed, RecvPc.rank]) (Nat.le_refl _)⟩
  | announced src id closed =>
      exact ⟨rfl, rfl, finishes (by simp [closed, RecvPc.rank]) (Nat.le_refl _)⟩

/-- What a step of the scan leaves of the scan and of the map. -/
structure Scanned (n : Tasks K) (scan : Scan) (phase : ScanPhase) (n' : Tasks K) : Prop where
  recv : n'.recv = n.recv
  calls : n'.calls = n.calls
  mapped : n'.mapped = n.mapped
  goesOn : ∃ scan' phase', n'.upd = .scanning scan' phase' ∧ scan'.keys <:+ scan.keys ∧
    UpdPc.rank n.mapped (.scanning scan' phase') < UpdPc.rank n.mapped (.scanning scan phase)

theorem scanStep_scanned (scan : Scan) (phase : ScanPhase) {can : CanonicalAddr}
    {rest : List CanonicalAddr} (id : SessionId) (s : Session K) (now : UInt64) (socket : Socket)
    (keys : scan.keys = can :: rest) :
    n.Scanned scan phase (n.scanStep scan can id s now socket phase) := by
  have enters : ∀ (phase' : ScanPhase) (q : Peer K), phase'.rank < phase.rank →
      q.sessions.keys = n.peer.sessions.keys →
      n.Scanned scan phase { n with peer := q, upd := .scanning scan phase' } := by
    intro phase' q less kept
    refine ⟨rfl, rfl, congrArg List.length kept, scan, phase', rfl, List.suffix_refl _, ?_⟩
    simp only [UpdPc.rank]
    omega
  have short : scan.keys.tail.length + 1 = scan.keys.length := by simp [keys]
  have leaves : ∀ (scan' : Scan) (q : Peer K), scan'.keys = scan.keys.tail →
      scan'.toRemove.length ≤ scan.toRemove.length + 1 →
      q.sessions.keys = n.peer.sessions.keys →
      n.Scanned scan phase { n with peer := q, upd := .scanning scan' .check } := by
    intro scan' q tail judged kept
    refine ⟨rfl, rfl, congrArg List.length kept, scan', .check, rfl, ?_, ?_⟩
    · rw [tail]
      exact List.tail_suffix _
    · simp only [UpdPc.rank, ScanPhase.rank, tail]
      omega
  have judges : ∀ (verdict : Verdict) (q : Peer K), q.sessions.keys = n.peer.sessions.keys →
      n.Scanned scan phase { n with
        peer := q, upd := .scanning (scan.judge can verdict) .check } :=
    fun verdict q kept => leaves _ q rfl (by simp [Scan.judge]) kept
  have skips : n.Scanned scan phase { n with upd := .scanning scan.skip .check } :=
    leaves scan.skip n.peer rfl (Nat.le_succ _) rfl
  cases phase with
  | check =>
      simp only [scanStep]
      split
      · exact skips
      · exact enters .update n.peer (by simp [ScanPhase.rank]) rfl
  | update =>
      simp only [scanStep]
      split
      · exact judges _ _ rfl
      · exact enters .retry _ (by simp [ScanPhase.rank]) rfl
  | retry =>
      simp only [scanStep]
      split
      · exact enters .age n.peer (by simp [ScanPhase.rank]) rfl
      · split
        · exact enters .age n.peer (by simp [ScanPhase.rank]) rfl
        · exact enters (.resend s.inner.convId) n.peer (by simp [ScanPhase.rank]) rfl
  | resend conv =>
      simp only [scanStep]
      split
      · exact judges _ _ rfl
      · exact enters .age _ (by simp [ScanPhase.rank]) rfl
  | age =>
      simp only [scanStep]
      split
      · exact judges _ n.peer rfl
      · exact skips

omit [Kcp K] in
theorem prune_mapped (socket : Socket) (p : Peer K) (can : CanonicalAddr) :
    (Peer.prune socket p can).sessions.keys.length ≤ p.sessions.keys.length := by
  unfold Peer.prune
  split
  · exact Nat.le_refl _
  · exact Store.length_keys_remove_le ..

/-- A step of the update task brings its tick nearer to the end. -/
theorem updStep_nearer {now : UInt64} {socket : Socket} (taken : n.updStep now socket = some n') :
    n'.recv = n.recv ∧ n'.calls = n.calls ∧ n'.mapped ≤ n.mapped ∧
      n'.upd.rank n'.mapped < n.upd.rank n.mapped := by
  unfold updStep at taken
  split at taken
  · cases taken
  · cases taken
  · rename_i scan phase scanning
    split at taken
    · rename_i keys
      obtain rfl := Option.some.inj taken
      refine ⟨rfl, rfl, Nat.le_refl _, ?_⟩
      have positive : 0 < phase.rank := by cases phase <;> simp [ScanPhase.rank]
      simp only [scanning, UpdPc.rank]
      omega
    · rename_i can rest keys
      obtain ⟨⟨id, s⟩, _, rfl⟩ := Option.map_eq_some_iff.mp taken
      obtain ⟨recv, calls, mapped, scan', phase', next, _, less⟩ :=
        scanStep_scanned (n := n) scan phase id s now socket keys
      refine ⟨recv, calls, Nat.le_of_eq mapped, ?_⟩
      rw [next, mapped, scanning]
      exact less
  · rename_i horizon removing
    obtain rfl := Option.some.inj taken
    refine ⟨rfl, rfl, Nat.le_refl _, ?_⟩
    simp [removing, UpdPc.rank]
  · rename_i can judged rest horizon removing
    obtain rfl := Option.some.inj taken
    refine ⟨rfl, rfl, prune_mapped socket n.peer can, ?_⟩
    simp [removing, UpdPc.rank]

/-- The rank of the calls when one of them has come on. -/
theorem sum_rank_set {calls : List SendPc} {index : Nat} {pc : SendPc}
    (reads : calls[index]? = some pc) (pc' : SendPc) :
    ((calls.set index pc').map SendPc.rank).sum + pc.rank =
      (calls.map SendPc.rank).sum + pc'.rank := by
  induction calls generalizing index with
  | nil => simp at reads
  | cons head rest ih =>
      cases index with
      | zero =>
          simp only [List.getElem?_cons_zero, Option.some.injEq] at reads
          subst reads
          simp only [List.set_cons_zero, List.map_cons, List.sum_cons]
          omega
      | succ index =>
          simp only [List.getElem?_cons_succ] at reads
          have := ih reads
          simp only [List.set_cons_succ, List.map_cons, List.sum_cons]
          omega

theorem Advances.nearer {index : Nat} {draw : DrawnConv} {clock : Clock} {socket : Socket}
    {pc : SendPc} (next : n.Advances index draw clock socket pc n') :
    ∃ pc', n'.recv = n.recv ∧ n'.upd = n.upd ∧ n'.calls = n.calls.set index pc' ∧
      Nearer pc.rank pc'.rank n.mapped n'.mapped := by
  cases next with
  | finds pc peer id data seeks =>
      refine ⟨.holding id data, rfl, rfl, rfl, Or.inl ⟨?_, Nat.le_refl _⟩⟩
      rcases seeks with rfl | rfl | rfl
      · simp [SendPc.rank]
      · simp [SendPc.rank]
      · simp [SendPc.rank]
  | misses peer data =>
      exact ⟨.missing peer data, rfl, rfl, rfl, Or.inl ⟨by simp [SendPc.rank], Nat.le_refl _⟩⟩
  | creates peer data =>
      exact ⟨.creating peer data, rfl, rfl, rfl, Or.inl ⟨by simp [SendPc.rank], Nat.le_refl _⟩⟩
  | inserts peer data =>
      exact ⟨.inserted n.peer.sessions.fresh data, rfl, rfl, rfl,
        Or.inr ⟨by simp [SendPc.rank], Store.length_keys_insertNew_le ..⟩⟩
  | reads id data s =>
      exact ⟨.greeting id s.inner.convId data, rfl, rfl, rfl,
        Or.inl ⟨by simp [SendPc.rank], Nat.le_refl _⟩⟩
  | greets id conv data s =>
      exact ⟨.holding id data, rfl, rfl, rfl, Or.inl ⟨by simp [SendPc.rank], Nat.le_refl _⟩⟩
  | closed id data s =>
      exact ⟨.done, rfl, rfl, rfl, Or.inl ⟨by simp [SendPc.rank], Nat.le_refl _⟩⟩
  | opens id data s =>
      exact ⟨.opened id data, rfl, rfl, rfl, Or.inl ⟨by simp [SendPc.rank], Nat.le_refl _⟩⟩
  | queues id data s =>
      exact ⟨.done, rfl, rfl, rfl, Or.inl ⟨by simp [SendPc.rank], Nat.le_refl _⟩⟩

/-- Whatever a task does of what it has begun, less is left to do. -/
theorem work_falls {label : TaskStep} (own : label.goesOn = true)
    (taken : n.step label = some n') : n'.work < n.work := by
  cases label with
  | arrive => cases own
  | tick => cases own
  | call => cases own
  | disconnect => cases own
  | take => cases own
  | recv clock socket =>
      obtain ⟨upd, calls, nearer⟩ := (recvStep_handles taken).nearer
      have less := rank_upd_le n.upd nearer
      simp only [work, upd, calls]
      omega
  | upd now socket =>
      obtain ⟨recv, calls, _, less⟩ := updStep_nearer taken
      simp only [work, recv, calls]
      omega
  | scan order =>
      simp only [step] at taken
      split at taken
      · rename_i nowMs nowEpoch started
        split at taken
        · rename_i iterates
          obtain rfl := Option.some.inj taken
          have length : order.length = n.peer.sessions.keys.length :=
            (List.isPerm_iff.mp iterates).length_eq
          simp only [work, mapped, started, UpdPc.rank, ScanPhase.rank, List.length_nil, length]
          omega
        · cases taken
      · cases taken
  | advance index draw clock socket =>
      obtain ⟨pc, reads, taken⟩ := Option.bind_eq_some_iff.mp taken
      obtain ⟨pc', recv, upd, calls, nearer⟩ := (callStep_advances taken).nearer
      have less := rank_upd_le n.upd nearer
      have sum := sum_rank_set reads pc'
      simp only [work, recv, upd, calls]
      omega
  | cancel index =>
      simp only [step] at taken
      have done : ∀ {pc : SendPc}, n.calls[index]? = some pc → 0 < pc.rank →
          (n.setCall index .done).work < n.work := by
        intro pc reads positive
        have sum := sum_rank_set reads .done
        have zero : SendPc.done.rank = 0 := rfl
        simp only [work, setCall, mapped]
        omega
      split at taken
      · rename_i reads
        obtain rfl := Option.some.inj taken
        exact done reads (by simp [SendPc.rank])
      · rename_i reads
        obtain rfl := Option.some.inj taken
        exact done reads (by simp [SendPc.rank])
      · cases taken

/-- What the tasks have in hand exists, and a scan visits sessions of the map. -/
structure Grounded (n : Tasks K) : Prop where
  recv : ∀ id ∈ n.recv.held, id < n.peer.sessions.fresh
  calls : ∀ pc ∈ n.calls, ∀ id ∈ pc.held, id < n.peer.sessions.fresh
  scan : ∀ scan phase, n.upd = .scanning scan phase →
    ∀ can ∈ scan.keys, ∃ id, n.peer.sessions.lookup can = some id

/-- The receive task comes to hold only a session that the map names. -/
theorem Moves.held {label : TaskStep} (moves : n.Moves label n') {id : SessionId}
    (held : id ∈ n'.recv.held) :
    id ∈ n.recv.held ∨ ∃ can, n.peer.sessions.lookup can = some id := by
  cases moves with
  | arrives data src clock socket idle n' first =>
      cases first with
      | ignored => exact Or.inl held
      | kcpFound id' payload found =>
          cases held
          exact Or.inr ⟨_, found⟩
      | kcpUnknown => cases held
      | syn => cases held
      | synAck => exact Or.inl held
      | resetFound conv id' found =>
          cases held
          exact Or.inr ⟨_, found⟩
  | handles clock socket n' next =>
      refine Or.inl ?_
      cases next with
      | stamped id' payload s found => rw [found]; exact held
      | fed id' payload s stamped => rw [stamped]; exact held
      | drained id' s fed => rw [fed]; exact held
      | isMatched src conv id' s found => rw [found]; exact held
      | removed src conv id' isMatched => rw [isMatched]; exact held
      | closed src id' s removed => rw [removed]; exact held
      | _ => cases held
  | scans now socket n' next => cases next <;> exact Or.inl held
  | advances index draw clock socket pc reads n' next => cases next <;> exact Or.inl held
  | _ => exact Or.inl held

/-- A call comes to hold only a session that the map names or that it creates. -/
theorem Advances.held {index : Nat} {draw : DrawnConv} {clock : Clock} {socket : Socket}
    {pc : SendPc} (next : n.Advances index draw clock socket pc n') :
    ∃ pc', n'.calls = n.calls.set index pc' ∧ ∀ id ∈ pc'.held,
      id ∈ pc.held ∨ (∃ can, n.peer.sessions.lookup can = some id) ∨
        (id = n.peer.sessions.fresh ∧ n'.peer.sessions.fresh = n.peer.sessions.fresh + 1) := by
  cases next with
  | finds pc peer id' data seeks found =>
      refine ⟨.holding id' data, rfl, ?_⟩
      rintro id ⟨⟩
      exact Or.inr (Or.inl ⟨_, found⟩)
  | misses peer data =>
      refine ⟨.missing peer data, rfl, ?_⟩
      rintro id ⟨⟩
  | creates peer data =>
      refine ⟨.creating peer data, rfl, ?_⟩
      rintro id ⟨⟩
  | inserts peer data =>
      refine ⟨.inserted n.peer.sessions.fresh data, rfl, ?_⟩
      rintro id ⟨⟩
      exact Or.inr (Or.inr ⟨rfl, Store.fresh_insertNew ..⟩)
  | reads id' data s => exact ⟨.greeting id' s.inner.convId data, rfl, fun id held => Or.inl held⟩
  | greets id' conv data s => exact ⟨.holding id' data, rfl, fun id held => Or.inl held⟩
  | closed id' data s =>
      refine ⟨.done, rfl, ?_⟩
      rintro id ⟨⟩
  | opens id' data s => exact ⟨.opened id' data, rfl, fun id held => Or.inl held⟩
  | queues id' data s =>
      refine ⟨.done, rfl, ?_⟩
      rintro id ⟨⟩

theorem step_fresh {label : TaskStep} (taken : n.step label = some n') :
    n.peer.sessions.fresh ≤ n'.peer.sessions.fresh := by
  have evolves := (step_board taken).evolves.fresh
  simpa only [board, Peer.registry, Store.fresh_map] using evolves

/-- Where the calls stand after a step. -/
theorem Grounded.calls_step (grounded : n.Grounded) {label : TaskStep}
    (taken : n.step label = some n') :
    ∀ pc ∈ n'.calls, ∀ id ∈ pc.held, id < n'.peer.sessions.fresh := by
  have grows := step_fresh taken
  have kept : ∀ pc ∈ n.calls, ∀ id ∈ pc.held, id < n'.peer.sessions.fresh :=
    fun pc mem id held => Nat.lt_of_lt_of_le (grounded.calls pc mem id held) grows
  have written : ∀ (index : Nat) (pc' : SendPc), n'.calls = n.calls.set index pc' →
      (∀ id ∈ pc'.held, id < n'.peer.sessions.fresh) →
      ∀ pc ∈ n'.calls, ∀ id ∈ pc.held, id < n'.peer.sessions.fresh := by
    intro index pc' same new pc mem
    rw [same] at mem
    rcases List.mem_or_eq_of_mem_set mem with old | rfl
    · exact kept pc old
    · exact new
  cases step_moves taken with
  | arrives data src clock socket idle n' first => cases first <;> exact kept
  | handles clock socket n' next => cases next <;> exact kept
  | scans now socket n' next => cases next <;> exact kept
  | calls peer data =>
      intro pc mem id held
      rcases List.mem_append.mp mem with old | new
      · exact kept pc old id held
      · cases List.mem_singleton.mp new
        cases held
  | advances index draw clock socket pc reads n' next =>
      obtain ⟨pc', same, holds⟩ := next.held
      refine written index pc' same ?_
      intro id held
      rcases holds id held with old | ⟨can, named⟩ | ⟨rfl, more⟩
      · exact kept pc (List.mem_of_getElem? reads) id old
      · exact Nat.lt_of_lt_of_le (Store.lookup_lt named) grows
      · rw [more]
        exact Nat.lt_succ_self _
  | cancels index =>
      refine written index .done rfl ?_
      rintro id ⟨⟩
  | _ => exact kept

/-- The map does not change under a scan. -/
theorem lookup_scanning {b b' : Board} {actor : Actor} (step : b.Step actor b')
    (scanning : b.upd.isScanning = true) (can : CanonicalAddr) :
    b'.registry.sessions.lookup can = b.registry.sessions.lookup can := by
  cases step with
  | accepts src conv created unlocked => rw [unlocked] at scanning; cases scanning
  | unmaps src conv id removed v isMatched unlocked => rw [unlocked] at scanning; cases scanning
  | prunes can' judged removed rest horizon v removing => rw [removing] at scanning; cases scanning
  | opens peer conv absent unlocked => rw [unlocked] at scanning; cases scanning
  | disconnects peer id v unlocked => rw [unlocked] at scanning; cases scanning
  | _ => rfl

/-- The keys of a scan that goes on or begins. -/
theorem Grounded.scan_step (grounded : n.Grounded) {label : TaskStep}
    (taken : n.step label = some n') : ∀ scan phase, n'.upd = .scanning scan phase →
      ∀ can ∈ scan.keys, ∃ id, n'.peer.sessions.lookup can = some id := by
  intro scan phase scanning'
  have frozen : ∀ {scan₀ : Scan} {phase₀ : ScanPhase}, n.upd = .scanning scan₀ phase₀ →
      scan.keys ⊆ scan₀.keys →
      ∀ can ∈ scan.keys, ∃ id, n'.peer.sessions.lookup can = some id := by
    intro scan₀ phase₀ scanning within can mem
    have locked : n.board.upd.isScanning = true := by simp [board, scanning, UpdPc.isScanning]
    obtain ⟨id, named⟩ := grounded.scan scan₀ phase₀ scanning can (within mem)
    exact ⟨id, (lookup_scanning (step_board taken) locked can).trans named⟩
  have same : n'.upd = n.upd → ∀ can ∈ scan.keys, ∃ id, n'.peer.sessions.lookup can = some id := by
    intro upd
    exact frozen (upd.symm.trans scanning') (List.Subset.refl _)
  cases label with
  | upd now socket =>
      have moved : n.updStep now socket = some n' := taken
      unfold updStep at moved
      split at moved
      · cases moved
      · cases moved
      · rename_i scan₀ phase₀ scanning
        split at moved
        · obtain rfl := Option.some.inj moved
          cases scanning'
        · rename_i can rest keys
          obtain ⟨⟨id, s⟩, _, rfl⟩ := Option.map_eq_some_iff.mp moved
          obtain ⟨_, _, _, scan₁, phase₁, next, suffix, _⟩ :=
            scanStep_scanned (n := n) scan₀ phase₀ id s now socket keys
          obtain ⟨rfl, _⟩ := UpdPc.scanning.inj (next.symm.trans scanning')
          exact frozen scanning suffix.subset
      · obtain rfl := Option.some.inj moved
        cases scanning'
      · obtain rfl := Option.some.inj moved
        cases scanning'
  | scan order =>
      simp only [step] at taken
      split at taken
      · split at taken
        · rename_i iterates
          obtain rfl := Option.some.inj taken
          cases scanning'
          intro can mem
          exact Store.mem_keys_iff.mp ((List.isPerm_iff.mp iterates).mem_iff.mp mem)
        · cases taken
      · cases taken
  | tick nowMs nowEpoch =>
      cases step_moves taken with
      | skips => exact same rfl
      | ticks => cases scanning'
  | recv clock socket => exact same (recvStep_handles taken).nearer.1
  | advance index draw clock socket =>
      obtain ⟨pc, _, taken⟩ := Option.bind_eq_some_iff.mp taken
      obtain ⟨_, _, upd, _⟩ := (callStep_advances taken).nearer
      exact same upd
  | arrive data src clock socket =>
      cases step_moves taken with
      | arrives _ _ _ _ idle n' first => cases first <;> exact same rfl
  | call peer data => cases step_moves taken with | calls => exact same rfl
  | cancel index => cases step_moves taken with | cancels => exact same rfl
  | disconnect peer socket => cases step_moves taken with | disconnects => exact same rfl
  | take => cases step_moves taken with | takes => exact same rfl

theorem Grounded.step (grounded : n.Grounded) {label : TaskStep}
    (taken : n.step label = some n') : n'.Grounded where
  recv := by
    intro id held
    refine Nat.lt_of_lt_of_le ?_ (step_fresh taken)
    rcases (step_moves taken).held held with old | ⟨can, named⟩
    · exact grounded.recv id old
    · exact Store.lookup_lt named
  calls := grounded.calls_step taken
  scan := grounded.scan_step taken

/-- The update task waits for nobody, whatever the clock and the socket say. -/
theorem Grounded.upd_goes_on (grounded : n.Grounded) (busy : n.upd ≠ .idle) (now : UInt64)
    (socket : Socket) :
    ∃ n', n.step (.scan n.peer.sessions.keys) = some n' ∨ n.step (.upd now socket) = some n' := by
  simp only [Tasks.step]
  cases pc : n.upd with
  | idle => exact absurd pc busy
  | started nowMs nowEpoch =>
      have iterates : n.peer.sessions.keys.isPerm n.peer.sessions.keys :=
        List.isPerm_iff.mpr (List.Perm.refl _)
      exact ⟨_, Or.inl (by simp only [iterates, ↓reduceIte]; rfl)⟩
  | scanning scan phase =>
      cases keys : scan.keys with
      | nil =>
          refine ⟨{ n with upd := .removing scan.toRemove scan.horizon }, Or.inr ?_⟩
          simp only [updStep, pc, keys]
      | cons can rest =>
          obtain ⟨id, named⟩ := grounded.scan scan phase pc can (by simp [keys])
          obtain ⟨s, found⟩ := Store.find_of_lookup named
          exact ⟨_, Or.inr (by simp only [updStep, pc, keys, found, Option.map_some]; rfl)⟩
  | removing toRemove horizon =>
      cases toRemove with
      | nil => exact ⟨_, Or.inr (by simp only [updStep, pc]; rfl)⟩
      | cons entry rest => exact ⟨_, Or.inr (by simp only [updStep, pc]; rfl)⟩

/-- The receive task waits for nothing but the map's write lock, whatever the clock and
the socket say. -/
theorem Grounded.recv_goes_on (grounded : n.Grounded) (busy : n.recv ≠ .idle)
    (free : n.writable = true) (clock : Clock) (socket : Socket) :
    ∃ n', n.step (.recv clock socket) = some n' := by
  have present : ∀ id, n.recv.held = some id → ∃ s, n.peer.sessions.object? id = some s :=
    fun id held => Store.object?_of_lt (grounded.recv id held)
  simp only [Tasks.step]
  cases pc : n.recv with
  | idle => exact absurd pc busy
  | kcpUnknown src payload =>
      simp only [recvStep, pc]
      split
      · exact ⟨_, rfl⟩
      · exact ⟨_, rfl⟩
  | kcpFound id payload =>
      obtain ⟨s, object⟩ := present id (by rw [pc]; rfl)
      exact ⟨_, by simp only [recvStep, pc, object, Option.map_some]; rfl⟩
  | kcpStamped id payload =>
      obtain ⟨s, object⟩ := present id (by rw [pc]; rfl)
      exact ⟨_, by simp only [recvStep, pc, object, Option.map_some]; rfl⟩
  | kcpFed id =>
      obtain ⟨s, object⟩ := present id (by rw [pc]; rfl)
      exact ⟨_, by simp only [recvStep, pc, object, Option.map_some]; rfl⟩
  | kcpDrained id msgs =>
      obtain ⟨s, object⟩ := present id (by rw [pc]; rfl)
      exact ⟨_, by simp only [recvStep, pc, object, Option.map_some]; rfl⟩
  | kcpAppended => exact ⟨_, by simp only [recvStep, pc]; rfl⟩
  | synDecided src conv result =>
      simp only [recvStep, pc]
      split
      · exact ⟨_, rfl⟩
      · exact ⟨_, rfl⟩
      · exact ⟨_, rfl⟩
  | synCreating src conv => exact ⟨_, by simp only [recvStep, pc]; rfl⟩
  | synCreated src conv => exact ⟨_, by simp only [recvStep, pc, free, ↓reduceIte]; rfl⟩
  | resetFound src conv id =>
      obtain ⟨s, object⟩ := present id (by rw [pc]; rfl)
      exact ⟨_, by simp only [recvStep, pc, object, Option.map_some]; rfl⟩
  | resetMatched src conv id => exact ⟨_, by simp only [recvStep, pc, free, ↓reduceIte]; rfl⟩
  | resetRemoved src id =>
      obtain ⟨s, object⟩ := present id (by rw [pc]; rfl)
      exact ⟨_, by simp only [recvStep, pc, object, Option.map_some]; rfl⟩
  | resetClosed src id => exact ⟨_, by simp only [recvStep, pc]; rfl⟩

/-- Nor does a call wait for anything else. -/
theorem Grounded.call_goes_on (grounded : n.Grounded) {index : Nat} {pc : SendPc}
    (reads : n.calls[index]? = some pc) (busy : pc ≠ .done) (free : n.writable = true)
    (draw : DrawnConv) (clock : Clock) (socket : Socket) :
    ∃ n', n.step (.advance index draw clock socket) = some n' := by
  have present : ∀ id, pc.held = some id → ∃ s, n.peer.sessions.object? id = some s :=
    fun id held =>
      Store.object?_of_lt (grounded.calls pc (List.mem_of_getElem? reads) id held)
  simp only [Tasks.step, reads, Option.bind_some]
  cases pc with
  | called peer data =>
      simp only [callStep]
      split
      · exact ⟨_, rfl⟩
      · exact ⟨_, rfl⟩
  | missing peer data =>
      simp only [callStep]
      split
      · exact ⟨_, rfl⟩
      · exact ⟨_, rfl⟩
  | creating peer data =>
      simp only [callStep, free, ↓reduceIte]
      split
      · exact ⟨_, rfl⟩
      · exact ⟨_, rfl⟩
  | inserted id data =>
      obtain ⟨s, object⟩ := present id rfl
      exact ⟨_, by simp only [callStep, object, Option.map_some]; rfl⟩
  | greeting id conv data =>
      obtain ⟨s, object⟩ := present id rfl
      exact ⟨_, by simp only [callStep, object, Option.map_some]; rfl⟩
  | holding id data =>
      obtain ⟨s, object⟩ := present id rfl
      exact ⟨_, by simp only [callStep, object, Option.map_some]; rfl⟩
  | opened id data =>
      obtain ⟨s, object⟩ := present id rfl
      exact ⟨_, by simp only [callStep, object, Option.map_some]; rfl⟩
  | done => exact absurd rfl busy

/-- Whoever has something left to do can do it, whatever the clock and the socket say,
unless it needs the map's write lock while the scan holds the map. -/
structure WaitsForScan (n : Tasks K) : Prop where
  upd : n.upd = .idle ∨ ∀ now socket, ∃ n', n.step (.scan n.peer.sessions.keys) = some n' ∨
    n.step (.upd now socket) = some n'
  recv : n.recv = .idle ∨ n.writable = false ∨
    ∀ clock socket, ∃ n', n.step (.recv clock socket) = some n'
  calls : ∀ index pc, n.calls[index]? = some pc → pc = .done ∨ n.writable = false ∨
    ∀ draw clock socket, ∃ n', n.step (.advance index draw clock socket) = some n'

theorem Grounded.waitsForScan (grounded : n.Grounded) : n.WaitsForScan where
  upd := by
    by_cases busy : n.upd = .idle
    · exact Or.inl busy
    · exact Or.inr (grounded.upd_goes_on busy)
  recv := by
    by_cases busy : n.recv = .idle
    · exact Or.inl busy
    · cases free : n.writable with
      | false => exact Or.inr (Or.inl rfl)
      | true => exact Or.inr (Or.inr (grounded.recv_goes_on busy free))
  calls := by
    intro index pc reads
    by_cases busy : pc = .done
    · exact Or.inl busy
    · cases free : n.writable with
      | false => exact Or.inr (Or.inl rfl)
      | true => exact Or.inr (Or.inr (grounded.call_goes_on reads busy free))

/-- Somebody can go on unless all are at rest. -/
theorem Grounded.progress (grounded : n.Grounded) :
    n.AtRest ∨ ∃ label n', label.goesOn = true ∧ n.step label = some n' := by
  by_cases upd : n.upd = .idle
  · have free : n.writable = true := by simp only [writable, upd]
    have answers : Socket := ⟨.error ⟨.other, ""⟩, fun _ _ => .ok 0⟩
    by_cases recv : n.recv = .idle
    · by_cases calls : ∀ pc ∈ n.calls, pc = .done
      · exact Or.inl ⟨recv, upd, calls⟩
      · simp only [not_forall] at calls
        obtain ⟨pc, mem, busy⟩ := calls
        obtain ⟨index, reads⟩ := List.getElem?_of_mem mem
        obtain ⟨n', taken⟩ :=
          grounded.call_goes_on reads busy free ⟨1, by decide⟩ ⟨0, 0⟩ answers
        exact Or.inr ⟨_, n', rfl, taken⟩
    · obtain ⟨n', taken⟩ := grounded.recv_goes_on recv free ⟨0, 0⟩ answers
      exact Or.inr ⟨_, n', rfl, taken⟩
  · obtain ⟨n', taken | taken⟩ :=
      grounded.upd_goes_on upd 0 ⟨.error ⟨.other, ""⟩, fun _ _ => .ok 0⟩
    · exact Or.inr ⟨_, n', rfl, taken⟩
    · exact Or.inr ⟨_, n', rfl, taken⟩

end Tasks

section Run

variable {K : Type} [Kcp K] {incarnation : UInt64} {config : KcpConfig}

theorem tasksMachine_grounded {guard : Tasks K → TaskStep → Prop} {n : Tasks K}
    (reached : (tasksMachine K incarnation config).Reach guard n) : n.Grounded := by
  refine reached.invariant (P := Tasks.Grounded) ?_ ?_
  · refine ⟨?_, ?_, ?_⟩
    · rintro id ⟨⟩
    · rintro pc mem
      cases mem
    · rintro scan phase ⟨⟩
  · intro before label after grounded _ taken
    exact grounded.step taken

end Run

/-- From every state that an interleaving can reach, the tasks and calls come to rest when
nothing new is asked of them: a run that only goes on with what is begun has at most
`work` steps, whatever the scheduler, the clock and the socket do, and it can be
continued until nothing is left to do; on the way nobody waits but for a scan that can go
on. -/
theorem tasks_come_to_rest (K : Type) [Kcp K] (incarnation : UInt64) (config : KcpConfig)
    (n n' : Tasks K) (reached : (tasksMachine K incarnation config).Reach Machine.always n)
    (labels : List TaskStep)
    (ran : (tasksMachine K incarnation config).exec (fun _ label => label.goesOn = true) n labels =
      some n') :
    labels.length + n'.work ≤ n.work ∧ n'.WaitsForScan ∧
      (n'.AtRest ∨ ∃ label n'', label.goesOn = true ∧ n'.step label = some n'') := by
  have falls : ∀ (before : Tasks K) (label : TaskStep) (after : Tasks K), before.Grounded →
      label.goesOn = true → before.step label = some after →
      after.Grounded ∧ after.work < before.work :=
    fun _ _ _ grounded own taken => ⟨grounded.step taken, Tasks.work_falls own taken⟩
  obtain ⟨grounded, bound⟩ :=
    Machine.exec_length_le falls labels (tasksMachine_grounded reached) ran
  exact ⟨bound, grounded.waitsForScan, grounded.progress⟩

/-- A SYN is being handled when a call to its source begins; eight steps later both are
done. -/
theorem tasks_come_to_rest_accepting :
    ∃ n n' : Tasks SampleKcp, (tasksMachine SampleKcp 1 .default).Reach Machine.always n ∧
      8 + n'.work ≤ n.work ∧ n'.WaitsForScan := by
  have run : ((tasksMachine SampleKcp 1 .default).exec Machine.always
      (tasksMachine SampleKcp 1 .default).start
      [.arriveSample (encodeControl .syn 20), .call .remote [7]]).any
      (fun n => ((tasksMachine SampleKcp 1 .default).exec
        (fun _ label => label.goesOn = true) n
        [.recvSample, .advanceSample, .recvSample, .advanceSample, .recvSample, .advanceSample,
          .advanceSample, .advanceSample]).isSome) = true := by
    decide +kernel
  obtain ⟨n, reached, checked⟩ := Machine.Reach.exec_any _ run
  obtain ⟨n', ran⟩ := Option.isSome_iff_exists.mp checked
  obtain ⟨bound, waits, _⟩ := tasks_come_to_rest SampleKcp 1 .default n n' reached _ ran
  exact ⟨n, n', reached, bound, waits⟩

end KcpPeer
