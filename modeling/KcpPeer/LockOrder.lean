import KcpPeer.Lib.Locks
import KcpPeer.Transport

set_option autoImplicit false

namespace KcpPeer

/-- The locks of one peer: the session map, the `inner` of each session, and
`pending_data`. -/
inductive PeerLock where
  | map
  | inner (id : SessionId)
  | pending
  deriving DecidableEq, Repr

def PeerLock.level : PeerLock → Nat
  | .map => 0
  | .inner _ => 1
  | .pending => 2

/-- Code of the peer as far as its locks go; a choice stands for a branch of the
source whose condition is left open, a picked session for one found in the map. -/
abbrev PeerCode := LockCode PeerLock SessionId

namespace PeerCode

def readMap (body : PeerCode) : PeerCode := .hold .map .shared body

def writeMap (body : PeerCode) : PeerCode := .hold .map .exclusive body

def lockInner (id : SessionId) : PeerCode := .hold (.inner id) .exclusive .skip

def lockPending : PeerCode := .hold .pending .exclusive .skip

def maybe (body : PeerCode) : PeerCode := .choice .skip body

/-- A closed session is refused before its mutex is taken. -/
def sendData (id : SessionId) : PeerCode := maybe (lockInner id)

def sendSyn (id : SessionId) : PeerCode := .seq (lockInner id) .await

/-- The guard of the first `if let` lives until the end of its block, that of the
second check until the end of the block around it. -/
def initiateSession (id : SessionId) : PeerCode :=
  .choice (readMap .skip)
    (.seq (readMap .skip)
      (.choice (writeMap .skip) (.seq (writeMap .skip) (sendSyn id))))

def send : PeerCode :=
  .seq (readMap .skip)
    (.pick fun id => .choice (sendData id) (.seq (initiateSession id) (sendData id)))

def recv : PeerCode := .seq (.star (.seq lockPending .await)) (maybe lockPending)

def peers : PeerCode := readMap .skip

def stats : PeerCode := readMap (maybe (.pick lockInner))

/-- The write guard is a temporary of the scrutinee of `if let`, and so is held
while the session's mutex is taken in the body. -/
def disconnect : PeerCode := writeMap (maybe (.pick lockInner))

def shutdown : PeerCode :=
  .seq (readMap .skip)
    (.seq (.star (.pick lockInner)) (.seq (maybe .await) (maybe .await)))

def handleKcpData : PeerCode :=
  .seq (readMap .skip)
    (maybe (.pick fun id =>
      .seq (lockInner id) (maybe (.seq (lockInner id) (maybe lockPending)))))

def handleSyn : PeerCode :=
  maybe (.seq (readMap (maybe (.pick lockInner)))
    (.seq (maybe .await) (maybe (.seq .await (writeMap .skip)))))

def handleSynAck : PeerCode := maybe (readMap (maybe (.pick lockInner)))

def handleReset : PeerCode :=
  maybe (.seq (readMap .skip)
    (maybe (.pick fun id => .seq (lockInner id) (maybe (writeMap .skip)))))

def handleIncoming : PeerCode :=
  maybe (.choice (.choice handleKcpData handleSyn) (.choice handleSynAck handleReset))

def receiveTask : PeerCode := .seq (.star (.seq .await (maybe handleIncoming))) .await

/-- `update` and `maybe_retry_syn` take the session's mutex one after the other. -/
def scanSession (id : SessionId) : PeerCode := maybe (.seq (lockInner id) (maybe (lockInner id)))

/-- The check for an empty map drops its guard before the block; the scan holds the
map for all sessions; each removal holds it through the body of its `if let`. -/
def updateBody : PeerCode :=
  .seq (readMap .skip)
    (maybe (.seq (readMap (.star (.pick scanSession)))
      (.star (writeMap (maybe (.pick lockInner))))))

def updateTask : PeerCode := .seq (.star (.seq .await updateBody)) .await

end PeerCode

/-- What runs concurrently on one peer. -/
inductive Operation where
  | send
  | recv
  | peers
  | stats
  | disconnect
  | shutdown
  | receiveTask
  | updateTask
  deriving DecidableEq, Repr

def Operation.code : Operation → PeerCode
  | .send => PeerCode.send
  | .recv => PeerCode.recv
  | .peers => PeerCode.peers
  | .stats => PeerCode.stats
  | .disconnect => PeerCode.disconnect
  | .shutdown => PeerCode.shutdown
  | .receiveTask => PeerCode.receiveTask
  | .updateTask => PeerCode.updateTask

section Ordered

open PeerCode LockCode

/-- A session's mutex is taken with nothing held, or with the map. -/
theorem lockInner_ordered (id : SessionId) {held : List (PeerLock × LockMode)}
    (below : ∀ guard ∈ held, guard.1 = .map) : Ordered PeerLock.level held (lockInner id) := by
  refine ⟨?_, trivial⟩
  intro guard mem
  rw [below guard mem]
  exact Nat.zero_lt_one

theorem handleIncoming_ordered : Ordered PeerLock.level [] handleIncoming := by
  simp [handleIncoming, handleKcpData, handleSyn, handleSynAck, handleReset, maybe, readMap,
    writeMap, lockPending, lockInner_ordered, Ordered]

theorem updateBody_ordered : Ordered PeerLock.level [] updateBody := by
  simp [updateBody, scanSession, maybe, readMap, writeMap, lockInner_ordered, Ordered]

/-- Every operation takes the map before a session's mutex, never two mutexes at
once, and holds nothing at an await. -/
theorem Operation.ordered (op : Operation) : Ordered PeerLock.level [] op.code := by
  cases op with
  | send =>
      simp [code, PeerCode.send, initiateSession, sendSyn, sendData, maybe, readMap, writeMap,
        lockInner_ordered, Ordered]
  | recv => simp [code, PeerCode.recv, lockPending, maybe, Ordered]
  | peers => simp [code, PeerCode.peers, readMap, Ordered]
  | stats => simp [code, PeerCode.stats, maybe, readMap, lockInner_ordered, Ordered]
  | disconnect => simp [code, PeerCode.disconnect, maybe, writeMap, lockInner_ordered, Ordered]
  | shutdown => simp [code, PeerCode.shutdown, maybe, readMap, lockInner_ordered, Ordered]
  | receiveTask =>
      simp [code, PeerCode.receiveTask, maybe, handleIncoming_ordered, Ordered]
  | updateTask => simp [code, PeerCode.updateTask, updateBody_ordered, Ordered]

end Ordered

/-- A thread that starts runs an operation of the peer. -/
def RunsOperation (label : LockStep PeerLock) : Prop :=
  ∀ program, label = .spawn program → ∃ op : Operation, op.code.Trace program

/-- Any number of operations, in any interleaving: no set of them in which each
waits for a lock that another of the set holds or has queued for before it; no lock
is held at an await; and some operation can go on until all have ended. -/
theorem no_lock_deadlock (s : LockState PeerLock)
    (reached : (lockMachine PeerLock).Reach (fun _ label => RunsOperation label) s) :
    (∀ S : Set Nat, S.Nonempty → ¬ ∀ i ∈ S, ∃ j ∈ S, s.Blocks j i) ∧
    (∀ t ∈ s.threads, ∀ rest, t.rest = .await :: rest → t.held = []) ∧
    ((∃ t ∈ s.threads, t.rest ≠ []) →
      ∃ label s', (∀ program, label ≠ .spawn program) ∧ s.step label = some s') := by
  have sound : s.Sound PeerLock.level := by
    refine LockState.Sound.of_reach ?_ reached
    intro _ program runs
    obtain ⟨op, ran⟩ := runs program rfl
    have disciplined := ran.disciplined op.ordered
      (show LockInstr.Disciplined PeerLock.level [] [] from rfl)
    rwa [List.append_nil] at disciplined
  exact ⟨sound.no_deadlock, fun t mem rest awaits => sound.await_free mem awaits, sound.progress⟩

/-- `stats()` and `disconnect()` of a peer that has session 0, in the branch that
takes its mutex. -/
def PeerCode.withInner (mode : LockMode) : List (LockInstr PeerLock) :=
  [.acquire .map mode, .acquire (.inner 0) .exclusive, .release (.inner 0), .release .map]

/-- `stats()` reads the map, `disconnect()` waits to write it, and a `peers()` that
comes later waits behind it. -/
theorem no_lock_deadlock_queued :
    ∃ s : LockState PeerLock, s.Blocks 0 1 ∧ s.Blocks 1 2 ∧
      ∀ S : Set Nat, S.Nonempty → ¬ ∀ i ∈ S, ∃ j ∈ S, s.Blocks j i := by
  have inner : LockCode.Trace (.pick PeerCode.lockInner)
      [.acquire (.inner 0) .exclusive, .release (.inner 0)] :=
    .pick 0 (.hold (PeerLock.inner 0) .exclusive .skip)
  have starts : ∀ label ∈ [LockStep.spawn (PeerCode.withInner .shared),
      .spawn (PeerCode.withInner .exclusive), .spawn [.acquire .map .shared, .release .map],
      .request 0, .grant 0, .request 1, .request 2], RunsOperation label := by
    intro label mem program spawned
    subst spawned
    simp only [List.mem_cons, LockStep.spawn.injEq, reduceCtorEq, List.not_mem_nil, or_false] at mem
    rcases mem with rfl | rfl | rfl
    · exact ⟨.stats, .hold PeerLock.map .shared (.right .skip inner)⟩
    · exact ⟨.disconnect, .hold PeerLock.map .exclusive (.right .skip inner)⟩
    · exact ⟨.peers, .hold PeerLock.map .shared .skip⟩
  have run : ((lockMachine PeerLock).exec Machine.always (lockMachine PeerLock).start
      [.spawn (PeerCode.withInner .shared), .spawn (PeerCode.withInner .exclusive),
        .spawn [.acquire .map .shared, .release .map], .request 0, .grant 0, .request 1,
        .request 2]).any (fun s => decide (s.threads =
          [⟨(PeerCode.withInner .shared).tail, [(.map, .shared)], none⟩,
            ⟨PeerCode.withInner .exclusive, [], some 1⟩,
            ⟨[.acquire .map .shared, .release .map], [], some 2⟩])) = true := by
    decide +kernel
  obtain ⟨s, reached, checked⟩ := Machine.Reach.exec_ensured (fun _ label => RunsOperation label) _
    run fun label mem _ _ => starts label mem
  have threads := of_decide_eq_true checked
  refine ⟨s, ?_, ?_, (no_lock_deadlock s reached).1⟩
  · refine ⟨_, _, .map, .exclusive, 1, by rw [threads]; rfl, by rw [threads]; rfl,
      ⟨⟨_, rfl⟩, rfl⟩, Or.inl ⟨.shared, List.mem_cons_self⟩⟩
  · exact ⟨_, _, .map, .shared, 2, by rw [threads]; rfl, by rw [threads]; rfl, ⟨⟨_, rfl⟩, rfl⟩,
      Or.inr ⟨.exclusive, 1, ⟨⟨_, rfl⟩, rfl⟩, by decide⟩⟩

end KcpPeer
