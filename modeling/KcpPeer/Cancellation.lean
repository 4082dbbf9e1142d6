import KcpPeer.FirstSends

set_option autoImplicit false

namespace KcpPeer

/-- The tasks of a peer with a history of its `send()` calls: the payload that each was
given, and which calls were dropped at their await, had their payload taken by the
session's instance, or were turned down. -/
structure SendCalls (K : Type) where
  tasks : Tasks K
  payloads : List Bytes
  dropped : List Nat
  queued : List Nat
  refused : List Nat

/-- What the session of a call says to its payload, if the call's next step offers it. -/
def Tasks.answer {K : Type} [Kcp K] (n : Tasks K) (index : Nat) : Option Bool :=
  match n.calls[index]? with
  | some (.holding id _) =>
      (n.peer.sessions.object? id).bind fun s => if s.closed then some false else none
  | some (.opened id data) =>
      (n.peer.sessions.object? id).map fun s =>
        !Kcp.isDeadLink s.inner.kcp && (Kcp.send s.inner.kcp data).2.isOk
  | _ => none

namespace SendCalls

variable {K : Type} [Kcp K]

/-- The history after a step of one call. -/
def record (c : SendCalls K) (index : Nat) (tasks : Tasks K) : SendCalls K :=
  match c.tasks.answer index with
  | some true => { c with tasks, queued := c.queued ++ [index] }
  | some false => { c with tasks, refused := c.refused ++ [index] }
  | none => { c with tasks }

def step (c : SendCalls K) (label : TaskStep) : Option (SendCalls K) :=
  (c.tasks.step label).map fun tasks =>
    match label with
    | .call _ data => { c with tasks, payloads := c.payloads ++ [data] }
    | .cancel index => { c with tasks, dropped := c.dropped ++ [index] }
    | .advance index _ _ _ => c.record index tasks
    | _ => { c with tasks }

/-- The run consists of `send()` calls to one address, which may be dropped at the
await in `initiate_session`. -/
def allows (can : CanonicalAddr) (c : SendCalls K) : TaskStep → Bool
  | .cancel index =>
      match c.tasks.calls[index]? with
      | some (.greeting ..) => true
      | _ => false
  | label => label.sendsTo can

end SendCalls

/-- Every interleaving of `send()` calls that may be dropped. -/
def sendCalls {K : Type} [Kcp K] (n₀ : Tasks K) : Machine (SendCalls K) TaskStep where
  start := ⟨n₀, [], [], [], []⟩
  step := SendCalls.step

namespace SendCalls

variable {K : Type} [Kcp K]

/-- A call completes if it is not dropped. -/
structure AllOrNothing (q : SendQueue K) (n₀ : Tasks K) (c : SendCalls K) : Prop where
  nothing : (∀ i < c.payloads.length, i ∈ c.dropped) →
    ∀ can, c.tasks.peer.sessions.lookup can = n₀.peer.sessions.lookup can
  all : (∃ i < c.payloads.length, i ∉ c.dropped) →
    ∀ can id s, c.tasks.peer.sessions.find can = some (id, s) → n₀.peer.sessions.fresh ≤ id →
      ∃ i data, i ∉ c.dropped ∧ c.payloads[i]? = some data ∧ data ∈ q.queued s.inner.kcp
  dropped : ∀ i ∈ c.dropped, i ∉ c.queued

/-- Where a call may stand at an address that had a session before. -/
inductive Joins (can : CanonicalAddr) : SendPc → Prop
  | called (peer : SocketAddr) (own : canonicalize peer = can) (data : Bytes) :
      Joins can (.called peer data)
  | holding (id : SessionId) (data : Bytes) : Joins can (.holding id data)
  | opened (id : SessionId) (data : Bytes) : Joins can (.opened id data)
  | done : Joins can .done

/-- How the calls that are done have ended. -/
structure Ended (c : SendCalls K) : Prop where
  lengths : c.payloads.length = c.tasks.calls.length
  ended : ∀ i, c.tasks.calls[i]? = some .done → i ∈ c.dropped ∨ i ∈ c.queued ∨ i ∈ c.refused
  done : ∀ i, i ∈ c.dropped ∨ i ∈ c.queued ∨ i ∈ c.refused → c.tasks.calls[i]? = some .done
  disjoint : ∀ i ∈ c.queued, i ∉ c.dropped ∧ i ∉ c.refused

/-- The address had a session: the map stays as it is, and no call comes to an await. -/
structure Joined (can : CanonicalAddr) (p₀ : Peer K) (c : SendCalls K) : Prop where
  map : ∀ other, c.tasks.peer.sessions.lookup other = p₀.sessions.lookup other
  fresh : c.tasks.peer.sessions.fresh = p₀.sessions.fresh
  undropped : c.dropped = []
  calls : ∀ pc ∈ c.tasks.calls, Joins can pc

/-- The address had no session: as long as none is inserted every call is on its way,
and then the one session holds the payloads that its instance has taken. -/
def Created (q : SendQueue K) (can : CanonicalAddr) (p₀ : Peer K) (c : SendCalls K) : Prop :=
  (c.tasks.peer = p₀ ∧ c.queued = [] ∧
    ∀ (i : Nat) (pc : SendPc) (data : Bytes), c.tasks.calls[i]? = some pc →
      c.payloads[i]? = some data → pc.Stands can none data) ∨
  c.payloads ≠ [] ∧
  ∃ s, FirstSends.Opened q can p₀ c.tasks.peer s (c.queued.map (c.payloads[·]?)) ∧
    ∀ (i : Nat) (pc : SendPc) (data : Bytes), c.tasks.calls[i]? = some pc →
      c.payloads[i]? = some data →
      pc.Stands can (some (p₀.sessions.fresh, s.inner.convId)) data

variable {q : SendQueue K} {can : CanonicalAddr} {p₀ : Peer K} {c c' : SendCalls K} {index : Nat}
  {pc pc' : SendPc}

omit [Kcp K] in
/-- A call goes on. -/
theorem Ended.move (ok : Ended c) (reads : c.tasks.calls[index]? = some pc) (running : pc ≠ .done)
    (goesOn : pc' ≠ .done) {tasks : Tasks K} (calls : tasks.calls = c.tasks.calls.set index pc') :
    Ended { c with tasks } := by
  refine ⟨?_, ?_, ?_, ok.disjoint⟩
  · simpa only [calls, List.length_set] using ok.lengths
  · intro i done
    rw [calls] at done
    rcases FirstSends.set_cases done with ⟨_, same⟩ | ⟨_, before⟩
    · exact absurd same.symm goesOn
    · exact ok.ended i before
  · intro i finished
    have done := ok.done i finished
    have other : index ≠ i := by
      rintro rfl
      rw [reads, Option.some.injEq] at done
      exact running done
    exact (congrArg (·[i]?) calls).trans ((List.getElem?_set_ne other).trans done)

omit [Kcp K] in
/-- A call is done, in one of the three ways. -/
theorem Ended.finish (ok : Ended c) (reads : c.tasks.calls[index]? = some pc)
    (running : pc ≠ .done) (calls : c'.tasks.calls = c.tasks.calls.set index .done)
    (payloads : c'.payloads = c.payloads)
    (fate : (c'.dropped = c.dropped ++ [index] ∧ c'.queued = c.queued ∧ c'.refused = c.refused) ∨
      (c'.dropped = c.dropped ∧ c'.queued = c.queued ++ [index] ∧ c'.refused = c.refused) ∨
      (c'.dropped = c.dropped ∧ c'.queued = c.queued ∧ c'.refused = c.refused ++ [index])) :
    Ended c' := by
  have below := (List.getElem?_eq_some_iff.mp reads).1
  have fresh : ¬ (index ∈ c.dropped ∨ index ∈ c.queued ∨ index ∈ c.refused) := by
    intro finished
    have done := ok.done index finished
    rw [reads, Option.some.injEq] at done
    exact running done
  have old : ∀ i : Nat, c.tasks.calls[i]? = some SendPc.done →
      c'.tasks.calls[i]? = some SendPc.done := by
    intro i done
    rw [calls]
    by_cases same : index = i
    · subst same
      exact List.getElem?_set_self below
    · exact (List.getElem?_set_ne same).trans done
  have new : c'.tasks.calls[index]? = some SendPc.done := by
    rw [calls]
    exact List.getElem?_set_self below
  have before : ∀ i : Nat, c'.tasks.calls[i]? = some SendPc.done →
      i = index ∨ i ∈ c.dropped ∨ i ∈ c.queued ∨ i ∈ c.refused := by
    intro i done
    rw [calls] at done
    rcases FirstSends.set_cases done with ⟨same, _⟩ | ⟨_, before⟩
    · exact Or.inl same
    · exact Or.inr (ok.ended i before)
  have lengths : c'.payloads.length = c'.tasks.calls.length := by
    rw [payloads, calls, List.length_set, ok.lengths]
  rcases fate with ⟨dropped, queued, refused⟩ | ⟨dropped, queued, refused⟩ |
    ⟨dropped, queued, refused⟩
  all_goals
    refine ⟨lengths, ?_, ?_, ?_⟩
    · intro i done
      have cases := before i done
      grind
    · intro i finished
      have earlier : i = index ∨ i ∈ c.dropped ∨ i ∈ c.queued ∨ i ∈ c.refused := by grind
      rcases earlier with rfl | earlier
      · exact new
      · exact old i (ok.done i earlier)
    · intro i mem
      have apart := ok.disjoint i
      grind

omit [Kcp K] in
theorem Ended.call (ok : Ended c) (peer : SocketAddr) (data : Bytes) :
    Ended { c with
      tasks := { c.tasks with calls := c.tasks.calls ++ [.called peer data] }
      payloads := c.payloads ++ [data] } := by
  refine ⟨?_, ?_, ?_, ok.disjoint⟩
  · simp only [List.length_append, List.length_singleton, ok.lengths]
  · intro i done
    rcases FirstSends.append_cases done with ⟨_, old⟩ | ⟨_, new⟩
    · exact ok.ended i old
    · cases new
  · intro i finished
    have done := ok.done i finished
    exact (List.getElem?_append_left (List.getElem?_eq_some_iff.mp done).1).trans done

/-- What `Advances` says about the answer that a call gets. -/
theorem Ended.advance (ok : Ended c) {draw : DrawnConv} {clock : Clock} {socket : Socket}
    {tasks : Tasks K} (reads : c.tasks.calls[index]? = some pc)
    (taken : c.tasks.callStep index draw clock socket pc = some tasks) :
    Ended (c.record index tasks) := by
  unfold record Tasks.answer
  rw [reads]
  cases Tasks.callStep_advances taken with
  | finds _ peer id data seeks =>
      rcases seeks with rfl | rfl | rfl
      all_goals exact ok.move reads (by simp) (by simp) rfl
  | misses => exact ok.move reads (by simp) (by simp) rfl
  | creates => exact ok.move reads (by simp) (by simp) rfl
  | inserts => exact ok.move reads (by simp) (by simp) rfl
  | reads => exact ok.move reads (by simp) (by simp) rfl
  | greets => exact ok.move reads (by simp) (by simp) rfl
  | closed id data s present isClosed =>
      simp only [present, isClosed, Option.bind_some, ↓reduceIte]
      exact ok.finish reads (by simp) rfl rfl (Or.inr (Or.inr ⟨rfl, rfl, rfl⟩))
  | opens id data s present isOpen =>
      simp only [present, isOpen, Option.bind_some, Bool.false_eq_true, ↓reduceIte]
      exact ok.move reads (by simp) (by simp) rfl
  | queues id data s present =>
      simp only [present, Option.map_some]
      split
      · exact ok.finish reads (by simp) rfl rfl (Or.inr (Or.inl ⟨rfl, rfl, rfl⟩))
      · exact ok.finish reads (by simp) rfl rfl (Or.inr (Or.inr ⟨rfl, rfl, rfl⟩))
      · rename_i impossible
        cases impossible

theorem Ended.step (ok : Ended c) {label : TaskStep} (allowed : c.allows can label = true)
    (stepped : c.step label = some c') : Ended c' := by
  obtain ⟨tasks, taken, rfl⟩ := Option.map_eq_some_iff.mp stepped
  cases label with
  | call peer data =>
      obtain rfl := Option.some.inj taken
      exact ok.call peer data
  | advance index draw clock socket =>
      obtain ⟨pc, reads, taken⟩ := Option.bind_eq_some_iff.mp taken
      exact ok.advance reads taken
  | cancel index =>
      simp only [Tasks.step] at taken
      simp only [allows] at allowed
      split at allowed
      · rename_i reads
        rw [reads] at taken
        cases taken
        exact ok.finish reads (by simp) rfl rfl (Or.inl ⟨rfl, rfl, rfl⟩)
      · cases allowed
  | _ => cases allowed

theorem record_keeps (c : SendCalls K) (index : Nat) (tasks : Tasks K) :
    (c.record index tasks).tasks = tasks ∧ (c.record index tasks).payloads = c.payloads ∧
      (c.record index tasks).dropped = c.dropped := by
  unfold record
  split
  all_goals exact ⟨rfl, rfl, rfl⟩

omit [Kcp K] in
theorem joins_set {calls : List SendPc} (each : ∀ pc ∈ calls, Joins can pc)
    (joins : Joins can pc') : ∀ pc ∈ calls.set index pc', Joins can pc := by
  intro pc mem
  rcases List.mem_or_eq_of_mem_set mem with old | rfl
  · exact each pc old
  · exact joins

theorem Joined.advance (ok : Joined can p₀ c) {id₀ : SessionId}
    (held : p₀.sessions.lookup can = some id₀) {draw : DrawnConv} {clock : Clock}
    {socket : Socket} {tasks : Tasks K} (reads : c.tasks.calls[index]? = some pc)
    (taken : c.tasks.callStep index draw clock socket pc = some tasks) :
    Joined can p₀ (c.record index tasks) := by
  have joins := ok.calls pc (List.mem_of_getElem? reads)
  obtain ⟨sameTasks, _, sameDropped⟩ := c.record_keeps index tasks
  suffices moved :
      (∀ other, tasks.peer.sessions.lookup other = c.tasks.peer.sessions.lookup other) ∧
      tasks.peer.sessions.fresh = c.tasks.peer.sessions.fresh ∧
      ∀ pc ∈ tasks.calls, Joins can pc by
    obtain ⟨map, fresh, calls⟩ := moved
    refine ⟨fun other => ?_, ?_, sameDropped.trans ok.undropped, ?_⟩
    · rw [sameTasks, map, ok.map]
    · rw [sameTasks, fresh, ok.fresh]
    · rw [sameTasks]
      exact calls
  cases Tasks.callStep_advances taken with
  | finds _ peer id data => exact ⟨fun _ => rfl, rfl, joins_set ok.calls (.holding id data)⟩
  | misses peer data absent =>
      cases joins with
      | called _ own =>
          rw [ok.map, own, held] at absent
          cases absent
  | creates => cases joins
  | inserts => cases joins
  | reads => cases joins
  | greets => cases joins
  | closed => exact ⟨fun _ => rfl, rfl, joins_set ok.calls .done⟩
  | opens id data => exact ⟨fun _ => rfl, rfl, joins_set ok.calls (.opened id data)⟩
  | queues => exact ⟨fun _ => rfl, Store.fresh_modify .., joins_set ok.calls .done⟩

theorem Joined.step (ok : Joined can p₀ c) {id₀ : SessionId}
    (held : p₀.sessions.lookup can = some id₀) {label : TaskStep}
    (allowed : c.allows can label = true) (stepped : c.step label = some c') :
    Joined can p₀ c' := by
  obtain ⟨tasks, taken, rfl⟩ := Option.map_eq_some_iff.mp stepped
  cases label with
  | call peer data =>
      obtain rfl := Option.some.inj taken
      refine ⟨ok.map, ok.fresh, ok.undropped, ?_⟩
      intro pc mem
      rcases List.mem_append.mp mem with old | new
      · exact ok.calls pc old
      · obtain rfl := List.mem_singleton.mp new
        exact .called peer (of_decide_eq_true allowed) data
  | advance index draw clock socket =>
      obtain ⟨pc, reads, taken⟩ := Option.bind_eq_some_iff.mp taken
      exact ok.advance held reads taken
  | cancel index =>
      -- no call is at an await
      simp only [allows] at allowed
      split at allowed
      · rename_i reads
        cases ok.calls _ (List.mem_of_getElem? reads)
      · cases allowed
  | _ => cases allowed

/-- A call goes on without touching the peer. -/
theorem Created.move (ok : Created q can p₀ c) (reads : c.tasks.calls[index]? = some pc)
    (peer : c'.tasks.peer = c.tasks.peer)
    (calls : c'.tasks.calls = c.tasks.calls.set index pc') (payloads : c'.payloads = c.payloads)
    (queued : c'.queued = c.queued)
    (stands : ∀ held data, FirstSends.Held can p₀ c.tasks.peer held → pc.Stands can held data →
      pc'.Stands can held data) : Created q can p₀ c' := by
  unfold Created
  rw [peer, calls, payloads, queued]
  rcases ok with ⟨unchanged, none, early⟩ | ⟨called, s, opened, late⟩
  · refine Or.inl ⟨unchanged, none, FirstSends.stands_set early ?_⟩
    intro data given
    exact stands _ _ (.absent unchanged) (early index pc data reads given)
  · refine Or.inr ⟨called, s, opened, FirstSends.stands_set late ?_⟩
    intro data given
    exact stands _ _ (.present s opened.named opened.present) (late index pc data reads given)

/-- A call that finds a session goes on to hold it. -/
theorem Created.hold (ok : Created q can p₀ c) (absent : p₀.sessions.lookup can = none)
    {peer : SocketAddr} {data : Bytes} {id : SessionId} (reads : c.tasks.calls[index]? = some pc)
    (seeks : pc = .called peer data ∨ pc = .missing peer data ∨ pc = .creating peer data)
    (found : c.tasks.peer.sessions.lookup (canonicalize peer) = some id) :
    Created q can p₀ { c with tasks := c.tasks.setCall index (.holding id data) } := by
  refine ok.move reads rfl rfl rfl rfl ?_
  intro held data' holds stands
  exact holds.finds absent seeks found stands

/-- The first call that finds the map empty under the write lock inserts. -/
theorem Created.insert (ok : Created q can p₀ c)
    (lengths : c.payloads.length = c.tasks.calls.length) {peer : SocketAddr} {data : Bytes}
    (reads : c.tasks.calls[index]? = some (.creating peer data))
    (missing : c.tasks.peer.sessions.lookup (canonicalize peer) = none) (conv : UInt32)
    (now : UInt64) :
    Created q can p₀ { c with
      tasks := { c.tasks with
        peer := c.tasks.peer.insertSession (canonicalize peer) (Session.newOutbound conv peer
          c.tasks.peer.incarnation c.tasks.peer.config now) }.setCall index
        (.inserted c.tasks.peer.sessions.fresh data) } := by
  have below : index < c.payloads.length := lengths ▸ (List.getElem?_eq_some_iff.mp reads).1
  have given := List.getElem?_eq_getElem below
  rcases ok with ⟨unchanged, none, early⟩ | ⟨called, s, opened, late⟩
  · have stands := early index _ _ reads given
    cases stands with
    | creating _ own =>
        subst own
        have fresh : c.tasks.peer.sessions.fresh = p₀.sessions.fresh := by rw [unchanged]
        have opened := FirstSends.Opened.insert (q := q) fresh (fun other => by rw [unchanged])
          (fun id => by rw [unchanged]) conv peer c.tasks.peer.incarnation c.tasks.peer.config now
        refine Or.inr ⟨List.ne_nil_of_length_pos (Nat.zero_lt_of_lt below), _,
          by rw [none]; exact opened, FirstSends.stands_set (fun i pc data reads given =>
          ((early i pc data reads given).later _).1) ?_⟩
        intro data' given'
        rw [given, Option.some.injEq] at given'
        subst given'
        rw [fresh]
        exact .inserted _ _ rfl
  · cases late index _ _ reads given with
    | creating _ own =>
        rw [own, opened.named] at missing
        cases missing

/-- The one session is written back by a call that holds it. -/
theorem Created.write (ok : Created q can p₀ c) (lengths : c.payloads.length = c.tasks.calls.length)
    (reads : c.tasks.calls[index]? = some pc) {id : SessionId} {s s' : Session K}
    (holds : ∀ held data, pc.Stands can held data → ∃ conv, held = some (id, conv))
    (next : ∀ held data, pc.Stands can held data → pc'.Stands can held data)
    (present : c.tasks.peer.sessions.object? id = some s) (view : s'.view = s.view)
    {out : List Submission}
    (peer : c'.tasks.peer = (c.tasks.peer.setSession id s').submit (some id) out)
    (calls : c'.tasks.calls = c.tasks.calls.set index pc') (payloads : c'.payloads = c.payloads)
    (queue : ∀ data, pc.Stands can (some (id, s.inner.convId)) data →
      c.payloads[index]? = some data → s.inner.state = .synSent →
      (q.queued s.inner.kcp).map some = c.queued.map (c.payloads[·]?) →
      (q.queued s'.inner.kcp).map some = c'.queued.map (c.payloads[·]?)) :
    Created q can p₀ c' := by
  have below : index < c.payloads.length := lengths ▸ (List.getElem?_eq_some_iff.mp reads).1
  have given := List.getElem?_eq_getElem below
  rcases ok with ⟨_, _, early⟩ | ⟨called, s₁, opened, late⟩
  · obtain ⟨_, impossible⟩ := holds _ _ (early index _ _ reads given)
    cases impossible
  · have stands := late index _ _ reads given
    obtain ⟨conv, same⟩ := holds _ _ stands
    cases same
    obtain rfl : s₁ = s := Option.some.inj (opened.present.symm.trans present)
    have sameConv : s'.inner.convId = s₁.inner.convId := congrArg View.convId view
    unfold Created
    rw [peer, calls, payloads]
    have kept := queue _ stands given opened.waiting opened.queue
    refine Or.inr ⟨called, s', opened.write view kept _ _, ?_⟩
    rw [sameConv]
    refine FirstSends.stands_set late ?_
    intro data given'
    exact next _ _ (late index _ data reads given')

/-- The inserting call sends its SYN. -/
theorem Created.greet (ok : Created q can p₀ c) (lengths : c.payloads.length = c.tasks.calls.length)
    {id : SessionId} {conv : UInt32} {data : Bytes} {s : Session K}
    (reads : c.tasks.calls[index]? = some (.greeting id conv data))
    (present : c.tasks.peer.sessions.object? id = some s) (now : UInt64) (socket : Socket) :
    Created q can p₀ { c with
      tasks := { c.tasks with
        peer := (c.tasks.peer.setSession id (s.sendSyn conv now socket)).submit (some id)
          [s.synSubmission conv socket] }.setCall index (.holding id data) } := by
  refine ok.write lengths reads ?_ ?_ present (s.view_sendSyn conv now socket) rfl rfl rfl ?_
  · intro held data' stands
    cases stands with
    | greeting _ _ holds => exact ⟨_, holds⟩
  · intro held data' stands
    exact stands.greets
  · intro _ _ _ _ queue
    rw [Session.inner_sendSyn]
    exact queue

theorem queueData_isOk {s : Session K} (waiting : s.inner.state = .synSent) (data : Bytes)
    (now : UInt32) (socket : Socket) :
    (s.queueData data now socket).2.2.isOk =
      (!Kcp.isDeadLink s.inner.kcp && (Kcp.send s.inner.kcp data).2.isOk) := by
  rw [Session.queueData_synSent_eq waiting]
  cases dead : Kcp.isDeadLink s.inner.kcp with
  | true => rfl
  | false =>
      simp only [Bool.false_eq_true, ↓reduceIte, Bool.not_false, Bool.true_and]
      rcases Kcp.send s.inner.kcp data with ⟨kcp, e | _⟩
      · rfl
      · rfl

/-- A call offers its payload to the instance, and is done. -/
theorem Created.offer (ok : Created q can p₀ c) (lengths : c.payloads.length = c.tasks.calls.length)
    {id : SessionId} {data : Bytes} {s : Session K}
    (reads : c.tasks.calls[index]? = some (.opened id data))
    (present : c.tasks.peer.sessions.object? id = some s) (now : UInt32) (socket : Socket)
    (peer : c'.tasks.peer = (c.tasks.peer.setSession id (s.queueData data now socket).1).submit
      (some id) (s.queueData data now socket).2.1)
    (calls : c'.tasks.calls = c.tasks.calls.set index .done) (payloads : c'.payloads = c.payloads)
    (queued : c'.queued =
      if !Kcp.isDeadLink s.inner.kcp && (Kcp.send s.inner.kcp data).2.isOk then c.queued ++ [index]
      else c.queued) : Created q can p₀ c' := by
  refine ok.write lengths reads ?_ ?_ present (s.view_queueData data now socket) peer calls
    payloads ?_
  · intro held data' stands
    cases stands with
    | opened _ _ holds => exact ⟨_, holds⟩
  · intro held data' stands
    exact stands.queues
  · intro data' stands given waiting queue
    obtain ⟨_, taken⟩ := FirstSends.queueData_waiting q waiting data now socket
    rw [taken, queueData_isOk waiting data now socket, queued]
    cases stands with
    | opened =>
        split
        · simp only [List.map_append, queue, List.map_cons, List.map_nil, given]
        · exact queue

theorem Created.advance (ok : Created q can p₀ c)
    (lengths : c.payloads.length = c.tasks.calls.length)
    (absent : p₀.sessions.lookup can = none) {draw : DrawnConv} {clock : Clock} {socket : Socket}
    {tasks : Tasks K} (reads : c.tasks.calls[index]? = some pc)
    (taken : c.tasks.callStep index draw clock socket pc = some tasks) :
    Created q can p₀ (c.record index tasks) := by
  unfold record Tasks.answer
  rw [reads]
  cases Tasks.callStep_advances taken with
  | finds _ peer id data seeks found =>
      have held := ok.hold absent reads seeks found
      rcases seeks with rfl | rfl | rfl
      all_goals exact held
  | misses => exact ok.move reads rfl rfl rfl rfl fun _ _ _ stands => stands.misses
  | creates => exact ok.move reads rfl rfl rfl rfl fun _ _ _ stands => stands.creates
  | inserts peer data free missing => exact ok.insert lengths reads missing draw.val clock.epochMs
  | reads id data s present =>
      refine ok.move reads rfl rfl rfl rfl ?_
      intro held data' holds stands
      exact holds.reads present stands
  | greets id conv data s present => exact ok.greet lengths reads present clock.epochMs socket
  | closed id data s present isClosed =>
      simp only [present, isClosed, Option.bind_some, ↓reduceIte]
      exact ok.move reads rfl rfl rfl rfl fun _ _ _ stands => stands.closed
  | opens id data s present isOpen =>
      simp only [present, isOpen, Option.bind_some, Bool.false_eq_true, ↓reduceIte]
      exact ok.move reads rfl rfl rfl rfl fun _ _ _ stands => stands.opens
  | queues id data s present =>
      simp only [present, Option.map_some]
      cases answer : !Kcp.isDeadLink s.inner.kcp && (Kcp.send s.inner.kcp data).2.isOk with
      | true =>
          refine ok.offer lengths reads present clock.currentMs socket rfl rfl rfl ?_
          rw [answer]
          rfl
      | false =>
          refine ok.offer lengths reads present clock.currentMs socket rfl rfl rfl ?_
          rw [answer]
          rfl

theorem Created.call (ok : Created q can p₀ c) (ended : Ended c) {peer : SocketAddr}
    (own : canonicalize peer = can) (data : Bytes) :
    Created q can p₀ { c with
      tasks := { c.tasks with calls := c.tasks.calls ++ [.called peer data] }
      payloads := c.payloads ++ [data] } := by
  have payloads : c.queued.map ((c.payloads ++ [data])[·]?) = c.queued.map (c.payloads[·]?) := by
    refine FirstSends.map_append_below fun i mem => ?_
    rw [ended.lengths]
    exact (List.getElem?_eq_some_iff.mp (ended.done i (Or.inr (Or.inl mem)))).1
  rcases ok with ⟨unchanged, none, early⟩ | ⟨called, s, opened, late⟩
  · exact Or.inl ⟨unchanged, none, FirstSends.stands_call ended.lengths own early⟩
  · refine Or.inr ⟨by simp, s, ?_, FirstSends.stands_call ended.lengths own late⟩
    dsimp only
    rw [payloads]
    exact opened

theorem Created.step (ok : Created q can p₀ c) (ended : Ended c)
    (absent : p₀.sessions.lookup can = none) {label : TaskStep}
    (allowed : c.allows can label = true) (stepped : c.step label = some c') :
    Created q can p₀ c' := by
  obtain ⟨tasks, taken, rfl⟩ := Option.map_eq_some_iff.mp stepped
  cases label with
  | call peer data =>
      obtain rfl := Option.some.inj taken
      exact ok.call ended (of_decide_eq_true allowed) data
  | advance index draw clock socket =>
      obtain ⟨pc, reads, taken⟩ := Option.bind_eq_some_iff.mp taken
      exact ok.advance ended.lengths absent reads taken
  | cancel index =>
      simp only [Tasks.step] at taken
      simp only [allows] at allowed
      split at allowed
      · rename_i reads
        rw [reads] at taken
        cases taken
        -- the session that the call has inserted stays
        exact ok.move reads rfl rfl rfl rfl fun _ _ _ stands => stands.cancelled
      · cases allowed
  | _ => cases allowed

/-- What holds of every run of calls to an address. -/
theorem reach_ended {n₀ : Tasks K} (noCalls : n₀.calls = [])
    (reached : (sendCalls n₀).Reach (fun c label => c.allows can label = true) c) : Ended c := by
  refine reached.invariant (P := Ended) ⟨?_, ?_, ?_, ?_⟩ ?_
  · simp [sendCalls, noCalls]
  · intro i done
    simp [sendCalls, noCalls] at done
  · intro i finished
    simp [sendCalls] at finished
  · rintro i ⟨⟩
  · intro before label after ok allowed taken
    exact ok.step allowed taken

theorem reach_joined {n₀ : Tasks K} (noCalls : n₀.calls = []) {id₀ : SessionId}
    (held : n₀.peer.sessions.lookup can = some id₀)
    (reached : (sendCalls n₀).Reach (fun c label => c.allows can label = true) c) :
    Joined can n₀.peer c := by
  refine reached.invariant (P := Joined can n₀.peer) ⟨fun _ => rfl, rfl, rfl, ?_⟩ ?_
  · intro pc mem
    simp [sendCalls, noCalls] at mem
  · intro before label after ok allowed taken
    exact ok.step held allowed taken

theorem reach_created (q : SendQueue K) {n₀ : Tasks K} (noCalls : n₀.calls = [])
    (absent : n₀.peer.sessions.lookup can = none)
    (reached : (sendCalls n₀).Reach (fun c label => c.allows can label = true) c) :
    Created q can n₀.peer c := by
  refine reached.invariant_with (P := Created q can n₀.peer) (Q := Ended)
    (fun _ => reach_ended noCalls) (Or.inl ⟨rfl, rfl, ?_⟩) ?_
  · intro i pc data reads
    simp [sendCalls, noCalls] at reads
  · intro before label after ok ended allowed taken
    exact ok.step ended absent allowed taken

omit [Kcp K] in
/-- No call has created a session if the map is the one before. -/
theorem not_created {n₀ : Tasks K}
    (same : ∀ can, c.tasks.peer.sessions.lookup can = n₀.peer.sessions.lookup can)
    {other : CanonicalAddr} {id : SessionId} {s : Session K}
    (found : c.tasks.peer.sessions.find other = some (id, s)) :
    ¬ n₀.peer.sessions.fresh ≤ id := by
  have named := (Store.find_eq_some.mp found).1
  rw [same other] at named
  exact Nat.not_le.mpr (Store.lookup_lt named)

/-- At an address that had a session the calls create nothing. -/
theorem Joined.allOrNothing {n₀ : Tasks K} (ok : Joined can n₀.peer c) : c.AllOrNothing q n₀ := by
  refine ⟨fun _ => ok.map, ?_, ?_⟩
  · intro _ _ _ _ found created
    exact absurd created (not_created ok.map found)
  · intro i mem
    rw [ok.undropped] at mem
    cases mem

/-- A payload that a call has left with the instance is there for the new session. -/
theorem Created.allOrNothing {n₀ : Tasks K} (ok : Created q can n₀.peer c) (ended : Ended c)
    {i : Nat} (queued : i ∈ c.queued) : c.AllOrNothing q n₀ := by
  have undropped := (ended.disjoint i queued).1
  have below : i < c.payloads.length := by
    rw [ended.lengths]
    exact (List.getElem?_eq_some_iff.mp (ended.done i (Or.inr (Or.inl queued)))).1
  refine ⟨fun all => absurd (all i below) undropped, ?_, fun j mem taken =>
    (ended.disjoint j taken).1 mem⟩
  rintro _ other id s found created
  obtain ⟨named, present⟩ := Store.find_eq_some.mp found
  rcases ok with ⟨_, none, _⟩ | ⟨_, s₁, opened, _⟩
  · rw [none] at queued
    cases queued
  · by_cases own : other = can
    · subst own
      obtain rfl := Option.some.inj (opened.named.symm.trans named)
      obtain rfl := Option.some.inj (opened.present.symm.trans present)
      have given := List.getElem?_eq_getElem below
      refine ⟨i, _, undropped, given, ?_⟩
      have mem := List.mem_map_of_mem (f := (c.payloads[·]?)) queued
      rw [← opened.queue, given] at mem
      obtain ⟨data, queuedData, same⟩ := List.mem_map.mp mem
      rw [← Option.some.inj same]
      exact queuedData
    · rw [opened.others other own] at named
      exact absurd (Store.lookup_lt named) (Nat.not_lt.mpr created)

/-- With no call there is nothing to complete. -/
theorem Created.idle {n₀ : Tasks K} (ok : Created q can n₀.peer c) (ended : Ended c)
    (none : c.payloads = []) : c.AllOrNothing q n₀ := by
  rcases ok with ⟨unchanged, _, _⟩ | ⟨called, _⟩
  · have same : ∀ can, c.tasks.peer.sessions.lookup can = n₀.peer.sessions.lookup can := by
      intro can
      rw [unchanged]
    exact ⟨fun _ => same, fun _ _ _ _ found created => absurd created (not_created same found),
      fun j mem taken => (ended.disjoint j taken).1 mem⟩
  · exact absurd none called

/-- The new session stays in the map with an empty queue if no instance took a payload. -/
theorem Created.stranded {n₀ : Tasks K} (ok : Created q can n₀.peer c) (ended : Ended c)
    (absent : n₀.peer.sessions.lookup can = none) (allEnded : ∀ pc ∈ c.tasks.calls, pc = .done)
    (called : c.payloads ≠ []) (empty : c.queued = []) : ¬ c.AllOrNothing q n₀ := by
  intro holds
  rcases ok with ⟨_, _, early⟩ | ⟨_, s, opened, _⟩
  · -- the first call is done, so it has held a session
    have first := List.getElem?_eq_getElem (List.length_pos_iff.mpr called)
    have below : 0 < c.tasks.calls.length := ended.lengths ▸ List.length_pos_iff.mpr called
    have reads := List.getElem?_eq_getElem below
    have stands := early 0 _ _ reads first
    rw [allEnded _ (List.getElem_mem below)] at stands
    cases stands with
    | done _ _ held => cases held
  · by_cases all : ∀ i < c.payloads.length, i ∈ c.dropped
    · have same := holds.nothing all can
      rw [opened.named, absent] at same
      cases same
    · simp only [not_forall] at all
      obtain ⟨i, below, undropped⟩ := all
      obtain ⟨_, _, _, _, mem⟩ := holds.all ⟨i, below, undropped⟩ can _ s
        (Store.find_eq_some.mpr ⟨opened.named, opened.present⟩) (Nat.le_refl _)
      have queue := opened.queue
      rw [empty, List.map_nil, List.map_eq_nil_iff] at queue
      rw [queue] at mem
      cases mem

end SendCalls

/-- `send()` calls to one address that may be dropped at their await complete or leave
nothing behind exactly if the address had a session before, or if no call was made, or if
one call that was not dropped had its payload taken. -/
theorem send_all_or_nothing_iff (K : Type) [Kcp K] (q : SendQueue K) (n₀ : Tasks K)
    (can : CanonicalAddr) (noCalls : n₀.calls = []) (c : SendCalls K)
    (reached : (sendCalls n₀).Reach (fun c label => c.allows can label = true) c)
    (allEnded : ∀ pc ∈ c.tasks.calls, pc = .done) :
    c.AllOrNothing q n₀ ↔
      (∃ id, n₀.peer.sessions.lookup can = some id) ∨ c.payloads = [] ∨
        ∃ i < c.payloads.length, i ∉ c.dropped ∧ i ∉ c.refused := by
  have ended := SendCalls.reach_ended noCalls reached
  cases before : n₀.peer.sessions.lookup can with
  | some id =>
      have holds := (SendCalls.reach_joined noCalls before reached).allOrNothing (q := q)
      exact iff_of_true holds (Or.inl ⟨id, rfl⟩)
  | none =>
      have ok := SendCalls.reach_created q noCalls before reached
      constructor
      · intro holds
        by_contra neither
        simp only [not_or, not_exists, not_and, not_not] at neither
        obtain ⟨_, called, fates⟩ := neither
        refine ok.stranded ended before allEnded called ?_ holds
        refine List.eq_nil_iff_forall_not_mem.mpr fun i queued => ?_
        obtain ⟨undropped, taken⟩ := ended.disjoint i queued
        have below := (List.getElem?_eq_some_iff.mp (ended.done i (Or.inr (Or.inl queued)))).1
        rw [← ended.lengths] at below
        exact taken (fates i below undropped)
      · rintro (⟨_, impossible⟩ | none | ⟨i, below, undropped, taken⟩)
        · cases impossible
        · exact ok.idle ended none
        · rw [ended.lengths] at below
          have done := allEnded _ (List.getElem_mem below)
          have reads := (List.getElem?_eq_getElem below).trans (congrArg some done)
          rcases ended.ended i reads with dropped | queued | refused
          · exact absurd dropped undropped
          · exact ok.allOrNothing ended queued
          · exact absurd refused taken

/-- The first of two calls is dropped at its await, after the other has found the session
that it inserted. -/
theorem send_all_or_nothing_iff_joined :
    ∃ c : SendCalls SampleKcp,
      (sendCalls (Tasks.start 1 .default)).Reach
        (fun c label => c.allows (canonicalize .remote) label = true) c ∧
      c.dropped = [0] ∧ c.queued = [1] ∧
      c.AllOrNothing SampleKcp.sendQueue (Tasks.start 1 .default) := by
  have run : ((sendCalls (Tasks.start 1 .default)).exec
      (fun c label => c.allows (canonicalize .remote) label = true)
      (sendCalls (K := SampleKcp) (Tasks.start 1 .default)).start
      [.call .remote [1], .advance 0 .ten .sample .sample, .advance 0 .ten .sample .sample,
        .advance 0 .ten .sample .sample, .advance 0 .ten .sample .sample,
        .call .remote [2], .advance 1 .twenty .sample .sample, .cancel 0,
        .advance 1 .twenty .sample .sample, .advance 1 .twenty .sample .sample]).any
      (fun c => decide (c.tasks.calls = [.done, .done] ∧ c.payloads.length = 2 ∧
        c.dropped = [0] ∧ c.queued = [1] ∧ c.refused = [])) = true := by
    decide +kernel
  obtain ⟨c, reached, checked⟩ := Machine.Reach.exec_any _ run
  obtain ⟨calls, payloads, dropped, queued, refused⟩ := of_decide_eq_true checked
  refine ⟨c, reached, dropped, queued, ?_⟩
  refine (send_all_or_nothing_iff SampleKcp SampleKcp.sendQueue (.start 1 .default)
    (canonicalize .remote) rfl c reached (by simp [calls])).mpr (Or.inr (Or.inr ⟨1, ?_, ?_, ?_⟩))
  · simp [payloads]
  · simp [dropped]
  · simp [refused]

/-- A call that is dropped at its await leaves the session that it has inserted, with
nothing queued. -/
theorem dropped_send_leaves_session :
    ∃ c : SendCalls SampleKcp,
      (sendCalls (Tasks.start 1 .default)).Reach
        (fun c label => c.allows (canonicalize .remote) label = true) c ∧
      c.tasks.calls = [.done] ∧ c.dropped = [0] ∧
      (∃ s, c.tasks.peer.sessions.find (canonicalize .remote) = some (0, s) ∧
        s.inner.state = .synSent ∧ s.inner.kcp.sndQueue = []) ∧
      ¬ c.AllOrNothing SampleKcp.sendQueue (Tasks.start 1 .default) := by
  have run : ((sendCalls (Tasks.start 1 .default)).exec
      (fun c label => c.allows (canonicalize .remote) label = true)
      (sendCalls (K := SampleKcp) (Tasks.start 1 .default)).start
      [.call .remote [1], .advance 0 .ten .sample .sample, .advance 0 .ten .sample .sample,
        .advance 0 .ten .sample .sample, .advance 0 .ten .sample .sample, .cancel 0]).any
      (fun c => decide (c.tasks.calls = [.done] ∧ c.payloads.length = 1 ∧ c.dropped = [0]) &&
        (c.tasks.peer.sessions.find (canonicalize .remote)).any fun (id, s) =>
          decide (id = 0 ∧ s.inner.state = .synSent ∧ s.inner.kcp.sndQueue = [])) = true := by
    decide +kernel
  obtain ⟨c, reached, checked⟩ := Machine.Reach.exec_any _ run
  obtain ⟨history, session⟩ := Bool.and_eq_true_iff.mp checked
  obtain ⟨calls, payloads, dropped⟩ := of_decide_eq_true history
  obtain ⟨⟨id, s⟩, found, state⟩ := (Option.any_eq_true ..).mp session
  obtain ⟨rfl, waiting, empty⟩ := of_decide_eq_true state
  refine ⟨c, reached, calls, dropped, ⟨s, found, waiting, empty⟩, ?_⟩
  intro holds
  have same := holds.nothing (by simp [payloads, dropped]) (canonicalize .remote)
  rw [(Store.find_eq_some.mp found).1] at same
  cases same

end KcpPeer
