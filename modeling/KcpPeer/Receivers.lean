import KcpPeer.Evolution
import KcpPeer.Mailbox
import KcpPeer.SampleKcp

set_option autoImplicit false

namespace KcpPeer

/-- Where a `recv()` call stands: before its first look at the queue, after it has
found the queue empty, registered with `data_notify`, or resumed and before its
next look. A call borrows the peer, so that `shutdown()` and the drop of the peer,
which own it, find no call running. -/
inductive RecvCall where
  | called
  | empty
  | waiting
  | woken
  | returned (msg : DataMessage)
  | dropped
  deriving DecidableEq, Repr

/-- The peer's tasks with its `recv()` calls. History: the messages the calls have
returned, in the order of their pops, and the messages the KCP instances have
yielded. -/
structure Receivers (K : Type) where
  tasks : Tasks K
  callers : List RecvCall
  returned : List DataMessage
  yielded : List (SessionId × Bytes)

/-- One step of a task or of a `recv()` call. A call is dropped before it is first
polled or at its await. -/
inductive ReceiverStep where
  | task (label : TaskStep)
  | call
  | check (caller : Nat)
  | poll (caller : Nat)
  | resume (caller : Nat)
  | drop (caller : Nat)

namespace Notify

/-- The first poll of `notified()`: the caller takes the permit or starts to wait. -/
def poll (n : Notify) (caller : Nat) : Notify :=
  if n.permit then { n with permit := false } else { n with waiters := n.waiters ++ [caller] }

/-- A woken caller is polled again. -/
def resume (n : Notify) (caller : Nat) : Notify := { n with woken := n.woken.erase caller }

/-- A waiting caller is dropped; if it was woken, it passes the notification on. -/
def abandon (n : Notify) (caller : Nat) : Notify :=
  if caller ∈ n.woken then { n with woken := n.woken.erase caller }.notifyOne
  else { n with waiters := n.waiters.erase caller }

end Notify

namespace Receivers

variable {K : Type}

def notify (r : Receivers K) : Notify := r.tasks.peer.dataNotify

def setNotify (r : Receivers K) (notify : Notify) : Receivers K :=
  { r with tasks := { r.tasks with peer := { r.tasks.peer with dataNotify := notify } } }

def setCaller (r : Receivers K) (caller : Nat) (pc : RecvCall) : Receivers K :=
  { r with callers := r.callers.set caller pc }

variable [Kcp K]

/-- A caller looks at the queue under the mutex and takes the front message. -/
def check (r : Receivers K) (caller : Nat) : Option (Receivers K) :=
  match r.tasks.peer.pendingData with
  | [] => some (r.setCaller caller .empty)
  | msg :: _ =>
      (r.tasks.step .take).map fun tasks =>
        { r with tasks, returned := r.returned ++ [msg] }.setCaller caller (.returned msg)

def step (r : Receivers K) : ReceiverStep → Option (Receivers K)
  | .task .take => none
  | .task label =>
      (r.tasks.step label).map fun tasks =>
        { r with tasks, yielded := r.yielded ++ r.tasks.yields label }
  | .call => some { r with callers := r.callers ++ [.called] }
  | .check caller =>
      match r.callers[caller]? with
      | some .called => r.check caller
      | some .woken => r.check caller
      | _ => none
  | .poll caller =>
      match r.callers[caller]? with
      | some .empty =>
          some ((r.setNotify (r.notify.poll caller)).setCaller caller
            (if r.notify.permit then .woken else .waiting))
      | _ => none
  | .resume caller =>
      match r.callers[caller]? with
      | some .waiting =>
          if caller ∈ r.notify.woken then
            some ((r.setNotify (r.notify.resume caller)).setCaller caller .woken)
          else none
      | _ => none
  | .drop caller =>
      match r.callers[caller]? with
      | some .called => some (r.setCaller caller .dropped)
      | some .waiting => some ((r.setNotify (r.notify.abandon caller)).setCaller caller .dropped)
      | _ => none

end Receivers

/-- Every interleaving of the tasks of one peer, its `send()` calls and any number
of `recv()` calls. -/
def receiversMachine (K : Type) [Kcp K] (incarnation : UInt64) (config : KcpConfig) :
    Machine (Receivers K) ReceiverStep where
  start := ⟨.start incarnation config, [], [], []⟩
  step := Receivers.step

/-- The messages of one session, in their order. -/
def messagesOf (id : SessionId) (messages : List (SessionId × Bytes)) : List Bytes :=
  (messages.filter fun message => message.1 = id).map Prod.snd

namespace Receivers

variable {K : Type} [Kcp K] {r r' : Receivers K}

/-- The messages appended to `pending_data`, without their peers. -/
def payloads (r : Receivers K) : List (SessionId × Bytes) :=
  (appended r.tasks.peer.log).map fun entry => (entry.1, entry.2.data)

/-- What was yielded is what was appended and the batch in between, what was
appended is what was returned and what is pending, and each message carries the
address of its session. -/
structure Accounted (r : Receivers K) : Prop where
  queue : r.returned ++ r.tasks.peer.pendingData = (appended r.tasks.peer.log).map Prod.snd
  kcp : r.yielded = r.payloads ++ r.tasks.recv.batch
  peer : ∀ id msg, (id, msg) ∈ appended r.tasks.peer.log →
    ∃ s, r.tasks.peer.sessions.object? id = some s ∧ s.peerAddr = msg.peer

/-- A session keeps its address. -/
theorem peerAddr_kept {n n' : Tasks K} {label : TaskStep} (taken : n.step label = some n')
    {id : SessionId} {s : Session K} (present : n.peer.sessions.object? id = some s) :
    ∃ s', n'.peer.sessions.object? id = some s' ∧ s'.peerAddr = s.peerAddr := by
  obtain ⟨v, visible, addr, _⟩ :=
    (Tasks.step_board taken).evolves.object id s.view (Tasks.object?_board present)
  rw [Tasks.board, Peer.registry_object?] at visible
  obtain ⟨s', present', rfl⟩ := Option.map_eq_some_iff.mp visible
  exact ⟨s', present', addr⟩

/-- A step of the tasks that appends nothing, when the batch in between grows by
what is yielded. -/
theorem Accounted.unappended (ok : r.Accounted) {label : TaskStep} {tasks : Tasks K}
    (taken : r.tasks.step label = some tasks)
    (pending : tasks.peer.pendingData = r.tasks.peer.pendingData)
    (log : appended tasks.peer.log = appended r.tasks.peer.log)
    (batch : r.tasks.recv.batch ++ r.tasks.yields label = tasks.recv.batch) :
    Accounted { r with tasks, yielded := r.yielded ++ r.tasks.yields label } := by
  refine ⟨?_, ?_, ?_⟩
  · dsimp only
    rw [pending, log]
    exact ok.queue
  · simp only [payloads, log]
    rw [ok.kcp, List.append_assoc, batch]
    rfl
  · intro id msg mem
    rw [log] at mem
    obtain ⟨s, present, addr⟩ := ok.peer id msg mem
    obtain ⟨s', present', addr'⟩ := peerAddr_kept taken present
    exact ⟨s', present', addr'.trans addr⟩

theorem Accounted.task (law : RecvQueue K) (ok : r.Accounted) {label : TaskStep}
    (other : label ≠ .take) {tasks : Tasks K} (taken : r.tasks.step label = some tasks) :
    Accounted { r with tasks, yielded := r.yielded ++ r.tasks.yields label } := by
  cases Tasks.step_mails taken with
  | drains id s fed present yielded same next batch =>
      obtain ⟨pending, _, log⟩ := Peer.mail_eq same
      refine ok.unappended taken pending log ?_
      rw [batch (Session.tryRecvAll_ok law s), yielded, fed]
      rfl
  | appends id msgs s drained present yielded after next =>
      have log : appended tasks.peer.log = appended r.tasks.peer.log ++
          msgs.map fun data => (id, ⟨s.peerAddr, data⟩) := by
        rw [after, Peer.appendData, appended_append, appended_batch, List.map_map]
        rfl
      have pending : tasks.peer.pendingData = r.tasks.peer.pendingData ++
          msgs.map fun data => ⟨s.peerAddr, data⟩ := by
        rw [after]
        rfl
      refine ⟨?_, ?_, ?_⟩
      · dsimp only
        rw [pending, log, ← List.append_assoc, ok.queue, List.map_append, List.map_map]
        rfl
      · simp only [payloads, log, yielded, next, List.append_nil, List.map_append, List.map_map]
        rw [ok.kcp, drained]
        exact (List.append_nil _).symm
      · intro id' msg mem
        rw [log] at mem
        rw [after]
        rcases List.mem_append.mp mem with old | new
        · exact ok.peer id' msg old
        · obtain ⟨data, _, same⟩ := List.mem_map.mp new
          cases same
          exact ⟨s, present, rfl⟩
  | notifies pushed yielded after next =>
      refine ok.unappended taken (by rw [after]; rfl) (by rw [after]; rfl) ?_
      rw [yielded, pushed, next]
      rfl
  | takes msg rest isTake => exact absurd isTake other
  | rests yielded same next =>
      obtain ⟨pending, _, log⟩ := Peer.mail_eq same
      refine ok.unappended taken pending log ?_
      rw [yielded, List.append_nil]
      rcases next with still | ⟨free, free'⟩
      · rw [still]
      · rw [RecvPc.batch_of_hands free, RecvPc.batch_of_hands free']

/-- A look at the queue. -/
inductive Checks (r : Receivers K) (caller : Nat) : Receivers K → Prop
  | empty (none : r.tasks.peer.pendingData = []) : Checks r caller (r.setCaller caller .empty)
  | pops (msg : DataMessage) (rest : List DataMessage)
      (pending : r.tasks.peer.pendingData = msg :: rest) :
      Checks r caller ({ r with
        tasks := { r.tasks with peer := { r.tasks.peer with pendingData := rest } }
        returned := r.returned ++ [msg] }.setCaller caller (.returned msg))

theorem check_checks {caller : Nat} (taken : r.check caller = some r') :
    r.Checks caller r' := by
  unfold check at taken
  split at taken
  · rename_i empty
    obtain rfl := Option.some.inj taken
    exact .empty empty
  · rename_i msg rest pending
    simp only [Tasks.step, pending, Option.map_some, Option.some.injEq] at taken
    rw [← taken]
    exact .pops msg rest pending

/-- What a step can do: one of the tasks moves, a caller looks at the queue, or a
caller moves otherwise and nothing but its place and `data_notify` changes. -/
inductive Steps (r : Receivers K) : ReceiverStep → Receivers K → Prop
  | tasks (label : TaskStep) (tasks : Tasks K) (other : label ≠ .take)
      (taken : r.tasks.step label = some tasks) :
      Steps r (.task label) { r with tasks, yielded := r.yielded ++ r.tasks.yields label }
  | starts : Steps r .call { r with callers := r.callers ++ [.called] }
  | checks (caller : Nat) (pc : RecvCall) (reads : r.callers[caller]? = some pc)
      (about : pc = .called ∨ pc = .woken) (r' : Receivers K) (checked : r.Checks caller r') :
      Steps r (.check caller) r'
  | takesPermit (caller : Nat) (reads : r.callers[caller]? = some .empty)
      (stored : r.notify.permit = true) :
      Steps r (.poll caller)
        ((r.setNotify { r.notify with permit := false }).setCaller caller .woken)
  | waits (caller : Nat) (reads : r.callers[caller]? = some .empty)
      (none : r.notify.permit = false) :
      Steps r (.poll caller)
        ((r.setNotify { r.notify with waiters := r.notify.waiters ++ [caller] }).setCaller caller
          .waiting)
  | resumes (caller : Nat) (reads : r.callers[caller]? = some .waiting)
      (woken : caller ∈ r.notify.woken) :
      Steps r (.resume caller)
        ((r.setNotify (r.notify.resume caller)).setCaller caller .woken)
  | leaves (caller : Nat) (reads : r.callers[caller]? = some .called) :
      Steps r (.drop caller) (r.setCaller caller .dropped)
  | abandons (caller : Nat) (reads : r.callers[caller]? = some .waiting) :
      Steps r (.drop caller)
        ((r.setNotify (r.notify.abandon caller)).setCaller caller .dropped)

theorem step_steps {label : ReceiverStep} (taken : r.step label = some r') :
    r.Steps label r' := by
  cases label with
  | task label =>
      by_cases isTake : label = .take
      · subst isTake
        cases taken
      · have other : (r.tasks.step label).map (fun tasks =>
            { r with tasks, yielded := r.yielded ++ r.tasks.yields label }) = some r' := by
          cases label with
          | take => exact absurd rfl isTake
          | _ => exact taken
        obtain ⟨tasks, moved, rfl⟩ := Option.map_eq_some_iff.mp other
        exact .tasks label tasks isTake moved
  | call =>
      obtain rfl := Option.some.inj taken
      exact .starts
  | check caller =>
      simp only [step] at taken
      split at taken
      · rename_i reads
        exact .checks caller _ reads (Or.inl rfl) r' (check_checks taken)
      · rename_i reads
        exact .checks caller _ reads (Or.inr rfl) r' (check_checks taken)
      · cases taken
  | poll caller =>
      simp only [step] at taken
      split at taken
      · rename_i reads
        obtain rfl := Option.some.inj taken
        unfold Notify.poll
        split
        · rename_i stored
          exact .takesPermit caller reads stored
        · rename_i unset
          exact .waits caller reads (Bool.not_eq_true _ ▸ unset)
      · cases taken
  | resume caller =>
      simp only [step] at taken
      split at taken
      · rename_i reads
        split at taken
        · rename_i woken
          obtain rfl := Option.some.inj taken
          exact .resumes caller reads woken
        · cases taken
      · cases taken
  | drop caller =>
      simp only [step] at taken
      split at taken
      · rename_i reads
        obtain rfl := Option.some.inj taken
        exact .leaves caller reads
      · rename_i reads
        obtain rfl := Option.some.inj taken
        exact .abandons caller reads
      · cases taken

theorem Accounted.step (law : RecvQueue K) (ok : r.Accounted) {label : ReceiverStep}
    (taken : r.step label = some r') : r'.Accounted := by
  cases step_steps taken with
  | tasks label tasks other moved => exact ok.task law other moved
  | checks caller pc reads about r' checked =>
      cases checked with
      | empty => exact ⟨ok.queue, ok.kcp, ok.peer⟩
      | pops msg rest pending =>
          refine ⟨?_, ok.kcp, ok.peer⟩
          have queue := ok.queue
          rw [pending] at queue
          simpa only [setCaller, List.append_assoc, List.singleton_append] using queue
  | _ => exact ⟨ok.queue, ok.kcp, ok.peer⟩

theorem reach_accounted {incarnation : UInt64} {config : KcpConfig} (law : RecvQueue K)
    (reached : (receiversMachine K incarnation config).Reach Machine.always r) :
    r.Accounted := by
  refine reached.invariant (P := Accounted) ⟨rfl, rfl, ?_⟩ ?_
  · rintro id msg ⟨⟩
  intro before label after ok _ taken
  exact ok.step law taken

end Receivers

/-- `recv()` neither loses, duplicates nor reorders: what the calls have returned
and what is pending is what was appended, and for every session the messages
appended, with the batch that is on its way, are those its instance yielded, which
it yields from the front of its receive queue. -/
theorem recv_returns_what_kcp_yields (K : Type) [Kcp K] (law : RecvQueue K)
    (incarnation : UInt64) (config : KcpConfig) (r : Receivers K)
    (reached : (receiversMachine K incarnation config).Reach Machine.always r) :
    r.returned ++ r.tasks.peer.pendingData = (appended r.tasks.peer.log).map Prod.snd ∧
    (∀ id, messagesOf id r.yielded =
      messagesOf id r.payloads ++ messagesOf id r.tasks.recv.batch) ∧
    ((∀ id msgs, r.tasks.recv ≠ .kcpDrained id msgs) →
      ∀ id, messagesOf id r.yielded = messagesOf id r.payloads) ∧
    (∀ s : Session K, Kcp.rcvQueue s.inner.kcp =
      s.yields ++ Kcp.rcvQueue s.tryRecvAll.1.inner.kcp) ∧
    ∀ id msg, (id, msg) ∈ appended r.tasks.peer.log →
      ∃ s, r.tasks.peer.sessions.object? id = some s ∧ s.peerAddr = msg.peer := by
  have ok := Receivers.reach_accounted law reached
  have each : ∀ id, messagesOf id r.yielded =
      messagesOf id r.payloads ++ messagesOf id r.tasks.recv.batch := by
    intro id
    rw [ok.kcp, messagesOf, List.filter_append, List.map_append]
    rfl
  refine ⟨ok.queue, each, ?_, fun s => (s.tryRecvAll_front law), ok.peer⟩
  intro between id
  have none : r.tasks.recv.batch = [] := by
    cases recv : r.tasks.recv with
    | kcpDrained id msgs => exact absurd recv (between id msgs)
    | _ => rfl
  rw [each, none]
  exact List.append_nil _

/-- One datagram with `[7]` and `[8]` as messages 0 and 1 of conversation 20. -/
def SampleKcp.twoMessages : Bytes :=
  encodeKcpData ((Kcp.new 20 : SampleKcp).segment SampleKcp.cmdPush 0 0 [7] ++
    (Kcp.new 20 : SampleKcp).segment SampleKcp.cmdPush 0 1 [8])

/-- Two calls wait for a batch of two messages. -/
def ReceiverStep.twoWaiting : List ReceiverStep :=
  [.task (.arriveSample (encodeControl .syn 20)), .task .recvSample, .task .recvSample,
    .task .recvSample, .call, .check 0, .poll 0, .call, .check 1, .poll 1,
    .task (.arriveSample SampleKcp.twoMessages), .task .recvSample, .task .recvSample,
    .task .recvSample, .task .recvSample, .task .recvSample]

/-- The first call is woken and dropped, and the second returns the first message. -/
theorem recv_returns_what_kcp_yields_dropped :
    ∃ r : Receivers SampleKcp, r.callers = [.dropped, .returned ⟨.remote, [7]⟩] ∧
      r.tasks.peer.pendingData = [⟨.remote, [8]⟩] ∧ messagesOf 0 r.yielded = [[7], [8]] ∧
      messagesOf 0 r.yielded = messagesOf 0 r.payloads := by
  have run : ((receiversMachine SampleKcp 1 .default).exec Machine.always
      (receiversMachine SampleKcp 1 .default).start
      (ReceiverStep.twoWaiting ++ [.drop 0, .resume 1, .check 1])).any
      (fun r => decide (r.callers = [.dropped, .returned ⟨.remote, [7]⟩] ∧
        r.tasks.peer.pendingData = [⟨.remote, [8]⟩] ∧ messagesOf 0 r.yielded = [[7], [8]] ∧
        r.tasks.recv = .idle)) = true := by
    decide +kernel
  obtain ⟨r, reached, checked⟩ := Machine.Reach.exec_any _ run
  obtain ⟨callers, pending, yielded, idle⟩ := of_decide_eq_true checked
  obtain ⟨_, _, between, _⟩ := recv_returns_what_kcp_yields SampleKcp SampleKcp.recvQueue 1 .default
    r reached
  exact ⟨r, callers, pending, yielded, between (by simp [idle]) 0⟩

end KcpPeer
