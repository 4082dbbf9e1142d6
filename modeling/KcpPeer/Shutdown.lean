import KcpPeer.StaleSyn

set_option autoImplicit false

namespace KcpPeer

/-- A task at the `select!` of its loop: it has still to look at the shutdown
token, has found it not cancelled, or has left the loop. -/
inductive LoopPc where
  | top
  | entered
  | exited
  deriving DecidableEq, Repr

/-- Where `shutdown()` stands. From its snapshot on it has the sessions that are
still to be closed; with none left it waits for the two tasks. -/
inductive ShutdownPc where
  | running
  | cancelled
  | closing (rest : List SessionId)
  | marked (id : SessionId) (rest : List SessionId)
  | reading (id : SessionId) (conv : UInt32) (rest : List SessionId)
  | returned
  deriving DecidableEq, Repr

/-- The tasks of a peer and its `shutdown()`. `mark` is history: how many
datagrams had been submitted when `shutdown()` was called. -/
structure Shutdown (K : Type) where
  tasks : Tasks K
  recvLoop : LoopPc
  updLoop : LoopPc
  pc : ShutdownPc
  mark : Nat

inductive ShutdownStep where
  | task (label : TaskStep)
  | lookRecv
  | lookUpd
  | cancel
  | snapshot (order : List CanonicalAddr)
  | close
  | read
  | reset (socket : Socket)
  | join

namespace Shutdown

variable {K : Type}

def look (d : Shutdown K) : LoopPc := if d.pc = .running then .entered else .exited

variable [Kcp K]

/-- A datagram is received, and a tick begins, only in the round of the loop in
which the token was found not cancelled. `shutdown()` owns the peer, so no call on
it runs from then on. -/
def taskStep (d : Shutdown K) : TaskStep → Option (Shutdown K)
  | .arrive data src clock socket =>
      if d.recvLoop = .entered then
        (d.tasks.step (.arrive data src clock socket)).map fun tasks =>
          { d with tasks, recvLoop := .top }
      else none
  | .tick nowMs nowEpoch =>
      if d.updLoop = .entered then
        (d.tasks.step (.tick nowMs nowEpoch)).map fun tasks => { d with tasks, updLoop := .top }
      else none
  | .recv clock socket => (d.tasks.step (.recv clock socket)).map fun tasks => { d with tasks }
  | .scan order => (d.tasks.step (.scan order)).map fun tasks => { d with tasks }
  | .upd now socket => (d.tasks.step (.upd now socket)).map fun tasks => { d with tasks }
  | label =>
      if d.pc = .running then (d.tasks.step label).map fun tasks => { d with tasks } else none

def step (d : Shutdown K) : ShutdownStep → Option (Shutdown K)
  | .task label => d.taskStep label
  | .lookRecv =>
      if d.recvLoop ≠ .exited ∧ d.tasks.recv = .idle then some { d with recvLoop := d.look }
      else none
  | .lookUpd =>
      if d.updLoop ≠ .exited ∧ d.tasks.upd = .idle then some { d with updLoop := d.look }
      else none
  | .cancel =>
      if d.pc = .running ∧ ∀ pc ∈ d.tasks.calls, pc = .done then
        some { d with pc := .cancelled, mark := d.tasks.peer.outbox.length }
      else none
  | .snapshot order =>
      if d.pc = .cancelled ∧ order.isPerm d.tasks.peer.sessions.keys then
        some { d with pc := .closing (order.filterMap d.tasks.peer.sessions.lookup) }
      else none
  | .close =>
      match d.pc with
      | .closing (id :: rest) =>
          (d.tasks.peer.sessions.object? id).map fun s =>
            { d with
              tasks := { d.tasks with peer := d.tasks.peer.setSession id s.markClosed }
              pc := .marked id rest }
      | _ => none
  | .read =>
      match d.pc with
      | .marked id rest =>
          (d.tasks.peer.sessions.object? id).map fun s =>
            { d with pc := .reading id s.inner.convId rest }
      | _ => none
  | .reset socket =>
      match d.pc with
      | .reading id conv rest =>
          (d.tasks.peer.sessions.object? id).map fun s =>
            { d with
              tasks := { d.tasks with peer := d.tasks.peer.sendReset conv s.peerAddr socket }
              pc := .closing rest }
      | _ => none
  | .join =>
      if d.pc = .closing [] ∧ d.recvLoop = .exited ∧ d.updLoop = .exited then
        some { d with pc := .returned }
      else none

/-- What a step of a task does, and where it leaves the loops. -/
inductive Runs (d : Shutdown K) : TaskStep → Shutdown K → Prop
  | arrives (data : Bytes) (src : SocketAddr) (clock : Clock) (socket : Socket) (tasks : Tasks K)
      (entered : d.recvLoop = .entered)
      (moved : d.tasks.step (.arrive data src clock socket) = some tasks) :
      Runs d (.arrive data src clock socket) { d with tasks, recvLoop := .top }
  | ticks (nowMs : UInt32) (nowEpoch : UInt64) (tasks : Tasks K) (entered : d.updLoop = .entered)
      (moved : d.tasks.step (.tick nowMs nowEpoch) = some tasks) :
      Runs d (.tick nowMs nowEpoch) { d with tasks, updLoop := .top }
  | handles (clock : Clock) (socket : Socket) (tasks : Tasks K)
      (moved : d.tasks.step (.recv clock socket) = some tasks) :
      Runs d (.recv clock socket) { d with tasks }
  | begins (order : List CanonicalAddr) (tasks : Tasks K)
      (moved : d.tasks.step (.scan order) = some tasks) :
      Runs d (.scan order) { d with tasks }
  | scans (now : UInt64) (socket : Socket) (tasks : Tasks K)
      (moved : d.tasks.step (.upd now socket) = some tasks) :
      Runs d (.upd now socket) { d with tasks }
  | calls (label : TaskStep) (tasks : Tasks K) (api : label.actor = .api)
      (running : d.pc = .running) (moved : d.tasks.step label = some tasks) :
      Runs d label { d with tasks }

/-- What each step of the tasks and of `shutdown()` does. -/
inductive Moves (d : Shutdown K) : ShutdownStep → Shutdown K → Prop
  | runs (label : TaskStep) (d' : Shutdown K) (next : d.Runs label d') : Moves d (.task label) d'
  | looksRecv (inside : d.recvLoop ≠ .exited) (idle : d.tasks.recv = .idle) :
      Moves d .lookRecv { d with recvLoop := d.look }
  | looksUpd (inside : d.updLoop ≠ .exited) (idle : d.tasks.upd = .idle) :
      Moves d .lookUpd { d with updLoop := d.look }
  | cancels (running : d.pc = .running) (ended : ∀ pc ∈ d.tasks.calls, pc = .done) :
      Moves d .cancel { d with pc := .cancelled, mark := d.tasks.peer.outbox.length }
  | snapshots (order : List CanonicalAddr) (pc : d.pc = .cancelled)
      (iterates : order.isPerm d.tasks.peer.sessions.keys) :
      Moves d (.snapshot order) { d with
        pc := .closing (order.filterMap d.tasks.peer.sessions.lookup) }
  | closes (id : SessionId) (rest : List SessionId) (s : Session K)
      (pc : d.pc = .closing (id :: rest)) (present : d.tasks.peer.sessions.object? id = some s) :
      Moves d .close { d with
        tasks := { d.tasks with peer := d.tasks.peer.setSession id s.markClosed }
        pc := .marked id rest }
  | reads (id : SessionId) (rest : List SessionId) (s : Session K) (pc : d.pc = .marked id rest)
      (present : d.tasks.peer.sessions.object? id = some s) :
      Moves d .read { d with pc := .reading id s.inner.convId rest }
  | resets (socket : Socket) (id : SessionId) (conv : UInt32) (rest : List SessionId)
      (s : Session K) (pc : d.pc = .reading id conv rest)
      (present : d.tasks.peer.sessions.object? id = some s) :
      Moves d (.reset socket) { d with
        tasks := { d.tasks with peer := d.tasks.peer.sendReset conv s.peerAddr socket }
        pc := .closing rest }
  | joins (pc : d.pc = .closing []) (recvLeft : d.recvLoop = .exited)
      (updLeft : d.updLoop = .exited) : Moves d .join { d with pc := .returned }

theorem taskStep_runs {d d' : Shutdown K} {label : TaskStep}
    (taken : d.taskStep label = some d') : d.Runs label d' := by
  have calls : label.actor = .api → (if d.pc = .running then
      (d.tasks.step label).map fun tasks => { d with tasks } else none) = some d' →
      d.Runs label d' := by
    intro api taken
    split at taken
    · rename_i running
      obtain ⟨tasks, moved, rfl⟩ := Option.map_eq_some_iff.mp taken
      exact .calls label tasks api running moved
    · cases taken
  cases label with
  | arrive data src clock socket =>
      simp only [taskStep] at taken
      split at taken
      · rename_i entered
        obtain ⟨tasks, moved, rfl⟩ := Option.map_eq_some_iff.mp taken
        exact .arrives data src clock socket tasks entered moved
      · cases taken
  | tick nowMs nowEpoch =>
      simp only [taskStep] at taken
      split at taken
      · rename_i entered
        obtain ⟨tasks, moved, rfl⟩ := Option.map_eq_some_iff.mp taken
        exact .ticks nowMs nowEpoch tasks entered moved
      · cases taken
  | recv clock socket =>
      obtain ⟨tasks, moved, rfl⟩ := Option.map_eq_some_iff.mp taken
      exact .handles clock socket tasks moved
  | scan order =>
      obtain ⟨tasks, moved, rfl⟩ := Option.map_eq_some_iff.mp taken
      exact .begins order tasks moved
  | upd now socket =>
      obtain ⟨tasks, moved, rfl⟩ := Option.map_eq_some_iff.mp taken
      exact .scans now socket tasks moved
  | call => exact calls rfl taken
  | advance => exact calls rfl taken
  | cancel => exact calls rfl taken
  | disconnect => exact calls rfl taken
  | take => exact calls rfl taken

theorem step_moves {d d' : Shutdown K} {label : ShutdownStep} (taken : d.step label = some d') :
    d.Moves label d' := by
  unfold step at taken
  split at taken
  · exact .runs _ _ (taskStep_runs taken)
  · split at taken
    · rename_i allowed
      obtain rfl := Option.some.inj taken
      exact .looksRecv allowed.1 allowed.2
    · cases taken
  · split at taken
    · rename_i allowed
      obtain rfl := Option.some.inj taken
      exact .looksUpd allowed.1 allowed.2
    · cases taken
  · split at taken
    · rename_i allowed
      obtain rfl := Option.some.inj taken
      exact .cancels allowed.1 allowed.2
    · cases taken
  · rename_i order
    split at taken
    · rename_i allowed
      obtain rfl := Option.some.inj taken
      exact .snapshots order allowed.1 allowed.2
    · cases taken
  · split at taken
    · rename_i id rest pc
      obtain ⟨s, present, rfl⟩ := Option.map_eq_some_iff.mp taken
      exact .closes id rest s pc present
    · cases taken
  · split at taken
    · rename_i id rest pc
      obtain ⟨s, present, rfl⟩ := Option.map_eq_some_iff.mp taken
      exact .reads id rest s pc present
    · cases taken
  · rename_i socket
    split at taken
    · rename_i id conv rest pc
      obtain ⟨s, present, rfl⟩ := Option.map_eq_some_iff.mp taken
      exact .resets socket id conv rest s pc present
    · cases taken
  · split at taken
    · rename_i allowed
      obtain rfl := Option.some.inj taken
      exact .joins allowed.1 allowed.2.1 allowed.2.2
    · cases taken

end Shutdown

/-- Every interleaving of the tasks, the calls that end before `shutdown()`, and
`shutdown()`. -/
def shutdownMachine (K : Type) [Kcp K] (incarnation : UInt64) (config : KcpConfig) :
    Machine (Shutdown K) ShutdownStep where
  start := ⟨.start incarnation config, .top, .top, .running, 0⟩
  step := Shutdown.step

/-- The number of RESETs for a conversation submitted to an address. -/
def resetsTo (out : List Outgoing) (dest : SocketAddr) (conv : UInt32) : Nat :=
  out.countP fun o => o.bytes = encodeControl .reset conv ∧ o.dest = dest

/-- The sessions of the snapshot whose conversation id has still to be read. -/
def ShutdownPc.unread : ShutdownPc → Option (List SessionId)
  | .running => none
  | .cancelled => none
  | .closing rest => some rest
  | .marked id rest => some (id :: rest)
  | .reading _ _ rest => some rest
  | .returned => some []

/-- The sessions that have still to be marked closed. -/
def ShutdownPc.rest : ShutdownPc → List SessionId
  | .closing rest => rest
  | .marked _ rest => rest
  | .reading _ _ rest => rest
  | _ => []

theorem ShutdownPc.unread_cases {pc : ShutdownPc} {unread : List SessionId} {id : SessionId}
    (isUnread : pc.unread = some unread) (mem : id ∈ unread) :
    id ∈ pc.rest ∨ pc = .marked id pc.rest := by
  cases pc with
  | running => cases isUnread
  | cancelled => cases isUnread
  | closing rest =>
      cases isUnread
      exact Or.inl mem
  | marked first rest =>
      cases isUnread
      rcases List.mem_cons.mp mem with rfl | mem
      · exact Or.inr rfl
      · exact Or.inl mem
  | reading first conv rest =>
      cases isUnread
      exact Or.inl mem
  | returned =>
      cases isUnread
      cases mem

theorem resetsTo_append (out more : List Outgoing) (dest : SocketAddr) (conv : UInt32) :
    resetsTo (out ++ more) dest conv = resetsTo out dest conv + resetsTo more dest conv :=
  List.countP_append

namespace Shutdown

variable {K : Type}

/-- Every session in the map is closed, and its remote has been told so three
times, with the conversation id the session has now. -/
def Informed (d : Shutdown K) : Prop :=
  ∀ can id s, d.tasks.peer.sessions.find can = some (id, s) → s.closed = true ∧
    3 ≤ resetsTo (d.tasks.peer.outbox.drop d.mark) s.peerAddr s.inner.convId

/-- After the snapshot the SYN handler inserts no session, and adopts a
conversation id only for a session whose own has still to be read. -/
def settles (d : Shutdown K) (label : ShutdownStep) : Bool :=
  match d.pc.unread, label with
  | some _, .task (.recv ..) =>
      match d.tasks.recv with
      | .synCreated .. => false
      | _ => true
  | some unread, .task label => (d.tasks.adopts label).all fun id => id ∈ unread
  | _, _ => true

/-- Where a session of the map stands with respect to `shutdown()`. -/
inductive Handled (d : Shutdown K) (id : SessionId) (s : Session K) : Prop
  | pending (mem : id ∈ d.pc.rest)
  | marked (rest : List SessionId) (atMark : d.pc = .marked id rest) (closed : s.closed = true)
  | read (rest : List SessionId) (atRead : d.pc = .reading id s.inner.convId rest)
      (closed : s.closed = true)
  | done (closed : s.closed = true)
      (sent : 3 ≤ resetsTo (d.tasks.peer.outbox.drop d.mark) s.peerAddr s.inner.convId)

/-- The invariant of `shutdown()`. -/
structure Closing (d : Shutdown K) : Prop where
  mark : d.mark ≤ d.tasks.peer.outbox.length
  handled : d.pc.unread ≠ none → ∀ can id s, d.tasks.peer.sessions.find can = some (id, s) →
    d.Handled id s

variable {d d' : Shutdown K} {id : SessionId} {s s' : Session K}

/-- RESETs that have been submitted stay submitted. -/
theorem resetsTo_grown (tasks : Tasks K) {out : List Outgoing}
    (mark : d.mark ≤ d.tasks.peer.outbox.length)
    (grown : tasks.peer.outbox = d.tasks.peer.outbox ++ out) (dest : SocketAddr) (conv : UInt32) :
    resetsTo (tasks.peer.outbox.drop d.mark) dest conv =
      resetsTo (d.tasks.peer.outbox.drop d.mark) dest conv + resetsTo out dest conv := by
  rw [grown, List.drop_append_of_le_length mark, resetsTo_append]

/-- The session stays where it stands while `shutdown()` does, whatever the tasks
do, unless its conversation id changes after it was read. -/
theorem Handled.task (handled : d.Handled id s) (mark : d.mark ≤ d.tasks.peer.outbox.length)
    {tasks : Tasks K} {out : List Outgoing} (recvLoop updLoop : LoopPc)
    (grown : tasks.peer.outbox = d.tasks.peer.outbox ++ out)
    (closed : s.closed = true → s'.closed = true) (addr : s'.peerAddr = s.peerAddr)
    (conv : s'.inner.convId = s.inner.convId ∨
      ∃ unread, d.pc.unread = some unread ∧ id ∈ unread) :
    Handled ⟨tasks, recvLoop, updLoop, d.pc, d.mark⟩ id s' := by
  cases handled with
  | pending mem => exact .pending mem
  | marked rest atMark isClosed => exact .marked rest atMark (closed isClosed)
  | read rest atRead isClosed =>
      rcases conv with same | ⟨unread, isUnread, mem⟩
      · exact .read rest (by rw [same]; exact atRead) (closed isClosed)
      · rcases ShutdownPc.unread_cases isUnread mem with mem | atMark
        · exact .pending mem
        · exact .marked _ atMark (closed isClosed)
  | done isClosed sent =>
      rcases conv with same | ⟨unread, isUnread, mem⟩
      · refine .done (closed isClosed) ?_
        rw [addr, same]
        have more := resetsTo_grown tasks mark grown s.peerAddr s.inner.convId
        dsimp only
        omega
      · rcases ShutdownPc.unread_cases isUnread mem with mem | atMark
        · exact .pending mem
        · exact .marked _ atMark (closed isClosed)

theorem Handled.finished (handled : d.Handled id s)
    (ended : d.pc = .closing [] ∨ d.pc = .returned) : s.closed = true ∧
      3 ≤ resetsTo (d.tasks.peer.outbox.drop d.mark) s.peerAddr s.inner.convId := by
  cases handled with
  | pending mem =>
      rcases ended with pc | pc
      · rw [pc] at mem
        cases mem
      · rw [pc] at mem
        cases mem
  | marked rest atMark closed =>
      rw [atMark] at ended
      rcases ended with pc | pc
      · cases pc
      · cases pc
  | read rest atRead closed =>
      rw [atRead] at ended
      rcases ended with pc | pc
      · cases pc
      · cases pc
  | done closed sent => exact ⟨closed, sent⟩

theorem settles_adopts {label : TaskStep} {unread : List SessionId}
    (isUnread : d.pc.unread = some unread) (settled : d.settles (.task label) = true)
    (adopted : d.tasks.adopts label = some id) : id ∈ unread := by
  cases label with
  | arrive data src clock socket =>
      simp only [settles, isUnread, adopted, Option.all_some, decide_eq_true_eq] at settled
      exact settled
  | _ => cases adopted

/-- A task goes round its loop. -/
theorem Closing.loops (ok : d.Closing) (recvLoop updLoop : LoopPc) :
    Closing { d with recvLoop, updLoop } := by
  refine ⟨ok.mark, ?_⟩
  intro later can id s found
  exact (ok.handled later can id s found).task ok.mark recvLoop updLoop (List.append_nil _).symm
    (fun closed => closed) rfl (Or.inl rfl)

theorem Closing.snapshot (ok : d.Closing) {order : List CanonicalAddr}
    (all : order.isPerm d.tasks.peer.sessions.keys = true) :
    Closing { d with pc := .closing (order.filterMap d.tasks.peer.sessions.lookup) } := by
  refine ⟨ok.mark, ?_⟩
  intro _ can id s found
  have named := (Store.find_eq_some.mp found).1
  have key : can ∈ order :=
    (List.isPerm_iff.mp all).mem_iff.mpr (Store.mem_keys_iff.mpr (by simp [named]))
  exact .pending (List.mem_filterMap.mpr ⟨can, key, named⟩)

/-- `shutdown()` marks the next session closed. -/
theorem Closing.close (ok : d.Closing) {id₀ : SessionId} {rest : List SessionId} {s₀ : Session K}
    (pc : d.pc = .closing (id₀ :: rest)) (present : d.tasks.peer.sessions.object? id₀ = some s₀) :
    Closing { d with
      tasks := { d.tasks with peer := d.tasks.peer.setSession id₀ s₀.markClosed }
      pc := .marked id₀ rest } := by
  refine ⟨ok.mark, ?_⟩
  intro _ can id s found
  obtain ⟨named, present'⟩ := Store.find_eq_some.mp found
  by_cases here : id₀ = id
  · subst here
    obtain rfl := Option.some.inj
      ((Peer.object?_setSession d.tasks.peer s₀.markClosed present).symm.trans present')
    exact .marked rest rfl rfl
  · have found₀ : d.tasks.peer.sessions.find can = some (id, s) := by
      refine Store.find_eq_some.mpr ⟨(Store.lookup_modify ..).symm.trans named, ?_⟩
      exact (Store.object?_modify_ne _ _ here).symm.trans present'
    cases ok.handled (by rw [pc]; nofun) can id s found₀ with
    | pending mem =>
        rw [pc] at mem
        exact .pending ((List.mem_cons.mp mem).resolve_left (Ne.symm here))
    | marked rest' atMark closed =>
        rw [pc] at atMark
        cases atMark
    | read rest' atRead closed =>
        rw [pc] at atRead
        cases atRead
    | done closed sent => exact .done closed sent

theorem Closing.read (ok : d.Closing) {id₀ : SessionId} {rest : List SessionId} {s₀ : Session K}
    (pc : d.pc = .marked id₀ rest) (present : d.tasks.peer.sessions.object? id₀ = some s₀) :
    Closing { d with pc := .reading id₀ s₀.inner.convId rest } := by
  refine ⟨ok.mark, ?_⟩
  intro _ can id s found
  cases ok.handled (by rw [pc]; nofun) can id s found with
  | pending mem =>
      rw [pc] at mem
      exact .pending mem
  | marked rest' atMark closed =>
      rw [pc] at atMark
      cases atMark
      obtain rfl := Option.some.inj (present.symm.trans (Store.find_eq_some.mp found).2)
      exact .read rest rfl closed
  | read rest' atRead closed =>
      rw [pc] at atRead
      cases atRead
  | done closed sent => exact .done closed sent

/-- The three RESETs are submitted. -/
theorem Closing.reset (ok : d.Closing) {id₀ : SessionId} {conv : UInt32} {rest : List SessionId}
    {s₀ : Session K} (socket : Socket) (pc : d.pc = .reading id₀ conv rest)
    (present : d.tasks.peer.sessions.object? id₀ = some s₀) :
    Closing { d with
      tasks := { d.tasks with peer := d.tasks.peer.sendReset conv s₀.peerAddr socket }
      pc := .closing rest } := by
  have grown : (d.tasks.peer.sendReset conv s₀.peerAddr socket).outbox = d.tasks.peer.outbox ++
      (List.replicate 3 (socket.submit (encodeControl .reset conv) s₀.peerAddr)).map
        fun m => ⟨m, none⟩ := rfl
  have counted := resetsTo_grown
    { d.tasks with peer := d.tasks.peer.sendReset conv s₀.peerAddr socket } ok.mark grown
  refine ⟨?_, ?_⟩
  · dsimp only
    rw [grown, List.length_append]
    exact ok.mark.trans (Nat.le_add_right ..)
  · intro _ can id s found
    cases ok.handled (by rw [pc]; nofun) can id s found with
    | pending mem =>
        rw [pc] at mem
        exact .pending mem
    | marked rest' atMark closed =>
        rw [pc] at atMark
        cases atMark
    | read rest' atRead closed =>
        rw [pc] at atRead
        cases atRead
        obtain rfl := Option.some.inj (present.symm.trans (Store.find_eq_some.mp found).2)
        refine .done closed ?_
        dsimp only
        rw [counted]
        refine Nat.le_add_left_of_le ?_
        simp [resetsTo, Socket.submit]
    | done closed sent =>
        refine .done closed ?_
        dsimp only
        rw [counted]
        exact sent.trans (Nat.le_add_right ..)

variable [Kcp K]

/-- What a step of a task leaves of `shutdown()`, which no call runs beside. -/
theorem Runs.task {label : TaskStep} (runs : d.Runs label d') :
    ∃ tasks recvLoop updLoop, d.tasks.step label = some tasks ∧
      d' = ⟨tasks, recvLoop, updLoop, d.pc, d.mark⟩ ∧
      (d.pc.unread ≠ none → label.actor ≠ .api) := by
  cases runs with
  | arrives data src clock socket tasks entered moved =>
      exact ⟨tasks, _, _, moved, rfl, fun _ => by rintro ⟨⟩⟩
  | ticks nowMs nowEpoch tasks entered moved =>
      exact ⟨tasks, _, _, moved, rfl, fun _ => by rintro ⟨⟩⟩
  | handles clock socket tasks moved => exact ⟨tasks, _, _, moved, rfl, fun _ => by rintro ⟨⟩⟩
  | begins order tasks moved => exact ⟨tasks, _, _, moved, rfl, fun _ => by rintro ⟨⟩⟩
  | scans now socket tasks moved => exact ⟨tasks, _, _, moved, rfl, fun _ => by rintro ⟨⟩⟩
  | calls label tasks api running moved =>
      refine ⟨tasks, _, _, moved, rfl, fun later => ?_⟩
      rw [running] at later
      exact absurd rfl later

/-- A session of the map after a background step that inserts none was in the map
before it, with the same address and closed if it was. -/
theorem found_before {n n' : Tasks K} {label : TaskStep} (taken : n.step label = some n')
    (background : label.actor ≠ .api)
    (uncreated : label.actor = .recv → ∀ src conv, n.recv ≠ .synCreated src conv)
    {can : CanonicalAddr} (found : n'.peer.sessions.find can = some (id, s')) :
    ∃ s, n.peer.sessions.find can = some (id, s) ∧ s'.peerAddr = s.peerAddr ∧
      (s.closed = true → s'.closed = true) := by
  have step := Tasks.step_board taken
  obtain ⟨named, present⟩ := Store.find_eq_some.mp found
  have before : n.peer.sessions.lookup can = some id :=
    step.lookup_old background uncreated named
  obtain ⟨s, found₀⟩ := Store.find_of_lookup before
  obtain ⟨v, visible, addr, closed⟩ :=
    step.evolves.object id s.view (Tasks.object?_board (Store.find_eq_some.mp found₀).2)
  obtain rfl := Option.some.inj (visible.symm.trans (Tasks.object?_board present))
  exact ⟨s, found₀, addr, closed⟩

theorem settles_uncreated {label : TaskStep} {unread : List SessionId} {tasks : Tasks K}
    (isUnread : d.pc.unread = some unread) (settled : d.settles (.task label) = true)
    (moved : d.tasks.step label = some tasks) (handler : label.actor = .recv) (src : SocketAddr)
    (conv : UInt32) : d.tasks.recv ≠ .synCreated src conv := by
  intro created
  cases label with
  | arrive data src clock socket =>
      simp only [Tasks.step, created] at moved
      cases moved
  | recv clock socket =>
      simp only [settles, isUnread, created] at settled
      cases settled
  | _ => cases handler

theorem Closing.task (ok : d.Closing) {label : TaskStep}
    (settled : d.settles (.task label) = true) (runs : d.Runs label d') : d'.Closing := by
  obtain ⟨tasks, recvLoop, updLoop, moved, rfl, background⟩ := runs.task
  obtain ⟨out, grown, _⟩ := Tasks.step_greets moved
  refine ⟨?_, ?_⟩
  · dsimp only
    rw [grown, List.length_append]
    exact ok.mark.trans (Nat.le_add_right ..)
  · intro later can id s' found
    obtain ⟨unread, isUnread⟩ : ∃ unread, d.pc.unread = some unread :=
      Option.ne_none_iff_exists'.mp later
    obtain ⟨s, found₀, addr, closed⟩ :=
      found_before moved (background later) (settles_uncreated isUnread settled moved) found
    refine (ok.handled later can id s found₀).task ok.mark recvLoop updLoop grown closed addr ?_
    by_cases adopted : d.tasks.adopts label = some id
    · exact Or.inr ⟨unread, isUnread, settles_adopts isUnread settled adopted⟩
    · obtain ⟨s₁, present₁, same⟩ :=
        Tasks.conv_kept moved (Store.find_eq_some.mp found₀).2 adopted
      obtain rfl := Option.some.inj (present₁.symm.trans (Store.find_eq_some.mp found).2)
      exact Or.inl same

theorem Closing.step (ok : d.Closing) {label : ShutdownStep} (settled : d.settles label = true)
    (taken : d.step label = some d') : d'.Closing := by
  cases step_moves taken with
  | runs label d' next => exact ok.task settled next
  | looksRecv inside idle => exact ok.loops d.look d.updLoop
  | looksUpd inside idle => exact ok.loops d.recvLoop d.look
  | cancels running ended => exact ⟨Nat.le_refl _, fun later => absurd rfl later⟩
  | snapshots order pc iterates => exact ok.snapshot iterates
  | closes id rest s pc present => exact ok.close pc present
  | reads id rest s pc present => exact ok.read pc present
  | resets socket id conv rest s pc present => exact ok.reset socket pc present
  | joins pc recvLeft updLeft =>
      refine ⟨ok.mark, ?_⟩
      intro _ can id s found
      have handled := ok.handled (by rw [pc]; rintro ⟨⟩) can id s found
      obtain ⟨closed, sent⟩ := handled.finished (Or.inl pc)
      exact .done closed sent

end Shutdown

/-- When `shutdown()` has returned, every session in the map is closed and its
remote informed, in any interleaving in which, after the snapshot, the SYN handler
inserts no session and adopts no conversation id for a session whose own has been
read. -/
theorem shutdown_informs_remotes (K : Type) [Kcp K] (incarnation : UInt64) (config : KcpConfig)
    (d : Shutdown K)
    (reached : (shutdownMachine K incarnation config).Reach (fun d label => d.settles label) d)
    (returned : d.pc = .returned) : d.Informed := by
  have ok : d.Closing := by
    refine reached.invariant (P := Shutdown.Closing) ⟨Nat.le_refl _, ?_⟩ ?_
    · exact fun later => absurd rfl later
    · intro before label after ok settled taken
      exact ok.step settled taken
  intro can id s found
  exact (ok.handled (by rw [returned]; rintro ⟨⟩) can id s found).finished (Or.inr returned)

/-- A `send()` call to the remote, from its start to its end. -/
def ShutdownStep.sent : List ShutdownStep :=
  [.task (.call .remote [1]), .task .advanceSample, .task .advanceSample, .task .advanceSample,
    .task .advanceSample, .task .advanceSample, .task .advanceSample, .task .advanceSample]

/-- A datagram received in the round before the cancellation makes the session
adopt 20 after it is marked closed; the RESETs then carry 20. -/
theorem shutdown_informs_remotes_adopting :
    ∃ d : Shutdown SampleKcp, d.pc = .returned ∧
      d.tasks.peer.sessions.keys = [canonicalize .remote] ∧
      (d.tasks.peer.sessions.object? 0).map (fun s => s.inner.convId) = some 20 ∧
      d.Informed := by
  have run : ((shutdownMachine SampleKcp 1 .default).exec (fun d label => d.settles label)
      (shutdownMachine SampleKcp 1 .default).start
      (ShutdownStep.sent ++ [.lookRecv, .cancel, .snapshot [canonicalize .remote], .close,
        .task (.arriveSample (encodeControl .syn 20)), .read, .reset .sample, .task .recvSample,
        .lookRecv, .lookUpd, .join])).any
      (fun d => decide (d.pc = .returned ∧
        d.tasks.peer.sessions.keys = [canonicalize .remote] ∧
        (d.tasks.peer.sessions.object? 0).map (fun s => s.inner.convId) = some 20)) = true := by
    decide +kernel
  obtain ⟨d, reached, checked⟩ := Machine.Reach.exec_any _ run
  obtain ⟨returned, keys, conv⟩ := of_decide_eq_true checked
  exact ⟨d, returned, keys, conv,
    shutdown_informs_remotes SampleKcp 1 .default d reached returned⟩

/-- A SYN handler that has sent its SYN_ACK inserts a session after the snapshot.
And a datagram received in the round before the cancellation makes a session adopt
20 after its RESETs went out with 10. -/
theorem shutdown_leaves_remote_uninformed :
    (∃ d : Shutdown SampleKcp, (shutdownMachine SampleKcp 1 .default).Reach Machine.always d ∧
      d.pc = .returned ∧ ∃ can id s, d.tasks.peer.sessions.find can = some (id, s) ∧
        s.closed = false ∧ ¬ d.Informed) ∧
    ∃ d : Shutdown SampleKcp, (shutdownMachine SampleKcp 1 .default).Reach Machine.always d ∧
      d.pc = .returned ∧ ∃ can id s, d.tasks.peer.sessions.find can = some (id, s) ∧
        resetsTo d.tasks.peer.outbox s.peerAddr s.inner.convId = 0 ∧ ¬ d.Informed := by
  have inserted : ((shutdownMachine SampleKcp 1 .default).exec Machine.always
      (shutdownMachine SampleKcp 1 .default).start
      [.lookRecv, .task (.arriveSample (encodeControl .syn 20)), .task .recvSample,
        .task .recvSample, .cancel, .snapshot [], .task .recvSample, .lookRecv, .lookUpd,
        .join]).any
      (fun d => decide (d.pc = .returned) &&
        (d.tasks.peer.sessions.find (canonicalize .remote)).any fun found => !found.2.closed) =
      true := by
    decide +kernel
  have adopted : ((shutdownMachine SampleKcp 1 .default).exec Machine.always
      (shutdownMachine SampleKcp 1 .default).start
      (ShutdownStep.sent ++ [.lookRecv, .cancel, .snapshot [canonicalize .remote], .close, .read,
        .reset .sample, .task (.arriveSample (encodeControl .syn 20)), .task .recvSample,
        .lookRecv, .lookUpd, .join])).any
      (fun d => decide (d.pc = .returned) &&
        (d.tasks.peer.sessions.find (canonicalize .remote)).any fun found =>
          resetsTo d.tasks.peer.outbox found.2.peerAddr found.2.inner.convId == 0) = true := by
    decide +kernel
  refine ⟨?_, ?_⟩
  · obtain ⟨d, reached, checked⟩ := Machine.Reach.exec_any _ inserted
    obtain ⟨returned, isOpen⟩ := Bool.and_eq_true_iff.mp checked
    obtain ⟨⟨id, s⟩, found, isOpen⟩ := (Option.any_eq_true ..).mp isOpen
    have isOpen : s.closed = false := by simpa using isOpen
    refine ⟨d, reached, of_decide_eq_true returned, canonicalize .remote, id, s, found, isOpen, ?_⟩
    intro informed
    rw [(informed _ id s found).1] at isOpen
    cases isOpen
  · obtain ⟨d, reached, checked⟩ := Machine.Reach.exec_any _ adopted
    obtain ⟨returned, none⟩ := Bool.and_eq_true_iff.mp checked
    obtain ⟨⟨id, s⟩, found, none⟩ := (Option.any_eq_true ..).mp none
    have none : resetsTo d.tasks.peer.outbox s.peerAddr s.inner.convId = 0 := by simpa using none
    refine ⟨d, reached, of_decide_eq_true returned, canonicalize .remote, id, s, found, none, ?_⟩
    intro informed
    have sent := (informed _ id s found).2
    have fewer : resetsTo (d.tasks.peer.outbox.drop d.mark) s.peerAddr s.inner.convId ≤
        resetsTo d.tasks.peer.outbox s.peerAddr s.inner.convId :=
      (List.drop_sublist ..).countP_le
    omega

end KcpPeer
