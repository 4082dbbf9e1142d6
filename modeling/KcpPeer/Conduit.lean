import KcpPeer.Calls
import KcpPeer.Quiescence

set_option autoImplicit false

namespace KcpPeer

/-- What is asked of a session from outside: a KcpData datagram comes in for it, or a
`send()` that has found it open and alive hands it a payload. -/
inductive Demand where
  | heard (id : SessionId) (payload : Bytes)
  | said (id : SessionId) (data : Bytes)

def Demand.heardBy (id : SessionId) : Demand → Option Bytes
  | .heard session payload => if session = id then some payload else none
  | .said .. => none

def Demand.saidTo (id : SessionId) : Demand → Option Bytes
  | .heard .. => none
  | .said session data => if session = id then some data else none

/-- The payload for a session that the receive task has still to feed. -/
def RecvPc.unread (id : SessionId) : RecvPc → List Bytes
  | .kcpFound session payload | .kcpStamped session payload =>
      if session = id then [payload] else []
  | _ => []

/-- The messages of a session that the receive task has still to append. -/
def RecvPc.inHand (id : SessionId) : RecvPc → List Bytes
  | .kcpDrained session msgs => if session = id then msgs else []
  | _ => []

namespace Tasks

variable {K : Type} [Kcp K]

/-- What a step asks of the sessions. -/
def demands (n : Tasks K) : TaskStep → List Demand
  | .arrive data src _ _ =>
      match splitPacket data with
      | some (.kcpData, payload) =>
          (n.peer.sessions.lookup (canonicalize src)).toList.map fun id => .heard id payload
      | _ => []
  | .advance index _ _ _ =>
      match n.calls[index]? with
      | some (.opened id data) =>
          if (n.peer.sessions.object? id).any Session.alive then [.said id data] else []
      | _ => []
  | _ => []

/-- A step does for a session what is asked of it, or has it still in hand. -/
def Serves (n n' : Tasks K) (id : SessionId) (more : List Demand) : Prop :=
  ∃ msgs fed sent, n.peer.Turn n'.peer id msgs fed sent ∧
    n'.recv.inHand id = n.recv.inHand id ++ msgs ∧
    fed ++ n'.recv.unread id = n.recv.unread id ++ more.filterMap (Demand.heardBy id) ∧
    sent = more.filterMap (Demand.saidTo id)

variable {n n' : Tasks K} {id : SessionId}

theorem Serves.quiet (turn : n.peer.Turn n'.peer id [] [] [])
    (inHand : n'.recv.inHand id = n.recv.inHand id)
    (unread : n'.recv.unread id = n.recv.unread id) : n.Serves n' id [] :=
  ⟨[], [], [], turn, inHand.trans (List.append_nil _).symm,
    (List.nil_append _).trans (unread.trans (List.append_nil _).symm), rfl⟩

/-- A step of the receive task from one point of its code to another. -/
theorem Serves.goes {pc pc' : RecvPc} (before : n.recv = pc) (after : n'.recv = pc')
    (turn : n.peer.Turn n'.peer id [] [] []) (inHand : pc'.inHand id = pc.inHand id)
    (unread : pc'.unread id = pc.unread id) : n.Serves n' id [] :=
  .quiet turn (by rw [before, after, inHand]) (by rw [before, after, unread])

/-- A step of another task than the receive task. -/
theorem Serves.aside (turn : n.peer.Turn n'.peer id [] [] []) (recv : n'.recv = n.recv) :
    n.Serves n' id [] :=
  .quiet turn (by rw [recv]) (by rw [recv])

theorem synAcknowledge_turn (p : Peer K) (result : SynResult) (socket : Socket)
    (id : SessionId) : p.Turn (p.synAcknowledge result socket) id [] [] [] := by
  unfold Peer.synAcknowledge
  split
  · exact (Peer.Turn.same p id).answer _
  · exact .same p id

/-- The receive task goes on, but for the step that appends what it has in hand. -/
theorem Handles.serves (law : RecvQueue K) {clock : Clock} {socket : Socket}
    (next : n.Handles clock socket n') (id : SessionId)
    (kept : ∀ session msgs, n.recv ≠ .kcpDrained session msgs) : n.Serves n' id [] := by
  cases next with
  | answered src payload conv unknown =>
      exact .goes unknown rfl ((Peer.Turn.same n.peer id).answer _) rfl rfl
  | unanswered src payload unknown =>
      exact .goes unknown rfl (.same n.peer id) rfl rfl
  | stamped session payload s found present =>
      exact .goes found rfl (.marks (s.touch clock.epochMs) present rfl rfl id) rfl rfl
  | refused session payload s stamped present =>
      obtain ⟨calls, turn, _⟩ := s.input_turn payload socket
      refine ⟨_, _, _, Peer.Turn.writes present turn id, ?_, ?_, ?_⟩
      · simp [stamped, RecvPc.inHand]
      · simp [stamped, RecvPc.unread]
      · simp
  | fed session payload s stamped present =>
      obtain ⟨calls, turn, _⟩ := s.input_turn payload socket
      refine ⟨_, _, _, Peer.Turn.writes present turn id, ?_, ?_, ?_⟩
      · simp [stamped, RecvPc.inHand]
      · simp [stamped, RecvPc.unread]
      · simp
  | dry session s fed present nothing =>
      obtain ⟨ok, calls, turn, _⟩ := Session.tryRecvAll_turn law s socket
      refine ⟨_, _, _, Peer.Turn.writes present turn id, ?_, ?_, ?_⟩
      · simp [fed, nothing ok, RecvPc.inHand]
      · simp [fed, RecvPc.unread]
      · simp
  | drained session s fed present =>
      obtain ⟨_, calls, turn, _⟩ := Session.tryRecvAll_turn law s socket
      refine ⟨_, _, _, Peer.Turn.writes present turn id, ?_, ?_, ?_⟩
      · simp [fed, RecvPc.inHand]
      · simp [fed, RecvPc.unread]
      · simp
  | appended session msgs s drained => exact absurd drained (kept session msgs)
  | notified pushed =>
      exact .goes pushed rfl (.nothing rfl rfl rfl rfl) rfl rfl
  | creates src conv result decided =>
      exact .goes decided rfl (synAcknowledge_turn n.peer result socket id) rfl rfl
  | acknowledged src conv result decided =>
      exact .goes decided rfl (synAcknowledge_turn n.peer result socket id) rfl rfl
  | created src conv creating =>
      exact .goes creating rfl ((Peer.Turn.same n.peer id).answer _) rfl rfl
  | inserted src conv created =>
      exact .goes created rfl ((Peer.Turn.insert n.peer _ _ conv rfl id).emit _ _) rfl rfl
  | isMatched src conv session s found =>
      exact .goes found rfl (.same n.peer id) rfl rfl
  | unmatched src conv session found =>
      exact .goes found rfl (.same n.peer id) rfl rfl
  | removed src conv session isMatched =>
      exact .goes isMatched rfl (.nothing rfl rfl rfl rfl) rfl rfl
  | closed src session s removed present =>
      exact .goes removed rfl (.marks s.markClosed present rfl rfl id) rfl rfl
  | announced src session closed =>
      exact .goes closed rfl ((Peer.Turn.same n.peer id).emit _ _) rfl rfl

theorem arrive_serves {data : Bytes} {src : SocketAddr} {clock : Clock} {socket : Socket}
    (idle : n.recv = .idle) (id : SessionId) :
    n.Serves (n.arrive data src clock socket) id (n.demands (.arrive data src clock socket)) := by
  have ignored : n.Serves n id [] := .aside (.same n.peer id) rfl
  cases kind : splitPacket data with
  | none =>
      simp only [arrive, demands, kind]
      exact ignored
  | some packet =>
      obtain ⟨typ, payload⟩ := packet
      cases typ with
      | kcpData =>
          simp only [arrive, demands, kind]
          cases named : n.peer.sessions.lookup (canonicalize src) with
          | none => exact .goes idle rfl (.same n.peer id) rfl rfl
          | some session =>
              refine ⟨[], [], [], .same n.peer id, ?_, ?_, rfl⟩
              · simp [idle, RecvPc.inHand]
              · by_cases own : session = id
                · simp [idle, own, RecvPc.unread, Demand.heardBy]
                · simp [idle, own, RecvPc.unread, Demand.heardBy]
      | syn =>
          simp only [arrive, demands, kind]
          split
          · exact ignored
          · split
            · exact ignored
            · exact .goes idle rfl (Peer.synDecide_turn ..) rfl rfl
      | synAck =>
          simp only [arrive, demands, kind]
          split
          · exact ignored
          · exact .aside (Peer.synAckAccept_turn ..) rfl
      | reset =>
          simp only [arrive, demands, kind]
          split
          · exact ignored
          · split
            · exact .goes idle rfl (.same n.peer id) rfl rfl
            · exact ignored

/-- A SYN that a session submits itself. -/
theorem greets_turn {p : Peer K} {session : SessionId} {s : Session K} (s' : Session K)
    (conv : UInt32) (socket : Socket) (present : p.sessions.object? session = some s)
    (kcp : s'.inner.kcp = s.inner.kcp) (addr : s'.peerAddr = s.peerAddr) (id : SessionId) :
    p.Turn ((p.setSession session s').submit (some session) [s.synSubmission conv socket]) id
      [] [] [] :=
  (Peer.Turn.marks s' present kcp addr id).andThen _ rfl (Peer.packetsOf_syn ..) rfl rfl

theorem Scans.serves {now : UInt64} {socket : Socket} (next : n.Scans now socket n')
    (id : SessionId) : n.Serves n' id [] := by
  cases next with
  | walks => exact .aside (.same n.peer id) rfl
  | reads => exact .aside (.same n.peer id) rfl
  | judges => exact .aside (.same n.peer id) rfl
  | ends => exact .aside (.same n.peer id) rfl
  | stops => exact .aside (.same n.peer id) rfl
  | updates scan can rest session s pc scanning keys found =>
      obtain ⟨calls, turn, _⟩ := s.update_turn scan.nowMs socket
      have called := Peer.Turn.calls (Store.find_eq_some.mp found).2 turn id
      simp only [ite_self] at called
      exact .aside called rfl
  | resends scan can rest session s conv pc scanning keys found =>
      have present := (Store.find_eq_some.mp found).2
      refine .aside ?_ rfl
      have unsent : n.peer.Turn ((n.peer.setSession session s).submit (some session) []) id
          [] [] [] :=
        (Peer.Turn.marks s present rfl rfl id).andThen _ rfl (Peer.packetsOf_submit_nothing ..) rfl
          rfl
      unfold Session.retrySyn
      split
      · exact unsent
      · split
        · exact unsent
        · exact greets_turn { s with synSentAt := now, synRetries := s.synRetries + 1 } conv socket
            present rfl rfl id
  | prunes can judged rest horizon removing =>
      exact .aside (Peer.prune_turn n.peer socket can id) rfl

theorem Advances.serves {index : Nat} {draw : DrawnConv} {clock : Clock} {socket : Socket}
    {pc : SendPc} (reads : n.calls[index]? = some pc)
    (next : n.Advances index draw clock socket pc n') (id : SessionId) :
    n.Serves n' id (n.demands (.advance index draw clock socket)) := by
  simp only [demands, reads]
  cases next with
  | finds pc peer session data seeks =>
      rcases seeks with rfl | rfl | rfl
      · exact .aside (.same n.peer id) rfl
      · exact .aside (.same n.peer id) rfl
      · exact .aside (.same n.peer id) rfl
  | misses => exact .aside (.same n.peer id) rfl
  | creates => exact .aside (.same n.peer id) rfl
  | inserts => exact .aside (Peer.Turn.insert n.peer _ _ draw.val rfl id) rfl
  | reads => exact .aside (.same n.peer id) rfl
  | greets session conv data s present =>
      refine .aside (greets_turn _ conv socket present ?_ ?_ id) rfl
      · unfold Session.sendSyn
        split <;> rfl
      · unfold Session.sendSyn
        split <;> rfl
  | closed => exact .aside (.same n.peer id) rfl
  | opens => exact .aside (.same n.peer id) rfl
  | queues session data s present =>
      obtain ⟨calls, turn, _⟩ := s.queueData_turn data clock.currentMs socket
      refine ⟨_, _, _, Peer.Turn.calls present turn id, ?_, ?_, ?_⟩
      · simp [setCall]
      · cases s.alive <;> simp [present, setCall, Demand.heardBy]
      · by_cases own : session = id
        · subst own
          cases alive : s.alive <;> simp [present, alive, Demand.saidTo]
        · cases alive : s.alive <;> simp [present, alive, own, Demand.saidTo]

/-- The books of the session object `id`, whose contents are `s`: some sequence of calls took
its instance from the newly configured one to where it is, and every packet that they wrote
was submitted to its remote, every message that they took was appended or is in hand, every
datagram was fed or is still unread, and every payload was sent, all in order. -/
def Carries (n : Tasks K) (config : KcpConfig) (noted : List Demand) (id : SessionId)
    (s : Session K) : Prop :=
  ∃ (conv : UInt32) (calls : List KcpCall) (bufs msgs fed : List Bytes),
    Kcp.Served (config.applyTo (Kcp.new conv)) s.inner.kcp calls bufs msgs fed
        (noted.filterMap (Demand.saidTo id)) ∧
      n.peer.packetsOf id = bufs.map (fun buf => (s.peerAddr, buf)) ∧
      n.peer.messagesOf id ++ (n.recv.inHand id).map (fun data => ⟨s.peerAddr, data⟩) =
        msgs.map (fun data => ⟨s.peerAddr, data⟩) ∧
      fed ++ n.recv.unread id = noted.filterMap (Demand.heardBy id)

variable {config : KcpConfig} {noted : List Demand}

theorem Carries.serve {s : Session K} {more : List Demand} (ok : n.Carries config noted id s)
    (present : n.peer.sessions.object? id = some s) (serves : n.Serves n' id more) :
    ∃ s', n'.peer.sessions.object? id = some s' ∧ n'.Carries config (noted ++ more) id s' := by
  obtain ⟨conv, calls, bufs, msgs, fed, served, packets, messages, heard⟩ := ok
  obtain ⟨msgs', fed', sent', turn, inHand, unread, said⟩ := serves
  obtain ⟨s', calls', bufs', present', addr, later, wrote⟩ := turn.object s present
  refine ⟨s', present', conv, calls ++ calls', bufs ++ bufs', msgs ++ msgs', fed ++ fed', ?_, ?_,
    ?_, ?_⟩
  · rw [List.filterMap_append, ← said]
    exact served.trans later
  · rw [wrote, packets, addr, List.map_append]
  · rw [turn.messages, inHand, addr, List.map_append, List.map_append, ← List.append_assoc,
      messages]
  · rw [List.append_assoc, unread, ← List.append_assoc, heard, List.filterMap_append]

/-- What is in hand is appended. -/
theorem Carries.append {s : Session K} (ok : n.Carries config noted id s)
    (present : n.peer.sessions.object? id = some s) {session : SessionId} {msgs : List Bytes}
    {s₀ : Session K} (drained : n.recv = .kcpDrained session msgs)
    (present₀ : n.peer.sessions.object? session = some s₀) :
    Carries { n with peer := n.peer.appendData session s₀.peerAddr msgs, recv := .kcpAppended }
      config noted id s := by
  obtain ⟨conv, calls, bufs, took, fed, served, packets, messages, heard⟩ := ok
  refine ⟨conv, calls, bufs, took, fed, served, packets, ?_, ?_⟩
  · rw [← messages, Peer.messagesOf_appendData, drained]
    simp only [RecvPc.inHand, List.map_nil, List.append_nil]
    by_cases same : session = id
    · subst same
      obtain rfl := Option.some.inj (present₀.symm.trans present)
      simp only [↓reduceIte]
    · simp only [same, ↓reduceIte, List.map_nil]
  · rw [← heard, drained]
    rfl

/-- Nothing has been done for a session object that does not exist yet. -/
structure Blank (n : Tasks K) (noted : List Demand) (id : SessionId) : Prop where
  packets : n.peer.packetsOf id = []
  messages : n.peer.messagesOf id = []
  heard : noted.filterMap (Demand.heardBy id) = []
  said : noted.filterMap (Demand.saidTo id) = []

theorem Blank.serve {more : List Demand} (blank : n.Blank noted id)
    (absent : n.peer.sessions.object? id = none) (serves : n.Serves n' id more)
    (unasked : more.filterMap (Demand.heardBy id) = [] ∧
      more.filterMap (Demand.saidTo id) = []) : n'.Blank (noted ++ more) id := by
  obtain ⟨msgs, fed, sent, turn, _⟩ := serves
  refine ⟨?_, ?_, ?_, ?_⟩
  · exact (turn.unborn absent).1.trans blank.packets
  · exact turn.messages.trans blank.messages
  · rw [List.filterMap_append, blank.heard, unasked.1]
    rfl
  · rw [List.filterMap_append, blank.said, unasked.2]
    rfl

/-- A new session object starts with a newly configured instance. -/
theorem Blank.born {more : List Demand} (blank : n.Blank noted id)
    (absent : n.peer.sessions.object? id = none) (serves : n.Serves n' id more)
    (unasked : more.filterMap (Demand.heardBy id) = [] ∧
      more.filterMap (Demand.saidTo id) = [])
    (inHand : n.recv.inHand id = []) (unread : n.recv.unread id = []) {s : Session K}
    (present : n'.peer.sessions.object? id = some s) :
    n'.Carries n.peer.config (noted ++ more) id s := by
  have after := blank.serve absent serves unasked
  obtain ⟨msgs, fed, sent, turn, inHand', unread', _⟩ := serves
  obtain ⟨conv, new⟩ := turn.born absent s present
  rw [inHand, (turn.unborn absent).2] at inHand'
  rw [unread, unasked.1] at unread'
  refine ⟨conv, [], [], [], [], ?_, after.packets, ?_, ?_⟩
  · rw [new, after.said]
    exact .nothing _
  · rw [after.messages, inHand']
    rfl
  · rw [(List.append_eq_nil_iff.mp unread').2, after.heard]
    rfl

/-- Only what exists is asked of. -/
theorem demands_known {label : TaskStep} (absent : n.peer.sessions.object? id = none) :
    (n.demands label).filterMap (Demand.heardBy id) = [] ∧
      (n.demands label).filterMap (Demand.saidTo id) = [] := by
  have unnamed : ∀ can, n.peer.sessions.lookup can ≠ some id := by
    intro can named
    obtain ⟨s, present⟩ := Store.object?_of_lt (Store.lookup_lt named)
    rw [absent] at present
    cases present
  cases label with
  | arrive data src clock socket =>
      simp only [demands]
      split
      · cases named : n.peer.sessions.lookup (canonicalize src) with
        | none => exact ⟨rfl, rfl⟩
        | some session =>
            have other : session ≠ id := by
              rintro rfl
              exact unnamed _ named
            simp [Demand.heardBy, Demand.saidTo, other]
      · exact ⟨rfl, rfl⟩
  | advance index draw clock socket =>
      simp only [demands]
      split
      · rename_i session data opened
        split
        · rename_i living
          have other : session ≠ id := by
            rintro rfl
            rw [absent] at living
            cases living
          simp [Demand.heardBy, Demand.saidTo, other]
        · exact ⟨rfl, rfl⟩
      · exact ⟨rfl, rfl⟩
  | _ => exact ⟨rfl, rfl⟩

/-- Every step serves the sessions, but for the one that appends what is in hand. -/
theorem step_serves (law : RecvQueue K) {label : TaskStep} (taken : n.step label = some n') :
    (∀ id, n.Serves n' id (n.demands label)) ∨
      n.demands label = [] ∧ ∃ session msgs s₀, n.recv = .kcpDrained session msgs ∧
        n.peer.sessions.object? session = some s₀ ∧
        n' = { n with
          peer := n.peer.appendData session s₀.peerAddr msgs, recv := .kcpAppended } := by
  have still : ∀ {label : TaskStep} {m : Tasks K}, n.demands label = [] → m.peer = n.peer →
      m.recv = n.recv → ∀ id, n.Serves m id (n.demands label) := by
    intro label m none peer recv id
    rw [none]
    exact .aside (by rw [peer]; exact .same n.peer id) recv
  cases step_moves taken with
  | arrives data src clock socket idle n' first =>
      simp only [step, idle, ↓reduceIte, Option.some.injEq] at taken
      subst taken
      exact Or.inl fun id => arrive_serves idle id
  | handles clock socket n' next =>
      by_cases empty : ∀ session msgs, n.recv ≠ .kcpDrained session msgs
      · exact Or.inl fun id => next.serves law id empty
      · simp only [not_forall, not_not] at empty
        obtain ⟨session, msgs, drained⟩ := empty
        simp only [step, recvStep, drained] at taken
        obtain ⟨s₀, present, rfl⟩ := Option.map_eq_some_iff.mp taken
        exact Or.inr ⟨rfl, session, msgs, s₀, drained, present, rfl⟩
  | skips => exact Or.inl (still rfl rfl rfl)
  | ticks => exact Or.inl (still rfl rfl rfl)
  | begins => exact Or.inl (still rfl rfl rfl)
  | scans now socket n' next => exact Or.inl fun id => next.serves id
  | advances index draw clock socket pc reads n' next =>
      exact Or.inl fun id => next.serves reads id
  | calls => exact Or.inl (still rfl rfl rfl)
  | cancels => exact Or.inl (still rfl rfl rfl)
  | disconnects peer socket =>
      exact Or.inl fun id => .aside (Peer.disconnect_turn n.peer peer socket id) rfl
  | takes => exact Or.inl fun id => .aside (.nothing rfl rfl rfl rfl) rfl

/-- The payloads for which a `send()` on a session returned `Ok`. -/
def acceptedBy (n : Tasks K) (id : SessionId) : List Bytes :=
  n.accepted.filterMap fun entry => if entry.1 = id then some entry.2 else none

omit [Kcp K] in
theorem acceptedBy_congr (same : n'.accepted = n.accepted) (id : SessionId) :
    n'.acceptedBy id = n.acceptedBy id := by
  rw [acceptedBy, same, acceptedBy]

/-- A payload is accepted in the step in which it is sent. -/
theorem step_accepted {label : TaskStep} (taken : n.step label = some n') (id : SessionId) :
    ∃ more, n'.acceptedBy id = n.acceptedBy id ++ more ∧
      more.Sublist ((n.demands label).filterMap (Demand.saidTo id)) := by
  have still : n'.accepted = n.accepted → ∃ more, n'.acceptedBy id = n.acceptedBy id ++ more ∧
      more.Sublist ((n.demands label).filterMap (Demand.saidTo id)) := fun same =>
    ⟨[], (acceptedBy_congr same id).trans (List.append_nil _).symm, List.nil_sublist _⟩
  cases step_moves taken with
  | arrives data src clock socket idle n' first => cases first <;> exact still rfl
  | handles clock socket n' next => cases next <;> exact still rfl
  | scans now socket n' next => cases next <;> exact still rfl
  | advances index draw clock socket pc reads n' next =>
      cases next with
      | queues session data s present =>
          by_cases own : session = id
          · subst own
            cases alive : s.alive with
            | false =>
                refine still ?_
                have dead : Kcp.isDeadLink s.inner.kcp = true := by
                  simpa [Session.alive] using alive
                simp [setCall, Session.queueData, dead, Except.isOk, Except.toBool]
            | true =>
                have said : (n.demands (.advance index draw clock socket)).filterMap
                    (Demand.saidTo session) = [data] := by
                  simp [demands, reads, present, alive, Demand.saidTo]
                rw [said]
                simp only [acceptedBy, setCall]
                split
                · exact ⟨[data], by simp, List.Sublist.refl _⟩
                · exact ⟨[], (List.append_nil _).symm, List.nil_sublist _⟩
          · refine ⟨[], ?_, List.nil_sublist _⟩
            simp only [acceptedBy, setCall, List.append_nil]
            split
            · simp [own]
            · rfl
      | _ => exact still rfl
  | _ => exact still rfl

/-- What holds of all session objects along a run. -/
structure Conduits (n : Tasks K) (config : KcpConfig) (noted : List Demand) : Prop where
  grounded : n.Grounded
  configured : n.peer.config = config
  carries : ∀ id s, n.peer.sessions.object? id = some s → n.Carries config noted id s
  blank : ∀ id, n.peer.sessions.object? id = none → n.Blank noted id
  accepted : ∀ id, (n.acceptedBy id).Sublist (noted.filterMap (Demand.saidTo id))

omit [Kcp K] in
theorem Grounded.hands_empty (grounded : n.Grounded)
    (absent : n.peer.sessions.object? id = none) :
    n.recv.inHand id = [] ∧ n.recv.unread id = [] := by
  have free : n.recv.held ≠ some id := by
    intro held
    obtain ⟨s, present⟩ := Store.object?_of_lt (grounded.recv id held)
    rw [absent] at present
    cases present
  cases pc : n.recv with
  | kcpFound session payload =>
      have other : session ≠ id := fun same => free (by rw [pc, same]; rfl)
      exact ⟨rfl, if_neg other⟩
  | kcpStamped session payload =>
      have other : session ≠ id := fun same => free (by rw [pc, same]; rfl)
      exact ⟨rfl, if_neg other⟩
  | kcpDrained session msgs =>
      have other : session ≠ id := fun same => free (by rw [pc, same]; rfl)
      exact ⟨if_neg other, rfl⟩
  | _ => exact ⟨rfl, rfl⟩

theorem Conduits.step (law : RecvQueue K) {label : TaskStep} (ok : n.Conduits config noted)
    (taken : n.step label = some n') : n'.Conduits config (noted ++ n.demands label) := by
  have accepted : ∀ id, (n'.acceptedBy id).Sublist
      ((noted ++ n.demands label).filterMap (Demand.saidTo id)) := by
    intro id
    obtain ⟨more, grown, said⟩ := step_accepted taken id
    rw [grown, List.filterMap_append]
    exact (ok.accepted id).append said
  rcases step_serves law taken with serves | ⟨unasked, session, msgs, s₀, drained, present₀, rfl⟩
  · refine ⟨ok.grounded.step taken, ?_, ?_, ?_, accepted⟩
    · obtain ⟨_, _, _, turn, _⟩ := serves 0
      exact turn.config.trans ok.configured
    · intro id s' present'
      cases before : n.peer.sessions.object? id with
      | some s =>
          obtain ⟨s'', present'', carries⟩ := (ok.carries id s before).serve before (serves id)
          obtain rfl := Option.some.inj (present''.symm.trans present')
          exact carries
      | none =>
          obtain ⟨inHand, unread⟩ := ok.grounded.hands_empty before
          have carries := (ok.blank id before).born before (serves id) (demands_known before)
            inHand unread present'
          rw [ok.configured] at carries
          exact carries
    · intro id absent'
      have absent : n.peer.sessions.object? id = none := by
        obtain ⟨_, _, _, turn, _⟩ := serves id
        cases before : n.peer.sessions.object? id with
        | none => rfl
        | some s =>
            obtain ⟨s', _, _, present', _⟩ := turn.object s before
            rw [absent'] at present'
            cases present'
      exact (ok.blank id absent).serve absent (serves id) (demands_known absent)
  · rw [unasked, List.append_nil] at accepted ⊢
    refine ⟨ok.grounded.step taken, ok.configured, ?_, ?_, accepted⟩
    · intro id s present
      exact (ok.carries id s present).append present drained present₀
    · intro id absent'
      have absent : n.peer.sessions.object? id = none := absent'
      have blank := ok.blank id absent
      have other : session ≠ id := by
        rintro rfl
        rw [present₀] at absent
        cases absent
      refine ⟨blank.packets, ?_, blank.heard, blank.said⟩
      rw [Peer.messagesOf_appendData, if_neg other, blank.messages]
      rfl

end Tasks

/-- Between the application, its KCP instance and the socket a session is a faithful conduit,
in every interleaving of the tasks: the instance is where a sequence of calls took the newly
configured one; the KcpData datagrams submitted for the session are the buffers that these
calls wrote, each once and in order, all for its remote; the messages appended for it, and
those the receive task has in hand, are what they took; they were fed the KcpData payloads
that came in for the session, but for one that is still unread, and sent the payloads of the
`send()` calls that found it open and alive, among them every payload that was accepted. -/
theorem sessions_are_conduits (K : Type) [Kcp K] (law : RecvQueue K) (incarnation : UInt64)
    (config : KcpConfig) (labels : List TaskStep) (n : Tasks K)
    (ran : (tasksMachine K incarnation config).exec Machine.always
      (tasksMachine K incarnation config).start labels = some n)
    (id : SessionId) (s : Session K) (present : n.peer.sessions.object? id = some s) :
    n.Carries config
        ((tasksMachine K incarnation config).observed Tasks.demands
          (tasksMachine K incarnation config).start labels) id s ∧
      (n.acceptedBy id).Sublist
        (((tasksMachine K incarnation config).observed Tasks.demands
          (tasksMachine K incarnation config).start labels).filterMap (Demand.saidTo id)) := by
  have start : ((tasksMachine K incarnation config).start).Conduits config [] := by
    have empty : (tasksMachine K incarnation config).Reach Machine.always _ := .start
    refine ⟨tasksMachine_grounded empty, rfl, ?_, ?_, ?_⟩
    · rintro id s ⟨⟩
    · intro id _
      exact ⟨rfl, rfl, rfl, rfl⟩
    · intro id
      exact List.Sublist.refl _
  have ok : n.Conduits config ([] ++ (tasksMachine K incarnation config).observed Tasks.demands
      (tasksMachine K incarnation config).start labels) :=
    Machine.exec_observed (P := fun (n : Tasks K) noted => n.Conduits config noted)
      (fun _ _ _ _ ok _ taken => ok.step law taken) labels start ran
  rw [List.nil_append] at ok
  exact ⟨ok.carries id s present, ok.accepted id⟩

/-- A SYN with conversation id 20 is accepted, a message comes in for the session and is
appended, and a `send()` on it returns `Ok`. -/
theorem sessions_are_conduits_both_ways :
    ∃ (n : Tasks SampleKcp) (s : Session SampleKcp) (noted : List Demand),
      n.peer.messagesOf 0 = [⟨.remote, [7]⟩] ∧ n.acceptedBy 0 = [[1, 2]] ∧
        n.peer.packetsOf 0 ≠ [] ∧ n.Carries .default noted 0 s ∧
        (n.acceptedBy 0).Sublist (noted.filterMap (Demand.saidTo 0)) := by
  have run : ((tasksMachine SampleKcp 1 .default).exec Machine.always
      (tasksMachine SampleKcp 1 .default).start
      [.arriveSample (encodeControl .syn 20), .recvSample, .recvSample, .recvSample,
        .arriveSample SampleKcp.datagram, .call .remote [1, 2], .recvSample, .advanceSample,
        .recvSample, .advanceSample, .recvSample, .advanceSample, .recvSample, .recvSample]).any
      (fun n => decide (n.peer.messagesOf 0 = [⟨.remote, [7]⟩] ∧ n.acceptedBy 0 = [[1, 2]] ∧
        n.peer.packetsOf 0 ≠ []) && (n.peer.sessions.object? 0).isSome) = true := by
    decide +kernel
  obtain ⟨n, ran, checked⟩ := (Option.any_eq_true ..).mp run
  obtain ⟨seen, present⟩ := Bool.and_eq_true_iff.mp checked
  obtain ⟨messages, accepted, packets⟩ := of_decide_eq_true seen
  obtain ⟨s, present⟩ := Option.isSome_iff_exists.mp present
  obtain ⟨carries, among⟩ := sessions_are_conduits SampleKcp SampleKcp.recvQueue 1 .default _ n
    ran 0 s present
  exact ⟨n, s, _, messages, accepted, packets, carries, among⟩

end KcpPeer
