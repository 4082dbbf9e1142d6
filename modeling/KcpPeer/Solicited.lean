import KcpPeer.Subscribers
import KcpPeer.TickOrder

set_option autoImplicit false

namespace KcpPeer

/-- The addresses that an operation brings up: the one its caller wants to reach, or the
one its datagram came from. -/
def PeerOp.names : PeerOp → List CanonicalAddr
  | .send peer .. => [canonicalize peer]
  | .incoming _ src .. => [canonicalize src]
  | .disconnect .. | .tick .. => []

/-- The datagrams of a history that came from one address. -/
def heardFrom (can : CanonicalAddr) (ops : List PeerOp) : Nat :=
  ops.countP fun op =>
    match op with
    | .incoming _ src .. => decide (canonicalize src = can)
    | _ => false

/-- The datagram is a SYN_ACK or a RESET. -/
def Outgoing.isAnswer (o : Outgoing) : Bool :=
  match splitPacket o.bytes with
  | some (.synAck, _) => true
  | some (.reset, _) => true
  | _ => false

/-- The SYN_ACKs and RESETs sent toward one address. -/
def answersTo (can : CanonicalAddr) (outbox : List Outgoing) : Nat :=
  outbox.countP fun o => o.isAnswer && decide (o.address = can)

/-- What no session's own code sends toward one address. -/
def controlTo (can : CanonicalAddr) (outbox : List Outgoing) : Nat :=
  outbox.countP fun o => o.origin.isNone && decide (o.address = can)

def goodbyesTo (can : CanonicalAddr) (log : List LogEntry) : Nat :=
  log.countP fun entry =>
    match entry with
    | .event (.disconnected peer) _ => decide (canonicalize peer = can)
    | _ => false

section Counts

variable (can : CanonicalAddr)

theorem controlTo_append (left right : List Outgoing) :
    controlTo can (left ++ right) = controlTo can left + controlTo can right :=
  List.countP_append

theorem goodbyesTo_append (left right : List LogEntry) :
    goodbyesTo can (left ++ right) = goodbyesTo can left + goodbyesTo can right :=
  List.countP_append

theorem controlTo_own (id : SessionId) (out : List Submission) :
    controlTo can (out.map fun submission => ⟨submission, some id⟩) = 0 := by
  simp [controlTo]

/-- What no session's code sends, all toward one address. -/
theorem controlTo_toward {dest : SocketAddr} {out : List Submission}
    (toward : ∀ o ∈ out, o.dest = dest) :
    controlTo can (out.map fun submission => ⟨submission, none⟩) =
      if canonicalize dest = can then out.length else 0 := by
  rw [controlTo, List.countP_map]
  split
  · rename_i own
    rw [List.countP_eq_length]
    intro o mem
    exact decide_eq_true ((congrArg canonicalize (toward o mem)).trans own)
  · rename_i other
    rw [List.countP_eq_zero]
    intro o mem answered
    exact other ((congrArg canonicalize (toward o mem)).symm.trans (of_decide_eq_true answered))

theorem goodbyesTo_disconnected (peer : SocketAddr) (id : SessionId) :
    goodbyesTo can [.event (.disconnected peer) id] = if canonicalize peer = can then 1 else 0 := by
  rw [goodbyesTo, List.countP_singleton]
  simp only [decide_eq_true_eq]

end Counts

namespace Peer

variable {K : Type}

/-- From `p` to `p'` at most `allowance` more control datagrams went toward `can` than the
three for each `Disconnected`. -/
def Within (can : CanonicalAddr) (allowance : Nat) (p p' : Peer K) : Prop :=
  controlTo can p'.outbox + 3 * goodbyesTo can p.log ≤
    allowance + controlTo can p.outbox + 3 * goodbyesTo can p'.log

namespace Within

variable {can : CanonicalAddr} {p p' p'' : Peer K}

theorem refl (can : CanonicalAddr) (p : Peer K) : Within can 0 p p := by
  unfold Within
  omega

theorem trans {a b : Nat} (first : Within can a p p') (second : Within can b p' p'') :
    Within can (a + b) p p'' := by
  unfold Within at *
  omega

theorem mono {a b : Nat} (within : Within can a p p') (le : a ≤ b) : Within can b p p' := by
  unfold Within at *
  omega

/-- A step that leaves both histories as they are. -/
theorem silent (log : p'.log = p.log) (outbox : p'.outbox = p.outbox) : Within can 0 p p' := by
  unfold Within
  rw [log, outbox]
  omega

theorem submitOwn (p : Peer K) (id : SessionId) (out : List Submission) :
    Within can 0 p (p.submit (some id) out) := by
  simp only [Within, submit, controlTo_append, controlTo_own]
  omega

theorem emit (p : Peer K) (e : Event) (id : SessionId) : Within can 0 p (p.emit e id) := by
  simp only [Within, Peer.emit, goodbyesTo_append]
  omega

theorem appendData (p : Peer K) (id : SessionId) (peer : SocketAddr) (msgs : List Bytes) :
    Within can 0 p (p.appendData id peer msgs) := by
  simp only [Within, Peer.appendData, goodbyesTo_append]
  omega

theorem sendSynAck (p : Peer K) (conv : UInt32) (dest : SocketAddr) (socket : Socket) :
    Within can (if canonicalize dest = can then 1 else 0) p (p.sendSynAck conv dest socket) := by
  have toward : ∀ o ∈ [socket.submit (encodeControl .synAck conv) dest], o.dest = dest :=
    fun o mem => List.mem_singleton.mp mem ▸ rfl
  simp only [Within, Peer.sendSynAck, submit, controlTo_append, controlTo_toward can toward,
    List.length_singleton]
  omega

theorem sendReset (p : Peer K) (conv : UInt32) (dest : SocketAddr) (socket : Socket) :
    Within can (if canonicalize dest = can then 3 else 0) p (p.sendReset conv dest socket) := by
  have toward : ∀ o ∈ List.replicate 3 (socket.submit (encodeControl .reset conv) dest),
      o.dest = dest := fun o mem => List.eq_of_mem_replicate mem ▸ rfl
  simp only [Within, Peer.sendReset, submit, controlTo_append, controlTo_toward can toward,
    List.length_replicate]
  omega

/-- The three RESETs of a removal go with its `Disconnected`. -/
theorem goodbye (p : Peer K) (conv : UInt32) (dest : SocketAddr) (socket : Socket)
    (id : SessionId) (store : Store CanonicalAddr (Session K)) :
    Within can 0 p
      ({ p.sendReset conv dest socket with sessions := store }.emit (.disconnected dest) id) := by
  have toward : ∀ o ∈ List.replicate 3 (socket.submit (encodeControl .reset conv) dest),
      o.dest = dest := fun o mem => List.eq_of_mem_replicate mem ▸ rfl
  simp only [Within, Peer.sendReset, Peer.emit, submit, controlTo_append, goodbyesTo_append,
    controlTo_toward can toward, goodbyesTo_disconnected, List.length_replicate]
  split
  · omega
  · omega

end Within

section Operations

variable (can : CanonicalAddr)

theorem prune_within (socket : Socket) (p : Peer K) (key : CanonicalAddr) :
    Within can 0 p (prune socket p key) := by
  unfold prune
  cases p.sessions.find key with
  | none => exact .refl can p
  | some entry => exact .goodbye p entry.2.inner.convId entry.2.peerAddr socket entry.1 _

theorem foldl_prune_within (socket : Socket) (keys : List CanonicalAddr) (p : Peer K) :
    Within can 0 p (keys.foldl (prune socket) p) := by
  induction keys generalizing p with
  | nil => exact .refl can p
  | cons key rest ih => exact (prune_within can socket p key).trans (ih _)

theorem disconnect_within (p : Peer K) (peer : SocketAddr) (socket : Socket) :
    Within can 0 p (p.disconnect peer socket) := by
  unfold disconnect
  cases p.sessions.find (canonicalize peer) with
  | none => exact .refl can p
  | some entry => exact .goodbye p entry.2.inner.convId peer socket entry.1 _

variable [Kcp K]

theorem sendOn_within (p : Peer K) (id : SessionId) (s : Session K) (data : Bytes) (clock : Clock)
    (socket : Socket) : Within can 0 p (p.sendOn id s data clock socket).1 :=
  (Within.silent rfl rfl).trans (.submitOwn (p.setSession id _) id _)

theorem send_within (p : Peer K) (peer : SocketAddr) (data : Bytes) (draw : DrawnConv)
    (clock : Clock) (socket : Socket) :
    Within can 0 p (p.send peer data draw clock socket).1 := by
  unfold send
  cases p.sessions.find (canonicalize peer) with
  | some entry => exact sendOn_within can p entry.1 entry.2 data clock socket
  | none =>
      have opened : Within can 0 p (p.initiateSession peer draw clock socket).1 :=
        (Within.silent rfl rfl).trans (.submitOwn (Peer.setSession _ _ _) _ _)
      exact opened.trans (sendOn_within can _ _ _ data clock socket)

theorem scan_within (tick : Tick) (socket : Socket) (order : List CanonicalAddr) (p : Peer K) :
    Within can 0 p (scan tick socket order p).1 := by
  induction order generalizing p with
  | nil => exact .refl can p
  | cons key rest ih =>
      have first : Within can 0 p (p.scanSession tick socket key).1 := by
        rw [scanSession_eq]
        cases p.sessions.find key with
        | none => exact .refl can p
        | some entry =>
            exact (Within.silent rfl rfl).trans (.submitOwn (p.setSession entry.1 _) _ _)
      exact first.trans (ih _)

/-- Only the addressee of an answer is sent one, and at most three datagrams of it. -/
theorem handleKcpData_within (p : Peer K) (payload : Bytes) (src : SocketAddr) (clock : Clock)
    (socket : Socket) :
    Within can (if canonicalize src = can then 3 else 0) p
      (p.handleKcpData payload src clock socket).1 := by
  cases found : p.sessions.find (canonicalize src) with
  | none =>
      simp only [handleKcpData, found]
      cases readConv payload with
      | none => exact (Within.refl can p).mono (Nat.zero_le _)
      | some conv => exact .sendReset p conv src socket
  | some entry =>
      refine Within.mono (a := 0) ?_ (Nat.zero_le _)
      rw [handleKcpData_feed p payload src clock socket found]
      rcases Kcp.feed entry.2.inner.kcp payload with ⟨kcp, msgs, e | _⟩
      · exact .silent rfl rfl
      · cases msgs with
        | nil => exact .silent rfl rfl
        | cons msg msgs => exact .appendData (p.setSession entry.1 _) _ _ (msg :: msgs)

theorem synDecide_within (p : Peer K) (src : SocketAddr) (conv : UInt32) (myAddr : SocketAddr)
    (clock : Clock) (socket : Socket) :
    Within can 0 p (p.synDecide src conv myAddr clock socket).1 ∧
      ∀ dest ∈ (p.synDecide src conv myAddr clock socket).2.sendAckTo, dest = src := by
  unfold synDecide
  cases p.sessions.find (canonicalize src) with
  | none => exact ⟨.refl can p, by simp⟩
  | some entry =>
      dsimp only
      split
      · split
        · exact ⟨.silent rfl rfl, by simp⟩
        · exact ⟨.refl can p, by simp⟩
      · split
        · split
          · exact ⟨((Within.silent rfl rfl).trans (.submitOwn (p.setSession entry.1 _) _ _)).trans
              (.emit _ _ _), by simp⟩
          · exact ⟨((Within.silent rfl rfl).trans (.submitOwn (p.setSession entry.1 _) _ _)).trans
              (.emit _ _ _), by simp⟩
        · exact ⟨(Within.silent rfl rfl).trans (.emit (p.setSession entry.1 _) _ _), by simp⟩

theorem handleSyn_within (p : Peer K) (payload : Bytes) (src : SocketAddr) (clock : Clock)
    (socket : Socket) :
    Within can (if canonicalize src = can then 3 else 0) p
      (p.handleSyn payload src clock socket).1 := by
  unfold handleSyn
  cases readConv payload with
  | none => exact (Within.refl can p).mono (Nat.zero_le _)
  | some conv =>
      cases socket.localAddr with
      | error e => exact (Within.refl can p).mono (Nat.zero_le _)
      | ok myAddr =>
          obtain ⟨decided, dest⟩ := synDecide_within can p src conv myAddr clock socket
          rcases decision : p.synDecide src conv myAddr clock socket with
            ⟨p₁, action, sendAckTo, ackConv⟩
          rw [decision] at decided dest
          have acknowledged : Within can (if canonicalize src = can then 1 else 0) p₁
              (p₁.synAcknowledge ⟨action, sendAckTo, ackConv⟩ socket) := by
            cases sendAckTo with
            | none => exact (Within.refl can p₁).mono (Nat.zero_le _)
            | some addr =>
                obtain rfl := dest addr rfl
                exact .sendSynAck p₁ ackConv addr socket
          have finished : ∀ p₂ : Peer K, Within can (if canonicalize src = can then 1 else 0) p₂
              (p₂.synFinish ⟨action, sendAckTo, ackConv⟩ src conv clock socket) := by
            intro p₂
            cases action with
            | createNew =>
                have created : Within can 0 (p₂.sendSynAck conv src socket)
                    ((p₂.sendSynAck conv src socket).synInsert src conv clock) :=
                  (Within.silent rfl rfl).trans (.emit (Peer.insertSession _ _ _) _ _)
                exact (Within.sendSynAck p₂ conv src socket).trans created
            | keepExisting => exact (Within.refl can p₂).mono (Nat.zero_le _)
            | ignore => exact (Within.refl can p₂).mono (Nat.zero_le _)
          dsimp only
          rw [decision]
          refine ((decided.trans acknowledged).trans (finished _)).mono ?_
          split
          · omega
          · omega

theorem handleSynAck_within (p : Peer K) (payload : Bytes) (src : SocketAddr) (clock : Clock)
    (socket : Socket) : Within can 0 p (p.handleSynAck payload src clock socket).1 := by
  unfold handleSynAck synAckAccept
  repeat' split
  · exact .refl can p
  · exact .refl can p
  · exact .refl can p
  · exact ((Within.silent rfl rfl).trans (.submitOwn (Peer.setSession p _ _) _ _)).trans
      (.emit _ _ _)
  · exact .refl can p

theorem handleReset_within (p : Peer K) (payload : Bytes) (src : SocketAddr) :
    Within can 0 p (p.handleReset payload src).1 := by
  unfold handleReset
  repeat' split
  · exact .refl can p
  · exact .refl can p
  · exact (Within.silent rfl rfl).trans (.emit (Peer.setSession (p.removeKey _) _ _) _ _)
  · exact .refl can p

theorem apply_within {p p' : Peer K} {op : PeerOp} (applied : p.apply op = some p') :
    Within can (3 * heardFrom can [op]) p p' := by
  cases op with
  | send peer data draw clock socket =>
      obtain rfl := Option.some.inj applied
      exact send_within can p peer data draw clock socket
  | disconnect peer socket =>
      obtain rfl := Option.some.inj applied
      exact disconnect_within can p peer socket
  | tick tick socket =>
      obtain ⟨_, rfl⟩ := apply_tick applied
      exact (scan_within can tick socket tick.order p).trans
        (foldl_prune_within can socket _ _)
  | incoming data src clock socket =>
      obtain rfl := Option.some.inj applied
      have allowance : 3 * heardFrom can [.incoming data src clock socket] =
          if canonicalize src = can then 3 else 0 := by
        simp only [heardFrom, List.countP_singleton, decide_eq_true_eq]
        split
        · rfl
        · rfl
      rw [allowance]
      unfold handleIncoming
      rcases splitPacket data with _ | ⟨typ, payload⟩
      · exact (Within.refl can p).mono (Nat.zero_le _)
      · cases typ with
        | kcpData => exact handleKcpData_within can p payload src clock socket
        | syn => exact handleSyn_within can p payload src clock socket
        | synAck =>
            exact (handleSynAck_within can p payload src clock socket).mono (Nat.zero_le _)
        | reset => exact (handleReset_within can p payload src).mono (Nat.zero_le _)

end Operations

/-- Sessions are held and datagrams sent for addresses that were brought up only. -/
structure Named (known : List CanonicalAddr) (p : Peer K) : Prop where
  sessions : ∀ can id s, p.sessions.find can = some (id, s) → can ∈ known
  outbox : ∀ o ∈ p.outbox, o.address ∈ known

theorem Named.mono {known known' : List CanonicalAddr} {p : Peer K} (named : Named known p)
    (sub : known ⊆ known') : Named known' p :=
  ⟨fun can id s found => sub (named.sessions can id s found), fun o mem => sub (named.outbox o mem)⟩

section Named

variable [Kcp K] {known : List CanonicalAddr} {op : PeerOp} {can : CanonicalAddr} {p p' : Peer K}

theorem Effect.named (effect : Effect op can p p') (keyed : p.registry.Keyed) (mem : can ∈ known)
    (named : Named known p) : Named known p' := by
  refine ⟨?_, ?_⟩
  · intro can' id s found
    by_cases other : can' ≠ can
    · rw [effect.find_other other] at found
      exact named.sessions can' id s found
    · rwa [not_ne_iff.mp other]
  · have sent : ∀ {origin : Option SessionId} {out : List Submission},
        (∀ o ∈ out, canonicalize o.dest = can) →
        ∀ o ∈ (p.submit origin out).outbox, o.address ∈ known := by
      intro origin out own o mem'
      rcases List.mem_append.mp mem' with old | new
      · exact named.outbox o old
      · obtain ⟨submission, there, rfl⟩ := List.mem_map.mp new
        change canonicalize submission.dest ∈ known
        rwa [own submission there]
    have home : ∀ {id : SessionId} {s : Session K}, p.sessions.find can = some (id, s) →
        canonicalize s.peerAddr = can := fun found => keyed_iff.mp keyed can _ _ found
    cases effect with
    | write found kcp lastRx written =>
        obtain ⟨bufs, _, written, _⟩ := written
        refine sent ?_
        rw [written]
        intro o there
        obtain ⟨buf, _, rfl⟩ := List.mem_map.mp there
        exact home found
    | syn found waiting sentAt retries counted socket =>
        refine sent ?_
        intro o there
        rw [List.mem_singleton.mp there]
        exact home found
    | acknowledge own conv socket =>
        refine sent ?_
        intro o there
        rw [List.mem_singleton.mp there]
        exact own
    | reset own conv socket =>
        refine sent ?_
        intro o there
        rw [List.eq_of_mem_replicate there]
        exact own
    | _ => exact named.outbox

theorem EffectsAt.named (effects : EffectsAt op can p p') (keyed : p.registry.Keyed)
    (mem : can ∈ known) (named : Named known p) : Named known p' := by
  induction effects with
  | refl => exact named
  | tail before effect ih => exact effect.named (EffectsAt.keyed before keyed) mem ih

/-- A step at the session of an address, or at none. -/
theorem Named.at_key (named : Named known p) (keyed : p.registry.Keyed)
    (effects : EffectsAt op can p p') (idle : p.sessions.find can = none → p' = p) :
    Named known p' := by
  cases found : p.sessions.find can with
  | none => exact idle found ▸ named
  | some entry => exact effects.named keyed (named.sessions can entry.1 entry.2 found) named

theorem scan_named (tick : Tick) (socket : Socket) (order : List CanonicalAddr)
    (keyed : p.registry.Keyed) (named : Named known p) :
    Named known (scan tick socket order p).1 := by
  induction order generalizing p with
  | nil => exact named
  | cons key rest ih =>
      have effects : EffectsAt (.tick tick socket) key p (p.scanSession tick socket key).1 :=
        scanSession_effects p tick socket
      refine ih (effects.keyed keyed) (named.at_key keyed effects ?_)
      exact scanSession_absent tick socket

theorem foldl_prune_named (tick : Tick) (socket : Socket) (keys : List CanonicalAddr)
    (keyed : p.registry.Keyed) (named : Named known p) :
    Named known (keys.foldl (prune socket) p) := by
  induction keys generalizing p with
  | nil => exact named
  | cons key rest ih =>
      have effects : EffectsAt (.tick tick socket) key p (prune socket p key) :=
        prune_effects keyed socket
      exact ih (effects.keyed keyed) (named.at_key keyed effects (prune_absent socket))

theorem apply_named (applied : p.apply op = some p') (keyed : p.registry.Keyed)
    (named : Named known p) : Named (known ++ op.names) p' := by
  cases op with
  | send peer data draw clock socket =>
      obtain rfl := Option.some.inj applied
      exact (send_effects p peer data draw clock socket).named keyed
        (List.mem_append_right _ (List.mem_singleton.mpr rfl)) (named.mono (by simp))
  | disconnect peer socket =>
      obtain rfl := Option.some.inj applied
      have kept := named.at_key keyed (disconnect_effects p peer socket) fun absent => by
        simp only [disconnect, absent]
      exact kept.mono (by simp)
  | tick tick socket =>
      obtain ⟨_, rfl⟩ := apply_tick applied
      have scanned : (scan tick socket tick.order p).1.registry.Keyed := by
        rw [registry_scan]
        exact keyed
      exact (foldl_prune_named tick socket _ scanned
        (scan_named tick socket tick.order keyed named)).mono (by simp)
  | incoming data src clock socket =>
      obtain rfl := Option.some.inj applied
      exact handleIncoming_effects.named keyed
        (List.mem_append_right _ (List.mem_singleton.mpr rfl)) (named.mono (by simp))

/-- A whole run keeps both accounts. -/
theorem exec_solicited {incarnation : UInt64} {config : KcpConfig} (ops : List PeerOp)
    (keyed : p.registry.Keyed) (named : Named known p)
    (ran : (peerMachine K incarnation config).exec Machine.always p ops = some p') :
    Named (known ++ ops.flatMap PeerOp.names) p' ∧
      ∀ can, Within can (3 * heardFrom can ops) p p' := by
  induction ops generalizing p known with
  | nil =>
      obtain rfl := Option.some.inj ran
      exact ⟨by simpa using named, fun can => .refl can p⟩
  | cons op rest ih =>
      obtain ⟨next, applied, ran⟩ := Option.bind_eq_some_iff.mp ran
      obtain ⟨final, within⟩ := ih (Registry.keyed_of_steps (apply_steps applied keyed) keyed)
        (apply_named applied keyed named) ran
      refine ⟨by simpa using final, fun can => ?_⟩
      have total := (apply_within can applied).trans (within can)
      have split : heardFrom can ([op] ++ rest) = heardFrom can [op] + heardFrom can rest :=
        List.countP_append
      rw [List.singleton_append] at split
      rwa [split, Nat.mul_add]

end Named

/-- The SYN_ACKs and RESETs are what no session's own code sends. -/
def Answered (p : Peer K) : Prop := ∀ o ∈ p.outbox, o.isAnswer = o.origin.isNone

theorem Answered.count {p : Peer K} (answered : Answered p) (can : CanonicalAddr) :
    answersTo can p.outbox = controlTo can p.outbox :=
  List.countP_congr fun o mem => by rw [answered o mem]

theorem Answered.submit {p : Peer K} (answered : Answered p) {origin : Option SessionId}
    {out : List Submission}
    (typed : ∀ o ∈ out, Outgoing.isAnswer ⟨o, origin⟩ = origin.isNone) :
    Answered (p.submit origin out) := by
  intro o mem
  rcases List.mem_append.mp mem with old | new
  · exact answered o old
  · obtain ⟨submission, there, rfl⟩ := List.mem_map.mp new
    exact typed submission there

section Answered

variable [Kcp K] {op : PeerOp} {can : CanonicalAddr} {p p' : Peer K}

theorem Effect.answered (effect : Effect op can p p') (answered : Answered p) : Answered p' := by
  cases effect with
  | write found kcp lastRx written =>
      obtain ⟨bufs, _, written, _⟩ := written
      refine Answered.submit (p := p.setSession _ _) answered ?_
      rw [written]
      intro o mem
      obtain ⟨buf, _, rfl⟩ := List.mem_map.mp mem
      simp [Outgoing.isAnswer, Socket.submit]
  | syn found waiting sentAt retries counted socket =>
      refine Answered.submit (p := p.setSession _ _) answered ?_
      intro o mem
      obtain rfl := List.mem_singleton.mp mem
      simp [Outgoing.isAnswer, Session.synSubmission, Socket.submit]
  | acknowledge own conv socket =>
      refine Answered.submit answered ?_
      intro o mem
      obtain rfl := List.mem_singleton.mp mem
      simp [Outgoing.isAnswer, Socket.submit]
  | reset own conv socket =>
      refine Answered.submit answered ?_
      intro o mem
      obtain rfl := List.eq_of_mem_replicate mem
      simp [Outgoing.isAnswer, Socket.submit]
  | _ => exact answered

theorem peerMachine_answered {incarnation : UInt64} {config : KcpConfig}
    (reached : (peerMachine K incarnation config).Reach Machine.always p) : Answered p := by
  refine reached.invariant_with (P := Answered) (fun _ => peerMachine_keyed)
    (fun _ mem => absurd mem List.not_mem_nil) ?_
  intro before op after answered keyed _ applied
  exact ((apply_effects applied keyed).invariant (P := Answered)
    (fun _ _ _ effect _ answered => effect.answered answered) keyed answered).2

end Answered

end Peer

/-- What a peer sends is solicited: in every run of its operations each datagram goes to an
address that a caller wanted to reach or that a datagram came from, and the SYN_ACKs and
RESETs toward an address exceed what came from it by a constant factor at most. They are no
more than three for each datagram that came from it and three for each `Disconnected`
announced for it. -/
theorem traffic_is_solicited (K : Type) [Kcp K] (incarnation : UInt64) (config : KcpConfig)
    (ops : List PeerOp) (p : Peer K)
    (ran : (peerMachine K incarnation config).exec Machine.always (.bind incarnation config) ops =
      some p) :
    (∀ o ∈ p.outbox, ∃ op ∈ ops, canonicalize o.dest ∈ op.names) ∧
      ∀ can, answersTo can p.outbox ≤ 3 * heardFrom can ops + 3 * goodbyesTo can p.log := by
  have keyed : (Peer.bind incarnation config : Peer K).registry.Keyed := by
    intro can id v found
    simp at found
  have none : Peer.Named [] (Peer.bind incarnation config : Peer K) :=
    ⟨fun _ _ _ found => by simp [Peer.bind] at found, fun _ mem => absurd mem List.not_mem_nil⟩
  obtain ⟨named, within⟩ := Peer.exec_solicited ops keyed none ran
  have answered : Peer.Answered p :=
    Peer.peerMachine_answered (.exec ops (fun _ _ _ allowed => allowed) .start ran)
  refine ⟨?_, ?_⟩
  · intro o mem
    obtain ⟨op, asked, names⟩ := List.mem_flatMap.mp (named.outbox o mem)
    exact ⟨op, asked, names⟩
  · intro can
    have within := within can
    rw [answered.count can]
    simp only [Peer.Within, Peer.bind, controlTo, goodbyesTo, List.countP_nil] at within
    simp only [controlTo, goodbyesTo]
    omega

/-- A stray KcpData packet is answered with three RESETs, and the bound is met. -/
theorem traffic_is_solicited_stray :
    ∃ p : Peer SampleKcp,
      (peerMachine SampleKcp 1 .default).exec Machine.always (.bind 1 .default)
        [.incoming (encodeKcpData [1, 2, 3, 4]) .remote .sample .sample] = some p ∧
      (∀ o ∈ p.outbox, canonicalize o.dest = canonicalize .remote) ∧
      answersTo (canonicalize .remote) p.outbox = 3 ∧
      3 * heardFrom (canonicalize .remote)
        [.incoming (encodeKcpData [1, 2, 3, 4]) .remote .sample .sample] +
          3 * goodbyesTo (canonicalize .remote) p.log = 3 := by
  let ops : List PeerOp := [.incoming (encodeKcpData [1, 2, 3, 4]) .remote .sample .sample]
  have run : ((peerMachine SampleKcp 1 .default).exec Machine.always (.bind 1 .default) ops).any
      (fun p =>
        decide (2 < answersTo (canonicalize .remote) p.outbox) && p.log.isEmpty) = true := by
    decide +kernel
  obtain ⟨p, ran, checked⟩ := (Option.any_eq_true ..).mp run
  simp only [Bool.and_eq_true, decide_eq_true_eq, List.isEmpty_iff] at checked
  obtain ⟨asked, bound⟩ := traffic_is_solicited SampleKcp 1 .default ops p ran
  have heard : heardFrom (canonicalize .remote) ops = 1 := by decide +kernel
  have spent := bound (canonicalize .remote)
  have silent : goodbyesTo (canonicalize .remote) p.log = 0 := by rw [checked.2]; rfl
  rw [heard, silent] at spent
  refine ⟨p, ran, ?_, by omega, ?_⟩
  · intro o mem
    obtain ⟨op, named, names⟩ := asked o mem
    rw [List.mem_singleton.mp named] at names
    exact List.mem_singleton.mp names
  · rw [heard, silent]

end KcpPeer
