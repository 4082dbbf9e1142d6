import KcpPeer.Adoption
import KcpPeer.SessionOutput

set_option autoImplicit false

namespace KcpPeer

/-- The SYN for which `send_syn` has read the conversation id. -/
def SendPc.draft : SendPc → Option (SessionId × UInt32)
  | .greeting id conv _ => some (id, conv)
  | _ => none

theorem encodeControl_syn_injective {conv conv' : UInt32}
    (same : encodeControl .syn conv = encodeControl .syn conv') : conv = conv' := by
  have read := congrArg (fun bytes => (splitPacket bytes).bind fun packet => readConv packet.2) same
  simpa using read

/-- A datagram of another type is no SYN. -/
theorem encodeControl_ne_syn {typ : PacketType} (other : typ ≠ .syn) (conv conv' : UInt32) :
    encodeControl typ conv ≠ encodeControl .syn conv' := by
  intro same
  have read := congrArg splitPacket same
  simp only [splitPacket_encodeControl, Option.some.injEq, Prod.mk.injEq] at read
  exact other read.1

theorem encodeKcpData_ne_syn (buf : Bytes) (conv : UInt32) :
    encodeKcpData buf ≠ encodeControl .syn conv := by
  intro same
  have read := congrArg splitPacket same
  simp at read

namespace Peer

variable {K : Type} {p p' : Peer K} {P : Outgoing → UInt32 → Prop}

/-- Every SYN submitted on the way from `p` to `p'` meets `P`, which also sees
the conversation id it carries. -/
def Greets (p p' : Peer K) (P : Outgoing → UInt32 → Prop) : Prop :=
  ∃ out, p'.outbox = p.outbox ++ out ∧
    ∀ o ∈ out, ∀ conv, o.bytes = encodeControl .syn conv → P o conv

theorem Greets.nothing (same : p'.outbox = p.outbox) : p.Greets p' P :=
  ⟨[], by rw [same, List.append_nil], nofun⟩

theorem Greets.submit {p₁ : Peer K} (same : p₁.outbox = p.outbox) {origin : Option SessionId}
    {out : List Submission} (each : ∀ m ∈ out, ∀ conv, m.bytes = encodeControl .syn conv →
      P ⟨m, origin⟩ conv) : p.Greets (p₁.submit origin out) P := by
  refine ⟨out.map fun m => ⟨m, origin⟩, by rw [Peer.submit, same], ?_⟩
  intro o mem conv isSyn
  obtain ⟨m, mem', rfl⟩ := List.mem_map.mp mem
  exact each m mem' conv isSyn

theorem Greets.mono {Q : Outgoing → UInt32 → Prop} (greets : p.Greets p' P)
    (weaker : ∀ o conv, P o conv → Q o conv) : p.Greets p' Q := by
  obtain ⟨out, grown, each⟩ := greets
  exact ⟨out, grown, fun o mem conv isSyn => weaker o conv (each o mem conv isSyn)⟩

theorem sendReset_greets (p : Peer K) (conv : UInt32) (dest : SocketAddr) (socket : Socket) :
    p.Greets (p.sendReset conv dest socket) P := by
  refine Greets.submit rfl ?_
  intro m mem conv' isSyn
  obtain rfl := List.eq_of_mem_replicate mem
  exact absurd isSyn (encodeControl_ne_syn (by decide) conv conv')

theorem sendSynAck_greets (p : Peer K) (conv : UInt32) (dest : SocketAddr) (socket : Socket) :
    p.Greets (p.sendSynAck conv dest socket) P := by
  refine Greets.submit rfl ?_
  intro m mem conv' isSyn
  obtain rfl := List.mem_singleton.mp mem
  exact absurd isSyn (encodeControl_ne_syn (by decide) conv conv')

theorem disconnect_greets (p : Peer K) (peer : SocketAddr) (socket : Socket) :
    p.Greets (p.disconnect peer socket) P := by
  unfold disconnect
  split
  · exact .nothing rfl
  · rename_i id s _
    exact sendReset_greets (p := (p.removeKey (canonicalize peer)).setSession id s.markClosed) ..

theorem prune_greets (p : Peer K) (socket : Socket) (can : CanonicalAddr) :
    p.Greets (prune socket p can) P := by
  unfold prune
  split
  · exact .nothing rfl
  · exact sendReset_greets (p := p.removeKey can) ..

variable [Kcp K]

theorem writes_greets {s s' : Session K} {socket : Socket} {out : List Submission}
    (written : Session.Writes s s' socket out) (p : Peer K) (id : SessionId) (s₁ : Session K) :
    p.Greets ((p.setSession id s₁).submit (some id) out) P := by
  obtain ⟨bufs, _, rfl, _⟩ := written
  refine Greets.submit rfl ?_
  intro m mem conv isSyn
  obtain ⟨buf, _, rfl⟩ := List.mem_map.mp mem
  exact absurd isSyn (encodeKcpData_ne_syn buf conv)

theorem synDecide_greets (p : Peer K) (src : SocketAddr) (conv : UInt32) (myAddr : SocketAddr)
    (clock : Clock) (socket : Socket) :
    p.Greets (p.synDecide src conv myAddr clock socket).1 P := by
  unfold synDecide
  split
  · exact .nothing rfl
  · rename_i id s _
    split
    · split
      · exact .nothing rfl
      · exact .nothing rfl
    · split
      · split
        · exact writes_greets (Session.pump_writes (s.adopt conv clock.epochMs) _ socket rfl) p id _
        · exact writes_greets (Session.pump_writes (s.establish clock.epochMs) _ socket rfl) p id _
      · exact .nothing rfl

theorem synAckAccept_greets (p : Peer K) (src : SocketAddr) (conv : UInt32) (clock : Clock)
    (socket : Socket) : p.Greets (p.synAckAccept src conv clock socket) P := by
  unfold synAckAccept
  split
  · exact .nothing rfl
  · rename_i id s _
    split
    · exact .nothing rfl
    · split
      · exact writes_greets (Session.pump_writes (s.establish clock.epochMs) _ socket rfl) p id _
      · exact .nothing rfl

end Peer

namespace Tasks

variable {K : Type}

/-- The SYN for which `maybe_retry_syn` has read the conversation id of the
session under the scan's current key. -/
def retryDraft (n : Tasks K) : Option (SessionId × UInt32) :=
  match n.upd with
  | .scanning scan (.resend conv) =>
      (scan.keys.head?.bind n.peer.sessions.lookup).map fun id => (id, conv)
  | _ => none

/-- The SYNs not yet handed to the socket whose conversation id has been read. -/
def drafts (n : Tasks K) : List (SessionId × UInt32) :=
  n.calls.filterMap SendPc.draft ++ n.retryDraft.toList

/-- The step adopts the remote's conversation id for no session that has a SYN
in draft. -/
def keepsDrafts (n : Tasks K) (label : TaskStep) : Bool :=
  n.drafts.all fun draft => n.adopts label ≠ some draft.1

/-- A read of the session's conversation id gives `conv`. -/
def Reads (n : Tasks K) (id : SessionId) (conv : UInt32) : Prop :=
  ∃ s, n.peer.sessions.object? id = some s ∧ s.inner.convId = conv

/-- Every draft carries the conversation id of its session. -/
def Current (n : Tasks K) : Prop := ∀ id conv, (id, conv) ∈ n.drafts → n.Reads id conv

/-- The SYN `o`, which carries `conv`, goes to the address of the session that
submits it, and carries its conversation id. -/
def CarriesOwn (n : Tasks K) (o : Outgoing) (conv : UInt32) : Prop :=
  ∃ id s, o.origin = some id ∧ n.peer.sessions.object? id = some s ∧ o.dest = s.peerAddr ∧
    s.inner.convId = conv

variable {n n' : Tasks K}

/-- The SYN `o` was a draft in `n`, and goes to the address of its session. -/
def Drafted (n : Tasks K) (o : Outgoing) (conv : UInt32) : Prop :=
  ∃ id s, o.origin = some id ∧ (id, conv) ∈ n.drafts ∧ n.peer.sessions.object? id = some s ∧
    o.dest = s.peerAddr

theorem drafted_syn {id : SessionId} {s : Session K} {conv : UInt32}
    (draft : (id, conv) ∈ n.drafts) (present : n.peer.sessions.object? id = some s)
    (socket : Socket) (s₁ : Session K) {out : List Submission}
    (own : ∀ m ∈ out, m = s.synSubmission conv socket) :
    n.peer.Greets ((n.peer.setSession id s₁).submit (some id) out) n.Drafted := by
  refine Peer.Greets.submit rfl ?_
  intro m mem conv' isSyn
  obtain rfl := own m mem
  obtain rfl := encodeControl_syn_injective isSyn
  exact ⟨id, s, rfl, draft, present, rfl⟩

variable [Kcp K]

/-- The retry submits nothing, or the SYN in draft. -/
theorem retrySyn_output (s : Session K) (conv : UInt32) (config : KcpConfig)
    (nowEpoch now : UInt64) (socket : Socket) :
    ∀ m ∈ (s.retrySyn conv config nowEpoch now socket).2.1, m = s.synSubmission conv socket := by
  unfold Session.retrySyn
  intro m mem
  split at mem
  · cases mem
  · split at mem
    · cases mem
    · exact List.mem_singleton.mp mem

theorem Handles.submits {clock : Clock} {socket : Socket} (next : n.Handles clock socket n') :
    n.peer.Greets n'.peer n.Drafted := by
  have acknowledges : ∀ result : SynResult,
      n.peer.Greets (n.peer.synAcknowledge result socket) n.Drafted := by
    intro result
    unfold Peer.synAcknowledge
    split
    · exact Peer.sendSynAck_greets ..
    · exact .nothing rfl
  cases next with
  | answered src payload conv => exact Peer.sendReset_greets ..
  | creates src conv result => exact acknowledges result
  | acknowledged src conv result => exact acknowledges result
  | created src conv => exact Peer.sendSynAck_greets ..
  | _ => exact .nothing rfl

theorem Scans.submits {now : UInt64} {socket : Socket} (next : n.Scans now socket n') :
    n.peer.Greets n'.peer n.Drafted := by
  cases next with
  | updates scan can rest id s =>
      exact Peer.writes_greets (Session.update_writes s scan.nowMs socket) ..
  | resends scan can rest id s conv pc scanning keys found =>
      obtain ⟨named, present⟩ := Store.find_eq_some.mp found
      have draft : (id, conv) ∈ n.drafts := by
        simp [drafts, retryDraft, scanning, keys, named]
      exact drafted_syn draft present socket _
        (retrySyn_output s conv n.peer.config scan.nowEpoch now socket)
  | prunes can judged rest horizon => exact Peer.prune_greets ..
  | _ => exact .nothing rfl

theorem Advances.submits {index : Nat} {draw : DrawnConv} {clock : Clock} {socket : Socket}
    {pc : SendPc} (reads : n.calls[index]? = some pc)
    (next : n.Advances index draw clock socket pc n') : n.peer.Greets n'.peer n.Drafted := by
  cases next with
  | greets id conv data s present =>
      have draft : (id, conv) ∈ n.drafts := by
        refine List.mem_append_left _ (List.mem_filterMap.mpr ?_)
        exact ⟨_, List.mem_of_getElem? reads, rfl⟩
      exact drafted_syn draft present socket _ fun m mem => List.mem_singleton.mp mem
  | queues id data s =>
      exact Peer.writes_greets (Session.queueData_writes s data clock.currentMs socket) ..
  | _ => exact .nothing rfl

/-- A SYN that a step submits was in draft before it. -/
theorem step_greets {label : TaskStep} (taken : n.step label = some n') :
    n.peer.Greets n'.peer n.Drafted := by
  cases step_moves taken with
  | arrives data src clock socket idle _ first =>
      cases first with
      | syn payload conv myAddr => exact Peer.synDecide_greets ..
      | synAck conv => exact Peer.synAckAccept_greets ..
      | _ => exact .nothing rfl
  | handles clock socket _ next => exact next.submits
  | scans now socket _ next => exact next.submits
  | advances index draw clock socket pc reads _ next => exact next.submits reads
  | disconnects peer socket => exact Peer.disconnect_greets ..
  | _ => exact .nothing rfl

/-- A call that has a SYN in draft had it before, or reads the conversation id in
this step. -/
theorem Advances.drafts {index : Nat} {draw : DrawnConv} {clock : Clock} {socket : Socket}
    {pc pc' : SendPc} {id : SessionId} {conv : UInt32}
    (next : n.Advances index draw clock socket pc n') (mem : pc' ∈ n'.calls)
    (draft : pc'.draft = some (id, conv)) : pc' ∈ n.calls ∨ n.Reads id conv := by
  have moves : ∀ pc₁ : SendPc, n'.calls = n.calls.set index pc₁ →
      (pc₁.draft = some (id, conv) → n.Reads id conv) → pc' ∈ n.calls ∨ n.Reads id conv := by
    intro pc₁ same reads
    rw [same] at mem
    rcases List.mem_or_eq_of_mem_set mem with old | rfl
    · exact Or.inl old
    · exact Or.inr (reads draft)
  cases next with
  | reads id₁ data s present =>
      refine moves _ rfl ?_
      rintro ⟨⟩
      exact ⟨s, present, rfl⟩
  | _ => exact moves _ rfl (by rintro ⟨⟩)

theorem step_callDrafts {label : TaskStep} (taken : n.step label = some n') {pc : SendPc}
    {id : SessionId} {conv : UInt32} (mem : pc ∈ n'.calls)
    (draft : pc.draft = some (id, conv)) :
    pc ∈ n.calls ∨ n.Reads id conv ∧ n.adopts label = none := by
  cases step_moves taken with
  | arrives data src clock socket idle _ first => cases first <;> exact Or.inl mem
  | handles clock socket _ next => cases next <;> exact Or.inl mem
  | scans now socket _ next => cases next <;> exact Or.inl mem
  | calls peer data =>
      rcases List.mem_append.mp mem with old | new
      · exact Or.inl old
      · obtain rfl := List.mem_singleton.mp new
        cases draft
  | advances index draw clock socket _ _ _ next =>
      rcases next.drafts mem draft with old | reads
      · exact Or.inl old
      · exact Or.inr ⟨reads, rfl⟩
  | cancels index =>
      rcases List.mem_or_eq_of_mem_set mem with old | rfl
      · exact Or.inl old
      · cases draft
  | _ => exact Or.inl mem

theorem Scans.retryDraft {now : UInt64} {socket : Socket} (next : n.Scans now socket n')
    {id : SessionId} {conv : UInt32} (draft : n'.retryDraft = some (id, conv)) :
    n.Reads id conv := by
  cases next with
  | reads scan can rest id₁ s scanning keys found =>
      obtain ⟨named, present⟩ := Store.find_eq_some.mp found
      simp only [Tasks.retryDraft, keys, List.head?_cons, Option.bind_some, named, Option.map_some,
        Option.some.injEq, Prod.mk.injEq] at draft
      obtain ⟨rfl, rfl⟩ := draft
      exact ⟨s, present, rfl⟩
  | walks scan scan' phase phase' scanning toRemove horizon unread =>
      cases phase' with
      | resend conv => exact absurd rfl (unread conv)
      | _ => cases draft
  | updates scan can rest id s pc scanning keys found next =>
      rcases next with ⟨_, _, rfl⟩ | rfl
      all_goals cases draft
  | resends scan can rest id s conv pc scanning keys found next =>
      rcases next with ⟨_, _, rfl⟩ | rfl
      all_goals cases draft
  | _ => cases draft

theorem step_retryDraft {label : TaskStep} (taken : n.step label = some n') {id : SessionId}
    {conv : UInt32} (draft : n'.retryDraft = some (id, conv)) :
    n.retryDraft = some (id, conv) ∨ n.Reads id conv ∧ n.adopts label = none := by
  by_cases scanner : label.actor = .upd
  · cases step_moves taken with
    | skips nowMs nowEpoch => exact Or.inl draft
    | ticks nowMs nowEpoch => cases draft
    | begins order nowMs nowEpoch => cases draft
    | scans now socket _ next => exact Or.inr ⟨next.retryDraft draft, rfl⟩
    | _ => cases scanner
  · -- the scan stands still, and with it the read lock on the map
    left
    have step := step_board taken
    have same : n'.upd = n.upd := step.upd_kept scanner
    rw [← draft, retryDraft, retryDraft, same]
    split
    · rename_i scan conv' scanning
      have kept : n'.peer.sessions.lookup = n.peer.sessions.lookup := by
        funext can
        exact step.lookup_kept (by simp [board, scanning, UpdPc.isScanning]) can
      rw [kept]
    · rfl

theorem step_drafts {label : TaskStep} (taken : n.step label = some n') {id : SessionId}
    {conv : UInt32} (draft : (id, conv) ∈ n'.drafts) :
    (id, conv) ∈ n.drafts ∨ n.Reads id conv ∧ n.adopts label = none := by
  rcases List.mem_append.mp draft with call | retry
  · obtain ⟨pc, mem, draft⟩ := List.mem_filterMap.mp call
    rcases step_callDrafts taken mem draft with old | reads
    · exact Or.inl (List.mem_append_left _ (List.mem_filterMap.mpr ⟨pc, old, draft⟩))
    · exact Or.inr reads
  · rcases step_retryDraft taken (Option.mem_toList.mp retry) with old | reads
    · exact Or.inl (List.mem_append_right _ (Option.mem_toList.mpr old))
    · exact Or.inr reads

theorem Current.step {label : TaskStep} (ok : n.Current) (kept : n.keepsDrafts label = true)
    (taken : n.step label = some n') : n'.Current := by
  intro id conv draft
  have carried : n.Reads id conv ∧ n.adopts label ≠ some id := by
    rcases step_drafts taken draft with old | ⟨reads, adopted⟩
    · exact ⟨ok id conv old, of_decide_eq_true (List.all_eq_true.mp kept _ old)⟩
    · exact ⟨reads, by rw [adopted]; rintro ⟨⟩⟩
  obtain ⟨⟨s, present, rfl⟩, other⟩ := carried
  exact conv_kept taken present other

theorem reach_current {incarnation : UInt64} {config : KcpConfig}
    (reached : (tasksMachine K incarnation config).Reach (fun n label => n.keepsDrafts label) n) :
    n.Current := by
  refine reached.invariant (P := Current) ?_ ?_
  · rintro id conv ⟨⟩
  · intro before label after ok kept taken
    exact ok.step kept taken

end Tasks

/-- Every SYN submitted in a step carries the conversation id that its session has
then, in any interleaving in which the SYN handler adopts no conversation id for a
session whose SYN is in draft. -/
theorem syn_carries_current_conv (K : Type) [Kcp K] (incarnation : UInt64) (config : KcpConfig)
    (n n' : Tasks K) (label : TaskStep)
    (reached : (tasksMachine K incarnation config).Reach (fun n label => n.keepsDrafts label) n)
    (taken : n.step label = some n') : n.peer.Greets n'.peer n.CarriesOwn := by
  refine (Tasks.step_greets taken).mono ?_
  rintro o conv ⟨id, s, origin, draft, present, dest⟩
  obtain ⟨s₁, present₁, current⟩ := Tasks.reach_current reached id conv draft
  obtain rfl := Option.some.inj (present₁.symm.trans present)
  exact ⟨id, s₁, origin, present, dest, current⟩

/-- The SYN of `send()`, sent before the remote's arrives and wins. -/
theorem syn_carries_current_conv_sent :
    ∃ n n' : Tasks SampleKcp, n'.peer.outbox = [⟨⟨.remote, encodeControl .syn 10, true⟩, some 0⟩] ∧
      n.peer.Greets n'.peer n.CarriesOwn := by
  have run : ((tasksMachine SampleKcp 1 .default).exec (fun n label => n.keepsDrafts label)
      (tasksMachine SampleKcp 1 .default).start
      [.call .remote [1], .advanceSample, .advanceSample, .advanceSample, .advanceSample]).any
      (fun n => (n.step .advanceSample).any fun n' => decide
        (n'.peer.outbox = [⟨⟨.remote, encodeControl .syn 10, true⟩, some 0⟩])) = true := by
    decide +kernel
  obtain ⟨n, reached, checked⟩ := Machine.Reach.exec_any _ run
  obtain ⟨n', taken, sent⟩ := (Option.any_eq_true ..).mp checked
  exact ⟨n, n', of_decide_eq_true sent,
    syn_carries_current_conv SampleKcp 1 .default n n' .advanceSample reached taken⟩

/-- `send_syn` has read 10, and the remote's SYN with 20 arrives before it sends;
then `maybe_retry_syn` does the same with a tick in which the retry is due. -/
theorem stale_syn_sent :
    (∃ (n n' : Tasks SampleKcp) (label : TaskStep),
      (tasksMachine SampleKcp 1 .default).Reach Machine.always n ∧ n.step label = some n' ∧
      (∃ index draw clock socket, label = .advance index draw clock socket) ∧
      ¬ n.peer.Greets n'.peer n.CarriesOwn) ∧
    ∃ (n n' : Tasks SampleKcp) (label : TaskStep),
      (tasksMachine SampleKcp 1 .default).Reach Machine.always n ∧ n.step label = some n' ∧
      (∃ now socket, label = .upd now socket) ∧ ¬ n.peer.Greets n'.peer n.CarriesOwn := by
  have stale : ∀ (n n' : Tasks SampleKcp), n'.peer.outbox = n.peer.outbox ++
      [⟨⟨.remote, encodeControl .syn 10, true⟩, some 0⟩] →
      (n.peer.sessions.object? 0).map (fun s => s.inner.convId) = some 20 →
      ¬ n.peer.Greets n'.peer n.CarriesOwn := by
    rintro n n' sent adopted ⟨out, grown, own⟩
    obtain rfl := List.append_cancel_left (grown.symm.trans sent)
    obtain ⟨id, s, origin, present, _, carried⟩ := own _ List.mem_cons_self 10 rfl
    cases origin
    rw [present, Option.map_some, carried] at adopted
    cases adopted
  have call : ((tasksMachine SampleKcp 1 .default).exec Machine.always
      (tasksMachine SampleKcp 1 .default).start
      [.call .remote [1], .advanceSample, .advanceSample, .advanceSample, .advanceSample,
        .arriveSample (encodeControl .syn 20)]).any
      (fun n => (n.step .advanceSample).any fun n' => decide
        (n'.peer.outbox = n.peer.outbox ++ [⟨⟨.remote, encodeControl .syn 10, true⟩, some 0⟩] ∧
          (n.peer.sessions.object? 0).map (fun s => s.inner.convId) = some 20)) = true := by
    decide +kernel
  have retry : ((tasksMachine SampleKcp 1 .default).exec Machine.always
      (tasksMachine SampleKcp 1 .default).start
      [.call .remote [1], .advanceSample, .advanceSample, .advanceSample, .advanceSample,
        .advanceSample, .tick 0 10000, .scan [canonicalize .remote], .updSample, .updSample,
        .updSample, .arriveSample (encodeControl .syn 20)]).any
      (fun n => (n.step .updSample).any fun n' => decide
        (n'.peer.outbox = n.peer.outbox ++ [⟨⟨.remote, encodeControl .syn 10, true⟩, some 0⟩] ∧
          (n.peer.sessions.object? 0).map (fun s => s.inner.convId) = some 20)) = true := by
    decide +kernel
  refine ⟨?_, ?_⟩
  · obtain ⟨n, reached, checked⟩ := Machine.Reach.exec_any _ call
    obtain ⟨n', taken, checked⟩ := (Option.any_eq_true ..).mp checked
    obtain ⟨sent, adopted⟩ := of_decide_eq_true checked
    exact ⟨n, n', _, reached, taken, ⟨_, _, _, _, rfl⟩, stale n n' sent adopted⟩
  · obtain ⟨n, reached, checked⟩ := Machine.Reach.exec_any _ retry
    obtain ⟨n', taken, checked⟩ := (Option.any_eq_true ..).mp checked
    obtain ⟨sent, adopted⟩ := of_decide_eq_true checked
    exact ⟨n, n', _, reached, taken, ⟨_, _, rfl⟩, stale n n' sent adopted⟩

end KcpPeer
