import KcpPeer.Effects
import KcpPeer.KcpSpec
import KcpPeer.Mesh
import KcpPeer.SampleKcp

set_option autoImplicit false

namespace KcpPeer

/-- The peer that drew `conv` is bound at one of the two addresses and drew it
to open a session to the other. -/
def MeshSetting.DrawnBetween {ι : Type} (setting : MeshSetting ι) (draws : List (Draw ι))
    (left right : SocketAddr) (conv : UInt32) : Prop :=
  ∃ d ∈ draws, d.conv = conv ∧
    (canonicalize (setting.addr d.drawer) = canonicalize left ∧
        canonicalize d.toward = canonicalize right ∨
      canonicalize (setting.addr d.drawer) = canonicalize right ∧
        canonicalize d.toward = canonicalize left)

namespace MeshSetting

variable {ι : Type} {setting : MeshSetting ι} {draws draws' : List (Draw ι)}
  {left left' right : SocketAddr} {conv : UInt32}

theorem DrawnBetween.symm (drawn : setting.DrawnBetween draws left right conv) :
    setting.DrawnBetween draws right left conv := by
  obtain ⟨d, mem, value, ends⟩ := drawn
  exact ⟨d, mem, value, ends.symm⟩

theorem DrawnBetween.mono (drawn : setting.DrawnBetween draws left right conv)
    (later : draws ⊆ draws') : setting.DrawnBetween draws' left right conv := by
  obtain ⟨d, mem, value, ends⟩ := drawn
  exact ⟨d, later mem, value, ends⟩

theorem DrawnBetween.at (drawn : setting.DrawnBetween draws left right conv)
    (same : canonicalize left = canonicalize left') :
    setting.DrawnBetween draws left' right conv := by
  obtain ⟨d, mem, value, ends⟩ := drawn
  rw [same] at ends
  exact ⟨d, mem, value, ends⟩

end MeshSetting

/-- A session bears the conversation id of its instance, which was drawn at one
end of the session, and has not retried its SYN too often. -/
structure Session.Traced {ι K : Type} [Kcp K] (c : ConvField K) (setting : MeshSetting ι)
    (draws : List (Draw ι)) (home : SocketAddr) (config : KcpConfig) (s : Session K) : Prop where
  conv : s.inner.convId = c.conv s.inner.kcp
  drawn : setting.DrawnBetween draws home s.peerAddr s.inner.convId
  retries : s.synRetries ≤ config.synMaxRetries

namespace Peer

variable {ι K : Type} [Kcp K] {c : ConvField K} {setting : MeshSetting ι}
  {draws : List (Draw ι)} {home : SocketAddr}

/-- All sessions of a peer bound at `home` are traced, and so are its SYNs. -/
structure Traced (c : ConvField K) (setting : MeshSetting ι) (draws : List (Draw ι))
    (home : SocketAddr) (p : Peer K) : Prop where
  sessions : ∀ id s, p.sessions.object? id = some s → s.Traced c setting draws home p.config
  outbox : ∀ o ∈ p.outbox, ∀ conv, o.msg = .syn conv →
    setting.DrawnBetween draws home o.dest conv

/-- What the operation brings in: the ids of incoming SYNs and those it draws. -/
structure Informed (setting : MeshSetting ι) (draws : List (Draw ι)) (home : SocketAddr)
    (op : PeerOp) : Prop where
  syn : ∀ src conv, op.IsSyn src conv → setting.DrawnBetween draws home src conv
  draw : ∀ peer data draw clock socket, op = .send peer data draw clock socket →
    setting.DrawnBetween draws home peer draw.val

/-- An operation that neither handles a datagram nor draws. -/
theorem Informed.of_local {op : PeerOp}
    (noPacket : ∀ data src clock socket, op ≠ .incoming data src clock socket)
    (noSend : ∀ peer data draw clock socket, op ≠ .send peer data draw clock socket) :
    Informed setting draws home op := by
  refine ⟨?_, ?_⟩
  · rintro src conv ⟨data, clock, socket, same, _⟩
    exact absurd same (noPacket data src clock socket)
  · intro peer data draw clock socket same
    exact absurd same (noSend peer data draw clock socket)

theorem Alters.traced {op : PeerOp} {can : CanonicalAddr} {config : KcpConfig} {s s' : Session K}
    (alters : Alters op can config s s') (keyed : canonicalize s.peerAddr = can)
    (informed : Informed setting draws home op) (ok : s.Traced c setting draws home config) :
    s'.Traced c setting draws home config := by
  cases alters with
  | write kcp lastRx written =>
      obtain ⟨bufs, calls, _⟩ := written
      exact ⟨ok.conv.trans (c.run calls).symm, ok.drawn, ok.retries⟩
  | syn waiting sentAt retries counted =>
      refine ⟨ok.conv, ok.drawn, ?_⟩
      rcases counted with rfl | ⟨below, rfl⟩
      · exact ok.retries
      · have small := s.synRetries.toNat_lt
        have max := config.synMaxRetries.toNat_lt
        rw [UInt32.lt_iff_toNat_lt] at below
        rw [UInt32.le_iff_toNat_le, UInt32.toNat_add]
        simp only [UInt32.toNat_one]
        omega
  | establish waiting now => exact ⟨ok.conv, ok.drawn, ok.retries⟩
  | @adopt src conv waiting own isSyn now =>
      refine ⟨(c.setConv _ _).symm, ?_, ok.retries⟩
      have drawn := (informed.syn src conv isSyn).symm
      exact (drawn.at (own.trans keyed.symm)).symm
  | close => exact ⟨ok.conv, ok.drawn, ok.retries⟩

theorem Creates.traced {op : PeerOp} {can : CanonicalAddr} {config : KcpConfig} {s : Session K}
    (creates : Creates op can config s) (informed : Informed setting draws home op) :
    s.Traced c setting draws home config := by
  have conv : ∀ conv, conv = c.conv (config.applyTo (Kcp.new conv)) := fun conv =>
    (c.applyTo config conv).symm
  cases creates with
  | initiate asked own incarnation now =>
      exact ⟨conv _, informed.draw _ _ _ _ _ asked, UInt32.zero_le⟩
  | accept isSyn own incarnation now =>
      exact ⟨conv _, informed.syn _ _ isSyn, UInt32.zero_le⟩

theorem Traced.submit {p p' : Peer K} (ok : p.Traced c setting draws home)
    {origin : Option SessionId} {out : List Submission}
    (sessions : ∀ id s, p'.sessions.object? id = some s →
      s.Traced c setting draws home p'.config)
    (grown : p'.outbox = (p.submit origin out).outbox)
    (traced : ∀ o ∈ out, ∀ conv, Msg.decode o.bytes = .syn conv →
      setting.DrawnBetween draws home o.dest conv) :
    p'.Traced c setting draws home := by
  refine ⟨sessions, ?_⟩
  intro o mem conv isSyn
  rw [grown] at mem
  rcases List.mem_append.mp mem with old | new
  · exact ok.outbox o old conv isSyn
  · obtain ⟨submission, sent, rfl⟩ := List.mem_map.mp new
    exact traced submission sent conv isSyn

theorem Effect.traced {op : PeerOp} {can : CanonicalAddr} {p p' : Peer K}
    (effect : Effect op can p p') (keyed : p.registry.Keyed)
    (informed : Informed setting draws home op) (ok : p.Traced c setting draws home) :
    p'.Traced c setting draws home := by
  have sessions : ∀ id s, p'.sessions.object? id = some s →
      s.Traced c setting draws home p'.config := by
    intro id s' present'
    rw [effect.config]
    rcases effect.object present' with kept | ⟨s, found, alters⟩ | ⟨_, creates⟩
    · exact ok.sessions id s' kept
    · exact alters.traced (keyed_iff.mp keyed can id s found) informed
        (ok.sessions id s (Store.find_eq_some.mp found).2)
    · exact creates.traced informed
  have quiet : p'.outbox = p.outbox → p'.Traced c setting draws home := by
    intro same
    refine ⟨sessions, ?_⟩
    rw [same]
    exact ok.outbox
  cases effect with
  | write found kcp lastRx written =>
      obtain ⟨bufs, _, rfl, _⟩ := written
      refine ok.submit sessions rfl ?_
      intro o mem conv isSyn
      obtain ⟨buf, _, rfl⟩ := List.mem_map.mp mem
      simp [Socket.submit] at isSyn
  | @syn id s found waiting sentAt retries counted socket =>
      refine ok.submit sessions rfl ?_
      intro o mem conv isSyn
      cases List.mem_singleton.mp mem
      simp only [Session.synSubmission, Socket.submit, Msg.decode_syn, Msg.syn.injEq] at isSyn
      subst isSyn
      exact (ok.sessions id s (Store.find_eq_some.mp found).2).drawn
  | acknowledge own conv =>
      refine ok.submit sessions rfl ?_
      intro o mem conv isSyn
      cases List.mem_singleton.mp mem
      simp [Socket.submit] at isSyn
  | reset own conv =>
      refine ok.submit sessions rfl ?_
      intro o mem conv isSyn
      cases List.eq_of_mem_replicate mem
      simp [Socket.submit] at isSyn
  | establish => exact quiet rfl
  | adopt => exact quiet rfl
  | initiate => exact quiet rfl
  | accept => exact quiet rfl
  | supersede => exact quiet rfl
  | close => exact quiet rfl
  | deliver => exact quiet rfl

end Peer

namespace Mesh

variable {ι K : Type} [Kcp K] {c : ConvField K} {setting : MeshSetting ι}

/-- The invariant of a mesh: the peers' sessions and the SYNs in flight bear ids
drawn between the two ends. -/
structure Traced (c : ConvField K) (setting : MeshSetting ι) (n : Mesh ι K) : Prop where
  keyed : ∀ i, (n.peer i).registry.Keyed
  peers : ∀ i, (n.peer i).Traced c setting n.draws (setting.addr i)
  flights : ∀ d ∈ n.flights, ∀ conv, Msg.decode d.bytes = .syn conv →
    setting.DrawnBetween n.draws d.src d.dest conv
  nonzero : ∀ d ∈ n.draws, d.conv ≠ 0

/-- Datagrams may get lost or be copied. -/
theorem Traced.wire {n : Mesh ι K} (ok : n.Traced c setting) {flights : List Datagram}
    (known : ∀ d ∈ flights, d ∈ n.flights) : Traced c setting { n with flights } :=
  ⟨ok.keyed, ok.peers, fun d mem => ok.flights d (known d mem), ok.nonzero⟩

/-- One more id is drawn. -/
theorem Traced.drawing {n : Mesh ι K} (ok : n.Traced c setting) (i : ι) (peer : SocketAddr)
    (draw : DrawnConv) :
    Traced c setting { n with draws := n.draws ++ [⟨i, peer, draw.val⟩] } := by
  have later : n.draws ⊆ n.draws ++ [⟨i, peer, draw.val⟩] := List.subset_append_left ..
  refine ⟨ok.keyed, ?_, ?_, ?_⟩
  · intro j
    refine ⟨?_, ?_⟩
    · intro id s present
      obtain ⟨conv, drawn, retries⟩ := (ok.peers j).sessions id s present
      exact ⟨conv, drawn.mono later, retries⟩
    · intro o mem conv isSyn
      exact ((ok.peers j).outbox o mem conv isSyn).mono later
  · intro d mem conv isSyn
    exact (ok.flights d mem conv isSyn).mono later
  · intro d mem
    rcases List.mem_append.mp mem with old | new
    · exact ok.nonzero d old
    · cases List.mem_singleton.mp new
      exact draw.nonzero

variable [DecidableEq ι]

/-- A peer of the mesh does an operation, and its datagrams go on the wire. -/
theorem Traced.launch {n : Mesh ι K} (ok : n.Traced c setting) (i : ι) {op : PeerOp} {p : Peer K}
    (effects : Peer.Effects op (n.peer i).clearOutbox p)
    (informed : Peer.Informed setting n.draws (setting.addr i) op) :
    (n.launch setting i p).Traced c setting := by
  have before : (n.peer i).clearOutbox.Traced c setting n.draws (setting.addr i) := by
    refine ⟨(ok.peers i).sessions, ?_⟩
    rintro o ⟨⟩
  obtain ⟨keyed, after⟩ := effects.invariant
    (P := fun p => p.Traced c setting n.draws (setting.addr i))
    (fun _ _ _ effect keyed traced => effect.traced keyed informed traced) (ok.keyed i) before
  refine ⟨?_, ?_, ?_, ok.nonzero⟩
  · exact (Function.forall_update_iff n.peer fun _ p => p.registry.Keyed).mpr
      ⟨keyed, fun j _ => ok.keyed j⟩
  · refine (Function.forall_update_iff n.peer fun j p =>
      p.Traced c setting n.draws (setting.addr j)).mpr ⟨⟨after.sessions, ?_⟩, fun j _ => ok.peers j⟩
    rintro o ⟨⟩
  · intro d mem conv isSyn
    rcases List.mem_append.mp mem with old | new
    · exact ok.flights d old conv isSyn
    · obtain ⟨o, sent, rfl⟩ := List.mem_map.mp new
      exact after.outbox o (List.mem_filter.mp sent).1 conv isSyn

theorem step_traced {n n' : Mesh ι K} {action : MeshAction ι} (ok : n.Traced c setting)
    (taken : n.step setting action = some n') : n'.Traced c setting := by
  cases action with
  | send i peer data draw clock socket =>
      obtain rfl := Option.some.inj taken
      unfold recordDraw
      cases found : (n.peer i).sessions.find (canonicalize peer) with
      | some entry =>
          -- with a session in the map nothing is drawn
          dsimp only
          have present : (n.peer i).clearOutbox.sessions.find (canonicalize peer) = some entry :=
            found
          unfold Peer.send
          rw [present]
          have sent : Peer.EffectsAt (.disconnect peer socket) _ _ _ :=
            Peer.sendOn_effects present data clock socket
          exact ok.launch i sent.effects (.of_local (by simp) (by simp))
      | none =>
          refine (ok.drawing i peer draw).launch i (Peer.send_effects ..).effects ⟨?_, ?_⟩
          · rintro src conv ⟨_, _, _, same, _⟩
            cases same
          · rintro peer data draw clock socket ⟨⟩
            exact ⟨_, List.mem_append_right _ (List.mem_singleton_self _), rfl, .inl ⟨rfl, rfl⟩⟩
  | disconnect i peer socket =>
      obtain rfl := Option.some.inj taken
      exact ok.launch i (Peer.disconnect_effects ..).effects (.of_local (by simp) (by simp))
  | tick i tick socket =>
      obtain ⟨p, applied, rfl⟩ := Option.map_eq_some_iff.mp taken
      exact ok.launch i (Peer.apply_effects applied (ok.keyed i))
        (.of_local (by simp) (by simp))
  | restart i incarnation =>
      obtain rfl := Option.some.inj taken
      refine ⟨?_, ?_, ok.flights, ok.nonzero⟩
      · refine (Function.forall_update_iff n.peer fun _ p => p.registry.Keyed).mpr
          ⟨?_, fun j _ => ok.keyed j⟩
        intro can id v found
        simp at found
      · refine (Function.forall_update_iff n.peer fun j p =>
          p.Traced c setting n.draws (setting.addr j)).mpr ⟨⟨?_, ?_⟩, fun j _ => ok.peers j⟩
        · rintro id s ⟨⟩
        · rintro o ⟨⟩
  | deliver index i clock socket =>
      obtain ⟨d, flying, taken⟩ := Option.bind_eq_some_iff.mp taken
      split at taken
      · rename_i reaches
        obtain rfl := Option.some.inj taken
        have rest := ok.wire fun d mem => List.mem_of_mem_eraseIdx (i := index) mem
        refine rest.launch i Peer.handleIncoming_effects.effects ⟨?_, ?_⟩
        · rintro src conv ⟨data, clock, socket, same, isSyn⟩
          cases same
          have drawn := ok.flights d (List.mem_of_getElem? flying) conv isSyn
          exact (drawn.symm.at reaches)
        · rintro peer data draw clock socket ⟨⟩
      · cases taken
  | drop index =>
      simp only [step] at taken
      split at taken
      · obtain rfl := Option.some.inj taken
        exact ok.wire fun d mem => List.mem_of_mem_eraseIdx mem
      · cases taken
  | duplicate index =>
      obtain ⟨d, flying, rfl⟩ := Option.map_eq_some_iff.mp taken
      refine ok.wire ?_
      intro d' mem
      rcases List.mem_append.mp mem with old | copy
      · exact old
      · cases List.mem_singleton.mp copy
        exact List.mem_of_getElem? flying

end Mesh

theorem meshMachine_traced {ι K : Type} [DecidableEq ι] [Kcp K] (c : ConvField K)
    {setting : MeshSetting ι} {n : Mesh ι K}
    (reached : (meshMachine ι K setting).Reach Machine.always n) : n.Traced c setting := by
  refine reached.invariant (P := Mesh.Traced c setting) ⟨?_, ?_, ?_, ?_⟩ ?_
  · intro i can id v found
    simp [meshMachine] at found
  · intro i
    refine ⟨?_, ?_⟩
    · rintro id s ⟨⟩
    · rintro o ⟨⟩
  · rintro d ⟨⟩
  · rintro d ⟨⟩
  · intro before action after ok _ taken
    exact Mesh.step_traced ok taken

/-- The representation invariant of every session map in a network of honest peers. -/
theorem session_map_representation (ι K : Type) [DecidableEq ι] [Kcp K] (c : ConvField K)
    (setting : MeshSetting ι) (n : Mesh ι K)
    (reached : (meshMachine ι K setting).Reach Machine.always n) (i : ι) (key : CanonicalAddr)
    (id : SessionId) (s : Session K) (entry : (n.peer i).sessions.find key = some (id, s)) :
    key = canonicalize s.peerAddr ∧
    s.inner.convId = c.conv s.inner.kcp ∧
    s.inner.convId ≠ 0 ∧
    setting.DrawnBetween n.draws (setting.addr i) s.peerAddr s.inner.convId ∧
    s.synRetries ≤ (n.peer i).config.synMaxRetries := by
  have ok := meshMachine_traced c reached
  have traced := (ok.peers i).sessions id s (Store.find_eq_some.mp entry).2
  refine ⟨(Peer.keyed_iff.mp (ok.keyed i) key id s entry).symm, traced.conv, ?_, traced.drawn,
    traced.retries⟩
  obtain ⟨d, drawn, value, _⟩ := traced.drawn
  rw [← value]
  exact ok.nonzero d drawn

/-- `10.0.0.1:7000` and `10.0.0.2:7000` as a mesh. -/
def MeshSetting.sample : MeshSetting Side :=
  ⟨Setting.sample.addr, Setting.sample.incarnation, Setting.sample.config⟩

/-- The first peer opens a session and the second accepts it. -/
theorem session_map_representation_accepted :
    ∃ n : Mesh Side SampleKcp,
      (meshMachine Side SampleKcp .sample).Reach Machine.always n ∧
      ∃ id s, (n.peer .b).sessions.find (canonicalize (MeshSetting.sample.addr .a)) = some (id, s) ∧
        s.inner.convId ≠ 0 ∧
        MeshSetting.sample.DrawnBetween n.draws (MeshSetting.sample.addr .b) s.peerAddr
          s.inner.convId := by
  have run : ((meshMachine Side SampleKcp .sample).exec Machine.always
      (meshMachine Side SampleKcp .sample).start
      [.send .a (MeshSetting.sample.addr .b) [1] .ten .sample .sample,
        .deliver 0 .b .sample .sample]).any
      (fun n => ((n.peer .b).sessions.find (canonicalize (MeshSetting.sample.addr .a))).isSome) =
        true := by
    decide +kernel
  obtain ⟨n, reached, held⟩ := Machine.Reach.exec_any _ run
  obtain ⟨⟨id, s⟩, entry⟩ := Option.isSome_iff_exists.mp held
  have represented := session_map_representation Side SampleKcp SampleKcp.convStamp.field .sample n
    reached .b _ id s entry
  exact ⟨n, reached, id, s, entry, represented.2.2.1, represented.2.2.2.1⟩

end KcpPeer
