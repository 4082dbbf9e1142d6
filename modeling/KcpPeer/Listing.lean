import KcpPeer.Histories
import KcpPeer.Spelling

set_option autoImplicit false

namespace KcpPeer

/-- The RESET handler has been through the map, and has yet to announce the session it
looked up. -/
inductive RecvPc.Unmapped (src : SocketAddr) : RecvPc → Prop
  | removed (id : SessionId) : Unmapped src (.resetRemoved src id)
  | closed (id : SessionId) : Unmapped src (.resetClosed src id)

namespace Registry

/-- The map holds a session for the address that is established and not closed. -/
def OpenFor (r : Registry) (can : CanonicalAddr) : Prop :=
  ∃ id v, r.sessions.find can = some (id, v) ∧ v.closed = false ∧ v.state = .established

/-- The last event about the address tells whether the map holds an open session for it. -/
def Tells (r : Registry) (can : CanonicalAddr) : Prop :=
  (eventsFor can r.log).getLast? = some .connected ↔ r.OpenFor can

section Tells

variable {r r' : Registry} {can : CanonicalAddr}

theorem openFor_of_find {id : SessionId} {v : View} (found : r.sessions.find can = some (id, v)) :
    r.OpenFor can ↔ v.closed = false ∧ v.state = .established := by
  constructor
  · rintro ⟨id', v', found', opened⟩
    cases found.symm.trans found'
    exact opened
  · intro opened
    exact ⟨id, v, found, opened⟩

theorem not_openFor_of_absent (absent : r.sessions.find can = none) : ¬ r.OpenFor can := by
  rintro ⟨id, v, found, _⟩
  cases absent.symm.trans found

theorem openFor_congr (same : r'.sessions.find can = r.sessions.find can) :
    r'.OpenFor can ↔ r.OpenFor can := by
  simp only [OpenFor, same]

theorem Tells.keep (tells : r.Tells can) (same : r'.sessions.find can = r.sessions.find can)
    (silent : eventsFor can r'.log = eventsFor can r.log) : r'.Tells can := by
  rw [Tells, silent, openFor_congr same]
  exact tells

/-- An event about another address, whose session is not written. -/
theorem Tells.other (tells : r.Tells can) {e : Event} {id : SessionId}
    (same : r'.sessions.find can = r.sessions.find can)
    (log : r'.log = r.log ++ [.event e id]) (other : canonicalize e.peer ≠ can) : r'.Tells can :=
  tells.keep same (by rw [log, eventsFor_other r.log id other])

theorem tells_own {e : Event} {id : SessionId} (log : r'.log = r.log ++ [.event e id])
    (own : canonicalize e.peer = can) (live : r'.OpenFor can ↔ e.kind = .connected) :
    r'.Tells can := by
  rw [Tells, log, eventsFor_own r.log id own, List.getLast?_concat, Option.some.injEq, live]

end Tells

end Registry

namespace Board

/-- What has been told about an address agrees with the map, but while the RESET handler is
on its way from the map to the announcement. -/
structure Mirrors (b : Board) : Prop where
  tells : ∀ can, (∀ src, b.recv.Unmapped src → canonicalize src ≠ can) → b.registry.Tells can
  gone : ∀ src, b.recv.Unmapped src → ¬ b.registry.OpenFor (canonicalize src)

section Mirrors

variable {actor : Actor} {b b' : Board}

theorem Mirrors.settled (ok : b.Mirrors) (free : ∀ src, ¬ b.recv.Unmapped src)
    (can : CanonicalAddr) : b.registry.Tells can :=
  ok.tells can fun src unmapped => absurd unmapped (free src)

theorem Mirrors.of_tells (free : ∀ src, ¬ b.recv.Unmapped src)
    (tells : ∀ can, b.registry.Tells can) : b.Mirrors :=
  ⟨fun can _ => tells can, fun src unmapped => absurd unmapped (free src)⟩

/-- The map's session of an address leaves it and is announced, by another task. -/
theorem Mirrors.close (ok : b.Mirrors) {addr : SocketAddr} {id : SessionId} {v : View}
    (found : b.registry.sessions.find (canonicalize addr) = some (id, v))
    (after : b'.registry = b.registry.close (canonicalize addr) id v addr)
    (same : b'.recv = b.recv) : b'.Mirrors := by
  have log : b'.registry.log = b.registry.log ++ [.event (.disconnected addr) id] := by
    rw [after]
    rfl
  have find : ∀ can, b'.registry.sessions.find can =
      if can = canonicalize addr then none else b.registry.sessions.find can := by
    intro can
    rw [after]
    exact Registry.find_close can found
  refine ⟨?_, ?_⟩
  · intro can away
    rw [same] at away
    by_cases own : can = canonicalize addr
    · have absent : ¬ b'.registry.OpenFor can :=
        Registry.not_openFor_of_absent ((find can).trans (if_pos own))
      exact Registry.tells_own log own.symm (iff_of_false absent (by simp [Event.kind]))
    · exact (ok.tells can away).other ((find can).trans (if_neg own)) log (Ne.symm own)
  · intro src unmapped
    rw [same] at unmapped
    by_cases own : canonicalize src = canonicalize addr
    · exact Registry.not_openFor_of_absent ((find _).trans (if_pos own))
    · rw [Registry.openFor_congr ((find _).trans (if_neg own))]
      exact ok.gone src unmapped

theorem Mirrors.step (sound : b.Sound) (announced : b.Announced) (fates : b.Fates)
    (ok : b.Mirrors) (step : b.Step actor b') : b'.Mirrors := by
  have free : ∀ {pc : RecvPc}, b.recv = pc → (∀ src, ¬ pc.Unmapped src) →
      ∀ can, b.registry.Tells can := by
    rintro pc rfl free
    exact ok.settled free
  cases step with
  | hears pc atRest starts =>
      refine .of_tells ?_ (free atRest (by rintro _ ⟨⟩))
      cases starts
      all_goals rintro _ ⟨⟩
  | establishes id v conv src pc atRest found waiting next =>
      have settled := free atRest (by rintro _ ⟨⟩)
      obtain ⟨farewell, history, fate⟩ := fates.fate id v (Store.find_eq_some.mp found).2
      have opened := (fate.open_of_named sound announced history
        (Store.find_eq_some.mp found).1 (Or.inr waiting)).2
      refine .of_tells ?_ ?_
      · rcases next with rfl | ⟨_, _, rfl, _⟩
        all_goals rintro _ ⟨⟩
      · intro can
        have find := Registry.find_establish conv can found
        by_cases own : can = canonicalize src
        · refine Registry.tells_own (r := b.registry) rfl own.symm ?_
          rw [Registry.openFor_of_find (find.trans (if_pos own))]
          simp [opened, Event.kind]
        · exact (settled can).other (find.trans (if_neg own)) rfl (Ne.symm own)
  | supersedes id v conv src atRest found ready =>
      have settled := free atRest (by rintro _ ⟨⟩)
      refine .of_tells (by rintro _ ⟨⟩) ?_
      intro can
      have find := Registry.find_supersede can found
      by_cases own : can = canonicalize src
      · refine Registry.tells_own (r := b.registry) rfl own.symm ?_
        rw [Registry.openFor_of_find (find.trans (if_pos own))]
        simp [Event.kind]
      · exact (settled can).other (find.trans (if_neg own)) rfl (Ne.symm own)
  | proceeds pc next =>
      refine .of_tells ?_ (free rfl ?_)
      · generalize b.recv = before at next
        cases next
        all_goals rintro _ ⟨⟩
      · generalize b.recv = before at next ⊢
        cases next
        all_goals rintro _ ⟨⟩
  | delivers id msgs batch drained =>
      refine .of_tells (by rintro _ ⟨⟩) ?_
      intro can
      exact (free drained (by rintro _ ⟨⟩) can).keep rfl (eventsFor_data ..)
  | accepts src conv created =>
      have settled := free created (by rintro _ ⟨⟩)
      refine .of_tells (by rintro _ ⟨⟩) ?_
      intro can
      have find : (b.registry.accept src conv).sessions.find can = _ :=
        Registry.find_accept conv can
      by_cases own : can = canonicalize src
      · refine Registry.tells_own (r := b.registry) rfl own.symm ?_
        rw [Registry.openFor_of_find (find.trans (if_pos own))]
        simp [Event.kind]
      · exact (settled can).other (find.trans (if_neg own)) rfl (Ne.symm own)
  | misses src conv id isMatched unlocked absent =>
      have settled := free isMatched (by rintro _ ⟨⟩)
      refine ⟨fun can _ => settled can, ?_⟩
      intro src' unmapped
      cases unmapped
      exact Registry.not_openFor_of_absent (Store.find_eq_none.mpr absent)
  | unmaps src conv id removed v isMatched =>
      have settled := free isMatched (by rintro _ ⟨⟩)
      refine ⟨?_, ?_⟩
      · intro can away
        have other : can ≠ canonicalize src := Ne.symm (away src (.removed id))
        exact (settled can).keep ((Store.find_remove ..).trans (if_neg other)) rfl
      · intro src' unmapped
        cases unmapped
        exact Registry.not_openFor_of_absent ((Store.find_remove ..).trans (if_pos rfl))
  | closes src id v removed present =>
      have unnamed := sound.unnamed id (by rw [removed]; exact .removed src)
      have find : ∀ can, (b.registry.set id { v with closed := true }).sessions.find can =
          b.registry.sessions.find can := fun can => Store.find_modify_unnamed _ _ _ (unnamed can)
      refine ⟨?_, ?_⟩
      · intro can away
        refine (ok.tells can ?_).keep (find can) rfl
        rw [removed]
        intro src' unmapped
        cases unmapped
        exact away src (.closed id)
      · intro src' unmapped
        cases unmapped
        rw [Registry.openFor_congr (find _)]
        exact ok.gone src (by rw [removed]; exact .removed id)
  | announces src id closed =>
      have gone := ok.gone src (by rw [closed]; exact .closed id)
      refine .of_tells (by rintro _ ⟨⟩) ?_
      intro can
      by_cases own : canonicalize src = can
      · refine Registry.tells_own (r := b.registry) rfl own (iff_of_false ?_ (by simp [Event.kind]))
        exact own ▸ gone
      · refine (ok.tells can ?_).other rfl rfl own
        rw [closed]
        intro src' unmapped
        cases unmapped
        exact own
  | prunes can judged removed rest horizon v removing found =>
      obtain ⟨named, present⟩ := Store.find_eq_some.mp found
      have home := sound.keyed can removed v named present
      subst home
      exact ok.close found rfl rfl
  | opens peer conv absent =>
      have find := Registry.find_openTo (r := b.registry) peer conv
      have waits : ¬ (b.registry.openTo peer conv).OpenFor (canonicalize peer) := by
        rw [Registry.openFor_of_find ((find _).trans (if_pos rfl))]
        simp
      have before := Registry.not_openFor_of_absent (Store.find_eq_none.mpr absent)
      refine ⟨?_, ?_⟩
      · intro can away
        have tells := ok.tells can away
        by_cases own : can = canonicalize peer
        · subst own
          exact iff_of_false (fun told => before (tells.mp told)) waits
        · exact tells.keep ((find can).trans (if_neg own)) rfl
      · intro src unmapped
        by_cases own : canonicalize src = canonicalize peer
        · rw [own]
          exact waits
        · rw [Registry.openFor_congr ((find _).trans (if_neg own))]
          exact ok.gone src unmapped
  | disconnects peer id v unlocked found => exact ok.close found rfl rfl
  | _ => exact ⟨ok.tells, ok.gone⟩

end Mirrors

end Board

namespace Peer

variable {K : Type}

/-- The map holds a session for the address that is not closed. -/
def lists (p : Peer K) (can : CanonicalAddr) : Bool :=
  (p.sessions.find can).any fun entry => !entry.2.closed

/-- `order` is the order in which the session map is iterated. -/
def peers (p : Peer K) (order : List CanonicalAddr) : List SocketAddr :=
  ((order.filterMap fun can => p.sessions.find can).filter fun entry => !entry.2.closed).map
    fun entry => entry.2.peerAddr

theorem lists_eq_true {p : Peer K} {can : CanonicalAddr} :
    p.lists can = true ↔ ∃ id s, p.sessions.find can = some (id, s) ∧ s.closed = false := by
  unfold lists
  cases found : p.sessions.find can with
  | none => simp
  | some entry =>
      obtain ⟨id, s⟩ := entry
      simp

/-- `peers()` lists the address of every open session of the map. -/
theorem canonicalize_peers {p : Peer K} (keyed : p.registry.Keyed) (order : List CanonicalAddr) :
    (p.peers order).map canonicalize = order.filter p.lists := by
  induction order with
  | nil => rfl
  | cons can rest ih =>
      unfold peers at ih ⊢
      rw [List.filterMap_cons, List.filter_cons]
      cases found : p.sessions.find can with
      | none =>
          have skipped : p.lists can = false := by simp [lists, found]
          simpa [skipped] using ih
      | some entry =>
          obtain ⟨id, s⟩ := entry
          cases closed : s.closed with
          | true =>
              have skipped : p.lists can = false := by simp [lists, found, closed]
              simpa [closed, skipped] using ih
          | false =>
              have isListed : p.lists can = true := by simp [lists, found, closed]
              have home : canonicalize s.peerAddr = can := by
                refine keyed can id s.view ?_
                rw [registry_find, found, Option.map_some]
              simpa [closed, isListed, home] using ih

/-- `stats()` answers for the sessions that `peers()` lists. -/
theorem isSome_stats [Kcp K] [KcpWindows K] (p : Peer K) (addr : SocketAddr) (now : UInt64) :
    (p.stats addr now).isSome = p.lists (canonicalize addr) := by
  unfold stats lists
  cases p.sessions.find (canonicalize addr) with
  | none => rfl
  | some entry =>
      cases closed : entry.2.closed with
      | true => simp [closed]
      | false => simp [closed]

end Peer

variable {K : Type} [Kcp K]

theorem tasksMachine_mirrors {guard : Tasks K → TaskStep → Prop} {incarnation : UInt64}
    {config : KcpConfig} {n : Tasks K}
    (reached : (tasksMachine K incarnation config).Reach guard n) : n.board.Mirrors := by
  refine reached.invariant_with (P := fun n => n.board.Mirrors)
    (fun _ reached => And.intro (tasksMachine_sound reached)
      (And.intro (Tasks.reach_announced reached) (tasksMachine_fates reached))) ?_ ?_
  · refine .of_tells (by rintro _ ⟨⟩) ?_
    intro can
    exact iff_of_false (by rintro ⟨⟩) (Registry.not_openFor_of_absent rfl)
  · intro before label after ok known _ taken
    exact ok.step known.1 known.2.1 known.2.2 (Tasks.step_board taken)

/-- The views that an application has of the sessions agree in every interleaving: `peers()`
lists no address twice, `stats()` answers for the listed addresses and no others, and whenever
the receive task is between two datagrams, the last event about an address was `Connected`
exactly if the map's session for it is established and listed. What `peers()` lists besides
are the addresses of handshakes that are under way. -/
theorem views_agree (K : Type) [Kcp K] [KcpWindows K] (incarnation : UInt64) (config : KcpConfig)
    (n : Tasks K) (reached : (tasksMachine K incarnation config).Reach Machine.always n)
    (order : List CanonicalAddr) (perm : order.Perm n.peer.sessions.keys) :
    let listed := (n.peer.peers order).map canonicalize
    listed.Nodup ∧
      (∀ addr now, (n.peer.stats addr now).isSome = true ↔ canonicalize addr ∈ listed) ∧
      (n.recv = .idle → ∀ can,
        ((eventsFor can n.peer.log).getLast? = some .connected ↔
          can ∈ listed ∧ ∃ id s, n.peer.sessions.find can = some (id, s) ∧
            s.inner.state = .established) ∧
        (can ∈ listed ↔ (eventsFor can n.peer.log).getLast? = some .connected ∨
          ∃ id s, n.peer.sessions.find can = some (id, s) ∧ s.inner.state = .synSent)) := by
  intro listed
  have sound := tasksMachine_sound reached
  have keyed : n.peer.registry.Keyed := by
    intro can id v found
    obtain ⟨named, present⟩ := Store.find_eq_some.mp found
    exact sound.keyed can id v named present
  have filtered : listed = order.filter n.peer.lists := Peer.canonicalize_peers keyed order
  have mem : ∀ can, can ∈ listed ↔ n.peer.lists can = true := by
    intro can
    rw [filtered, List.mem_filter, and_iff_right_iff_imp, perm.mem_iff, Peer.lists_eq_true]
    rintro ⟨id, s, found, _⟩
    exact Store.mem_keys_iff.mpr ⟨id, (Store.find_eq_some.mp found).1⟩
  refine ⟨?_, ?_, ?_⟩
  · rw [filtered]
    exact (perm.nodup_iff.mpr n.peer.sessions.keys_nodup).filter _
  · intro addr now
    rw [Peer.isSome_stats, mem]
  · intro atRest can
    have idle : ∀ src, ¬ n.board.recv.Unmapped src := by
      rw [show n.board.recv = .idle from atRest]
      rintro src ⟨⟩
    have tells := (tasksMachine_mirrors reached).settled idle can
    have tells : (eventsFor can n.peer.log).getLast? = some .connected ↔
        n.peer.registry.OpenFor can := tells
    have waiting : ∀ id s, n.peer.sessions.find can = some (id, s) →
        s.inner.state = .synSent → s.closed = false := by
      intro id s found state
      obtain ⟨named, present⟩ := Store.find_eq_some.mp (Tasks.find_board found)
      obtain ⟨farewell, history, fate⟩ := (tasksMachine_fates reached).fate id s.view present
      exact (fate.open_of_named sound (Tasks.reach_announced reached) history named
        (Or.inr state)).2
    rw [tells, mem, Peer.lists_eq_true]
    cases found : n.peer.sessions.find can with
    | none =>
        have absent : n.peer.registry.sessions.find can = none := by
          rw [Peer.registry_find, found, Option.map_none]
        simp [Registry.not_openFor_of_absent absent]
    | some entry =>
        obtain ⟨id, s⟩ := entry
        have visible : n.peer.registry.sessions.find can = some (id, s.view) := by
          rw [Peer.registry_find, found, Option.map_some]
        rw [Registry.openFor_of_find visible]
        have fields : s.view.closed = s.closed ∧ s.view.state = s.inner.state := ⟨rfl, rfl⟩
        rw [fields.1, fields.2]
        cases state : s.inner.state with
        | established => simp [state]
        | synSent => simp [state, waiting id s found state]

/-- The remote resets a session that the application disconnects from, and comes back. -/
theorem views_agree_again :
    ∃ n : Tasks SampleKcp,
      eventsFor (canonicalize .remote) n.peer.log =
        [.connected, .disconnected, .disconnected, .connected] ∧
      canonicalize .remote ∈ (n.peer.peers n.peer.sessions.keys).map canonicalize ∧
      (n.peer.stats .remote 5).isSome = true := by
  have run : ((tasksMachine SampleKcp 1 .default).exec Machine.always
      (tasksMachine SampleKcp 1 .default).start
      [.arriveSample (encodeControl .syn 20), .recvSample, .recvSample, .recvSample,
        .arriveSample (encodeControl .reset 20), .recvSample, .disconnect .remote .sample,
        .recvSample, .recvSample, .recvSample,
        .arriveSample (encodeControl .syn 21), .recvSample, .recvSample, .recvSample]).any
      (fun n => decide (n.recv = .idle ∧ eventsFor (canonicalize .remote) n.peer.log =
        [.connected, .disconnected, .disconnected, .connected])) = true := by
    decide +kernel
  obtain ⟨n, reached, checked⟩ := Machine.Reach.exec_any _ run
  obtain ⟨atRest, events⟩ := of_decide_eq_true checked
  obtain ⟨_, stats, told⟩ := views_agree SampleKcp 1 .default n reached _ (.refl _)
  have connected : (eventsFor (canonicalize .remote) n.peer.log).getLast? = some .connected := by
    rw [events]
    rfl
  have isListed := ((told atRest (canonicalize .remote)).1.mp connected).1
  exact ⟨n, events, isListed, (stats .remote 5).mpr isListed⟩

end KcpPeer
