import KcpPeer.Evolution
import KcpPeer.SampleKcp

set_option autoImplicit false

namespace KcpPeer

namespace Board

variable {b b' : Board} {actor : Actor}

/-- A session that is written keeps the conversation ids if its own is kept. -/
theorem conv_set {r : Registry} {id : SessionId} {v : View} (v' : View)
    (present : r.sessions.object? id = some v) (same : v'.convId = v.convId) {id₁ : SessionId}
    {v₁ : View} (before : r.sessions.object? id₁ = some v₁) :
    ∃ v₂, (r.set id v').sessions.object? id₁ = some v₂ ∧ v₂.convId = v₁.convId := by
  by_cases here : id = id₁
  · subst here
    obtain rfl := Option.some.inj (present.symm.trans before)
    refine ⟨v', ?_, same⟩
    rw [Registry.set, Store.object?_modify_self, present, Option.map_some]
  · refine ⟨v₁, ?_, rfl⟩
    rw [Registry.set, Store.object?_modify_ne _ _ here]
    exact before

/-- Only the handler of a datagram that has just arrived changes a conversation
id. -/
theorem Step.conv_kept (step : b.Step actor b') (later : actor = .recv → b.recv ≠ .idle)
    {id : SessionId} {v : View} (present : b.registry.sessions.object? id = some v) :
    ∃ v', b'.registry.sessions.object? id = some v' ∧ v'.convId = v.convId := by
  have inserts : ∀ {sessions : Store CanonicalAddr View} (can : CanonicalAddr) (v₁ : View),
      sessions.object? id = some v → (sessions.insertNew can v₁).object? id = some v := by
    intro sessions can v₁ present
    have below := Store.object?_lt present
    rw [Store.object?_insertNew, if_neg (Nat.ne_of_lt below)]
    exact present
  cases step with
  | hears pc idle => exact absurd idle (later rfl)
  | establishes id₁ v₁ conv src pc idle => exact absurd idle (later rfl)
  | supersedes id₁ v₁ conv src idle => exact absurd idle (later rfl)
  | accepts src conv created unlocked => exact ⟨v, inserts _ _ present, rfl⟩
  | opens peer conv absent unlocked => exact ⟨v, inserts _ _ present, rfl⟩
  | unmaps src conv id₁ removed v₁ isMatched unlocked found =>
      exact ⟨v, by simpa only [Store.object?_remove] using present, rfl⟩
  | closes src id₁ v₁ removed present₁ =>
      exact conv_set { v₁ with closed := true } present₁ rfl present
  | prunes can judged removed rest horizon v₁ removing found =>
      have present₁ : (b.registry.sessions.remove can).object? removed = some v₁ :=
        (Store.find_eq_some.mp found).2
      exact conv_set (r := ⟨b.registry.sessions.remove can, b.registry.log⟩)
        { v₁ with closed := true } present₁ rfl present
  | disconnects peer id₁ v₁ unlocked found =>
      have present₁ : (b.registry.sessions.remove (canonicalize peer)).object? id₁ = some v₁ :=
        (Store.find_eq_some.mp found).2
      exact conv_set (r := ⟨b.registry.sessions.remove (canonicalize peer), b.registry.log⟩)
        { v₁ with closed := true } present₁ rfl present
  | _ => exact ⟨v, present, rfl⟩

/-- While the map is locked for the scan its keys name what they named. -/
theorem Step.lookup_kept (step : b.Step actor b') (locked : b.upd.isScanning = true)
    (can : CanonicalAddr) :
    b'.registry.sessions.lookup can = b.registry.sessions.lookup can := by
  cases step with
  | establishes id v conv src pc idle found => exact Store.lookup_modify ..
  | supersedes id v conv src idle found => exact Store.lookup_modify ..
  | closes src id v removed present => exact Store.lookup_modify ..
  | accepts src conv created unlocked => simp [unlocked] at locked
  | unmaps src conv id removed v isMatched unlocked => simp [unlocked] at locked
  | opens peer conv absent unlocked => simp [unlocked] at locked
  | disconnects peer id v unlocked => simp [unlocked] at locked
  | prunes can₁ judged removed rest horizon v removing found =>
      rw [removing] at locked
      cases locked
  | _ => rfl

/-- Without a call, and unless the SYN handler inserts, keys name only what they
named. -/
theorem Step.lookup_old (step : b.Step actor b') (background : actor ≠ .api)
    (uncreated : actor = .recv → ∀ src conv, b.recv ≠ .synCreated src conv) {can : CanonicalAddr}
    {id : SessionId} (named : b'.registry.sessions.lookup can = some id) :
    b.registry.sessions.lookup can = some id := by
  have removed : ∀ can₁, (b.registry.sessions.remove can₁).lookup can = some id →
      b.registry.sessions.lookup can = some id := by
    intro can₁ named
    rw [Store.lookup_remove] at named
    split at named
    · cases named
    · exact named
  cases step with
  | establishes id₁ v conv src pc idle found => exact (Store.lookup_modify ..).symm.trans named
  | supersedes id₁ v conv src idle found => exact (Store.lookup_modify ..).symm.trans named
  | closes src id₁ v isRemoved present => exact (Store.lookup_modify ..).symm.trans named
  | accepts src conv created unlocked => exact absurd created (uncreated rfl src conv)
  | unmaps src conv id₁ old v isMatched unlocked found => exact removed _ named
  | prunes can₁ judged old rest horizon v removing found =>
      exact removed can₁ ((Store.lookup_modify ..).symm.trans named)
  | opens peer conv absent unlocked => exact absurd rfl background
  | disconnects peer id₁ v unlocked found => exact absurd rfl background
  | _ => exact named

theorem Step.upd_kept (step : b.Step actor b') (other : actor ≠ .upd) : b'.upd = b.upd := by
  cases step with
  | updates => exact absurd rfl other
  | passes => exact absurd rfl other
  | prunes => exact absurd rfl other
  | _ => rfl

end Board

namespace Tasks

variable {K : Type}

theorem setSession_conv_other {p : Peer K} {id id₁ : SessionId} {s : Session K} (s₁ : Session K)
    (other : id₁ ≠ id) (present : p.sessions.object? id = some s) :
    ∃ s', (p.setSession id₁ s₁).sessions.object? id = some s' ∧
      s'.inner.convId = s.inner.convId := by
  refine ⟨s, ?_, rfl⟩
  rw [Peer.setSession, Store.object?_modify_ne _ _ other]
  exact present

theorem setSession_conv {p : Peer K} {id id₁ : SessionId} {s s₀ : Session K} (s₁ : Session K)
    (present₁ : p.sessions.object? id₁ = some s₀) (same : s₁.inner.convId = s₀.inner.convId)
    (present : p.sessions.object? id = some s) :
    ∃ s', (p.setSession id₁ s₁).sessions.object? id = some s' ∧
      s'.inner.convId = s.inner.convId := by
  by_cases here : id₁ = id
  · subst here
    obtain rfl := Option.some.inj (present₁.symm.trans present)
    exact ⟨s₁, Peer.object?_setSession p s₁ present, same⟩
  · exact setSession_conv_other s₁ here present

/-- The session whose conversation id this step replaces by the remote's: the
handler of a SYN found it waiting under another id, and the remote's address
is the greater one. -/
def adopts (n : Tasks K) : TaskStep → Option SessionId
  | .arrive data src _ socket =>
      match splitPacket data with
      | some (.syn, payload) =>
          match readConv payload, socket.localAddr, n.peer.sessions.find (canonicalize src) with
          | some conv, .ok myAddr, some (id, s) =>
              if s.inner.state = .synSent ∧ s.inner.convId ≠ conv ∧ myAddr < src then some id
              else none
          | _, _, _ => none
      | _ => none
  | _ => none

variable [Kcp K] {n n' : Tasks K}

theorem synDecide_conv {src : SocketAddr} {conv : UInt32} {myAddr : SocketAddr} {clock : Clock}
    {socket : Socket} {id : SessionId} {s : Session K}
    (present : n.peer.sessions.object? id = some s)
    (kept : ∀ s₁, n.peer.sessions.find (canonicalize src) = some (id, s₁) →
      s₁.inner.state = .synSent → s₁.inner.convId ≠ conv → ¬ myAddr < src) :
    ∃ s', (n.peer.synDecide src conv myAddr clock socket).1.sessions.object? id = some s' ∧
      s'.inner.convId = s.inner.convId := by
  unfold Peer.synDecide
  split
  · exact ⟨s, present, rfl⟩
  · rename_i id₁ s₁ found
    have present₁ := (Store.find_eq_some.mp found).2
    split
    · split
      · exact setSession_conv (s₁.touch clock.epochMs) present₁ rfl present
      · exact ⟨s, present, rfl⟩
    · rename_i different
      split
      · rename_i waiting
        split
        · rename_i yields
          refine setSession_conv_other _ ?_ present
          rintro rfl
          exact kept s₁ found waiting different yields
        · exact setSession_conv ((s₁.establish clock.epochMs).pump clock.currentMs socket).1
            present₁
            rfl present
      · exact setSession_conv s₁.markClosed present₁ rfl present

theorem synAckAccept_conv (src : SocketAddr) (conv : UInt32) (clock : Clock) (socket : Socket)
    {id : SessionId} {s : Session K} (present : n.peer.sessions.object? id = some s) :
    ∃ s', (n.peer.synAckAccept src conv clock socket).sessions.object? id = some s' ∧
      s'.inner.convId = s.inner.convId := by
  unfold Peer.synAckAccept
  split
  · exact ⟨s, present, rfl⟩
  · rename_i id₁ s₁ found
    have present₁ := (Store.find_eq_some.mp found).2
    split
    · exact ⟨s, present, rfl⟩
    · split
      · exact setSession_conv ((s₁.establish clock.epochMs).pump clock.currentMs socket).1 present₁
          rfl present
      · exact ⟨s, present, rfl⟩

theorem Arrives.conv {data : Bytes} {src : SocketAddr} {clock : Clock} {socket : Socket}
    {id : SessionId} {s : Session K} (first : n.Arrives data src clock socket n')
    (present : n.peer.sessions.object? id = some s)
    (kept : n.adopts (.arrive data src clock socket) ≠ some id) :
    ∃ s', n'.peer.sessions.object? id = some s' ∧ s'.inner.convId = s.inner.convId := by
  cases first with
  | syn payload conv myAddr isSyn carried bound =>
      refine synDecide_conv present ?_
      intro s₁ found waiting different yields
      refine kept ?_
      simp only [adopts, isSyn, carried, bound, found]
      exact if_pos ⟨waiting, different, yields⟩
  | synAck conv => exact synAckAccept_conv src _ clock socket present
  | _ => exact ⟨s, present, rfl⟩

/-- Every step keeps the conversation id of every session, but for the one that
adopts the remote's. -/
theorem conv_kept {label : TaskStep} (taken : n.step label = some n') {id : SessionId}
    {s : Session K} (present : n.peer.sessions.object? id = some s)
    (kept : n.adopts label ≠ some id) :
    ∃ s', n'.peer.sessions.object? id = some s' ∧ s'.inner.convId = s.inner.convId := by
  have later : (label.actor = .recv → n.board.recv ≠ .idle) →
      ∃ s', n'.peer.sessions.object? id = some s' ∧ s'.inner.convId = s.inner.convId := by
    intro later
    obtain ⟨v', visible, conv⟩ := (step_board taken).conv_kept later (object?_board present)
    rw [board, Peer.registry_object?] at visible
    obtain ⟨s', present', rfl⟩ := Option.map_eq_some_iff.mp visible
    exact ⟨s', present', conv⟩
  cases label with
  | arrive data src clock socket =>
      cases step_moves taken with
      | arrives _ _ _ _ idle _ first => exact first.conv present kept
  | recv clock socket =>
      refine later fun _ idle => ?_
      simp only [step, recvStep, show n.recv = .idle from idle] at taken
      cases taken
  | _ => exact later (by rintro ⟨⟩)

end Tasks

end KcpPeer
