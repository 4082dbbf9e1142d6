import KcpPeer.Registry

set_option autoImplicit false

namespace KcpPeer

namespace Registry

/-- Every session is filed under the canonical form of its address. -/
def Keyed (r : Registry) : Prop :=
  ∀ can id v, r.sessions.find can = some (id, v) → canonicalize v.peerAddr = can

/-- What one atomic operation can do to the session of one address. -/
inductive Step : Registry → Registry → Prop
  | deliver (r : Registry) (id : SessionId) (msgs : List DataMessage) : Step r (r.deliver id msgs)
  | openTo (r : Registry) (peer : SocketAddr) (conv : UInt32)
      (absent : r.sessions.find (canonicalize peer) = none) : Step r (r.openTo peer conv)
  | accept (r : Registry) (src : SocketAddr) (conv : UInt32)
      (absent : r.sessions.find (canonicalize src) = none) : Step r (r.accept src conv)
  | establish (r : Registry) (id : SessionId) (v : View) (conv : UInt32) (src : SocketAddr)
      (found : r.sessions.find (canonicalize src) = some (id, v)) (waiting : v.state = .synSent) :
      Step r (r.establish id v conv src)
  | restart (r : Registry) (id : SessionId) (v : View) (conv : UInt32) (src : SocketAddr)
      (found : r.sessions.find (canonicalize src) = some (id, v))
      (ready : v.state = .established) : Step r ((r.supersede id v src).accept src conv)
  | close (r : Registry) (id : SessionId) (v : View) (addr : SocketAddr)
      (found : r.sessions.find (canonicalize addr) = some (id, v)) :
      Step r (r.close (canonicalize addr) id v addr)

section Find

variable {r : Registry} {id : SessionId} {v : View} {src : SocketAddr}

theorem find_openTo (peer : SocketAddr) (conv : UInt32) (can : CanonicalAddr) :
    (r.openTo peer conv).sessions.find can =
      if can = canonicalize peer then some (r.sessions.fresh, ⟨peer, false, .synSent, conv⟩)
      else r.sessions.find can :=
  Store.find_insertNew ..

theorem find_accept (conv : UInt32) (can : CanonicalAddr) :
    (r.accept src conv).sessions.find can =
      if can = canonicalize src then some (r.sessions.fresh, ⟨src, false, .established, conv⟩)
      else r.sessions.find can :=
  Store.find_insertNew ..

theorem find_establish (conv : UInt32) (can : CanonicalAddr)
    (found : r.sessions.find (canonicalize src) = some (id, v)) :
    (r.establish id v conv src).sessions.find can =
      if can = canonicalize src then some (id, { v with state := .established, convId := conv })
      else r.sessions.find can :=
  Store.find_modify _ _ _ found

theorem find_supersede (can : CanonicalAddr)
    (found : r.sessions.find (canonicalize src) = some (id, v)) :
    (r.supersede id v src).sessions.find can =
      if can = canonicalize src then some (id, { v with closed := true })
      else r.sessions.find can :=
  Store.find_modify _ _ _ found

theorem find_close (can : CanonicalAddr)
    (found : r.sessions.find (canonicalize src) = some (id, v)) :
    (r.close (canonicalize src) id v src).sessions.find can =
      if can = canonicalize src then none else r.sessions.find can := by
  have named := (Store.find_eq_some.mp found).1
  have unnamed : (r.sessions.remove (canonicalize src)).lookup can ≠ some id := by
    rw [Store.lookup_remove]
    split
    · simp
    · rename_i other
      exact fun named' => other (Store.lookup_injective named' named)
  change ((r.sessions.remove (canonicalize src)).modify id _).find can = _
  rw [Store.find_modify_unnamed _ _ _ unnamed, Store.find_remove]

end Find

theorem Step.keyed {r r' : Registry} (step : Step r r') (keyed : r.Keyed) : r'.Keyed := by
  intro can id' v' found'
  cases step with
  | deliver => exact keyed can id' v' found'
  | openTo peer conv =>
      rw [find_openTo] at found'
      split at found'
      · rename_i same
        cases found'
        exact same.symm
      · exact keyed can id' v' found'
  | accept src conv =>
      rw [find_accept] at found'
      split at found'
      · rename_i same
        cases found'
        exact same.symm
      · exact keyed can id' v' found'
  | establish id v conv src found =>
      rw [find_establish conv can found] at found'
      split at found'
      · rename_i same
        cases found'
        exact (keyed _ _ _ found).trans same.symm
      · exact keyed can id' v' found'
  | restart id v conv src found =>
      rw [find_accept, find_supersede can found] at found'
      split at found'
      · rename_i same
        cases found'
        exact same.symm
      · exact keyed can id' v' found'
  | close id v addr found =>
      rw [find_close can found] at found'
      split at found'
      · cases found'
      · exact keyed can id' v' found'

open Relation (ReflTransGen)

theorem send_steps (r : Registry) (peer : SocketAddr) (conv : UInt32) :
    ReflTransGen Step r (r.send peer conv) := by
  unfold send
  split
  · exact .refl
  · rename_i absent
    exact .single (.openTo r peer conv absent)

theorem disconnect_steps (r : Registry) (peer : SocketAddr) :
    ReflTransGen Step r (r.disconnect peer) := by
  unfold disconnect
  split
  · exact .refl
  · rename_i id v found
    exact .single (.close r id v peer found)

theorem syn_steps (r : Registry) (src : SocketAddr) (conv : UInt32) (yields : Bool) :
    ReflTransGen Step r (r.syn src conv yields) := by
  unfold syn
  split
  · rename_i absent
    exact .single (.accept r src conv absent)
  · rename_i id v found
    split
    · exact .refl
    · split
      · rename_i waiting
        exact .single (.establish r id v _ src found waiting)
      · rename_i ready
        exact .single (.restart r id v conv src found ready)

theorem synAck_steps (r : Registry) (src : SocketAddr) (conv : UInt32) :
    ReflTransGen Step r (r.synAck src conv) := by
  unfold synAck
  split
  · exact .refl
  · rename_i id v found
    split
    · exact .refl
    · rename_i waiting
      split
      · exact .single (.establish r id v _ src found waiting)
      · exact .refl

theorem reset_steps (r : Registry) (src : SocketAddr) (conv : UInt32) :
    ReflTransGen Step r (r.reset src conv) := by
  unfold reset
  split
  · exact .refl
  · rename_i id v found
    split
    · exact .single (.close r id v src found)
    · exact .refl

theorem prune_steps (r : Registry) (keyed : r.Keyed) (can : CanonicalAddr) :
    ReflTransGen Step r (r.prune can) := by
  unfold prune
  split
  · exact .refl
  · rename_i id v found
    have own := keyed can id v found
    subst own
    exact .single (.close r id v v.peerAddr found)

theorem keyed_of_steps {r r' : Registry} (steps : ReflTransGen Step r r') (keyed : r.Keyed) :
    r'.Keyed := by
  induction steps with
  | refl => exact keyed
  | tail _ step ih => exact step.keyed ih

theorem foldl_prune_steps (toRemove : List CanonicalAddr) (r : Registry) (keyed : r.Keyed) :
    ReflTransGen Step r (toRemove.foldl prune r) := by
  induction toRemove generalizing r with
  | nil => exact .refl
  | cons can rest ih =>
      have first := prune_steps r keyed can
      exact first.trans (ih _ (keyed_of_steps first keyed))

end Registry

namespace Peer

variable {K : Type} [Kcp K]

open Relation (ReflTransGen)

theorem handleIncoming_steps (p : Peer K) (data : Bytes) (src : SocketAddr) (clock : Clock)
    (socket : Socket) :
    ReflTransGen Registry.Step p.registry (p.handleIncoming data src clock socket).1.registry := by
  unfold handleIncoming
  split
  · exact .refl
  · rename_i payload _
    rcases registry_handleKcpData p payload src clock socket with same | ⟨id, s, msgs, _, delivered⟩
    · rw [same]
    · rw [delivered]
      exact .single (.deliver p.registry id msgs)
  · rename_i payload _
    cases decoded : readConv payload with
    | none => simp only [handleSyn, decoded]; exact .refl
    | some conv =>
        cases addr : socket.localAddr with
        | error e => simp only [handleSyn, decoded, addr]; exact .refl
        | ok myAddr =>
            rw [registry_handleSyn p src clock socket decoded addr]
            exact Registry.syn_steps ..
  · rename_i payload _
    cases decoded : readConv payload with
    | none => simp only [handleSynAck, decoded]; exact .refl
    | some conv =>
        rw [registry_handleSynAck p src clock socket decoded]
        exact Registry.synAck_steps ..
  · rename_i payload _
    cases decoded : readConv payload with
    | none => simp only [handleReset, decoded]; exact .refl
    | some conv =>
        rw [registry_handleReset p src decoded]
        exact Registry.reset_steps ..

/-- Every atomic operation of a peer is a sequence of registry steps. -/
theorem apply_steps {p p' : Peer K} {op : PeerOp} (applied : p.apply op = some p')
    (keyed : p.registry.Keyed) : ReflTransGen Registry.Step p.registry p'.registry := by
  cases op with
  | send peer data draw clock socket =>
      obtain rfl := Option.some.inj applied
      rw [registry_send]
      exact Registry.send_steps ..
  | disconnect peer socket =>
      obtain rfl := Option.some.inj applied
      rw [registry_disconnect]
      exact Registry.disconnect_steps ..
  | tick tick socket =>
      obtain ⟨_, rfl⟩ := apply_tick applied
      rw [registry_updateTick]
      exact Registry.foldl_prune_steps _ _ keyed
  | incoming data src clock socket =>
      obtain rfl := Option.some.inj applied
      exact handleIncoming_steps ..

end Peer

/-- Runs of one peer made of atomic operations. -/
def peerMachine (K : Type) [Kcp K] (incarnation : UInt64) (config : KcpConfig) :
    Machine (Peer K) PeerOp where
  start := .bind incarnation config
  step := Peer.apply

theorem peerMachine_keyed {K : Type} [Kcp K] {incarnation : UInt64} {config : KcpConfig}
    {guard : Peer K → PeerOp → Prop} {p : Peer K}
    (reached : (peerMachine K incarnation config).Reach guard p) : p.registry.Keyed := by
  refine reached.invariant (P := fun p => p.registry.Keyed) ?_ ?_
  · intro can id v found
    simp [peerMachine] at found
  · intro before op after keyed _ applied
    exact Registry.keyed_of_steps (Peer.apply_steps applied keyed) keyed

end KcpPeer
