import KcpPeer.RegistryStep

set_option autoImplicit false

namespace KcpPeer

inductive Side where
  | a
  | b
  deriving DecidableEq, Repr

def Side.other : Side → Side
  | .a => .b
  | .b => .a

@[simp] theorem Side.other_other (x : Side) : x.other.other = x := by
  cases x <;> rfl

@[simp] theorem Side.other_ne (x : Side) : x.other ≠ x := by
  cases x <;> decide

theorem Side.eq_or_eq_other (x y : Side) : y = x ∨ y = x.other := by
  cases x <;> cases y <;> decide

/-- A datagram in flight. The last two fields are history, invisible to the
receiver: which bind of the sender it left from, and which of that bind's
sessions submitted it. -/
structure Flight where
  dst : Side
  bytes : Bytes
  bindNo : Nat
  origin : Option SessionId
  deriving DecidableEq, Repr

/-- One peer of the pair and its history: how often the address was bound, which
datagram established each session, how often `send()` was called, and the
payloads `send()` accepted while the session was `SynSent`. -/
structure Party (K : Type) where
  peer : Peer K
  bindNo : Nat
  establishedBy : SessionId → Option Flight
  sends : Nat
  buffered : List Bytes

/-- Two peers at fixed addresses and the datagrams between them, oldest first. -/
structure Network (K : Type) where
  party : Side → Party K
  flights : List Flight

/-- One atomic step of a peer, or one act of the network. `sendTo` is what the
peer's socket answers during the step. -/
inductive Action where
  | send (x : Side) (data : Bytes) (draw : DrawnConv) (clock : Clock)
      (sendTo : Bytes → SocketAddr → Except IoError Nat)
  | disconnect (x : Side) (sendTo : Bytes → SocketAddr → Except IoError Nat)
  | tick (x : Side) (tick : Tick) (sendTo : Bytes → SocketAddr → Except IoError Nat)
  | rebind (x : Side) (incarnation : UInt64)
  | deliver (index : Nat) (clock : Clock) (sendTo : Bytes → SocketAddr → Except IoError Nat)
  | drop (index : Nat)
  | duplicate (index : Nat)

/-- Where the two peers are bound and how they are configured. The bound address
of a peer is the source address the other one sees. -/
structure Setting where
  addr : Side → SocketAddr
  incarnation : Side → UInt64
  config : Side → KcpConfig

namespace Party

variable {K : Type} [Kcp K]

def bind (incarnation : UInt64) (config : KcpConfig) (bindNo : Nat) : Party K :=
  ⟨.bind incarnation config, bindNo, fun _ => none, 0, []⟩

/-- The session object is `Established`. -/
def isEstablished (p : Peer K) (id : SessionId) : Bool :=
  match p.sessions.object? id with
  | some s => decide (s.inner.state = .established)
  | none => false

def isSynSent (p : Peer K) (can : CanonicalAddr) : Bool :=
  match p.sessions.find can with
  | some (_, s) => decide (s.inner.state = .synSent)
  | none => false

def receive (x : Party K) (f : Flight) (src : SocketAddr) (clock : Clock) (socket : Socket) :
    Party K :=
  let after := (x.peer.handleIncoming f.bytes src clock socket).1
  { x with
    peer := after
    establishedBy := fun id =>
      if isEstablished after id && !isEstablished x.peer id then some f else x.establishedBy id }

def send (x : Party K) (peer : SocketAddr) (data : Bytes) (draw : DrawnConv) (clock : Clock)
    (socket : Socket) : Party K :=
  let (after, result) := x.peer.send peer data draw clock socket
  { x with
    peer := after
    sends := x.sends + 1
    buffered :=
      if result.isOk && isSynSent after (canonicalize peer) then x.buffered ++ [data]
      else x.buffered }

end Party

namespace Network

variable {K : Type} [Kcp K]

/-- The accepted datagrams of a party's step go on the wire. -/
def launch (n : Network K) (setting : Setting) (x : Side) (party : Party K) : Network K where
  party := Function.update n.party x { party with peer := { party.peer with outbox := [] } }
  flights := n.flights ++
    ((party.peer.outbox.filter fun o => o.accepted && decide (o.dest = setting.addr x.other)).map
      fun o => ⟨x.other, o.bytes, party.bindNo, o.origin⟩)

omit [Kcp K] in
/-- What holds of the party that has stepped, and held of the others, holds of each. -/
theorem launch_each {n : Network K} {setting : Setting} {x : Side} {party : Party K}
    {P : Side → Party K → Prop} (self : P x { party with peer := { party.peer with outbox := [] } })
    (others : ∀ y, P y (n.party y)) : ∀ y, P y ((n.launch setting x party).party y) :=
  (Function.forall_update_iff n.party P).mpr ⟨self, fun y _ => others y⟩

def socketOf (setting : Setting) (x : Side)
    (sendTo : Bytes → SocketAddr → Except IoError Nat) : Socket :=
  ⟨.ok (setting.addr x), sendTo⟩

def step (setting : Setting) (n : Network K) : Action → Option (Network K)
  | .send x data draw clock sendTo =>
      some (n.launch setting x
        ((n.party x).send (setting.addr x.other) data draw clock (socketOf setting x sendTo)))
  | .disconnect x sendTo =>
      let peer := (n.party x).peer.disconnect (setting.addr x.other) (socketOf setting x sendTo)
      some (n.launch setting x { n.party x with peer })
  | .tick x tick sendTo =>
      ((n.party x).peer.apply (.tick tick (socketOf setting x sendTo))).map fun peer =>
        n.launch setting x { n.party x with peer }
  | .rebind x incarnation =>
      let party := Party.bind incarnation (setting.config x) ((n.party x).bindNo + 1)
      some { n with party := Function.update n.party x party }
  | .deliver index clock sendTo =>
      n.flights[index]?.map fun f =>
        launch { n with flights := n.flights.eraseIdx index } setting f.dst
          ((n.party f.dst).receive f (setting.addr f.dst.other) clock
            (socketOf setting f.dst sendTo))
  | .drop index =>
      if index < n.flights.length then some { n with flights := n.flights.eraseIdx index } else none
  | .duplicate index =>
      n.flights[index]?.map fun f => { n with flights := n.flights ++ [f] }

end Network

/-- Runs of two peers over a network. -/
def networkMachine (K : Type) [Kcp K] (setting : Setting) : Machine (Network K) Action where
  start := ⟨fun x => .bind (setting.incarnation x) (setting.config x) 0, []⟩
  step := Network.step setting

end KcpPeer
