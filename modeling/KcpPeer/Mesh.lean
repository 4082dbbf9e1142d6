import KcpPeer.Wire

set_option autoImplicit false

namespace KcpPeer

/-- A datagram between two addresses. -/
structure Datagram where
  src : SocketAddr
  dest : SocketAddr
  bytes : Bytes
  deriving DecidableEq, Repr

/-- History of one `random_range` in `initiate_session`: the peer that drew, the
address it opened a session to, and the value. -/
structure Draw (ι : Type) where
  drawer : ι
  toward : SocketAddr
  conv : UInt32
  deriving DecidableEq, Repr

/-- Any number of peers, the datagrams between them, and every conversation id
drawn so far. -/
structure Mesh (ι K : Type) where
  peer : ι → Peer K
  flights : List Datagram
  draws : List (Draw ι)

/-- Each peer has one concrete address, the source of all its datagrams. -/
structure MeshSetting (ι : Type) where
  addr : ι → SocketAddr
  incarnation : ι → UInt64
  config : ι → KcpConfig

/-- One atomic step of a peer, or one act of the network. -/
inductive MeshAction (ι : Type) where
  | send (i : ι) (peer : SocketAddr) (data : Bytes) (draw : DrawnConv) (clock : Clock)
      (socket : Socket)
  | disconnect (i : ι) (peer : SocketAddr) (socket : Socket)
  | tick (i : ι) (tick : Tick) (socket : Socket)
  | restart (i : ι) (incarnation : UInt64)
  | deliver (index : Nat) (i : ι) (clock : Clock) (socket : Socket)
  | drop (index : Nat)
  | duplicate (index : Nat)

def Peer.clearOutbox {K : Type} (p : Peer K) : Peer K := { p with outbox := [] }

namespace Mesh

variable {ι K : Type} [DecidableEq ι]

/-- What a peer's socket took goes on the wire. -/
def launch (n : Mesh ι K) (setting : MeshSetting ι) (i : ι) (p : Peer K) : Mesh ι K :=
  { n with
    peer := Function.update n.peer i p.clearOutbox
    flights := n.flights ++
      (p.outbox.filter (·.accepted)).map fun o => ⟨setting.addr i, o.dest, o.bytes⟩ }

/-- `initiate_session` draws when the map holds no session for the peer. -/
def recordDraw (n : Mesh ι K) (i : ι) (peer : SocketAddr) (draw : DrawnConv) : Mesh ι K :=
  match (n.peer i).sessions.find (canonicalize peer) with
  | some _ => n
  | none => { n with draws := n.draws ++ [⟨i, peer, draw.val⟩] }

variable [Kcp K]

/-- A datagram reaches the peer bound at its destination, in either notation of
an IPv4 address. -/
def deliver (n : Mesh ι K) (setting : MeshSetting ι) (index : Nat) (i : ι) (clock : Clock)
    (socket : Socket) : Option (Mesh ι K) :=
  n.flights[index]?.bind fun d =>
    if canonicalize d.dest = canonicalize (setting.addr i) then
      some (launch { n with flights := n.flights.eraseIdx index } setting i
        ((n.peer i).clearOutbox.handleIncoming d.bytes d.src clock socket).1)
    else none

def step (setting : MeshSetting ι) (n : Mesh ι K) : MeshAction ι → Option (Mesh ι K)
  | .send i peer data draw clock socket =>
      some ((n.recordDraw i peer draw).launch setting i
        ((n.peer i).clearOutbox.send peer data draw clock socket).1)
  | .disconnect i peer socket =>
      some (n.launch setting i ((n.peer i).clearOutbox.disconnect peer socket))
  | .tick i tick socket =>
      ((n.peer i).clearOutbox.apply (.tick tick socket)).map (n.launch setting i)
  | .restart i incarnation =>
      some { n with peer := Function.update n.peer i (.bind incarnation (setting.config i)) }
  | .deliver index i clock socket => n.deliver setting index i clock socket
  | .drop index =>
      if index < n.flights.length then some { n with flights := n.flights.eraseIdx index } else none
  | .duplicate index => n.flights[index]?.map fun d => { n with flights := n.flights ++ [d] }

end Mesh

/-- Runs of any number of peers over a network. -/
def meshMachine (ι K : Type) [DecidableEq ι] [Kcp K] (setting : MeshSetting ι) :
    Machine (Mesh ι K) (MeshAction ι) where
  start := ⟨fun i => .bind (setting.incarnation i) (setting.config i), [], []⟩
  step := Mesh.step setting

end KcpPeer
