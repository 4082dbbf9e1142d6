import KcpPeer.KcpSpec
import KcpPeer.Network
import KcpPeer.Tasks

set_option autoImplicit false

namespace KcpPeer

/-- KCP on a link that loses nothing: segments, acknowledgements and the receive
queue of the crate, without retransmission or congestion control. -/
structure SampleKcp where
  conv : UInt32
  updated : Bool
  current : UInt32
  sndNxt : Nat
  rcvNxt : Nat
  acks : List (Nat × Nat)
  sndQueue : List Bytes
  sent : List Bytes
  received : List Bytes
  deriving DecidableEq, Repr

namespace SampleKcp

inductive Err where
  | convInconsistent
  | invalidSegmentSize
  | needUpdate
  | recvQueueEmpty
  | userBufTooSmall
  | ioError (e : IoError)
  deriving DecidableEq, Repr

def cmdPush : UInt8 := 81

def cmdAck : UInt8 := 82

/-- The 24-byte header (conv, cmd, frg, wnd, ts, sn, una, len) and the data. -/
def segment (k : SampleKcp) (cmd : UInt8) (ts sn : Nat) (data : Bytes) : Bytes :=
  toLeBytes k.conv ++ [cmd, 0, 128, 0] ++ toLeBytes (UInt32.ofNat ts) ++
    toLeBytes (UInt32.ofNat sn) ++ toLeBytes (UInt32.ofNat k.rcvNxt) ++
    toLeBytes (UInt32.ofNat data.length) ++ data

/-- Acknowledgements first, then the queued payloads, in one buffer. -/
def flushBuffer (k : SampleKcp) : Bytes :=
  (k.acks.flatMap fun ack => k.segment cmdAck ack.2 ack.1 []) ++
    (k.sndQueue.zipIdx k.sndNxt).flatMap fun (data, sn) => k.segment cmdPush k.current.toNat sn data

def emptied (k : SampleKcp) : SampleKcp :=
  { k with
    acks := []
    sndQueue := []
    sent := k.sent ++ k.sndQueue
    sndNxt := k.sndNxt + k.sndQueue.length }

def writeOut (writer : Writer) (k : SampleKcp) : SampleKcp × List Bytes × Except Err Unit :=
  match k.flushBuffer with
  | [] => (k, [], .ok ())
  | buf@(_ :: _) =>
      match writer buf with
      | .ok _ => (k.emptied, [buf], .ok ())
      | .error e => (k.emptied, [buf], .error (.ioError e))

/-- One segment of a datagram: its command, timestamp, number and data, and the rest. -/
def parse (bytes : Bytes) : Option (UInt8 × Nat × Nat × Bytes × Bytes) :=
  match readConv (bytes.drop 8), readConv (bytes.drop 12), readConv (bytes.drop 20), bytes[4]? with
  | some ts, some sn, some len, some cmd =>
      let rest := bytes.drop 24
      if rest.length < len.toNat then none
      else some (cmd, ts.toNat, sn.toNat, rest.take len.toNat, rest.drop len.toNat)
  | _, _, _, _ => none

def accept (k : SampleKcp) (cmd : UInt8) (ts sn : Nat) (data : Bytes) : SampleKcp :=
  if cmd = cmdPush then
    let k := { k with acks := k.acks ++ [(sn, ts)] }
    if sn = k.rcvNxt then { k with rcvNxt := k.rcvNxt + 1, received := k.received ++ [data] } else k
  else k

def inputLoop : Nat → SampleKcp → Bytes → SampleKcp × Except Err Unit
  | 0, k, _ => (k, .ok ())
  | fuel + 1, k, bytes =>
      if bytes.isEmpty then (k, .ok ())
      else
        match readConv bytes with
        | none => (k, .error .invalidSegmentSize)
        | some conv =>
            if conv ≠ k.conv then (k, .error .convInconsistent)
            else
              match parse bytes with
              | none => (k, .error .invalidSegmentSize)
              | some (cmd, ts, sn, data, rest) => inputLoop fuel (k.accept cmd ts sn data) rest

end SampleKcp

instance : Kcp SampleKcp where
  Err := SampleKcp.Err
  new conv := ⟨conv, false, 0, 0, 0, [], [], [], []⟩
  setNodelay k _ _ _ _ := k
  setWndsize k _ _ := k
  setRxMinrto k _ := k
  setFastResend k _ := k
  setMaximumResendTimes k _ := k
  setInterval k _ := k
  setMtu k _ := k
  setConv k conv := { k with conv }
  isDeadLink _ := false
  waitSnd k := k.sndQueue.length
  send k data := ({ k with sndQueue := k.sndQueue ++ [data] }, .ok ())
  update k now writer := SampleKcp.writeOut writer { k with updated := true, current := now }
  flush k writer :=
    if k.updated then SampleKcp.writeOut writer k else (k, [], .error .needUpdate)
  input k data :=
    if data.length < 24 then (k, .error .invalidSegmentSize)
    else SampleKcp.inputLoop data.length k data
  peeksize k :=
    match k.received with
    | [] => .error .recvQueueEmpty
    | msg :: _ => .ok msg.length
  recv k size :=
    match k.received with
    | [] => (k, .error .recvQueueEmpty)
    | msg :: rest =>
        if size < msg.length then (k, .error .userBufTooSmall)
        else ({ k with received := rest }, .ok msg)
  rcvQueue k := k.received

namespace SampleKcp

theorem inputLoop_spec (fuel : Nat) (k : SampleKcp) (bytes : Bytes) :
    (inputLoop fuel k bytes).1.sndQueue = k.sndQueue ∧
      (inputLoop fuel k bytes).1.conv = k.conv := by
  induction fuel generalizing k bytes with
  | zero => exact ⟨rfl, rfl⟩
  | succ fuel ih =>
      unfold inputLoop
      repeat' split
      · exact ⟨rfl, rfl⟩
      · exact ⟨rfl, rfl⟩
      · exact ⟨rfl, rfl⟩
      · exact ⟨rfl, rfl⟩
      · rename_i cmd ts sn data rest _
        have accepted : (k.accept cmd ts sn data).sndQueue = k.sndQueue ∧
            (k.accept cmd ts sn data).conv = k.conv := by
          simp only [accept]
          repeat' split
          all_goals exact ⟨rfl, rfl⟩
        obtain ⟨queue, conv⟩ := ih (k.accept cmd ts sn data) rest
        exact ⟨queue.trans accepted.1, conv.trans accepted.2⟩

theorem quiet_spec {k k' : SampleKcp} (call : Kcp.Quiet k k') :
    k'.sndQueue = k.sndQueue ∧ k'.conv = k.conv := by
  cases call with
  | input data =>
      simp only [Kcp.input]
      repeat' split
      all_goals first | exact ⟨rfl, rfl⟩ | exact inputLoop_spec ..
  | recv size =>
      simp only [Kcp.recv]
      repeat' split
      all_goals exact ⟨rfl, rfl⟩
  | _ => exact ⟨rfl, rfl⟩

theorem silent_conv {k k' : SampleKcp} (call : Kcp.Silent k k') : k'.conv = k.conv := by
  cases call with
  | quiet call => exact (quiet_spec call).2
  | send data => rfl

theorem readConv_segment (k : SampleKcp) (cmd : UInt8) (ts sn : Nat) (data rest : Bytes) :
    readConv (k.segment cmd ts sn data ++ rest) = some k.conv := by
  simp only [segment, List.append_assoc]
  exact readConv_toLeBytes ..

theorem writeOut_spec (writer : Writer) (k : SampleKcp) :
    (writeOut writer k).1.conv = k.conv ∧
      (∃ moved, k.sndQueue = moved ++ (writeOut writer k).1.sndQueue) ∧
      ∀ buf ∈ (writeOut writer k).2.1, readConv buf = some k.conv := by
  have stamped : k.flushBuffer ≠ [] → readConv k.flushBuffer = some k.conv := by
    intro nonempty
    unfold flushBuffer at nonempty ⊢
    cases pending : k.acks with
    | cons ack acks =>
        rw [List.flatMap_cons, List.append_assoc]
        exact readConv_segment ..
    | nil =>
        cases queue : k.sndQueue with
        | nil => simp [pending, queue] at nonempty
        | cons data rest =>
            rw [List.flatMap_nil, List.nil_append, List.zipIdx_cons, List.flatMap_cons]
            exact readConv_segment ..
  unfold writeOut
  split
  · exact ⟨rfl, ⟨[], rfl⟩, by simp⟩
  · rename_i first rest written
    rw [written] at stamped
    split
    · exact ⟨rfl, ⟨k.sndQueue, (List.append_nil _).symm⟩, by simpa using stamped⟩
    · exact ⟨rfl, ⟨k.sndQueue, (List.append_nil _).symm⟩, by simpa using stamped⟩

/-- Its send queue. -/
def sendQueue : SendQueue SampleKcp where
  queued := sndQueue
  new _ := rfl
  quiet _ _ call := (quiet_spec call).1
  setConv _ _ := rfl
  taken k data k' called := by
    cases called
    rfl
  refused k data k' e called := by cases called
  update k now writer := (writeOut_spec writer { k with updated := true, current := now }).2.1
  flush k writer := by
    simp only [Kcp.flush]
    split
    · exact (writeOut_spec writer k).2.1
    · exact ⟨[], rfl⟩

theorem recvQueue : RecvQueue SampleKcp where
  front k size peeked := by
    cases queue : k.received with
    | nil => simp only [Kcp.peeksize, queue, reduceCtorEq] at peeked
    | cons msg rest =>
        simp only [Kcp.peeksize, queue, Except.ok.injEq] at peeked
        subst peeked
        refine ⟨{ k with received := rest }, msg, ?_, queue⟩
        simp only [Kcp.recv, queue, Nat.lt_irrefl, ↓reduceIte]

/-- It checks the header of the first segment before it takes anything in. -/
def headerCheck : HeaderCheck SampleKcp where
  conv := conv
  refuses k data wrong := by
    simp only [Kcp.input]
    split
    · exact ⟨_, rfl⟩
    · rename_i long
      have foreign : readConv data ≠ some k.conv := wrong.resolve_left long
      have nonempty : data.isEmpty = false := by
        cases data with
        | nil => simp at long
        | cons b rest => rfl
      obtain ⟨fuel, length⟩ : ∃ fuel, data.length = fuel + 1 :=
        Nat.exists_eq_succ_of_ne_zero (by omega)
      rw [length]
      simp only [inputLoop, nonempty, Bool.false_eq_true, ↓reduceIte]
      cases read : readConv data with
      | none => exact ⟨_, rfl⟩
      | some conv =>
          have other : conv ≠ k.conv := fun same => foreign (read.trans (congrArg some same))
          simp only [ne_eq, other, not_false_eq_true, ↓reduceIte]
          exact ⟨_, rfl⟩

/-- Its output is stamped when it is written. -/
def convStamp : ConvStamp SampleKcp where
  conv := conv
  Unsent _ := True
  Uniform _ := True
  conv_new _ := rfl
  conv_setConv _ _ := rfl
  conv_silent _ _ call := silent_conv call
  conv_update k now writer := (writeOut_spec writer { k with updated := true, current := now }).1
  conv_flush k writer := by
    simp only [Kcp.flush]
    split
    · exact (writeOut_spec writer k).1
    · rfl
  unsent_new _ := trivial
  unsent_setConv _ _ _ := trivial
  unsent_silent _ _ _ _ := trivial
  uniform_unsent _ _ := trivial
  uniform_silent _ _ _ _ := trivial
  uniform_update _ _ _ _ := trivial
  uniform_flush _ _ _ := trivial
  update_output k now writer _ :=
    (writeOut_spec writer { k with updated := true, current := now }).2.2
  flush_output k writer _ := by
    simp only [Kcp.flush]
    split
    · exact (writeOut_spec writer k).2.2
    · simp

end SampleKcp

/-- A socket bound to `addr` that takes every datagram. -/
def Socket.reliable (addr : SocketAddr) : Socket where
  localAddr := .ok addr
  sendTo bytes _ := .ok bytes.length

/-- The clock of the concrete runs. -/
def Clock.sample : Clock := ⟨1000, 1000⟩

/-- The conversation ids that the concrete runs draw. -/
def DrawnConv.ten : DrawnConv := ⟨10, by decide⟩

def DrawnConv.twenty : DrawnConv := ⟨20, by decide⟩

/-- The KCP segment that carries `[7]` as message 0 of conversation 20. -/
def SampleKcp.datagram : Bytes :=
  encodeKcpData ((Kcp.new 20 : SampleKcp).segment SampleKcp.cmdPush 0 0 [7])

/-- `10.0.0.1:7000` and `10.0.0.2:7000`. -/
def Setting.sample : Setting where
  addr x := match x with
    | .a => .v4 ⟨0x0a000001, 7000⟩
    | .b => .v4 ⟨0x0a000002, 7000⟩
  incarnation x := match x with
    | .a => 1
    | .b => 2
  config _ := KcpConfig.default

/-- `send()`, with the conversation id that is drawn if a session is opened. -/
def Action.sendSample (x : Side) (data : Bytes) (draw : DrawnConv) : Action :=
  .send x data draw .sample fun bytes _ => .ok bytes.length

def Action.deliverSample (index : Nat) : Action :=
  .deliver index .sample fun bytes _ => .ok bytes.length

/-- `10.0.0.2:7000`, as the sample peer sees it. -/
def SocketAddr.remote : SocketAddr := Setting.sample.addr .b

def Socket.sample : Socket := .reliable (Setting.sample.addr .a)

namespace TaskStep

def arriveSample (data : Bytes) : TaskStep := .arrive data .remote .sample .sample

def recvSample : TaskStep := .recv .sample .sample

def updSample : TaskStep := .upd 1000 .sample

/-- The step of the first call. -/
def advanceSample : TaskStep := .advance 0 .ten .sample .sample

end TaskStep

end KcpPeer
