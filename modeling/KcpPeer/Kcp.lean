import KcpPeer.Config
import Mathlib.Logic.Relation

set_option autoImplicit false

namespace KcpPeer

/-- What `std::io::Write::write` answers a KCP instance for one output buffer. -/
abbrev Writer := Bytes → Except IoError Nat

/-- The `kcp` crate as the transport uses it. `update` and `flush` hand buffers
to the writer; the buffers handed over are returned in order. `recv` returns the
buffer it filled. `rcvQueue` lists the complete messages `recv` has still to
return: `peeksize` and `recv` are its interface in the crate. -/
class Kcp (K : Type) where
  Err : Type
  new : UInt32 → K
  setNodelay : K → Int32 → Int32 → Int32 → Bool → K
  setWndsize : K → UInt16 → UInt16 → K
  setRxMinrto : K → UInt32 → K
  setFastResend : K → UInt32 → K
  setMaximumResendTimes : K → UInt32 → K
  setInterval : K → UInt32 → K
  setMtu : K → Nat → K
  setConv : K → UInt32 → K
  isDeadLink : K → Bool
  waitSnd : K → Nat
  send : K → Bytes → K × Except Err Unit
  update : K → UInt32 → Writer → K × List Bytes × Except Err Unit
  flush : K → Writer → K × List Bytes × Except Err Unit
  input : K → Bytes → K × Except Err Unit
  peeksize : K → Except Err Nat
  recv : K → Nat → K × Except Err Bytes
  rcvQueue : K → List Bytes

namespace Kcp

variable {K : Type} [Kcp K]

/-- One call into an instance that neither takes data to send, nor produces
output, nor changes its conversation id. -/
inductive Quiet : K → K → Prop
  | setNodelay (k : K) (nodelay interval resend : Int32) (nc : Bool) :
      Quiet k (Kcp.setNodelay k nodelay interval resend nc)
  | setWndsize (k : K) (snd rcv : UInt16) : Quiet k (Kcp.setWndsize k snd rcv)
  | setRxMinrto (k : K) (v : UInt32) : Quiet k (Kcp.setRxMinrto k v)
  | setFastResend (k : K) (v : UInt32) : Quiet k (Kcp.setFastResend k v)
  | setMaximumResendTimes (k : K) (v : UInt32) : Quiet k (Kcp.setMaximumResendTimes k v)
  | setInterval (k : K) (v : UInt32) : Quiet k (Kcp.setInterval k v)
  | setMtu (k : K) (v : Nat) : Quiet k (Kcp.setMtu k v)
  | input (k : K) (data : Bytes) : Quiet k (Kcp.input k data).1
  | recv (k : K) (size : Nat) : Quiet k (Kcp.recv k size).1

/-- One call that produces no output. -/
inductive Silent : K → K → Prop
  | quiet {k k' : K} (call : Quiet k k') : Silent k k'
  | send (k : K) (data : Bytes) : Silent k (Kcp.send k data).1

/-- Calls into one instance, without `set_conv`, and the buffers it wrote. -/
inductive Run : K → List Bytes → K → Prop
  | nil (k : K) : Run k [] k
  | silent {k k' k'' : K} {bufs : List Bytes} (call : Silent k k') (rest : Run k' bufs k'') :
      Run k bufs k''
  | update (k : K) (now : UInt32) (writer : Writer) {k' : K} {bufs : List Bytes}
      (rest : Run (Kcp.update k now writer).1 bufs k') :
      Run k ((Kcp.update k now writer).2.1 ++ bufs) k'
  | flush (k : K) (writer : Writer) {k' : K} {bufs : List Bytes}
      (rest : Run (Kcp.flush k writer).1 bufs k') : Run k ((Kcp.flush k writer).2.1 ++ bufs) k'

abbrev Quiets : K → K → Prop := Relation.ReflTransGen Quiet

abbrev Silents : K → K → Prop := Relation.ReflTransGen Silent

theorem Quiets.silents {k k' : K} (calls : Quiets k k') : Silents k k' := by
  induction calls with
  | refl => exact .refl
  | tail _ call ih => exact ih.tail (.quiet call)

theorem Run.trans {k k' k'' : K} {first second : List Bytes} (left : Run k first k')
    (right : Run k' second k'') : Run k (first ++ second) k'' := by
  induction left with
  | nil => exact right
  | silent call _ ih => exact .silent call (ih right)
  | update k now writer _ ih =>
      rw [List.append_assoc]
      exact .update k now writer (ih right)
  | flush k writer _ ih =>
      rw [List.append_assoc]
      exact .flush k writer (ih right)

theorem Run.of_silents {k k' : K} (calls : Silents k k') : Run k [] k' := by
  induction calls with
  | refl => exact .nil k
  | tail _ call ih => exact ih.trans (.silent call (.nil _))

theorem Silents.of_send {k k' : K} {data : Bytes} {result : Except (Kcp.Err K) Unit}
    (called : Kcp.send k data = (k', result)) : Silents k k' := by
  have call := Silent.send k data
  rw [called] at call
  exact .single call

theorem Quiets.of_input {k k' : K} {data : Bytes} {result : Except (Kcp.Err K) Unit}
    (called : Kcp.input k data = (k', result)) : Quiets k k' := by
  have call := Quiet.input k data
  rw [called] at call
  exact .single call

theorem Quiets.of_recv {k k' : K} {size : Nat} {result : Except (Kcp.Err K) Bytes}
    (called : Kcp.recv k size = (k', result)) : Quiets k k' := by
  have call := Quiet.recv k size
  rw [called] at call
  exact .single call

theorem Run.of_update {k k' : K} {now : UInt32} {writer : Writer} {bufs : List Bytes}
    {result : Except (Kcp.Err K) Unit} (called : Kcp.update k now writer = (k', bufs, result)) :
    Run k bufs k' := by
  have call := Run.update k now writer (.nil _)
  rw [called, List.append_nil] at call
  exact call

theorem Run.of_flush {k k' : K} {writer : Writer} {bufs : List Bytes}
    {result : Except (Kcp.Err K) Unit} (called : Kcp.flush k writer = (k', bufs, result)) :
    Run k bufs k' := by
  have call := Run.flush k writer (.nil _)
  rw [called, List.append_nil] at call
  exact call

end Kcp

/-- Apply every field to a freshly created instance. A failing `set_mtu` is
ignored by the source. -/
def KcpConfig.applyTo {K : Type} [Kcp K] (config : KcpConfig) (kcp : K) : K :=
  let (nodelay, interval, resend, nc) := config.kcpNodelay
  let kcp := Kcp.setNodelay kcp nodelay interval resend nc
  let kcp := Kcp.setWndsize kcp config.sndWnd config.rcvWnd
  let kcp := Kcp.setRxMinrto kcp config.rxMinrto
  let kcp := Kcp.setFastResend kcp config.fastResend
  let kcp := Kcp.setMaximumResendTimes kcp config.maximumResendTimes
  let kcp := Kcp.setInterval kcp config.kcpIntervalMs
  Kcp.setMtu kcp (max config.mtu.toNat 50)

theorem KcpConfig.applyTo_quiets {K : Type} [Kcp K] (config : KcpConfig) (kcp : K) :
    Kcp.Quiets kcp (config.applyTo kcp) :=
  .head (.setNodelay ..) <| .head (.setWndsize ..) <| .head (.setRxMinrto ..) <|
    .head (.setFastResend ..) <| .head (.setMaximumResendTimes ..) <|
    .head (.setInterval ..) <| .single (.setMtu ..)

end KcpPeer
