import KcpPeer.Mesh
import Mathlib.Data.Multiset.DershowitzManna
import Mathlib.Order.WellFounded

set_option autoImplicit false

namespace KcpPeer

/-- How many more rounds of answers a message can cause. -/
def Msg.rank : Msg → Nat
  | .syn _ => 3
  | .synAck _ => 2
  | .data _ => 1
  | .reset _ => 0
  | .junk => 0

/-- Every answer ranks below the message it answers. -/
theorem respond_rank (yields : Bool) (slot : Slot) (ds : List (Option UInt32)) (m : Msg) :
    ∀ answer ∈ (respond yields slot ds m).out, answer.rank < m.rank := by
  have flushed : ∀ answer ∈ ds.map Msg.data, answer.rank = 1 := by
    intro answer mem
    obtain ⟨conv, _, rfl⟩ := List.mem_map.mp mem
    rfl
  intro answer mem
  cases m with
  | syn conv =>
      have acknowledged : ∀ conv', answer ∈ [Msg.synAck conv'] → answer.rank < 3 := by
        intro conv' mem
        cases List.mem_singleton.mp mem
        exact Nat.lt_add_one 2
      rcases slot with _ | ⟨state, own⟩
      · exact acknowledged conv mem
      · simp only [respond] at mem
        split at mem
        · cases state with
          | established => exact acknowledged conv mem
          | synSent => cases mem
        · cases state with
          | established => exact acknowledged conv mem
          | synSent =>
              rcases List.mem_append.mp mem with data | ack
              · rw [flushed answer data]
                exact Nat.lt_of_sub_pos (Nat.succ_pos 1)
              · exact acknowledged _ ack
  | synAck conv =>
      rcases slot with _ | ⟨_ | _, own⟩
      · cases mem
      · simp only [respond] at mem
        split at mem
        · rw [flushed answer mem]
          exact Nat.lt_add_one 1
        · cases mem
      · cases mem
  | reset conv =>
      rw [respond_reset_out] at mem
      cases mem
  | data conv =>
      rcases slot with _ | entry
      · cases conv with
        | none => cases mem
        | some conv =>
            cases List.eq_of_mem_replicate mem
            exact Nat.lt_add_one 0
      · cases conv <;> cases mem
  | junk => cases mem

namespace Peer

variable {K : Type} [Kcp K]

/-- Only the SYN handler asks the socket for its address. -/
theorem handleIncoming_localAddr (p : Peer K) (data : Bytes) (src : SocketAddr) (clock : Clock)
    (socket : Socket) (addr : Except IoError SocketAddr)
    (notSyn : ∀ payload, splitPacket data ≠ some (.syn, payload)) :
    p.handleIncoming data src clock socket =
      p.handleIncoming data src clock { socket with localAddr := addr } := by
  unfold handleIncoming
  split
  · rfl
  · rfl
  · rename_i payload parsed
    exact absurd parsed (notSyn payload)
  · rfl
  · rfl

/-- What handling a datagram submits ranks below the datagram. -/
theorem handleIncoming_rank (p : Peer K) (data : Bytes) (src : SocketAddr) (clock : Clock)
    (socket : Socket) :
    ∃ out, (p.handleIncoming data src clock socket).1.outbox = p.outbox ++ out ∧
      ∀ o ∈ out, o.msg.rank < (Msg.decode data).rank := by
  have answered : ∀ (socket : Socket) (myAddr : SocketAddr), socket.localAddr = .ok myAddr →
      ∃ out, (p.handleIncoming data src clock socket).1.outbox = p.outbox ++ out ∧
        ∀ o ∈ out, o.msg.rank < (Msg.decode data).rank := by
    intro socket myAddr local_addr
    obtain ⟨ds, _, _, out, grown, sent⟩ := handleIncoming_respond p data src clock socket local_addr
    refine ⟨out, grown, ?_⟩
    intro o mem
    have answers : o.msg ∈ out.map Outgoing.msg := List.mem_map_of_mem mem
    rw [sent] at answers
    exact respond_rank _ _ ds _ o.msg answers
  cases known : socket.localAddr with
  | ok myAddr => exact answered socket myAddr known
  | error e =>
      by_cases isSyn : ∃ payload, splitPacket data = some (.syn, payload)
      · obtain ⟨payload, parsed⟩ := isSyn
        refine ⟨[], ?_, by simp⟩
        simp only [handleIncoming, parsed, handleSyn, known, List.append_nil]
        split <;> rfl
      · rw [handleIncoming_localAddr p data src clock socket (.ok src)
          fun payload parsed => isSyn ⟨payload, parsed⟩]
        exact answered _ src rfl

end Peer

def Datagram.rank (d : Datagram) : Nat := (Msg.decode d.bytes).rank

namespace Mesh

variable {ι K : Type} [DecidableEq ι] [Kcp K]

/-- One delivery: nothing but `handle_incoming` of one peer happens. -/
def Delivers (setting : MeshSetting ι) (n n' : Mesh ι K) : Prop :=
  ∃ index i clock socket, n.deliver setting index i clock socket = some n'

/-- The ranks of the datagrams in flight. -/
def ranks (n : Mesh ι K) : Multiset Nat := (n.flights.map Datagram.rank : List Nat)

/-- A delivery replaces one rank by finitely many smaller ones. -/
theorem Delivers.ranks_lt {setting : MeshSetting ι} {n n' : Mesh ι K}
    (delivers : n.Delivers setting n') : n'.ranks.IsDershowitzMannaLT n.ranks := by
  obtain ⟨index, i, clock, socket, delivered⟩ := delivers
  obtain ⟨d, flying, delivered⟩ := Option.bind_eq_some_iff.mp delivered
  split at delivered
  · obtain rfl := Option.some.inj delivered
    obtain ⟨out, grown, below⟩ :=
      (n.peer i).clearOutbox.handleIncoming_rank d.bytes d.src clock socket
    obtain ⟨inside, rfl⟩ := List.getElem?_eq_some_iff.mp flying
    refine ⟨((n.flights.eraseIdx index).map Datagram.rank : List Nat),
      (((out.filter (·.accepted)).map fun o =>
        (⟨setting.addr i, o.dest, o.bytes⟩ : Datagram)).map Datagram.rank : List Nat),
      {n.flights[index].rank}, by simp, ?_, ?_, ?_⟩
    · rw [show (n.peer i).clearOutbox.outbox = [] from rfl, List.nil_append] at grown
      simp only [ranks, launch, grown, List.map_append, Multiset.coe_add]
    · have split := (List.getElem_cons_eraseIdx_perm inside).map Datagram.rank
      rw [ranks, ← Multiset.coe_eq_coe.mpr split, List.map_cons, ← Multiset.cons_coe,
        ← Multiset.singleton_add, add_comm]
    · intro rank mem
      refine ⟨n.flights[index].rank, by simp, ?_⟩
      obtain ⟨d, launched, rfl⟩ := List.mem_map.mp (Multiset.mem_coe.mp mem)
      obtain ⟨o, kept, rfl⟩ := List.mem_map.mp launched
      exact below o (List.mem_filter.mp kept).1
  · cases delivered

theorem delivers_wellFounded (setting : MeshSetting ι) :
    WellFounded fun n' n : Mesh ι K => n.Delivers setting n' :=
  Subrelation.wf Delivers.ranks_lt (InvImage.wf ranks Multiset.wellFounded_isDershowitzMannaLT)

end Mesh

/-- Whatever the states of the peers and the datagrams in flight, deliveries
alone come to an end in every order. -/
theorem deliveries_are_finite (ι K : Type) [DecidableEq ι] [Kcp K] (setting : MeshSetting ι) :
    ¬ ∃ run : Nat → Mesh ι K, ∀ k, (run k).Delivers setting (run (k + 1)) := by
  rintro ⟨run, delivers⟩
  exact (wellFounded_iff_isEmpty_descending_chain.mp (Mesh.delivers_wellFounded setting)).false
    ⟨run, delivers⟩

end KcpPeer
