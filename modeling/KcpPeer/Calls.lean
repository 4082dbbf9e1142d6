import KcpPeer.Effects
import KcpPeer.Lib.Transducer
import KcpPeer.Mailbox

set_option autoImplicit false

namespace KcpPeer

/-- A call of the transport into a KCP instance that may change it. -/
inductive KcpCall where
  | setConv (conv : UInt32)
  | send (data : Bytes)
  | update (now : UInt32) (writer : Writer)
  | flush (writer : Writer)
  | input (data : Bytes)
  | recv (size : Nat)

/-- What an instance gives back: a buffer handed to its writer, or a message. -/
inductive KcpOut where
  | wrote (buf : Bytes)
  | took (msg : Bytes)

def KcpCall.sent? : KcpCall → Option Bytes
  | .send data => some data
  | _ => none

def KcpCall.fed? : KcpCall → Option Bytes
  | .input data => some data
  | _ => none

/-- Only `set_conv` changes the conversation id. -/
def KcpCall.KeepsConv : KcpCall → Prop
  | .setConv _ => False
  | _ => True

def KcpOut.wrote? : KcpOut → Option Bytes
  | .wrote buf => some buf
  | .took _ => none

def KcpOut.took? : KcpOut → Option Bytes
  | .wrote _ => none
  | .took msg => some msg

/-- A KCP instance, called. -/
def Kcp.transducer (K : Type) [Kcp K] : Transducer K KcpCall KcpOut := fun kcp call =>
  match call with
  | .setConv conv => (Kcp.setConv kcp conv, [])
  | .send data => ((Kcp.send kcp data).1, [])
  | .update now writer =>
      ((Kcp.update kcp now writer).1, (Kcp.update kcp now writer).2.1.map .wrote)
  | .flush writer => ((Kcp.flush kcp writer).1, (Kcp.flush kcp writer).2.1.map .wrote)
  | .input data => ((Kcp.input kcp data).1, [])
  | .recv size =>
      match Kcp.recv kcp size with
      | (kcp, .ok msg) => (kcp, [.took msg])
      | (kcp, .error _) => (kcp, [])

/-- The payload that a call makes the instance take, if it does take it. -/
def Kcp.takes {K : Type} [Kcp K] (kcp : K) : KcpCall → List Bytes
  | .send data => if (Kcp.send kcp data).2.isOk then [data] else []
  | _ => []

/-- The payloads that an instance has taken in a sequence of calls. -/
def Kcp.taken {K : Type} [Kcp K] (kcp : K) : List KcpCall → List Bytes
  | [] => []
  | call :: rest => Kcp.takes kcp call ++ Kcp.taken (Kcp.transducer K kcp call).1 rest

@[simp] theorem KcpOut.filterMap_wrote (bufs : List Bytes) :
    (bufs.map KcpOut.wrote).filterMap KcpOut.wrote? = bufs := by
  simp only [List.filterMap_map]
  exact List.filterMap_some

@[simp] theorem KcpOut.filterMap_took_wrote (bufs : List Bytes) :
    (bufs.map KcpOut.wrote).filterMap KcpOut.took? = [] := by
  simp only [List.filterMap_map, List.filterMap_eq_nil_iff]
  exact fun _ _ => rfl

/-- One call after another, and what is seen of them from outside: the buffers written, the
messages taken, and what was put in. -/
structure Kcp.Served {K : Type} [Kcp K] (kcp kcp' : K) (calls : List KcpCall)
    (wrote took fed sent : List Bytes) : Prop where
  final : ((Kcp.transducer K).run kcp calls).1 = kcp'
  wrote : ((Kcp.transducer K).run kcp calls).2.filterMap KcpOut.wrote? = wrote
  took : ((Kcp.transducer K).run kcp calls).2.filterMap KcpOut.took? = took
  fed : calls.filterMap KcpCall.fed? = fed
  sent : calls.filterMap KcpCall.sent? = sent

namespace Kcp

variable {K : Type} [Kcp K] {k k' k'' : K}

theorem takes_sublist (k : K) (call : KcpCall) : (takes k call).Sublist call.sent?.toList := by
  cases call with
  | send data =>
      rw [takes]
      split
      · exact List.Sublist.refl _
      · exact List.nil_sublist _
  | _ => exact List.nil_sublist _

/-- What an instance takes was sent to it. -/
theorem taken_sublist (k : K) (calls : List KcpCall) :
    (taken k calls).Sublist (calls.filterMap KcpCall.sent?) := by
  induction calls generalizing k with
  | nil => exact List.Sublist.refl _
  | cons call rest ih =>
      have split : (call :: rest).filterMap KcpCall.sent? =
          call.sent?.toList ++ rest.filterMap KcpCall.sent? := by
        cases call <;> rfl
      rw [taken, split]
      exact (takes_sublist k call).append (ih _)

theorem taken_append (k : K) (calls more : List KcpCall) :
    taken k (calls ++ more) =
      taken k calls ++ taken ((Kcp.transducer K).run k calls).1 more := by
  induction calls generalizing k with
  | nil => rfl
  | cons call rest ih => simp only [List.cons_append, taken, ih, List.append_assoc, Transducer.run]

theorem Served.nothing (k : K) : Served k k [] [] [] [] [] := ⟨rfl, rfl, rfl, rfl, rfl⟩

theorem Served.trans {calls calls' : List KcpCall}
    {wrote took fed sent wrote' took' fed' sent' : List Bytes}
    (first : Served k k' calls wrote took fed sent)
    (second : Served k' k'' calls' wrote' took' fed' sent') :
    Served k k'' (calls ++ calls') (wrote ++ wrote') (took ++ took') (fed ++ fed')
      (sent ++ sent') := by
  refine ⟨?_, ?_, ?_, ?_, ?_⟩
  · rw [Transducer.run_append, first.final, second.final]
  · rw [Transducer.run_append, first.final, List.filterMap_append, first.wrote, second.wrote]
  · rw [Transducer.run_append, first.final, List.filterMap_append, first.took, second.took]
  · rw [List.filterMap_append, first.fed, second.fed]
  · rw [List.filterMap_append, first.sent, second.sent]

/-- One call. -/
theorem Served.call (k : K) (call : KcpCall) :
    Served k (Kcp.transducer K k call).1 [call]
      ((Kcp.transducer K k call).2.filterMap KcpOut.wrote?)
      ((Kcp.transducer K k call).2.filterMap KcpOut.took?)
      call.fed?.toList call.sent?.toList := by
  refine ⟨?_, ?_, ?_, ?_, ?_⟩
  · rw [Transducer.run_singleton]
  · rw [Transducer.run_singleton]
  · rw [Transducer.run_singleton]
  · cases call <;> rfl
  · cases call <;> rfl

theorem Served.setConv (k : K) (conv : UInt32) :
    Served k (Kcp.setConv k conv) [.setConv conv] [] [] [] [] :=
  .call k (.setConv conv)

theorem Served.send {data : Bytes} {result : Except (Kcp.Err K) Unit}
    (called : Kcp.send k data = (k', result)) : Served k k' [.send data] [] [] [] [data] := by
  have served := Served.call k (.send data)
  simp only [transducer, called] at served
  exact served

theorem Served.input {data : Bytes} {result : Except (Kcp.Err K) Unit}
    (called : Kcp.input k data = (k', result)) : Served k k' [.input data] [] [] [data] [] := by
  have served := Served.call k (.input data)
  simp only [transducer, called] at served
  exact served

theorem Served.update {now : UInt32} {writer : Writer} {bufs : List Bytes}
    {result : Except (Kcp.Err K) Unit} (called : Kcp.update k now writer = (k', bufs, result)) :
    Served k k' [.update now writer] bufs [] [] [] := by
  have served := Served.call k (.update now writer)
  simp only [transducer, called, KcpOut.filterMap_wrote, KcpOut.filterMap_took_wrote] at served
  exact served

theorem Served.flush {writer : Writer} {bufs : List Bytes}
    {result : Except (Kcp.Err K) Unit} (called : Kcp.flush k writer = (k', bufs, result)) :
    Served k k' [.flush writer] bufs [] [] [] := by
  have served := Served.call k (.flush writer)
  simp only [transducer, called, KcpOut.filterMap_wrote, KcpOut.filterMap_took_wrote] at served
  exact served

theorem Served.recv {size : Nat} {msg : Bytes}
    (called : Kcp.recv k size = (k', .ok msg)) : Served k k' [.recv size] [] [msg] [] [] := by
  have served := Served.call k (.recv size)
  simp only [transducer, called] at served
  exact served

end Kcp

/-- What `calls` do to a session object: `out` is submitted for it, and `msgs` are taken
from it. -/
structure Session.Turn {K : Type} [Kcp K] (s s' : Session K) (socket : Socket)
    (calls : List KcpCall) (out : List Submission) (msgs fed sent : List Bytes) : Prop where
  addr : s'.peerAddr = s.peerAddr
  served : ∃ bufs, Kcp.Served s.inner.kcp s'.inner.kcp calls bufs msgs fed sent ∧
    out = s.output socket bufs

namespace Session

variable {K : Type} [Kcp K]

def alive (s : Session K) : Bool := !Kcp.isDeadLink s.inner.kcp

theorem queueData_turn (s : Session K) (data : Bytes) (now : UInt32) (socket : Socket) :
    ∃ calls, Turn s (s.queueData data now socket).1 socket calls
        (s.queueData data now socket).2.1 [] [] (if s.alive then [data] else []) ∧
      (∀ call ∈ calls, call.KeepsConv) ∧
      ((s.queueData data now socket).2.2.isOk → Kcp.taken s.inner.kcp calls = [data]) := by
  unfold queueData alive
  dsimp only
  split
  · rename_i dead
    refine ⟨[], ⟨rfl, [], by simpa [dead] using Kcp.Served.nothing s.inner.kcp, rfl⟩, by simp, ?_⟩
    rintro ⟨⟩
  · rename_i living
    simp only [living, Bool.not_false, ↓reduceIte]
    split
    · rename_i sent
      refine ⟨_, ⟨rfl, [], .send sent, rfl⟩, by simp [KcpCall.KeepsConv], ?_⟩
      rintro ⟨⟩
    · rename_i kcp _ sent
      have took : (Kcp.send s.inner.kcp data).2.isOk = true := by
        rw [sent]
        rfl
      split
      · exact ⟨_, ⟨rfl, [], .send sent, rfl⟩, by simp [KcpCall.KeepsConv], fun _ => by
          simp [Kcp.taken, Kcp.takes, took]⟩
      · split
        · rename_i updated
          refine ⟨_, ⟨rfl, _, (Kcp.Served.send sent).trans (.update updated), rfl⟩,
            by simp [KcpCall.KeepsConv], ?_⟩
          rintro ⟨⟩
        · rename_i updated
          split
          · rename_i flushed
            refine ⟨_, ⟨rfl, _, (Kcp.Served.send sent).trans
              ((Kcp.Served.update updated).trans (.flush flushed)), rfl⟩,
              by simp [KcpCall.KeepsConv], ?_⟩
            rintro ⟨⟩
          · rename_i flushed
            exact ⟨_, ⟨rfl, _, (Kcp.Served.send sent).trans
              ((Kcp.Served.update updated).trans (.flush flushed)), rfl⟩,
              by simp [KcpCall.KeepsConv], fun _ => by simp [Kcp.taken, Kcp.takes, took]⟩

theorem update_turn (s : Session K) (now : UInt32) (socket : Socket) :
    ∃ calls, Turn s (s.update now socket).1 socket calls (s.update now socket).2.1 [] [] [] ∧
      ∀ call ∈ calls, call.KeepsConv := by
  unfold update
  dsimp only
  split
  · exact ⟨[], ⟨rfl, [], .nothing _, rfl⟩, by simp⟩
  · split
    · exact ⟨[], ⟨rfl, [], .nothing _, rfl⟩, by simp⟩
    · split
      · rename_i updated
        exact ⟨_, ⟨rfl, _, .update updated, rfl⟩, by simp [KcpCall.KeepsConv]⟩
      · rename_i updated
        split
        · exact ⟨_, ⟨rfl, _, .update updated, rfl⟩, by simp [KcpCall.KeepsConv]⟩
        · exact ⟨_, ⟨rfl, _, .update updated, rfl⟩, by simp [KcpCall.KeepsConv]⟩

theorem pump_turn (s : Session K) (now : UInt32) (socket : Socket) :
    ∃ calls, Turn s (s.pump now socket).1 socket calls (s.pump now socket).2 [] [] [] ∧
      ∀ call ∈ calls, call.KeepsConv :=
  ⟨_, ⟨rfl, _, (Kcp.Served.update rfl).trans (.flush rfl), rfl⟩, by simp [KcpCall.KeepsConv]⟩

theorem input_turn (s : Session K) (payload : Bytes) (socket : Socket) :
    ∃ calls, Turn s (s.input payload).1 socket calls [] [] [payload] [] ∧
      ∀ call ∈ calls, call.KeepsConv := by
  unfold input
  split
  · rename_i fed
    exact ⟨_, ⟨rfl, [], .input fed, rfl⟩, by simp [KcpCall.KeepsConv]⟩
  · rename_i fed
    exact ⟨_, ⟨rfl, [], .input fed, rfl⟩, by simp [KcpCall.KeepsConv]⟩

theorem drain_served (law : RecvQueue K) (fuel : Nat) (kcp : K) (out : List Bytes) :
    ∃ calls, Kcp.Served kcp (drain fuel kcp out).1 calls [] (received fuel kcp) [] [] ∧
      ∀ call ∈ calls, call.KeepsConv := by
  induction fuel generalizing kcp out with
  | zero => exact ⟨[], .nothing kcp, by simp⟩
  | succ fuel ih =>
      simp only [drain, received]
      cases peeked : Kcp.peeksize kcp with
      | error e => exact ⟨[], .nothing kcp, by simp⟩
      | ok size =>
          obtain ⟨kcp', msg, taken, _⟩ := law.front kcp size peeked
          obtain ⟨calls, rest, keeps⟩ := ih kcp' (out ++ [msg])
          simp only [taken]
          refine ⟨_, (Kcp.Served.recv taken).trans rest, ?_⟩
          simpa [KcpCall.KeepsConv] using keeps

/-- All that `try_recv_all` takes out it also returns. -/
theorem tryRecvAll_turn (law : RecvQueue K) (s : Session K) (socket : Socket) :
    s.tryRecvAll.2.2.isOk = true ∧
      ∃ calls, Turn s s.tryRecvAll.1 socket calls [] s.tryRecvAll.2.1 [] [] ∧
        ∀ call ∈ calls, call.KeepsConv := by
  have returned := drain_received (Kcp.rcvQueue s.inner.kcp).length s.inner.kcp []
  obtain ⟨ok, _, _⟩ := drain_complete law _ s.inner.kcp [] (Nat.le_refl _)
  obtain ⟨calls, served, keeps⟩ := drain_served law (Kcp.rcvQueue s.inner.kcp).length s.inner.kcp []
  rw [List.nil_append] at returned
  rw [← returned] at served
  unfold tryRecvAll
  split
  · rename_i drained
    rw [drained] at ok
    cases ok
  · rename_i drained
    rw [drained] at served
    exact ⟨rfl, calls, ⟨rfl, [], served, rfl⟩, keeps⟩

end Session

/-- The KCP packet in a datagram that was submitted for a session, and where it goes. -/
def Outgoing.packetOf (id : SessionId) (o : Outgoing) : Option (SocketAddr × Bytes) :=
  match splitPacket o.bytes with
  | some (.kcpData, packet) => if o.origin = some id then some (o.dest, packet) else none
  | _ => none

def LogEntry.messageOf (id : SessionId) : LogEntry → Option DataMessage
  | .data msg session => if session = id then some msg else none
  | .event .. => none

namespace Peer

variable {K : Type}

/-- The KCP packets that were submitted for a session, in order. -/
def packetsOf (p : Peer K) (id : SessionId) : List (SocketAddr × Bytes) :=
  p.outbox.filterMap (Outgoing.packetOf id)

/-- The messages of a session that were appended to `pending_data`, in order. -/
def messagesOf (p : Peer K) (id : SessionId) : List DataMessage :=
  p.log.filterMap (LogEntry.messageOf id)

theorem packetsOf_submit (p : Peer K) (origin : Option SessionId) (out : List Submission)
    (id : SessionId) :
    (p.submit origin out).packetsOf id =
      p.packetsOf id ++ (out.map fun submission => (⟨submission, origin⟩ : Outgoing)).filterMap
        (Outgoing.packetOf id) :=
  List.filterMap_append

theorem packetsOf_submit_nothing (p : Peer K) (origin : Option SessionId) (id : SessionId) :
    (p.submit origin []).packetsOf id = p.packetsOf id :=
  (packetsOf_submit p origin [] id).trans (List.append_nil _)

/-- What is submitted for another session, or for none, does not count. -/
theorem packetsOf_submit_other (p : Peer K) {origin : Option SessionId} {id : SessionId}
    (other : origin ≠ some id) (out : List Submission) :
    (p.submit origin out).packetsOf id = p.packetsOf id := by
  have nothing : (out.map fun submission => (⟨submission, origin⟩ : Outgoing)).filterMap
      (Outgoing.packetOf id) = [] := by
    refine List.filterMap_eq_nil_iff.mpr ?_
    intro o mem
    obtain ⟨submission, _, rfl⟩ := List.mem_map.mp mem
    unfold Outgoing.packetOf
    split
    · exact if_neg other
    · rfl
  rw [packetsOf_submit, nothing, List.append_nil]

theorem packetsOf_output (p : Peer K) (id : SessionId) (s : Session K) (socket : Socket)
    (bufs : List Bytes) :
    (p.submit (some id) (s.output socket bufs)).packetsOf id =
      p.packetsOf id ++ bufs.map fun buf => (s.peerAddr, buf) := by
  rw [packetsOf_submit, Session.output, List.map_map, List.filterMap_map]
  congr 1
  rw [← List.filterMap_eq_map]
  refine List.filterMap_congr ?_
  intro buf _
  simp only [Function.comp_apply, Outgoing.packetOf, Socket.submit, encodeKcpData, splitPacket,
    PacketType.fromByte_toByte, Option.map_some, ↓reduceIte]

/-- A SYN is no KCP packet. -/
theorem packetsOf_syn (p : Peer K) (id : SessionId) (s : Session K) (conv : UInt32)
    (socket : Socket) (origin : Option SessionId) :
    (p.submit origin [s.synSubmission conv socket]).packetsOf id = p.packetsOf id := by
  have nothing : ([s.synSubmission conv socket].map fun submission =>
      (⟨submission, origin⟩ : Outgoing)).filterMap (Outgoing.packetOf id) = [] := by
    simp only [List.map_singleton, List.filterMap_cons, Outgoing.packetOf, Session.synSubmission,
      Socket.submit, splitPacket_encodeControl, List.filterMap_nil]
  rw [packetsOf_submit, nothing, List.append_nil]

theorem messagesOf_emit (p : Peer K) (e : Event) (session id : SessionId) :
    (p.emit e session).messagesOf id = p.messagesOf id := by
  simp [messagesOf, emit, LogEntry.messageOf]

theorem messagesOf_appendData (p : Peer K) (session : SessionId) (addr : SocketAddr)
    (msgs : List Bytes) (id : SessionId) :
    (p.appendData session addr msgs).messagesOf id = p.messagesOf id ++
      if session = id then msgs.map fun data => ⟨addr, data⟩ else [] := by
  simp only [messagesOf, appendData, List.filterMap_append, List.map_map, List.filterMap_map]
  congr 1
  split
  · rename_i same
    rw [← List.filterMap_eq_map]
    refine List.filterMap_congr ?_
    intro data _
    simp only [Function.comp_apply, LogEntry.messageOf, same, ↓reduceIte]
  · rename_i other
    refine List.filterMap_eq_nil_iff.mpr ?_
    intro data _
    simp only [Function.comp_apply, LogEntry.messageOf, other, ↓reduceIte]

variable [Kcp K]

/-- What a step of the peer does for the session object `id`. -/
structure Turn (p p' : Peer K) (id : SessionId) (msgs fed sent : List Bytes) : Prop where
  object : ∀ s, p.sessions.object? id = some s → ∃ s' calls bufs,
    p'.sessions.object? id = some s' ∧ s'.peerAddr = s.peerAddr ∧
      Kcp.Served s.inner.kcp s'.inner.kcp calls bufs msgs fed sent ∧
      p'.packetsOf id = p.packetsOf id ++ bufs.map fun buf => (s.peerAddr, buf)
  unborn : p.sessions.object? id = none → p'.packetsOf id = p.packetsOf id ∧ msgs = []
  born : p.sessions.object? id = none → ∀ s', p'.sessions.object? id = some s' →
    ∃ conv, s'.inner.kcp = p.config.applyTo (Kcp.new conv)
  messages : p'.messagesOf id = p.messagesOf id
  config : p'.config = p.config

variable {p p' : Peer K} {id : SessionId} {msgs fed sent : List Bytes}

theorem Turn.nothing (objects : p'.sessions.objects = p.sessions.objects)
    (packets : p'.packetsOf id = p.packetsOf id) (messages : p'.messagesOf id = p.messagesOf id)
    (config : p'.config = p.config) : p.Turn p' id [] [] [] where
  object := by
    intro s present
    refine ⟨s, [], [], ?_, rfl, .nothing _, packets.trans (List.append_nil _).symm⟩
    simp only [Store.object?, objects] at present ⊢
    exact present
  unborn := fun _ => ⟨packets, rfl⟩
  born := by
    intro absent s' present
    simp only [Store.object?, objects] at absent present
    rw [absent] at present
    cases present
  messages := messages
  config := config

/-- A step that does nothing more for the session. -/
theorem Turn.andThen (turn : p.Turn p' id msgs fed sent) (p'' : Peer K)
    (objects : p''.sessions.objects = p'.sessions.objects)
    (packets : p''.packetsOf id = p'.packetsOf id)
    (messages : p''.messagesOf id = p'.messagesOf id) (config : p''.config = p'.config) :
    p.Turn p'' id msgs fed sent where
  object := by
    intro s present
    obtain ⟨s', calls, bufs, present', addr, served, wrote⟩ := turn.object s present
    refine ⟨s', calls, bufs, ?_, addr, served, packets.trans wrote⟩
    simp only [Store.object?, objects] at present' ⊢
    exact present'
  unborn := fun absent => ⟨packets.trans (turn.unborn absent).1, (turn.unborn absent).2⟩
  born := by
    intro absent s' present
    refine turn.born absent s' ?_
    simp only [Store.object?, objects] at present ⊢
    exact present
  messages := messages.trans turn.messages
  config := config.trans turn.config

/-- A session is called and its output submitted; the other sessions are not concerned. -/
theorem Turn.calls {id₀ : SessionId} {s s' : Session K} {socket : Socket} {calls : List KcpCall}
    {out : List Submission} (present : p.sessions.object? id₀ = some s)
    (turn : s.Turn s' socket calls out msgs fed sent) (id : SessionId) :
    p.Turn ((p.setSession id₀ s').submit (some id₀) out) id (if id₀ = id then msgs else [])
      (if id₀ = id then fed else []) (if id₀ = id then sent else []) := by
  by_cases same : id₀ = id
  · subst same
    simp only [↓reduceIte]
    obtain ⟨addr, bufs, served, rfl⟩ := turn
    have alive : p.sessions.object? id₀ ≠ none := by
      rw [present]
      rintro ⟨⟩
    refine ⟨?_, fun absent => absurd absent alive, fun absent => absurd absent alive, rfl, rfl⟩
    intro s₀ present₀
    obtain rfl := Option.some.inj (present.symm.trans present₀)
    exact ⟨s', calls, bufs, object?_setSession p s' present, addr, served,
      packetsOf_output (p.setSession id₀ s') id₀ s socket bufs⟩
  · simp only [same, ↓reduceIte]
    have packets : ((p.setSession id₀ s').submit (some id₀) out).packetsOf id = p.packetsOf id :=
      packetsOf_submit_other (p.setSession id₀ s') (fun h => same (Option.some.inj h)) out
    have kept : ((p.setSession id₀ s').submit (some id₀) out).sessions.object? id =
        p.sessions.object? id := Store.object?_modify_ne _ _ same
    refine ⟨?_, fun _ => ⟨packets, rfl⟩, ?_, rfl, rfl⟩
    · intro s₀ present₀
      exact ⟨s₀, [], [], kept.trans present₀, rfl, .nothing _,
        packets.trans (List.append_nil _).symm⟩
    · intro absent s₀ present₀
      rw [kept, absent] at present₀
      cases present₀

/-- A session is written, with no call that submits anything. -/
theorem Turn.writes {id₀ : SessionId} {s s' : Session K} {socket : Socket} {calls : List KcpCall}
    (present : p.sessions.object? id₀ = some s)
    (turn : s.Turn s' socket calls [] msgs fed sent) (id : SessionId) :
    p.Turn (p.setSession id₀ s') id (if id₀ = id then msgs else [])
      (if id₀ = id then fed else []) (if id₀ = id then sent else []) := by
  refine (Turn.calls present turn id).andThen _ rfl ?_ rfl rfl
  exact (packetsOf_submit_nothing (p.setSession id₀ s') (some id₀) id).symm

/-- A session is written without a call into its instance. -/
theorem Turn.marks {id₀ : SessionId} {s : Session K} (s' : Session K)
    (present : p.sessions.object? id₀ = some s) (kcp : s'.inner.kcp = s.inner.kcp)
    (addr : s'.peerAddr = s.peerAddr) (id : SessionId) :
    p.Turn (p.setSession id₀ s') id [] [] [] := by
  have served : Kcp.Served s.inner.kcp s'.inner.kcp [] [] [] [] [] := by
    rw [kcp]
    exact .nothing _
  have quiet : s.Turn s' ⟨.error ⟨.other, ""⟩, fun _ _ => .ok 0⟩ [] [] [] [] [] :=
    ⟨addr, [], served, rfl⟩
  have turn := Turn.writes present quiet id
  simpa only [ite_self] using turn

theorem Turn.emit (turn : p.Turn p' id msgs fed sent) (e : Event) (session : SessionId) :
    p.Turn (p'.emit e session) id msgs fed sent :=
  turn.andThen _ rfl rfl (messagesOf_emit ..) rfl

/-- Control packets that no session has submitted. -/
theorem Turn.answer (turn : p.Turn p' id msgs fed sent) (out : List Submission) :
    p.Turn (p'.submit none out) id msgs fed sent :=
  turn.andThen _ rfl (packetsOf_submit_other p' (by rintro ⟨⟩) out) rfl rfl

theorem Turn.same (p : Peer K) (id : SessionId) : p.Turn p id [] [] [] :=
  .nothing rfl rfl rfl rfl

/-- A new session object is none of those that exist. -/
theorem Turn.insert (p : Peer K) (can : CanonicalAddr) (s : Session K) (conv : UInt32)
    (new : s.inner.kcp = p.config.applyTo (Kcp.new conv)) (id : SessionId) :
    p.Turn (p.insertSession can s) id [] [] [] where
  object := by
    intro s₀ present
    have old : id ≠ p.sessions.fresh := Nat.ne_of_lt (Store.object?_lt present)
    refine ⟨s₀, [], [], ?_, rfl, .nothing _, (List.append_nil _).symm⟩
    rw [insertSession, Store.object?_insertNew, if_neg old]
    exact present
  unborn := fun _ => ⟨rfl, rfl⟩
  born := by
    intro absent s' present
    rw [insertSession, Store.object?_insertNew] at present
    split at present
    · obtain rfl := Option.some.inj present
      exact ⟨conv, new⟩
    · rw [absent] at present
      cases present
  messages := rfl
  config := rfl

theorem pump_turn {id₀ : SessionId} {s : Session K} (ready : Session K) {calls : List KcpCall}
    (present : p.sessions.object? id₀ = some s) (addr : ready.peerAddr = s.peerAddr)
    (served : Kcp.Served s.inner.kcp ready.inner.kcp calls [] [] [] []) (now : UInt32)
    (socket : Socket) (id : SessionId) :
    p.Turn ((p.setSession id₀ (ready.pump now socket).1).submit (some id₀)
      (ready.pump now socket).2) id [] [] [] := by
  obtain ⟨pumped, ⟨addr', bufs, later, out⟩, _⟩ := ready.pump_turn now socket
  have wrote : (ready.pump now socket).2 = s.output socket bufs := by
    rw [out, Session.output, addr]
    rfl
  have called : s.Turn (ready.pump now socket).1 socket (calls ++ pumped)
      (ready.pump now socket).2 [] [] [] :=
    ⟨addr'.trans addr, bufs, served.trans later, wrote⟩
  have turn := Turn.calls present called id
  simpa only [ite_self] using turn

theorem synDecide_turn (p : Peer K) (src : SocketAddr) (conv : UInt32) (myAddr : SocketAddr)
    (clock : Clock) (socket : Socket) (id : SessionId) :
    p.Turn (p.synDecide src conv myAddr clock socket).1 id [] [] [] := by
  unfold synDecide
  cases found : p.sessions.find (canonicalize src) with
  | none => exact .same p id
  | some entry =>
      obtain ⟨id₀, s⟩ := entry
      have present := (Store.find_eq_some.mp found).2
      dsimp only
      split
      · split
        · exact .marks (s.touch clock.epochMs) present rfl rfl id
        · exact .same p id
      · split
        · split
          · exact (pump_turn (s.adopt conv clock.epochMs) present rfl
              (.setConv s.inner.kcp conv) clock.currentMs socket id).emit _ id₀
          · exact (pump_turn (s.establish clock.epochMs) present rfl
              (.nothing s.inner.kcp) clock.currentMs socket id).emit _ id₀
        · exact (Turn.marks s.markClosed present rfl rfl id).emit _ id₀

theorem synAckAccept_turn (p : Peer K) (src : SocketAddr) (conv : UInt32) (clock : Clock)
    (socket : Socket) (id : SessionId) :
    p.Turn (p.synAckAccept src conv clock socket) id [] [] [] := by
  unfold synAckAccept
  cases found : p.sessions.find (canonicalize src) with
  | none => exact .same p id
  | some entry =>
      obtain ⟨id₀, s⟩ := entry
      have present := (Store.find_eq_some.mp found).2
      dsimp only
      split
      · exact .same p id
      · split
        · exact (pump_turn (s.establish clock.epochMs) present rfl
            (.nothing s.inner.kcp) clock.currentMs socket id).emit _ id₀
        · exact .same p id

theorem prune_turn (p : Peer K) (socket : Socket) (can : CanonicalAddr) (id : SessionId) :
    p.Turn (prune socket p can) id [] [] [] := by
  unfold prune
  cases found : p.sessions.find can with
  | none => exact .same p id
  | some entry =>
      obtain ⟨id₀, s⟩ := entry
      have marked : p.Turn (p.setSession id₀ s.markClosed) id [] [] [] :=
        .marks s.markClosed (Store.find_eq_some.mp found).2 rfl rfl id
      exact ((marked.andThen ((p.removeKey can).setSession id₀ s.markClosed) rfl rfl rfl
        rfl).answer _).emit _ id₀

theorem disconnect_turn (p : Peer K) (peer : SocketAddr) (socket : Socket) (id : SessionId) :
    p.Turn (p.disconnect peer socket) id [] [] [] := by
  unfold disconnect
  cases found : p.sessions.find (canonicalize peer) with
  | none => exact .same p id
  | some entry =>
      obtain ⟨id₀, s⟩ := entry
      have marked : p.Turn (p.setSession id₀ s.markClosed) id [] [] [] :=
        .marks s.markClosed (Store.find_eq_some.mp found).2 rfl rfl id
      exact ((marked.andThen
        ((p.removeKey (canonicalize peer)).setSession id₀ s.markClosed) rfl rfl rfl
        rfl).answer _).emit _ id₀

end Peer

end KcpPeer
