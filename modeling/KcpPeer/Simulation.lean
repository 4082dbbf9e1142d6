import KcpPeer.Wire

set_option autoImplicit false

namespace KcpPeer

namespace Registry

/-- The sessions and the events are all about one address. -/
structure OnlyFor (r : Registry) (can : CanonicalAddr) : Prop where
  alone : ∀ other, other ≠ can → r.sessions.find other = none
  own : ∀ e id, LogEntry.event e id ∈ r.log → canonicalize e.peer = can

namespace OnlyFor

variable {r : Registry} {src : SocketAddr}

theorem empty (can : CanonicalAddr) : OnlyFor ⟨.empty, []⟩ can :=
  ⟨fun _ _ => rfl, fun _ _ mem => nomatch mem⟩

theorem emit {can : CanonicalAddr} (only : r.OnlyFor can) {e : Event} (id : SessionId)
    (about : canonicalize e.peer = can) : (r.emit e id).OnlyFor can := by
  refine ⟨only.alone, ?_⟩
  intro e' id' mem
  rcases List.mem_append.mp mem with mem | mem
  · exact only.own e' id' mem
  · cases List.mem_singleton.mp mem
    exact about

theorem deliver {can : CanonicalAddr} (only : r.OnlyFor can) (id : SessionId)
    (msgs : List DataMessage) : (r.deliver id msgs).OnlyFor can := by
  refine ⟨only.alone, ?_⟩
  intro e id' mem
  rcases List.mem_append.mp mem with mem | mem
  · exact only.own e id' mem
  · simp at mem

theorem openTo (only : r.OnlyFor (canonicalize src)) (conv : UInt32) :
    (r.openTo src conv).OnlyFor (canonicalize src) := by
  refine ⟨?_, only.own⟩
  intro other apart
  rw [find_openTo, if_neg apart]
  exact only.alone other apart

theorem accept (only : r.OnlyFor (canonicalize src)) (conv : UInt32) :
    (r.accept src conv).OnlyFor (canonicalize src) := by
  refine ⟨?_, (only.emit (e := .connected src) r.sessions.fresh rfl).own⟩
  intro other apart
  rw [find_accept, if_neg apart]
  exact only.alone other apart

section Held

variable {id : SessionId} {v : View} (only : r.OnlyFor (canonicalize src))
  (found : r.sessions.find (canonicalize src) = some (id, v))

include only found

theorem establish (conv : UInt32) : (r.establish id v conv src).OnlyFor (canonicalize src) := by
  refine ⟨?_, (only.emit (e := .connected src) id rfl).own⟩
  intro other apart
  rw [find_establish conv other found, if_neg apart]
  exact only.alone other apart

theorem supersede : (r.supersede id v src).OnlyFor (canonicalize src) := by
  refine ⟨?_, (only.emit (e := .peerRestarted src) id rfl).own⟩
  intro other apart
  rw [find_supersede other found, if_neg apart]
  exact only.alone other apart

theorem close : (r.close (canonicalize src) id v src).OnlyFor (canonicalize src) := by
  refine ⟨?_, (only.emit (e := .disconnected src) id rfl).own⟩
  intro other apart
  rw [find_close other found, if_neg apart]
  exact only.alone other apart

end Held

theorem syn (only : r.OnlyFor (canonicalize src)) (conv : UInt32) (yields : Bool) :
    (r.syn src conv yields).OnlyFor (canonicalize src) := by
  unfold Registry.syn
  split
  · exact only.accept conv
  · rename_i found
    split
    · exact only
    · split
      · exact only.establish found _
      · exact (only.supersede found).accept conv

theorem synAck (only : r.OnlyFor (canonicalize src)) (conv : UInt32) :
    (r.synAck src conv).OnlyFor (canonicalize src) := by
  unfold Registry.synAck
  split
  · exact only
  · rename_i found
    split
    · exact only
    · split
      · exact only.establish found _
      · exact only

theorem reset (only : r.OnlyFor (canonicalize src)) (conv : UInt32) :
    (r.reset src conv).OnlyFor (canonicalize src) := by
  unfold Registry.reset
  split
  · exact only
  · rename_i found
    split
    · exact only.close found
    · exact only

theorem send (only : r.OnlyFor (canonicalize src)) (conv : UInt32) :
    (r.send src conv).OnlyFor (canonicalize src) := by
  unfold Registry.send
  split
  · exact only
  · exact only.openTo conv

/-- The events for the one address are all the events. -/
theorem eventsFor_eq {can : CanonicalAddr} (only : r.OnlyFor can) :
    eventsFor can r.log = (r.log.filterMap LogEntry.event?).map Event.kind := by
  have own := only.own
  generalize r.log = log at own
  induction log with
  | nil => rfl
  | cons entry rest ih =>
      have tail := ih fun e id mem => own e id (List.mem_cons_of_mem _ mem)
      cases entry with
      | data msg id =>
          rw [eventsFor, List.filterMap_cons_none rfl, List.filterMap_cons_none rfl]
          exact tail
      | event e id =>
          have about := own e id List.mem_cons_self
          have kind : LogEntry.lifecycle can (.event e id) = some e.kind := if_pos about
          have event : LogEntry.event? (.event e id) = some e := rfl
          rw [eventsFor, List.filterMap_cons_some kind, List.filterMap_cons_some event,
            List.map_cons]
          exact congrArg (e.kind :: ·) tail

end OnlyFor

end Registry

namespace Peer

variable {K : Type}

/-- The peer knows no address but `can`, and has nothing to submit. -/
structure Tidy (p : Peer K) (can : CanonicalAddr) : Prop where
  only : p.registry.OnlyFor can
  idle : p.outbox = []

theorem bind_tidy (incarnation : UInt64) (config : KcpConfig) (can : CanonicalAddr) :
    (bind incarnation config : Peer K).Tidy can :=
  ⟨.empty can, rfl⟩

/-- A tick of a tidy peer scans its one session, if it has one. -/
theorem Tidy.tick_order {p : Peer K} {can : CanonicalAddr} (tidy : p.Tidy can) {tick : Tick}
    (order : tick.order.isPerm p.sessions.keys) : tick.order = [] ∨ tick.order = [can] := by
  have permuted := List.isPerm_iff.mp order
  have only : ∀ key ∈ tick.order, key = can := by
    intro key mem
    by_contra other
    obtain ⟨id, named⟩ := Store.mem_keys_iff.mp (permuted.subset mem)
    have absent := tidy.only.alone key other
    rw [registry_find, Option.map_eq_none_iff, Store.find_eq_none] at absent
    rw [absent] at named
    cases named
  have nodup : tick.order.Nodup := permuted.nodup_iff.mpr (Store.keys_nodup _)
  cases shape : tick.order with
  | nil => exact Or.inl rfl
  | cons first rest =>
      rw [shape] at only nodup
      obtain rfl := only first (by simp)
      cases rest with
      | nil => exact Or.inr rfl
      | cons second rest =>
          obtain rfl := only second (by simp)
          simp at nodup

variable [Kcp K]

theorem handleIncoming_onlyFor {p : Peer K} {src : SocketAddr}
    (only : p.registry.OnlyFor (canonicalize src)) (data : Bytes) (clock : Clock)
    (socket : Socket) :
    (p.handleIncoming data src clock socket).1.registry.OnlyFor (canonicalize src) := by
  unfold handleIncoming
  split
  · exact only
  · rename_i payload _
    rcases registry_handleKcpData p payload src clock socket with same | ⟨id, s, msgs, _, delivered⟩
    · rw [same]
      exact only
    · rw [delivered]
      exact only.deliver id msgs
  · rename_i payload _
    cases decoded : readConv payload with
    | none =>
        simp only [handleSyn, decoded]
        exact only
    | some conv =>
        cases addr : socket.localAddr with
        | error e =>
            simp only [handleSyn, decoded, addr]
            exact only
        | ok myAddr =>
            rw [registry_handleSyn p src clock socket decoded addr]
            exact only.syn conv _
  · rename_i payload _
    cases decoded : readConv payload with
    | none =>
        simp only [handleSynAck, decoded]
        exact only
    | some conv =>
        rw [registry_handleSynAck p src clock socket decoded]
        exact only.synAck conv
  · rename_i payload _
    cases decoded : readConv payload with
    | none =>
        simp only [handleReset, decoded]
        exact only
    | some conv =>
        rw [registry_handleReset p src decoded]
        exact only.reset conv

/-- A tick that removes nothing scans at most the one session. -/
theorem Tidy.updateTick_eq {p : Peer K} {can : CanonicalAddr} (tidy : p.Tidy can) {tick : Tick}
    {socket : Socket} (order : tick.order.isPerm p.sessions.keys)
    (kept : (scan tick socket tick.order p).2 = []) :
    p.updateTick tick socket = p ∨
      p.updateTick tick socket = (p.scanSession tick socket can).1 := by
  rcases tidy.tick_order order with empty | one
  · left
    simp [updateTick, empty, scan]
  · right
    simp only [updateTick]
    rw [kept, one]
    rfl

/-- Of a tick only the one session of a tidy peer has output. -/
theorem updateTick_offers {p : Peer K} {can : CanonicalAddr} (tidy : p.Tidy can) (tick : Tick)
    (socket : Socket) (order : tick.order.isPerm p.sessions.keys)
    (kept : (scan tick socket tick.order p).2 = []) :
    ∃ ds full, p.Answers (p.updateTick tick socket) can ⟨p.slot can, full, []⟩ ∧
      full.Sublist (Handshake.offers (p.slot can) ds) := by
  have visible := updateTick_registry p tick socket kept
  have sent : ∃ ds full, p.Sends (p.updateTick tick socket) full ∧
      full.Sublist (Handshake.offers (p.slot can) ds) := by
    rcases tidy.updateTick_eq order kept with same | scanned
    · rw [same]
      exact ⟨[], [], .nothing rfl, List.nil_sublist _⟩
    · rw [scanned]
      exact scanSession_sends p tick socket can
  obtain ⟨ds, full, sends, offered⟩ := sent
  refine ⟨ds, full, ⟨?_, ?_, sends⟩, offered⟩
  · rw [slot, visible, slot]
  · rw [List.append_nil]
    exact congrArg (fun r => eventsFor can r.log) visible

end Peer

namespace Network

variable {K : Type}

/-- The address under which a side files the other. -/
def canOf (setting : Setting) (x : Side) : CanonicalAddr := canonicalize (setting.addr x.other)

/-- The messages of a party's step that reach the wire. -/
def launched (setting : Setting) (x : Side) (p : Peer K) : List Msg :=
  (p.outbox.filter fun o => o.accepted && decide (o.dest = setting.addr x.other)).map Outgoing.msg

theorem launched_sublist (setting : Setting) (x : Side) {p p' : Peer K} {full : List Msg}
    (idle : p.outbox = []) (sends : p.Sends p' full) : (launched setting x p').Sublist full := by
  obtain ⟨out, grown, rfl⟩ := sends
  rw [launched, grown, idle, List.nil_append]
  exact List.filter_sublist.map _

theorem launched_all (setting : Setting) (x : Side) {p p' : Peer K} {full : List Msg}
    (idle : p.outbox = []) (sends : p.Sends p' full)
    (reliable : ∀ o ∈ p'.outbox, o.accepted = true ∧ o.dest = setting.addr x.other) :
    launched setting x p' = full := by
  obtain ⟨out, grown, rfl⟩ := sends
  rw [idle, List.nil_append] at grown
  rw [launched, List.filter_eq_self.mpr, grown]
  intro o mem
  obtain ⟨accepted, dest⟩ := reliable o mem
  simp [accepted, dest]

def tie (setting : Setting) (x : Side) : Bool := decide (setting.addr x < setting.addr x.other)

theorem tie_opposite {setting : Setting} (distinct : setting.addr .a ≠ setting.addr .b) (x : Side) :
    tie setting x.other = !tie setting x := by
  have apart : setting.addr x ≠ setting.addr x.other := by
    cases x
    · exact distinct
    · exact distinct.symm
  unfold tie
  rw [Side.other_other]
  rcases SocketAddr.lt_or_gt apart with less | less
  · simp [less, SocketAddr.lt_asymm less]
  · simp [less, SocketAddr.lt_asymm less]

/-- The two slots, the messages in flight and the two event sequences. -/
structure Refines (setting : Setting) (n : Network K) (h : Handshake) : Prop where
  slot : ∀ x, h.slot x = (n.party x).peer.slot (canOf setting x)
  net : h.net = n.flights.map fun f => (f.dst, Msg.decode f.bytes)
  events : ∀ x, h.events x = eventsFor (canOf setting x) (n.party x).peer.log
  tidy : ∀ x, (n.party x).peer.Tidy (canOf setting x)

theorem Refines.launch {setting : Setting} {n : Network K} {h h' : Handshake}
    (refines : Refines setting n h) (flights : List Flight) {x : Side} {party : Party K}
    {reply : Reply} (answers : (n.party x).peer.Answers party.peer (canOf setting x) reply)
    (only : party.peer.registry.OnlyFor (canOf setting x))
    (slot : h'.slot = Function.update h.slot x reply.slot)
    (net : h'.net = flights.map (fun f => (f.dst, Msg.decode f.bytes)) ++
      (launched setting x party.peer).map fun m => (x.other, m))
    (events : h'.events = Function.update h.events x (h.events x ++ reply.events)) :
    Refines setting (Network.launch { n with flights } setting x party) h' := by
  refine ⟨?_, ?_, ?_, ?_⟩
  · intro y
    by_cases same : y = x
    · subst same
      simp only [slot, Network.launch, Function.update_self]
      exact answers.slot.symm
    · simp only [slot, Network.launch, Function.update_of_ne same]
      exact refines.slot y
  · simp only [net, Network.launch, launched, List.map_append, List.map_map]
    rfl
  · intro y
    by_cases same : y = x
    · subst same
      simp only [events, Network.launch, Function.update_self, refines.events]
      exact answers.events.symm
    · simp only [events, Network.launch, Function.update_of_ne same]
      exact refines.events y
  · exact Network.launch_each (P := fun y party => party.peer.Tidy (canOf setting y)) ⟨only, rfl⟩
      refines.tidy

variable [Kcp K]

/-- The step neither restarts a peer nor removes a session on its own account:
no `disconnect()`, no time-out, no dead link, no SYN exhaustion. -/
def Calm (setting : Setting) (n : Network K) : Action → Prop
  | .disconnect .. => False
  | .rebind .. => False
  | .tick x tick sendTo =>
      (Peer.scan tick (socketOf setting x sendTo) tick.order (n.party x).peer).2 = []
  | _ => True

instance (setting : Setting) (n : Network K) : ∀ act, Decidable (n.Calm setting act)
  | .send .. => isTrue trivial
  | .disconnect .. => isFalse id
  | .tick .. => inferInstanceAs (Decidable (_ = []))
  | .rebind .. => isFalse id
  | .deliver .. => isTrue trivial
  | .drop _ => isTrue trivial
  | .duplicate _ => isTrue trivial

/-- Which move of the protocol a step of the network is, and what its peer
submitted in full. -/
inductive Mirrors (setting : Setting) (n : Network K) (h : Handshake) : Action → Move → Prop
  | opens {x : Side} {data : Bytes} {draw : DrawnConv} {clock : Clock}
      {sendTo : Bytes → SocketAddr → Except IoError Nat} {p' : Peer K}
      (after : p' = ((n.party x).peer.send (setting.addr x.other) data draw clock
        (socketOf setting x sendTo)).1)
      (absent : h.slot x = none)
      (full : (n.party x).peer.Answers p' (canOf setting x)
        ⟨some (.synSent, draw.val), [.syn draw.val], []⟩) :
      Mirrors setting n h (.send x data draw clock sendTo)
        (.openTo x draw.val (launched setting x p'))
  | sends {x : Side} {data : Bytes} {draw : DrawnConv} {clock : Clock}
      {sendTo : Bytes → SocketAddr → Except IoError Nat} {p' : Peer K} {msgs : List Msg}
      {ds : List (Option UInt32)}
      (after : p' = ((n.party x).peer.send (setting.addr x.other) data draw clock
        (socketOf setting x sendTo)).1)
      (present : h.slot x ≠ none)
      (full : (n.party x).peer.Answers p' (canOf setting x) ⟨h.slot x, msgs, []⟩)
      (offered : msgs.Sublist (Handshake.offers (h.slot x) ds))
      (onlyData : ∀ m ∈ msgs, ∃ d, m = .data d) :
      Mirrors setting n h (.send x data draw clock sendTo) (.offer x ds (launched setting x p'))
  | ticks {x : Side} {tick : Tick} {sendTo : Bytes → SocketAddr → Except IoError Nat}
      {p' : Peer K} {msgs : List Msg} {ds : List (Option UInt32)}
      (after : p' = (n.party x).peer.updateTick tick (socketOf setting x sendTo))
      (full : (n.party x).peer.Answers p' (canOf setting x) ⟨h.slot x, msgs, []⟩)
      (offered : msgs.Sublist (Handshake.offers (h.slot x) ds)) :
      Mirrors setting n h (.tick x tick sendTo) (.offer x ds (launched setting x p'))
  | delivers {index : Nat} {clock : Clock} {sendTo : Bytes → SocketAddr → Except IoError Nat}
      {f : Flight} {p' : Peer K} {ds : List (Option UInt32)}
      (found : n.flights[index]? = some f)
      (after : p' = ((n.party f.dst).peer.handleIncoming f.bytes (setting.addr f.dst.other) clock
        (socketOf setting f.dst sendTo)).1)
      (full : (n.party f.dst).peer.Answers p' (canOf setting f.dst)
        (respond (tie setting f.dst) (h.slot f.dst) ds (.decode f.bytes))) :
      Mirrors setting n h (.deliver index clock sendTo)
        (.deliver index ds (launched setting f.dst p'))
  | drops (index : Nat) : Mirrors setting n h (.drop index) (.drop index)
  | duplicates (index : Nat) : Mirrors setting n h (.duplicate index) (.duplicate index)

section Refine

variable {setting : Setting} {n n' : Network K} {h : Handshake}

theorem send_refines (refines : Refines setting n h) (x : Side) (data : Bytes)
    (draw : DrawnConv) (clock : Clock) (sendTo : Bytes → SocketAddr → Except IoError Nat)
    (taken : n.step setting (.send x data draw clock sendTo) = some n') :
    ∃ move h', Handshake.step (tie setting) h move = some h' ∧ Refines setting n' h' ∧
      Mirrors setting n h (.send x data draw clock sendTo) move := by
  obtain rfl := Option.some.inj taken
  have tidy := refines.tidy x
  have only : ((n.party x).peer.send (setting.addr x.other) data draw clock
      (socketOf setting x sendTo)).1.registry.OnlyFor (canOf setting x) := by
    rw [Peer.registry_send]
    exact Registry.OnlyFor.send tidy.only draw.val
  by_cases absent : (n.party x).peer.slot (canOf setting x) = none
  · have opened := Peer.send_opens (n.party x).peer (setting.addr x.other) data draw clock
      (socketOf setting x sendTo) absent
    have empty : h.slot x = none := (refines.slot x).trans absent
    have sub := launched_sublist setting x tidy.idle opened.sends
    refine ⟨.openTo x draw.val (launched setting x _), _, if_pos ⟨empty, sub⟩, ?_,
      .opens rfl empty opened⟩
    refine refines.launch n.flights opened only rfl ?_ ?_
    · simp only [Handshake.launch, Handshake.openAt, refines.net, Party.send]
    · simp only [Handshake.launch, Handshake.openAt, List.append_nil, Function.update_eq_self]
  · obtain ⟨ds, msgs, offered, allowed, onlyData⟩ := Peer.send_offers (n.party x).peer
      (setting.addr x.other) data draw clock (socketOf setting x sendTo) absent
    have present : h.slot x ≠ none := fun empty => absent ((refines.slot x).symm.trans empty)
    have slotEq := refines.slot x
    have sub := launched_sublist setting x tidy.idle offered.sends
    rw [show (n.party x).peer.slot (canonicalize (setting.addr x.other)) = h.slot x from
      slotEq.symm] at allowed offered
    refine ⟨.offer x ds (launched setting x _), _, if_pos (sub.trans allowed), ?_,
      .sends rfl present offered allowed onlyData⟩
    refine refines.launch n.flights offered only ?_ ?_ ?_
    · simp only [Handshake.launch, Function.update_eq_self]
    · simp only [Handshake.launch, refines.net, Party.send]
    · simp only [Handshake.launch, List.append_nil, Function.update_eq_self]

theorem tick_refines (refines : Refines setting n h) (x : Side) (tick : Tick)
    (sendTo : Bytes → SocketAddr → Except IoError Nat)
    (kept : (Peer.scan tick (socketOf setting x sendTo) tick.order (n.party x).peer).2 = [])
    (taken : n.step setting (.tick x tick sendTo) = some n') :
    ∃ move h', Handshake.step (tie setting) h move = some h' ∧ Refines setting n' h' ∧
      Mirrors setting n h (.tick x tick sendTo) move := by
  obtain ⟨p', applied, rfl⟩ := Option.map_eq_some_iff.mp taken
  obtain ⟨order, rfl⟩ := Peer.apply_tick applied
  have tidy := refines.tidy x
  have slotEq := refines.slot x
  obtain ⟨ds, msgs, offered, allowed⟩ := Peer.updateTick_offers tidy tick
    (socketOf setting x sendTo) order kept
  have sub := launched_sublist setting x tidy.idle offered.sends
  rw [← slotEq] at allowed offered
  refine ⟨.offer x ds (launched setting x _), _, if_pos (sub.trans allowed), ?_,
    .ticks rfl offered allowed⟩
  refine refines.launch n.flights offered ?_ ?_ ?_ ?_
  · rw [Peer.updateTick_registry _ _ _ kept]
    exact tidy.only
  · simp only [Handshake.launch, Function.update_eq_self]
  · simp only [Handshake.launch, refines.net]
  · simp only [Handshake.launch, List.append_nil, Function.update_eq_self]

theorem deliver_refines (refines : Refines setting n h) (index : Nat) (clock : Clock)
    (sendTo : Bytes → SocketAddr → Except IoError Nat)
    (taken : n.step setting (.deliver index clock sendTo) = some n') :
    ∃ move h', Handshake.step (tie setting) h move = some h' ∧ Refines setting n' h' ∧
      Mirrors setting n h (.deliver index clock sendTo) move := by
  simp only [step, Option.map_eq_some_iff] at taken
  obtain ⟨f, found, rfl⟩ := taken
  have tidy := refines.tidy f.dst
  have slotEq := refines.slot f.dst
  obtain ⟨ds, answers⟩ := Peer.handleIncoming_respond (n.party f.dst).peer f.bytes
    (setting.addr f.dst.other) clock (socketOf setting f.dst sendTo)
    (show (socketOf setting f.dst sendTo).localAddr = .ok (setting.addr f.dst) from rfl)
  rw [show (n.party f.dst).peer.slot (canonicalize (setting.addr f.dst.other)) = h.slot f.dst from
    slotEq.symm] at answers
  have sub := launched_sublist setting f.dst tidy.idle answers.sends
  have inFlight : h.net[index]? = some (f.dst, Msg.decode f.bytes) := by
    rw [refines.net, List.getElem?_map, found, Option.map_some]
  refine ⟨.deliver index ds (launched setting f.dst _), _,
    Handshake.step_deliver (tie setting) inFlight sub, ?_, .delivers found rfl answers⟩
  · refine refines.launch (n.flights.eraseIdx index) answers ?_ rfl ?_ rfl
    · exact Peer.handleIncoming_onlyFor tidy.only ..
    · simp only [Handshake.launch, Handshake.replyAt, refines.net, List.eraseIdx_map, Party.receive]

/-- Every calm step of the network is a move of the protocol. -/
theorem step_refines (refines : Refines setting n h) {act : Action} (calm : Calm setting n act)
    (taken : n.step setting act = some n') :
    ∃ move h', Handshake.step (tie setting) h move = some h' ∧ Refines setting n' h' ∧
      Mirrors setting n h act move := by
  cases act with
  | send x data draw clock sendTo => exact send_refines refines x data draw clock sendTo taken
  | disconnect x sendTo => exact calm.elim
  | tick x tick sendTo => exact tick_refines refines x tick sendTo calm taken
  | rebind x incarnation => exact calm.elim
  | deliver index clock sendTo => exact deliver_refines refines index clock sendTo taken
  | drop index =>
      simp only [step] at taken
      split at taken
      · rename_i below
        obtain rfl := Option.some.inj taken
        refine ⟨.drop index, _, if_pos ?_, ⟨refines.slot, ?_, refines.events, refines.tidy⟩,
          .drops index⟩
        · rw [refines.net, List.length_map]
          exact below
        · simp only [refines.net, List.eraseIdx_map]
      · cases taken
  | duplicate index =>
      simp only [step, Option.map_eq_some_iff] at taken
      obtain ⟨f, found, rfl⟩ := taken
      refine ⟨.duplicate index, { h with net := h.net ++ [(f.dst, Msg.decode f.bytes)] }, ?_,
        ⟨refines.slot, ?_, refines.events, refines.tidy⟩, .duplicates index⟩
      · simp only [Handshake.step, refines.net, List.getElem?_map, found, Option.map_some]
      · simp only [refines.net, List.map_append, List.map_cons, List.map_nil]

theorem start_refines (setting : Setting) :
    Refines setting (networkMachine K setting).start Handshake.start :=
  ⟨fun _ => rfl, rfl, fun _ => rfl, fun _ => Peer.bind_tidy ..⟩

/-- A run of calm steps is a run of the protocol, whose moves meet every
condition that the network's steps ensure. -/
theorem simulation {guard : Network K → Action → Prop} (guard' : Handshake → Move → Prop)
    (calm : ∀ n act, guard n act → Calm setting n act)
    (implies : ∀ n h act move, Refines setting n h → guard n act → Mirrors setting n h act move →
      guard' h move)
    (reached : (networkMachine K setting).Reach guard n) :
    ∃ h, (handshakeMachine (tie setting)).Reach guard' h ∧ Refines setting n h := by
  refine reached.simulate (Refines setting) (start_refines setting) ?_
  intro before act after h _ imageReached refines allowed taken
  obtain ⟨move, h', moved, refines', mirrors⟩ := step_refines refines (calm _ _ allowed) taken
  exact ⟨h', .step imageReached (implies _ _ _ _ refines allowed mirrors) moved, refines'⟩

end Refine

end Network

end KcpPeer
