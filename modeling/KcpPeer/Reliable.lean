import KcpPeer.Calls
import KcpPeer.SampleKcp
import Mathlib.Algebra.Order.BigOperators.Group.List
import Mathlib.Algebra.Order.Ring.Nat

set_option autoImplicit false

namespace KcpPeer

namespace Kcp

/-- Two instances, each of which may be fed with the buffers that the other has written. -/
def hearing : Transducer.Hearing Side KcpCall KcpOut Bytes where
  hears := KcpCall.fed?
  tells := KcpOut.wrote?
  reaches x y := x = y.other
  allowed := KcpCall.KeepsConv

/-- At least the number of segments that carry the payloads. -/
def volume (payloads : List Bytes) : Nat := (payloads.map fun payload => payload.length + 1).sum

theorem volume_append (left right : List Bytes) :
    volume (left ++ right) = volume left + volume right := by
  simp only [volume, List.map_append, List.sum_append]

theorem volume_sublist {left right : List Bytes} (sub : left.Sublist right) :
    volume left ≤ volume right :=
  (sub.map _).sum_le_sum fun _ _ => Nat.zero_le _

/-- A numbered payload has a number and a length below the volume. -/
theorem lt_volume {payloads : List Bytes} {sn : Nat} {data : Bytes}
    (numbered : payloads[sn]? = some data) :
    sn < volume payloads ∧ data.length < volume payloads := by
  induction payloads generalizing sn with
  | nil => simp at numbered
  | cons first rest ih =>
      have split : volume (first :: rest) = first.length + 1 + volume rest := by
        simp only [volume, List.map_cons, List.sum_cons]
      cases sn with
      | zero =>
          obtain rfl : first = data := by simpa using numbered
          omega
      | succ sn =>
          have later : rest[sn]? = some data := by simpa using numbered
          have below := ih later
          omega

variable (K : Type) [Kcp K]

/-- A new instance of a conversation. -/
def configured (config : KcpConfig) (conv : UInt32) : K := config.applyTo (Kcp.new conv)

/-- The calls that two instances of one conversation have had, when what each was fed with
are buffers that the other has written: possibly not all of them, some more than once, and in
another order. -/
abbrev Linked (config : Side → KcpConfig) (conv : UInt32) (calls : Side → List KcpCall) : Prop :=
  (Kcp.transducer K).Joined hearing (fun x => configured K (config x) conv) calls

/-- The promise of the protocol: what one instance gives out are the first of the payloads
that the other has taken, each once and in order. Segment numbers have 32 bits, and are
compared by their signed difference. -/
def Reliable : Prop :=
  ∀ (config : Side → KcpConfig) (conv : UInt32) (calls : Side → List KcpCall),
    Linked K config conv calls →
    (∀ x, volume (taken (configured K (config x) conv) (calls x)) < 2 ^ 31) →
    ∀ x, (Kcp.transducer K).told KcpOut.took? (configured K (config x) conv) (calls x) <+:
      taken (configured K (config x.other) conv) (calls x.other)

end Kcp

namespace SampleKcp

/-- A buffer of segments that the numbered payloads of `log` explain. -/
inductive Genuine (conv : UInt32) (log : List Bytes) : Bytes → Prop
  | nil : Genuine conv log []
  | cons (k : SampleKcp) (own : k.conv = conv) (cmd : UInt8) (ts sn : Nat) (data : Bytes)
      (explained : cmd = cmdPush ∧ log[sn]? = some data ∨ cmd ≠ cmdPush ∧ data = [])
      {rest : Bytes} (later : Genuine conv log rest) :
      Genuine conv log (k.segment cmd ts sn data ++ rest)

theorem Genuine.grow {conv : UInt32} {log : List Bytes} {buf : Bytes}
    (genuine : Genuine conv log buf) (more : List Bytes) : Genuine conv (log ++ more) buf := by
  induction genuine with
  | nil => exact .nil
  | cons k own cmd ts sn data explained _ ih =>
      refine .cons k own cmd ts sn data (explained.imp_left ?_) ih
      rintro ⟨isPush, numbered⟩
      have below := (List.getElem?_eq_some_iff.mp numbered).1
      exact ⟨isPush, by rw [List.getElem?_append_left below]; exact numbered⟩

theorem Genuine.segments {conv : UInt32} {log : List Bytes} {ι : Type} (items : List ι)
    (write : ι → Bytes) (each : ∀ i ∈ items, ∀ rest, Genuine conv log rest →
      Genuine conv log (write i ++ rest)) {rest : Bytes} (later : Genuine conv log rest) :
    Genuine conv log (items.flatMap write ++ rest) := by
  induction items with
  | nil => exact later
  | cons first others ih =>
      rw [List.flatMap_cons, List.append_assoc]
      exact each first (by simp) _ (ih fun i mem => each i (by simp [mem]))

theorem parse_segment (k : SampleKcp) (cmd : UInt8) (ts sn : Nat) (data rest : Bytes)
    (short : data.length < 2 ^ 32) :
    parse (k.segment cmd ts sn data ++ rest) =
      some (cmd, (UInt32.ofNat ts).toNat, (UInt32.ofNat sn).toNat, data, rest) := by
  have len : (UInt32.ofNat data.length).toNat = data.length := UInt32.toNat_ofNat_of_lt' short
  have stamp : (k.segment cmd ts sn data ++ rest).drop 8 =
      toLeBytes (UInt32.ofNat ts) ++ (toLeBytes (UInt32.ofNat sn) ++
        (toLeBytes (UInt32.ofNat k.rcvNxt) ++ (toLeBytes (UInt32.ofNat data.length) ++
          (data ++ rest)))) := by
    simp only [segment, List.append_assoc]
    rfl
  have number : (k.segment cmd ts sn data ++ rest).drop 12 =
      toLeBytes (UInt32.ofNat sn) ++ (toLeBytes (UInt32.ofNat k.rcvNxt) ++
        (toLeBytes (UInt32.ofNat data.length) ++ (data ++ rest))) := by
    simp only [segment, List.append_assoc]
    rfl
  have size : (k.segment cmd ts sn data ++ rest).drop 20 =
      toLeBytes (UInt32.ofNat data.length) ++ (data ++ rest) := by
    simp only [segment, List.append_assoc]
    rfl
  have body : (k.segment cmd ts sn data ++ rest).drop 24 = data ++ rest := by
    simp only [segment, List.append_assoc]
    rfl
  have command : (k.segment cmd ts sn data ++ rest)[4]? = some cmd := by
    simp only [segment, List.append_assoc]
    rfl
  simp [parse, stamp, number, size, body, command, len]

/-- How one of two linked instances stands: `log` are the payloads it has taken, `theirs`
those that the other has taken, and `took` and `wrote` what it has given out. -/
structure Half (conv : UInt32) (k : SampleKcp) (log theirs took wrote : List Bytes) : Prop where
  own : k.conv = conv
  sndNxt : k.sndNxt = k.sent.length
  taken : k.sent ++ k.sndQueue = log
  rcvNxt : k.rcvNxt ≤ theirs.length
  given : took ++ k.received = theirs.take k.rcvNxt
  genuine : ∀ buf ∈ wrote, Genuine conv log buf

section Half

variable {conv : UInt32} {k : SampleKcp} {log theirs took wrote : List Bytes}

/-- The other one takes more. -/
theorem Half.hearMore (half : Half conv k log theirs took wrote) (more : List Bytes) :
    Half conv k log (theirs ++ more) took wrote := by
  refine ⟨half.own, half.sndNxt, half.taken, ?_, ?_, half.genuine⟩
  · rw [List.length_append]
    exact Nat.le_add_right_of_le half.rcvNxt
  · rw [List.take_append_of_le_length half.rcvNxt]
    exact half.given

theorem Half.accept (half : Half conv k log theirs took wrote) (cmd : UInt8) (ts sn : Nat)
    (data : Bytes)
    (explained : cmd = cmdPush ∧ theirs[sn]? = some data ∨ cmd ≠ cmdPush ∧ data = []) :
    Half conv (k.accept cmd ts sn data) log theirs took wrote := by
  rcases explained with ⟨isPush, numbered⟩ | ⟨other, _⟩
  · simp only [SampleKcp.accept, isPush, ↓reduceIte]
    split
    · rename_i isNext
      have below := (List.getElem?_eq_some_iff.mp numbered).1
      refine ⟨half.own, half.sndNxt, half.taken, ?_, ?_, half.genuine⟩
      · change k.rcvNxt + 1 ≤ theirs.length
        omega
      · change took ++ (k.received ++ [data]) = theirs.take (k.rcvNxt + 1)
        rw [← List.append_assoc, half.given, List.take_add_one, ← isNext, numbered]
        rfl
    · exact ⟨half.own, half.sndNxt, half.taken, half.rcvNxt, half.given, half.genuine⟩
  · rw [SampleKcp.accept, if_neg other]
    exact half

/-- What the other has written is taken in, segment by segment. -/
theorem Half.inputLoop (half : Half conv k log theirs took wrote)
    (small : Kcp.volume theirs < 2 ^ 31) {buf : Bytes} (genuine : Genuine conv theirs buf)
    (fuel : Nat) : Half conv (inputLoop fuel k buf).1 log theirs took wrote := by
  induction genuine generalizing k fuel with
  | nil =>
      cases fuel with
      | zero => exact half
      | succ fuel => exact half
  | cons writer own cmd ts sn data explained _ ih =>
      rename_i rest _
      cases fuel with
      | zero => exact half
      | succ fuel =>
          have fits : data.length < 2 ^ 32 ∧ (cmd = cmdPush → sn < 2 ^ 32) := by
            rcases explained with ⟨_, numbered⟩ | ⟨other, rfl⟩
            · have below := Kcp.lt_volume numbered
              exact ⟨by omega, fun _ => by omega⟩
            · exact ⟨by decide, fun isPush => absurd isPush other⟩
          have accepted := half.accept cmd (UInt32.ofNat ts).toNat (UInt32.ofNat sn).toNat data (by
            refine explained.imp_left ?_
            rintro ⟨isPush, numbered⟩
            rw [UInt32.toNat_ofNat_of_lt' (fits.2 isPush)]
            exact ⟨isPush, numbered⟩)
          have nonempty : (writer.segment cmd ts sn data ++ rest).isEmpty = false := by
            simp [segment, toLeBytes]
          have next : SampleKcp.inputLoop (fuel + 1) k (writer.segment cmd ts sn data ++ rest) =
              SampleKcp.inputLoop fuel
                (k.accept cmd (UInt32.ofNat ts).toNat (UInt32.ofNat sn).toNat data) rest := by
            rw [SampleKcp.inputLoop, nonempty, readConv_segment, parse_segment _ _ _ _ _ _ fits.1]
            simp [own, half.own]
          rw [next]
          exact ih accepted fuel

theorem Half.flushBuffer (half : Half conv k log theirs took wrote) :
    Genuine conv log k.flushBuffer := by
  unfold SampleKcp.flushBuffer
  refine .segments _ _ ?_ ?_
  · intro ack _ rest later
    exact .cons k half.own cmdAck ack.2 ack.1 [] (Or.inr ⟨by decide, rfl⟩) later
  · rw [← List.append_nil (List.flatMap _ _)]
    refine .segments _ _ ?_ .nil
    rintro ⟨data, sn⟩ mem rest later
    refine .cons k half.own cmdPush _ sn data (Or.inl ⟨rfl, ?_⟩) later
    obtain ⟨least, found⟩ := List.mk_mem_zipIdx_iff_le_and_getElem?_sub.mp mem
    rw [← half.taken, List.getElem?_append_right (by rw [← half.sndNxt]; exact least),
      ← half.sndNxt]
    exact found

theorem Half.writeOut (half : Half conv k log theirs took wrote) (writer : Writer) :
    Half conv (writeOut writer k).1 log theirs took (wrote ++ (writeOut writer k).2.1) := by
  have flushed : Half conv k.emptied log theirs took (wrote ++ [k.flushBuffer]) := by
    refine ⟨half.own, ?_, ?_, half.rcvNxt, half.given, ?_⟩
    · change k.sndNxt + k.sndQueue.length = (k.sent ++ k.sndQueue).length
      rw [List.length_append, half.sndNxt]
    · change k.sent ++ k.sndQueue ++ [] = log
      rw [List.append_nil]
      exact half.taken
    · intro buf mem
      rcases List.mem_append.mp mem with old | new
      · exact half.genuine buf old
      · rw [List.mem_singleton.mp new]
        exact half.flushBuffer
  unfold SampleKcp.writeOut
  split
  · rw [List.append_nil]
    exact half
  · rename_i written
    rw [written] at flushed
    split
    · exact flushed
    · exact flushed

/-- One call. -/
theorem Half.call (half : Half conv k log theirs took wrote) (call : KcpCall)
    (allowed : call.KeepsConv) (small : Kcp.volume theirs < 2 ^ 31)
    (heard : ∀ data, call.fed? = some data → Genuine conv theirs data) :
    Half conv (Kcp.transducer SampleKcp k call).1 (log ++ Kcp.takes k call) theirs
      (took ++ (Kcp.transducer SampleKcp k call).2.filterMap KcpOut.took?)
      (wrote ++ (Kcp.transducer SampleKcp k call).2.filterMap KcpOut.wrote?) := by
  cases call with
  | setConv conv => exact allowed.elim
  | send data =>
      have queued : Half conv { k with sndQueue := k.sndQueue ++ [data] } (log ++ [data]) theirs
          took wrote := by
        refine ⟨half.own, half.sndNxt, ?_, half.rcvNxt, half.given, ?_⟩
        · rw [← List.append_assoc, half.taken]
        · exact fun buf mem => (half.genuine buf mem).grow [data]
      simpa [Kcp.transducer, Kcp.takes, Kcp.send, Except.isOk, Except.toBool] using queued
  | update now writer =>
      have ready : Half conv { k with updated := true, current := now } log theirs took wrote :=
        ⟨half.own, half.sndNxt, half.taken, half.rcvNxt, half.given, half.genuine⟩
      have written := ready.writeOut writer
      simp only [Kcp.transducer, Kcp.takes, Kcp.update, KcpOut.filterMap_wrote,
        KcpOut.filterMap_took_wrote, List.append_nil]
      exact written
  | flush writer =>
      simp only [Kcp.transducer, Kcp.takes, Kcp.flush, KcpOut.filterMap_wrote,
        KcpOut.filterMap_took_wrote, List.append_nil]
      split
      · exact half.writeOut writer
      · rw [List.append_nil]
        exact half
  | input data =>
      simp only [Kcp.transducer, Kcp.takes, Kcp.input, List.filterMap_nil, List.append_nil]
      split
      · exact half
      · exact half.inputLoop small (heard data rfl) data.length
  | recv size =>
      have quiet : Half conv k (log ++ []) theirs (took ++ []) (wrote ++ []) := by
        simpa using half
      cases queue : k.received with
      | nil =>
          simp only [Kcp.transducer, Kcp.takes, Kcp.recv, queue]
          exact quiet
      | cons msg rest =>
          by_cases tooSmall : size < msg.length
          · simp only [Kcp.transducer, Kcp.takes, Kcp.recv, queue, tooSmall, ↓reduceIte]
            exact quiet
          · simp only [Kcp.transducer, Kcp.takes, Kcp.recv, queue, tooSmall, ↓reduceIte]
            refine ⟨half.own, half.sndNxt, ?_, half.rcvNxt, ?_, ?_⟩
            · rw [List.append_nil]
              exact half.taken
            · change took ++ [msg] ++ rest = theirs.take k.rcvNxt
              rw [← half.given, queue, List.append_assoc]
              rfl
            · simpa [KcpOut.wrote?] using half.genuine

end Half

/-- Both halves of a link. -/
theorem halves {config : Side → KcpConfig} {conv : UInt32} {calls : Side → List KcpCall}
    (linked : Kcp.Linked SampleKcp config conv calls)
    (small : ∀ x, Kcp.volume (Kcp.taken (Kcp.configured SampleKcp (config x) conv) (calls x)) <
      2 ^ 31) (x : Side) :
    Half conv
      ((Kcp.transducer SampleKcp).run (Kcp.configured SampleKcp (config x) conv) (calls x)).1
      (Kcp.taken (Kcp.configured SampleKcp (config x) conv) (calls x))
      (Kcp.taken (Kcp.configured SampleKcp (config x.other) conv) (calls x.other))
      ((Kcp.transducer SampleKcp).told KcpOut.took?
        (Kcp.configured SampleKcp (config x) conv) (calls x))
      ((Kcp.transducer SampleKcp).told KcpOut.wrote?
        (Kcp.configured SampleKcp (config x) conv) (calls x)) := by
  induction linked generalizing x with
  | start => exact ⟨rfl, rfl, rfl, Nat.le_refl _, rfl, fun _ mem => by cases mem⟩
  | @call calls earlier y call allowed heard ih =>
      -- what was taken before was no more than what is taken now
      have before : ∀ z, Kcp.volume
          (Kcp.taken (Kcp.configured SampleKcp (config z) conv) (calls z)) < 2 ^ 31 := by
        intro z
        have now := small z
        by_cases same : z = y
        · subst same
          rw [Function.update_self, Kcp.taken_append, Kcp.volume_append] at now
          omega
        · rwa [Function.update_of_ne same] at now
      have mine := ih before y
      have next := mine.call call allowed (before y.other) (by
        intro data fed
        obtain ⟨z, rfl, told⟩ := heard data fed
        have theirs := ih before y.other
        exact theirs.genuine data told)
      rcases Side.eq_or_eq_other y x with rfl | rfl
      · rw [Function.update_self, Function.update_of_ne (Side.other_ne x), Kcp.taken_append,
          Transducer.told_append, Transducer.told_append, Transducer.run_append]
        simpa only [Kcp.taken, Transducer.told, Transducer.run_singleton, List.append_nil]
          using next
      · rw [Function.update_of_ne (Side.other_ne y), Side.other_other, Function.update_self,
          Kcp.taken_append]
        have theirs := ih before y.other
        rw [Side.other_other] at theirs
        exact theirs.hearMore _

/-- The sample keeps the promise of the protocol. -/
theorem reliable : Kcp.Reliable SampleKcp := by
  intro config conv calls linked small x
  have half := halves linked small x
  exact List.IsPrefix.trans ⟨_, half.given⟩ (List.take_prefix _ _)

end SampleKcp

end KcpPeer
