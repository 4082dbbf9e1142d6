import KcpPeer.Backlog
import KcpPeer.Moves
import KcpPeer.SampleKcp

set_option autoImplicit false

namespace KcpPeer

/-- The tasks of a peer with a history of its `send()` calls: the payload that
each call was given, and the calls that have returned `Ok`, in that order. -/
structure FirstSends (K : Type) where
  tasks : Tasks K
  payloads : List Bytes
  returned : List Nat

/-- The run consists of `send()` calls to addresses that canonicalize to `can`. -/
def TaskStep.sendsTo (can : CanonicalAddr) : TaskStep → Bool
  | .call peer _ => decide (canonicalize peer = can)
  | .advance .. => true
  | _ => false

namespace FirstSends

variable {K : Type} [Kcp K]

/-- `accepted` grows when a call returns `Ok`. -/
def step (f : FirstSends K) (label : TaskStep) : Option (FirstSends K) :=
  (f.tasks.step label).map fun tasks =>
    match label with
    | .call _ data => { f with tasks, payloads := f.payloads ++ [data] }
    | .advance index _ _ _ =>
        { f with
          tasks
          returned :=
            if tasks.accepted.length = f.tasks.accepted.length then f.returned
            else f.returned ++ [index] }
    | _ => { f with tasks }

end FirstSends

/-- Every interleaving of `send()` calls, from a given state of the tasks. -/
def firstSends {K : Type} [Kcp K] (n₀ : Tasks K) : Machine (FirstSends K) TaskStep where
  start := ⟨n₀, [], []⟩
  step := FirstSends.step

/-- Where a call for `data` may stand; `held` is the session inserted for `can`,
with its conversation id. -/
inductive SendPc.Stands (can : CanonicalAddr) (held : Option (SessionId × UInt32)) (data : Bytes) :
    SendPc → Prop
  | called (peer : SocketAddr) (own : canonicalize peer = can) :
      Stands can held data (.called peer data)
  | missing (peer : SocketAddr) (own : canonicalize peer = can) :
      Stands can held data (.missing peer data)
  | creating (peer : SocketAddr) (own : canonicalize peer = can) :
      Stands can held data (.creating peer data)
  | inserted (id : SessionId) (conv : UInt32) (holds : held = some (id, conv)) :
      Stands can held data (.inserted id data)
  | greeting (id : SessionId) (conv : UInt32) (holds : held = some (id, conv)) :
      Stands can held data (.greeting id conv data)
  | holding (id : SessionId) (conv : UInt32) (holds : held = some (id, conv)) :
      Stands can held data (.holding id data)
  | opened (id : SessionId) (conv : UInt32) (holds : held = some (id, conv)) :
      Stands can held data (.opened id data)
  | done (id : SessionId) (conv : UInt32) (holds : held = some (id, conv)) :
      Stands can held data .done

/-- The call has inserted the session and has still to send its SYN. -/
def SendPc.greets : SendPc → Bool
  | .inserted .. => true
  | .greeting .. => true
  | _ => false

/-- Where a call stands before the session is inserted, it may stand afterwards. -/
theorem SendPc.Stands.later {can : CanonicalAddr} {data : Bytes} {pc : SendPc}
    (stands : pc.Stands can none data) (held : Option (SessionId × UInt32)) :
    pc.Stands can held data ∧ pc.greets = false := by
  cases stands with
  | called peer own => exact ⟨.called peer own, rfl⟩
  | missing peer own => exact ⟨.missing peer own, rfl⟩
  | creating peer own => exact ⟨.creating peer own, rfl⟩
  | inserted id conv holds => cases holds
  | greeting id conv holds => cases holds
  | holding id conv holds => cases holds
  | opened id conv holds => cases holds
  | done id conv holds => cases holds

namespace SendPc.Stands

variable {can : CanonicalAddr} {held : Option (SessionId × UInt32)} {peer : SocketAddr}
  {id : SessionId} {data data' : Bytes}

theorem seeks {pc : SendPc} (stands : pc.Stands can held data')
    (seeks : pc = .called peer data ∨ pc = .missing peer data ∨ pc = .creating peer data) :
    canonicalize peer = can ∧ data' = data := by
  rcases seeks with rfl | rfl | rfl
  · cases stands with
    | called _ home => exact ⟨home, rfl⟩
  · cases stands with
    | missing _ home => exact ⟨home, rfl⟩
  · cases stands with
    | creating _ home => exact ⟨home, rfl⟩

theorem misses (stands : SendPc.Stands can held data' (.called peer data)) :
    SendPc.Stands can held data' (.missing peer data) := by
  cases stands with
  | called _ home => exact .missing peer home

theorem creates (stands : SendPc.Stands can held data' (.missing peer data)) :
    SendPc.Stands can held data' (.creating peer data) := by
  cases stands with
  | missing _ home => exact .creating peer home

theorem cancelled {conv : UInt32} (stands : SendPc.Stands can held data' (.greeting id conv data)) :
    SendPc.Stands can held data' .done := by
  cases stands with
  | greeting _ _ holds => exact .done _ _ holds

theorem greets {conv : UInt32} (stands : SendPc.Stands can held data' (.greeting id conv data)) :
    SendPc.Stands can held data' (.holding id data) := by
  cases stands with
  | greeting _ _ holds => exact .holding _ _ holds

theorem closed (stands : SendPc.Stands can held data' (.holding id data)) :
    SendPc.Stands can held data' .done := by
  cases stands with
  | holding _ conv holds => exact .done id conv holds

theorem opens (stands : SendPc.Stands can held data' (.holding id data)) :
    SendPc.Stands can held data' (.opened id data) := by
  cases stands with
  | holding _ conv holds => exact .opened id conv holds

theorem queues (stands : SendPc.Stands can held data' (.opened id data)) :
    SendPc.Stands can held data' .done := by
  cases stands with
  | opened _ conv holds => exact .done id conv holds

end SendPc.Stands

namespace FirstSends

variable {K : Type}

/-- What a call may know of the session: nothing is inserted yet, or the one
session is in the map. -/
inductive Held (can : CanonicalAddr) (p₀ p : Peer K) : Option (SessionId × UInt32) → Prop
  | absent (unchanged : p = p₀) : Held can p₀ p none
  | present (s : Session K) (named : p.sessions.lookup can = some p₀.sessions.fresh)
      (object : p.sessions.object? p₀.sessions.fresh = some s) :
      Held can p₀ p (some (p₀.sessions.fresh, s.inner.convId))

/-- A lookup that succeeds finds the one session. -/
theorem Held.lookup {can : CanonicalAddr} {p₀ p : Peer K} {held : Option (SessionId × UInt32)}
    {id : SessionId}
    (holds : Held can p₀ p held) (absent : p₀.sessions.lookup can = none)
    (found : p.sessions.lookup can = some id) : ∃ conv, held = some (id, conv) := by
  cases holds with
  | absent unchanged =>
      rw [unchanged, absent] at found
      cases found
  | present s named object =>
      rw [named] at found
      cases found
      exact ⟨_, rfl⟩

theorem Held.finds {can : CanonicalAddr} {p₀ p : Peer K} {held : Option (SessionId × UInt32)}
    (holds : Held can p₀ p held) (absent : p₀.sessions.lookup can = none) {pc : SendPc}
    {peer : SocketAddr} {data data' : Bytes} {id : SessionId}
    (seeks : pc = .called peer data ∨ pc = .missing peer data ∨ pc = .creating peer data)
    (found : p.sessions.lookup (canonicalize peer) = some id) (stands : pc.Stands can held data') :
    SendPc.Stands can held data' (.holding id data) := by
  obtain ⟨home, rfl⟩ := stands.seeks seeks
  rw [home] at found
  obtain ⟨conv, rfl⟩ := holds.lookup absent found
  exact .holding id conv rfl

/-- The call that has inserted the session reads its conversation id. -/
theorem Held.reads {can : CanonicalAddr} {p₀ p : Peer K} {held : Option (SessionId × UInt32)}
    (holds : Held can p₀ p held) {data data' : Bytes} {id : SessionId} {s : Session K}
    (present : p.sessions.object? id = some s)
    (stands : SendPc.Stands can held data' (.inserted id data)) :
    SendPc.Stands can held data' (.greeting id s.inner.convId data) := by
  cases stands with
  | inserted _ conv own =>
      cases holds with
      | absent => cases own
      | present s₁ named object =>
          cases own
          obtain rfl : s₁ = s := Option.some.inj (object.symm.trans present)
          exact .greeting _ _ rfl

variable [Kcp K]

/-- The one session that was inserted, and nothing else changed. -/
structure Opened (q : SendQueue K) (can : CanonicalAddr) (p₀ p : Peer K) (s : Session K)
    (queued : List (Option Bytes)) : Prop where
  fresh : p.sessions.fresh = p₀.sessions.fresh + 1
  named : p.sessions.lookup can = some p₀.sessions.fresh
  others : ∀ other, other ≠ can → p.sessions.lookup other = p₀.sessions.lookup other
  present : p.sessions.object? p₀.sessions.fresh = some s
  untouched : ∀ id, id ≠ p₀.sessions.fresh → p.sessions.object? id = p₀.sessions.object? id
  waiting : s.inner.state = .synSent
  queue : (q.queued s.inner.kcp).map some = queued

/-- The SYN has been submitted once, or the call that inserted the session is
about to submit it. -/
def Greeted (p₀ p : Peer K) (s : Session K) (calls : List SendPc) : Prop :=
  (p.outbox = p₀.outbox ∧ ∃ (g : Nat) (pc : SendPc), calls[g]? = some pc ∧ pc.greets = true ∧
    ∀ (i : Nat) (pc : SendPc), calls[i]? = some pc → pc.greets = true → i = g) ∨
  ((∃ syn, p.outbox = p₀.outbox ++ [syn] ∧ syn.bytes = encodeControl .syn s.inner.convId ∧
      syn.dest = s.peerAddr) ∧
    ∀ (i : Nat) (pc : SendPc), calls[i]? = some pc → pc.greets = false)

/-- The invariant of concurrent first sends. -/
structure Shared (q : SendQueue K) (can : CanonicalAddr) (p₀ : Peer K) (f : FirstSends K) :
    Prop where
  lengths : f.payloads.length = f.tasks.calls.length
  nodup : f.returned.Nodup
  finished : ∀ i ∈ f.returned, f.tasks.calls[i]? = some .done
  sessions :
    (f.tasks.peer = p₀ ∧ f.returned = [] ∧
      ∀ (i : Nat) (pc : SendPc) (data : Bytes), f.tasks.calls[i]? = some pc →
        f.payloads[i]? = some data → pc.Stands can none data) ∨
    ∃ s, Opened q can p₀ f.tasks.peer s (f.returned.map (f.payloads[·]?)) ∧
      Greeted p₀ f.tasks.peer s f.tasks.calls ∧
      ∀ (i : Nat) (pc : SendPc) (data : Bytes), f.tasks.calls[i]? = some pc →
        f.payloads[i]? = some data → pc.Stands can (some (p₀.sessions.fresh, s.inner.convId)) data

theorem set_cases {calls : List SendPc} {index i : Nat} {pc pc' : SendPc}
    (reads : (calls.set index pc)[i]? = some pc') :
    (i = index ∧ pc' = pc) ∨ (i ≠ index ∧ calls[i]? = some pc') := by
  rw [List.getElem?_set] at reads
  split at reads
  · rename_i same
    split at reads
    · cases reads
      exact Or.inl ⟨same.symm, rfl⟩
    · cases reads
  · rename_i other
    exact Or.inr ⟨Ne.symm other, reads⟩

theorem append_cases {α : Type} {l : List α} {a b : α} {i : Nat}
    (reads : (l ++ [a])[i]? = some b) :
    (i < l.length ∧ l[i]? = some b) ∨ (i = l.length ∧ b = a) := by
  rcases Nat.lt_or_ge i l.length with below | beyond
  · rw [List.getElem?_append_left below] at reads
    exact Or.inl ⟨below, reads⟩
  · rw [List.getElem?_append_right beyond, List.getElem?_singleton] at reads
    split at reads
    · cases reads
      exact Or.inr ⟨by omega, rfl⟩
    · cases reads

theorem map_append_below {α : Type} {l : List α} {a : α} {indices : List Nat}
    (below : ∀ i ∈ indices, i < l.length) :
    indices.map ((l ++ [a])[·]?) = indices.map (l[·]?) :=
  List.map_congr_left fun i mem => List.getElem?_append_left (below i mem)

variable {q : SendQueue K} {can : CanonicalAddr} {p₀ : Peer K} {f : FirstSends K} {index : Nat}
  {pc pc' : SendPc}

/-- The calls that have returned stay as they are when another one moves. -/
theorem Shared.finished_set (ok : Shared q can p₀ f) (reads : f.tasks.calls[index]? = some pc)
    (running : pc ≠ .done) (i : Nat) (mem : i ∈ f.returned) :
    (f.tasks.calls.set index pc')[i]? = some .done := by
  have done := ok.finished i mem
  have other : index ≠ i := by
    rintro rfl
    rw [reads, Option.some.injEq] at done
    exact running done
  rw [List.getElem?_set_ne other, done]

/-- The place of one call changes. -/
theorem stands_set {calls : List SendPc} {payloads : List Bytes}
    {held : Option (SessionId × UInt32)}
    (each : ∀ (i : Nat) (pc : SendPc) (data : Bytes), calls[i]? = some pc →
      payloads[i]? = some data → pc.Stands can held data)
    (moved : ∀ data, payloads[index]? = some data → pc'.Stands can held data)
    (i : Nat) (pc : SendPc) (data : Bytes) (reads : (calls.set index pc')[i]? = some pc)
    (given : payloads[i]? = some data) : pc.Stands can held data := by
  rcases set_cases reads with ⟨rfl, rfl⟩ | ⟨_, old⟩
  · exact moved data given
  · exact each i pc data old given

/-- An old call has an old payload, and the new call the new one. -/
theorem stands_call {calls : List SendPc} {payloads : List Bytes}
    {held : Option (SessionId × UInt32)} (lengths : payloads.length = calls.length)
    {peer : SocketAddr} (own : canonicalize peer = can)
    (each : ∀ (i : Nat) (pc : SendPc) (data : Bytes), calls[i]? = some pc →
      payloads[i]? = some data → pc.Stands can held data) {data : Bytes} (i : Nat) (pc : SendPc)
    (data' : Bytes) (reads : (calls ++ [.called peer data])[i]? = some pc)
    (given : (payloads ++ [data])[i]? = some data') : pc.Stands can held data' := by
  rcases append_cases reads with ⟨below, old⟩ | ⟨rfl, rfl⟩
  · rcases append_cases given with ⟨_, oldPayload⟩ | ⟨rfl, _⟩
    · exact each i pc data' old oldPayload
    · rw [lengths] at below
      exact absurd below (Nat.lt_irrefl _)
  · rcases append_cases given with ⟨below, _⟩ | ⟨_, rfl⟩
    · rw [lengths] at below
      exact absurd below (Nat.lt_irrefl _)
    · exact .called peer own

omit [Kcp K] in
/-- A call that has a SYN to send keeps it, and any other gets none. -/
theorem Greeted.move {p p' : Peer K} {s s' : Session K} {calls : List SendPc}
    (greeted : Greeted p₀ p s calls) (reads : calls[index]? = some pc)
    (greets : pc'.greets = pc.greets) (outbox : p'.outbox = p.outbox) (view : s'.view = s.view) :
    Greeted p₀ p' s' (calls.set index pc') := by
  rcases greeted with ⟨quiet, g, pcg, readsg, greetsg, only⟩ | ⟨⟨syn, sent, bytes, dest⟩, none⟩
  · refine Or.inl ⟨outbox.trans quiet, ?_⟩
    have keeps : ∀ (i : Nat) (pc₁ : SendPc), (calls.set index pc')[i]? = some pc₁ →
        pc₁.greets = true → i = g := by
      intro i pc₁ reads₁ greets₁
      rcases set_cases reads₁ with ⟨rfl, rfl⟩ | ⟨_, reads₁⟩
      · exact only i pc reads (greets.symm.trans greets₁)
      · exact only i pc₁ reads₁ greets₁
    by_cases same : index = g
    · subst same
      rw [reads, Option.some.injEq] at readsg
      subst readsg
      refine ⟨index, pc', ?_, greets.trans greetsg, keeps⟩
      exact List.getElem?_set_self (List.getElem?_eq_some_iff.mp reads).1
    · exact ⟨g, pcg, (List.getElem?_set_ne same).trans readsg, greetsg, keeps⟩
  · have conv : s'.inner.convId = s.inner.convId := congrArg View.convId view
    have addr : s'.peerAddr = s.peerAddr := congrArg View.peerAddr view
    refine Or.inr ⟨⟨syn, outbox.trans sent, by rw [conv]; exact bytes, dest.trans addr.symm⟩, ?_⟩
    intro i pc₁ reads₁
    rcases set_cases reads₁ with ⟨rfl, rfl⟩ | ⟨_, reads₁⟩
    · exact greets.trans (none i pc reads)
    · exact none i pc₁ reads₁

/-- The one session is written back with what its instance then holds. -/
theorem Opened.write {p : Peer K} {s s' : Session K} {queued queued' : List (Option Bytes)}
    (opened : Opened q can p₀ p s queued) (view : s'.view = s.view)
    (queue : (q.queued s'.inner.kcp).map some = queued') (origin : Option SessionId)
    (out : List Submission) :
    Opened q can p₀ ((p.setSession p₀.sessions.fresh s').submit origin out) s' queued' where
  fresh := (Store.fresh_modify ..).trans opened.fresh
  named := opened.named
  others := opened.others
  present := Peer.object?_setSession _ _ opened.present
  untouched := fun id' apart =>
    (Store.object?_modify_ne _ _ (Ne.symm apart)).trans (opened.untouched id' apart)
  waiting := (congrArg View.state view).trans opened.waiting
  queue := queue

/-- The first session is inserted into a map that is as it was. -/
theorem Opened.insert {p : Peer K} (fresh : p.sessions.fresh = p₀.sessions.fresh)
    (named : ∀ other, p.sessions.lookup other = p₀.sessions.lookup other)
    (objects : ∀ id, p.sessions.object? id = p₀.sessions.object? id) (conv : UInt32)
    (peer : SocketAddr) (incarnation : UInt64) (config : KcpConfig) (now : UInt64) :
    Opened q (canonicalize peer) p₀ (p.insertSession (canonicalize peer)
      (Session.newOutbound conv peer incarnation config now))
      (Session.newOutbound conv peer incarnation config now) [] := by
  refine ⟨?_, ?_, ?_, ?_, ?_, rfl, ?_⟩
  · simp only [Peer.insertSession, Store.fresh_insertNew, fresh]
  · simp only [Peer.insertSession, Store.lookup_insertNew, ↓reduceIte, fresh]
  · intro other apart
    simp only [Peer.insertSession, Store.lookup_insertNew, apart, ↓reduceIte, named]
  · simp only [Peer.insertSession, Store.object?_insertNew, ← fresh, ↓reduceIte]
  · intro id apart
    simp only [Peer.insertSession, Store.object?_insertNew, fresh, apart, ↓reduceIte, objects]
  · have empty := q.queued_applyTo config conv
    exact congrArg (List.map some) empty

/-- The instance of a waiting session takes a payload, or its queue stays as it was;
nothing is submitted. -/
theorem queueData_waiting (q : SendQueue K) {s : Session K} (waiting : s.inner.state = .synSent)
    (data : Bytes) (now : UInt32) (socket : Socket) :
    (s.queueData data now socket).2.1 = [] ∧
      q.queued (s.queueData data now socket).1.inner.kcp =
        if (s.queueData data now socket).2.2.isOk then q.queued s.inner.kcp ++ [data]
        else q.queued s.inner.kcp := by
  constructor
  · rw [Session.queueData_synSent_eq waiting]
    split
    · rfl
    · rfl
  · rcases Session.queueData_synSent s data now socket waiting with
      ⟨result, sent⟩ | ⟨⟨e, result⟩, kept⟩
    · rw [result, q.taken _ _ _ sent]
      rfl
    · rw [result]
      rcases kept with kcp | ⟨e', refused⟩
      · rw [kcp]
        rfl
      · exact q.refused _ _ _ _ refused

/-- A call goes on without touching the peer. -/
theorem Shared.move (ok : Shared q can p₀ f) (reads : f.tasks.calls[index]? = some pc)
    (running : pc ≠ .done) (greets : pc'.greets = pc.greets)
    (stands : ∀ held data, Held can p₀ f.tasks.peer held → pc.Stands can held data →
      pc'.Stands can held data) :
    Shared q can p₀ { f with tasks := f.tasks.setCall index pc' } := by
  refine ⟨?_, ok.nodup, ok.finished_set reads running, ?_⟩
  · simpa only [Tasks.setCall, List.length_set] using ok.lengths
  · rcases ok.sessions with ⟨unchanged, none, early⟩ | ⟨s, opened, greeted, late⟩
    · refine Or.inl ⟨unchanged, none, stands_set early ?_⟩
      intro data given
      exact stands _ _ (.absent unchanged) (early index pc data reads given)
    · refine Or.inr ⟨s, opened, greeted.move reads greets rfl rfl, stands_set late ?_⟩
      intro data given
      exact stands _ _ (.present s opened.named opened.present) (late index pc data reads given)

/-- Every call has been given its payload. -/
theorem Shared.given (ok : Shared q can p₀ f) (reads : f.tasks.calls[index]? = some pc) :
    ∃ data, f.payloads[index]? = some data := by
  have below := (List.getElem?_eq_some_iff.mp reads).1
  rw [← ok.lengths] at below
  exact ⟨_, List.getElem?_eq_getElem below⟩

/-- A call that has got past the map's check has found the one session. -/
theorem Shared.opened (ok : Shared q can p₀ f) (reads : f.tasks.calls[index]? = some pc)
    (past : ∀ data, ¬ pc.Stands can none data) :
    ∃ s data, Opened q can p₀ f.tasks.peer s (f.returned.map (f.payloads[·]?)) ∧
      Greeted p₀ f.tasks.peer s f.tasks.calls ∧
      (∀ (i : Nat) (pc : SendPc) (data : Bytes), f.tasks.calls[i]? = some pc →
        f.payloads[i]? = some data →
        pc.Stands can (some (p₀.sessions.fresh, s.inner.convId)) data) ∧
      f.payloads[index]? = some data ∧
      pc.Stands can (some (p₀.sessions.fresh, s.inner.convId)) data := by
  obtain ⟨data, given⟩ := ok.given reads
  rcases ok.sessions with ⟨_, _, early⟩ | ⟨s, opened, greeted, late⟩
  · exact absurd (early index pc data reads given) (past data)
  · exact ⟨s, data, opened, greeted, late, given, late index pc data reads given⟩

/-- The first call that finds the map empty under the write lock inserts. -/
theorem Shared.insert (ok : Shared q can p₀ f) {peer : SocketAddr} {data : Bytes}
    (reads : f.tasks.calls[index]? = some (.creating peer data))
    (absent : f.tasks.peer.sessions.lookup (canonicalize peer) = none) (conv : UInt32)
    (now : UInt64) :
    Shared q can p₀ { f with
      tasks := { f.tasks with
        peer := f.tasks.peer.insertSession (canonicalize peer) (Session.newOutbound conv peer
          f.tasks.peer.incarnation f.tasks.peer.config now) }.setCall index
        (.inserted f.tasks.peer.sessions.fresh data) } := by
  obtain ⟨data', given⟩ := ok.given reads
  refine ⟨?_, ok.nodup, ok.finished_set reads (by simp), Or.inr ?_⟩
  · simpa only [Tasks.setCall, List.length_set] using ok.lengths
  · rcases ok.sessions with ⟨unchanged, noReturn, early⟩ | ⟨s, opened, _, late⟩
    · have own : canonicalize peer = can := by
        cases early index _ data' reads given with
        | creating _ own => exact own
      have fresh : f.tasks.peer.sessions.fresh = p₀.sessions.fresh := by rw [unchanged]
      have outbox : f.tasks.peer.outbox = p₀.outbox := by rw [unchanged]
      subst own
      have opened := Opened.insert (q := q) fresh (fun other => by rw [unchanged])
        (fun id => by rw [unchanged]) conv peer f.tasks.peer.incarnation f.tasks.peer.config now
      refine ⟨_, by rw [noReturn]; exact opened,
        Or.inl ⟨?_, index, .inserted p₀.sessions.fresh data, ?_, rfl, ?_⟩, ?_⟩
      · exact outbox
      · simp only [Tasks.setCall, fresh]
        exact List.getElem?_set_self (List.getElem?_eq_some_iff.mp reads).1
      · intro i pc₁ reads₁ greets₁
        rcases set_cases reads₁ with ⟨rfl, rfl⟩ | ⟨_, reads₁⟩
        · rfl
        · obtain ⟨data₁, given₁⟩ := ok.given reads₁
          rw [((early i pc₁ data₁ reads₁ given₁).later none).2] at greets₁
          cases greets₁
      · refine stands_set (fun i pc₁ data₁ reads₁ given₁ =>
          ((early i pc₁ data₁ reads₁ given₁).later _).1) ?_
        intro data₁ given₁
        cases early index _ data₁ reads given₁
        rw [fresh]
        exact .inserted _ _ rfl
    · cases late index _ data' reads given with
      | creating _ own =>
          rw [own, opened.named] at absent
          cases absent

/-- The call that inserted the session submits the SYN. -/
theorem Shared.greet (ok : Shared q can p₀ f) {id : SessionId} {conv : UInt32} {data : Bytes}
    {s : Session K} (reads : f.tasks.calls[index]? = some (.greeting id conv data))
    (present : f.tasks.peer.sessions.object? id = some s) (now : UInt64) (socket : Socket) :
    Shared q can p₀ { f with
      tasks := { f.tasks with
        peer := (f.tasks.peer.setSession id (s.sendSyn conv now socket)).submit (some id)
          [s.synSubmission conv socket] }.setCall index (.holding id data) } := by
  have past : ∀ data', ¬ SendPc.Stands can none data' (.greeting id conv data) := by
    intro data' stands
    cases stands with
    | greeting _ _ holds => cases holds
  obtain ⟨s₁, data', opened, greeted, late, given, stands⟩ := ok.opened reads past
  refine ⟨?_, ok.nodup, ok.finished_set reads (by simp), Or.inr ?_⟩
  · simpa only [Tasks.setCall, List.length_set] using ok.lengths
  · cases stands with
    | greeting _ _ holds =>
        cases holds
        obtain rfl : s₁ = s := Option.some.inj (opened.present.symm.trans present)
        have view := Session.view_sendSyn s₁ s₁.inner.convId now socket
        have sameConv : (s₁.sendSyn s₁.inner.convId now socket).inner.convId = s₁.inner.convId :=
          congrArg View.convId view
        refine ⟨s₁.sendSyn s₁.inner.convId now socket, opened.write view ?_ _ _,
          Or.inr ⟨?_, ?_⟩, ?_⟩
        · rw [Session.inner_sendSyn]
          exact opened.queue
        · rcases greeted with ⟨quiet, _⟩ | ⟨_, none⟩
          · refine ⟨⟨s₁.synSubmission s₁.inner.convId socket, some p₀.sessions.fresh⟩, ?_, ?_, ?_⟩
            · simp only [Tasks.setCall, Peer.submit, Peer.setSession, quiet, List.map_cons,
                List.map_nil]
            · rw [sameConv]
              rfl
            · exact (congrArg View.peerAddr view).symm
          · exact absurd (none index _ reads) (by simp [SendPc.greets])
        · intro i pc₁ reads₁
          rcases set_cases reads₁ with ⟨rfl, rfl⟩ | ⟨other, reads₁⟩
          · rfl
          · rcases greeted with ⟨_, g, _, _, _, only⟩ | ⟨_, none⟩
            · cases greets₁ : pc₁.greets with
              | false => rfl
              | true =>
                  exact absurd
                    ((only i pc₁ reads₁ greets₁).trans (only index _ reads rfl).symm) other
            · exact none i pc₁ reads₁
        · rw [sameConv]
          refine stands_set late ?_
          intro data₁ given₁
          exact (late index _ data₁ reads given₁).greets

/-- A call queues its payload, or the instance refuses it; then it returns. -/
theorem Shared.queue (ok : Shared q can p₀ f) {id : SessionId} {data : Bytes} {s : Session K}
    (reads : f.tasks.calls[index]? = some (.opened id data))
    (present : f.tasks.peer.sessions.object? id = some s) (now : UInt32) (socket : Socket)
    {accepted : List (SessionId × Bytes)} {returned : List Nat}
    (returns : returned =
      if (s.queueData data now socket).2.2.isOk then f.returned ++ [index] else f.returned) :
    Shared q can p₀ { f with
      tasks := { f.tasks with
        peer := (f.tasks.peer.setSession id (s.queueData data now socket).1).submit (some id)
          (s.queueData data now socket).2.1
        accepted }.setCall index .done
      returned } := by
  have past : ∀ data', ¬ SendPc.Stands can none data' (.opened id data) := by
    intro data' stands
    cases stands with
    | opened _ _ holds => cases holds
  obtain ⟨s₁, data', opened, greeted, late, given, stands⟩ := ok.opened reads past
  cases stands with
  | opened _ conv holds =>
      cases holds
      obtain rfl : s₁ = s := Option.some.inj (opened.present.symm.trans present)
      have view := Session.view_queueData s₁ data now socket
      have sameConv : (s₁.queueData data now socket).1.inner.convId = s₁.inner.convId :=
        congrArg View.convId view
      obtain ⟨silent, taken⟩ := queueData_waiting q opened.waiting data now socket
      have unreturned : index ∉ f.returned := by
        intro mem
        have done := ok.finished index mem
        rw [reads] at done
        cases done
      have queue : (q.queued (s₁.queueData data now socket).1.inner.kcp).map some =
          returned.map (f.payloads[·]?) := by
        rw [returns, taken]
        split
        · simp [opened.queue, given]
        · exact opened.queue
      have outbox : ((f.tasks.peer.setSession p₀.sessions.fresh
          (s₁.queueData data now socket).1).submit (some p₀.sessions.fresh)
          (s₁.queueData data now socket).2.1).outbox = f.tasks.peer.outbox := by
        rw [silent]
        exact List.append_nil _
      refine ⟨?_, ?_, ?_, Or.inr ⟨(s₁.queueData data now socket).1, opened.write view queue _ _,
        greeted.move reads rfl outbox view, ?_⟩⟩
      · simpa only [Tasks.setCall, List.length_set] using ok.lengths
      · simp only [returns]
        split
        · exact List.nodup_append.mpr ⟨ok.nodup, List.nodup_singleton _, by
            rintro i mem j single rfl
            cases List.mem_singleton.mp single
            exact unreturned mem⟩
        · exact ok.nodup
      · intro i mem
        by_cases same : i = index
        · subst same
          exact List.getElem?_set_self (List.getElem?_eq_some_iff.mp reads).1
        · have before : i ∈ f.returned := by
            simp only [returns] at mem
            split at mem
            · rcases List.mem_append.mp mem with old | new
              · exact old
              · exact absurd (List.mem_singleton.mp new) same
            · exact mem
          exact ok.finished_set reads (by simp) i before
      · rw [sameConv]
        exact stands_set late fun _ _ => .done _ _ rfl

/-- One more call begins. -/
theorem Shared.call (ok : Shared q can p₀ f) {peer : SocketAddr} (own : canonicalize peer = can)
    (data : Bytes) :
    Shared q can p₀ { f with
      tasks := { f.tasks with calls := f.tasks.calls ++ [.called peer data] }
      payloads := f.payloads ++ [data] } := by
  have payloads :
      f.returned.map ((f.payloads ++ [data])[·]?) = f.returned.map (f.payloads[·]?) := by
    refine map_append_below fun i mem => ?_
    rw [ok.lengths]
    exact (List.getElem?_eq_some_iff.mp (ok.finished i mem)).1
  have running : ∀ {i : Nat} {pc : SendPc}, f.tasks.calls[i]? = some pc →
      (f.tasks.calls ++ [.called peer data])[i]? = some pc := fun reads =>
    (List.getElem?_append_left (List.getElem?_eq_some_iff.mp reads).1).trans reads
  refine ⟨?_, ok.nodup, fun i mem => running (ok.finished i mem), ?_⟩
  · simp only [List.length_append, List.length_singleton, ok.lengths]
  · rcases ok.sessions with ⟨unchanged, noReturn, early⟩ | ⟨s, opened, greeted, late⟩
    · exact Or.inl ⟨unchanged, noReturn, stands_call ok.lengths own early⟩
    · refine Or.inr ⟨s, ?_, ?_, stands_call ok.lengths own late⟩
      · dsimp only
        rw [payloads]
        exact opened
      · have fresh : ∀ {i : Nat} {pc : SendPc},
            (f.tasks.calls ++ [.called peer data])[i]? = some pc →
            pc.greets = true → f.tasks.calls[i]? = some pc := by
          intro i pc reads greets
          rcases append_cases reads with ⟨_, old⟩ | ⟨_, rfl⟩
          · exact old
          · cases greets
        rcases greeted with ⟨quiet, g, pcg, readsg, greetsg, only⟩ | ⟨sent, none⟩
        · refine Or.inl ⟨quiet, g, pcg, running readsg, greetsg, ?_⟩
          intro i pc reads greets
          exact only i pc (fresh reads greets) greets
        · refine Or.inr ⟨sent, ?_⟩
          intro i pc reads
          cases greets : pc.greets with
          | false => rfl
          | true => exact greets.symm.trans (none i pc (fresh reads greets))

/-- A call that finds a session goes on to hold it. -/
theorem Shared.hold (ok : Shared q can p₀ f) (absent : p₀.sessions.lookup can = none)
    {peer : SocketAddr} {data : Bytes} {id : SessionId}
    (reads : f.tasks.calls[index]? = some pc)
    (seeks : pc = .called peer data ∨ pc = .missing peer data ∨ pc = .creating peer data)
    (found : f.tasks.peer.sessions.lookup (canonicalize peer) = some id) :
    Shared q can p₀ { f with tasks := f.tasks.setCall index (.holding id data) } := by
  have running : pc ≠ .done := by
    rintro rfl
    simp at seeks
  have greets : pc.greets = false := by
    rcases seeks with rfl | rfl | rfl
    all_goals rfl
  refine ok.move reads running greets.symm ?_
  intro held data' holds stands
  exact holds.finds absent seeks found stands

theorem Shared.advance (ok : Shared q can p₀ f) (absent : p₀.sessions.lookup can = none)
    {draw : DrawnConv} {clock : Clock} {socket : Socket} {tasks : Tasks K}
    (reads : f.tasks.calls[index]? = some pc)
    (taken : f.tasks.callStep index draw clock socket pc = some tasks) :
    Shared q can p₀ ⟨tasks, f.payloads,
      if tasks.accepted.length = f.tasks.accepted.length then f.returned
      else f.returned ++ [index]⟩ := by
  -- a step that queues nothing returns nothing
  have quiet : ∀ {tasks : Tasks K}, tasks.accepted = f.tasks.accepted →
      Shared q can p₀ { f with tasks } → Shared q can p₀ ⟨tasks, f.payloads,
        if tasks.accepted.length = f.tasks.accepted.length then f.returned
        else f.returned ++ [index]⟩ := by
    intro tasks same shared
    rw [if_pos (congrArg List.length same)]
    exact shared
  cases Tasks.callStep_advances taken with
  | finds _ peer id data seeks found => exact quiet rfl (ok.hold absent reads seeks found)
  | misses => exact quiet rfl (ok.move reads (by simp) rfl fun _ _ _ stands => stands.misses)
  | creates => exact quiet rfl (ok.move reads (by simp) rfl fun _ _ _ stands => stands.creates)
  | inserts peer data free missing =>
      exact quiet rfl (ok.insert reads missing draw.val clock.epochMs)
  | reads id data s present =>
      refine quiet rfl (ok.move reads (by simp) rfl ?_)
      intro held data' holds stands
      exact holds.reads present stands
  | greets id conv data s present => exact quiet rfl (ok.greet reads present clock.epochMs socket)
  | closed => exact quiet rfl (ok.move reads (by simp) rfl fun _ _ _ stands => stands.closed)
  | opens => exact quiet rfl (ok.move reads (by simp) rfl fun _ _ _ stands => stands.opens)
  | queues id data s present =>
      refine ok.queue reads present clock.currentMs socket ?_
      by_cases result : (s.queueData data clock.currentMs socket).2.2.isOk = true
      · simp [Tasks.setCall, result]
      · simp [Tasks.setCall, result]

theorem Shared.step {label : TaskStep} {f' : FirstSends K} (ok : Shared q can p₀ f)
    (absent : p₀.sessions.lookup can = none) (allowed : label.sendsTo can = true)
    (stepped : f.step label = some f') : Shared q can p₀ f' := by
  obtain ⟨tasks, taken, rfl⟩ := Option.map_eq_some_iff.mp stepped
  cases label with
  | call peer data =>
      obtain rfl := Option.some.inj taken
      exact ok.call (of_decide_eq_true allowed) data
  | advance index draw clock socket =>
      obtain ⟨pc, reads, taken⟩ := Option.bind_eq_some_iff.mp taken
      exact ok.advance absent reads taken
  | _ => cases allowed

end FirstSends

/-- Concurrent `send()` calls to one address that has no session: when all have
returned, one session was inserted, one SYN was submitted, and the payloads of
the calls that returned `Ok`, each once, are what the session's instance holds. -/
theorem first_sends_share_one_session (K : Type) [Kcp K] (q : SendQueue K) (n₀ : Tasks K)
    (can : CanonicalAddr) (noCalls : n₀.calls = [])
    (absent : n₀.peer.sessions.lookup can = none) (f : FirstSends K)
    (reached : (firstSends n₀).Reach (fun _ label => label.sendsTo can = true) f)
    (called : f.tasks.calls ≠ []) (allReturned : ∀ pc ∈ f.tasks.calls, pc = .done) :
    ∃ s syn,
      f.tasks.peer.sessions.fresh = n₀.peer.sessions.fresh + 1 ∧
      f.tasks.peer.sessions.lookup can = some n₀.peer.sessions.fresh ∧
      (∀ other, other ≠ can →
        f.tasks.peer.sessions.lookup other = n₀.peer.sessions.lookup other) ∧
      f.tasks.peer.sessions.object? n₀.peer.sessions.fresh = some s ∧
      f.tasks.peer.outbox = n₀.peer.outbox ++ [syn] ∧
      syn.bytes = encodeControl .syn s.inner.convId ∧ syn.dest = s.peerAddr ∧
      (q.queued s.inner.kcp).map some = f.returned.map (f.payloads[·]?) ∧ f.returned.Nodup ∧
      ∀ id, id ≠ n₀.peer.sessions.fresh →
        f.tasks.peer.sessions.object? id = n₀.peer.sessions.object? id := by
  have shared : FirstSends.Shared q can n₀.peer f := by
    refine reached.invariant (P := FirstSends.Shared q can n₀.peer) ⟨?_, ?_, ?_, ?_⟩ ?_
    · simp [firstSends, noCalls]
    · exact List.nodup_nil
    · rintro i ⟨⟩
    · refine Or.inl ⟨rfl, rfl, ?_⟩
      intro i pc data reads
      simp [firstSends, noCalls] at reads
    · intro before label after ok allowed taken
      exact ok.step absent allowed taken
  obtain ⟨pc, mem⟩ := List.exists_mem_of_ne_nil _ called
  obtain ⟨i, reads⟩ := List.mem_iff_getElem?.mp mem
  obtain rfl := allReturned pc mem
  have past : ∀ data, ¬ SendPc.Stands can none data .done := by
    intro data stands
    cases stands with
    | done _ _ holds => cases holds
  obtain ⟨s, data, opened, greeted, _⟩ := shared.opened reads past
  rcases greeted with ⟨_, g, pcg, readsg, greets, _⟩ | ⟨⟨syn, sent, bytes, dest⟩, _⟩
  · rw [allReturned pcg (List.mem_of_getElem? readsg)] at greets
    cases greets
  · exact ⟨s, syn, opened.fresh, opened.named, opened.others, opened.present, sent, bytes, dest,
      opened.queue, shared.nodup, opened.untouched⟩

/-- Two calls that both find no session and race to insert one. -/
theorem first_sends_share_one_session_raced :
    ∃ f : FirstSends SampleKcp,
      (firstSends (Tasks.start 1 .default)).Reach
        (fun _ label => label.sendsTo (canonicalize .remote) = true) f ∧ f.returned = [1, 0] ∧
      ∃ s, f.tasks.peer.sessions.object? 0 = some s ∧
        (s.inner.kcp.sndQueue).map some = f.returned.map (f.payloads[·]?) := by
  have run : ((firstSends (Tasks.start 1 .default)).exec
      (fun _ label => label.sendsTo (canonicalize .remote) = true)
      (firstSends (K := SampleKcp) (Tasks.start 1 .default)).start
      [.call .remote [1], .call .remote [2],
        .advance 0 .ten .sample .sample, .advance 1 .twenty .sample .sample,
        .advance 0 .ten .sample .sample, .advance 1 .twenty .sample .sample,
        .advance 0 .ten .sample .sample, .advance 1 .twenty .sample .sample,
        .advance 0 .ten .sample .sample, .advance 0 .ten .sample .sample,
        .advance 1 .twenty .sample .sample, .advance 1 .twenty .sample .sample,
        .advance 0 .ten .sample .sample, .advance 0 .ten .sample .sample]).any
      (fun f => decide (f.tasks.calls = [.done, .done] ∧ f.returned = [1, 0])) = true := by
    decide +kernel
  obtain ⟨f, reached, checked⟩ := Machine.Reach.exec_any _ run
  obtain ⟨calls, returned⟩ := of_decide_eq_true checked
  obtain ⟨s, syn, _, _, _, present, _, _, _, queued, _⟩ := first_sends_share_one_session SampleKcp
    SampleKcp.sendQueue (.start 1 .default) (canonicalize .remote) rfl rfl f reached
    (by simp [calls]) (by simp [calls])
  exact ⟨f, reached, returned, s, present, queued⟩

end KcpPeer
