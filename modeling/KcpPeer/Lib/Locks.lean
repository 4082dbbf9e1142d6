import KcpPeer.Lib.Machine
import Mathlib.Data.Finset.Max

set_option autoImplicit false

/-- A mutex is always taken exclusively, a read-write lock either way. -/
inductive LockMode where
  | shared
  | exclusive
  deriving DecidableEq, Repr

/-- What a thread does with its locks, in the order of its execution. -/
inductive LockInstr (L : Type) where
  | acquire (lock : L) (mode : LockMode)
  | release (lock : L)
  | await
  deriving DecidableEq, Repr

/-- Code as far as its locks go: `hold` is the scope of a guard, `pick` chooses a
parameter and `star` is a loop. -/
inductive LockCode (L ι : Type) where
  | skip
  | await
  | hold (lock : L) (mode : LockMode) (body : LockCode L ι)
  | seq (first second : LockCode L ι)
  | choice (left right : LockCode L ι)
  | pick (body : ι → LockCode L ι)
  | star (body : LockCode L ι)

/-- A thread: the rest of its program, the locks it holds, and the ticket it drew
when it queued for the lock it is to acquire next. -/
structure LockThread (L : Type) where
  rest : List (LockInstr L)
  held : List (L × LockMode)
  ticket : Option Nat
  deriving DecidableEq, Repr

structure LockState (L : Type) where
  threads : List (LockThread L)
  requests : Nat
  deriving DecidableEq, Repr

/-- A thread starts, queues for a lock, gets it, releases one, goes on after an
await, or is dropped at one. -/
inductive LockStep (L : Type) where
  | spawn (program : List (LockInstr L))
  | request (thread : Nat)
  | grant (thread : Nat)
  | release (thread : Nat)
  | pass (thread : Nat)
  | abandon (thread : Nat)
  deriving DecidableEq, Repr

namespace LockThread

variable {L : Type}

/-- The thread has queued for a lock. -/
def Waits (t : LockThread L) (lock : L) (mode : LockMode) (ticket : Nat) : Prop :=
  (∃ rest, t.rest = .acquire lock mode :: rest) ∧ t.ticket = some ticket

variable [DecidableEq L]

/-- A lock the thread holds excludes the given use of it. -/
def excludes (t : LockThread L) (lock : L) (mode : LockMode) : Bool :=
  t.held.any fun guard => guard.1 = lock ∧ (mode = .exclusive ∨ guard.2 = .exclusive)

/-- The thread is a writer that queued for the lock before the ticket was drawn. -/
def writesBefore (t : LockThread L) (lock : L) (ticket : Nat) : Bool :=
  match t.rest, t.ticket with
  | .acquire lock' .exclusive :: _, some ticket' => lock' = lock ∧ ticket' < ticket
  | _, _ => false

end LockThread

namespace LockState

variable {L : Type} [DecidableEq L]

/-- No holder is in the way, and a reader does not overtake a writer. -/
def available (s : LockState L) (lock : L) (mode : LockMode) (ticket : Nat) : Bool :=
  s.threads.all fun t => !t.excludes lock mode && !(mode = .shared && t.writesBefore lock ticket)

def setThread (s : LockState L) (thread : Nat) (t : LockThread L) : LockState L :=
  { s with threads := s.threads.set thread t }

def step (s : LockState L) : LockStep L → Option (LockState L)
  | .spawn program => some { s with threads := s.threads ++ [⟨program, [], none⟩] }
  | .request thread =>
      match s.threads[thread]? with
      | some ⟨.acquire lock mode :: rest, held, none⟩ =>
          some { s.setThread thread ⟨.acquire lock mode :: rest, held, some s.requests⟩ with
            requests := s.requests + 1 }
      | _ => none
  | .grant thread =>
      match s.threads[thread]? with
      | some ⟨.acquire lock mode :: rest, held, some ticket⟩ =>
          if s.available lock mode ticket then
            some (s.setThread thread ⟨rest, (lock, mode) :: held, none⟩)
          else none
      | _ => none
  | .release thread =>
      match s.threads[thread]? with
      | some ⟨.release lock :: rest, held, ticket⟩ =>
          some (s.setThread thread ⟨rest, held.eraseP fun guard => guard.1 = lock, ticket⟩)
      | _ => none
  | .pass thread =>
      match s.threads[thread]? with
      | some ⟨.await :: rest, held, ticket⟩ => some (s.setThread thread ⟨rest, held, ticket⟩)
      | _ => none
  | .abandon thread =>
      match s.threads[thread]? with
      | some ⟨.await :: _, _, ticket⟩ => some (s.setThread thread ⟨[], [], ticket⟩)
      | _ => none

end LockState

/-- Any number of threads on the same locks. -/
def lockMachine (L : Type) [DecidableEq L] : Machine (LockState L) (LockStep L) where
  start := ⟨[], 0⟩
  step := LockState.step

/-- Thread `i` waits for a lock that thread `j` holds or has queued for before. -/
def LockState.Blocks {L : Type} (s : LockState L) (j i : Nat) : Prop :=
  ∃ ti tj lock mode ticket, s.threads[i]? = some ti ∧ s.threads[j]? = some tj ∧
    ti.Waits lock mode ticket ∧
    ((∃ mode', (lock, mode') ∈ tj.held) ∨
      ∃ mode' ticket', tj.Waits lock mode' ticket' ∧ ticket' < ticket)

namespace LockCode

variable {L ι : Type}

/-- The executions of a piece of code. -/
inductive Trace : LockCode L ι → List (LockInstr L) → Prop
  | skip : Trace .skip []
  | await : Trace .await [.await]
  | hold (lock : L) (mode : LockMode) {body : LockCode L ι} {trace : List (LockInstr L)}
      (inside : Trace body trace) :
      Trace (.hold lock mode body) (.acquire lock mode :: trace ++ [.release lock])
  | seq {first second : LockCode L ι} {trace trace' : List (LockInstr L)}
      (left : Trace first trace) (right : Trace second trace') :
      Trace (.seq first second) (trace ++ trace')
  | left {left : LockCode L ι} (right : LockCode L ι) {trace : List (LockInstr L)}
      (taken : Trace left trace) : Trace (.choice left right) trace
  | right (left : LockCode L ι) {right : LockCode L ι} {trace : List (LockInstr L)}
      (taken : Trace right trace) : Trace (.choice left right) trace
  | pick {body : ι → LockCode L ι} (i : ι) {trace : List (LockInstr L)}
      (taken : Trace (body i) trace) : Trace (.pick body) trace
  | done (body : LockCode L ι) : Trace (.star body) []
  | again {body : LockCode L ι} {trace trace' : List (LockInstr L)} (once : Trace body trace)
      (more : Trace (.star body) trace') : Trace (.star body) (trace ++ trace')

/-- Locks are taken in ascending order of their level, and none is held at an
await. -/
def Ordered (level : L → Nat) : List (L × LockMode) → LockCode L ι → Prop
  | _, .skip => True
  | held, .await => held = []
  | held, .hold lock mode body =>
      (∀ guard ∈ held, level guard.1 < level lock) ∧ Ordered level ((lock, mode) :: held) body
  | held, .seq first second => Ordered level held first ∧ Ordered level held second
  | held, .choice left right => Ordered level held left ∧ Ordered level held right
  | held, .pick body => ∀ i, Ordered level held (body i)
  | held, .star body => Ordered level held body

end LockCode

namespace LockState

variable {L : Type} {s : LockState L}

/-- The level of the lock a thread is to acquire next. -/
def nextLevel (level : L → Nat) (s : LockState L) (i : Nat) : Nat :=
  match s.threads[i]?.map LockThread.rest with
  | some (.acquire lock _ :: _) => level lock
  | _ => 0

/-- The ticket with which it waits. -/
def ticketOf (s : LockState L) (i : Nat) : Nat := ((s.threads[i]?.bind LockThread.ticket).getD 0)

theorem nextLevel_waits (level : L → Nat) {i : Nat} {t : LockThread L} {lock : L}
    {mode : LockMode} {ticket : Nat}
    (reads : s.threads[i]? = some t) (waits : t.Waits lock mode ticket) :
    s.nextLevel level i = level lock ∧ s.ticketOf i = ticket := by
  obtain ⟨⟨rest, isAcquire⟩, drawn⟩ := waits
  simp [nextLevel, ticketOf, reads, isAcquire, drawn]

end LockState

namespace LockInstr

variable {L : Type} [DecidableEq L]

/-- The same of the rest of an execution, given the locks held before it. -/
def Disciplined (level : L → Nat) : List (L × LockMode) → List (LockInstr L) → Prop
  | held, [] => held = []
  | held, .acquire lock mode :: rest =>
      (∀ guard ∈ held, level guard.1 < level lock) ∧ Disciplined level ((lock, mode) :: held) rest
  | held, .release lock :: rest =>
      Disciplined level (held.eraseP fun guard => guard.1 = lock) rest
  | held, .await :: rest => held = [] ∧ Disciplined level [] rest

end LockInstr

open LockInstr (Disciplined)

section Order

variable {L ι : Type} [DecidableEq L] {level : L → Nat}

/-- Code in ascending order has only disciplined executions; a scope ends with the
locks it began with. -/
theorem LockCode.Trace.disciplined {code : LockCode L ι} {trace : List (LockInstr L)}
    (ran : code.Trace trace) {held : List (L × LockMode)} (ordered : code.Ordered level held)
    {rest : List (LockInstr L)} (after : Disciplined level held rest) :
    Disciplined level held (trace ++ rest) := by
  induction ran generalizing held rest with
  | skip => exact after
  | await =>
      obtain rfl : held = [] := ordered
      exact ⟨rfl, after⟩
  | hold lock mode inside ih =>
      obtain ⟨above, ordered⟩ := ordered
      rw [List.cons_append, List.cons_append, List.append_assoc]
      refine ⟨above, ih ordered ?_⟩
      change Disciplined level (((lock, mode) :: held).eraseP _) rest
      rw [List.eraseP_cons_of_pos (by simp)]
      exact after
  | seq left right ihLeft ihRight =>
      rw [List.append_assoc]
      exact ihLeft ordered.1 (ihRight ordered.2 after)
  | left right taken ih => exact ih ordered.1 after
  | right left taken ih => exact ih ordered.2 after
  | pick i taken ih => exact ih (ordered i) after
  | done body => exact after
  | again once more ihOnce ihMore =>
      rw [List.append_assoc]
      exact ihOnce ordered (ihMore ordered after)

/-- What holds of every thread. -/
structure LockThread.Sound (level : L → Nat) (t : LockThread L) : Prop where
  disciplined : Disciplined level t.held t.rest
  queued : ∀ ticket, t.ticket = some ticket → ∃ lock mode rest, t.rest = .acquire lock mode :: rest

def LockState.Sound (level : L → Nat) (s : LockState L) : Prop :=
  ∀ t ∈ s.threads, t.Sound level

namespace LockState

variable {s s' : LockState L}

theorem Sound.setThread (sound : s.Sound level) {thread : Nat} {t : LockThread L}
    (ok : t.Sound level) : (s.setThread thread t).Sound level := by
  intro t' mem
  rcases List.mem_or_eq_of_mem_set mem with old | rfl
  · exact sound t' old
  · exact ok

theorem Sound.step (sound : s.Sound level) {label : LockStep L}
    (starts : ∀ program, label = .spawn program → Disciplined level [] program)
    (taken : s.step label = some s') : s'.Sound level := by
  cases label with
  | spawn program =>
      obtain rfl := Option.some.inj taken
      intro t mem
      rcases List.mem_append.mp mem with old | new
      · exact sound t old
      · obtain rfl := List.mem_singleton.mp new
        exact ⟨starts program rfl, nofun⟩
  | request thread =>
      simp only [LockState.step] at taken
      split at taken
      · rename_i lock mode rest held reads
        obtain rfl := Option.some.inj taken
        have ok := sound _ (List.mem_of_getElem? reads)
        exact sound.setThread ⟨ok.disciplined, fun _ _ => ⟨lock, mode, rest, rfl⟩⟩
      · cases taken
  | grant thread =>
      simp only [LockState.step] at taken
      split at taken
      · rename_i lock mode rest held ticket reads
        split at taken
        · obtain rfl := Option.some.inj taken
          have ok := sound _ (List.mem_of_getElem? reads)
          exact sound.setThread ⟨ok.disciplined.2, nofun⟩
        · cases taken
      · cases taken
  | release thread =>
      simp only [LockState.step] at taken
      split at taken
      · rename_i lock rest held ticket reads
        obtain rfl := Option.some.inj taken
        have ok := sound _ (List.mem_of_getElem? reads)
        refine sound.setThread ⟨ok.disciplined, fun ticket' same => ?_⟩
        obtain ⟨_, _, _, isAcquire⟩ := ok.queued ticket' same
        cases isAcquire
      · cases taken
  | pass thread =>
      simp only [LockState.step] at taken
      split at taken
      · rename_i rest held ticket reads
        obtain rfl := Option.some.inj taken
        have ok := sound _ (List.mem_of_getElem? reads)
        obtain ⟨rfl, after⟩ := ok.disciplined
        refine sound.setThread ⟨after, fun ticket' same => ?_⟩
        obtain ⟨_, _, _, isAcquire⟩ := ok.queued ticket' same
        cases isAcquire
      · cases taken
  | abandon thread =>
      simp only [LockState.step] at taken
      split at taken
      · rename_i rest held ticket reads
        obtain rfl := Option.some.inj taken
        have ok := sound _ (List.mem_of_getElem? reads)
        refine sound.setThread ⟨rfl, fun ticket' same => ?_⟩
        obtain ⟨_, _, _, isAcquire⟩ := ok.queued ticket' same
        cases isAcquire
      · cases taken

/-- A thread that blocks another and waits itself waits for a lock of a higher
level, or at the same level with an earlier ticket. -/
theorem Sound.climbs (sound : s.Sound level) {i j k : Nat} (blocks : s.Blocks j i)
    (blocked : s.Blocks k j) : s.nextLevel level i < s.nextLevel level j ∨
      s.nextLevel level j = s.nextLevel level i ∧ s.ticketOf j < s.ticketOf i := by
  obtain ⟨ti, tj, lock, mode, ticket, readsI, readsJ, waits, cause⟩ := blocks
  obtain ⟨tj', _, lock', mode', ticket', readsJ', _, waits', _⟩ := blocked
  obtain rfl := Option.some.inj (readsJ.symm.trans readsJ')
  obtain ⟨levelI, ticketI⟩ := nextLevel_waits level readsI waits
  obtain ⟨levelJ, ticketJ⟩ := nextLevel_waits level readsJ waits'
  rw [levelI, levelJ, ticketI, ticketJ]
  rcases cause with ⟨mode'', holds⟩ | ⟨mode'', ticket'', ahead, earlier⟩
  · left
    obtain ⟨⟨rest, isAcquire⟩, _⟩ := waits'
    have disciplined := (sound tj (List.mem_of_getElem? readsJ)).disciplined
    rw [isAcquire] at disciplined
    exact disciplined.1 _ holds
  · right
    obtain ⟨⟨rest, isAcquire⟩, drawn⟩ := ahead
    obtain ⟨⟨rest', isAcquire'⟩, drawn'⟩ := waits'
    rw [isAcquire] at isAcquire'
    rw [drawn] at drawn'
    cases isAcquire'
    cases drawn'
    exact ⟨rfl, earlier⟩

/-- No set of threads each of which is blocked by one in the set: among those that
wait at the highest level, the one with the earliest ticket is not blocked. -/
theorem Sound.no_deadlock (sound : s.Sound level) (S : Set Nat) (some : S.Nonempty) :
    ¬ ∀ i ∈ S, ∃ j ∈ S, s.Blocks j i := by
  classical
  intro blocked
  let waiting := (Finset.range s.threads.length).filter (· ∈ S)
  have member : ∀ i, i ∈ waiting ↔ i ∈ S := by
    intro i
    simp only [waiting, Finset.mem_filter, Finset.mem_range, and_iff_right_iff_imp]
    intro mem
    obtain ⟨_, _, ti, _, _, _, _, reads, _⟩ := blocked i mem
    exact (List.getElem?_eq_some_iff.mp reads).1
  obtain ⟨i₀, mem₀⟩ := some
  obtain ⟨top, topMem, highest⟩ :=
    waiting.exists_max_image (s.nextLevel level) ⟨i₀, (member i₀).mpr mem₀⟩
  obtain ⟨i, iMem, earliest⟩ :=
    (waiting.filter fun i => s.nextLevel level i = s.nextLevel level top).exists_min_image
      s.ticketOf ⟨top, Finset.mem_filter.mpr ⟨topMem, rfl⟩⟩
  obtain ⟨iWaits, same⟩ := Finset.mem_filter.mp iMem
  obtain ⟨j, jMem, blocks⟩ := blocked i ((member i).mp iWaits)
  obtain ⟨k, _, blocks'⟩ := blocked j jMem
  have bound := highest j ((member j).mpr jMem)
  rcases sound.climbs blocks blocks' with higher | ⟨level, earlier⟩
  · omega
  · have later := earliest j
      (Finset.mem_filter.mpr ⟨(member j).mpr jMem, level.trans same⟩)
    omega

/-- A request that is not granted is blocked by a thread. -/
theorem blocked_of_unavailable {i : Nat} {t : LockThread L} {lock : L} {mode : LockMode}
    {ticket : Nat} (reads : s.threads[i]? = some t) (waits : t.Waits lock mode ticket)
    (refused : s.available lock mode ticket = false) : ∃ j, s.Blocks j i := by
  obtain ⟨tj, mem, cause⟩ := List.all_eq_false.mp refused
  obtain ⟨j, readsJ⟩ := List.mem_iff_getElem?.mp mem
  refine ⟨j, t, tj, lock, mode, ticket, reads, readsJ, waits, ?_⟩
  by_cases excluded : tj.excludes lock mode = true
  · obtain ⟨⟨lock', mode'⟩, holds, same⟩ := List.any_eq_true.mp excluded
    obtain ⟨rfl, _⟩ := of_decide_eq_true same
    exact Or.inl ⟨mode', holds⟩
  · have ahead : tj.writesBefore lock ticket = true := by
      simp only [Bool.not_eq_true] at excluded
      simp only [excluded, Bool.not_false, Bool.true_and, Bool.not_eq_true, Bool.not_eq_false',
        Bool.and_eq_true] at cause
      exact cause.2
    unfold LockThread.writesBefore at ahead
    split at ahead
    · rename_i lock' rest ticket' isAcquire drawn
      obtain ⟨rfl, earlier⟩ := of_decide_eq_true ahead
      exact Or.inr ⟨.exclusive, ticket', ⟨⟨rest, isAcquire⟩, drawn⟩, earlier⟩
    · cases ahead

/-- As long as a thread has something left to do, some thread can go on. -/
theorem Sound.progress (sound : s.Sound level) (unfinished : ∃ t ∈ s.threads, t.rest ≠ []) :
    ∃ label s', (∀ program, label ≠ .spawn program) ∧ s.step label = some s' := by
  by_contra stuck
  have stands : ∀ label s', (∀ program, label ≠ .spawn program) → s.step label ≠ some s' :=
    fun label s' other taken => stuck ⟨label, s', other, taken⟩
  obtain ⟨t₀, mem₀, left₀⟩ := unfinished
  obtain ⟨i₀, reads₀⟩ := List.mem_iff_getElem?.mp mem₀
  refine sound.no_deadlock {i | ∃ t, s.threads[i]? = some t ∧ t.rest ≠ []}
    ⟨i₀, t₀, reads₀, left₀⟩ ?_
  rintro i ⟨⟨rest, held, ticket⟩, reads, left⟩
  have blocked : ∃ j, s.Blocks j i := by
    cases rest with
    | nil => exact absurd rfl left
    | cons instr rest =>
        cases instr with
        | await =>
            refine absurd ?_ (stands (.pass i) (s.setThread i ⟨rest, held, ticket⟩) nofun)
            simp only [LockState.step, reads]
        | release lock =>
            refine absurd ?_ (stands (.release i)
              (s.setThread i ⟨rest, held.eraseP fun guard => guard.1 = lock, ticket⟩) nofun)
            simp only [LockState.step, reads]
        | acquire lock mode =>
            cases ticket with
            | none =>
                refine absurd ?_ (stands (.request i) { s.setThread i
                  ⟨.acquire lock mode :: rest, held, some s.requests⟩ with
                    requests := s.requests + 1 } nofun)
                simp only [LockState.step, reads]
            | some ticket =>
                refine blocked_of_unavailable reads ⟨⟨rest, rfl⟩, rfl⟩ ?_
                rw [← Bool.not_eq_true]
                intro free
                refine stands (.grant i) (s.setThread i ⟨rest, (lock, mode) :: held, none⟩) nofun ?_
                simp only [LockState.step, reads, free, ↓reduceIte]
  obtain ⟨j, blocks⟩ := blocked
  refine ⟨j, ?_, blocks⟩
  obtain ⟨_, tj, _, _, _, _, readsJ, _, cause⟩ := blocks
  refine ⟨tj, readsJ, fun ended => ?_⟩
  rcases cause with ⟨mode, holds⟩ | ⟨_, _, ⟨⟨rest', isAcquire⟩, _⟩, _⟩
  · have disciplined := (sound tj (List.mem_of_getElem? readsJ)).disciplined
    rw [ended] at disciplined
    rw [show tj.held = [] from disciplined] at holds
    cases holds
  · rw [ended] at isAcquire
    cases isAcquire

/-- Threads that run disciplined programs stay sound. -/
theorem Sound.of_reach {guard : LockState L → LockStep L → Prop}
    (starts : ∀ s program, guard s (.spawn program) → Disciplined level [] program)
    (reached : (lockMachine L).Reach guard s) : s.Sound level := by
  refine reached.invariant (P := LockState.Sound level) (by rintro t ⟨⟩) ?_
  intro before label after sound allowed taken
  refine sound.step ?_ taken
  rintro program rfl
  exact starts before program allowed

/-- No lock is held at an await. -/
theorem Sound.await_free (sound : s.Sound level) {t : LockThread L} (mem : t ∈ s.threads)
    {rest : List (LockInstr L)} (awaits : t.rest = .await :: rest) : t.held = [] := by
  have disciplined := (sound t mem).disciplined
  rw [awaits] at disciplined
  exact disciplined.1

end LockState

end Order
