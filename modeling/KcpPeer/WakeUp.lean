import KcpPeer.Receivers

set_option autoImplicit false

namespace KcpPeer

namespace Notify

/-- The callers registered, waiting or woken. -/
def listed (n : Notify) : List Nat := n.waiters ++ n.woken

theorem listed_notifyOne (n : Notify) : n.notifyOne.listed.Perm n.listed := by
  unfold notifyOne listed
  cases waiters : n.waiters with
  | nil => exact List.Perm.refl _
  | cons first rest =>
      simp only [List.cons_append, ← List.append_assoc]
      exact List.perm_append_singleton first (rest ++ n.woken)

/-- `notify_one` leaves no caller waiting without one that is woken. -/
theorem notifyOne_woken (n : Notify) (waiting : n.notifyOne.waiters ≠ []) :
    n.notifyOne.woken ≠ [] := by
  unfold notifyOne at waiting ⊢
  cases waiters : n.waiters with
  | nil =>
      rw [waiters] at waiting
      exact absurd rfl waiting
  | cons first rest => simp

end Notify

namespace Receivers

variable {K : Type} {r r' : Receivers K}

/-- The caller waits on `data_notify`. -/
def Waits (r : Receivers K) (caller : Nat) : Prop :=
  r.callers[caller]? = some .waiting ∧ caller ∈ r.notify.waiters

/-- The caller is woken and has still to look at the queue. -/
def Woken (r : Receivers K) (caller : Nat) : Prop :=
  r.callers[caller]? = some .woken ∨
    r.callers[caller]? = some .waiting ∧ caller ∈ r.notify.woken

/-- No caller waits in vain: while messages are pending and a caller waits, a
permit is stored, a woken caller has still to look at the queue, or the receive
task is between its push and its `notify_one`. -/
def Served (r : Receivers K) : Prop :=
  r.tasks.peer.pendingData ≠ [] → (∃ caller, r.Waits caller) →
    r.notify.permit = true ∨ (∃ caller, r.Woken caller) ∨ r.tasks.recv = .kcpAppended

/-- A wake-up is under way to a caller other than the given one. -/
def stirs (r : Receivers K) (caller : Nat) : Bool :=
  r.notify.permit || !r.notify.woken.isEmpty ||
    ((List.range r.callers.length).any fun other =>
      other ≠ caller && r.callers[other]? = some .woken) ||
    decide (r.tasks.recv = .kcpAppended)

/-- A woken caller that leaves with a message leaves none behind, or no caller
waits, or another wake-up is under way; and a caller that starts to wait does so
at an empty queue, or while a wake-up is under way. -/
def passesOn (r : Receivers K) : ReceiverStep → Bool
  | .check caller =>
      match r.callers[caller]?, r.tasks.peer.pendingData with
      | some .woken, _ :: _ :: _ => r.notify.waiters.isEmpty || r.stirs caller
      | _, _ => true
  | .poll caller => r.tasks.peer.pendingData.isEmpty || r.stirs caller
  | _ => true

/-- `data_notify` lists callers at their await, none twice. -/
structure Linked (r : Receivers K) : Prop where
  waiting : ∀ caller ∈ r.notify.waiters ++ r.notify.woken, r.callers[caller]? = some .waiting
  nodup : (r.notify.waiters ++ r.notify.woken).Nodup

/-- A wake-up is under way. -/
inductive Astir (r : Receivers K) : Prop
  | permit (stored : r.notify.permit = true)
  | woken (some : r.notify.woken ≠ [])
  | resumed (caller : Nat) (reads : r.callers[caller]? = some .woken)
  | pushed (about : r.tasks.recv = .kcpAppended)

/-- `Served` in terms of the lists of `data_notify`. -/
def Stirred (r : Receivers K) : Prop :=
  r.tasks.peer.pendingData ≠ [] → r.notify.waiters ≠ [] → r.Astir

theorem Stirred.served (stirred : r.Stirred) (linked : r.Linked) : r.Served := by
  rintro pending ⟨waiter, _, listed⟩
  cases stirred pending (List.ne_nil_of_mem listed) with
  | permit stored => exact Or.inl stored
  | woken some =>
      obtain ⟨caller, mem⟩ := List.exists_mem_of_ne_nil _ some
      have waiting := linked.waiting caller (List.mem_append_right _ mem)
      exact Or.inr (Or.inl ⟨caller, Or.inr ⟨waiting, mem⟩⟩)
  | resumed caller reads => exact Or.inr (Or.inl ⟨caller, Or.inl reads⟩)
  | pushed about => exact Or.inr (Or.inr about)

theorem Astir.congr (astir : r.Astir) (permit : r'.notify.permit = r.notify.permit)
    (woken : r'.notify.woken = r.notify.woken) (callers : r'.callers = r.callers)
    (recv : r.tasks.recv = .kcpAppended → r'.tasks.recv = .kcpAppended) : r'.Astir := by
  cases astir with
  | permit stored => exact .permit (permit.trans stored)
  | woken some => exact .woken (woken ▸ some)
  | resumed caller reads => exact .resumed caller (by rw [callers]; exact reads)
  | pushed about => exact .pushed (recv about)

/-- Another wake-up stays under way when the caller moves. -/
theorem astir_of_stirs {caller : Nat} (stirs : r.stirs caller = true) (pc : RecvCall) :
    (r.setCaller caller pc).Astir := by
  simp only [Receivers.stirs, Bool.or_eq_true, Bool.not_eq_true', List.any_eq_true,
    decide_eq_true_eq, Bool.and_eq_true] at stirs
  rcases stirs with ((stored | some) | ⟨other, _, different, reads⟩) | about
  · exact .permit stored
  · refine .woken fun none => ?_
    rw [show r.notify.woken = [] from none] at some
    cases some
  · refine .resumed other ?_
    exact (List.getElem?_set_ne (Ne.symm different)).trans reads
  · exact .pushed about

/-- A caller that is not woken moves. -/
theorem Astir.setCaller (astir : r.Astir) {caller : Nat} {before : RecvCall} (pc : RecvCall)
    (reads : r.callers[caller]? = some before) (other : before ≠ .woken) :
    (r.setCaller caller pc).Astir := by
  cases astir with
  | permit stored => exact .permit stored
  | woken some => exact .woken some
  | pushed about => exact .pushed about
  | resumed caller₁ reads₁ =>
      have different : caller ≠ caller₁ := by
        rintro rfl
        exact other (Option.some.inj (reads.symm.trans reads₁))
      exact .resumed caller₁ ((List.getElem?_set_ne different).trans reads₁)

theorem astir_woken {caller : Nat} {before : RecvCall}
    (reads : r.callers[caller]? = some before) : (r.setCaller caller .woken).Astir := by
  obtain ⟨below, _⟩ := List.getElem?_eq_some_iff.mp reads
  exact .resumed caller (List.getElem?_set_self below)

theorem Linked.moves (linked : r.Linked) {notify : Notify} {caller : Nat} (pc : RecvCall)
    (nodup : notify.listed.Nodup)
    (kept : ∀ other ∈ notify.listed, other ≠ caller ∧ other ∈ r.notify.listed) :
    Linked ((r.setNotify notify).setCaller caller pc) := by
  refine ⟨?_, nodup⟩
  intro other mem
  obtain ⟨different, old⟩ := kept other mem
  change (r.callers.set caller pc)[other]? = _
  rw [List.getElem?_set_ne (Ne.symm different)]
  exact linked.waiting other old

/-- A caller that is not at its await moves. -/
theorem Linked.unlisted (linked : r.Linked) {caller : Nat} {before : RecvCall}
    (reads : r.callers[caller]? = some before) (elsewhere : before ≠ .waiting) :
    ∀ other ∈ r.notify.listed, other ≠ caller ∧ other ∈ r.notify.listed := by
  intro other mem
  refine ⟨?_, mem⟩
  rintro rfl
  exact elsewhere (Option.some.inj (reads.symm.trans (linked.waiting other mem)))

theorem Linked.resume (linked : r.Linked) {caller : Nat} (woken : caller ∈ r.notify.woken) :
    (r.notify.resume caller).listed.Nodup ∧
      ∀ other ∈ (r.notify.resume caller).listed, other ≠ caller ∧ other ∈ r.notify.listed := by
  have sub : (r.notify.resume caller).listed.Sublist r.notify.listed :=
    List.Sublist.append (List.Sublist.refl _) List.erase_sublist
  refine ⟨linked.nodup.sublist sub, ?_⟩
  intro other mem
  refine ⟨?_, sub.subset mem⟩
  rintro rfl
  obtain ⟨_, nodup, apart⟩ := List.nodup_append.mp linked.nodup
  rcases List.mem_append.mp mem with waits | erased
  · exact apart other waits other woken rfl
  · exact nodup.not_mem_erase erased

theorem Linked.abandon (linked : r.Linked) (caller : Nat) :
    (r.notify.abandon caller).listed.Nodup ∧
      ∀ other ∈ (r.notify.abandon caller).listed, other ≠ caller ∧ other ∈ r.notify.listed := by
  unfold Notify.abandon
  split
  · rename_i woken
    obtain ⟨nodup, kept⟩ := linked.resume woken
    have perm := Notify.listed_notifyOne (r.notify.resume caller)
    exact ⟨perm.nodup_iff.mpr nodup, fun other mem => kept other (perm.mem_iff.mp mem)⟩
  · rename_i asleep
    have sub : (r.notify.waiters.erase caller ++ r.notify.woken).Sublist r.notify.listed :=
      List.Sublist.append List.erase_sublist (List.Sublist.refl _)
    refine ⟨linked.nodup.sublist sub, ?_⟩
    intro other mem
    refine ⟨?_, sub.subset mem⟩
    rintro rfl
    obtain ⟨nodup, _, _⟩ := List.nodup_append.mp linked.nodup
    rcases List.mem_append.mp mem with erased | woken
    · exact nodup.not_mem_erase erased
    · exact asleep woken

theorem Linked.checks (linked : r.Linked) {caller : Nat} {before : RecvCall}
    (reads : r.callers[caller]? = some before) (elsewhere : before ≠ .waiting)
    (checked : r.Checks caller r') : r'.Linked := by
  have moved : ∀ pc : RecvCall, Linked ((r.setNotify r.notify).setCaller caller pc) :=
    fun pc => linked.moves pc linked.nodup (linked.unlisted reads elsewhere)
  cases checked with
  | empty => exact ⟨(moved .empty).waiting, linked.nodup⟩
  | pops msg rest pending => exact ⟨(moved (.returned msg)).waiting, linked.nodup⟩

theorem Stirred.checks (stirred : r.Stirred) {caller : Nat} {pc : RecvCall}
    (reads : r.callers[caller]? = some pc) (about : pc = .called ∨ pc = .woken)
    (passes : r.passesOn (.check caller) = true) (checked : r.Checks caller r') :
    r'.Stirred := by
  cases checked with
  | empty nothing => exact fun full => absurd nothing full
  | pops msg rest pending =>
      intro full waiting
      have left : (r.setCaller caller (.returned msg)).Astir := by
        rcases about with rfl | rfl
        · exact (stirred (by simp [pending]) waiting).setCaller _ reads nofun
        · cases rest with
          | nil => exact absurd rfl full
          | cons second rest =>
              simp only [passesOn, reads, pending, Bool.or_eq_true, List.isEmpty_iff] at passes
              rcases passes with none | stirs
              · exact absurd none waiting
              · exact astir_of_stirs stirs _
      exact left.congr rfl rfl rfl id

theorem Stirred.abandons (stirred : r.Stirred) {caller : Nat}
    (reads : r.callers[caller]? = some .waiting) :
    Stirred ((r.setNotify (r.notify.abandon caller)).setCaller caller .dropped) := by
  intro full waiting
  change (r.notify.abandon caller).waiters ≠ [] at waiting
  by_cases woken : caller ∈ r.notify.woken
  · -- the notification of the dropped caller goes to the next one
    have passed : r.notify.abandon caller = (r.notify.resume caller).notifyOne := if_pos woken
    refine .woken ?_
    change (r.notify.abandon caller).woken ≠ []
    rw [passed] at waiting ⊢
    exact Notify.notifyOne_woken _ waiting
  · have erased : r.notify.abandon caller =
        { r.notify with waiters := r.notify.waiters.erase caller } := if_neg woken
    rw [erased] at waiting ⊢
    have before : r.notify.waiters ≠ [] := by
      intro none
      rw [none] at waiting
      exact absurd rfl waiting
    exact ((stirred full before).setCaller .dropped reads nofun).congr rfl rfl rfl id

variable [Kcp K]

theorem Linked.step (linked : r.Linked) {label : ReceiverStep} (taken : r.step label = some r') :
    r'.Linked := by
  cases step_steps taken with
  | tasks label tasks other moved =>
      have unnotified : tasks.peer.dataNotify = r.tasks.peer.dataNotify →
          Linked { r with tasks, yielded := r.yielded ++ r.tasks.yields label } := by
        intro same
        refine ⟨?_, ?_⟩
        · simp only [notify, same]
          exact linked.waiting
        · simp only [notify, same]
          exact linked.nodup
      cases Tasks.step_mails moved with
      | drains id s fed present yielded same => exact unnotified (Peer.mail_eq same).2.1
      | appends id msgs s drained present yielded after =>
          exact unnotified (by rw [after]; rfl)
      | notifies pushed yielded after =>
          have perm := Notify.listed_notifyOne r.notify
          have same : tasks.peer.dataNotify = r.notify.notifyOne := by rw [after]; rfl
          refine ⟨?_, ?_⟩
          · simp only [notify, same]
            exact fun caller mem => linked.waiting caller (perm.mem_iff.mp mem)
          · simp only [notify, same]
            exact perm.nodup_iff.mpr linked.nodup
      | takes msg rest isTake => exact absurd isTake other
      | rests yielded same => exact unnotified (Peer.mail_eq same).2.1
  | starts =>
      refine ⟨?_, linked.nodup⟩
      intro caller mem
      have reads := linked.waiting caller mem
      obtain ⟨below, _⟩ := List.getElem?_eq_some_iff.mp reads
      exact (List.getElem?_append_left below).trans reads
  | checks caller pc reads about r' checked =>
      refine linked.checks reads ?_ checked
      rcases about with rfl | rfl
      · nofun
      · nofun
  | takesPermit caller reads stored =>
      exact linked.moves .woken linked.nodup (linked.unlisted reads nofun)
  | waits caller reads unset =>
      have fresh := linked.unlisted reads nofun
      have absent : caller ∉ r.notify.listed := fun mem => (fresh caller mem).1 rfl
      obtain ⟨below, _⟩ := List.getElem?_eq_some_iff.mp reads
      have perm : (r.notify.waiters ++ [caller] ++ r.notify.woken).Perm
          (caller :: r.notify.listed) := by
        rw [List.append_assoc]
        exact List.perm_middle
      refine ⟨?_, perm.nodup_iff.mpr (List.nodup_cons.mpr ⟨absent, linked.nodup⟩)⟩
      intro other mem
      change (r.callers.set caller .waiting)[other]? = _
      rcases List.mem_cons.mp (perm.mem_iff.mp mem) with rfl | old
      · exact List.getElem?_set_self below
      · rw [List.getElem?_set_ne (Ne.symm (fresh other old).1)]
        exact linked.waiting other old
  | resumes caller reads woken =>
      obtain ⟨nodup, kept⟩ := linked.resume woken
      exact linked.moves .woken nodup kept
  | leaves caller reads =>
      have moved : Linked ((r.setNotify r.notify).setCaller caller .dropped) :=
        linked.moves .dropped linked.nodup (linked.unlisted reads nofun)
      exact ⟨moved.waiting, linked.nodup⟩
  | abandons caller reads =>
      obtain ⟨nodup, kept⟩ := linked.abandon caller
      exact linked.moves .dropped nodup kept

theorem Stirred.tasks (stirred : r.Stirred) {label : TaskStep} (other : label ≠ .take)
    {tasks : Tasks K} (moved : r.tasks.step label = some tasks) :
    Stirred { r with tasks, yielded := r.yielded ++ r.tasks.yields label } := by
  intro full waiting
  cases Tasks.step_mails moved with
  | drains id s fed present yielded same =>
      obtain ⟨pending, notify, _⟩ := Peer.mail_eq same
      simp only [Receivers.notify, pending, notify] at full waiting
      refine (stirred full waiting).congr (congrArg Notify.permit notify)
        (congrArg Notify.woken notify) rfl fun about => ?_
      rw [fed] at about
      cases about
  | appends id msgs s drained present yielded after next => exact .pushed next
  | notifies about yielded after next =>
      have same : tasks.peer.dataNotify = r.notify.notifyOne := by rw [after]; rfl
      simp only [Receivers.notify, same] at waiting
      refine .woken ?_
      simp only [Receivers.notify, same]
      exact Notify.notifyOne_woken _ waiting
  | takes msg rest isTake => exact absurd isTake other
  | rests yielded same next =>
      obtain ⟨pending, notify, _⟩ := Peer.mail_eq same
      simp only [Receivers.notify, pending, notify] at full waiting
      refine (stirred full waiting).congr (congrArg Notify.permit notify)
        (congrArg Notify.woken notify) rfl fun about => ?_
      rcases next with still | ⟨free, _⟩
      · exact still.trans about
      · rw [about] at free
        cases free

theorem Stirred.step (stirred : r.Stirred) {label : ReceiverStep}
    (passes : r.passesOn label = true) (taken : r.step label = some r') : r'.Stirred := by
  cases step_steps taken with
  | tasks label tasks other moved => exact stirred.tasks other moved
  | starts =>
      intro full waiting
      cases stirred full waiting with
      | permit stored => exact .permit stored
      | woken some => exact .woken some
      | pushed about => exact .pushed about
      | resumed caller reads =>
          obtain ⟨below, _⟩ := List.getElem?_eq_some_iff.mp reads
          exact .resumed caller ((List.getElem?_append_left below).trans reads)
  | checks caller pc reads about r' checked => exact stirred.checks reads about passes checked
  | takesPermit caller reads stored => exact fun _ _ => astir_woken reads
  | waits caller reads unset =>
      intro full waiting
      simp only [passesOn, Bool.or_eq_true, List.isEmpty_iff] at passes
      rcases passes with empty | stirs
      · exact absurd empty full
      · exact (astir_of_stirs stirs .waiting).congr rfl rfl rfl id
  | resumes caller reads woken => exact fun _ _ => astir_woken reads
  | leaves caller reads =>
      exact fun full waiting => (stirred full waiting).setCaller _ reads nofun
  | abandons caller reads => exact stirred.abandons reads

end Receivers

/-- No `recv()` call waits in vain, in any interleaving in which a woken call that
leaves messages behind, and a call that starts to wait at them, leaves another
wake-up under way. -/
theorem no_lost_wakeup (K : Type) [Kcp K] (incarnation : UInt64) (config : KcpConfig)
    (r : Receivers K)
    (reached : (receiversMachine K incarnation config).Reach (fun r label => r.passesOn label) r) :
    r.Served := by
  have base : Receivers.Linked (receiversMachine K incarnation config).start := by
    refine ⟨?_, List.nodup_nil⟩
    rintro caller ⟨⟩
  have ok : r.Stirred ∧ r.Linked := by
    refine reached.invariant (P := fun r => r.Stirred ∧ r.Linked)
      ⟨fun full => absurd rfl full, base⟩ ?_
    intro before label after ok passes taken
    exact ⟨ok.1.step passes taken, ok.2.step taken⟩
  exact ok.1.served ok.2

/-- Two calls wait when one message arrives: the first takes it and leaves the
queue empty. -/
theorem no_lost_wakeup_two_calls :
    ∃ r : Receivers SampleKcp, r.callers = [.returned ⟨.remote, [7]⟩, .waiting] ∧ r.Served := by
  have run : ((receiversMachine SampleKcp 1 .default).exec (fun r label => r.passesOn label)
      (receiversMachine SampleKcp 1 .default).start
      [.task (.arriveSample (encodeControl .syn 20)), .task .recvSample, .task .recvSample,
        .task .recvSample, .call, .check 0, .poll 0, .call, .check 1, .poll 1,
        .task (.arriveSample SampleKcp.datagram), .task .recvSample, .task .recvSample,
        .task .recvSample, .task .recvSample, .task .recvSample, .resume 0, .check 0]).any
      (fun r => decide (r.callers = [.returned ⟨.remote, [7]⟩, .waiting])) = true := by
    decide +kernel
  obtain ⟨r, reached, checked⟩ := Machine.Reach.exec_any _ run
  exact ⟨r, of_decide_eq_true checked, no_lost_wakeup SampleKcp 1 .default r reached⟩

/-- Two calls wait when a batch of two messages arrives: the one `notify_one` wakes
the first, which takes one message and leaves the other with the second call
waiting. -/
theorem waiter_stranded :
    ∃ r : Receivers SampleKcp, (receiversMachine SampleKcp 1 .default).Reach Machine.always r ∧
      r.tasks.peer.pendingData = [⟨.remote, [8]⟩] ∧ r.tasks.recv = .idle ∧ ¬ r.Served := by
  have run : ((receiversMachine SampleKcp 1 .default).exec Machine.always
      (receiversMachine SampleKcp 1 .default).start
      (ReceiverStep.twoWaiting ++ [.resume 0, .check 0])).any
      (fun r => decide (r.callers = [.returned ⟨.remote, [7]⟩, .waiting] ∧
        r.tasks.peer.pendingData = [⟨.remote, [8]⟩] ∧ r.tasks.recv = .idle ∧
        r.notify = ⟨false, [1], []⟩)) = true := by
    decide +kernel
  obtain ⟨r, reached, checked⟩ := Machine.Reach.exec_any _ run
  obtain ⟨callers, pending, idle, notify⟩ := of_decide_eq_true checked
  refine ⟨r, reached, pending, idle, fun served => ?_⟩
  have waits : r.Waits 1 := by simp [Receivers.Waits, callers, notify]
  rcases served (by simp [pending]) ⟨1, waits⟩ with stored | ⟨caller, woken⟩ | about
  · simp [notify] at stored
  · have none : ¬ r.callers[caller]? = some .woken := by
      rw [callers]
      rcases caller with _ | _ | caller <;> simp
    rcases woken with resumed | ⟨_, mem⟩
    · exact none resumed
    · simp [notify] at mem
  · simp [idle] at about

end KcpPeer
