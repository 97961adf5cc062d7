import Nucleus.Proofs.Anatomy

/-!
# Calls that are refused

A call that puts a thread aside, wakes it, ends it, or begins a wait may be refused: it answers with
an error, or that there was nobody to wake. Some of these calls have already written something when
a later part of them can still be refused: an exit code is set before the thread is killed, and a
waiter is queued before its thread is put aside.

* `Op.refusal?` is the table of refusals: the answer with which an operation is refused, by the
  kernel state it finds.
* `Machine.Unchanged` says that nothing has happened but entries in the journal and the log, and
  `Call.Declines` that a call returns with an answer and leaves the machine unchanged.
* `refused_calls_change_nothing` says that the table is exact, and that a refused call changes
  nothing.
* `Call.enqueueWaitUndoing_eq` says that a waiter which was queued is never taken out again by the
  call that queued it.
-/

namespace Nucleus

variable {G : Guest} {α β : Type}

/-! ## Which calls are refused -/

namespace Op

/-- Does the answer say that the operation was refused? It is an error, or that the thread to be
woken was not waiting. -/
def IsRefusal : (op : Op G) → op.Result → Prop
  | delay .., .error _ | delayHere _, .error _ | killThread .., .error _ => True
  | exitThread .., .error _ | exitThreadHere _, .error _ | enqueueWait .., .error _ => True
  | undelayThread _, .error _ | undelayThread _, .ok false | undelay .., false => True
  | _, _ => False

/-- The answer with which the operation on core `here` is refused, if it is. -/
def refusal? (here : CoreId) (k : Kernel G) : (op : Op G) → Option op.Result
  | delay _ span | delayHere span =>
    if span.isNegative then some (.error .argumentOutOfRange) else none
  | killThread c t => if k.ownerOf t = some c then none else some (.error .invalidOperation)
  | exitThread t _ =>
    if (Effect.owningCore k t).isSome then none else some (.error .invalidOperation)
  | exitThreadHere _ =>
    if ((k.queues here).running.bind (Effect.owningCore k)).isSome then none
    else some (.error .invalidOperation)
  | undelay c t => if (k.queues c).isParked t then none else some false
  | undelayThread t =>
    match Effect.owningCore k t with
    | none => some (.error .invalidOperation)
    | some c => if (k.queues c).isParked t then none else some (.ok false)
  | enqueueWait e span =>
    if span.isNegative then some (.error .argumentOutOfRange)
    else if k.isRaised e then none
    else if span.isZero then some (.error .timeout)
    else if (k.queues here).running.isSome then none
    else some (.error .invalidOperation)
  | _ => none

theorem ownerOf_of_owningCore {k : Kernel G} {t : ThreadId} {c : CoreId}
    (h : Effect.owningCore k t = some c) : k.ownerOf t = some c := by
  obtain ⟨d, howner, hd⟩ := Option.bind_eq_some_iff.mp h
  split at hd
  · rwa [← Option.some.inj hd]
  · cases hd

/-- Once the exit code of a thread is set, the core that owns it can end it. -/
theorem answer_exitThread {k : Kernel G} {t : ThreadId} (code : ExitCode)
    (h : (Effect.owningCore k t).isSome) : (Effect.exitThread t code k).2 = .ok () := by
  obtain ⟨c, hc⟩ := Option.isSome_iff_exists.mp h
  have howner : (k.setExitCode t code).ownerOf t = some c := by
    refine (k.ownerOf_updateThread (f := fun th => { th with exitCode := code }) ?_ t).trans
      (ownerOf_of_owningCore hc)
    exact fun _ => rfl
  simp only [Effect.exitThread]
  rw [hc]
  dsimp only [Effect.killThread]
  rw [if_pos howner]

/-- A delay refuses nothing but a negative span. -/
theorem answer_delay {k : Kernel G} {span : TimeSpan} (c : CoreId) (h : ¬ span.isNegative) :
    (Effect.delay c span k).2 = .ok () := by
  simp only [Effect.delay]
  rw [if_neg h]

/-- **An operation that the table does not refuse is not refused.** -/
theorem not_isRefusal {here : CoreId} {op : Op G} {f : Effect G op.Result} {k : Kernel G}
    (hf : op.effect here = some f) (h : op.refusal? here k = none) : ¬ op.IsRefusal (f k).2 := by
  cases op with
  | delay c span =>
    cases hf
    simp only [refusal?] at h
    split at h
    · cases h
    next hn =>
      rw [answer_delay _ hn]
      exact id
  | delayHere span =>
    cases hf
    simp only [refusal?] at h
    split at h
    · cases h
    next hn =>
      rw [answer_delay _ hn]
      exact id
  | killThread c t =>
    cases hf
    simp only [refusal?] at h
    split at h
    next howner =>
      simp only [Effect.killThread]
      rw [if_pos howner]
      exact id
    · cases h
  | exitThread t code =>
    cases hf
    simp only [refusal?] at h
    split at h
    next howner =>
      rw [answer_exitThread code howner]
      exact id
    · cases h
  | exitThreadHere code =>
    cases hf
    simp only [refusal?] at h
    split at h
    next howner =>
      obtain ⟨c, hc⟩ := Option.isSome_iff_exists.mp howner
      obtain ⟨t, hrun, howner⟩ := Option.bind_eq_some_iff.mp hc
      simp only [Effect.exitThreadHere]
      rw [hrun]
      dsimp only
      rw [answer_exitThread code (howner ▸ rfl)]
      exact id
    · cases h
  | undelay c t =>
    cases hf
    simp only [refusal?] at h
    split at h
    next hparked =>
      simp only [Effect.undelay]
      rw [if_pos hparked]
      exact id
    · cases h
  | undelayThread t =>
    cases hf
    simp only [refusal?, Effect.undelayThread] at h ⊢
    cases hc : Effect.owningCore k t with
    | none =>
      rw [hc] at h
      cases h
    | some c =>
      rw [hc] at h
      dsimp only at h ⊢
      split at h
      next hparked =>
        simp only [Effect.undelay]
        rw [if_pos hparked]
        exact id
      · cases h
  | enqueueWait e span =>
    cases hf
    simp only [refusal?] at h
    split at h
    · cases h
    next hn =>
      rw [Effect.enqueueWait_of_not_negative _ _ _ hn]
      rcases Effect.enqueueLocked_cases k e here hn with
        ⟨-, hk⟩ | ⟨hr, hz, -⟩ | ⟨hr, hz, hrun, -⟩ | ⟨-, -, t, -, hk⟩
      · rw [hk]
        exact id
      · rw [if_neg hr, if_pos hz] at h
        cases h
      · rw [if_neg hr, if_neg hz, hrun] at h
        cases h
      · rw [hk]
        exact id
  | _ => exact fun hr => by cases hr

end Op

/-! ## Calls that change nothing -/

/-- Nothing has happened since the machine was `m`, but for entries in the journal and the log. -/
structure Machine.Unchanged (m n : Machine G) : Prop where
  /-- the kernel state -/
  kernel : n.kernel = m.kernel
  /-- the chip -/
  chip : n.chip.clearJournal = m.chip.clearJournal

namespace Machine.Unchanged

variable {m n n' : Machine G} {l : Lock}

theorem refl (m : Machine G) : m.Unchanged m := ⟨rfl, rfl⟩

theorem trans (h : m.Unchanged n) (h' : n.Unchanged n') : m.Unchanged n' :=
  ⟨h'.kernel.trans h.kernel, h'.chip.trans h.chip⟩

theorem held (h : m.Unchanged n) : n.chip.held = m.chip.held := by
  have hheld := congrArg Chip.held h.chip
  exact hheld

theorem current (h : m.Unchanged n) : n.chip.current = m.chip.current := by
  have hcurrent := congrArg Chip.current h.chip
  exact hcurrent

/-- The log is not part of what is kept. -/
theorem note (m : Machine G) (notice : Notice) :
    m.Unchanged { m with log := notice :: m.log } := ⟨rfl, rfl⟩

/-- A locked stretch leaves the machine unchanged if its body does. -/
theorem locked (h : Unchanged { m with chip := m.chip.mask.acquire l } n) :
    m.Unchanged { n with chip := (n.chip.release l).restore m.chip.interrupts } := by
  refine ⟨h.kernel, ?_⟩
  have hchip : n.chip.clearJournal =
      { m.chip.clearJournal with interrupts := false, held := l :: m.chip.held } := h.chip
  have hback : ((n.chip.release l).restore m.chip.interrupts).clearJournal =
      { n.chip.clearJournal with
        interrupts := m.chip.interrupts
        held := n.chip.clearJournal.held.erase l } := rfl
  rw [hback, hchip]
  dsimp only
  rw [List.erase_cons_head]
  rfl

end Machine.Unchanged

namespace Call

variable {m : Machine G} {l : Lock} {x : Call G α} {a : α}

/-- By itself, the call returns with the answer, and leaves the machine unchanged. -/
def Declines (x : Call G α) (m : Machine G) (a : α) : Prop :=
  ∃ n, (x m).ending? = some (n, a) ∧ m.Unchanged n

theorem declines_pure (a : α) (m : Machine G) : (pure a : Call G α).Declines m a :=
  ⟨m, rfl, .refl m⟩

theorem Declines.bind {f : α → Call G β} {b : β} (hx : x.Declines m a)
    (hf : ∀ n, m.Unchanged n → (f a).Declines n b) : (x >>= f).Declines m b := by
  obtain ⟨n, hn, hmn⟩ := hx
  obtain ⟨n', hn', hnn'⟩ := hf n hmn
  exact ⟨n', (Run.ending?_bind_of_some hn f).trans hn', hmn.trans hnn'⟩

theorem declines_locked (hl : l ∉ m.chip.held)
    (hx : x.Declines { m with chip := m.chip.mask.acquire l } a) : (locked l x).Declines m a := by
  obtain ⟨n, hn, hmn⟩ := hx
  exact ⟨_, ending?_locked hl hn, hmn.locked⟩

theorem declines_inspect (c : CoreId) (f : RunQueues → α) (hl : .queues c ∉ m.chip.held) :
    (inspect c f).Declines m (f (m.kernel.queues c)) :=
  declines_locked hl ⟨_, rfl, .refl _⟩

theorem declines_currentCore (managed : m.kernel.manages m.chip.current = true) :
    (currentCore : Call G CoreId).Declines m m.chip.current := by
  refine ⟨m, ?_, .refl m⟩
  rw [currentCore_apply managed]
  rfl

/-! ### What each call refuses -/

theorem declines_delay {span : TimeSpan} (c : CoreId) (h : span.isNegative) :
    (delay c span).Declines m (.error .argumentOutOfRange) := by
  unfold delay
  rw [if_pos h]
  exact declines_pure _ m

theorem declines_killThread {c : CoreId} {t : ThreadId} (h : m.kernel.ownerOf t ≠ some c) :
    (killThread c t).Declines m (.error .invalidOperation) := by
  refine Declines.bind (a := false) ⟨m, ?_, .refl m⟩ fun n _ => declines_pure _ n
  simp only [disown]
  rw [bind_of_done (read_apply _ m), if_neg h]
  rfl

theorem declines_owningCore (t : ThreadId) :
    (owningCore t).Declines m (Effect.owningCore m.kernel t) := by
  refine ⟨m, ?_, .refl m⟩
  simp only [owningCore, Effect.owningCore]
  rw [bind_of_done (read_apply _ m)]
  cases m.kernel.ownerOf t with
  | none => rfl
  | some c => rfl

theorem declines_exitThread {t : ThreadId} (code : ExitCode)
    (h : Effect.owningCore m.kernel t = none) :
    (exitThread t code).Declines m (.error .invalidOperation) :=
  (h ▸ declines_owningCore t).bind fun n _ => declines_pure _ n

/-- The lock of the scheduler is taken for a look at the running thread, and given back. -/
theorem declines_exitThreadHere (code : ExitCode)
    (managed : m.kernel.manages m.chip.current = true) (free : m.chip.held = [])
    (h : (m.kernel.queues m.chip.current).running.bind (Effect.owningCore m.kernel) = none) :
    (exitThreadHere code).Declines m (.error .invalidOperation) := by
  refine (declines_currentCore managed).bind fun n hn => ?_
  have hl : .queues m.chip.current ∉ n.chip.held := by
    rw [hn.held, free]
    exact List.not_mem_nil
  refine (declines_inspect m.chip.current (·.running) hl).bind fun n' hn' => ?_
  rw [hn.kernel]
  cases hrun : (m.kernel.queues m.chip.current).running with
  | none => exact declines_pure _ n'
  | some t =>
    rw [hrun] at h
    refine declines_exitThread code ?_
    rw [hn'.kernel, hn.kernel]
    exact h

theorem declines_undelay {c : CoreId} {t : ThreadId} (hl : .queues c ∉ m.chip.held)
    (h : (m.kernel.queues c).isParked t = false) : (undelay c t).Declines m false := by
  refine declines_locked hl ⟨_, ?_, .note _ (.notWaiting c t)⟩
  rw [bind_of_done (read_apply _ _), h]
  rfl

theorem declines_undelayThread {t : ThreadId} (free : m.chip.held = [])
    {a : Outcome Bool} (h : (Op.undelayThread t).refusal? m.chip.current m.kernel = some a) :
    (undelayThread t).Declines m a := by
  simp only [Op.refusal?] at h
  refine (declines_owningCore t).bind fun n hn => ?_
  cases hc : Effect.owningCore m.kernel t with
  | none =>
    rw [hc] at h
    obtain rfl := Option.some.inj h
    exact declines_pure _ n
  | some c =>
    rw [hc] at h
    dsimp only at h
    split at h
    · cases h
    next hparked =>
      obtain rfl := Option.some.inj h
      refine Declines.bind (declines_undelay ?_ ?_) fun n' _ => declines_pure _ n'
      · rw [hn.held, free]
        exact List.not_mem_nil
      · rw [hn.kernel]
        exact Bool.eq_false_iff.mpr hparked

theorem declines_tryConsume {e : EventId} (h : ¬ m.kernel.isRaised e) :
    (tryConsume e).Declines m false := by
  refine ⟨m, ?_, .refl m⟩
  rw [tryConsume_apply, Effect.tryConsume_of_clear _ h]
  rfl

/-- Under the lock the latch is looked at again; the lock of the scheduler is taken for a look at
the running thread, and given back. -/
theorem declines_enqueueLocked {e : EventId} {c : CoreId} {span : TimeSpan}
    {a : Outcome (Option WaitId)} (hl : .queues c ∉ m.chip.held) (hr : ¬ m.kernel.isRaised e)
    (h : (if span.isZero then some (.error .timeout)
      else if (m.kernel.queues c).running.isSome then none
      else some (.error .invalidOperation)) = some a) :
    (enqueueLocked e c span).Declines m a := by
  refine (declines_tryConsume hr).bind fun n hmn => ?_
  rw [if_neg Bool.false_ne_true]
  by_cases hz : span.isZero
  · rw [if_pos hz] at h ⊢
    obtain rfl := Option.some.inj h
    exact declines_pure _ n
  rw [if_neg hz] at h ⊢
  refine (declines_inspect c (·.running) (hmn.held ▸ hl)).bind fun n' _ => ?_
  rw [hmn.kernel]
  cases hrun : (m.kernel.queues c).running with
  | none =>
    rw [hrun] at h
    obtain rfl := Option.some.inj h
    exact declines_pure _ n'
  | some t =>
    rw [hrun] at h
    cases h

/-- A wait that finds the latch clear looks again under the lock, and finds it clear again. -/
theorem declines_enqueueWait {e : EventId} {span : TimeSpan} {a : Outcome (Option WaitId)}
    (managed : m.kernel.manages m.chip.current = true) (free : m.chip.held = [])
    (h : (Op.enqueueWait e span).refusal? m.chip.current m.kernel = some a) :
    (enqueueWait e span).Declines m a := by
  simp only [Op.refusal?] at h
  unfold enqueueWait enqueueWaitUndoing
  by_cases hn : span.isNegative
  · rw [if_pos hn] at h ⊢
    obtain rfl := Option.some.inj h
    exact declines_pure _ m
  rw [if_neg hn] at h ⊢
  by_cases hr : m.kernel.isRaised e
  · rw [if_pos hr] at h
    cases h
  rw [if_neg hr] at h
  refine (declines_tryConsume hr).bind fun n hmn => ?_
  rw [if_neg Bool.false_ne_true]
  have managed' : n.kernel.manages n.chip.current = true := by
    rw [hmn.kernel, hmn.current]
    exact managed
  refine (declines_currentCore managed').bind fun n' hn' => ?_
  have hfree : n'.chip.held = [] := by rw [hn'.held, hmn.held, free]
  have hkernel : n'.kernel = m.kernel := hn'.kernel.trans hmn.kernel
  rw [hmn.current]
  refine declines_locked (hfree ▸ List.not_mem_nil) (declines_enqueueLocked ?_ ?_ ?_)
  · change _ ∉ .waiters e :: n'.chip.held
    rw [hfree]
    nofun
  · rwa [hkernel]
  · rwa [hkernel]

end Call

/-- **A call that the table refuses declines.** -/
theorem Op.declines_of_refusal? {op : Op G} {m : Machine G} {answer : op.Result}
    (managed : m.kernel.manages m.chip.current = true) (free : m.chip.held = [])
    (h : op.refusal? m.chip.current m.kernel = some answer) : op.call.Declines m answer := by
  have hfree (c : CoreId) : Lock.queues c ∉ m.chip.held := free ▸ List.not_mem_nil
  cases op with
  | delay c span =>
    simp only [refusal?, Option.ite_none_right_eq_some, Option.some.injEq] at h
    obtain ⟨hn, rfl⟩ := h
    exact Call.declines_delay c hn
  | delayHere span =>
    simp only [refusal?, Option.ite_none_right_eq_some, Option.some.injEq] at h
    obtain ⟨hn, rfl⟩ := h
    exact (Call.declines_currentCore managed).bind fun _ _ => Call.declines_delay _ hn
  | killThread c t =>
    simp only [refusal?, Option.ite_none_left_eq_some, Option.some.injEq] at h
    obtain ⟨howner, rfl⟩ := h
    exact Call.declines_killThread howner
  | exitThread t code =>
    simp only [refusal?, Option.ite_none_left_eq_some, Option.some.injEq] at h
    obtain ⟨howner, rfl⟩ := h
    exact Call.declines_exitThread code (Option.not_isSome_iff_eq_none.mp howner)
  | exitThreadHere code =>
    simp only [refusal?, Option.ite_none_left_eq_some, Option.some.injEq] at h
    obtain ⟨howner, rfl⟩ := h
    exact Call.declines_exitThreadHere code managed free (Option.not_isSome_iff_eq_none.mp howner)
  | undelay c t =>
    simp only [refusal?, Option.ite_none_left_eq_some, Option.some.injEq] at h
    obtain ⟨hparked, rfl⟩ := h
    exact Call.declines_undelay (hfree c) (Bool.eq_false_iff.mpr hparked)
  | undelayThread t => exact Call.declines_undelayThread free h
  | enqueueWait e span => exact Call.declines_enqueueWait managed free h
  | _ => cases h

/-- Whatever is refused is an operation on the kernel state. -/
theorem Op.exists_effect_of_isRefusal {op : Op G} {answer : op.Result} (here : CoreId)
    (h : op.IsRefusal answer) : ∃ f, op.effect here = some f := by
  cases op with
  | createThread | runThread | dispatch | dispatchHere => exact h.elim
  | _ => exact ⟨_, rfl⟩

/-- **A call that is refused is refused by the table**, and has changed nothing. -/
theorem Op.refusal?_of_ending? {op : Op G} {m n : Machine G} {answer : op.Result}
    (managed : m.kernel.manages m.chip.current = true) (free : m.chip.held = [])
    (h : (op.call m).ending? = some (n, answer)) (refused : op.IsRefusal answer) :
    op.refusal? m.chip.current m.kernel = some answer ∧ m.Unchanged n := by
  cases htable : op.refusal? m.chip.current m.kernel with
  | none =>
    obtain ⟨f, hf⟩ := exists_effect_of_isRefusal m.chip.current refused
    obtain ⟨-, -, ha⟩ := does_call hf rfl (Run.rests_of_ending? h)
    obtain rfl := Sum.inl.inj ha
    exact absurd refused (not_isRefusal hf htable)
  | some b =>
    obtain ⟨n', hn', hunchanged⟩ := declines_of_refusal? managed free htable
    obtain ⟨rfl, rfl⟩ := Prod.mk.inj (Option.some.inj (hn'.symm.trans h))
    exact ⟨rfl, hunchanged⟩

/-! ## Waiters that are taken out again -/

namespace Call

/-- A delay that is not refused at once goes on as one that succeeds, whoever comes in between. -/
theorem delay_bind_of_not_negative {span : TimeSpan} (c : CoreId) (h : ¬ span.isNegative)
    {f g : Outcome Unit → Call G α} (hfg : f (.ok ()) = g (.ok ())) :
    delay c span >>= f = delay c span >>= g := by
  unfold delay
  rw [if_neg h]
  split <;> simp only [bind_assoc, pure_bind, hfg]

/-- **A queued waiter is never taken out again by the call that queued it**: whatever stood there to
undo it, the first half of a wait would be the same call, whoever comes in between. -/
theorem enqueueWaitUndoing_eq (undo : WaitId → Call G Unit) (e : EventId) (span : TimeSpan) :
    enqueueWaitUndoing undo e span = enqueueWait e span := by
  unfold enqueueWait enqueueWaitUndoing
  by_cases hn : span.isNegative
  · rw [if_pos hn, if_pos hn]
  have hqueue (c : CoreId) :
      queueRunningUndoing undo e c span = queueRunningUndoing (unqueue e) e c span := by
    refine bind_congr fun o => ?_
    cases o with
    | none => rfl
    | some t =>
      exact bind_congr fun w => bind_congr fun _ => bind_congr fun _ =>
        delay_bind_of_not_negative c hn rfl
  simp only [hqueue]

/-- A wait whose first half is refused is refused in the same way. -/
theorem ending?_waitEvent_of_error {e : EventId} {span : TimeSpan} {m n : Machine G}
    {why : KernelError} (h : (enqueueWait e span m).ending? = some (n, .error why)) :
    (waitEvent e span m).ending? = some (n, .error why) :=
  Run.ending?_bind_of_some h _

end Call

/-! ## Every refusal -/

/-- **Refused calls change nothing.** Take any state of any run from a machine where no lock is
held, such as one that was just booted, and any managed core. An operation that is called there is
refused with an answer exactly if the table of refusals says so, and if it is refused then the
kernel state is what it was, and so is the chip, the number of core notifications included. A wait
that is refused in its first half is refused by that half, with nothing changed. The first half of a
wait would be the same call whatever it did to undo the queueing of a waiter: it never comes to
that. -/
theorem refused_calls_change_nothing {m : Machine G} {history : List (Segment G)} {s : System G}
    (free : m.chip.held = []) (run : System.Runs ⟨m, []⟩ history s) {core : CoreId}
    (managed : s.machine.kernel.manages core = true) :
    (∀ (op : Op G) (answer : op.Result), op.IsRefusal answer →
      ((∃ n, (op.call (s.machine.on core)).ending? = some (n, answer)) ↔
        op.refusal? core s.machine.kernel = some answer) ∧
      ∀ n, (op.call (s.machine.on core)).ending? = some (n, answer) →
        (s.machine.on core).Unchanged n) ∧
    (∀ e span n why, (Call.enqueueWait e span (s.machine.on core)).ending? = some (n, .error why) →
      (Call.waitEvent e span (s.machine.on core)).ending? = some (n, .error why) ∧
        (s.machine.on core).Unchanged n) ∧
    ∀ (undo : WaitId → Call G Unit) (e : EventId) (span : TimeSpan),
      Call.enqueueWaitUndoing undo e span = Call.enqueueWait e span := by
  have hfree : (s.machine.on core).chip.held = [] :=
    (run.unlocked (System.unlocked_start free)).held
  have hmanaged : (s.machine.on core).kernel.manages (s.machine.on core).chip.current = true :=
    managed
  refine ⟨fun op answer refused => ⟨⟨?_, ?_⟩, ?_⟩, ?_, Call.enqueueWaitUndoing_eq⟩
  · rintro ⟨n, hn⟩
    exact (Op.refusal?_of_ending? hmanaged hfree hn refused).1
  · intro htable
    obtain ⟨n, hn, -⟩ := Op.declines_of_refusal? hmanaged hfree htable
    exact ⟨n, hn⟩
  · intro n hn
    exact (Op.refusal?_of_ending? hmanaged hfree hn refused).2
  · intro e span n why h
    have hcall : ((Op.enqueueWait e span).call (s.machine.on core)).ending? =
        some (n, .error why) := h
    exact ⟨Call.ending?_waitEvent_of_error h,
      (Op.refusal?_of_ending? hmanaged hfree hcall trivial).2⟩

/-- A thread runs on the first of two cores, a second thread was ended, and there is an event. -/
def oneEnded : List (CoreId × Op ⟨Unit, Unit⟩) :=
  [(0, .createThread () "worker"), (0, .startThread 0 2), (0, .bootstrap 0),
    (0, .createThread () "ended"), (0, .startThread 0 3), (0, .killThread 0 3),
    (0, .newEvent true)]

/-- To end that thread again, to wait for no time at all, and to wait on the core that runs nothing:
all three are refused, and leave everything as it was. -/
theorem refusals_on_two_cores : ∃ m past s, Machine.boot? { processors := 2 } {} = some m ∧
    System.play ⟨m, []⟩ oneEnded = some (past, s) ∧
    (∃ n, (Call.exitThread 3 7 (s.machine.on 0)).ending? = some (n, .error .invalidOperation) ∧
      (s.machine.on 0).Unchanged n) ∧
    (∃ n, (Call.waitEvent 0 .zero (s.machine.on 0)).ending? = some (n, .error .timeout) ∧
      (s.machine.on 0).Unchanged n) ∧
    ∃ n, (Call.enqueueWait 0 .infinite (s.machine.on 1)).ending? =
      some (n, .error .invalidOperation) ∧ (s.machine.on 1).Unchanged n := by
  obtain ⟨m, past, s, later, s', hm, hfirst, -, htest⟩ := System.exists_play
    { processors := 2 } {} oneEnded []
    (fun _ s _ _ => s.machine.kernel.manages 0 && (s.machine.kernel.manages 1 &&
      (decide (Effect.owningCore s.machine.kernel 3 = none) &&
        (decide (s.machine.kernel.isRaised 0 = false) &&
          decide ((s.machine.kernel.queues 1).running = none))))) (by decide +kernel)
  simp only [Bool.and_eq_true, decide_eq_true_eq] at htest
  obtain ⟨h0, h1, howner, hclear, hidle⟩ := htest
  have hrun := System.runs_of_play hfirst
  have hheld := Machine.held_of_boot? hm
  obtain ⟨hzero, hwait, -⟩ := refused_calls_change_nothing hheld hrun h0
  obtain ⟨hone, -, -⟩ := refused_calls_change_nothing hheld hrun h1
  refine ⟨m, past, s, hm, hfirst, ?_, ?_, ?_⟩
  · obtain ⟨hiff, hsame⟩ := hzero (.exitThread 3 7) (.error .invalidOperation) trivial
    obtain ⟨n, hn⟩ := hiff.mpr (by simp only [Op.refusal?, howner]; rfl)
    exact ⟨n, hn, hsame n hn⟩
  · obtain ⟨hiff, -⟩ := hzero (.enqueueWait 0 .zero) (.error .timeout) trivial
    obtain ⟨n, hn⟩ := hiff.mpr (by simp only [Op.refusal?, hclear]; rfl)
    exact ⟨n, hwait 0 .zero n .timeout hn⟩
  · obtain ⟨hiff, hsame⟩ := hone (.enqueueWait 0 .infinite) (.error .invalidOperation) trivial
    obtain ⟨n, hn⟩ := hiff.mpr (by simp only [Op.refusal?, hclear, hidle]; rfl)
    exact ⟨n, hn, hsame n hn⟩

end Nucleus
