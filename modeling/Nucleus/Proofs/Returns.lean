import Nucleus.Proofs.System

/-!
# Waits that return

The effect of a call says what the call does to the kernel state, if it returns. Here is where both
halves of a wait return: wherever the locks they take are free.

* `Run.Returns` says that a call returns with nobody coming in between, and `Run.outcome?` is the
  kernel state and the answer that it returns with.
* `Call.outcome?_enqueueWait`, `Call.outcome?_enqueueRest` and `Call.outcome?_completeWait` are the
  outcomes of both halves of a wait, and of the first half once it has found the latch clear.
-/

namespace Nucleus

variable {G : Guest} {α β : Type}

namespace Run

/-- The kernel state and the answer that a call by itself returns with. -/
def outcome? (x : Run G α) : Option (Kernel G × α) := x.ending?.map fun (m, a) => (m.kernel, a)

/-- By itself, the call returns. -/
def Returns (x : Run G α) : Prop := ∃ m a, x.ending? = some (m, a)

theorem ending?_bind (x : Run G α) (f : α → Machine G → Run G β) :
    (x.bind f).ending? = x.ending?.bind fun p => (f p.2 p.1).ending? := by
  induction x with
  | done m a => rfl
  | window m w resume ih => exact ih m
  | halt | interrupt | enter => rfl

/-- The second call begins where the first has returned. -/
theorem ending?_bind_of_some {x : Run G α} {n : Machine G} {a : α} (hx : x.ending? = some (n, a))
    (f : α → Machine G → Run G β) : (x.bind f).ending? = (f a n).ending? := by
  rw [ending?_bind, hx]
  rfl

/-- What does not return does not return with more to do. -/
theorem ending?_bind_of_none {x : Run G α} (hx : x.ending? = none) (f : α → Machine G → Run G β) :
    (x.bind f).ending? = none := by
  rw [ending?_bind, hx]
  rfl

theorem returns_done (m : Machine G) (a : α) : (done m a).Returns := ⟨m, a, rfl⟩

theorem Returns.bind {x : Run G α} {f : α → Machine G → Run G β} (hx : x.Returns)
    (hf : ∀ m a, x.ending? = some (m, a) → (f a m).Returns) : (x.bind f).Returns := by
  obtain ⟨m, a, hx⟩ := hx
  obtain ⟨n, b, hb⟩ := hf m a hx
  refine ⟨n, b, ?_⟩
  rw [ending?_bind, hx]
  exact hb

end Run

namespace Call

/-- A call that returns does so with its effect. -/
theorem Does.outcome? {here : CoreId} {x : Call G α} {f : Effect G α} {m : Machine G}
    (hx : x.Does here f) (hm : m.chip.current = here) (hr : (x m).Returns) :
    (x m).outcome? = some (f m.kernel) := by
  obtain ⟨n, a, hn⟩ := hr
  obtain ⟨-, hk, ha⟩ := hx hm (Run.rests_of_ending? hn)
  obtain rfl := Sum.inl.inj ha
  simp only [Run.outcome?]
  rw [hn, Option.map_some, hk]

/-- Once its window is passed, a masked stretch returns if its body does. -/
theorem returns_unmask {x : Call G α} {m : Machine G} (was : Bool) (hx : (x m).Returns) :
    ((x m).bind fun a m' =>
      Run.done { m' with chip := m'.chip.restore was } a).Returns :=
  hx.bind fun _ _ _ => Run.returns_done _ _

/-- A body under a lock that is free returns if it returns with the lock held. -/
theorem returns_holding {x : Call G α} {l : Lock} {m : Machine G} (hl : l ∉ m.chip.held)
    (hx : (x { m with chip := m.chip.acquire l }).Returns) :
    ((do
      acquire l
      let a ← x
      command (·.release l)
      return a : Call G α) m).Returns := by
  rw [bind_of_done (acquire_apply_of_not_mem hl)]
  exact hx.bind fun _ _ _ => Run.returns_done _ _

theorem returns_locked {x : Call G α} {l : Lock} {m : Machine G} (hl : l ∉ m.chip.held)
    (hx : (x { m with chip := m.chip.mask.acquire l }).Returns) : (locked l x m).Returns := by
  have hbody := returns_holding (m := { m with chip := m.chip.mask }) hl hx
  exact returns_unmask m.chip.interrupts hbody

/-- A locked stretch ends where its body ends, with the lock given back and the interrupt flag put
back. -/
theorem ending?_locked {x : Call G α} {l : Lock} {m n : Machine G} {a : α} (hl : l ∉ m.chip.held)
    (hx : (x { m with chip := m.chip.mask.acquire l }).ending? = some (n, a)) :
    (locked l x m).ending? =
      some ({ n with chip := (n.chip.release l).restore m.chip.interrupts }, a) := by
  have hacquire : acquire l { m with chip := m.chip.mask } = _ := acquire_apply_of_not_mem hl
  simp only [locked, masked_apply, Run.ending?]
  rw [bind_of_done hacquire]
  have hbody := (Run.ending?_bind_of_some hx fun a => (do
    command (·.release l)
    return a : Call G α)).trans rfl
  exact Run.ending?_bind_of_some hbody _

/-- A locked stretch does not end if its lock is held already. -/
theorem ending?_locked_of_mem {l : Lock} {m : Machine G} (hl : l ∈ m.chip.held) (x : Call G α) :
    (locked l x m).ending? = none := by
  have hacquire : (acquire l { m with chip := m.chip.mask }).ending? = none := by
    rw [acquire_apply_of_mem (m := { m with chip := m.chip.mask }) hl]
    rfl
  exact Run.ending?_bind_of_none (Run.ending?_bind_of_none hacquire _) _

/-- A stretch whose lock outlives it ends where its body ends, with the interrupt flag put back and
the lock given back. -/
theorem ending?_overheld {x : Call G α} {l : Lock} {m n : Machine G} {a : α}
    (hl : l ∉ m.chip.held)
    (hx : (x { m with chip := m.chip.mask.acquire l }).ending? = some (n, a)) :
    (overheld l x m).ending? =
      some ({ n with chip := (n.chip.restore m.chip.interrupts).release l }, a) := by
  have hacquire : acquire l { m with chip := m.chip.mask } = _ := acquire_apply_of_not_mem hl
  simp only [overheld_apply, masked_apply, Run.window_bind, Run.ending?]
  rw [bind_of_done hacquire, Run.bind_assoc]
  exact Run.ending?_bind_of_some hx _

theorem returns_overheld {x : Call G α} {l : Lock} {m : Machine G} (hl : l ∉ m.chip.held)
    (hx : (x { m with chip := m.chip.mask.acquire l }).Returns) : (overheld l x m).Returns := by
  obtain ⟨n, a, hn⟩ := hx
  exact ⟨_, a, ending?_overheld hl hn⟩

/-- A look at the queues of a core gives back the lock it takes. -/
theorem ending?_inspect (c : CoreId) (f : RunQueues → α) {m : Machine G}
    (hl : .queues c ∉ m.chip.held) :
    ∃ n, (inspect c f m).ending? = some (n, f (m.kernel.queues c)) ∧
      n.kernel = m.kernel ∧ n.chip.held = m.chip.held := by
  refine ⟨_, ending?_locked hl rfl, rfl, ?_⟩
  exact m.chip.mask.held_release_acquire (.queues c)

/-- A deferred call can be queued if the lock of the queue is free. -/
theorem returns_requestYield {c : CoreId} {m : Machine G} (hl : .dpcs c ∉ m.chip.held) :
    (requestYield c m).Returns :=
  (returns_locked hl ⟨_, _, rfl⟩).bind fun _ _ _ => Run.returns_done _ _

/-- Putting a running thread aside returns, and is nothing to the chip. -/
theorem ending?_park {c : CoreId} {m : Machine G} {t : ThreadId} (span : TimeSpan)
    (hr : (m.kernel.queues c).running = some t) :
    ∃ n, (park c span m).ending? = some (n, ()) ∧ n.chip = m.chip := by
  simp only [park]
  rw [bind_of_done (read_apply _ m), hr]
  dsimp only
  split
  · exact ⟨_, rfl, rfl⟩
  · exact ⟨_, rfl, rfl⟩

/-- Ending a thread that is not in the slot of the core returns, and asks for no switch. -/
theorem ending?_killThread {c : CoreId} {t : ThreadId} {m : Machine G}
    (hl : .queues c ∉ m.chip.held) (hr : (m.kernel.queues c).running ≠ some t) :
    ∃ n, (killThread c t m).ending? = some (n, (Effect.killThread c t m.kernel).2) ∧
      n.kernel = (Effect.killThread c t m.kernel).1 ∧
      n.chip.notifications = m.chip.notifications ∧ n.chip.held = m.chip.held := by
  simp only [killThread, disown, bind_assoc, Effect.killThread]
  rw [bind_of_done (read_apply _ m)]
  by_cases ho : m.kernel.ownerOf t = some c
  · have hslot : (((m.kernel.setOwner t none).terminate c t).queues c).running ≠ some t := by
      rw [Kernel.running_terminate]
      exact hr
    have hbody := ending?_locked (m := { m with kernel := m.kernel.setOwner t none }) (a := false)
      (x := do
        change (·.terminate c t)
        read fun k => (k.queues c).running == some t) hl
      (congrArg (fun b => some (_, b)) (beq_false_of_ne hslot))
    rw [if_pos ho, if_pos ho, if_neg hslot]
    simp only [bind_assoc, pure_bind, if_true]
    rw [bind_of_done (change_apply _ m)]
    refine ⟨{ m with
      kernel := (m.kernel.setOwner t none).terminate c t
      chip := ((m.chip.mask.acquire (.queues c)).release (.queues c)).restore m.chip.interrupts
      log := .threadKilled c t :: m.log }, (Run.ending?_bind_of_some hbody _).trans ?_, rfl, rfl,
      m.chip.mask.held_release_acquire (.queues c)⟩
    rfl
  · rw [if_neg ho, if_neg ho]
    exact ⟨m, rfl, rfl, rfl, rfl⟩

/-- A core with a running thread can put it aside, and any core can refuse to or yield. -/
theorem returns_delay {c : CoreId} {m : Machine G} {span : TimeSpan}
    (h : span.isNegative ∨ span.isZero ∨ (m.kernel.queues c).running ≠ none)
    (hl : .queues c ∉ m.chip.held) (hd : .dpcs c ∉ m.chip.held) : (delay c span m).Returns := by
  have hyield {m : Machine G} (hd : .dpcs c ∉ m.chip.held) :
      ((do requestYield c; return .ok () : Call G (Outcome Unit)) m).Returns :=
    (returns_requestYield hd).bind fun _ _ _ => Run.returns_done _ _
  unfold delay
  split
  · exact Run.returns_done _ _
  next hn =>
    cases hz : span.isZero with
    | true => exact hyield hd
    | false =>
      have hr : (m.kernel.queues c).running ≠ none :=
        (h.resolve_left hn).resolve_left (Bool.eq_false_iff.mp hz)
      obtain ⟨t, hr⟩ := Option.ne_none_iff_exists'.mp hr
      -- the lock of the scheduler is given back before the deferred call is queued
      obtain ⟨n, hn, hchip⟩ := ending?_park (c := c)
        (m := { m with chip := m.chip.mask.acquire (.queues c) }) span hr
      have hend := ending?_locked hl hn
      refine Run.Returns.bind ⟨_, _, hend⟩ fun m' _ hm' => hyield ?_
      obtain ⟨rfl, -⟩ := Prod.mk.inj (Option.some.inj (hend.symm.trans hm'))
      rw [Chip.held_restore, hchip, Chip.held_release_acquire]
      exact hd

theorem returns_queueRunning (e : EventId) {c : CoreId} (span : TimeSpan) {m : Machine G}
    (hl : .queues c ∉ m.chip.held) (hd : .dpcs c ∉ m.chip.held) :
    (queueRunning e c span m).Returns := by
  obtain ⟨n, hn, hk, hheld⟩ := ending?_inspect c (·.running) hl
  refine Run.Returns.bind ⟨n, _, hn⟩ fun n' o hn' => ?_
  obtain ⟨rfl, rfl⟩ := Prod.mk.inj (Option.some.inj (hn.symm.trans hn'))
  cases hr : (m.kernel.queues c).running with
  | none => exact Run.returns_done _ _
  | some t =>
    -- nobody comes in between the look and the delay, which finds the same thread
    have hrun : (n.kernel.queues c).running = some t := by rw [hk, hr]
    have hfree : .queues c ∉ n.chip.held := by rwa [hheld]
    have hfree' : .dpcs c ∉ n.chip.held := by rwa [hheld]
    dsimp only
    rw [bind_of_done (read_apply _ _), bind_of_done (change_apply _ _),
      bind_of_done (change_apply _ _)]
    refine Run.Returns.bind (returns_delay (.inr (.inr ?_)) ?_ ?_) fun m' o _ => ?_
    · exact hrun ▸ Option.some_ne_none t
    · exact hfree
    · exact hfree'
    · cases o with
      | ok u => exact Run.returns_done _ _
      | error why => exact Run.returns_done _ _

/-- The first half of a wait once it holds the lock. -/
def enqueueLocked (e : EventId) (c : CoreId) (span : TimeSpan) :
    Call G (Outcome (Option WaitId)) := do
  if ← tryConsume e then return .ok none
  if span.isZero then return .error .timeout
  queueRunning e c span

/-- What is left of the first half of a wait at its window: it takes the lock and looks again. -/
def enqueueRest (e : EventId) (c : CoreId) (span : TimeSpan) (was : Bool) :
    Call G (Outcome (Option WaitId)) := fun m =>
  ((do
    acquire (.waiters e)
    let a ← enqueueLocked e c span
    command (·.release (.waiters e))
    return a : Call G (Outcome (Option WaitId))) m).bind fun a m' =>
      .done { m' with chip := m'.chip.restore was } a

theorem returns_enqueueLocked (e : EventId) {c : CoreId} (span : TimeSpan) {m : Machine G}
    (hl : .queues c ∉ m.chip.held) (hd : .dpcs c ∉ m.chip.held) :
    (enqueueLocked e c span m).Returns := by
  simp only [enqueueLocked]
  rw [bind_of_done (tryConsume_apply e m)]
  split
  · exact Run.returns_done _ _
  · split
    · exact Run.returns_done _ _
    · exact returns_queueRunning e span (m := { m with kernel := _ }) hl hd

/-- **The first half of a wait, once it has found the latch clear.** -/
theorem outcome?_enqueueRest (e : EventId) (span : TimeSpan) (was : Bool) {m : Machine G}
    (free : m.chip.held = []) :
    (enqueueRest e m.chip.current span was m).outcome? =
      some (Effect.enqueueLocked e m.chip.current span m.kernel) := by
  have hdoes : (enqueueRest e m.chip.current span was : Call G _).Does m.chip.current
      (Effect.enqueueLocked e m.chip.current span) :=
    does_unmask was (does_holding _ (does_enqueueLocked e _ span))
  refine hdoes.outcome? rfl (returns_unmask was (returns_holding ?_ ?_))
  · rw [free]
    exact List.not_mem_nil
  · refine returns_enqueueLocked e span (m := { m with chip := m.chip.acquire (.waiters e) })
      ?_ ?_ <;>
    · rw [Chip.held_acquire, free]
      nofun

/-- A wait that finds the latch clear comes to its window, and has done nothing so far. -/
theorem enqueueWait_apply_of_clear {e : EventId} {span : TimeSpan} {m : Machine G}
    (managed : m.kernel.manages m.chip.current = true) (notNegative : ¬ span.isNegative)
    (clear : m.kernel.isRaised e = false) :
    enqueueWait e span m = .window { m with chip := m.chip.mask } .masked
      (enqueueRest e m.chip.current span m.chip.interrupts) := by
  simp only [enqueueWait, enqueueWaitUndoing]
  rw [if_neg notNegative, bind_of_done (tryConsume_apply e m),
    Effect.tryConsume_of_clear _ (Bool.eq_false_iff.mp clear)]
  dsimp only
  rw [if_neg Bool.false_ne_true, bind_of_done (currentCore_apply managed)]
  rfl

/-- **The first half of a wait.** -/
theorem outcome?_enqueueWait (e : EventId) (span : TimeSpan) {m : Machine G}
    (managed : m.kernel.manages m.chip.current = true) (free : m.chip.held = []) :
    (enqueueWait e span m).outcome? =
      some (Effect.enqueueWait m.chip.current e span m.kernel) := by
  by_cases hn : span.isNegative
  · simp only [enqueueWait, enqueueWaitUndoing, Effect.enqueueWait]
    rw [if_pos hn, if_pos hn]
    rfl
  · by_cases hr : m.kernel.isRaised e
    · simp only [enqueueWait, enqueueWaitUndoing, Effect.enqueueWait]
      rw [if_neg hn, if_neg hn, bind_of_done (tryConsume_apply e m),
        Effect.tryConsume_of_raised _ hr]
      rfl
    · rw [Effect.enqueueWait_of_not_negative _ _ _ hn,
        enqueueWait_apply_of_clear managed hn (Bool.eq_false_iff.mpr hr)]
      exact outcome?_enqueueRest e span m.chip.interrupts
        (m := { m with chip := m.chip.mask }) free

/-- **The second half of a wait.** -/
theorem outcome?_completeWait (e : EventId) (w : WaitId) {m : Machine G}
    (free : m.chip.held = []) :
    (completeWait e w m).outcome? = some (Effect.completeWait e w m.kernel) := by
  refine Does.outcome? (does_completeWait e w) rfl (returns_locked ?_ ?_)
  · rw [free]
    exact List.not_mem_nil
  · rw [bind_of_done (unqueue_apply e w _), bind_of_done (read_apply _ _)]
    split
    · exact Run.returns_done _ _
    · exact Run.returns_done _ _

end Call

end Nucleus
