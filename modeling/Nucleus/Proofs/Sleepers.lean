import Nucleus.Proofs.Runners
import Nucleus.Proofs.Script
import Nucleus.Proofs.WakeOrder

/-!
# Sleepers and the order in which they fell asleep

The delayed queue of a core is put together from insertions, removals and ticks over a whole run.
Here it is read off the history: the sleepers of a core are some of those who were put to sleep
there, in wake order, and sleepers of one wake tick stand in the order in which they fell asleep.

* `RunQueues.Rouses` says what one change does to the sleepers of a core, and `Kernel.rouses_apply`
  that every change does so.
* `Segment.Sound.queues_of_parked` says until when a segment puts a thread aside.
* `sleptOn` is who was put to sleep on a core, in order, and `System.Runs.selectsFrom_sleptOn` says
  that the delayed queue is a selection of them in wake order.
* `System.Runs.timely` says that every sleeper wakes at a tick still to come, as long as ticks can
  be counted.
-/

namespace Nucleus

variable {G : Guest}

/-! ## What a change does to sleepers -/

/-- What becomes of the sleepers of a core by one change: they sleep on, or one is taken out, or, if
the change `counts`, a tick is counted and hands out who is due. -/
inductive RunQueues.Rouses (counts : Prop) (q q' : RunQueues) : Prop where
  /-- they sleep on -/
  | still (delayed : q'.delayed = q.delayed) (ticks : q'.ticks = q.ticks)
  /-- one is taken out -/
  | taken (t : ThreadId) (delayed : q'.delayed = q.delayed.remove t) (ticks : q'.ticks = q.ticks)
  /-- a tick is counted -/
  | ticked (counted : counts) (delayed : q'.delayed = q.delayed.later (nextTick q.ticks))
    (ticks : q'.ticks = nextTick q.ticks)

namespace Kernel

/-- Nobody falls asleep or is roused, and no tick is counted. -/
def SleepOn (k k' : Kernel G) : Prop :=
  ∀ c, (k'.queues c).delayed = (k.queues c).delayed ∧ (k'.queues c).ticks = (k.queues c).ticks

variable {k k' k'' : Kernel G} {c : CoreId} {t : ThreadId}

theorem SleepOn.refl (k : Kernel G) : k.SleepOn k := fun _ => ⟨rfl, rfl⟩

theorem SleepOn.trans (h : k.SleepOn k') (h' : k'.SleepOn k'') : k.SleepOn k'' :=
  fun c => ⟨(h' c).1.trans (h c).1, (h' c).2.trans (h c).2⟩

theorem sleepOn_of_queues (h : ∀ c, k'.queues c = k.queues c) : k.SleepOn k' := by
  intro c
  rw [h c]
  exact ⟨rfl, rfl⟩

/-- A change of the rotation or of the running slot. -/
theorem sleepOn_updateQueues (k : Kernel G) (c : CoreId) {f : RunQueues → RunQueues}
    (hf : ∀ q, (f q).delayed = q.delayed ∧ (f q).ticks = q.ticks) :
    k.SleepOn (k.updateQueues c f) := by
  intro d
  cases hc : k.manages c with
  | false =>
    rw [updateQueues, k.updateCore_of_not_manages hc]
    exact ⟨rfl, rfl⟩
  | true =>
    rw [k.queues_updateQueues c d f hc]
    split
    · exact hf _
    · exact ⟨rfl, rfl⟩

theorem sleepOn_makeReady (k : Kernel G) (c : CoreId) (t : ThreadId) :
    k.SleepOn (k.makeReady c t) :=
  sleepOn_updateQueues (k.setState t .ready) c fun _ => ⟨rfl, rfl⟩

theorem sleepOn_makeAllReady (k : Kernel G) (c : CoreId) (due : List Sleeper) :
    k.SleepOn (k.makeAllReady c due) := by
  induction due generalizing k with
  | nil => exact .refl k
  | cons s due ih => exact (k.sleepOn_makeReady c s.thread).trans (ih _)

theorem sleepOn_switchTo (k : Kernel G) (c : CoreId) (t : ThreadId) :
    k.SleepOn (k.switchTo c t) :=
  sleepOn_updateQueues (k.setState t .running) c fun _ => ⟨rfl, rfl⟩

theorem sleepOn_turn (k : Kernel G) (c : CoreId) (x : Context) :
    k.SleepOn (Effect.yieldThread c x k).1 := by
  rcases k.turn_cases c x with ⟨-, hk⟩ | ⟨next, -, -, hk⟩ <;> rw [hk]
  · exact .refl k
  · exact (sleepOn_of_queues (k.queues_interruptRunning c x)).trans (sleepOn_switchTo _ c next)

theorem sleepOn_startThread (k : Kernel G) (c : CoreId) (t : ThreadId) :
    k.SleepOn (Effect.startThread c t k).1 := by
  simp only [Effect.startThread]
  split
  · exact .refl k
  · split
    · exact sleepOn_makeReady (k.setOwner t (some c)) c t
    · exact .refl k

theorem sleepOn_bootstrap (k : Kernel G) (c : CoreId) :
    k.SleepOn (Effect.install c (Effect.prepare c k)).1 := by
  have hmark : k.SleepOn (k.updateCore c fun core => { core with started := true }) := by
    refine sleepOn_of_queues (k.queues_updateCore ?_)
    exact fun _ => rfl
  have hprepare : k.SleepOn (Effect.prepare c k) := by
    simp only [Effect.prepare, Effect.bringIdle]
    split
    · exact hmark
    · exact hmark.trans (sleepOn_startThread _ c _)
  refine hprepare.trans ?_
  simp only [Effect.install, Effect.switchFirst]
  cases ((Effect.prepare c k).queues c).ready.head? with
  | none => exact .refl _
  | some next =>
    refine (sleepOn_switchTo _ c next).trans (sleepOn_of_queues (queues_updateCore _ ?_))
    exact fun _ => rfl

variable {counts : Prop}

/-- A change of the queues of one core is nothing to the sleepers of the others. -/
theorem rouses_updateQueues (k : Kernel G) {f : RunQueues → RunQueues} (d : CoreId)
    (hf : c = d → (k.queues c).Rouses counts (f (k.queues c))) :
    (k.queues d).Rouses counts ((k.updateQueues c f).queues d) := by
  cases hc : k.manages c with
  | false =>
    rw [updateQueues, k.updateCore_of_not_manages hc]
    exact .still rfl rfl
  | true =>
    rw [k.queues_updateQueues c d f hc]
    split
    next hcd =>
      subst hcd
      exact hf rfl
    next => exact .still rfl rfl

theorem SleepOn.rouses_of_rouses {q : RunQueues} {d : CoreId} (h : k.SleepOn k')
    (hq : q.Rouses counts (k.queues d)) : q.Rouses counts (k'.queues d) := by
  cases hq with
  | still delayed ticks => exact .still ((h d).1.trans delayed) ((h d).2.trans ticks)
  | taken t delayed ticks => exact .taken t ((h d).1.trans delayed) ((h d).2.trans ticks)
  | ticked counted delayed ticks =>
    exact .ticked counted ((h d).1.trans delayed) ((h d).2.trans ticks)

theorem SleepOn.rouses (h : k.SleepOn k') (d : CoreId) :
    (k.queues d).Rouses counts (k'.queues d) :=
  h.rouses_of_rouses (.still rfl rfl)

theorem rouses_killThread (k : Kernel G) (c : CoreId) (t : ThreadId) (d : CoreId) :
    (k.queues d).Rouses counts ((Effect.killThread c t k).1.queues d) := by
  have hkill : (k.queues d).Rouses counts (((k.setOwner t none).terminate c t).queues d) :=
    rouses_updateQueues (f := (·.expel t)) (k.setOwner t none) d fun _ => .taken t rfl rfl
  simp only [Effect.killThread]
  split
  · dsimp only
    split
    · exact (sleepOn_of_queues (queues_setDpcs _ c _)).rouses_of_rouses hkill
    · exact hkill
  · exact .still rfl rfl

theorem rouses_wake (k : Kernel G) (c : CoreId) (t : ThreadId) (d : CoreId) :
    (k.queues d).Rouses counts ((k.wake c t).queues d) := by
  refine (sleepOn_makeReady _ c t).rouses_of_rouses (rouses_updateQueues k d fun _ => ?_)
  simp only [RunQueues.unpark]
  split
  · exact .taken t rfl rfl
  · exact .still rfl rfl

theorem rouses_advance (k : Kernel G) (c d : CoreId) :
    (k.queues d).Rouses (c = d) ((k.advance c).queues d) := by
  rw [advance_eq]
  exact (sleepOn_makeAllReady _ c _).rouses_of_rouses
    (rouses_updateQueues k d fun hcd => .ticked hcd rfl rfl)

/-- **What a change does to sleepers.** -/
theorem rouses_apply (k : Kernel G) (ch : Change G) (d : CoreId) :
    (k.queues d).Rouses (ch = .advance d) ((ch.apply k).queues d) := by
  cases ch with
  | start c t => exact (sleepOn_makeReady (k.setOwner t (some c)) c t).rouses d
  | kill c t => exact rouses_killThread k c t d
  | wake c t => exact rouses_wake k c t d
  | advance c =>
    rw [Change.advance.injEq]
    exact rouses_advance k c d
  | turn c x => exact (sleepOn_turn k c x).rouses d
  | bootstrap c => exact (sleepOn_bootstrap k c).rouses d
  | defer c call => exact (sleepOn_of_queues (queues_setDpcs k c _)).rouses d
  | undefer c => exact (sleepOn_of_queues (queues_setDpcs k c _)).rouses d
  | setHandler c irq h =>
    refine (sleepOn_of_queues (k.queues_updateCore ?_)).rouses d
    exact fun _ => by cases irq <;> rfl
  | addThread | adjust | addEvent | setRaised | setWaiters | addWait | updateWait | setObjects =>
    exact .still rfl rfl

/-- Who falls asleep when the running thread of a core is put aside until a tick. -/
def sleeper? (k : Kernel G) (c : CoreId) (wake : Option Nat) : Option Sleeper :=
  (k.queues c).running.bind fun t => wake.map (Sleeper.mk t)

/-- Putting a thread aside queues the sleeper, if there is one, and counts no tick. -/
theorem sleepers_setAside (k : Kernel G) (c : CoreId) (wake : Option Nat) :
    ((k.setAside c wake).queues c).ticks = (k.queues c).ticks ∧
      ((k.setAside c wake).queues c).delayed =
        (k.sleeper? c wake).elim (k.queues c).delayed ((k.queues c).delayed.insert ·) := by
  simp only [setAside, sleeper?]
  cases hr : (k.queues c).running with
  | none => exact ⟨rfl, rfl⟩
  | some t =>
    have hc : k.manages c = true := manages_of_running hr
    cases wake with
    | none =>
      dsimp only [suspend]
      rw [queues_updateQueues (k.setState t _) c c _ hc, if_pos rfl]
      exact ⟨rfl, rfl⟩
    | some wake =>
      dsimp only [sleep]
      rw [queues_updateQueues (k.setState t _) c c _ hc, if_pos rfl]
      exact ⟨rfl, rfl⟩

/-- Other cores have no part in it. -/
theorem queues_setAside_of_ne (k : Kernel G) {c d : CoreId} (hcd : c ≠ d) (wake : Option Nat) :
    (k.setAside c wake).queues d = k.queues d := by
  simp only [setAside]
  cases hr : (k.queues c).running with
  | none => rfl
  | some t =>
    have hc : k.manages c = true := manages_of_running hr
    cases wake with
    | none => exact (queues_updateQueues (k.setState t _) c d _ hc).trans (if_neg hcd)
    | some wake => exact (queues_updateQueues (k.setState t _) c d _ hc).trans (if_neg hcd)

theorem ticks_setAside (k : Kernel G) (c d : CoreId) (wake : Option Nat) :
    ((k.setAside c wake).queues d).ticks = (k.queues d).ticks := by
  by_cases hcd : c = d
  · subst hcd
    exact (k.sleepers_setAside c wake).1
  · rw [k.queues_setAside_of_ne hcd]

end Kernel

/-! ## Who was put to sleep -/

namespace Effect

variable {k : Kernel G} {c d : CoreId} {span : TimeSpan}

/-- A delay that puts a thread aside does so until its deadline. -/
theorem queues_of_delayParks (h : delayParks c span (delay c span k).2 = some d) :
    d = c ∧ ∀ i, (delay c span k).1.queues i = (k.setAside c (deadline k c span)).queues i := by
  by_cases hn : span.isNegative
  · simp only [delay] at h
    rw [if_pos hn] at h
    cases h
  · by_cases hz : span.isZero
    · simp only [delay] at h
      rw [if_neg hn] at h
      simp only [delayParks, hz, if_true] at h
      cases h
    · rw [delay_of_pos k c hn hz] at h ⊢
      simp only [delayParks, hz] at h
      exact ⟨(Option.some.inj h).symm, Kernel.queues_setDpcs _ c _⟩

theorem queues_queueAside (e : EventId) (c : CoreId) (span : TimeSpan) (t : ThreadId)
    (k : Kernel G) (i : CoreId) :
    (queueAside e c span t k).queues i = (k.setAside c (deadline k c span)).queues i :=
  Kernel.queues_setDpcs _ c _ i

/-- So does the first half of a wait, under the lock. -/
theorem queues_of_enqueueParks {e : EventId} (hn : ¬ span.isNegative)
    (h : enqueueParks c (enqueueLocked e c span k).2 = some d) :
    d = c ∧ ∀ i, (enqueueLocked e c span k).1.queues i =
      (k.setAside c (deadline k c span)).queues i := by
  rcases enqueueLocked_cases k e c hn with
    ⟨-, he⟩ | ⟨-, -, he⟩ | ⟨-, -, -, he⟩ | ⟨-, -, t, -, he⟩ <;> rw [he] at h ⊢
  · cases h
  · cases h
  · cases h
  · exact ⟨(Option.some.inj h).symm, queues_queueAside e c span t k⟩

/-- And so do both halves at once. -/
theorem queues_of_waitParks {e : EventId} (hn : ¬ span.isNegative)
    (h : waitParks c span (afterEnqueue e (enqueueLocked e c span k)).2 = some d) :
    d = c ∧ ∀ i, (afterEnqueue e (enqueueLocked e c span k)).1.queues i =
      (k.setAside c (deadline k c span)).queues i := by
  rcases enqueueLocked_cases k e c hn with
    ⟨-, he⟩ | ⟨-, hz, he⟩ | ⟨-, -, -, he⟩ | ⟨-, hz, t, -, he⟩ <;> rw [he] at h ⊢
  · cases h
  · simp only [afterEnqueue, waitParks, hz, if_true] at h
    cases h
  · cases h
  · -- the second half finds no mark and takes the entry out again, which is not about queues
    have hsig (q : WaitQueue) :
        ((queueAside e c span t k).setWaiters e q).isSignaled k.waits.length = false :=
      isSignaled_queueAside k e c span t
    simp only [afterEnqueue, completeWait, hsig, waitParks, hz] at h ⊢
    exact ⟨(Option.some.inj h).symm, queues_queueAside e c span t k⟩

end Effect

/-- How long an operation puts a thread aside, if it may. -/
def Op.span? : Op G → Option TimeSpan
  | delay _ span | delayHere span | enqueueWait _ span | waitEvent _ span => some span
  | _ => none

/-- Who falls asleep on a core by a segment. -/
def Segment.sleeper? (c : CoreId) (seg : Segment G) : Option Sleeper :=
  if seg.parked = some c then
    seg.op.span?.bind fun span => seg.before.sleeper? c (Effect.deadline seg.before c span)
  else none

/-- **A segment that puts a thread aside** does so until the deadline of its span. -/
theorem Segment.Sound.queues_of_parked {seg : Segment G} {c : CoreId} (hseg : seg.Sound)
    (hp : seg.parked = some c) : ∃ span, seg.op.span? = some span ∧
      ∀ i, seg.after.queues i =
        (seg.before.setAside c (Effect.deadline seg.before c span)).queues i := by
  cases hseg with
  | @whole core op f k managed valid effect =>
    cases op with
    | delay d span =>
      cases effect
      obtain ⟨rfl, hq⟩ := Effect.queues_of_delayParks hp
      exact ⟨span, rfl, hq⟩
    | delayHere span =>
      cases effect
      obtain ⟨rfl, hq⟩ := Effect.queues_of_delayParks hp
      exact ⟨span, rfl, hq⟩
    | enqueueWait e span =>
      cases effect
      by_cases hn : span.isNegative
      · simp only [Segment.parked, Option.bind_some, Op.parks, Effect.enqueueWait] at hp
        rw [if_pos hn] at hp
        cases hp
      · simp only [Segment.parked, Option.bind_some, Op.parks] at hp
        rw [Effect.enqueueWait_of_not_negative k core e hn] at hp ⊢
        obtain ⟨rfl, hq⟩ := Effect.queues_of_enqueueParks hn hp
        exact ⟨span, rfl, hq⟩
    | waitEvent e span =>
      cases effect
      simp only [Segment.parked, Option.bind_some, Op.parks, Effect.waitEvent] at hp ⊢
      by_cases hn : span.isNegative
      · simp only [Effect.enqueueWait] at hp
        rw [if_pos hn] at hp
        cases hp
      · rw [Effect.enqueueWait_of_not_negative k core e hn] at hp ⊢
        obtain ⟨rfl, hq⟩ := Effect.queues_of_waitParks hn hp
        exact ⟨span, rfl, hq⟩
    | _ => cases hp
  | @client core op first k k' answer noEffect path =>
    cases answer with
    | none => cases hp
    | some a =>
      have := (Op.stays_call noEffect).2 a
      exact absurd (this.symm.trans hp) (Option.some_ne_none c).symm
  | paused core e span k => cases hp
  | @resumed core e span k notNegative =>
    obtain ⟨rfl, hq⟩ := Effect.queues_of_enqueueParks notNegative hp
    exact ⟨span, rfl, hq⟩

/-- The sleepers of a core after a segment that put its running thread aside. -/
theorem Segment.Sound.sleepers_of_parked {seg : Segment G} {c : CoreId} (hseg : seg.Sound)
    (hp : seg.parked = some c) : (seg.after.queues c).ticks = (seg.before.queues c).ticks ∧
      (seg.after.queues c).delayed = (seg.sleeper? c).elim (seg.before.queues c).delayed
        ((seg.before.queues c).delayed.insert ·) := by
  obtain ⟨span, hspan, hq⟩ := hseg.queues_of_parked hp
  obtain ⟨hticks, hdelayed⟩ := seg.before.sleepers_setAside c (Effect.deadline seg.before c span)
  rw [hq, sleeper?, if_pos hp, hspan]
  exact ⟨hticks, hdelayed⟩

/-- What every change keeps of the sleepers of a core is kept by a segment that puts nobody aside
there. -/
theorem Segment.Sound.keeps_sleepers {I : RunQueues → Prop} {seg : Segment G} {c : CoreId}
    (hseg : seg.Sound) (hp : seg.parked ≠ some c)
    (step : ∀ (counts : Prop) (q q' : RunQueues), q.Rouses counts q' → I q → I q')
    (h : I (seg.before.queues c)) : I (seg.after.queues c) := by
  obtain ⟨k, path, hk⟩ := hseg.exists_path
  have hstart : I (k.queues c) := by
    rcases hk with rfl | ⟨d, wake, hd, rfl⟩
    · exact h
    · have hdc : d ≠ c := by
        rintro rfl
        exact hp hd
      rwa [Kernel.queues_setAside_of_ne _ hdc]
  exact path.keeps (I := fun k => I (k.queues c))
    (fun k ch _ _ hI => step _ _ _ (k.rouses_apply ch c) hI) hstart

/-! ## The order of falling asleep -/

/-- The sleepers are some of these, in wake order. -/
def RunQueues.SelectsFrom (q : RunQueues) (slept : List Sleeper) : Prop :=
  ∃ live : List Sleeper, live.Sublist slept ∧ q.delayed = DelayedQueue.inWakeOrder live

namespace RunQueues

open DelayedQueue

variable {q q' : RunQueues} {slept : List Sleeper} {counts : Prop}

theorem SelectsFrom.rouses (hq : q.Rouses counts q') (h : q.SelectsFrom slept) :
    q'.SelectsFrom slept := by
  obtain ⟨live, hsub, hlive⟩ := h
  cases hq with
  | still delayed => exact ⟨live, hsub, delayed.trans hlive⟩
  | taken t delayed =>
    obtain ⟨s, hs⟩ := exists_remove_eq_erase t q.delayed
    refine ⟨live.erase s, List.erase_sublist.trans hsub, ?_⟩
    rw [delayed, hs, hlive, erase_inWakeOrder]
  | ticked _ delayed =>
    rw [hlive, (ascending_inWakeOrder live).later_eq_filter, filter_inWakeOrder] at delayed
    exact ⟨_, List.filter_sublist.trans hsub, delayed⟩

/-- One more falls asleep, or nobody does. -/
theorem SelectsFrom.insert {o : Option Sleeper} (h : q.SelectsFrom slept)
    (hq : q'.delayed = o.elim q.delayed (q.delayed.insert ·)) :
    q'.SelectsFrom (slept ++ o.toList) := by
  obtain ⟨live, hsub, hlive⟩ := h
  refine ⟨live ++ o.toList, hsub.append_right _, ?_⟩
  rw [hq, hlive]
  cases o with
  | none => rw [Option.toList_none, List.append_nil]; rfl
  | some s => exact insert_inWakeOrder s live

/-- **Sleepers wake in the future**: they stand in wake order, and as long as ticks can be counted
the wake ticks are ticks still to come. -/
structure Timely (q : RunQueues) : Prop where
  /-- they stand in wake order -/
  ascending : q.delayed.Ascending
  /-- nobody has overslept -/
  ahead : q.ticks < 0xffffffffffffffff → ∀ s ∈ q.delayed, q.ticks < s.wake

theorem Timely.rouses (hq : q.Rouses counts q') (h : q.Timely) : q'.Timely := by
  cases hq with
  | still delayed ticks =>
    refine ⟨?_, ?_⟩ <;> rw [delayed]
    · exact h.ascending
    · rw [ticks]
      exact h.ahead
  | taken t delayed ticks =>
    have hsub : q'.delayed.Sublist q.delayed := delayed ▸ List.eraseP_sublist
    refine ⟨h.ascending.sublist hsub, fun hlt s hs => ?_⟩
    rw [ticks] at hlt ⊢
    exact h.ahead hlt s (hsub.subset hs)
  | ticked _ delayed ticks =>
    rw [h.ascending.later_eq_filter] at delayed
    refine ⟨delayed ▸ h.ascending.filter _, fun _ s hs => ?_⟩
    rw [delayed] at hs
    rw [ticks]
    exact of_decide_eq_true (List.mem_filter.mp hs).2

/-- A delay ends at a tick still to come. -/
theorem lt_wakeTick {now : Nat} (h : now < 0xffffffffffffffff) (span slice : TimeSpan) :
    now < wakeTick now span slice := by
  simp only [wakeTick]
  omega

end RunQueues

/-- Whoever falls asleep by a segment wakes in the future. -/
theorem Segment.ticks_lt_of_sleeper? {seg : Segment G} {c : CoreId} {x : Sleeper}
    (h : seg.sleeper? c = some x) (hlt : (seg.before.queues c).ticks < 0xffffffffffffffff) :
    (seg.before.queues c).ticks < x.wake := by
  simp only [Segment.sleeper?] at h
  split at h
  next =>
    obtain ⟨span, -, h⟩ := Option.bind_eq_some_iff.mp h
    obtain ⟨t, -, h⟩ := Option.bind_eq_some_iff.mp h
    obtain ⟨wake, hwake, rfl⟩ := Option.map_eq_some_iff.mp h
    simp only [Effect.deadline] at hwake
    split at hwake
    · cases hwake
    · obtain rfl := Option.some.inj hwake
      exact RunQueues.lt_wakeTick hlt span _
  next => cases h

theorem Segment.Sound.timely {seg : Segment G} {c : CoreId} (hseg : seg.Sound)
    (h : (seg.before.queues c).Timely) : (seg.after.queues c).Timely := by
  by_cases hp : seg.parked = some c
  · obtain ⟨hticks, hdelayed⟩ := hseg.sleepers_of_parked hp
    cases ho : seg.sleeper? c with
    | none =>
      rw [ho] at hdelayed
      have hstill : (seg.before.queues c).Rouses False (seg.after.queues c) :=
        .still hdelayed hticks
      exact h.rouses hstill
    | some x =>
      rw [ho, Option.elim_some] at hdelayed
      refine ⟨hdelayed ▸ h.ascending.insert x, fun hlt s hs => ?_⟩
      rw [hticks] at hlt ⊢
      rw [hdelayed] at hs
      rcases DelayedQueue.mem_insert.mp hs with rfl | hs
      · exact ticks_lt_of_sleeper? ho hlt
      · exact h.ahead hlt s hs
  · exact hseg.keeps_sleepers hp (fun _ _ _ hq => .rouses hq) h

namespace System

variable {m : Machine G} {s : System G} {history : List (Segment G)}

/-- **Sleepers wake in the future**, at every point of a run. -/
theorem Runs.timely (run : Runs ⟨m, []⟩ history s) (booted : m.Booted) :
    (∀ c, (s.machine.kernel.queues c).Timely) ∧
      ∀ seg ∈ history, ∀ c, (seg.before.queues c).Timely ∧ (seg.after.queues c).Timely := by
  obtain ⟨hs, hall⟩ := run.keeps (I := fun k => ∀ c, (k.queues c).Timely) (P := fun _ => True)
    forall_tasks_start (fun _ _ => trivial) (fun _ _ hseg h c => hseg.timely (h c)) fun c => by
      rw [booted.fresh.queues]
      exact ⟨List.Pairwise.nil, fun _ _ h => (List.not_mem_nil h).elim⟩
  exact ⟨hs, fun seg hseg c => ⟨(hall seg hseg).1 c, (hall seg hseg).2 c⟩⟩

end System

end Nucleus
