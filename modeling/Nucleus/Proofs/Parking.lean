import Nucleus.Proofs.Signals
import Nucleus.Proofs.StartKill

/-!
# Threads that are put aside

A thread that is put aside stays where it stands until it is woken, until its tick has come, or
until it is killed: whatever else happens, on its own core or on another, does not bring it back.

* `RunQueues.Retains` says that the queues of a core have kept a thread that was put aside, unless
  its tick has come, and `Kernel.Leaves` that every core has, and that the thread has kept its
  owner.
* `Kernel.leaves_apply`: every change leaves an owned thread, unless it wakes it or kills it.
* `Kernel.Bides` says of a thread that was put aside on a core, until a tick or without a deadline,
  how it stands since. It goes on so along a path on which nobody is woken, and while others are put
  aside: `Kernel.Bides.path`, `Kernel.Bides.setAside`.
* `Kernel.BidesUnless` adds that a signal may have marked an entry of the thread instead, and
  `Kernel.BidesUnless.signalEvent` says that signals change nothing else about it.
-/

namespace Nucleus

variable {G : Guest}

/-! ## The queues of a core -/

namespace DelayedQueue

theorem mem_insert {s x : Sleeper} {q : DelayedQueue} : x ∈ q.insert s ↔ x = s ∨ x ∈ q := by
  induction q with
  | nil => simp [insert]
  | cons y q ih =>
    simp only [insert]
    split
    · simp
    · simp only [List.mem_cons, ih]
      grind

/-- Taking out a thread keeps the sleepers of others. -/
theorem mem_remove_of_ne {s : Sleeper} {u : ThreadId} {q : DelayedQueue} (h : u ≠ s.thread)
    (hs : s ∈ q) : s ∈ q.remove u := by
  refine (List.mem_eraseP_of_neg ?_).mpr hs
  simpa using h.symm

/-- A sleeper who is not handed out at a tick sleeps on. -/
theorem mem_later_or_le {s : Sleeper} {q : DelayedQueue} (tick : Nat) (hs : s ∈ q) :
    s ∈ q.later tick ∨ s.wake ≤ tick := by
  rw [← List.takeWhile_append_dropWhile (l := q) (p := fun s => decide (s.wake ≤ tick)),
    List.mem_append] at hs
  rcases hs with hs | hs
  · have := List.all_eq_true.mp (List.all_takeWhile (l := q)) s hs
    exact .inr (of_decide_eq_true this)
  · exact .inl hs

end DelayedQueue

namespace RunQueues

/-- The queues have kept a thread that was put aside, unless its tick has come. -/
structure Retains (q q' : RunQueues) (t : ThreadId) : Prop where
  /-- who stands parked without a deadline still does -/
  suspended : t ∈ q.suspended → t ∈ q'.suspended
  /-- who sleeps still does, or the tick has come -/
  delayed : ∀ wake, ⟨t, wake⟩ ∈ q.delayed → ⟨t, wake⟩ ∈ q'.delayed ∨ wake ≤ q'.ticks
  /-- no tick is lost -/
  ticks : q.ticks ≤ q'.ticks

variable {q q' : RunQueues} {t u : ThreadId}

/-- A change of the rotation or of the running slot. -/
theorem retains_of_eq (hs : q'.suspended = q.suspended) (hd : q'.delayed = q.delayed)
    (ht : q'.ticks = q.ticks) : q.Retains q' t where
  suspended := by rw [hs]; exact id
  delayed wake := by rw [hd]; exact .inl
  ticks := Nat.le_of_eq ht.symm

theorem Retains.trans {q'' : RunQueues} (h : q.Retains q' t) (h' : q'.Retains q'' t) :
    q.Retains q'' t where
  suspended hm := h'.suspended (h.suspended hm)
  delayed wake hm := by
    rcases h.delayed wake hm with hm | hle
    · exact h'.delayed wake hm
    · exact .inr (Nat.le_trans hle h'.ticks)
  ticks := Nat.le_trans h.ticks h'.ticks

theorem retains_expel (hne : u ≠ t) : q.Retains (q.expel u) t where
  suspended hm := (List.mem_erase_of_ne hne.symm).mpr hm
  delayed _ hm := .inl (DelayedQueue.mem_remove_of_ne hne hm)
  ticks := Nat.le_refl _

theorem retains_unpark (hne : u ≠ t) : q.Retains (q.unpark u) t := by
  simp only [unpark]
  split
  · exact ⟨id, fun _ hm => .inl (DelayedQueue.mem_remove_of_ne hne hm), Nat.le_refl _⟩
  · exact ⟨(List.mem_erase_of_ne hne.symm).mpr, fun _ => .inl, Nat.le_refl _⟩

/-- A tick hands out those whose tick it is, and nobody else. -/
theorem retains_tick (q : RunQueues) : q.Retains { q with
    ticks := nextTick q.ticks
    delayed := q.delayed.later (nextTick q.ticks) } t where
  suspended := id
  delayed _ hm := DelayedQueue.mem_later_or_le _ hm
  ticks := Nat.le_succ _

end RunQueues

/-! ## The kernel -/

namespace Kernel

/-- The thread has kept its owner, and every core has kept it where it was put aside, unless its
tick has come. -/
structure Leaves (k k' : Kernel G) (t : ThreadId) : Prop where
  /-- it has kept its owner -/
  owner : k'.ownerOf t = k.ownerOf t
  /-- the queues have kept it -/
  queues : ∀ c, (k.queues c).Retains (k'.queues c) t

variable {k k' k'' : Kernel G} {t u : ThreadId} {c : CoreId}

theorem leaves_of_eq (ho : k'.ownerOf t = k.ownerOf t) (hq : ∀ c, k'.queues c = k.queues c) :
    k.Leaves k' t where
  owner := ho
  queues c := by
    rw [hq]
    exact RunQueues.retains_of_eq rfl rfl rfl

theorem Leaves.refl (k : Kernel G) (t : ThreadId) : k.Leaves k t := leaves_of_eq rfl fun _ => rfl

theorem Leaves.trans (h : k.Leaves k' t) (h' : k'.Leaves k'' t) : k.Leaves k'' t :=
  ⟨h'.owner.trans h.owner, fun c => (h.queues c).trans (h'.queues c)⟩

theorem leaves_setState (u : ThreadId) (s : ThreadState) : k.Leaves (k.setState u s) t :=
  leaves_of_eq (k.ownerOf_setState u t s) fun _ => rfl

theorem leaves_updateCore (c : CoreId) {f : Core G → Core G}
    (hf : ∀ core, (f core).queues = core.queues) : k.Leaves (k.updateCore c f) t :=
  leaves_of_eq rfl (k.queues_updateCore hf)

theorem leaves_updateQueues (c : CoreId) {f : RunQueues → RunQueues}
    (hf : (k.queues c).Retains (f (k.queues c)) t) : k.Leaves (k.updateQueues c f) t := by
  refine ⟨rfl, fun d => ?_⟩
  cases hc : k.manages c with
  | false =>
    rw [updateQueues, k.updateCore_of_not_manages hc]
    exact RunQueues.retains_of_eq rfl rfl rfl
  | true =>
    rw [k.queues_updateQueues c d f hc]
    split
    next hcd => exact hcd ▸ hf
    next => exact RunQueues.retains_of_eq rfl rfl rfl

theorem leaves_makeReady (c : CoreId) (u : ThreadId) : k.Leaves (k.makeReady c u) t := by
  refine (leaves_setState u .ready).trans (leaves_updateQueues c ?_)
  exact RunQueues.retains_of_eq rfl rfl rfl

theorem leaves_makeAllReady (c : CoreId) (due : List Sleeper) :
    k.Leaves (k.makeAllReady c due) t := by
  induction due generalizing k with
  | nil => exact .refl k t
  | cons s due ih => exact (leaves_makeReady c s.thread).trans ih

theorem leaves_advance (c : CoreId) : k.Leaves (k.advance c) t := by
  rw [advance_eq]
  exact (leaves_updateQueues c (RunQueues.retains_tick _)).trans (leaves_makeAllReady c _)

theorem leaves_wake (c : CoreId) (hne : u ≠ t) : k.Leaves (k.wake c u) t :=
  (leaves_updateQueues c (RunQueues.retains_unpark hne)).trans (leaves_makeReady c u)

theorem leaves_switchTo (c : CoreId) (u : ThreadId) : k.Leaves (k.switchTo c u) t := by
  refine (leaves_setState u .running).trans (leaves_updateQueues c ?_)
  exact RunQueues.retains_of_eq rfl rfl rfl

/-- Putting a thread aside takes nobody out of the queues where threads are put aside. -/
theorem leaves_setAside (c : CoreId) (wake : Option Nat) : k.Leaves (k.setAside c wake) t := by
  simp only [setAside]
  split
  · exact .refl k t
  · refine (leaves_setState _ _).trans (leaves_updateQueues c ?_)
    exact ⟨List.mem_append_left _, fun _ => .inl, Nat.le_refl _⟩
  · refine (leaves_setState _ _).trans (leaves_updateQueues c ?_)
    exact ⟨id, fun _ hm => .inl (DelayedQueue.mem_insert.mpr (.inr hm)), Nat.le_refl _⟩

theorem leaves_setOwner (o : Option CoreId) (hne : u ≠ t) : k.Leaves (k.setOwner u o) t :=
  leaves_of_eq (k.ownerOf_setOwner_of_ne o hne) fun _ => rfl

/-- A thread with an owner is not started again. -/
theorem leaves_startThread (c : CoreId) (u : ThreadId) (ho : k.ownerOf t ≠ none) :
    k.Leaves (Effect.startThread c u k).1 t := by
  simp only [Effect.startThread]
  split
  · exact .refl k t
  · split
    next hu =>
      have hne : u ≠ t := by
        rintro rfl
        exact ho (Option.isNone_iff_eq_none.mp hu)
      exact (leaves_setOwner _ hne).trans (leaves_makeReady c u)
    next => exact .refl k t

theorem leaves_killThread (c : CoreId) (hne : u ≠ t) :
    k.Leaves (Effect.killThread c u k).1 t := by
  have hkill : k.Leaves ((k.setOwner u none).terminate c u) t :=
    ((leaves_setOwner none hne).trans (leaves_updateQueues c (RunQueues.retains_expel hne))).trans
      (leaves_setState u .terminated)
  simp only [Effect.killThread]
  split
  · dsimp only
    split
    · refine hkill.trans (leaves_updateCore c ?_)
      exact fun _ => rfl
    · exact hkill
  · exact .refl k t

theorem leaves_turn (c : CoreId) (context : Context) :
    k.Leaves (Effect.yieldThread c context k).1 t := by
  simp only [Effect.yieldThread, rotate]
  cases (k.queues c).successor with
  | none => exact .refl k t
  | some next =>
    refine Leaves.trans ?_ (leaves_switchTo c next)
    exact leaves_of_eq (k.ownerOf_interruptRunning c context t)
      (k.queues_interruptRunning c context)

theorem leaves_bootstrap (c : CoreId) (ho : k.ownerOf t ≠ none) :
    k.Leaves (Effect.install c (Effect.prepare c k)).1 t := by
  have hmark : k.Leaves (k.updateCore c fun core => { core with started := true }) t := by
    refine leaves_updateCore c ?_
    exact fun _ => rfl
  have hprepare : k.Leaves (Effect.prepare c k) t := by
    simp only [Effect.prepare, Effect.bringIdle]
    split
    · exact hmark
    · exact hmark.trans (leaves_startThread c _ ho)
  refine hprepare.trans ?_
  simp only [Effect.install, Effect.switchFirst]
  cases ((Effect.prepare c k).queues c).ready.head? with
  | none => exact .refl _ t
  | some next =>
    refine (leaves_switchTo c next).trans (leaves_updateCore c ?_)
    exact fun _ => rfl

/-- **Every change leaves an owned thread where it is put aside**, unless it wakes it or kills it.
-/
theorem leaves_apply {ch : Change G} (ho : k.ownerOf t ≠ none) (enabled : ch.Enabled k)
    (hkill : ∀ c, ch ≠ .kill c t) (hwake : ∀ c, ch ≠ .wake c t) : k.Leaves (ch.apply k) t := by
  cases ch with
  | start c u =>
    have hne : u ≠ t := by
      rintro rfl
      exact ho enabled.2.2
    exact (leaves_setOwner _ hne).trans (leaves_makeReady c u)
  | kill c u => exact leaves_killThread c fun hu => hkill c (hu ▸ rfl)
  | wake c u => exact leaves_wake c fun hu => hwake c (hu ▸ rfl)
  | advance c => exact leaves_advance c
  | turn c context => exact leaves_turn c context
  | bootstrap c => exact leaves_bootstrap c ho
  | addThread th =>
    refine leaves_of_eq ?_ fun _ => rfl
    obtain ⟨d, hd⟩ := Option.ne_none_iff_exists'.mp ho
    dsimp only [Change.apply]
    rw [ownerOf_addThread, if_neg (Nat.ne_of_lt (lt_length_of_ownerOf hd))]
  | adjust u f =>
    exact leaves_of_eq (k.ownerOf_updateThread (fun th => (enabled th).2) t) fun _ => rfl
  | defer c d => exact leaves_updateCore c fun _ => rfl
  | undefer c => exact leaves_updateCore c fun _ => rfl
  | setHandler c irq h => exact leaves_updateCore c fun _ => by cases irq <;> rfl
  | addEvent | setRaised | setWaiters | addWait | updateWait | setObjects =>
    exact leaves_of_eq rfl fun _ => rfl

/-! ## Biding -/

/-- How a thread stands that was put aside on a core: it is where it was put, or its tick has come,
or it has ended. -/
inductive Bides (k : Kernel G) (t : ThreadId) (c : CoreId) : Option Nat → Prop where
  /-- it has ended -/
  | ended {deadline : Option Nat} (state : k.stateOf t = .terminated) : Bides k t c deadline
  /-- it stands parked -/
  | parked (owner : k.ownerOf t = some c) (mem : t ∈ (k.queues c).suspended) : Bides k t c none
  /-- it sleeps -/
  | asleep {wake : Nat} (owner : k.ownerOf t = some c) (mem : ⟨t, wake⟩ ∈ (k.queues c).delayed) :
    Bides k t c (some wake)
  /-- its tick has come -/
  | due {wake : Nat} (owner : k.ownerOf t = some c) (tick : wake ≤ (k.queues c).ticks) :
    Bides k t c (some wake)

/-- A thread that is put aside bides. -/
theorem bides_setAside (deadline : Option Nat) (hr : (k.queues c).running = some t)
    (ho : k.ownerOf t = some c) : (k.setAside c deadline).Bides t c deadline := by
  have hc : k.manages c = true := manages_of_running hr
  have howner : (k.setAside c deadline).ownerOf t = some c :=
    ((moves_setAside hr).owner (lt_length_of_ownerOf ho)).trans ho
  cases deadline with
  | none =>
    refine .parked howner ?_
    simp only [setAside]
    rw [hr]
    dsimp only [suspend]
    rw [queues_updateQueues (k.setState t _) c c _ hc, if_pos rfl]
    exact List.mem_append_right _ (List.mem_singleton_self t)
  | some wake =>
    refine .asleep howner ?_
    simp only [setAside]
    rw [hr]
    dsimp only [sleep]
    rw [queues_updateQueues (k.setState t _) c c _ hc, if_pos rfl]
    exact DelayedQueue.mem_insert.mpr (.inl rfl)

namespace Bides

variable {deadline : Option Nat}

/-- A thread that is left where it is bides, if it does not come back to life. -/
theorem of_leaves (h : k.Bides t c deadline) (hl : k.Leaves k' t)
    (hs : k.stateOf t = .terminated → k'.stateOf t = .terminated) : k'.Bides t c deadline := by
  cases h with
  | ended state => exact .ended (hs state)
  | parked owner mem => exact .parked (hl.owner.trans owner) ((hl.queues c).suspended mem)
  | asleep owner mem =>
    have howner := hl.owner.trans owner
    rcases (hl.queues c).delayed _ mem with hmem | htick
    · exact .asleep howner hmem
    · exact .due howner htick
  | due owner tick => exact .due (hl.owner.trans owner) (Nat.le_trans tick (hl.queues c).ticks)

/-- What is not about threads and cores. -/
theorem of_eq (h : k.Bides t c deadline) (ht : k'.threads = k.threads) (hc : k'.cores = k.cores) :
    k'.Bides t c deadline := by
  have hstate : k'.stateOf t = k.stateOf t := by
    simp only [stateOf]
    rw [ht]
  refine h.of_leaves (leaves_of_eq ?_ fun d => ?_) fun hs => hstate.trans hs
  · simp only [ownerOf]
    rw [ht]
  · simp only [queues]
    rw [hc]

theorem owner_or_ended (h : k.Bides t c deadline) :
    k.ownerOf t = some c ∨ k.stateOf t = .terminated := by
  cases h with
  | ended state => exact .inr state
  | parked owner | asleep owner | due owner => exact .inl owner

/-- Every change but waking the thread lets it bide. -/
theorem apply (h : k.Bides t c deadline) (hp : k.Placed t) (ht : t < k.threads.length)
    {ch : Change G} (enabled : ch.Enabled k) (hwake : ∀ d, ch ≠ .wake d t) :
    (ch.apply k).Bides t c deadline := by
  have hended := (hp.apply enabled).ended
  rcases h.owner_or_ended with ho | hs
  · by_cases hkill : ch = .kill c t
    · subst hkill
      exact .ended (killed_of_owned ho).2
    · refine h.of_leaves (leaves_apply (by rw [ho]; nofun) enabled (fun d hd => hkill ?_) hwake)
        fun hs => (hended hs ht).1
      -- who kills the thread is its owner
      subst hd
      have := enabled.2
      rw [ho] at this
      rw [Option.some.inj this]
  · exact .ended (hended hs ht).1

/-- **Along a path on which nobody is woken**, a thread bides. -/
theorem path {scope : Scope} (h : k.Bides t c deadline) (hp : k.Placed t)
    (ht : t < k.threads.length) (path : Path scope.Admits k k') (hw : scope ≠ .waking)
    (he : ∀ e, scope ≠ .event e) : k'.Bides t c deadline := by
  refine (path.keeps (I := fun k => k.Bides t c deadline ∧ k.Placed t ∧ t < k.threads.length)
    (fun k ch admitted enabled hk => ?_) ⟨h, hp, ht⟩).1
  obtain ⟨h, hp, ht⟩ := hk
  have hcarries := hp.apply enabled
  refine ⟨h.apply hp ht enabled fun d hd => ?_, hcarries.placed,
    Nat.lt_of_lt_of_le ht hcarries.threads⟩
  subst hd
  rcases admitted with hs | ⟨e, hs⟩
  · exact hw hs
  · exact he e hs

/-- Another thread is put aside. -/
theorem setAside {d : CoreId} (h : k.Bides t c deadline) (wake : Option Nat)
    (hr : (k.queues d).running ≠ some t) : (k.setAside d wake).Bides t c deadline := by
  refine h.of_leaves (leaves_setAside d wake) fun hs => ?_
  cases hrun : (k.queues d).running with
  | none =>
    simp only [Kernel.setAside]
    rw [hrun]
    exact hs
  | some u =>
    have hne : u ≠ t := fun hu => hr (hu ▸ hrun)
    exact ((moves_setAside hrun).state_of_ne t hne).trans hs

/-- What the first half of a wait does besides putting a thread aside is not about threads. -/
theorem queueAside {d : CoreId} {span : TimeSpan}
    (h : (k.setAside d (Effect.deadline k d span)).Bides t c deadline) (e : EventId)
    (u : ThreadId) : (Effect.queueAside e d span u k).Bides t c deadline := by
  have hyield : (Effect.requestYield d _).Bides t c deadline :=
    h.of_leaves (leaves_updateCore d fun _ => rfl) id
  exact hyield.of_eq rfl rfl

/-- Another thread is woken. -/
theorem undelayThread (h : k.Bides t c deadline) (hne : u ≠ t) :
    (Effect.undelayThread u k).1.Bides t c deadline := by
  simp only [Effect.undelayThread]
  split
  · exact h
  next d _ =>
    simp only [Effect.undelay]
    split
    next hparked =>
      refine h.of_leaves (leaves_wake d hne) fun hs => ?_
      exact ((moves_wake (manages_of_isParked hparked) u).state_of_ne t hne).trans hs
    next => exact h

/-- A thread that bides and runs again has a deadline, and it has passed. -/
theorem due_of_running (h : k.Bides t c deadline) (hp : k.Placed t)
    (hs : k.stateOf t = .running) :
    ∃ wake, deadline = some wake ∧ k.ownerOf t = some c ∧ wake ≤ (k.queues c).ticks := by
  -- a running thread stands in the rotation, so it stands nowhere else
  have hqueue {i : Queue} (hm : t ∈ (k.queues c).threads i) : i = .ready := by
    have := (hp.of_mem hm).2
    rw [hs] at this
    cases this
    rfl
  cases h with
  | ended state =>
    rw [hs] at state
    cases state
  | parked _ mem => cases hqueue (i := .suspended) mem
  | asleep _ mem => cases hqueue (i := .delayed) (List.mem_map_of_mem mem)
  | due owner tick => exact ⟨_, rfl, owner, tick⟩

end Bides

/-! ## Signals -/

/-- The thread of a wait entry. -/
def entryThread (k : Kernel G) (w : WaitId) : Option ThreadId := k.waits[w]?.map (·.thread)

/-- Marks do not change whose an entry is. -/
theorem entryThread_modify {w : WaitId} {f : WaitEntry → WaitEntry}
    (hf : ∀ entry, (f entry).thread = entry.thread) (h : k'.waits = k.waits.modify w f)
    (v : WaitId) : k'.entryThread v = k.entryThread v := by
  simp only [entryThread]
  rw [h, List.getElem?_modify]
  cases k.waits[v]? with
  | none => rfl
  | some entry =>
    simp only [Option.map_eq_map, Option.map_some]
    split
    · rw [hf]
    · rfl

/-- The thread bides, unless the entry is marked. -/
def BidesUnless (k : Kernel G) (w : WaitId) (t : ThreadId) (c : CoreId) (deadline : Option Nat) :
    Prop :=
  k.isSignaled w = true ∨ k.Bides t c deadline

end Kernel

namespace Effect

/-- **What a signal keeps.** What every release of a waiter keeps, and what is not about events. -/
theorem signalEvent_keeps {I : Kernel G → Prop} (k : Kernel G) (e : EventId)
    (release : ∀ k', ∀ w ∈ k.waitersOf e, I k' → I (Effect.release w k').1)
    (events : ∀ k' f, I k' → I (k'.updateEvent e f)) (hk : I k) : I (signalEvent e k) := by
  have hone (waiters : WaitQueue) (hw : ∀ w ∈ waiters, w ∈ k.waitersOf e) (k' : Kernel G)
      (hk : I k') : I (releaseOne e waiters k').1 := by
    induction waiters generalizing k' with
    | nil => exact hk
    | cons w rest ih =>
      rw [List.forall_mem_cons] at hw
      have hw' := release _ w hw.1 (events k' (fun ev => { ev with waiters := rest }) hk)
      simp only [releaseOne]
      split
      · exact hw'
      · exact ih hw.2 _ hw'
  have hall (waiters : WaitQueue) (hw : ∀ w ∈ waiters, w ∈ k.waitersOf e) (k' : Kernel G)
      (hk : I k') : I (releaseAll waiters k') := by
    induction waiters generalizing k' with
    | nil => exact hk
    | cons w rest ih =>
      rw [List.forall_mem_cons] at hw
      exact ih hw.2 _ (release k' w hw.1 hk)
  unfold signalEvent
  split
  · have hk' := hone _ (fun _ => id) k hk
    dsimp only
    split
    · exact hk'
    · exact events _ _ hk'
  · exact hall _ (fun _ => id) _ (events _ _ (events _ _ hk))

end Effect

namespace Kernel.BidesUnless

variable {k : Kernel G} {v w : WaitId} {t : ThreadId} {c : CoreId} {deadline : Option Nat}

/-- A waiter is released: the entry is marked by it, or it is a waiter of another thread. -/
theorem release (h : k.BidesUnless w t c deadline) (hw : w < k.waits.length)
    (hv : k.entryThread v = some t → v = w) :
    (Effect.release v k).1.BidesUnless w t c deadline := by
  by_cases hvw : v = w
  · exact .inl (Effect.isSignaled_release k v (.inl ⟨hvw, hw⟩))
  · rcases h with hs | hb
    · exact .inl (Effect.isSignaled_release k v (.inr hs))
    · refine .inr ?_
      have hb' : (k.updateWait v WaitEntry.signal).Bides t c deadline := hb.of_eq rfl rfl
      have hthread : (k.updateWait v WaitEntry.signal).entryThread v = k.entryThread v :=
        entryThread_modify (w := v) (f := WaitEntry.signal) (fun _ => rfl) rfl v
      simp only [Effect.release]
      split
      · exact hb'
      next entry hentry =>
        refine hb'.undelayThread fun ht => hvw (hv ?_)
        rw [← hthread, entryThread, hentry, ← ht]
        rfl

/-- **A signal.** If nobody but the entry waits for the thread in the queue of the event, the thread
bides, or the entry is marked. -/
theorem signalEvent {e : EventId} (h : k.BidesUnless w t c deadline) (hw : w < k.waits.length)
    (hq : ∀ v ∈ k.waitersOf e, k.entryThread v = some t → v = w) :
    (Effect.signalEvent e k).BidesUnless w t c deadline := by
  refine (Effect.signalEvent_keeps (I := fun k' => k'.BidesUnless w t c deadline ∧
    w < k'.waits.length ∧ ∀ v, k'.entryThread v = k.entryThread v) k e
    (fun k' v hv hk' => ?_) (fun k' f hk' => ?_) ⟨h, hw, fun _ => rfl⟩).1
  · obtain ⟨h', hw', hthreads⟩ := hk'
    have hwaits := (Effect.tables_release k' v).2
    refine ⟨h'.release hw' fun ht => hq v hv ((hthreads v).symm.trans ht), ?_, fun u => ?_⟩
    · rw [hwaits]
      exact Nat.lt_of_lt_of_eq hw' (List.length_modify ..).symm
    · refine (entryThread_modify ?_ hwaits u).trans (hthreads u)
      exact fun _ => rfl
  · obtain ⟨h', hw', hthreads⟩ := hk'
    exact ⟨h'.imp_right fun hb => hb.of_eq rfl rfl, hw', hthreads⟩

end Kernel.BidesUnless

end Nucleus
