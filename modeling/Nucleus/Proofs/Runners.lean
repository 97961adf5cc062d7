import Nucleus.Proofs.Latch
import Nucleus.Proofs.Script

/-!
# Who runs

A thread that runs is switched in with the core that owns it, and so no two threads of a core run at
once. A switch sees to that: it takes the thread that it finds in the slot out of its running state
before it puts another into it. Starting to schedule does not: whoever a core was switching to
before it was started goes on running, and the head of the rotation runs besides.

The two things that may go wrong are kept apart. That whoever runs is switched in somewhere,
`Kernel.RunInSlots`, is kept by everything but a bootstrap that finds another thread running. That
it is switched in with its owner, `Kernel.SlotsOwn`, is lost only where a thread stands in the
rotations of two cores.

* `Kernel.Unswitched` is the frame of all changes that switch nobody in.
* `Segment.Sound.runInSlots_iff` says when a segment keeps whoever runs in a slot.
* `one_runner_iff_boots_on` is the exact condition.
* `two_run_after_early_yields` is a run after which two threads of one core run.
-/

namespace Nucleus

variable {G : Guest}

namespace Kernel

variable {k k' : Kernel G} {t u : ThreadId} {c : CoreId}

/-- **A switch** finds nobody to switch to, or it saves the context and switches to a thread of the
rotation. -/
theorem turn_cases (k : Kernel G) (c : CoreId) (x : Context) :
    ((k.queues c).successor = none ∧ (Effect.yieldThread c x k).1 = k) ∨
    ∃ next ∈ (k.queues c).ready, (k.interruptRunning c x).manages c = true ∧
      Effect.yieldThread c x k = ((k.interruptRunning c x).switchTo c next,
        ((k.interruptRunning c x).switchTo c next).contextOf next) := by
  simp only [Effect.yieldThread, rotate]
  cases hn : (k.queues c).successor with
  | none => exact .inl ⟨rfl, rfl⟩
  | some next =>
    have hready := RunQueues.mem_ready_of_successor hn
    exact .inr ⟨next, hready, ((Adjusts.refl.interruptRunning c x).manages c).trans
      (manages_of_mem_ready hready), rfl⟩

/-! ## Changes that switch nobody in -/

/-- Slots stay as they are, and whoever runs did so before, with the same owner. -/
structure Unswitched (k k' : Kernel G) : Prop where
  /-- slots stay as they are -/
  slot : ∀ d, (k'.queues d).running = (k.queues d).running
  /-- whoever runs did so before -/
  state : ∀ t, k'.stateOf t = .running → k.stateOf t = .running
  /-- and has the owner it had -/
  owner : ∀ t, k'.stateOf t = .running → k'.ownerOf t = k.ownerOf t

namespace Unswitched

theorem refl (k : Kernel G) : k.Unswitched k := ⟨fun _ => rfl, fun _ => id, fun _ _ => rfl⟩

theorem trans {k'' : Kernel G} (h : k.Unswitched k') (h' : k'.Unswitched k'') :
    k.Unswitched k'' where
  slot d := (h'.slot d).trans (h.slot d)
  state t ht := h.state t (h'.state t ht)
  owner t ht := (h'.owner t ht).trans (h.owner t (h'.state t ht))

/-- Threads stay as they are. -/
theorem of_threads (hthreads : k'.threads = k.threads)
    (hslot : ∀ d, (k'.queues d).running = (k.queues d).running) : k.Unswitched k' := by
  refine ⟨hslot, fun t ht => ?_, fun t _ => ?_⟩
  · simp only [stateOf] at ht ⊢
    rwa [hthreads] at ht
  · simp only [ownerOf]
    rw [hthreads]

/-- A thread is moved that does not run afterwards. -/
theorem of_moves {o : Option CoreId} {s : ThreadState} (hm : k.Moves k' u o s)
    (hs : s ≠ .running) : k.Unswitched k' := by
  -- the moved thread does not run, and if there is no such thread it does not either
  have hne {t : ThreadId} (ht : k'.stateOf t = .running) : u ≠ t := by
    rintro rfl
    rcases Nat.lt_or_ge u k.threads.length with hlt | hge
    · rw [hm.state hlt] at ht
      exact hs ht
    · rw [k'.stateOf_eq_terminated_of_le (hm.length ▸ hge)] at ht
      cases ht
  exact ⟨hm.running, fun t ht => (hm.state_of_ne t (hne ht)).symm.trans ht,
    fun t ht => hm.owner_of_ne t (hne ht)⟩

theorem updateCore (k : Kernel G) (c : CoreId) {f : Core G → Core G}
    (hf : ∀ core, (f core).queues = core.queues) : k.Unswitched (k.updateCore c f) :=
  of_threads rfl fun d => by rw [queues_updateCore k hf]

theorem startThread (hc : k.manages c = true) (u : ThreadId) :
    k.Unswitched (Effect.startThread c u k).1 := by
  simp only [Effect.startThread]
  split
  · exact refl k
  · split
    · exact of_moves (moves_start hc u) (by decide)
    · exact refl k

theorem killThread (hc : k.manages c = true) (ho : k.ownerOf u = some c) :
    k.Unswitched (Effect.killThread c u k).1 := by
  have hk : k.Unswitched ((k.setOwner u none).terminate c u) :=
    of_moves (moves_kill hc u) (by decide)
  simp only [Effect.killThread]
  rw [if_pos ho]
  dsimp only
  split
  · exact hk.trans (updateCore _ c fun _ => rfl)
  · exact hk

theorem advance (k : Kernel G) (c : CoreId) : k.Unswitched (k.advance c) := by
  have hdue {t : ThreadId} (ht : (k.advance c).stateOf t = .running) :
      t ∉ DelayedQueue.threads (k.dueNext c) := by
    intro hmem
    rcases Nat.lt_or_ge t k.threads.length with hlt | hge
    · rw [k.stateOf_advance_of_mem hmem hlt] at ht
      cases ht
    · rw [stateOf_eq_terminated_of_le _ ((k.length_threads_advance c).symm ▸ hge)] at ht
      cases ht
  exact ⟨k.running_advance c, fun t ht => (k.stateOf_advance_of_not_mem (hdue ht)).symm.trans ht,
    fun t _ => k.ownerOf_advance c t⟩

theorem setAside (k : Kernel G) (c : CoreId) (wake : Option Nat) :
    k.Unswitched (k.setAside c wake) := by
  cases hr : (k.queues c).running with
  | none =>
    simp only [Kernel.setAside]
    rw [hr]
    exact refl k
  | some u =>
    refine of_moves (moves_setAside hr) ?_
    rintro ⟨⟩

theorem prepare (hc : k.manages c = true) : k.Unswitched (Effect.prepare c k) := by
  have hmark : k.Unswitched (k.updateCore c fun core => { core with started := true }) :=
    updateCore k c fun _ => rfl
  simp only [Effect.prepare, Effect.bringIdle]
  split
  · exact hmark
  · exact hmark.trans (startThread ((k.manages_updateCore c c _).trans hc) _)

end Unswitched

/-- **Only a switch and a bootstrap switch somebody in.** -/
theorem unswitched_apply {ch : Change G} (enabled : ch.Enabled k)
    (hturn : ∀ c context, ch ≠ .turn c context) (hboot : ∀ c, ch ≠ .bootstrap c) :
    k.Unswitched (ch.apply k) := by
  cases ch with
  | start c u => exact .of_moves (moves_start enabled.1 u) (by decide)
  | kill c u => exact .killThread enabled.1 enabled.2
  | wake c u => exact .of_moves (moves_wake (manages_of_isParked enabled) u) (by decide)
  | advance c => exact .advance k c
  | turn c context => exact absurd rfl (hturn c context)
  | bootstrap c => exact absurd rfl (hboot c)
  | addThread th =>
    have hne {t : ThreadId} (ht : (k.addThread th).stateOf t = .running) :
        t ≠ k.threads.length := by
      rintro rfl
      rw [stateOf_addThread, if_pos rfl, enabled.1] at ht
      cases ht
    refine ⟨fun _ => rfl, fun t ht => ?_, fun t ht => ?_⟩
    · have hold := hne ht
      dsimp only [Change.apply] at ht
      rwa [stateOf_addThread, if_neg hold] at ht
    · exact (k.ownerOf_addThread th t).trans (if_neg (hne ht))
  | adjust u f =>
    exact ⟨fun _ => rfl,
      fun t ht => (k.stateOf_updateThread (fun th => (enabled th).1) t).symm.trans ht,
      fun t _ => k.ownerOf_updateThread (fun th => (enabled th).2) t⟩
  | defer c d => exact .updateCore k c fun _ => rfl
  | undefer c => exact .updateCore k c fun _ => rfl
  | setHandler c irq h => exact .updateCore k c fun _ => by cases irq <;> rfl
  | addEvent | setRaised | setWaiters | addWait | updateWait | setObjects =>
    exact .of_threads rfl fun _ => rfl

/-! ## Whoever runs is switched in -/

/-- Whoever runs and has an owner is switched in somewhere. -/
def RunInSlots (k : Kernel G) : Prop :=
  ∀ t, k.stateOf t = .running → k.ownerOf t ≠ none → ∃ c, (k.queues c).running = some t

/-- Whoever runs and is switched in is so with its owner. -/
def SlotsOwn (k : Kernel G) : Prop :=
  ∀ c d t, (k.queues c).running = some t → k.stateOf t = .running → k.ownerOf t = some d →
    (k.queues d).running = some t

/-- Of the threads of a core only the one in its slot runs. -/
structure OneRuns (k : Kernel G) : Prop where
  /-- whoever runs is switched in with its owner -/
  slot : ∀ t c, k.stateOf t = .running → k.ownerOf t = some c → (k.queues c).running = some t
  /-- two threads of a core do not run at once -/
  alone : ∀ t u c, k.stateOf t = .running → k.stateOf u = .running → k.ownerOf t = some c →
    k.ownerOf u = some c → t = u

theorem oneRuns_iff : k.OneRuns ↔ k.RunInSlots ∧ k.SlotsOwn := by
  constructor
  · intro h
    refine ⟨fun t hs ho => ?_, fun c d t _ hs ho => h.slot t d hs ho⟩
    obtain ⟨c, hc⟩ := Option.ne_none_iff_exists'.mp ho
    exact ⟨c, h.slot t c hs hc⟩
  · rintro ⟨hrun, hown⟩
    have hslot (t : ThreadId) (c : CoreId) (hs : k.stateOf t = .running)
        (ho : k.ownerOf t = some c) : (k.queues c).running = some t := by
      obtain ⟨d, hd⟩ := hrun t hs (ho ▸ Option.some_ne_none c)
      exact hown d c t hd hs ho
    refine ⟨hslot, fun t u c ht hu hot hou => ?_⟩
    exact Option.some.inj ((hslot t c ht hot).symm.trans (hslot u c hu hou))

namespace RunInSlots

theorem unswitched (h : k.RunInSlots) (hk : k.Unswitched k') : k'.RunInSlots := by
  intro t hs ho
  obtain ⟨c, hc⟩ := h t (hk.state t hs) (hk.owner t hs ▸ ho)
  exact ⟨c, (hk.slot c).trans hc⟩

/-- Switching to a thread, when nobody is lost from the slot who runs: whoever runs there stands in
another slot as well. -/
theorem switchTo (h : k.RunInSlots) (hc : k.manages c = true)
    (hslot : ∀ t, (k.queues c).running = some t → k.stateOf t = .running → k.ownerOf t ≠ none →
      t = u ∨ ∃ d, d ≠ c ∧ (k.queues d).running = some t) : (k.switchTo c u).RunInSlots := by
  intro t hs ho
  have hrun (d : CoreId) := k.running_switchTo hc u d
  by_cases htu : u = t
  · subst htu
    exact ⟨c, (hrun c).trans (if_pos rfl)⟩
  · have hs₀ : k.stateOf t = .running := (k.stateOf_setState_of_ne .running htu).symm.trans hs
    have ho₀ : k.ownerOf t ≠ none := k.ownerOf_setState u t .running ▸ ho
    obtain ⟨d, hd⟩ := h t hs₀ ho₀
    by_cases hdc : d = c
    · subst hdc
      obtain ⟨e, he, hr⟩ := (hslot t hd hs₀ ho₀).resolve_left (Ne.symm htu)
      exact ⟨e, (hrun e).trans ((if_neg (Ne.symm he)).trans hr)⟩
    · exact ⟨d, (hrun d).trans ((if_neg (Ne.symm hdc)).trans hd)⟩

/-- **A switch takes whoever it finds in the slot out of the running state.** -/
theorem turn (h : k.RunInSlots) (c : CoreId) (context : Context) :
    (Effect.yieldThread c context k).1.RunInSlots := by
  rcases k.turn_cases c context with ⟨-, hk⟩ | ⟨next, -, hc, hk⟩ <;> rw [hk]
  · exact h
  · have hq (d : CoreId) := k.queues_interruptRunning c context d
    have hi : (k.interruptRunning c context).RunInSlots := by
      intro t hs ho
      rw [stateOf_interruptRunning] at hs
      rw [ownerOf_interruptRunning] at ho
      split at hs
      · cases hs
      · obtain ⟨d, hd⟩ := h t hs ho
        exact ⟨d, (congrArg _ (hq d)).trans hd⟩
    refine hi.switchTo hc fun t ht hs _ => ?_
    rw [hq] at ht
    rw [stateOf_interruptRunning] at hs
    split at hs
    · cases hs
    next hne => exact absurd ⟨ht, hs⟩ hne

end RunInSlots

/-! ## Starting to schedule -/

/-- A core that is about to be started claims a thread that nobody owns, if any: others stay as they
are. -/
theorem prepare_of_owned (hc : k.manages c = true) (ho : k.ownerOf t ≠ none) :
    (Effect.prepare c k).stateOf t = k.stateOf t ∧
      (Effect.prepare c k).ownerOf t = k.ownerOf t := by
  simp only [Effect.prepare, Effect.bringIdle]
  split
  · exact ⟨rfl, rfl⟩
  next idle _ =>
    simp only [Effect.startThread]
    split
    · exact ⟨rfl, rfl⟩
    · split
      next _ hnone =>
        have hne : idle ≠ t := by
          rintro rfl
          exact ho (Option.isNone_iff_eq_none.mp hnone)
        have hm := moves_start (k := k.updateCore c fun core => { core with started := true })
          ((k.manages_updateCore c c _).trans hc) idle
        exact ⟨hm.state_of_ne t hne, hm.owner_of_ne t hne⟩
      next => exact ⟨rfl, rfl⟩

/-- Slots after a core has switched to the head of its rotation. -/
theorem running_install (hc : k.manages c = true) (hu : (k.queues c).ready.head? = some u)
    (d : CoreId) : ((Effect.install c k).1.queues d).running =
      if c = d then some u else (k.queues d).running := by
  simp only [Effect.install, Effect.switchFirst]
  rw [hu]
  dsimp only
  rw [← k.running_switchTo hc u d]
  exact (Unswitched.updateCore (k.switchTo c u) c (f := fun core =>
    { core with onTick := some (.tick c) }) fun _ => rfl).slot d

/-- **Starting to schedule** keeps whoever runs in a slot if and only if a thread that is found
running in the slot is the head of the rotation, or stands in another slot as well. -/
theorem RunInSlots.install_iff (h : k.RunInSlots) (hc : k.manages c = true)
    (hu : (k.queues c).ready.head? = some u) :
    (Effect.install c k).1.RunInSlots ↔
      ∀ t, (k.queues c).running = some t → k.stateOf t = .running → k.ownerOf t ≠ none →
        t = u ∨ ∃ d, d ≠ c ∧ (k.queues d).running = some t := by
  have hslots := running_install hc hu
  have hinstall : (Effect.install c k).1 =
      (k.switchTo c u).updateCore c fun core => { core with onTick := some (.tick c) } := by
    simp only [Effect.install, Effect.switchFirst]
    rw [hu]
    rfl
  constructor
  · intro hk t ht hs ho
    by_cases htu : t = u
    · exact .inl htu
    · -- the thread runs on, and it is switched in elsewhere
      have hs' : (Effect.install c k).1.stateOf t = .running := by
        rw [hinstall]
        exact (k.stateOf_setState_of_ne .running (Ne.symm htu)).trans hs
      have ho' : (Effect.install c k).1.ownerOf t ≠ none := by
        rw [hinstall]
        exact (k.ownerOf_setState u t .running).symm ▸ ho
      obtain ⟨d, hd⟩ := hk t hs' ho'
      rw [hslots] at hd
      split at hd
      · exact absurd (Option.some.inj hd).symm htu
      next hne => exact .inr ⟨d, Ne.symm hne, hd⟩
  · intro hslot
    rw [hinstall]
    exact (h.switchTo hc hslot).unswitched (.updateCore _ c fun _ => rfl)

end Kernel

/-! ## Segments -/

/-- **A bootstrap** is refused, or it finds nobody in the rotation, or it switches to the head of
the rotation. -/
theorem Effect.bootstrap_cases (k : Kernel G) (c : CoreId) :
    (∃ why, bootstrap c k = (k, .error why)) ∨
    (∃ why, bootstrap c k = (prepare c k, .error why)) ∨
    ∃ u, ((prepare c k).queues c).ready.head? = some u ∧ bootstrap c k =
      ((install c (prepare c k)).1, .ok ((install c (prepare c k)).1.contextOf u)) := by
  simp only [bootstrap]
  split
  · exact .inl ⟨_, rfl⟩
  · simp only [install, switchFirst]
    cases ((prepare c k).queues c).ready.head? with
    | none => exact .inr (.inl ⟨_, rfl⟩)
    | some u => exact .inr (.inr ⟨u, rfl, rfl⟩)

/-- A core that was started has somebody switched in, whose context is the answer. -/
theorem Effect.bootstrap_ok {k : Kernel G} {c : CoreId} {x : Context} (hc : k.manages c = true)
    (h : (bootstrap c k).2 = .ok x) :
    ∃ u, ((bootstrap c k).1.queues c).running = some u ∧ x = (bootstrap c k).1.contextOf u := by
  rcases bootstrap_cases k c with ⟨why, hb⟩ | ⟨why, hb⟩ | ⟨u, hu, hb⟩ <;> rw [hb] at h ⊢
  · cases h
  · cases h
  · have hc' : (prepare c k).manages c = true :=
      ((Kernel.Adjusts.refl.prepare c).manages c).trans hc
    cases h
    exact ⟨u, (Kernel.running_install hc' hu c).trans (if_pos rfl), rfl⟩

/-- The core that an operation with this answer has started. -/
def Op.bootstraps : (op : Op G) → op.Result → Option CoreId
  | bootstrap c, .ok _ => some c
  | _, _ => none

/-- The core that the segment has started. -/
def Segment.bootstrapped (seg : Segment G) : Option CoreId := seg.answer.bind seg.op.bootstraps

/-- If the segment has started a core on which it found a thread running, the core goes on with that
thread; unless the thread is switched in elsewhere as well. -/
def Segment.BootsOn (seg : Segment G) : Prop :=
  ∀ c ∈ seg.bootstrapped, ∀ t ∈ (seg.before.queues c).running, seg.before.stateOf t = .running →
    seg.before.ownerOf t ≠ none →
      (seg.after.queues c).running = some t ∨
        ∃ d, d ≠ c ∧ (seg.before.queues d).running = some t

theorem Segment.bootsOn_of_bootstrapped {seg : Segment G} (h : seg.bootstrapped = none) :
    seg.BootsOn := by
  intro c hc
  rw [h] at hc
  cases hc

/-- The segment of a bootstrap is a whole one. -/
theorem Segment.Sound.of_bootstrap {seg : Segment G} {c : CoreId} (hseg : seg.Sound)
    (hop : seg.op = .bootstrap c) : seg.before.manages c = true ∧
      seg.after = (Effect.bootstrap c seg.before).1 ∧
      seg.bootstrapped =
        (Op.bootstrap c : Op G).bootstraps (Effect.bootstrap c seg.before).2 := by
  cases hseg with
  | @whole core op f k managed valid effect =>
    cases hop
    cases effect
    exact ⟨valid, rfl, rfl⟩
  | @client core op first k k' answer noEffect path =>
    cases hop
    cases noEffect
  | paused => cases hop
  | resumed => cases hop

/-- A segment is that of a bootstrap, or it is a path without one, with a thread put aside before it
or not. -/
theorem Segment.Sound.bootstrap_or {seg : Segment G} (hseg : seg.Sound) :
    (∃ c, seg.before.manages c = true ∧ seg.op = .bootstrap c ∧
      seg.after = (Effect.bootstrap c seg.before).1 ∧
      seg.bootstrapped = (Op.bootstrap c : Op G).bootstraps (Effect.bootstrap c seg.before).2) ∨
    seg.bootstrapped = none ∧ ∃ k, (k = seg.before ∨ ∃ c wake, k = seg.before.setAside c wake) ∧
      Kernel.Path (fun ch => seg.op.MayMake ch ∧ ∀ c, ch ≠ .bootstrap c) k seg.after := by
  by_cases hop : ∃ c, seg.op = .bootstrap c
  · obtain ⟨c, hop⟩ := hop
    obtain ⟨hc, hafter, hboot⟩ := hseg.of_bootstrap hop
    exact .inl ⟨c, hc, hop, hafter, hboot⟩
  · right
    have hnone : seg.bootstrapped = none := by
      obtain ⟨core, op, first, before, after, answer⟩ := seg
      cases answer with
      | none => rfl
      | some a =>
        cases op with
        | bootstrap c => exact absurd ⟨c, rfl⟩ hop
        | _ => rfl
    obtain ⟨k, path, hk⟩ := hseg.exists_path
    refine ⟨hnone, k, hk.imp_right fun ⟨c, wake, _, hk⟩ => ⟨c, wake, hk⟩,
      path.mono fun ch hch => ⟨hch, ?_⟩⟩
    rintro c rfl
    exact hop ⟨c, hch.2⟩

/-- **One segment** keeps whoever runs in a slot, unless it starts a core on which another thread
runs. -/
theorem Segment.Sound.runInSlots_iff {seg : Segment G} (hseg : seg.Sound)
    (h : seg.before.RunInSlots) : seg.after.RunInSlots ↔ seg.BootsOn := by
  rcases hseg.bootstrap_or with ⟨c, hc, -, hafter, hboot⟩ | ⟨hnone, k, hk, path⟩
  · have hprepared : seg.before.Unswitched (Effect.prepare c seg.before) := .prepare hc
    rcases Effect.bootstrap_cases seg.before c with
      ⟨why, hb⟩ | ⟨why, hb⟩ | ⟨u, hu, hb⟩ <;> rw [hb] at hafter hboot
    · rw [hafter]
      exact iff_of_true h (bootsOn_of_bootstrapped hboot)
    · rw [hafter]
      exact iff_of_true (h.unswitched hprepared) (bootsOn_of_bootstrapped hboot)
    · have hc' : (Effect.prepare c seg.before).manages c = true :=
        ((Kernel.Adjusts.refl.prepare c).manages c).trans hc
      have hslot : (seg.after.queues c).running = some u := by
        rw [hafter]
        exact (Kernel.running_install hc' hu c).trans (if_pos rfl)
      rw [hafter, (h.unswitched hprepared).install_iff hc' hu]
      -- the thread that is found running has an owner, and is not the one that is brought in
      constructor
      · intro hk d hd t ht hs ho
        obtain rfl : c = d := Option.some.inj (hboot.symm.trans hd)
        obtain ⟨hs', ho'⟩ := Kernel.prepare_of_owned hc ho
        rcases hk t ((hprepared.slot c).trans ht) (hs'.trans hs) (ho'.symm ▸ ho) with
          rfl | ⟨d, hd, hr⟩
        · exact .inl hslot
        · exact .inr ⟨d, hd, (hprepared.slot d).symm.trans hr⟩
      · intro hon t ht hs ho
        have ho₀ : seg.before.ownerOf t ≠ none := hprepared.owner t hs ▸ ho
        rcases hon c hboot t ((hprepared.slot c).symm.trans ht) (hprepared.state t hs) ho₀ with
          hr | ⟨d, hd, hr⟩
        · exact .inl (Option.some.inj (hr.symm.trans hslot))
        · exact .inr ⟨d, hd, (hprepared.slot d).trans hr⟩
  · refine iff_of_true ?_ (bootsOn_of_bootstrapped hnone)
    have hstart : k.RunInSlots := by
      rcases hk with rfl | ⟨c, wake, rfl⟩
      · exact h
      · exact h.unswitched (.setAside _ c wake)
    refine path.keeps (fun k ch hch enabled hk => ?_) hstart
    by_cases hturn : ∃ c context, ch = .turn c context
    · obtain ⟨c, context, rfl⟩ := hturn
      exact hk.turn c context
    · exact hk.unswitched (Kernel.unswitched_apply enabled
        (fun c context hch => hturn ⟨c, context, hch⟩) hch.2)

/-! ## Slots that are occupied -/

/-- Nothing empties a slot. -/
theorem Kernel.occupied_apply {k : Kernel G} {ch : Change G} {d : CoreId} (enabled : ch.Enabled k)
    (h : (k.queues d).running ≠ none) : ((ch.apply k).queues d).running ≠ none := by
  by_cases hturn : ∃ c context, ch = .turn c context
  · obtain ⟨c, context, rfl⟩ := hturn
    dsimp only [Change.apply]
    rcases k.turn_cases c context with ⟨-, hk⟩ | ⟨next, -, hc, hk⟩ <;> rw [hk]
    · exact h
    · rw [running_switchTo _ hc, queues_interruptRunning]
      split
      · exact Option.some_ne_none next
      · exact h
  · by_cases hboot : ∃ c, ch = .bootstrap c
    · obtain ⟨c, rfl⟩ := hboot
      have hprepared : k.Unswitched (Effect.prepare c k) := .prepare enabled.1
      have hc : (Effect.prepare c k).manages c = true :=
        ((Adjusts.refl.prepare c).manages c).trans enabled.1
      dsimp only [Change.apply]
      cases hu : ((Effect.prepare c k).queues c).ready.head? with
      | none =>
        simp only [Effect.install, Effect.switchFirst]
        rw [hu]
        exact (hprepared.slot d).symm ▸ h
      | some u =>
        rw [running_install hc hu]
        split
        · exact Option.some_ne_none u
        · exact (hprepared.slot d).symm ▸ h
    · rw [(unswitched_apply enabled (fun c context hch => hturn ⟨c, context, hch⟩)
        fun c hch => hboot ⟨c, hch⟩).slot d]
      exact h

namespace Segment.Sound

variable {seg : Segment G} {c : CoreId}

theorem occupied (hseg : seg.Sound) (h : (seg.before.queues c).running ≠ none) :
    (seg.after.queues c).running ≠ none := by
  obtain ⟨k, path, hk⟩ := hseg.exists_path
  refine path.keeps (I := fun k => (k.queues c).running ≠ none)
    (fun _ _ _ enabled hk => Kernel.occupied_apply enabled hk) ?_
  rcases hk with rfl | ⟨d, wake, -, rfl⟩
  · exact h
  · rw [Kernel.running_setAside]
    exact h

/-- A core that has been started has somebody switched in. -/
theorem occupied_of_bootstrapped (hseg : seg.Sound) (h : seg.bootstrapped = some c) :
    (seg.after.queues c).running ≠ none := by
  rcases hseg.bootstrap_or with ⟨d, hd, -, hafter, hboot⟩ | ⟨hnone, -⟩
  · rw [h] at hboot
    cases hb : (Effect.bootstrap d seg.before).2 with
    | error why =>
      rw [hb] at hboot
      cases hboot
    | ok x =>
      rw [hb] at hboot
      obtain rfl : c = d := Option.some.inj hboot
      obtain ⟨u, hu, -⟩ := Effect.bootstrap_ok hd hb
      rw [hafter, hu]
      exact Option.some_ne_none u
  · rw [hnone] at h
    cases h

end Segment.Sound

namespace System

variable {m : Machine G} {s₀ s : System G} {history : List (Segment G)}

/-- **Along a run**, the slot of a core that was started is never empty again. -/
theorem Runs.occupied (run : Runs s₀ history s) (h₀ : ∀ task ∈ s₀.tasks, task.Sound)
    {seg : Segment G} (hseg : seg ∈ history) {c : CoreId} (hc : seg.bootstrapped = some c) :
    (s.machine.kernel.queues c).running ≠ none := by
  induction run with
  | start => cases hseg
  | step run next ih =>
    have hsound := (next.sound (run.sound h₀).2).1
    obtain ⟨hbefore, hafter⟩ := next.kernels
    rw [← hafter]
    rcases List.mem_cons.mp hseg with rfl | hseg
    · exact hsound.occupied_of_bootstrapped hc
    · refine hsound.occupied ?_
      rw [hbefore]
      exact ih hseg

/-- **Along a run** whoever runs is in a slot, if and only if no core is started on which another
thread runs. -/
theorem Runs.runInSlots_iff (run : Runs s₀ history s) (h₀ : ∀ task ∈ s₀.tasks, task.Sound)
    (hk : s₀.machine.kernel.RunInSlots) :
    (∀ seg ∈ history, seg.after.RunInSlots) ↔ ∀ seg ∈ history, seg.BootsOn := by
  have hsound := (run.sound h₀).1
  constructor
  · intro hafter seg hseg
    have hbefore := ((run.keeps h₀ hafter (fun _ hseg _ _ => hseg) hk).2 seg hseg).1
    exact ((hsound seg hseg).runInSlots_iff hbefore).mp (hafter seg hseg)
  · intro hon seg hseg
    exact ((run.keeps h₀ hon (fun _ hon hseg h => (hseg.runInSlots_iff h).mpr hon) hk).2
      seg hseg).2

/-- Slots hold threads of their own core where threads are put aside only when they are runnable,
and where there is one core only. -/
theorem Runs.slotsOwn (run : Runs ⟨m, []⟩ history s) (booted : m.Booted)
    (h : (∀ seg ∈ history, ∀ t, seg.Parks t → (seg.before.stateOf t).IsRunnable) ∨
      m.kernel.cores.length = 1) : ∀ seg ∈ history, seg.after.SlotsOwn := by
  have h₀ : ∀ task ∈ (⟨m, []⟩ : System G).tasks, task.Sound := System.forall_tasks_start
  intro seg hseg
  rcases h with hparks | hone
  · have hplaced := ((run.keeps (I := fun k => ∀ t, k.Placed t) h₀ hparks
      (fun _ hp hseg h t => (hseg.carries (h t) (hp t)).placed) booted.fresh.placed).2 seg hseg).2
    intro c d t hr hs ho
    rcases (hplaced t).slot c hr with hc | ⟨hended, -⟩
    · obtain rfl : c = d := Option.some.inj (hc.symm.trans ho)
      exact hr
    · rw [hs] at hended
      cases hended
  · obtain ⟨howners, hcores⟩ := ((run.keeps (P := fun _ => True)
      (I := fun k => k.OwnersManaged ∧ ∀ d, k.manages d = m.kernel.manages d) h₀
      (fun _ _ => trivial) (fun _ _ hseg h => ⟨hseg.ownersManaged h.1,
        fun d => (hseg.manages d).trans (h.2 d)⟩)
      ⟨booted.fresh.ownersManaged, fun _ => rfl⟩).2 seg hseg).2
    have hzero {c : CoreId} (hc : seg.after.manages c = true) : c = 0 := by
      rw [hcores] at hc
      have hlt : c < m.kernel.cores.length := of_decide_eq_true hc
      rw [hone] at hlt
      exact Nat.lt_one_iff.mp hlt
    intro c d t hr _ ho
    rw [hzero (howners t d ho)]
    rwa [hzero (Kernel.manages_of_running hr)] at hr

end System

theorem Kernel.Fresh.runInSlots {k : Kernel G} (h : k.Fresh) : k.RunInSlots := by
  intro t _ ho
  exact absurd (h.owner t) ho

/-- **When one thread of a core runs.** Take a run from a boot. After each of its operations whoever
runs is switched in with its owner, and so no two threads of a core run at once, if and only if
every bootstrap that finds a thread running on its core goes on with that thread, and no core has a
running thread of another core switched in. The latter is so if threads are put aside only while
they are runnable, and always if there is one core. And the slot of a core that was started is
never empty again. -/
theorem one_runner_iff_boots_on {m : Machine G} {s : System G} {history : List (Segment G)}
    (booted : m.Booted) (run : System.Runs ⟨m, []⟩ history s) :
    ((∀ seg ∈ history, seg.after.OneRuns) ↔
      (∀ seg ∈ history, seg.BootsOn) ∧ ∀ seg ∈ history, seg.after.SlotsOwn) ∧
    ((∀ seg ∈ history, ∀ t, seg.Parks t → (seg.before.stateOf t).IsRunnable) ∨
      m.kernel.cores.length = 1 → ∀ seg ∈ history, seg.after.SlotsOwn) ∧
    ∀ seg ∈ history, ∀ c ∈ seg.bootstrapped, (s.machine.kernel.queues c).running ≠ none := by
  have h₀ : ∀ task ∈ (⟨m, []⟩ : System G).tasks, task.Sound := System.forall_tasks_start
  refine ⟨?_, run.slotsOwn booted, fun seg hseg c hc => run.occupied h₀ hseg hc⟩
  rw [← run.runInSlots_iff h₀ booted.fresh.runInSlots]
  simp only [Kernel.oneRuns_iff]
  exact ⟨fun h => ⟨fun seg hseg => (h seg hseg).1, fun seg hseg => (h seg hseg).2⟩,
    fun h seg hseg => ⟨h.1 seg hseg, h.2 seg hseg⟩⟩

/-- Make two threads and start them on a core that has not been started itself. -/
def twoStarted : List (CoreId × Op ⟨Unit, Unit⟩) :=
  [(0, .createThread () "first"), (0, .createThread () "second"), (0, .startThread 0 1),
    (0, .startThread 0 2)]

/-- The core yields once before it is started: the bootstrap finds the head of the rotation running
and goes on with it, and one thread runs at a time, also when threads are put aside later. -/
theorem one_runs_after_early_yield : ∃ m past s later s',
    Machine.boot? {} {} = some m ∧ System.play ⟨m, []⟩ twoStarted = some (past, s) ∧
    s.play [(0, .yieldThread 0 7), (0, .bootstrap 0), (0, .delay 0 .infinite),
      (0, .yieldThread 0 8)] = some (later, s') ∧
    (∀ seg ∈ later, seg.after.OneRuns) ∧ (s'.machine.kernel.queues 0).running ≠ none := by
  obtain ⟨m, past, s, later, s', hm, hfirst, hsecond, htest⟩ := System.exists_play {} {} twoStarted
    [(0, .yieldThread 0 7), (0, .bootstrap 0), (0, .delay 0 .infinite), (0, .yieldThread 0 8)]
    (fun past _ later _ => decide ((∃ seg ∈ later, seg.bootstrapped = some 0) ∧
      ∀ seg ∈ later ++ past,
        (∀ c ∈ seg.bootstrapped, ∀ t ∈ (seg.before.queues c).running,
          (seg.after.queues c).running = some t) ∧
        ∀ c ∈ seg.parked, ∀ t ∈ (seg.before.queues c).running, seg.before.stateOf t = .running))
    (by decide +kernel)
  obtain ⟨⟨boot, hboot, hc⟩, hsegs⟩ := of_decide_eq_true htest
  have hrun := (System.runs_of_play hfirst).trans (System.runs_of_play hsecond)
  obtain ⟨hiff, hown, hslot⟩ := one_runner_iff_boots_on (Machine.booted_of_boot? hm) hrun
  have hone := hiff.mpr ⟨fun seg hseg c hc t ht _ _ => .inl ((hsegs seg hseg).1 c hc t ht),
    hown (.inl fun seg hseg t ⟨c, hc, hr⟩ => .inr ((hsegs seg hseg).2 c hc t hr))⟩
  exact ⟨m, past, s, later, s', hm, hfirst, hsecond,
    fun seg hseg => hone seg (List.mem_append_left _ hseg),
    hslot boot (List.mem_append_left _ hboot) 0 hc⟩

/-- **Two threads of a core that run.** The core yields twice before it is started, so that the
second thread runs; the bootstrap switches to the first, and the second goes on running. -/
theorem two_run_after_early_yields : ∃ m past s later s',
    Machine.boot? {} {} = some m ∧ System.play ⟨m, []⟩ twoStarted = some (past, s) ∧
    s.play [(0, .yieldThread 0 7), (0, .yieldThread 0 8), (0, .bootstrap 0)] = some (later, s') ∧
    s'.machine.kernel.stateOf 1 = .running ∧ s'.machine.kernel.ownerOf 1 = some 0 ∧
    s'.machine.kernel.stateOf 2 = .running ∧ s'.machine.kernel.ownerOf 2 = some 0 ∧
    ¬ s'.machine.kernel.OneRuns := by
  obtain ⟨m, past, s, later, s', hm, hfirst, hsecond, htest⟩ := System.exists_play {} {} twoStarted
    [(0, .yieldThread 0 7), (0, .yieldThread 0 8), (0, .bootstrap 0)]
    (fun _ _ _ s' => decide (s'.machine.kernel.stateOf 1 = .running ∧
      s'.machine.kernel.ownerOf 1 = some 0 ∧ s'.machine.kernel.stateOf 2 = .running ∧
      s'.machine.kernel.ownerOf 2 = some 0)) (by decide +kernel)
  obtain ⟨hs₁, ho₁, hs₂, ho₂⟩ := of_decide_eq_true htest
  refine ⟨m, past, s, later, s', hm, hfirst, hsecond, hs₁, ho₁, hs₂, ho₂, fun hone => ?_⟩
  cases hone.alone 1 2 0 hs₁ hs₂ ho₁ ho₂

end Nucleus
