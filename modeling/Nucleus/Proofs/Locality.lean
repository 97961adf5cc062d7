import Nucleus.Proofs.StartKill

/-!
# What stays with a core

A change of the kernel state is *local* to a core and a set of threads if it touches nothing else,
and if what it does to them is decided by them, and by the tick period that all cores share. Two
local changes of different cores and disjoint sets of threads are made in either order with the same
result.

The notion is about one state at a time: which threads a scheduler touches is decided by the queues
and the slot of its core, and so the set is fixed when the state is.

* `Kernel.Alike` relates states that a core and a set of threads do not tell apart, and
  `Kernel.Touches` states that differ at most there.
* `Kernel.Local` is the notion of a local change, and `Effect.Local` that of a local effect.
* `Kernel.local_turn`, `Kernel.local_advance` and so on say that what a scheduler does is local to
  its core and the threads it is about.
* `Kernel.Touches.comm` is the rule of commutation.
-/

namespace Nucleus

variable {G : Guest} {α : Type}

attribute [ext] Kernel

namespace Kernel

variable {k k' k'' : Kernel G} {c d : CoreId} {t : ThreadId} {T U : ThreadId → Prop}

/-! ## States that look alike -/

/-- The core, the threads of the set, and the tick period are the same. -/
structure Alike (c : CoreId) (T : ThreadId → Prop) (k k' : Kernel G) : Prop where
  /-- the core is the same -/
  core : k'.cores[c]? = k.cores[c]?
  /-- the threads are the same -/
  threads : ∀ t, T t → k'.threads[t]? = k.threads[t]?
  /-- and so is the tick period -/
  slice : k'.slice = k.slice

namespace Alike

theorem refl (c : CoreId) (T : ThreadId → Prop) (k : Kernel G) : k.Alike c T k :=
  ⟨rfl, fun _ _ => rfl, rfl⟩

theorem symm (h : Alike c T k k') : Alike c T k' k :=
  ⟨h.core.symm, fun t ht => (h.threads t ht).symm, h.slice.symm⟩

theorem trans (h : Alike c T k k') (h' : Alike c T k' k'') : Alike c T k k'' :=
  ⟨h'.core.trans h.core, fun t ht => (h'.threads t ht).trans (h.threads t ht),
    h'.slice.trans h.slice⟩

/-- They have the queues of the core in common, -/
theorem queues (h : Alike c T k k') : k'.queues c = k.queues c := by
  simp only [Kernel.queues]
  rw [h.core]

/-- its deferred calls, -/
theorem dpcs (h : Alike c T k k') : k'.dpcs c = k.dpcs c := by
  simp only [Kernel.dpcs]
  rw [h.core]

/-- whether it was started, -/
theorem isStarted (h : Alike c T k k') : k'.isStarted c = k.isStarted c := by
  simp only [Kernel.isStarted]
  rw [h.core]

/-- and its idle thread; -/
theorem idleOf? (h : Alike c T k k') : k'.idleOf? c = k.idleOf? c := by
  simp only [Kernel.idleOf?]
  rw [h.core]

/-- the states of the threads in question, -/
theorem stateOf (h : Alike c T k k') (ht : T t) : k'.stateOf t = k.stateOf t := by
  simp only [Kernel.stateOf]
  rw [h.threads t ht]

/-- their owners, -/
theorem ownerOf (h : Alike c T k k') (ht : T t) : k'.ownerOf t = k.ownerOf t := by
  simp only [Kernel.ownerOf]
  rw [h.threads t ht]

/-- and their contexts. -/
theorem contextOf (h : Alike c T k k') (ht : T t) : k'.contextOf t = k.contextOf t := by
  simp only [Kernel.contextOf]
  rw [h.threads t ht]

end Alike

/-- At most the core and the threads of the set have changed, and no thread has come to another
core. -/
structure Touches (c : CoreId) (T : ThreadId → Prop) (k k' : Kernel G) : Prop where
  /-- other cores are as they were -/
  cores : ∀ d, d ≠ c → k'.cores[d]? = k.cores[d]?
  /-- no core appears, and none goes away -/
  manages : ∀ d, k'.manages d = k.manages d
  /-- other threads are as they were -/
  threads : ∀ t, ¬ T t → k'.threads[t]? = k.threads[t]?
  /-- whoever another core owns it owned before -/
  owner : ∀ t d, d ≠ c → k'.ownerOf t = some d → k.ownerOf t = some d
  /-- the configuration is as it was -/
  config : k'.config = k.config
  /-- the tick period is as it was -/
  slice : k'.slice = k.slice
  /-- events are as they were -/
  events : k'.events = k.events
  /-- wait entries are as they were -/
  waits : k'.waits = k.waits
  /-- names are as they were -/
  objects : k'.objects = k.objects

namespace Touches

theorem refl (c : CoreId) (T : ThreadId → Prop) (k : Kernel G) : k.Touches c T k :=
  ⟨fun _ _ => rfl, fun _ => rfl, fun _ _ => rfl, fun _ _ _ => id, rfl, rfl, rfl, rfl, rfl⟩

theorem trans (h : Touches c T k k') (h' : Touches c T k' k'') : Touches c T k k'' where
  cores d hd := (h'.cores d hd).trans (h.cores d hd)
  manages d := (h'.manages d).trans (h.manages d)
  threads t ht := (h'.threads t ht).trans (h.threads t ht)
  owner t d hd ho := h.owner t d hd (h'.owner t d hd ho)
  config := h'.config.trans h.config
  slice := h'.slice.trans h.slice
  events := h'.events.trans h.events
  waits := h'.waits.trans h.waits
  objects := h'.objects.trans h.objects

/-- Another core and other threads see no difference. -/
theorem alike (h : Touches c T k k') (hcd : c ≠ d) (hTU : ∀ t, T t → ¬ U t) : Alike d U k k' :=
  ⟨h.cores d hcd.symm, fun t hu => h.threads t fun ht => hTU t ht hu, h.slice⟩

/-- **Changes of different cores and different threads commute.** `k₁` and `k₂` are what each makes
of `k`; `k₁₂` and `k₂₁` are what becomes of it by both, in either order. -/
theorem comm {k₁ k₂ k₁₂ k₂₁ : Kernel G} (hcd : c ≠ d) (hTU : ∀ t, T t → ¬ U t)
    (h₁ : Touches c T k k₁) (h₁₂ : Touches d U k₁ k₁₂) (h₂ : Touches d U k k₂)
    (h₂₁ : Touches c T k₂ k₂₁) (same₁ : Alike c T k₁ k₂₁) (same₂ : Alike d U k₂ k₁₂) :
    k₁₂ = k₂₁ := by
  have hcores : k₁₂.cores = k₂₁.cores := by
    refine List.ext_getElem? fun e => ?_
    by_cases hc : e = c
    · subst hc
      exact (h₁₂.cores e hcd).trans same₁.core.symm
    · by_cases hd : e = d
      · subst hd
        exact same₂.core.trans (h₂₁.cores e hc).symm
      · rw [h₁₂.cores e hd, h₁.cores e hc, h₂₁.cores e hc, h₂.cores e hd]
  have hthreads : k₁₂.threads = k₂₁.threads := by
    refine List.ext_getElem? fun t => ?_
    by_cases ht : T t
    · exact (h₁₂.threads t (hTU t ht)).trans (same₁.threads t ht).symm
    · by_cases hu : U t
      · exact (same₂.threads t hu).trans (h₂₁.threads t ht).symm
      · rw [h₁₂.threads t hu, h₁.threads t ht, h₂₁.threads t ht, h₂.threads t hu]
  have hrest {β : Type} {f : Kernel G → β} (hc : ∀ k k' : Kernel G, Touches c T k k' → f k' = f k)
      (hd : ∀ k k' : Kernel G, Touches d U k k' → f k' = f k) : f k₁₂ = f k₂₁ := by
    rw [hd _ _ h₁₂, hc _ _ h₁, hc _ _ h₂₁, hd _ _ h₂]
  exact Kernel.ext (hrest (fun _ _ => config) fun _ _ => config)
    (hrest (fun _ _ => slice) fun _ _ => slice) hthreads hcores
    (hrest (fun _ _ => events) fun _ _ => events) (hrest (fun _ _ => waits) fun _ _ => waits)
    (hrest (fun _ _ => objects) fun _ _ => objects)

end Touches

/-! ## Local changes -/

/-- Wherever the core and the threads of the set look as they do in `k`, the change touches nothing
else and makes the same of them. -/
structure Local (f : Kernel G → Kernel G) (c : CoreId) (T : ThreadId → Prop) (k : Kernel G) :
    Prop where
  /-- it touches nothing else -/
  touches : ∀ k', Alike c T k k' → Touches c T k' (f k')
  /-- it makes the same of them -/
  alike : ∀ k', Alike c T k k' → Alike c T (f k) (f k')

namespace Local

variable {f g : Kernel G → Kernel G}

theorem id (c : CoreId) (T : ThreadId → Prop) (k : Kernel G) : Local (fun k => k) c T k :=
  ⟨fun k' _ => .refl c T k', fun _ h => h⟩

/-- One after the other. -/
theorem comp (hg : Local g c T (f k)) (hf : Local f c T k) : Local (fun k => g (f k)) c T k :=
  ⟨fun k' h => (hf.touches k' h).trans (hg.touches _ (hf.alike k' h)),
    fun k' h => hg.alike _ (hf.alike k' h)⟩

/-- A change may be replaced by one that is the same where the core and the threads look as they
do. -/
theorem congr (hg : Local g c T k) (hfg : ∀ k', Alike c T k k' → f k' = g k') :
    Local f c T k := by
  refine ⟨fun k' h => ?_, fun k' h => ?_⟩
  · rw [hfg k' h]
    exact hg.touches k' h
  · rw [hfg k (.refl c T k), hfg k' h]
    exact hg.alike k' h

/-- A thread of the set changes, and it stays with its owner, or comes to nobody, or to the core. -/
theorem updateThread (ht : T t) {f : Thread G → Thread G}
    (hf : ∀ th, (f th).owner = th.owner ∨ (f th).owner = none ∨ (f th).owner = some c) :
    Local (fun k => k.updateThread t f) c T k := by
  refine ⟨fun k' _ => ⟨fun _ _ => rfl, fun _ => rfl, fun u hu => ?_, fun u d hd ho => ?_, rfl, rfl,
    rfl, rfl, rfl⟩, fun k' h => ⟨h.core, fun u hu => ?_, h.slice⟩⟩
  · have hne : t ≠ u := by
      rintro rfl
      exact hu ht
    rw [getElem?_threads_updateThread, if_neg hne]
  · simp only [ownerOf] at ho ⊢
    rcases k'.threads_updateThread_cases t u f with ⟨th, hth, hth'⟩ | hsame
    · rw [hth'] at ho
      rw [hth]
      -- the thread may have changed hands, but not for another core
      rcases hf th with hown | hown | hown
      · exact hown.symm.trans ho
      · cases hown.symm.trans ho
      · exact absurd (Option.some.inj (hown.symm.trans ho)).symm hd
    · rwa [hsame] at ho
  · rw [getElem?_threads_updateThread, getElem?_threads_updateThread, h.threads u hu]

/-- The core changes. -/
theorem updateCore (f : Core G → Core G) : Local (fun k => k.updateCore c f) c T k := by
  refine ⟨fun k' _ => ⟨fun d hd => ?_, fun d => k'.manages_updateCore c d f, fun _ _ => rfl,
    fun _ _ _ => fun h => h, rfl, rfl, rfl, rfl, rfl⟩, fun k' h => ⟨?_, h.threads, h.slice⟩⟩
  · rw [getElem?_cores_updateCore, if_neg hd.symm]
  · rw [getElem?_cores_updateCore, getElem?_cores_updateCore, h.core]

end Local

/-- A state is set of one of the threads. -/
theorem local_setState (ht : T t) (s : ThreadState) : Local (fun k => k.setState t s) c T k :=
  .updateThread ht fun _ => .inl rfl

/-- Queues of the core change. -/
theorem local_updateQueues (f : RunQueues → RunQueues) :
    Local (fun k => k.updateQueues c f) c T k :=
  .updateCore _

/-! ### Threads that come and go -/

/-- One of the threads is put at the end of the rotation, -/
theorem local_makeReady (ht : T t) : Local (fun k => k.makeReady c t) c T k :=
  (local_updateQueues _).comp (local_setState ht .ready)

/-- A thread comes to the core. -/
theorem local_start (ht : T t) :
    Local (fun k => (k.setOwner t (some c)).makeReady c t) c T k := by
  refine (local_makeReady ht).comp (.updateThread ht ?_)
  exact fun _ => .inr (.inr rfl)

/-- A thread leaves the core and ends. -/
theorem local_end (ht : T t) : Local (fun k => (k.setOwner t none).terminate c t) c T k := by
  refine (local_setState ht .terminated).comp ((local_updateQueues _).comp (.updateThread ht ?_))
  exact fun _ => .inr (.inl rfl)

/-- or comes back there. -/
theorem local_wake (ht : T t) : Local (fun k => k.wake c t) c T k :=
  (local_makeReady ht).comp (local_updateQueues _)

/-- A deferred call is queued on the core, -/
theorem local_requestYield : Local (fun k => Effect.requestYield c k) c T k := by
  refine (Local.updateCore fun core => { core with dpcs := k.dpcs c ++ [.reschedule c] }).congr
    fun k' h => ?_
  simp only [Effect.requestYield]
  rw [h.dpcs]
  rfl

/-- or is not, as the slot of the core has it. -/
theorem local_notifyKilled (t : ThreadId) : Local (fun k => Effect.notifyKilled c t k) c T k := by
  by_cases hr : (k.queues c).running = some t
  · refine local_requestYield.congr fun k' h => ?_
    simp only [Effect.notifyKilled]
    rw [h.queues, if_pos hr]
  · refine (Local.id c T k).congr fun k' h => ?_
    simp only [Effect.notifyKilled]
    rw [h.queues, if_neg hr]

/-- The thread in the slot is put aside. -/
theorem local_setAside (hslot : ∀ t, (k.queues c).running = some t → T t) (wake : Option Nat) :
    Local (fun k => k.setAside c wake) c T k := by
  cases hr : (k.queues c).running with
  | none =>
    refine (Local.id c T k).congr fun k' h => ?_
    simp only [setAside]
    rw [h.queues, hr]
  | some t =>
    have ht : T t := hslot t hr
    cases wake with
    | none =>
      have hsuspend : Local (fun k => k.suspend c t) c T k :=
        (local_updateQueues _).comp (local_setState ht (.wait .infinite))
      refine hsuspend.congr fun k' h => ?_
      simp only [setAside]
      rw [h.queues, hr]
    | some wake =>
      have hsleep : Local (fun k => k.sleep c t wake) c T k :=
        (local_updateQueues _).comp (local_setState ht (.wait .timed))
      refine hsleep.congr fun k' h => ?_
      simp only [setAside]
      rw [h.queues, hr]

/-- The thread in the slot is put aside, which is one of them. -/
theorem local_park (hslot : ∀ t, (k.queues c).running = some t → T t) (span : TimeSpan) :
    Local (fun k => Effect.park c span k) c T k := by
  refine (local_setAside hslot (Effect.deadline k c span)).congr fun k' h => ?_
  rw [Effect.park_eq]
  simp only [Effect.deadline]
  rw [h.queues, h.slice]

/-! ### Ticks and switches -/

/-- Sleepers wake that are among them. -/
theorem local_makeAllReady {due : List Sleeper} (hdue : ∀ t ∈ DelayedQueue.threads due, T t) :
    Local (fun k => k.makeAllReady c due) c T k := by
  induction due generalizing k with
  | nil => exact .id c T k
  | cons s due ih =>
    obtain ⟨hs, hdue⟩ := List.forall_mem_cons.mp hdue
    exact (ih hdue).comp (local_makeReady hs)

/-- A tick is local if those who sleep are. -/
theorem local_advance (hsleep : ∀ t ∈ (k.queues c).threads .delayed, T t) :
    Local (fun k => k.advance c) c T k := by
  have hdue : ∀ t ∈ DelayedQueue.threads (k.dueNext c), T t :=
    fun t ht => hsleep t (k.mem_delayed_of_dueNext ht)
  refine ((local_makeAllReady hdue).comp (local_updateQueues fun q =>
    { q with
      ticks := RunQueues.nextTick (k.queues c).ticks
      delayed := q.delayed.later (RunQueues.nextTick (k.queues c).ticks) })).congr fun k' h => ?_
  rw [advance_eq]
  simp only [dueNext]
  rw [h.queues]

/-- A context is saved into the thread in the slot, which is one of them. -/
theorem local_interruptRunning (hslot : ∀ t, (k.queues c).running = some t → T t) (x : Context) :
    Local (fun k => k.interruptRunning c x) c T k := by
  cases hr : (k.queues c).running with
  | none =>
    refine (Local.id c T k).congr fun k' h => ?_
    simp only [interruptRunning]
    rw [h.queues, hr]
  | some t =>
    have ht : T t := hslot t hr
    have hsave : Local (fun k => k.saveContext t x) c T k := .updateThread ht fun _ => .inl rfl
    by_cases hs : k.stateOf t = .running
    · refine ((local_setState ht .ready).comp hsave).congr fun k' h => ?_
      simp only [interruptRunning]
      rw [h.queues, hr]
      dsimp only
      rw [stateOf_saveContext, h.stateOf ht, if_pos hs]
    · refine hsave.congr fun k' h => ?_
      simp only [interruptRunning]
      rw [h.queues, hr]
      dsimp only
      rw [stateOf_saveContext, h.stateOf ht, if_neg hs]

/-- One of them is switched in. -/
theorem local_switchTo (ht : T t) : Local (fun k => k.switchTo c t) c T k :=
  (local_updateQueues _).comp (local_setState ht .running)

end Kernel

/-! ## Local effects -/

namespace Effect

open Kernel (Alike)

variable {f g : Effect G α} {k : Kernel G} {c : CoreId} {T : ThreadId → Prop}

/-- The change is local, and the answer is decided by the core and the threads of the set. -/
structure Local (f : Effect G α) (c : CoreId) (T : ThreadId → Prop) (k : Kernel G) : Prop where
  /-- the change is local -/
  change : Kernel.Local (fun k => (f k).1) c T k
  /-- the answer is the same -/
  answer : ∀ k', Alike c T k k' → (f k').2 = (f k).2

namespace Local

/-- A change that answers what it would answer anywhere. -/
theorem const {change : Kernel G → Kernel G} (h : Kernel.Local change c T k) (a : α) :
    Local (fun k => (change k, a)) c T k :=
  ⟨h, fun _ _ => rfl⟩

/-- A local change may come before a local effect. -/
theorem after {change : Kernel G → Kernel G} (hf : Local f c T (change k))
    (h : Kernel.Local change c T k) : Local (fun k => f (change k)) c T k :=
  ⟨hf.change.comp h, fun k' hk => hf.answer _ (h.alike k' hk)⟩

/-- Effects that agree on states that look alike are local together. -/
theorem congr (hg : Local g c T k) (hfg : ∀ k', Alike c T k k' → f k' = g k') :
    Local f c T k := by
  refine ⟨hg.change.congr fun k' h => congrArg Prod.fst (hfg k' h), fun k' h => ?_⟩
  rw [hfg k (.refl c T k), hfg k' h]
  exact hg.answer k' h

end Local

/-- A switch is local if the thread in the slot and those in the rotation are. -/
theorem local_yieldThread (hslot : ∀ t, (k.queues c).running = some t → T t)
    (hready : ∀ t ∈ (k.queues c).ready, T t) (x : Context) : Local (yieldThread c x) c T k := by
  cases hn : (k.queues c).successor with
  | none =>
    refine (Local.const (.id c T k) 0).congr fun k' h => ?_
    simp only [yieldThread, Kernel.rotate]
    rw [h.queues, hn]
    rfl
  | some next =>
    have hnext : T next := hready next (RunQueues.mem_ready_of_successor hn)
    have hswitch : Local (fun k : Kernel G =>
        (k.switchTo c next, (k.switchTo c next).contextOf next)) c T (k.interruptRunning c x) :=
      ⟨Kernel.local_switchTo hnext,
        fun k' h => ((Kernel.local_switchTo hnext).alike k' h).contextOf hnext⟩
    refine (hswitch.after (Kernel.local_interruptRunning hslot x)).congr fun k' h => ?_
    simp only [yieldThread, Kernel.rotate]
    rw [h.queues, hn]
    rfl

/-- To switch in the head of the rotation is local if the head is. -/
theorem local_install (hhead : ∀ t, (k.queues c).ready.head? = some t → T t) :
    Local (install c) c T k := by
  cases hh : (k.queues c).ready.head? with
  | none =>
    refine (Local.const (.id c T k) (.error .invalidOperation)).congr fun k' h => ?_
    simp only [install, switchFirst]
    rw [h.queues, hh]
  | some t =>
    have ht : T t := hhead t hh
    have hhandler : Kernel.Local (fun k => k.setHandler c .systemTick (.tick c)) c T
        (k.switchTo c t) := .updateCore _
    have hswitch := Kernel.local_switchTo (c := c) (k := k) ht
    refine Local.congr (g := fun k => ((k.switchTo c t).setHandler c .systemTick (.tick c),
      .ok ((k.switchTo c t).contextOf t))) ⟨hhandler.comp hswitch, fun k' h => ?_⟩ fun k' h => ?_
    · rw [(hswitch.alike k' h).contextOf ht]
    · simp only [install, switchFirst]
      rw [h.queues, hh]

end Effect

end Nucleus
