import Nucleus.Rotation

/-!
# Reading the tables after a change

What is found in a table after a change of it: states, owners, queues. A change of a thread or of
a core that does not exist changes nothing, and the equations say so.

The three queues of a core are taken together: a `Queue` is one of them, `RunQueues.threads` who
stands in it, and `Kernel.count` how often a thread stands there. Most moves of a thread between
queues are then sums and differences of counts.
-/

namespace Nucleus

variable {G : Guest}

/-- A table that has grown by one row: the new row is found under the old length. -/
theorem getElem?_grown {α : Type} (rows : List α) (row : α) (i : Nat) :
    (rows ++ [row])[i]? = if i = rows.length then some row else rows[i]? := by
  rcases Nat.lt_trichotomy i rows.length with h | rfl | h
  · rw [List.getElem?_append_left h, if_neg (Nat.ne_of_lt h)]
  · rw [List.getElem?_concat_length, if_pos rfl]
  · rw [List.getElem?_eq_none (by simp; omega), List.getElem?_eq_none (Nat.le_of_lt h),
      if_neg (Nat.ne_of_gt h)]

/-- A change of the new row changes nothing else. -/
theorem modify_grown {α : Type} (rows : List α) (row : α) (f : α → α) :
    (rows ++ [row]).modify rows.length f = rows ++ [f row] := by
  induction rows with
  | nil => rfl
  | cons first rows ih => exact congrArg (first :: ·) ih

/-! ## Queues -/

/-- A queue of a scheduler. -/
inductive Queue where
  /-- the rotation -/
  | ready
  /-- the sleeping threads -/
  | delayed
  /-- the threads parked without a deadline -/
  | suspended
  deriving DecidableEq

/-- The queue in which a thread of this state stands, if some core owns it. -/
def ThreadState.queue? : ThreadState → Option Queue
  | ready | running => some .ready
  | wait .timed => some .delayed
  | wait .infinite => some .suspended
  | terminated => none

namespace DelayedQueue

/-- Removing a thread from a delayed queue erases its first entry. -/
theorem threads_remove (t : ThreadId) (q : DelayedQueue) :
    (q.remove t).threads = q.threads.erase t := by
  induction q with
  | nil => rfl
  | cons s q ih =>
    by_cases hs : s.thread = t
    · simp [remove, threads, hs]
    · have hb : (s.thread == t) = false := beq_eq_false_iff_ne.mpr hs
      simp only [remove, threads, List.map_cons, List.eraseP_cons, List.erase_cons, hb]
      exact congrArg (s.thread :: ·) ih

/-- Wherever a sleeper is put in the order, its thread is there once more. -/
theorem count_threads_insert (s : Sleeper) (q : DelayedQueue) (t : ThreadId) :
    (q.insert s).threads.count t = q.threads.count t + if s.thread = t then 1 else 0 := by
  induction q with
  | nil => simp [insert, threads, List.count_singleton]
  | cons x q ih =>
    simp only [threads] at ih
    simp only [insert]
    split
    · simp [threads, List.count_cons]
    · simp only [threads, List.map_cons, List.count_cons, ih]
      omega

/-- Whether a thread sleeps can be told from the list of threads. -/
theorem contains_iff {t : ThreadId} {q : DelayedQueue} : q.contains t = true ↔ t ∈ q.threads := by
  simp only [contains, threads, List.any_eq_true, beq_iff_eq, List.mem_map]

/-- A tick divides the sleepers: nobody is lost, and nobody is there twice. -/
theorem threads_due_append_later (tick : Nat) (q : DelayedQueue) :
    threads (q.due tick) ++ (q.later tick).threads = q.threads := by
  simp only [threads, due, later]
  rw [← List.map_append, List.takeWhile_append_dropWhile]

end DelayedQueue

namespace RunQueues

/-- Who stands in a queue. -/
def threads (q : RunQueues) : Queue → List ThreadId
  | .ready => q.ready
  | .delayed => q.delayed.threads
  | .suspended => q.suspended

/-- A thread waits on a core if it sleeps or stands parked there. -/
theorem isParked_iff {q : RunQueues} {t : ThreadId} :
    q.isParked t = true ↔ t ∈ q.threads .delayed ∨ t ∈ q.threads .suspended := by
  simp only [isParked, Bool.or_eq_true, DelayedQueue.contains_iff, List.contains_iff_mem, threads]

/-- Whoever is switched to stands in the rotation. -/
theorem mem_ready_of_successor {q : RunQueues} {t : ThreadId} (h : q.successor = some t) :
    t ∈ q.ready := by
  simp only [successor] at h
  split at h
  · exact List.mem_of_getElem? h
  · exact List.mem_of_head? h

/-- Where somebody is ready, somebody is next. -/
theorem successor_ne_none {q : RunQueues} (h : q.ready ≠ []) : q.successor ≠ none := by
  simp only [successor]
  split
  next i _ =>
    rw [List.getElem?_eq_getElem (Nat.mod_lt _ (List.length_pos_iff.mpr h))]
    exact Option.some_ne_none _
  next => simpa using h

/-- A thread that is expelled is erased from every queue. -/
theorem threads_expel (q : RunQueues) (t : ThreadId) (i : Queue) :
    (q.expel t).threads i = (q.threads i).erase t := by
  cases i with
  | ready => rfl
  | delayed => exact DelayedQueue.threads_remove t q.delayed
  | suspended => rfl

/-- The queue from which a thread is taken when it is woken. -/
def parkedIn (q : RunQueues) (t : ThreadId) : Queue :=
  if q.delayed.contains t then .delayed else .suspended

/-- The rotation is not a queue in which a thread waits. -/
theorem parkedIn_ne_ready (q : RunQueues) (t : ThreadId) : q.parkedIn t ≠ .ready := by
  simp only [parkedIn]
  split <;> nofun

/-- A thread that waits is in the queue that is looked into for it. -/
theorem mem_parkedIn {q : RunQueues} {t : ThreadId} (h : q.isParked t = true) :
    t ∈ q.threads (q.parkedIn t) := by
  simp only [parkedIn]
  split
  next hd => exact DelayedQueue.contains_iff.mp hd
  next hd =>
    rcases isParked_iff.mp h with hm | hm
    · exact absurd (DelayedQueue.contains_iff.mpr hm) hd
    · exact hm

/-- A thread that is unparked is erased from that queue only. -/
theorem threads_unpark (q : RunQueues) (t : ThreadId) (i : Queue) :
    (q.unpark t).threads i = if i = q.parkedIn t then (q.threads i).erase t else q.threads i := by
  unfold unpark parkedIn
  by_cases h : q.delayed.contains t = true
  · rw [if_pos h, if_pos h]
    cases i with
    | delayed => exact DelayedQueue.threads_remove t q.delayed
    | _ => rfl
  · rw [if_neg h, if_neg h]
    cases i <;> rfl

/-- The slot has no part in that. -/
theorem running_unpark (q : RunQueues) (t : ThreadId) : (q.unpark t).running = q.running := by
  simp only [unpark]
  split <;> rfl

end RunQueues

namespace Kernel

variable (k : Kernel G)

/-! ## Threads -/

/-- Nobody owns a thread that does not exist, -/
theorem ownerOf_eq_none_of_le {t : ThreadId} (h : k.threads.length ≤ t) : k.ownerOf t = none := by
  simp only [ownerOf]
  rw [List.getElem?_eq_none h]
  rfl

/-- and such a thread counts as ended. -/
theorem stateOf_eq_terminated_of_le {t : ThreadId} (h : k.threads.length ≤ t) :
    k.stateOf t = .terminated := by
  simp only [stateOf]
  rw [List.getElem?_eq_none h]

/-- A thread that has an owner exists. -/
theorem lt_length_of_ownerOf {k : Kernel G} {t : ThreadId} {c : CoreId} (h : k.ownerOf t = some c) :
    t < k.threads.length := by
  rcases Nat.lt_or_ge t k.threads.length with hlt | hge
  · exact hlt
  · rw [k.ownerOf_eq_none_of_le hge] at h
    cases h

/-- A thread that has not ended exists. -/
theorem lt_length_of_stateOf {k : Kernel G} {t : ThreadId} (h : k.stateOf t ≠ .terminated) :
    t < k.threads.length := by
  rcases Nat.lt_or_ge t k.threads.length with hlt | hge
  · exact hlt
  · exact absurd (k.stateOf_eq_terminated_of_le hge) h

/-- To set a state leaves other threads alone. -/
theorem stateOf_setState_of_ne {t u : ThreadId} (s : ThreadState) (h : t ≠ u) :
    (k.setState t s).stateOf u = k.stateOf u := by
  simp only [stateOf, setState]
  rw [getElem?_threads_updateThread, if_neg h]

/-- A thread that exists has the state that is set. -/
theorem stateOf_setState_self {t : ThreadId} (s : ThreadState) (h : t < k.threads.length) :
    (k.setState t s).stateOf t = s := by
  rw [stateOf_setState k t t s h, if_pos rfl]

/-- To set an owner leaves other threads alone. -/
theorem ownerOf_setOwner_of_ne {t u : ThreadId} (o : Option CoreId) (h : t ≠ u) :
    (k.setOwner t o).ownerOf u = k.ownerOf u := by
  simp only [ownerOf, setOwner]
  rw [getElem?_threads_updateThread, if_neg h]

/-- A thread that exists has the owner that is set. -/
theorem ownerOf_setOwner_self {t : ThreadId} (o : Option CoreId) (h : t < k.threads.length) :
    (k.setOwner t o).ownerOf t = o := by
  rw [ownerOf_setOwner k t t o h, if_pos rfl]

/-- What is found of a thread after a change is the thread changed or the thread as it was. -/
theorem threads_updateThread_cases (t u : ThreadId) (f : Thread G → Thread G) :
    (∃ th, k.threads[u]? = some th ∧ (k.updateThread t f).threads[u]? = some (f th)) ∨
      (k.updateThread t f).threads[u]? = k.threads[u]? := by
  rw [getElem?_threads_updateThread]
  by_cases htu : t = u
  · rw [if_pos htu]
    cases k.threads[u]? with
    | none => exact .inr rfl
    | some th => exact .inl ⟨th, rfl, rfl⟩
  · exact .inr (if_neg htu)

/-- A change of other fields leaves the state of every thread. -/
theorem stateOf_updateThread {t : ThreadId} {f : Thread G → Thread G}
    (hf : ∀ th, (f th).state = th.state) (u : ThreadId) :
    (k.updateThread t f).stateOf u = k.stateOf u := by
  simp only [stateOf]
  rcases k.threads_updateThread_cases t u f with ⟨th, h, h'⟩ | h
  · rw [h, h']
    exact hf th
  · rw [h]

/-- A change of other fields leaves the owner of every thread. -/
theorem ownerOf_updateThread {t : ThreadId} {f : Thread G → Thread G}
    (hf : ∀ th, (f th).owner = th.owner) (u : ThreadId) :
    (k.updateThread t f).ownerOf u = k.ownerOf u := by
  simp only [ownerOf]
  rcases k.threads_updateThread_cases t u f with ⟨th, h, h'⟩ | h
  · rw [h, h']
    exact hf th
  · rw [h]

/-- No thread is made by a change of one. -/
@[simp] theorem length_threads_updateThread (t : ThreadId) (f : Thread G → Thread G) :
    (k.updateThread t f).threads.length = k.threads.length := by
  simp [updateThread]

/-- States are no matter of contexts, -/
theorem stateOf_saveContext (t : ThreadId) (context : Context) (u : ThreadId) :
    (k.saveContext t context).stateOf u = k.stateOf u :=
  k.stateOf_updateThread (f := fun th => { th with context }) (fun _ => rfl) u

/-- nor are owners. -/
theorem ownerOf_saveContext (t : ThreadId) (context : Context) (u : ThreadId) :
    (k.saveContext t context).ownerOf u = k.ownerOf u :=
  k.ownerOf_updateThread (f := fun th => { th with context }) (fun _ => rfl) u

/-- There is one more thread, -/
theorem length_threads_addThread (th : Thread G) :
    (k.addThread th).threads.length = k.threads.length + 1 := by
  simp [addThread]

/-- with the state it is made with, -/
theorem stateOf_addThread (th : Thread G) (u : ThreadId) :
    (k.addThread th).stateOf u = if u = k.threads.length then th.state else k.stateOf u := by
  simp only [stateOf, addThread]
  rw [getElem?_grown]
  by_cases h : u = k.threads.length
  · rw [if_pos h, if_pos h]
  · rw [if_neg h, if_neg h]

/-- the owner, -/
theorem ownerOf_addThread (th : Thread G) (u : ThreadId) :
    (k.addThread th).ownerOf u = if u = k.threads.length then th.owner else k.ownerOf u := by
  simp only [ownerOf, addThread]
  rw [getElem?_grown]
  by_cases h : u = k.threads.length
  · rw [if_pos h, if_pos h]
    rfl
  · rw [if_neg h, if_neg h]

/-- and the context. -/
theorem contextOf_addThread (th : Thread G) (u : ThreadId) :
    (k.addThread th).contextOf u = if u = k.threads.length then th.context else k.contextOf u := by
  simp only [contextOf, addThread]
  rw [getElem?_grown]
  by_cases h : u = k.threads.length
  · rw [if_pos h, if_pos h]
  · rw [if_neg h, if_neg h]

/-- A thread that was just made may as well be made with its context. -/
theorem saveContext_addThread (th : Thread G) (context : Context) :
    (k.addThread th).saveContext k.threads.length context = k.addThread { th with context } := by
  simp only [saveContext, updateThread, addThread, modify_grown]

/-! ### Contexts -/

/-- A thread that does not exist has the null context. -/
theorem contextOf_eq_zero_of_le {t : ThreadId} (h : k.threads.length ≤ t) : k.contextOf t = 0 := by
  simp only [contextOf]
  rw [List.getElem?_eq_none h]

/-- A change of other fields leaves every context. -/
theorem contextOf_updateThread {t : ThreadId} {f : Thread G → Thread G}
    (hf : ∀ th, (f th).context = th.context) (u : ThreadId) :
    (k.updateThread t f).contextOf u = k.contextOf u := by
  simp only [contextOf]
  rcases k.threads_updateThread_cases t u f with ⟨th, h, h'⟩ | h
  · rw [h, h']
    exact hf th
  · rw [h]

/-- Contexts are no matter of states. -/
theorem contextOf_setState (t : ThreadId) (s : ThreadState) (u : ThreadId) :
    (k.setState t s).contextOf u = k.contextOf u :=
  k.contextOf_updateThread (f := fun th => { th with state := s }) (fun _ => rfl) u

/-- A thread that exists has the context that is saved. -/
theorem contextOf_saveContext (t : ThreadId) (context : Context) {u : ThreadId}
    (h : u < k.threads.length) :
    (k.saveContext t context).contextOf u = if t = u then context else k.contextOf u := by
  simp only [contextOf, saveContext, getElem?_threads_updateThread]
  by_cases htu : t = u
  · subst htu
    simp [List.getElem?_eq_getElem h]
  · simp [htu]

/-! ## Cores -/

/-- Queues are no matter of states. -/
@[simp] theorem queues_setState (t : ThreadId) (s : ThreadState) (c : CoreId) :
    (k.setState t s).queues c = k.queues c := rfl

/-- What is found of a core after a change is the core changed or the core as it was. -/
theorem cores_updateCore_cases (c d : CoreId) (f : Core G → Core G) :
    (∃ core, k.cores[d]? = some core ∧ (k.updateCore c f).cores[d]? = some (f core)) ∨
      (k.updateCore c f).cores[d]? = k.cores[d]? := by
  rw [getElem?_cores_updateCore]
  by_cases hcd : c = d
  · rw [if_pos hcd]
    cases k.cores[d]? with
    | none => exact .inr rfl
    | some core => exact .inl ⟨core, rfl, rfl⟩
  · exact .inr (if_neg hcd)

/-- A change of other fields leaves the queues of every core. -/
theorem queues_updateCore {c : CoreId} {f : Core G → Core G}
    (hf : ∀ core, (f core).queues = core.queues) (d : CoreId) :
    (k.updateCore c f).queues d = k.queues d := by
  simp only [queues]
  rcases k.cores_updateCore_cases c d f with ⟨core, h, h'⟩ | h
  · rw [h, h']
    exact hf core
  · rw [h]

/-- The queues of other cores are left alone. -/
theorem queues_updateQueues_of_ne {c d : CoreId} (f : RunQueues → RunQueues) (h : c ≠ d) :
    (k.updateQueues c f).queues d = k.queues d := by
  simp only [queues, updateQueues]
  rw [getElem?_cores_updateCore, if_neg h]

/-- Deferred calls are left alone by a change of cores in other respects, -/
theorem dpcs_updateCore {c : CoreId} {f : Core G → Core G}
    (hf : ∀ core, (f core).dpcs = core.dpcs) (d : CoreId) :
    (k.updateCore c f).dpcs d = k.dpcs d := by
  simp only [dpcs]
  rcases k.cores_updateCore_cases c d f with ⟨core, h, h'⟩ | h
  · rw [h, h']
    exact hf core
  · rw [h]

/-- and so is whether a core was started. -/
theorem isStarted_updateCore {c : CoreId} {f : Core G → Core G}
    (hf : ∀ core, (f core).started = core.started) (d : CoreId) :
    (k.updateCore c f).isStarted d = k.isStarted d := by
  simp only [isStarted]
  rcases k.cores_updateCore_cases c d f with ⟨core, h, h'⟩ | h
  · rw [h, h']
    exact hf core
  · rw [h]

/-- Slots are left alone by a change of queues in other respects. -/
theorem running_updateQueues {c : CoreId} {f : RunQueues → RunQueues}
    (hf : ∀ q, (f q).running = q.running) (d : CoreId) :
    ((k.updateQueues c f).queues d).running = (k.queues d).running := by
  simp only [queues, updateQueues]
  rcases k.cores_updateCore_cases c d fun core => { core with queues := f core.queues } with
    ⟨core, h, h'⟩ | h
  · rw [h, h']
    exact hf core.queues
  · rw [h]

/-- A managed core has the deferred calls that are set, and other cores keep theirs. -/
theorem dpcs_setDpcs {c : CoreId} (h : k.manages c = true) (ds : List (Dpc G)) (d : CoreId) :
    (k.setDpcs c ds).dpcs d = if c = d then ds else k.dpcs d := by
  simp only [dpcs, setDpcs]
  rw [getElem?_cores_updateCore]
  by_cases hcd : c = d
  · subst hcd
    rw [if_pos rfl, if_pos rfl, List.getElem?_eq_getElem (of_decide_eq_true h)]
    rfl
  · rw [if_neg hcd, if_neg hcd]

/-- Queues are no matter of deferred calls, -/
theorem queues_setDpcs (c : CoreId) (ds : List (Dpc G)) (d : CoreId) :
    (k.setDpcs c ds).queues d = k.queues d :=
  k.queues_updateCore (f := fun core => { core with dpcs := ds }) (fun _ => rfl) d

/-- nor is whether a core was started. -/
theorem isStarted_setDpcs (c : CoreId) (ds : List (Dpc G)) (d : CoreId) :
    (k.setDpcs c ds).isStarted d = k.isStarted d :=
  k.isStarted_updateCore (f := fun core => { core with dpcs := ds }) (fun _ => rfl) d

/-- The same cores are managed after a change of queues. -/
theorem manages_updateQueues (c d : CoreId) (f : RunQueues → RunQueues) :
    (k.updateQueues c f).manages d = k.manages d :=
  k.manages_updateCore c d _

/-- To make a thread ready switches nobody in, -/
theorem running_makeReady (c : CoreId) (t : ThreadId) (d : CoreId) :
    ((k.makeReady c t).queues d).running = (k.queues d).running :=
  (k.setState t .ready).running_updateQueues (f := fun q => { q with ready := q.ready ++ [t] })
    (fun _ => rfl) d

/-- nor does it switch a thread out to end it, -/
theorem running_terminate (c : CoreId) (t : ThreadId) (d : CoreId) :
    ((k.terminate c t).queues d).running = (k.queues d).running :=
  k.running_updateQueues (f := (·.expel t)) (fun _ => rfl) d

/-- and waking leaves slots alone as well. -/
theorem running_wake (c : CoreId) (t : ThreadId) (d : CoreId) :
    ((k.wake c t).queues d).running = (k.queues d).running :=
  (running_makeReady _ c t d).trans
    (k.running_updateQueues (f := (·.unpark t)) (fun q => q.running_unpark t) d)

/-- The queues of a core that is not managed are empty. -/
theorem queues_eq_empty {c : CoreId} (h : k.manages c = false) : k.queues c = {} := by
  simp only [queues]
  rw [List.getElem?_eq_none (Nat.not_lt.mp (of_decide_eq_false h))]

/-- A core with a thread switched in is managed. -/
theorem manages_of_running {k : Kernel G} {c : CoreId} {t : ThreadId}
    (h : (k.queues c).running = some t) : k.manages c = true := by
  cases hc : k.manages c with
  | true => rfl
  | false =>
    rw [k.queues_eq_empty hc] at h
    cases h

/-! ## Counts -/

/-- How often a thread stands in a queue of a core. -/
def count (c : CoreId) (i : Queue) (t : ThreadId) : Nat := ((k.queues c).threads i).count t

/-- A core in whose queues a thread stands is managed. -/
theorem manages_of_count {k : Kernel G} {c : CoreId} {i : Queue} {t : ThreadId}
    (h : 0 < k.count c i t) : k.manages c = true := by
  cases hc : k.manages c with
  | true => rfl
  | false =>
    simp only [count] at h
    rw [k.queues_eq_empty hc] at h
    cases i <;> cases h

/-- A thread is in a queue if it is there at least once. -/
theorem count_pos_iff {c : CoreId} {i : Queue} {t : ThreadId} :
    0 < k.count c i t ↔ t ∈ (k.queues c).threads i :=
  List.count_pos_iff

/-- Counts after a change of the queues of one core. -/
theorem count_updateQueues {f : RunQueues → RunQueues} {c : CoreId} (h : k.manages c = true)
    (d : CoreId) (i : Queue) (t : ThreadId) :
    (k.updateQueues c f).count d i t =
      if c = d then ((f (k.queues c)).threads i).count t else k.count d i t := by
  simp only [count]
  rw [queues_updateQueues k c d f h]
  split
  · subst_vars
    rfl
  · rfl

/-- A thread that is made ready is in the rotation once more. -/
theorem count_makeReady {c : CoreId} (h : k.manages c = true) (t : ThreadId) (d : CoreId)
    (i : Queue) (u : ThreadId) : (k.makeReady c t).count d i u =
      k.count d i u + if c = d ∧ i = .ready ∧ t = u then 1 else 0 := by
  simp only [makeReady]
  rw [count_updateQueues (k.setState t .ready) h]
  by_cases hd : c = d
  · subst hd
    cases i <;> simp [count, RunQueues.threads, List.count_singleton]
  · rw [if_neg hd, if_neg fun h => hd h.1]
    rfl

/-- A thread that is ended is in each queue of the core once less, if it was there. -/
theorem count_terminate {c : CoreId} (h : k.manages c = true) (t : ThreadId) (d : CoreId)
    (i : Queue) (u : ThreadId) : (k.terminate c t).count d i u =
      k.count d i u - if c = d ∧ t = u then 1 else 0 := by
  change (k.updateQueues c (·.expel t)).count d i u = _
  rw [count_updateQueues k h]
  by_cases hd : c = d
  · subst hd
    rw [if_pos rfl, RunQueues.threads_expel, List.count_erase]
    simp [count]
  · rw [if_neg hd, if_neg fun h => hd h.1]
    rfl

/-- A thread that is parked moves from the rotation to those that stand parked. -/
theorem count_suspend {c : CoreId} (h : k.manages c = true) (t : ThreadId) (d : CoreId)
    (i : Queue) (u : ThreadId) : (k.suspend c t).count d i u =
      (k.count d i u - if c = d ∧ i = .ready ∧ t = u then 1 else 0) +
        if c = d ∧ i = .suspended ∧ t = u then 1 else 0 := by
  simp only [suspend]
  rw [count_updateQueues (k.setState t (.wait .infinite)) h]
  by_cases hd : c = d
  · subst hd
    cases i <;> simp [count, RunQueues.threads, List.count_erase, List.count_singleton]
  · rw [if_neg hd, if_neg fun h => hd h.1, if_neg fun h => hd h.1]
    rfl

/-- A thread that falls asleep moves from the rotation to the sleepers. -/
theorem count_sleep {c : CoreId} (h : k.manages c = true) (t : ThreadId) (wake : Nat) (d : CoreId)
    (i : Queue) (u : ThreadId) : (k.sleep c t wake).count d i u =
      (k.count d i u - if c = d ∧ i = .ready ∧ t = u then 1 else 0) +
        if c = d ∧ i = .delayed ∧ t = u then 1 else 0 := by
  simp only [sleep]
  rw [count_updateQueues (k.setState t (.wait .timed)) h]
  by_cases hd : c = d
  · subst hd
    cases i <;> simp [count, RunQueues.threads, List.count_erase, DelayedQueue.count_threads_insert]
  · rw [if_neg hd, if_neg fun h => hd h.1, if_neg fun h => hd h.1]
    rfl

/-- A thread that is woken moves from where it waited to the rotation. -/
theorem count_wake {c : CoreId} (h : k.manages c = true) (t : ThreadId) (d : CoreId) (i : Queue)
    (u : ThreadId) : (k.wake c t).count d i u =
      (k.count d i u - if c = d ∧ i = (k.queues c).parkedIn t ∧ t = u then 1 else 0) +
        if c = d ∧ i = .ready ∧ t = u then 1 else 0 := by
  simp only [wake]
  rw [count_makeReady _ ((k.manages_updateQueues c c _).trans h), count_updateQueues k h]
  congr 1
  by_cases hd : c = d
  · subst hd
    rw [if_pos rfl, RunQueues.threads_unpark]
    by_cases hi : i = (k.queues c).parkedIn t
    · rw [if_pos hi, List.count_erase]
      simp [count, hi]
    · rw [if_neg hi, if_neg fun h => hi h.2.1]
      rfl
  · rw [if_neg hd, if_neg fun h => hd h.1]
    rfl

/-! ## Switching -/

/-- Nobody changes queues by being switched in. -/
theorem count_switchTo {c : CoreId} (h : k.manages c = true) (t : ThreadId) (d : CoreId)
    (i : Queue) (u : ThreadId) : (k.switchTo c t).count d i u = k.count d i u := by
  simp only [switchTo]
  rw [count_updateQueues (k.setState t .running) h]
  split
  next hd =>
    subst hd
    cases i <;> rfl
  next => rfl

/-- The thread that is switched in is in the slot. -/
theorem running_switchTo {c : CoreId} (h : k.manages c = true) (t : ThreadId) (d : CoreId) :
    ((k.switchTo c t).queues d).running = if c = d then some t else (k.queues d).running := by
  simp only [switchTo]
  rw [queues_updateQueues (k.setState t .running) c d _ h]
  split <;> rfl

/-- An interrupt saves a context and perhaps a state; cores are left alone. -/
theorem cores_interruptRunning (c : CoreId) (context : Context) :
    (k.interruptRunning c context).cores = k.cores := by
  unfold interruptRunning
  split
  · rfl
  · dsimp only
    split <;> rfl

/-- Queues are left alone by an interrupt, -/
theorem queues_interruptRunning (c : CoreId) (context : Context) (d : CoreId) :
    (k.interruptRunning c context).queues d = k.queues d := by
  simp only [queues]
  rw [cores_interruptRunning]

/-- and so are owners. -/
theorem ownerOf_interruptRunning (c : CoreId) (context : Context) (t : ThreadId) :
    (k.interruptRunning c context).ownerOf t = k.ownerOf t := by
  unfold interruptRunning
  split
  · rfl
  · dsimp only
    split
    · rw [ownerOf_setState, ownerOf_saveContext]
    · rw [ownerOf_saveContext]

/-- The interrupted thread is ready from now on, if it was running; other states stay. -/
theorem stateOf_interruptRunning (c : CoreId) (context : Context) (t : ThreadId) :
    (k.interruptRunning c context).stateOf t =
      if (k.queues c).running = some t ∧ k.stateOf t = .running then .ready else k.stateOf t := by
  simp only [interruptRunning]
  cases hr : (k.queues c).running with
  | none => rw [if_neg fun h => nomatch h.1]
  | some u =>
    dsimp only
    rw [stateOf_saveContext]
    by_cases hut : u = t
    · subst hut
      by_cases hs : k.stateOf u = .running
      · have hu : u < (k.saveContext u context).threads.length := by
          refine lt_length_of_stateOf ?_
          rw [stateOf_saveContext, hs]
          nofun
        rw [if_pos hs, if_pos ⟨rfl, hs⟩, stateOf_setState_self _ _ hu]
      · rw [if_neg hs, if_neg fun h => hs h.2, stateOf_saveContext]
    · have hne : ¬ (some u = some t ∧ k.stateOf t = .running) := fun h => hut (Option.some.inj h.1)
      rw [if_neg hne]
      split
      · rw [stateOf_setState_of_ne _ _ hut, stateOf_saveContext]
      · rw [stateOf_saveContext]

/-- The interrupted context is saved into the running thread. -/
theorem contextOf_interruptRunning (c : CoreId) (context : Context) {t : ThreadId}
    (h : t < k.threads.length) : (k.interruptRunning c context).contextOf t =
      if (k.queues c).running = some t then context else k.contextOf t := by
  simp only [interruptRunning]
  cases (k.queues c).running with
  | none => rw [if_neg nofun]
  | some u =>
    have hsaved := k.contextOf_saveContext u context h
    simp only [Option.some.injEq]
    split
    · rw [contextOf_setState, hsaved]
    · exact hsaved

/-- An interrupt makes no thread. -/
theorem length_threads_interruptRunning (c : CoreId) (context : Context) :
    (k.interruptRunning c context).threads.length = k.threads.length := by
  unfold interruptRunning
  split
  · rfl
  · dsimp only
    split <;> simp [setState, saveContext]

/-! ## The tick -/

/-- Put threads at the end of the rotation, one after the other. -/
def makeAllReady (c : CoreId) (due : List Sleeper) : Kernel G :=
  due.foldl (fun k s => k.makeReady c s.thread) k

/-- Each sleeper is in the rotation as often as it is due. -/
theorem count_makeAllReady {c : CoreId} (h : k.manages c = true) (due : List Sleeper) (d : CoreId)
    (i : Queue) (u : ThreadId) : (k.makeAllReady c due).count d i u =
      k.count d i u + if c = d ∧ i = .ready then (DelayedQueue.threads due).count u else 0 := by
  induction due generalizing k with
  | nil => simp [makeAllReady, DelayedQueue.threads]
  | cons s due ih =>
    have hk : (k.makeReady c s.thread).manages c = true := (manages_updateCore _ c c _).trans h
    change ((k.makeReady c s.thread).makeAllReady c due).count d i u = _
    rw [ih _ hk, count_makeReady k h]
    by_cases hd : c = d ∧ i = .ready
    · obtain ⟨rfl, rfl⟩ := hd
      simp [DelayedQueue.threads, List.count_cons]
      omega
    · rw [if_neg hd, if_neg hd, if_neg fun h => hd ⟨h.1, h.2.1⟩]

/-- Owners are left alone by those who wake. -/
theorem ownerOf_makeAllReady (c : CoreId) (due : List Sleeper) (u : ThreadId) :
    (k.makeAllReady c due).ownerOf u = k.ownerOf u := by
  induction due generalizing k with
  | nil => rfl
  | cons s due ih => exact (ih _).trans (k.ownerOf_setState s.thread u .ready)

/-- To make a thread ready leaves the states of others alone. -/
theorem stateOf_makeReady_of_ne {c : CoreId} {t u : ThreadId} (h : t ≠ u) :
    (k.makeReady c t).stateOf u = k.stateOf u :=
  k.stateOf_setState_of_ne .ready h

/-- A thread that is made ready is ready. -/
theorem stateOf_makeReady_self (c : CoreId) {t : ThreadId} (h : t < k.threads.length) :
    (k.makeReady c t).stateOf t = .ready :=
  k.stateOf_setState_self .ready h

/-- No thread is made by making one ready. -/
theorem length_threads_makeReady (c : CoreId) (t : ThreadId) :
    (k.makeReady c t).threads.length = k.threads.length :=
  k.length_threads_updateThread t _

/-- Contexts are left alone by those who wake. -/
theorem contextOf_makeAllReady (c : CoreId) (due : List Sleeper) (u : ThreadId) :
    (k.makeAllReady c due).contextOf u = k.contextOf u := by
  induction due generalizing k with
  | nil => rfl
  | cons s due ih => exact (ih _).trans (k.contextOf_setState s.thread .ready u)

/-- No thread is made by waking any. -/
theorem length_threads_makeAllReady (c : CoreId) (due : List Sleeper) :
    (k.makeAllReady c due).threads.length = k.threads.length := by
  induction due generalizing k with
  | nil => rfl
  | cons s due ih => exact (ih _).trans (k.length_threads_makeReady c s.thread)

/-- Who does not wake keeps its state, -/
theorem stateOf_makeAllReady_of_not_mem (c : CoreId) {due : List Sleeper} {u : ThreadId}
    (hu : u ∉ DelayedQueue.threads due) : (k.makeAllReady c due).stateOf u = k.stateOf u := by
  induction due generalizing k with
  | nil => rfl
  | cons s due ih =>
    obtain ⟨hs, hdue⟩ := List.ne_and_not_mem_of_not_mem_cons hu
    exact (ih _ hdue).trans (k.stateOf_makeReady_of_ne (Ne.symm hs))

/-- and who wakes is ready. -/
theorem stateOf_makeAllReady_of_mem (c : CoreId) {due : List Sleeper} {u : ThreadId}
    (hu : u ∈ DelayedQueue.threads due) (hlt : u < k.threads.length) :
    (k.makeAllReady c due).stateOf u = .ready := by
  induction due generalizing k with
  | nil => cases hu
  | cons s due ih =>
    change ((k.makeReady c s.thread).makeAllReady c due).stateOf u = _
    by_cases hmem : u ∈ DelayedQueue.threads due
    · exact ih _ hmem ((k.length_threads_makeReady c s.thread).symm ▸ hlt)
    · rw [stateOf_makeAllReady_of_not_mem _ c hmem]
      obtain rfl : u = s.thread := (List.mem_cons.mp hu).resolve_right hmem
      exact k.stateOf_makeReady_self c hlt

/-- Nobody is switched in by waking. -/
theorem running_makeAllReady (c : CoreId) (due : List Sleeper) (d : CoreId) :
    ((k.makeAllReady c due).queues d).running = (k.queues d).running := by
  induction due generalizing k with
  | nil => rfl
  | cons s due ih => exact (ih _).trans (k.running_makeReady c s.thread d)

/-- A tick counts, takes the due sleepers out of their queue, and puts them into the rotation. -/
theorem advance_eq (c : CoreId) : k.advance c =
    (k.updateQueues c fun q =>
      { q with
        ticks := RunQueues.nextTick (k.queues c).ticks
        delayed := q.delayed.later (RunQueues.nextTick (k.queues c).ticks) }).makeAllReady c
      (k.dueNext c) := rfl

/-- There is nothing to change of a core that is not managed. -/
theorem updateCore_of_not_manages {c : CoreId} (h : k.manages c = false) (f : Core G → Core G) :
    k.updateCore c f = k := by
  simp only [updateCore]
  rw [List.modify_eq_self (Nat.not_lt.mp (of_decide_eq_false h))]

/-- There is no tick on a core that is not managed. -/
theorem advance_of_not_manages {c : CoreId} (h : k.manages c = false) : k.advance c = k := by
  have hdue : k.dueNext c = [] := by
    simp only [dueNext]
    rw [k.queues_eq_empty h]
    rfl
  rw [advance_eq, hdue]
  exact k.updateCore_of_not_manages h _

/-- The due sleepers of a core and those who sleep on are its sleepers. -/
theorem count_dueNext (c : CoreId) (u : ThreadId) :
    (DelayedQueue.threads (k.dueNext c)).count u +
      ((k.queues c).delayed.later (RunQueues.nextTick (k.queues c).ticks)).threads.count u =
        k.count c .delayed u := by
  have hsplit := DelayedQueue.threads_due_append_later
    (RunQueues.nextTick (k.queues c).ticks) (k.queues c).delayed
  rw [count, RunQueues.threads, ← hsplit, List.count_append]
  rfl

/-- A tick moves who is due from the sleepers to the rotation. -/
theorem count_advance {c : CoreId} (h : k.manages c = true) (d : CoreId) (i : Queue)
    (u : ThreadId) : (k.advance c).count d i u =
      (k.count d i u -
          if c = d ∧ i = .delayed then (DelayedQueue.threads (k.dueNext c)).count u else 0) +
        if c = d ∧ i = .ready then (DelayedQueue.threads (k.dueNext c)).count u else 0 := by
  rw [advance_eq, count_makeAllReady _ ((k.manages_updateQueues c c _).trans h)]
  congr 1
  rw [count_updateQueues k h]
  by_cases hd : c = d
  · subst hd
    rw [if_pos rfl]
    cases i with
    | delayed =>
      rw [if_pos ⟨rfl, rfl⟩, ← k.count_dueNext c u]
      exact (Nat.add_sub_cancel_left _ _).symm
    | _ => simp [count, RunQueues.threads]
  · rw [if_neg hd, if_neg fun h => hd h.1]
    rfl

/-- A tick leaves owners alone, -/
theorem ownerOf_advance (c : CoreId) (u : ThreadId) : (k.advance c).ownerOf u = k.ownerOf u := by
  rw [advance_eq, ownerOf_makeAllReady]
  rfl

/-- and contexts, -/
theorem contextOf_advance (c : CoreId) (u : ThreadId) :
    (k.advance c).contextOf u = k.contextOf u := by
  rw [advance_eq, contextOf_makeAllReady]
  rfl

/-- and makes no thread. -/
theorem length_threads_advance (c : CoreId) :
    (k.advance c).threads.length = k.threads.length := by
  rw [advance_eq, length_threads_makeAllReady]
  rfl

/-- Who is not due keeps its state over the tick, -/
theorem stateOf_advance_of_not_mem {c : CoreId} {u : ThreadId}
    (hu : u ∉ DelayedQueue.threads (k.dueNext c)) : (k.advance c).stateOf u = k.stateOf u := by
  rw [advance_eq, stateOf_makeAllReady_of_not_mem _ c hu]
  rfl

/-- and who is due is ready after it. -/
theorem stateOf_advance_of_mem {c : CoreId} {u : ThreadId}
    (hu : u ∈ DelayedQueue.threads (k.dueNext c)) (hlt : u < k.threads.length) :
    (k.advance c).stateOf u = .ready := by
  rw [advance_eq]
  exact stateOf_makeAllReady_of_mem _ c hu hlt

/-- The slot is changed by the switch that follows only. -/
theorem running_advance (c d : CoreId) :
    ((k.advance c).queues d).running = (k.queues d).running := by
  rw [advance_eq, running_makeAllReady]
  refine k.running_updateQueues ?_ d
  exact fun _ => rfl

/-- A due sleeper sleeps. -/
theorem mem_delayed_of_dueNext {c : CoreId} {u : ThreadId}
    (h : u ∈ DelayedQueue.threads (k.dueNext c)) : u ∈ (k.queues c).threads .delayed := by
  change u ∈ (k.queues c).delayed.threads
  rw [← DelayedQueue.threads_due_append_later (RunQueues.nextTick (k.queues c).ticks)]
  exact List.mem_append_left _ h

end Kernel

end Nucleus
