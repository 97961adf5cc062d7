import Nucleus.Proofs.Deadline
import Nucleus.Proofs.Interrupts

/-!
# A signal in closed form

A signal goes through the waiters of an event one at a time: it marks an entry, looks for the core
that owns the thread, and wakes the thread there if it still waits. Here is what comes of it, all at
once, over all entries, threads and cores.

* `Kernel.wakerOf` is the core that can wake the thread of an entry, and `Kernel.stillParked` are
  the threads of entries that wait there still.
* `RunQueues.rouse` brings threads into a rotation, `Kernel.Wakes` says that threads are woken and
  nothing else happens to threads and cores, and `Kernel.Signalled` is a signal, with nothing left
  unsaid.
* `Effect.release_cases` says what a signal does to one waiter, and `Effect.wakes_releaseAll` to all
  of them; `Effect.releaseOne_of_split` and `Effect.releaseOne_of_unowned` say where a signal that
  is for one waiter stops.
* `Call.ending?_signalTimes` says what signals one after the other come to, `Kernel.Served` whom
  they are for, and `signal_in_closed_form` is the result.
-/

namespace Nucleus

variable {G : Guest}

/-! ## Waking threads -/

/-- What stands in a list once is taken out by leaving out everything like it. -/
theorem eraseP_eq_filter {α : Type} {p : α → Bool} {l : List α} (h : l.countP p ≤ 1) :
    l.eraseP p = l.filter fun a => !p a := by
  induction l with
  | nil => rfl
  | cons a l ih =>
    by_cases ha : p a = true
    · rw [List.countP_cons_of_pos ha] at h
      have hnone : ∀ b ∈ l, ¬ p b = true := List.countP_eq_zero.mp (by omega)
      rw [List.eraseP_cons_of_pos ha, List.filter_cons_of_neg (by simp [ha])]
      exact (List.filter_eq_self.mpr fun b hb => by simp [hnone b hb]).symm
    · rw [List.countP_cons_of_neg ha] at h
      rw [List.eraseP_cons_of_neg ha, List.filter_cons_of_pos (by simp [ha]), ih h]

namespace RunQueues

/-- Bring threads that sleep or stand parked to the end of the rotation. -/
def rouse (ts : List ThreadId) (q : RunQueues) : RunQueues :=
  { q with
    ready := q.ready ++ ts
    delayed := q.delayed.filter fun s => s.thread ∉ ts
    suspended := q.suspended.filter fun t => t ∉ ts }

@[simp] theorem rouse_nil (q : RunQueues) : q.rouse [] = q := by
  have hall {α : Type} (l : List α) : l.filter (fun _ => true) = l :=
    List.filter_eq_self.mpr fun _ _ => rfl
  simp only [rouse, List.append_nil, List.not_mem_nil, not_false_eq_true, decide_true, hall]

theorem rouse_rouse (q : RunQueues) (ts us : List ThreadId) :
    (q.rouse ts).rouse us = q.rouse (ts ++ us) := by
  simp only [rouse, List.append_assoc, List.filter_filter, List.mem_append, not_or, Bool.decide_and,
    Bool.and_comm]

theorem isParked_rouse (q : RunQueues) (ts : List ThreadId) (u : ThreadId) :
    (q.rouse ts).isParked u = (q.isParked u && decide (u ∉ ts)) := by
  rw [Bool.eq_iff_iff, Bool.and_eq_true, isParked_iff, isParked_iff]
  simp only [rouse, threads, DelayedQueue.threads, List.mem_map, List.mem_filter, decide_eq_true_eq]
  grind

theorem ready_unpark (q : RunQueues) (t : ThreadId) : (q.unpark t).ready = q.ready := by
  simp only [unpark]
  split <;> rfl

/-- A thread that stands in one place only is taken out of there by leaving it out everywhere. -/
theorem unpark_eq_rouse {q : RunQueues} {t : ThreadId}
    (once : q.delayed.threads.count t + q.suspended.count t ≤ 1) :
    { q.unpark t with ready := q.ready ++ [t] } = q.rouse [t] := by
  have hdelayed : q.delayed.filter (fun s => s.thread ∉ [t]) = q.delayed.remove t := by
    have hcount : q.delayed.countP (fun s => s.thread == t) = q.delayed.threads.count t := by
      simp only [DelayedQueue.threads, List.count, List.countP_map]
      rfl
    rw [DelayedQueue.remove, eraseP_eq_filter (by omega)]
    refine List.filter_congr fun s _ => Bool.eq_iff_iff.mpr ?_
    simp
  have hsuspended : q.suspended.filter (fun u => u ∉ [t]) = q.suspended.erase t := by
    have hcount : q.suspended.countP (· == t) = q.suspended.count t := rfl
    rw [List.erase_eq_eraseP', eraseP_eq_filter (by omega)]
    refine List.filter_congr fun u _ => Bool.eq_iff_iff.mpr ?_
    simp
  simp only [rouse, hdelayed, hsuspended, unpark]
  split
  next hd =>
    have hpos := List.count_pos_iff.mpr (DelayedQueue.contains_iff.mp hd)
    rw [List.erase_of_not_mem (List.count_eq_zero.mp (by omega))]
  next hd =>
    have hnot : ∀ s ∈ q.delayed, ¬ (s.thread == t) = true := fun s hs hst =>
      hd (List.any_eq_true.mpr ⟨s, hs, hst⟩)
    rw [DelayedQueue.remove, List.eraseP_of_forall_not hnot]

end RunQueues

namespace Kernel

/-- Nobody stands in two places of the queues of a core. -/
def QueuedOnce (k : Kernel G) : Prop :=
  ∀ c t, k.count c .ready t + k.count c .delayed t + k.count c .suspended t ≤ 1

theorem queuedOnce_iff {k : Kernel G} : k.QueuedOnce ↔ ∀ core ∈ k.cores,
    (core.queues.ready ++ core.queues.delayed.threads ++ core.queues.suspended).Nodup := by
  simp only [List.nodup_iff_count, List.count_append]
  constructor
  · intro once core hcore t
    obtain ⟨c, hc⟩ := List.mem_iff_getElem?.mp hcore
    have hqueues : k.queues c = core.queues := by
      simp only [queues]
      rw [hc]
    exact hqueues ▸ once c t
  · intro h c t
    simp only [count, queues]
    cases hc : k.cores[c]? with
    | none => exact Nat.zero_le 1
    | some core => exact h core (List.mem_of_getElem? hc) t

instance (k : Kernel G) : Decidable k.QueuedOnce := decidable_of_iff' _ queuedOnce_iff

/-- The managed core that owns the thread of a wait entry. -/
def wakerOf (k : Kernel G) (w : WaitId) : Option CoreId :=
  (k.entryThread w).bind (Effect.owningCore k)

/-- Does the thread sleep or stand parked on the core that owns it? -/
def waitsAtOwner (k : Kernel G) (t : ThreadId) : Bool :=
  (Effect.owningCore k t).any fun c => (k.queues c).isParked t

/-- The threads of wait entries that still sleep or stand parked on the cores that own them, by the
first entry of each. -/
def stillParked (k : Kernel G) (ws : WaitQueue) : List ThreadId :=
  ((ws.filterMap k.entryThread).filter k.waitsAtOwner).eraseDups

/-- **Threads are woken**, each by the core that owns it, and nothing else happens to threads and
cores. -/
structure Wakes (k : Kernel G) (woken : List ThreadId) (k' : Kernel G) : Prop where
  /-- they are ready -/
  threads : ∀ t : ThreadId, k'.threads[t]? = k.threads[t]?.map fun th =>
    { th with state := if t ∈ woken then .ready else th.state }
  /-- they come to the end of the rotation, one behind the other -/
  cores : ∀ c : CoreId, k'.cores[c]? = k.cores[c]?.map fun core =>
    { core with
      queues := core.queues.rouse (woken.filter fun t => Effect.owningCore k t = some c) }
  /-- besides threads and cores, entries and events may differ -/
  rest : { k' with
    threads := k.threads, cores := k.cores, events := k.events, waits := k.waits } = k

variable {k k' k'' : Kernel G} {c : CoreId} {t u : ThreadId} {woken : List ThreadId}

namespace Wakes

/-- Nobody is woken. -/
theorem of_tables (hthreads : k'.threads = k.threads) (hcores : k'.cores = k.cores)
    (hrest : { k' with
      threads := k.threads, cores := k.cores, events := k.events, waits := k.waits } = k) :
    k.Wakes [] k' := by
  refine ⟨fun t => ?_, fun c => ?_, hrest⟩
  · rw [hthreads]
    simp
  · rw [hcores]
    simp

theorem manages (h : k.Wakes woken k') (c : CoreId) : k'.manages c = k.manages c := by
  have hlen (k : Kernel G) : k.manages c = (k.cores[c]?).isSome := by
    rw [Bool.eq_iff_iff]
    simp [Kernel.manages]
  rw [hlen, hlen, h.cores, Option.isSome_map]

theorem ownerOf (h : k.Wakes woken k') (t : ThreadId) : k'.ownerOf t = k.ownerOf t := by
  simp only [Kernel.ownerOf]
  rw [h.threads, Option.bind_map]
  rfl

theorem owningCore (h : k.Wakes woken k') : Effect.owningCore k' = Effect.owningCore k := by
  funext t
  simp only [Effect.owningCore]
  rw [h.ownerOf]
  simp only [h.manages]

theorem queues (h : k.Wakes woken k') (c : CoreId) : k'.queues c =
    (k.queues c).rouse (woken.filter fun t => Effect.owningCore k t = some c) := by
  simp only [Kernel.queues]
  rw [h.cores]
  cases hc : k.cores[c]? with
  | some core => rfl
  | none =>
    -- nobody is owned by a core that is not managed
    have hnobody : woken.filter (fun t => Effect.owningCore k t = some c) = [] := by
      refine List.filter_eq_nil_iff.mpr fun t _ ht => ?_
      have hm := Effect.manages_of_owningCore (of_decide_eq_true ht)
      rw [Kernel.manages, decide_eq_true_eq] at hm
      exact absurd (List.getElem?_eq_none_iff.mp hc) (Nat.not_le.mpr hm)
    rw [hnobody, RunQueues.rouse_nil]
    rfl

theorem trans {later : List ThreadId} (h : k.Wakes woken k') (h' : k'.Wakes later k'') :
    k.Wakes (woken ++ later) k'' := by
  refine ⟨fun t => ?_, fun c => ?_, ?_⟩
  · rw [h'.threads, h.threads, Option.map_map]
    congr 1
    funext th
    simp only [Function.comp_apply, List.mem_append]
    grind
  · rw [h'.cores, h.cores, Option.map_map, h.owningCore]
    congr 1
    funext core
    simp only [Function.comp_apply, RunQueues.rouse_rouse, List.filter_append]
  · exact (congrArg (fun k' => { k' with
      threads := k.threads, cores := k.cores, events := k.events, waits := k.waits }) h'.rest).trans
      h.rest

/-- Who is woken does not wait any more, and everybody else does as before. -/
theorem waitsAtOwner (h : k.Wakes woken k') (u : ThreadId) :
    k'.waitsAtOwner u = (k.waitsAtOwner u && decide (u ∉ woken)) := by
  simp only [Kernel.waitsAtOwner]
  rw [h.owningCore]
  cases hc : Effect.owningCore k u with
  | none => rfl
  | some c =>
    simp only [Option.any_some]
    rw [h.queues, RunQueues.isParked_rouse]
    simp [hc]

end Wakes

theorem cores_wake (k : Kernel G) (c : CoreId) (t : ThreadId) (d : CoreId) :
    (k.wake c t).cores[d]? = if c = d then k.cores[d]?.map fun core =>
      { core with queues := { core.queues.unpark t with ready := core.queues.ready ++ [t] } }
      else k.cores[d]? := by
  simp only [wake, makeReady, updateQueues]
  rw [getElem?_cores_updateCore, setState, cores_updateThread, getElem?_cores_updateCore]
  split
  · rw [Option.map_map]
    congr 1
    funext core
    simp only [Function.comp_apply, RunQueues.ready_unpark]
  · rfl

/-- One thread that waits where it is owned is woken. -/
theorem wakes_wake (howner : Effect.owningCore k t = some c)
    (once : k.count c .delayed t + k.count c .suspended t ≤ 1) : k.Wakes [t] (k.wake c t) := by
  refine ⟨fun u => ?_, fun d => ?_, rfl⟩
  · change (k.setState t .ready).threads[u]? = _
    simp only [setState]
    rw [getElem?_threads_updateThread]
    by_cases htu : t = u
    · simp [htu]
    · simp [htu, Ne.symm htu]
  · rw [cores_wake]
    by_cases hcd : c = d
    · subst hcd
      have hmine : [t].filter (fun u => Effect.owningCore k u = some c) = [t] := by simp [howner]
      rw [if_pos rfl, hmine]
      cases hcore : k.cores[c]? with
      | none => rfl
      | some core =>
        have hq : k.queues c = core.queues := by
          simp only [Kernel.queues]
          rw [hcore]
        simp only [count, hq] at once
        exact congrArg (fun queues => some { core with queues }) (RunQueues.unpark_eq_rouse once)
    · have hothers : [t].filter (fun u => Effect.owningCore k u = some d) = [] := by
        simp [howner, hcd]
      rw [if_neg hcd, hothers]
      simp

theorem QueuedOnce.wake (once : k.QueuedOnce) (hp : (k.queues c).isParked t = true) :
    (k.wake c t).QueuedOnce := by
  have hc : k.manages c = true := manages_of_isParked hp
  have hpos : 0 < k.count c ((k.queues c).parkedIn t) t :=
    k.count_pos_iff.mpr (RunQueues.mem_parkedIn hp)
  have hne := RunQueues.parkedIn_ne_ready (k.queues c) t
  intro d u
  have hu := once d u
  rw [count_wake _ hc, count_wake _ hc, count_wake _ hc]
  by_cases h : c = d ∧ t = u
  · obtain ⟨rfl, rfl⟩ := h
    cases hq : (k.queues c).parkedIn t <;> simp_all <;> omega
  · have hother (p : Prop) : ¬ (c = d ∧ p ∧ t = u) := fun h' => h ⟨h'.1, h'.2.2⟩
    simp only [hother, if_false]
    omega

/-! ## Waiters -/

/-- Where nobody is woken, everybody waits as before. -/
theorem Wakes.stillParked (h : k.Wakes [] k')
    (hentries : ∀ w, k'.entryThread w = k.entryThread w) (ws : WaitQueue) :
    k'.stillParked ws = k.stillParked ws := by
  have hwaits : k'.waitsAtOwner = k.waitsAtOwner := by
    funext t
    rw [h.waitsAtOwner]
    simp
  simp only [Kernel.stillParked]
  rw [hwaits, funext hentries]

theorem stillParked_singleton {w : WaitId} (hw : k.entryThread w = some t) :
    k.stillParked [w] = if k.waitsAtOwner t then [t] else [] := by
  simp only [stillParked, List.filterMap_cons, hw, List.filterMap_nil, List.filter_cons]
  split
  · rw [List.filter_nil, List.eraseDups_cons]
    rfl
  · rfl

/-- Once the first waiter is dealt with, the others wait as before, but for entries of the same
thread. -/
theorem Wakes.stillParked_cons {w : WaitId} (h : k.Wakes (k.stillParked [w]) k')
    (hentries : ∀ v, k'.entryThread v = k.entryThread v) (ws : WaitQueue) :
    k.stillParked (w :: ws) = k.stillParked [w] ++ k'.stillParked ws := by
  cases hw : k.entryThread w with
  | none =>
    have hnone : k.stillParked [w] = [] := by simp [Kernel.stillParked, hw]
    rw [hnone] at h ⊢
    rw [h.stillParked hentries]
    simp [Kernel.stillParked, hw]
  | some t =>
    have hone := stillParked_singleton hw
    cases ht : k.waitsAtOwner t with
    | false =>
      rw [ht, if_neg Bool.false_ne_true] at hone
      rw [hone] at h ⊢
      rw [h.stillParked hentries]
      simp [Kernel.stillParked, hw, ht]
    | true =>
      -- further entries of the thread are left out, by name before and by its state afterwards
      rw [ht, if_pos rfl] at hone
      rw [hone] at h ⊢
      have hwaits : k'.waitsAtOwner = fun u => k.waitsAtOwner u && decide (u ∉ [t]) :=
        funext h.waitsAtOwner
      simp only [Kernel.stillParked]
      rw [hwaits, funext hentries, List.filterMap_cons, hw, List.filter_cons, if_pos ht,
        List.eraseDups_cons, List.filter_filter, List.singleton_append]
      refine congrArg (fun us => t :: us.eraseDups) (List.filter_congr fun u _ => ?_)
      rw [Bool.eq_iff_iff]
      simp [and_comm]

/-! ## Signals -/

/-- **A signal** of an event: `popped` leave the queue and are marked, `left` stay, `woken` are
woken, and if it is `latched` the latch is set. Nothing else happens. -/
structure Signalled (k : Kernel G) (e : EventId) (popped left : WaitQueue) (latched : Bool)
    (woken : List ThreadId) (k' : Kernel G) : Prop where
  /-- entries are marked -/
  waits : k'.waits = WaitEntry.signalAll popped k.waits
  /-- of the events, the queue and the latch of this one -/
  events : k'.events = k.events.modify e fun ev =>
    { ev with waiters := left, raised := latched || ev.raised }
  /-- threads are woken -/
  wakes : k.Wakes woken k'

/-- Mark entries that are taken from the queue of an event. -/
def pop (k : Kernel G) (e : EventId) (popped left : WaitQueue) : Kernel G :=
  { k.setWaiters e left with waits := WaitEntry.signalAll popped k.waits }

theorem pop_pop (k : Kernel G) (e : EventId) (popped popped' left left' : WaitQueue) :
    (k.pop e popped left).pop e popped' left' = k.pop e (popped ++ popped') left' := by
  simp only [pop, setWaiters, updateEvent, WaitEntry.signalAll, List.modify_modify_eq,
    List.foldl_append]
  rfl

theorem pop_nil (k : Kernel G) (e : EventId) (left : WaitQueue) :
    k.pop e [] left = k.setWaiters e left := rfl

theorem wakes_pop (k : Kernel G) (e : EventId) (popped left : WaitQueue) :
    k.Wakes [] (k.pop e popped left) := .of_tables rfl rfl rfl

theorem wakerOf_pop (k : Kernel G) (e : EventId) (popped left : WaitQueue) (w : WaitId) :
    (k.pop e popped left).wakerOf w = k.wakerOf w := by
  simp only [wakerOf]
  rw [entryThread_signalAll (k := k) rfl, (k.wakes_pop e popped left).owningCore]

theorem setWaiters_self {e : EventId} {q : WaitQueue} (h : k.waitersOf e = q) :
    k.setWaiters e q = k := by
  have hevents : k.events.modify e (fun ev => { ev with waiters := q }) = k.events := by
    refine List.ext_getElem? fun i => ?_
    rw [List.getElem?_modify]
    split
    next hi =>
      subst hi
      cases hev : k.events[e]? with
      | none => rfl
      | some ev =>
        simp only [waitersOf] at h
        rw [hev] at h
        subst h
        rfl
    next => simp
  simp only [setWaiters, updateEvent]
  rw [hevents]

end Kernel

namespace Effect

open Kernel

variable {k : Kernel G} {e : EventId} {w : WaitId}

/-- A thread is woken if it waits on the core that owns it, and otherwise nothing happens. -/
theorem undelayThread_cases (k : Kernel G) (t : ThreadId) :
    (k.waitsAtOwner t = false ∧ (undelayThread t k).1 = k) ∨
    (k.waitsAtOwner t = true ∧ ∃ c, owningCore k t = some c ∧ (k.queues c).isParked t = true ∧
      (undelayThread t k).1 = k.wake c t) := by
  simp only [undelayThread, waitsAtOwner]
  cases hc : owningCore k t with
  | none => exact .inl ⟨rfl, rfl⟩
  | some c =>
    simp only [undelay, Option.any_some]
    cases hp : (k.queues c).isParked t with
    | false => exact .inl ⟨rfl, rfl⟩
    | true => exact .inr ⟨rfl, c, rfl, hp, rfl⟩

/-- **What a signal does to one waiter.** The entry is marked; the thread is woken if it waits on
the core that owns it. -/
theorem release_cases (k : Kernel G) (w : WaitId) :
    (k.stillParked [w] = [] ∧ (release w k).1 = k.updateWait w WaitEntry.signal) ∨
    ∃ t c, k.stillParked [w] = [t] ∧ k.entryThread w = some t ∧ owningCore k t = some c ∧
      (k.queues c).isParked t = true ∧
      (release w k).1 = (k.updateWait w WaitEntry.signal).wake c t := by
  simp only [release]
  rw [getElem?_waits_signal, if_pos rfl]
  cases hw : k.waits[w]? with
  | none =>
    refine .inl ⟨?_, rfl⟩
    simp [stillParked, entryThread, hw]
  | some entry =>
    have hentry : k.entryThread w = some entry.thread := by simp [entryThread, hw]
    rw [stillParked_singleton hentry]
    rcases undelayThread_cases (k.updateWait w WaitEntry.signal) entry.thread with
      ⟨hnot, hk⟩ | ⟨hwaits, c, howner, hparked, hk⟩
    · exact .inl ⟨if_neg (Bool.eq_false_iff.mp hnot), hk⟩
    · exact .inr ⟨entry.thread, c, if_pos hwaits, hentry, howner, hparked, hk⟩

theorem release_snd_eq (k : Kernel G) (w : WaitId) : (release w k).2 = (k.wakerOf w).isSome := by
  simp only [release, wakerOf, entryThread]
  rw [getElem?_waits_signal, if_pos rfl]
  cases k.waits[w]? with
  | none => rfl
  | some entry => rfl

theorem entryThread_release (k : Kernel G) (w v : WaitId) :
    (release w k).1.entryThread v = k.entryThread v :=
  entryThread_modify (f := WaitEntry.signal) (fun _ => rfl) (tables_release k w).2 v

/-- The step of every signal. -/
theorem wakes_release (once : k.QueuedOnce) (w : WaitId) :
    k.Wakes (k.stillParked [w]) (release w k).1 ∧ (release w k).1.QueuedOnce := by
  have hmark : k.Wakes [] (k.updateWait w WaitEntry.signal) := .of_tables rfl rfl rfl
  rcases release_cases k w with ⟨hnone, hk⟩ | ⟨t, c, hone, -, howner, hparked, hk⟩
  · rw [hnone, hk]
    exact ⟨hmark, once⟩
  · rw [hone, hk]
    have hstep := once c t
    refine ⟨hmark.trans (wakes_wake howner ?_), QueuedOnce.wake once hparked⟩
    change k.count c .delayed t + k.count c .suspended t ≤ 1
    omega

/-- **A signal for all waiters** wakes everybody who still waits. The induction is on the queue: a
thread that was woken by one entry is not found waiting by the next. -/
theorem wakes_releaseAll (once : k.QueuedOnce) (ws : WaitQueue) :
    k.Wakes (k.stillParked ws) (releaseAll ws k) := by
  induction ws generalizing k with
  | nil => exact .of_tables rfl rfl rfl
  | cons w ws ih =>
    obtain ⟨hfirst, honce⟩ := wakes_release once w
    rw [hfirst.stillParked_cons (entryThread_release k w)]
    exact hfirst.trans (ih honce)

/-- A waiter without an owner is marked, and that is all. -/
theorem release_of_unowned (h : k.wakerOf w = none) :
    release w k = (k.updateWait w WaitEntry.signal, false) := by
  have hsnd : (release w k).2 = false := by
    rw [release_snd_eq, h]
    rfl
  rcases release_cases k w with ⟨-, hk⟩ | ⟨t, c, -, hentry, howner, -, -⟩
  · exact Prod.ext hk hsnd
  · simp [wakerOf, hentry, howner] at h

/-- **A signal for one waiter** stops at the first whose thread has an owner. The induction is on
those before it. -/
theorem releaseOne_of_split {before : WaitQueue} (left : WaitQueue)
    (hbefore : ∀ v ∈ before, k.wakerOf v = none) (hw : k.wakerOf w ≠ none) :
    releaseOne e (before ++ w :: left) k = ((release w (k.pop e before left)).1, true) := by
  induction before generalizing k with
  | nil =>
    have hsnd : (release w (k.setWaiters e left)).2 = true := by
      rw [release_snd_eq]
      exact Option.isSome_iff_ne_none.mpr hw
    simp only [List.nil_append, releaseOne]
    rw [if_pos hsnd]
    rfl
  | cons v before ih =>
    have hv : (k.setWaiters e (before ++ w :: left)).wakerOf v = none :=
      hbefore v (List.mem_cons_self ..)
    have hsame (u : WaitId) :
        (k.pop e [v] (before ++ w :: left)).wakerOf u = k.wakerOf u := k.wakerOf_pop ..
    simp only [List.cons_append, releaseOne]
    rw [release_of_unowned hv, if_neg Bool.false_ne_true]
    refine (ih (k := k.pop e [v] (before ++ w :: left)) (fun u hu => ?_) ?_).trans ?_
    · rw [hsame]
      exact hbefore u (List.mem_cons_of_mem _ hu)
    · rw [hsame]
      exact hw
    · rw [pop_pop]
      rfl

/-- If there is none, it goes through to the end. -/
theorem releaseOne_of_unowned {ws : WaitQueue} (he : e < k.events.length)
    (hq : k.waitersOf e = ws) (hws : ∀ v ∈ ws, k.wakerOf v = none) :
    releaseOne e ws k = (k.pop e ws [], false) := by
  induction ws generalizing k with
  | nil =>
    simp only [releaseOne]
    rw [pop_nil, setWaiters_self hq]
  | cons v ws ih =>
    have hv : (k.setWaiters e ws).wakerOf v = none := hws v (List.mem_cons_self ..)
    simp only [releaseOne]
    rw [release_of_unowned hv, if_neg Bool.false_ne_true]
    refine (ih (k := k.pop e [v] ws) ?_ ?_ fun u hu => ?_).trans ?_
    · exact (length_events_setWaiters ..).symm ▸ he
    · exact waitersOf_setWaiters k he ws
    · rw [wakerOf_pop]
      exact hws u (List.mem_cons_of_mem _ hu)
    · rw [pop_pop]
      rfl

/-- An auto-reset event hands a signal to its oldest waiter whose thread has an owner. -/
theorem signalled_of_split {before left : WaitQueue} (auto : k.isAutoReset e = true)
    (once : k.QueuedOnce) (hq : k.waitersOf e = before ++ w :: left)
    (hbefore : ∀ v ∈ before, k.wakerOf v = none) (hw : k.wakerOf w ≠ none) :
    k.Signalled e (before ++ [w]) left false (k.stillParked [w]) (signalEvent e k) ∧
      (signalEvent e k).QueuedOnce := by
  have hk : signalEvent e k = (release w (k.pop e before left)).1 := by
    simp only [signalEvent]
    rw [if_pos auto, hq, releaseOne_of_split left hbefore hw, if_pos rfl]
  have hpop := k.wakes_pop e before left
  have hentries : ∀ v, (k.pop e before left).entryThread v = k.entryThread v :=
    entryThread_signalAll rfl
  obtain ⟨hevents, hwaits⟩ := tables_release (k.pop e before left) w
  obtain ⟨hwakes, honce⟩ := wakes_release (k := k.pop e before left) once w
  rw [hpop.stillParked hentries] at hwakes
  rw [hk]
  refine ⟨⟨?_, hevents, hpop.trans hwakes⟩, honce⟩
  rw [hwaits, WaitEntry.signalAll, List.foldl_append]
  rfl

/-- Where there is none, the event keeps the signal. -/
theorem signalled_of_unowned (auto : k.isAutoReset e = true) (once : k.QueuedOnce)
    (hws : ∀ w ∈ k.waitersOf e, k.wakerOf w = none) :
    k.Signalled e (k.waitersOf e) [] true [] (signalEvent e k) ∧ (signalEvent e k).QueuedOnce := by
  have hk : signalEvent e k = (k.pop e (k.waitersOf e) []).setRaised e true := by
    simp only [signalEvent]
    rw [if_pos auto, releaseOne_of_unowned (lt_length_of_isAutoReset auto) rfl hws,
      if_neg Bool.false_ne_true]
  rw [hk]
  refine ⟨⟨rfl, ?_, .of_tables rfl rfl rfl⟩, once⟩
  exact List.modify_modify_eq ..

/-- A manual-reset event hands a signal to all its waiters, and keeps it. -/
theorem signalled_of_manual (manual : k.isAutoReset e = false) (once : k.QueuedOnce) :
    k.Signalled e (k.waitersOf e) [] true (k.stillParked (k.waitersOf e)) (signalEvent e k) := by
  have hk : signalEvent e k =
      releaseAll (k.waitersOf e) ((k.setRaised e true).setWaiters e []) := by
    simp only [signalEvent]
    rw [if_neg (Bool.eq_false_iff.mp manual)]
  have hlatch : k.Wakes [] ((k.setRaised e true).setWaiters e []) := .of_tables rfl rfl rfl
  obtain ⟨hevents, hwaits⟩ :=
    tables_releaseAll (k.waitersOf e) ((k.setRaised e true).setWaiters e [])
  have hwakes := wakes_releaseAll (k := (k.setRaised e true).setWaiters e []) once (k.waitersOf e)
  rw [hlatch.stillParked fun _ => rfl] at hwakes
  rw [hk]
  refine ⟨hwaits, hevents.trans ?_, hlatch.trans hwakes⟩
  exact List.modify_modify_eq ..

end Effect

/-! ## Signals one after the other -/

namespace Kernel

variable {k k' k'' : Kernel G} {e : EventId} {popped left : WaitQueue} {latched : Bool}
  {woken : List ThreadId}

/-- The waiters of an event whose threads have an owner. -/
def ownedWaiters (k : Kernel G) (e : EventId) : WaitQueue :=
  (k.waitersOf e).filter fun w => (k.wakerOf w).isSome

theorem filter_of_unowned {ws : WaitQueue} (hws : ∀ v ∈ ws, k.wakerOf v = none) :
    ws.filter (fun w => (k.wakerOf w).isSome) = [] :=
  List.filter_eq_nil_iff.mpr fun v hv => by simp [hws v hv]

theorem ownedWaiters_of_split {before : WaitQueue} {w : WaitId}
    (hq : k.waitersOf e = before ++ w :: left) (hbefore : ∀ v ∈ before, k.wakerOf v = none)
    (hw : k.wakerOf w ≠ none) :
    k.ownedWaiters e = w :: left.filter fun v => (k.wakerOf v).isSome := by
  simp only [ownedWaiters]
  rw [hq, List.filter_append, filter_of_unowned hbefore, List.nil_append,
    List.filter_cons_of_pos (by simpa [Option.isSome_iff_ne_none] using hw)]

namespace Signalled

theorem refl (k : Kernel G) (e : EventId) : k.Signalled e [] (k.waitersOf e) false [] k :=
  ⟨rfl, (congrArg Kernel.events (setWaiters_self rfl)).symm, .of_tables rfl rfl rfl⟩

/-- Two signals come to one of both. -/
theorem trans {popped' left' : WaitQueue} {latched' : Bool} {later : List ThreadId}
    (h : k.Signalled e popped left latched woken k')
    (h' : k'.Signalled e popped' left' latched' later k'') :
    k.Signalled e (popped ++ popped') left' (latched || latched') (woken ++ later) k'' := by
  refine ⟨?_, ?_, h.wakes.trans h'.wakes⟩
  · rw [h'.waits, h.waits]
    simp only [WaitEntry.signalAll, List.foldl_append]
  · rw [h'.events, h.events, List.modify_modify_eq]
    congr 1
    funext ev
    simp only [Function.comp_apply, Bool.or_left_comm, Bool.or_assoc]

theorem entryThread (h : k.Signalled e popped left latched woken k') (w : WaitId) :
    k'.entryThread w = k.entryThread w := entryThread_signalAll h.waits w

theorem wakerOf (h : k.Signalled e popped left latched woken k') (w : WaitId) :
    k'.wakerOf w = k.wakerOf w := by
  simp only [Kernel.wakerOf]
  rw [h.entryThread, h.wakes.owningCore]

theorem isAutoReset (h : k.Signalled e popped left latched woken k') :
    k'.isAutoReset e = k.isAutoReset e := by
  simp only [Kernel.isAutoReset]
  rw [h.events, List.getElem?_modify_eq]
  cases k.events[e]? <;> rfl

theorem waitersOf (h : k.Signalled e popped left latched woken k') (he : e < k.events.length) :
    k'.waitersOf e = left := by
  simp only [Kernel.waitersOf]
  rw [h.events, List.getElem?_modify_eq, List.getElem?_eq_getElem he]
  rfl

theorem ownedWaiters (h : k.Signalled e popped left latched woken k') (he : e < k.events.length) :
    k'.ownedWaiters e = left.filter fun w => (k.wakerOf w).isSome := by
  simp only [Kernel.ownedWaiters]
  rw [h.waitersOf he]
  simp only [h.wakerOf]

end Signalled

/-- A number of signals takes `popped` out of the queue of an auto-reset event: everybody up to the
last owned waiter that there is a signal for, and all if there are more signals than that. -/
structure Served (k : Kernel G) (e : EventId) (count : Nat) (popped left : WaitQueue) : Prop where
  /-- the oldest leave, in order of arrival -/
  queue : k.waitersOf e = popped ++ left
  /-- each signal is for one owned waiter -/
  owned : popped.filter (fun w => (k.wakerOf w).isSome) = (k.ownedWaiters e).take count
  /-- nobody behind the last of these leaves -/
  last : count ≤ (k.ownedWaiters e).length → ∀ w ∈ popped.getLast?, k.wakerOf w ≠ none
  /-- a signal that finds no owned waiter goes through all -/
  all : (k.ownedWaiters e).length < count → left = []

namespace Served

variable {count : Nat}

theorem zero (k : Kernel G) (e : EventId) : k.Served e 0 [] (k.waitersOf e) :=
  ⟨rfl, rfl, nofun, fun h => absurd h (Nat.not_lt_zero _)⟩

/-- A signal that finds no owned waiter, and others behind it. -/
theorem of_unowned (hs : k.Signalled e (k.waitersOf e) [] latched woken k')
    (he : e < k.events.length) (hws : ∀ v ∈ k.waitersOf e, k.wakerOf v = none)
    (h : k'.Served e count popped left) :
    k.Served e (count + 1) (k.waitersOf e ++ popped) left := by
  have hrest := h.queue
  rw [hs.waitersOf he] at hrest
  obtain ⟨rfl, rfl⟩ := List.append_eq_nil_iff.mp hrest.symm
  have howned : k.ownedWaiters e = [] := filter_of_unowned hws
  refine ⟨by simp, ?_, fun hle => ?_, fun _ => rfl⟩
  · rw [howned, List.append_nil, filter_of_unowned hws, List.take_nil]
  · rw [howned] at hle
    exact absurd hle (Nat.not_succ_le_zero count)

/-- A signal for an owned waiter, and others behind it. -/
theorem of_split {before : WaitQueue} {w : WaitId}
    (hs : k.Signalled e (before ++ [w]) left latched woken k') (he : e < k.events.length)
    (hq : k.waitersOf e = before ++ w :: left) (hbefore : ∀ v ∈ before, k.wakerOf v = none)
    (hw : k.wakerOf w ≠ none) {left' : WaitQueue} (h : k'.Served e count popped left') :
    k.Served e (count + 1) (before ++ [w] ++ popped) left' := by
  have howned := ownedWaiters_of_split hq hbefore hw
  have hlen : (k.ownedWaiters e).length = (k'.ownedWaiters e).length + 1 := by
    rw [howned, hs.ownedWaiters he, List.length_cons]
  have hrest := h.queue
  rw [hs.waitersOf he] at hrest
  refine ⟨?_, ?_, fun hle v hv => ?_, fun hlt => h.all (by omega)⟩
  · rw [hq, hrest]
    simp
  · have hpopped := h.owned
    rw [hs.ownedWaiters he] at hpopped
    simp only [hs.wakerOf] at hpopped
    rw [howned, List.take_succ_cons, ← hpopped, List.filter_append, List.filter_append,
      filter_of_unowned hbefore]
    simp [Option.isSome_iff_ne_none, hw]
  · rw [List.getLast?_append, List.getLast?_concat] at hv
    cases hlast : popped.getLast? with
    | none =>
      rw [hlast] at hv
      obtain rfl : w = v := Option.some.inj hv
      exact hw
    | some u =>
      rw [hlast] at hv
      obtain rfl : u = v := Option.some.inj hv
      rw [← hs.wakerOf]
      exact h.last (by omega) u hlast

end Served

end Kernel

namespace Call

/-- A signal returns, with its effect. -/
theorem ending?_signalEvent (e : EventId) {m : Machine G} (free : m.chip.held = []) :
    ∃ n, (signalEvent e m).ending? = some (n, ()) ∧
      n.kernel = Effect.signalEvent e m.kernel ∧ n.chip.held = [] := by
  have hreturns : (Op.call (.signalEvent e) m).Returns :=
    Op.returns_call rfl free rfl (Op.not_mayStop nofun nofun nofun nofun nofun)
  obtain ⟨n, ⟨⟩, hn⟩ := hreturns
  obtain ⟨-, hk, -⟩ := does_signalEvent e rfl (Run.rests_of_ending? hn)
  have hbuilt : (signalEvent e : Call G Unit).Built (fun _ => True) .nested 0 := built_signalEvent e
  exact ⟨n, hn, hk, hbuilt.held_of_ending? free hn⟩

/-- Signal an event a number of times. -/
def signalTimes (e : EventId) : Nat → Call G Unit
  | 0 => return ()
  | count + 1 => do
    signalEvent e
    signalTimes e count

/-- **Signals of an auto-reset event, one after the other**, are for its owned waiters, one each.
The induction is on their number: what a signal leaves is an event with fewer waiters. -/
theorem ending?_signalTimes {m : Machine G} {e : EventId} (free : m.chip.held = [])
    (auto : m.kernel.isAutoReset e = true) (once : m.kernel.QueuedOnce) (count : Nat) :
    ∃ n popped left, (signalTimes e count m).ending? = some (n, ()) ∧
      m.kernel.Served e count popped left ∧
      m.kernel.Signalled e popped left (decide ((m.kernel.ownedWaiters e).length < count))
        (m.kernel.stillParked ((m.kernel.ownedWaiters e).take count)) n.kernel := by
  induction count generalizing m with
  | zero => exact ⟨m, [], _, rfl, .zero .., .refl ..⟩
  | succ count ih =>
    obtain ⟨n₁, hn₁, hk₁, free₁⟩ := ending?_signalEvent e free
    have hsucc : (signalTimes e (count + 1) m).ending? = (signalTimes e count n₁).ending? :=
      Run.ending?_bind_of_some hn₁ _
    have he := Kernel.lt_length_of_isAutoReset auto
    rw [hsucc]
    cases hfind : (m.kernel.waitersOf e).find? fun w => (m.kernel.wakerOf w).isSome with
    | none =>
      have hws : ∀ w ∈ m.kernel.waitersOf e, m.kernel.wakerOf w = none := fun w hw =>
        Option.not_isSome_iff_eq_none.mp (List.find?_eq_none.mp hfind w hw)
      obtain ⟨hs, honce⟩ := Effect.signalled_of_unowned auto once hws
      rw [← hk₁] at hs honce
      obtain ⟨n, popped, left, hn, hserved, hs'⟩ := ih free₁ (hs.isAutoReset.trans auto) honce
      refine ⟨n, _, left, hn, hserved.of_unowned hs he hws, ?_⟩
      have howned : m.kernel.ownedWaiters e = [] := Kernel.filter_of_unowned hws
      have howned₁ : n₁.kernel.ownedWaiters e = [] := by rw [hs.ownedWaiters he, List.filter_nil]
      rw [howned₁, List.take_nil] at hs'
      rw [howned, List.take_nil, List.length_nil, decide_eq_true (Nat.zero_lt_succ count)]
      exact hs.trans hs'
    | some w =>
      obtain ⟨hw, before, left₁, hq, hbefore⟩ := List.find?_eq_some_iff_append.mp hfind
      replace hw : m.kernel.wakerOf w ≠ none := Option.isSome_iff_ne_none.mp hw
      replace hbefore : ∀ v ∈ before, m.kernel.wakerOf v = none := fun v hv => by
        simpa using hbefore v hv
      obtain ⟨hs, honce⟩ := Effect.signalled_of_split auto once hq hbefore hw
      rw [← hk₁] at hs honce
      obtain ⟨n, popped, left, hn, hserved, hs'⟩ := ih free₁ (hs.isAutoReset.trans auto) honce
      refine ⟨n, _, left, hn, hserved.of_split hs he hq hbefore hw, ?_⟩
      have howned := Kernel.ownedWaiters_of_split hq hbefore hw
      rw [← hs.ownedWaiters he] at howned
      rw [howned, List.take_succ_cons, hs.wakes.stillParked_cons hs.entryThread, List.length_cons]
      simpa only [Nat.add_lt_add_iff_right, Bool.false_or] using hs.trans hs'

end Call

/-- **A signal in closed form.** Take any machine where no lock is held and nobody stands in two
places of the queues of a core, and any event.

A signal returns. If the event is auto-reset, and `w` is the oldest waiter whose thread has an
owner, then everybody up to `w` is marked and leaves the queue, the thread of `w` is woken if it
waits on the core that owns it, and that is all; if there is no such waiter, all are marked and
leave, and the latch is set. If it is manual-reset, all are marked and leave, the latch is set, and
everybody who waits on the core that owns it is woken, the oldest first.

So signals of an auto-reset event one after the other are for its owned waiters in order of arrival,
one each, and the latch is set once there are more signals than such waiters. -/
theorem signal_in_closed_form {m : Machine G} {e : EventId} (free : m.chip.held = [])
    (once : m.kernel.QueuedOnce) :
    (∃ n, (Call.signalEvent e m).ending? = some (n, ()) ∧
      (m.kernel.isAutoReset e = true →
        (∀ before w left, m.kernel.waitersOf e = before ++ w :: left →
          (∀ v ∈ before, m.kernel.wakerOf v = none) → m.kernel.wakerOf w ≠ none →
          m.kernel.Signalled e (before ++ [w]) left false (m.kernel.stillParked [w]) n.kernel) ∧
        ((∀ w ∈ m.kernel.waitersOf e, m.kernel.wakerOf w = none) →
          m.kernel.Signalled e (m.kernel.waitersOf e) [] true [] n.kernel)) ∧
      (m.kernel.isAutoReset e = false →
        m.kernel.Signalled e (m.kernel.waitersOf e) [] true
          (m.kernel.stillParked (m.kernel.waitersOf e)) n.kernel)) ∧
    (m.kernel.isAutoReset e = true → ∀ count, ∃ n popped left,
      (Call.signalTimes e count m).ending? = some (n, ()) ∧
      m.kernel.Served e count popped left ∧
      m.kernel.Signalled e popped left (decide ((m.kernel.ownedWaiters e).length < count))
        (m.kernel.stillParked ((m.kernel.ownedWaiters e).take count)) n.kernel) := by
  obtain ⟨n, hn, hk, -⟩ := Call.ending?_signalEvent e free
  refine ⟨⟨n, hn, fun auto => ⟨fun before w left hq hbefore hw => ?_, fun hws => ?_⟩,
    fun manual => ?_⟩, fun auto => Call.ending?_signalTimes free auto once⟩
  · rw [hk]
    exact (Effect.signalled_of_split auto once hq hbefore hw).1
  · rw [hk]
    exact (Effect.signalled_of_unowned auto once hws).1
  · rw [hk]
    exact Effect.signalled_of_manual manual once

/-- Three threads on two cores wait for an auto-reset event, one of them for a while only; then the
one that came first is ended. -/
def threeWait : List (CoreId × Op ⟨Unit, Unit⟩) :=
  [(0, .createThread () "first"), (0, .createThread () "other"), (0, .createThread () "second"),
    (0, .startThread 0 2), (0, .startThread 0 4), (1, .startThread 1 3),
    (0, .bootstrap 0), (1, .bootstrap 1), (0, .newEvent true),
    (0, .enqueueWait 0 .infinite), (0, .yieldThread 0 0), (0, .enqueueWait 0 (.ofMillis 20)),
    (1, .enqueueWait 0 .infinite), (0, .killThread 0 2)]

/-- A signal goes past the ended thread and wakes the next one, and two signals wake both that are
left, each on its own core. -/
theorem signals_past_ended : ∃ m past s, Machine.boot? { processors := 2 } {} = some m ∧
    System.play ⟨m, []⟩ threeWait = some (past, s) ∧
    (∃ n, (Call.signalEvent 0 (s.machine.on 0)).ending? = some (n, ()) ∧
      s.machine.kernel.Signalled 0 [0, 1] [2] false [4] n.kernel) ∧
    ∃ n popped left, (Call.signalTimes 0 2 (s.machine.on 0)).ending? = some (n, ()) ∧
      s.machine.kernel.Served 0 2 popped left ∧
      s.machine.kernel.Signalled 0 popped left false [4, 3] n.kernel := by
  obtain ⟨m, past, s, later, s', hm, hfirst, -, htest⟩ := System.exists_play
    { processors := 2 } {} threeWait []
    (fun _ s _ _ => decide s.machine.kernel.QueuedOnce &&
      (s.machine.kernel.isAutoReset 0 && (decide (s.machine.kernel.waitersOf 0 = [0, 1, 2]) &&
        (decide ([0, 1, 2].map s.machine.kernel.wakerOf = [none, some 0, some 1]) &&
          (decide (s.machine.kernel.stillParked [1] = [4]) &&
            decide (s.machine.kernel.stillParked [1, 2] = [4, 3])))))) (by decide +kernel)
  simp only [Bool.and_eq_true, decide_eq_true_eq] at htest
  obtain ⟨once, auto, hq, hwakers, hone, hboth⟩ := htest
  simp only [List.map_cons, List.map_nil, List.cons.injEq, and_true] at hwakers
  obtain ⟨h0, h1, h2⟩ := hwakers
  have free : (s.machine.on 0).chip.held = [] := ((System.runs_of_play hfirst).unlocked
    (System.unlocked_start (Machine.held_of_boot? hm))).held
  obtain ⟨⟨n, hn, hauto, -⟩, htimes⟩ := signal_in_closed_form (e := 0) free once
  refine ⟨m, past, s, hm, hfirst, ⟨n, hn, ?_⟩, ?_⟩
  · rw [← hone]
    refine (hauto auto).1 [0] 1 [2] hq (fun v hv => ?_) ?_
    · rw [List.mem_singleton.mp hv]
      exact h0
    · exact Option.ne_none_iff_exists'.mpr ⟨0, h1⟩
  · have howned : s.machine.kernel.ownedWaiters 0 = [1, 2] := by
      simp [Kernel.ownedWaiters, hq, h0, h1, h2]
    obtain ⟨n, popped, left, hn, hserved, hsignalled⟩ := htimes auto 2
    rw [show (s.machine.on 0).kernel = s.machine.kernel from rfl, howned] at hsignalled
    rw [← hboth]
    exact ⟨n, popped, left, hn, hserved, hsignalled⟩

end Nucleus
