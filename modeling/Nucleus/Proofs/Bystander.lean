import Nucleus.Proofs.Runners

/-!
# Operations that pass a thread by

Operations of several cores come in at each other's windows. A *stretch* of an operation goes from
one window to the next. An operation that neither starts a thread nor kills it passes the thread by
in each of its stretches: the thread keeps its owner, it does not end, and no core gets hold of it
that did not hold it before. Nothing need be known of the state in which a stretch finds the kernel.

* `Kernel.Bypasses` is what becomes of a thread that is passed by, and the lemmas below it go
  through the kernel functions.
* `Run.Bypasses` says it of every stretch of a call, up to one that takes the thread from its owner,
  which is how a kill begins.
* `Op.bypasses_call` says that every operation passes a thread by that it does not start.
-/

namespace Nucleus

variable {G : Guest} {α β : Type}

/-! ## One stretch -/

/-- The thread stands in a queue of the core, or is switched in on it. -/
def RunQueues.Holds (q : RunQueues) (t : ThreadId) : Prop :=
  q.running = some t ∨ ∃ i, t ∈ q.threads i

namespace Kernel

/-- The thread has not ended, if there is one. -/
def Alive (k : Kernel G) (t : ThreadId) : Prop :=
  t < k.threads.length → k.stateOf t ≠ .terminated

/-- The thread is passed by; if all is `quiet`, no rotation changes either. -/
structure Bypasses (k k' : Kernel G) (t : ThreadId) (quiet : Prop) : Prop where
  /-- it keeps its owner -/
  owner : k'.ownerOf t = k.ownerOf t
  /-- it does not end -/
  alive : k.Alive t → k'.Alive t
  /-- no core gets hold of it -/
  holds : ∀ d, (k'.queues d).Holds t → (k.queues d).Holds t
  /-- no rotation changes, if all is quiet -/
  ready : quiet → ∀ d, (k'.queues d).ready = (k.queues d).ready
  /-- cores keep their idle threads -/
  idle : k'.idleOf? = k.idleOf?
  /-- no thread goes away -/
  threads : k.threads.length ≤ k'.threads.length

/-- The thread is taken from its owner, as a kill does first. -/
def GivesUp (k k' : Kernel G) (t : ThreadId) : Prop := k.ownerOf t ≠ none ∧ k'.ownerOf t = none

variable {k k' k'' : Kernel G} {t u : ThreadId} {c d : CoreId} {quiet : Prop}

/-- Nothing done passes the thread by. -/
theorem Bypasses.refl (k : Kernel G) (t : ThreadId) (quiet : Prop) : k.Bypasses k t quiet :=
  ⟨rfl, id, fun _ => id, fun _ _ => rfl, rfl, Nat.le_refl _⟩

/-- What passes a thread by may be done in two steps. -/
theorem Bypasses.trans (h : k.Bypasses k' t quiet) (h' : k'.Bypasses k'' t quiet) :
    k.Bypasses k'' t quiet where
  owner := h'.owner.trans h.owner
  alive ha := h'.alive (h.alive ha)
  holds d hd := h.holds d (h'.holds d hd)
  ready hq d := (h'.ready hq d).trans (h.ready hq d)
  idle := h'.idle.trans h.idle
  threads := Nat.le_trans h.threads h'.threads

/-- What is quiet need not be said to be quiet. -/
theorem Bypasses.loud (h : k.Bypasses k' t quiet) : k.Bypasses k' t False :=
  { h with ready := False.elim }

/-- It may be given up later. -/
theorem Bypasses.givesUp (h : k.Bypasses k' t quiet) (h' : k'.GivesUp k'' t) : k.GivesUp k'' t :=
  ⟨h.owner ▸ h'.1, h'.2⟩

/-! ### Tables -/

/-- A change of threads in other respects than owner and state, or of other tables. -/
theorem bypasses_of_threads (ho : k'.ownerOf t = k.ownerOf t) (hs : k'.stateOf t = k.stateOf t)
    (hl : k'.threads.length = k.threads.length) (hc : k'.cores = k.cores) :
    k.Bypasses k' t quiet := by
  have hq (d : CoreId) : k'.queues d = k.queues d := by
    simp only [queues]
    rw [hc]
  refine ⟨ho, fun ha ht => ?_, fun d => ?_, fun _ d => ?_, ?_, Nat.le_of_eq hl.symm⟩
  · rw [hs]
    exact ha (hl ▸ ht)
  · rw [hq]
    exact id
  · rw [hq]
  · funext d
    simp only [idleOf?]
    rw [hc]

/-- A change of tables other than those of threads and cores. -/
theorem bypasses_of_tables (ht : k'.threads = k.threads) (hc : k'.cores = k.cores) :
    k.Bypasses k' t quiet := by
  refine bypasses_of_threads ?_ ?_ (congrArg List.length ht) hc
  · simp only [ownerOf]
    rw [ht]
  · simp only [stateOf]
    rw [ht]

/-- A change of any thread, but for its state and its owner. -/
theorem bypasses_updateThread (u : ThreadId) {f : Thread G → Thread G}
    (hf : ∀ th, (f th).state = th.state ∧ (f th).owner = th.owner) :
    k.Bypasses (k.updateThread u f) t quiet :=
  bypasses_of_threads (k.ownerOf_updateThread (fun th => (hf th).2) t)
    (k.stateOf_updateThread (fun th => (hf th).1) t) (k.length_threads_updateThread u f) rfl

/-- A change of the owner of another thread. -/
theorem bypasses_setOwner (o : Option CoreId) (hne : u ≠ t) :
    k.Bypasses (k.setOwner u o) t quiet :=
  bypasses_of_threads (k.ownerOf_setOwner_of_ne o hne) (k.stateOf_setOwner u t o)
    (k.length_threads_updateThread u _) rfl

/-- A state other than terminated does not end a thread. -/
theorem bypasses_setState (u : ThreadId) {s : ThreadState} (hs : u = t → s ≠ .terminated) :
    k.Bypasses (k.setState u s) t quiet := by
  refine ⟨k.ownerOf_setState u t s, fun ha ht => ?_, fun _ => id, fun _ _ => rfl, rfl,
    Nat.le_of_eq (k.length_threads_updateThread u _).symm⟩
  rw [setState, length_threads_updateThread] at ht
  by_cases hut : u = t
  · subst hut
    rw [k.stateOf_setState_self s ht]
    exact hs rfl
  · rw [k.stateOf_setState_of_ne s hut]
    exact ha ht

/-- A thread that is made, and that nobody owns. -/
theorem bypasses_addThread {th : Thread G} (hs : th.state = .ready) (ho : th.owner = none) :
    k.Bypasses (k.addThread th) t quiet := by
  refine ⟨?_, fun ha ht => ?_, fun _ => id, fun _ _ => rfl, rfl, ?_⟩
  · rw [ownerOf_addThread]
    split
    next hu => rw [ho, k.ownerOf_eq_none_of_le (Nat.le_of_eq hu.symm)]
    next => rfl
  · rw [length_threads_addThread] at ht
    rw [stateOf_addThread]
    split
    · rw [hs]
      nofun
    next hne => exact ha (Nat.lt_of_le_of_ne (Nat.le_of_lt_succ ht) hne)
  · rw [length_threads_addThread]
    exact Nat.le_succ _

/-- Cores keep their idle threads. -/
theorem idleOf?_updateCore (c : CoreId) {f : Core G → Core G}
    (hf : ∀ core, (f core).idle = core.idle) : (k.updateCore c f).idleOf? = k.idleOf? := by
  funext d
  simp only [idleOf?, getElem?_cores_updateCore]
  split
  · rw [Option.map_map]
    exact congrArg (Option.map · _) (funext hf)
  · rfl

/-- A change of a core outside its queues. -/
theorem bypasses_updateCore (c : CoreId) {f : Core G → Core G}
    (hq : ∀ core, (f core).queues = core.queues) (hi : ∀ core, (f core).idle = core.idle) :
    k.Bypasses (k.updateCore c f) t quiet := by
  have hq := k.queues_updateCore (c := c) hq
  refine ⟨rfl, id, fun d => ?_, fun _ d => ?_, idleOf?_updateCore c hi, Nat.le_refl _⟩
  · rw [hq]
    exact id
  · rw [hq]

/-- After other changes, the queues of one core change, and do not bring in a thread that the core
did not hold before. -/
theorem Bypasses.updateQueues (h : k.Bypasses k' t quiet) (c : CoreId) {f : RunQueues → RunQueues}
    (hf : (f (k'.queues c)).Holds t → (k.queues c).Holds t)
    (hr : quiet → (f (k'.queues c)).ready = (k.queues c).ready) :
    k.Bypasses (k'.updateQueues c f) t quiet := by
  cases hc : k'.manages c with
  | false =>
    rw [Kernel.updateQueues, updateCore_of_not_manages k' hc]
    exact h
  | true =>
    have hq (d : CoreId) := k'.queues_updateQueues c d f hc
    have hi : (k'.updateQueues c f).idleOf? = k'.idleOf? := idleOf?_updateCore c fun _ => rfl
    refine ⟨h.owner, h.alive, fun d => ?_, fun hquiet d => ?_, hi.trans h.idle, h.threads⟩
    · rw [hq]
      split
      next hcd => exact hcd ▸ hf
      next => exact h.holds d
    · rw [hq]
      split
      next hcd => exact hcd ▸ hr hquiet
      next => exact h.ready hquiet d

/-- A thread gets another state, and the queues of one core change. -/
theorem bypasses_moves (u : ThreadId) {s : ThreadState} {f : RunQueues → RunQueues}
    (hs : u = t → s ≠ .terminated) (hf : (f (k.queues c)).Holds t → (k.queues c).Holds t)
    (hr : quiet → (f (k.queues c)).ready = (k.queues c).ready) :
    k.Bypasses ((k.setState u s).updateQueues c f) t quiet :=
  (bypasses_setState u hs).updateQueues c hf hr

/-! ### What schedulers do -/

/-- A thread that is made ready: it is another one, or it has a place on that core already. -/
theorem Bypasses.makeReady (h : k.Bypasses k' t False) (hu : u = t → (k.queues c).Holds t) :
    k.Bypasses (k'.makeReady c u) t False := by
  have hstate : k'.Bypasses (k'.setState u .ready) t False := bypasses_setState u fun _ => nofun
  refine (h.trans hstate).updateQueues c ?_ False.elim
  rintro (hrun | ⟨i, hi⟩)
  · exact h.holds c (.inl hrun)
  · by_cases hut : u = t
    · exact hu hut
    · refine h.holds c (.inr ⟨i, ?_⟩)
      cases i with
      | ready =>
        have hne : t ∉ [u] := fun ht => hut (List.mem_singleton.mp ht).symm
        exact (List.mem_append.mp hi).resolve_right hne
      | delayed | suspended => exact hi

/-- Another core does not get hold of a thread that is queued. -/
theorem holds_of_makeReady (hcd : c ≠ d) (h : ((k.makeReady c u).queues d).Holds t) :
    (k.queues d).Holds t := by
  cases hc : k.manages c with
  | true =>
    rw [makeReady, queues_updateQueues (k.setState u .ready) c d _ hc, if_neg hcd] at h
    exact h
  | false =>
    rw [makeReady, updateQueues, updateCore_of_not_manages (k.setState u .ready) hc] at h
    exact h

/-- The end of another thread. -/
theorem bypasses_terminate (c : CoreId) (hne : u ≠ t) : k.Bypasses (k.terminate c u) t False := by
  have hq : k.Bypasses (k.updateQueues c (·.expel u)) t False := by
    refine (Bypasses.refl k t False).updateQueues c ?_ False.elim
    rintro (hrun | ⟨i, hi⟩)
    · exact .inl hrun
    · rw [RunQueues.threads_expel] at hi
      exact .inr ⟨i, List.mem_of_mem_erase hi⟩
  exact hq.trans (bypasses_setState u fun h => absurd h hne)

/-- The thread that is put aside is the running one. -/
theorem bypasses_suspend (hr : (k.queues c).running = some u) :
    k.Bypasses (k.suspend c u) t False := by
  refine bypasses_moves u (fun _ => nofun) ?_ False.elim
  rintro (hrun | ⟨i, hi⟩)
  · exact .inl hrun
  · cases i with
    | ready => exact .inr ⟨.ready, List.mem_of_mem_erase hi⟩
    | delayed => exact .inr ⟨.delayed, hi⟩
    | suspended =>
      rcases List.mem_append.mp hi with hi | hi
      · exact .inr ⟨.suspended, hi⟩
      · exact .inl (List.mem_singleton.mp hi ▸ hr)

/-- The thread that runs falls asleep: where it sleeps it was in the slot. -/
theorem bypasses_sleep (wake : Nat) (hr : (k.queues c).running = some u) :
    k.Bypasses (k.sleep c u wake) t False := by
  refine bypasses_moves u (fun _ => nofun) ?_ False.elim
  rintro (hrun | ⟨i, hi⟩)
  · exact .inl hrun
  · cases i with
    | ready => exact .inr ⟨.ready, List.mem_of_mem_erase hi⟩
    | delayed =>
      by_cases hut : u = t
      · exact .inl (hut ▸ hr)
      · have hpos : 0 < ((k.queues c).delayed.insert ⟨u, wake⟩).threads.count t :=
          List.count_pos_iff.mpr hi
        rw [DelayedQueue.count_threads_insert, if_neg hut] at hpos
        exact .inr ⟨.delayed, List.count_pos_iff.mp hpos⟩
    | suspended => exact .inr ⟨.suspended, hi⟩

/-- The thread that is woken sleeps or stands parked. -/
theorem bypasses_wake (hp : (k.queues c).isParked u = true) : k.Bypasses (k.wake c u) t False := by
  have hq : k.Bypasses (k.updateQueues c (·.unpark u)) t False := by
    refine (Bypasses.refl k t False).updateQueues c ?_ False.elim
    rintro (hrun | ⟨i, hi⟩)
    · rw [RunQueues.running_unpark] at hrun
      exact .inl hrun
    · rw [RunQueues.threads_unpark] at hi
      split at hi
      · exact .inr ⟨i, List.mem_of_mem_erase hi⟩
      · exact .inr ⟨i, hi⟩
  exact hq.makeReady fun hut => hut ▸ .inr ⟨_, RunQueues.mem_parkedIn hp⟩

/-- Sleepers that are made ready: if this thread is one of them, it has a place on that core
already. -/
theorem Bypasses.makeAllReady (h : k.Bypasses k' t False) {due : List Sleeper}
    (hdue : ∀ s ∈ due, s.thread = t → (k.queues c).Holds t) :
    k.Bypasses (k'.makeAllReady c due) t False := by
  induction due generalizing k' with
  | nil => exact h
  | cons s due ih =>
    obtain ⟨hs, hdue⟩ := List.forall_mem_cons.mp hdue
    exact ih (h.makeReady hs) hdue

/-- A tick wakes sleepers only. -/
theorem bypasses_advance (k : Kernel G) (c : CoreId) : k.Bypasses (k.advance c) t False := by
  rw [advance_eq]
  refine Bypasses.makeAllReady ?_ fun s hs hst => ?_
  · refine (Bypasses.refl k t False).updateQueues c ?_ False.elim
    rintro (hrun | ⟨i, hi⟩)
    · exact .inl hrun
    · refine .inr ⟨i, ?_⟩
      cases i with
      | delayed => exact (List.dropWhile_sublist _).map _ |>.subset hi
      | ready | suspended => exact hi
  · exact .inr ⟨.delayed, k.mem_delayed_of_dueNext (List.mem_map.mpr ⟨s, hs, hst⟩)⟩

/-- An interrupt: the thread in the slot may become ready, but does not end. -/
theorem bypasses_interruptRunning (k : Kernel G) (c : CoreId) (x : Context) :
    k.Bypasses (k.interruptRunning c x) t quiet := by
  simp only [interruptRunning]
  cases (k.queues c).running with
  | none => exact .refl k t quiet
  | some u =>
    have hsave : k.Bypasses (k.saveContext u x) t quiet :=
      bypasses_updateThread u fun _ => ⟨rfl, rfl⟩
    dsimp only
    split
    · exact hsave.trans (bypasses_setState u fun _ => by decide)
    · exact hsave

/-- The thread that is switched in is of the rotation. -/
theorem bypasses_switchTo (hu : u ∈ (k.queues c).ready) : k.Bypasses (k.switchTo c u) t quiet := by
  refine bypasses_moves u (fun _ => nofun) ?_ fun _ => rfl
  rintro (hrun | ⟨i, hi⟩)
  · exact .inr ⟨.ready, Option.some.inj hrun ▸ hu⟩
  · exact .inr ⟨i, hi⟩

/-- A switch: the thread that leaves the slot is in the rotation, or has no place there. -/
theorem bypasses_turn (k : Kernel G) (c : CoreId) (x : Context) :
    k.Bypasses (Effect.yieldThread c x k).1 t quiet := by
  rcases k.turn_cases c x with ⟨-, hk⟩ | ⟨next, hnext, -, hk⟩ <;> rw [hk]
  · exact .refl k t quiet
  · refine (bypasses_interruptRunning k c x).trans (bypasses_switchTo ?_)
    rw [queues_interruptRunning]
    exact hnext

end Kernel

/-! ## Every stretch of a call -/

/-- Every stretch of the call passes the thread by, the present one from `k` on, unless it takes the
thread from its owner, which it does only if it `ends` threads: nothing is said of what follows
then. Whoever comes in at a window leaves cores their idle threads. -/
def Run.Bypasses (t : ThreadId) (idle : CoreId → Option ThreadId) (ends quiet : Prop)
    (k : Kernel G) : Run G α → Prop
  | done m _ => k.Bypasses m.kernel t quiet
  | halt _ _ => True
  | window m _ resume => (ends ∧ k.GivesUp m.kernel t) ∨
    (k.Bypasses m.kernel t quiet ∧ ∀ m' : Machine G, m'.kernel.idleOf? = idle →
      (resume m').Bypasses t idle ends quiet m'.kernel)
  | interrupt m _ _ _ resume => k.Bypasses m.kernel t quiet ∧ ∀ (m' : Machine G) c,
    m'.kernel.idleOf? = idle → (resume m' c).Bypasses t idle ends quiet m'.kernel
  | enter m _ _ resume => k.Bypasses m.kernel t quiet ∧ ∀ (m' : Machine G) o,
    m'.kernel.idleOf? = idle → (resume m' o).Bypasses t idle ends quiet m'.kernel

variable {t u : ThreadId} {idle : CoreId → Option ThreadId} {ends quiet : Prop} {c : CoreId}

/-- A stretch may begin earlier. -/
theorem Run.Bypasses.of_step {k k' : Kernel G} {x : Run G α} (hk : k.Bypasses k' t quiet)
    (hx : x.Bypasses t idle ends quiet k') : x.Bypasses t idle ends quiet k := by
  cases x with
  | done m a => exact hk.trans hx
  | halt m why => trivial
  | window m w resume => exact hx.imp (fun h => ⟨h.1, hk.givesUp h.2⟩) fun h => ⟨hk.trans h.1, h.2⟩
  | interrupt m home code x resume => exact ⟨hk.trans hx.1, hx.2⟩
  | enter m code a resume => exact ⟨hk.trans hx.1, hx.2⟩

/-- What goes on from where another call returns passes the thread by, if each of them does. -/
theorem Run.Bypasses.bind {k : Kernel G} {x : Run G α} {f : α → Machine G → Run G β}
    (hx : x.Bypasses t idle ends quiet k) (hk : k.idleOf? = idle)
    (hf : ∀ a (m : Machine G), m.kernel.idleOf? = idle →
      (f a m).Bypasses t idle ends quiet m.kernel) :
    (x.bind f).Bypasses t idle ends quiet k := by
  induction x generalizing k with
  | done m a =>
    have hm : k.Bypasses m.kernel t quiet := hx
    exact .of_step hm (hf a m (hm.idle.trans hk))
  | halt m why => trivial
  | window m w resume ih =>
    exact hx.imp_right fun h => ⟨h.1, fun m' hm' => ih m' (h.2 m' hm') hm'⟩
  | interrupt m home code x resume ih =>
    exact ⟨hx.1, fun m' x' hm' => ih m' x' (hx.2 m' x' hm') hm'⟩
  | enter m code a resume ih => exact ⟨hx.1, fun m' o hm' => ih m' o (hx.2 m' o hm') hm'⟩

namespace Call

/-- Wherever it begins, every stretch of the call passes the thread by. -/
def Bypasses (t : ThreadId) (idle : CoreId → Option ThreadId) (ends quiet : Prop) (x : Call G α) :
    Prop :=
  ∀ m : Machine G, m.kernel.idleOf? = idle → (x m).Bypasses t idle ends quiet m.kernel

/-- One call after the other. -/
theorem Bypasses.bind {x : Call G α} {f : α → Call G β} (hx : x.Bypasses t idle ends quiet)
    (hf : ∀ a, (f a).Bypasses t idle ends quiet) : (x >>= f).Bypasses t idle ends quiet :=
  fun m hm => (hx m hm).bind hm hf

/-- A choice between two calls. -/
theorem bypasses_ite {p : Prop} [Decidable p] {x y : Call G α}
    (hx : p → x.Bypasses t idle ends quiet) (hy : ¬ p → y.Bypasses t idle ends quiet) :
    (if p then x else y).Bypasses t idle ends quiet := by
  split
  · exact hx ‹_›
  · exact hy ‹_›

/-- A call that returns at once passes everybody by, -/
theorem bypasses_pure (a : α) : (pure a : Call G α).Bypasses t idle ends quiet :=
  fun m _ => .refl m.kernel t quiet

/-- and so does a look at the machine, -/
theorem bypasses_look (f : Machine G → α) : (look f).Bypasses t idle ends quiet :=
  fun m _ => .refl m.kernel t quiet

/-- at the kernel state, -/
theorem bypasses_read (f : Kernel G → α) : (read f).Bypasses t idle ends quiet :=
  fun m _ => .refl m.kernel t quiet

/-- a command to the chip, -/
theorem bypasses_command (f : Chip Lock → Chip Lock) :
    (command f : Call G Unit).Bypasses t idle ends quiet :=
  fun m _ => .refl m.kernel t quiet

/-- or a line in the log. -/
theorem bypasses_note (notice : Notice) : (note notice : Call G Unit).Bypasses t idle ends quiet :=
  fun m _ => .refl m.kernel t quiet

/-- A change of the kernel state passes the thread by if it does so from every state. -/
theorem bypasses_change {f : Kernel G → Kernel G} (hf : ∀ k : Kernel G, k.Bypasses (f k) t quiet) :
    (change f).Bypasses t idle ends quiet :=
  fun m _ => hf m.kernel

/-- A change, and what follows. -/
theorem bypasses_change_bind {f : Kernel G → Kernel G} {x : Unit → Call G α}
    (hf : ∀ k : Kernel G, k.Bypasses (f k) t quiet) (hx : ∀ a, (x a).Bypasses t idle ends quiet) :
    (change f >>= x).Bypasses t idle ends quiet :=
  (bypasses_change hf).bind hx

/-- A change of tables other than those of threads and cores, and what follows. -/
theorem bypasses_tables_bind {f : Kernel G → Kernel G} {x : Unit → Call G α}
    (ht : ∀ k, (f k).threads = k.threads) (hc : ∀ k, (f k).cores = k.cores)
    (hx : ∀ a, (x a).Bypasses t idle ends quiet) : (change f >>= x).Bypasses t idle ends quiet :=
  bypasses_change_bind (fun k => Kernel.bypasses_of_tables (ht k) (hc k)) hx

/-- What never returns leaves nothing to be said. -/
theorem bypasses_stop (why : Halt) : (stop why : Call G α).Bypasses t idle ends quiet :=
  fun _ _ => trivial

/-- A window passes the thread by, whoever comes in there. -/
theorem bypasses_pause (w : Window) : (pause w : Call G Unit).Bypasses t idle ends quiet :=
  fun m _ => .inr ⟨.refl m.kernel t quiet, fun m' _ => .refl m'.kernel t quiet⟩

/-- What client code does is not done by the call, -/
theorem bypasses_interrupt (home : CoreId) (code : G.Routine) (x : Context) :
    (interrupt home code x).Bypasses t idle ends quiet :=
  fun m _ => ⟨.refl m.kernel t quiet, fun m' _ _ => .refl m'.kernel t quiet⟩

/-- and thread bodies are client code. -/
theorem bypasses_enter (code : G.Entry) (argument : UInt64) :
    (enter code argument).Bypasses t idle ends quiet :=
  fun m _ => ⟨.refl m.kernel t quiet, fun m' _ _ => .refl m'.kernel t quiet⟩

/-- Lock flags are no matter of threads, -/
theorem bypasses_acquire (l : Lock) : (acquire l : Call G Unit).Bypasses t idle ends quiet := by
  intro m _
  by_cases hl : l ∈ m.chip.held
  · rw [acquire_apply_of_mem hl]
    trivial
  · rw [acquire_apply_of_not_mem hl]
    exact .refl m.kernel t quiet

/-- nor is the interrupt flag, -/
theorem bypasses_masked {x : Call G α} (hx : x.Bypasses t idle ends quiet) :
    (masked x).Bypasses t idle ends quiet := by
  intro m _
  rw [masked_apply]
  refine .inr ⟨.refl m.kernel t quiet, fun m' hm' => ?_⟩
  exact (hx m' hm').bind hm' fun a n _ => .refl n.kernel t quiet

/-- so a locked stretch passes the thread by if its body does, -/
theorem bypasses_locked (l : Lock) {x : Call G α} (hx : x.Bypasses t idle ends quiet) :
    (locked l x).Bypasses t idle ends quiet :=
  bypasses_masked ((bypasses_acquire l).bind fun _ => hx.bind fun a =>
    (bypasses_command _).bind fun _ => bypasses_pure a)

/-- and likewise if the lock outlives it. -/
theorem bypasses_overheld (l : Lock) {x : Call G α} (hx : x.Bypasses t idle ends quiet) :
    (overheld l x).Bypasses t idle ends quiet :=
  (bypasses_masked ((bypasses_acquire l).bind fun _ => hx)).bind fun a =>
    (bypasses_pause _).bind fun _ => (bypasses_command _).bind fun _ => bypasses_pure a

/-- A look at the queues of a core changes nothing. -/
theorem bypasses_inspect (c : CoreId) (f : RunQueues → α) :
    (inspect c f : Call G α).Bypasses t idle ends quiet :=
  bypasses_locked _ (bypasses_read _)

/-- Nor does the question which core executes. -/
theorem bypasses_currentCore : (currentCore : Call G CoreId).Bypasses t idle ends quiet :=
  (bypasses_look _).bind fun c => (bypasses_read _).bind fun _ => bypasses_ite
    (fun _ => bypasses_pure c) fun _ => (bypasses_note _).bind fun _ => bypasses_stop _

/-! ### Interrupts -/

/-- A switch passes everybody by, -/
theorem bypasses_rotate (c : CoreId) (x : Context) :
    (rotate c x : Call G Context).Bypasses t idle ends quiet := by
  intro m _
  have hturn : m.kernel.Bypasses (Effect.yieldThread c x m.kernel).1 t quiet :=
    m.kernel.bypasses_turn c x
  simp only [rotate]
  rw [bind_of_done (read_apply _ m)]
  simp only [Effect.yieldThread] at hturn
  cases hr : m.kernel.rotate c x with
  | none => trivial
  | some next =>
    rw [hr] at hturn
    exact hturn

/-- also under its lock. -/
theorem bypasses_yieldThread (c : CoreId) (x : Context) :
    (yieldThread c x : Call G Context).Bypasses t idle ends quiet :=
  bypasses_locked _ (bypasses_rotate c x)

/-- To write down who wakes changes nothing. -/
theorem bypasses_noteWoken (c : CoreId) (tick : Nat) (due : List Sleeper) :
    (noteWoken c tick due : Call G Unit).Bypasses t idle ends quiet := by
  induction due with
  | nil => exact bypasses_pure ()
  | cons s due ih => exact (bypasses_note _).bind fun _ => ih

/-- A tick wakes who waits on that core, and so passes it by. -/
theorem bypasses_onTick (c : CoreId) (x : Context) :
    (onTick c x : Call G Context).Bypasses t idle ends False := by
  have hexpect : (expectTick c : Call G Unit).Bypasses t idle ends False :=
    (bypasses_read _).bind fun _ =>
      bypasses_ite (fun _ => bypasses_pure ()) fun _ => bypasses_stop _
  exact bypasses_locked _ (hexpect.bind fun _ => (bypasses_read _).bind fun due =>
    (bypasses_change fun k => k.bypasses_advance c).bind fun _ => (bypasses_read _).bind fun tick =>
      (bypasses_noteWoken c tick due).bind fun _ => bypasses_rotate c x)

/-- Deferred calls are no matter of threads, -/
theorem bypasses_setDpcs (c : CoreId) (ds : Kernel G → List (Dpc G)) :
    (change fun k => k.setDpcs c (ds k)).Bypasses t idle ends quiet :=
  bypasses_change fun _ => Kernel.bypasses_updateCore c (fun _ => rfl) fun _ => rfl

/-- so they may be queued -/
theorem bypasses_registerDpc (c : CoreId) (d : Dpc G) :
    (registerDpc c d).Bypasses t idle ends quiet :=
  (bypasses_locked _ (bypasses_setDpcs c _)).bind fun _ => bypasses_command _

/-- and taken. -/
theorem bypasses_popDpc (c : CoreId) :
    (popDpc c : Call G (Option (Dpc G))).Bypasses t idle ends quiet := by
  refine bypasses_overheld _ ((bypasses_read _).bind fun ds => ?_)
  cases ds with
  | nil => exact bypasses_pure none
  | cons d rest => exact (bypasses_setDpcs c fun _ => rest).bind fun _ => bypasses_pure _

/-- A drain runs nothing but switches and client code. -/
theorem bypasses_drain (fuel : Nat) (c : CoreId) (x : Context) :
    (drain fuel c x : Call G Context).Bypasses t idle ends quiet := by
  induction fuel generalizing x with
  | zero => exact bypasses_stop _
  | succ fuel ih =>
    refine (bypasses_popDpc c).bind fun o => ?_
    cases o with
    | none => exact bypasses_pure x
    | some d =>
      refine (bypasses_note _).bind fun _ => Bypasses.bind ?_ ih
      cases d with
      | reschedule d => exact bypasses_yieldThread d x
      | routine home code => exact bypasses_interrupt home code x

/-- A handler ticks, drains or runs client code. -/
theorem bypasses_dispatch (fuel : Nat) (c : CoreId) (irq : SystemIrq) (x : Context) :
    (dispatch fuel c irq x : Call G Dispatch).Bypasses t idle ends False := by
  refine (bypasses_read _).bind fun o => ?_
  cases o with
  | none => exact (bypasses_note _).bind fun _ => bypasses_pure _
  | some h =>
    refine Bypasses.bind ?_ fun _ => bypasses_pure _
    cases h with
    | drain d => exact bypasses_drain fuel d x
    | tick d => exact bypasses_onTick d x
    | routine home code => exact bypasses_interrupt home code x

/-- Handlers are no matter of threads. -/
theorem bypasses_registerIrq (c : CoreId) (irq : SystemIrq) (h : Handler G) :
    (registerIrq c irq h).Bypasses t idle ends quiet := by
  refine (bypasses_read _).bind fun _ => (bypasses_change fun k => ?_).bind fun _ =>
    bypasses_pure _
  cases irq <;> exact Kernel.bypasses_updateCore c (fun _ => rfl) fun _ => rfl

/-! ### Threads -/

/-- The start of another thread. -/
theorem bypasses_startThread (c : CoreId) (hne : u ≠ t) :
    (startThread c u : Call G Bool).Bypasses t idle ends False := by
  have hclaim : (claim u c : Call G Bool).Bypasses t idle ends False :=
    (bypasses_read _).bind fun _ => bypasses_ite
      (fun _ => (bypasses_change fun _ => Kernel.bypasses_setOwner _ hne).bind fun _ =>
        bypasses_pure true) fun _ => bypasses_pure false
  have hqueue : (change (·.makeReady c u) : Call G Unit).Bypasses t idle ends False :=
    bypasses_change fun k => (Kernel.Bypasses.refl k t False).makeReady fun h => absurd h hne
  exact (bypasses_read _).bind fun _ => bypasses_ite (fun _ => bypasses_pure false) fun _ =>
    (bypasses_pause _).bind fun _ => hclaim.bind fun _ => bypasses_ite
      (fun _ => (bypasses_locked _ hqueue).bind fun _ => (bypasses_read _).bind fun _ =>
        (bypasses_note _).bind fun _ => bypasses_pure true) fun _ => bypasses_pure false

/-- Its owner gives a thread up, -/
theorem disown_apply_of_owned {m : Machine G} (h : m.kernel.ownerOf t = some c) :
    disown t c m = .done { m with kernel := m.kernel.setOwner t none } true := by
  simp only [disown]
  rw [bind_of_done (read_apply _ m), if_pos h]
  rfl

/-- and nobody else does. -/
theorem disown_apply_of_ne {m : Machine G} (h : m.kernel.ownerOf t ≠ some c) :
    disown t c m = .done m false := by
  simp only [disown]
  rw [bind_of_done (read_apply _ m), if_neg h]
  rfl

/-- The end of a thread passes others by; it ends this one only if it may end threads. -/
theorem bypasses_killThread (c : CoreId) (u : ThreadId) (hends : u = t → ends) :
    (killThread c u : Call G (Outcome Unit)).Bypasses t idle ends False := by
  by_cases hut : u = t
  · -- a kill of the thread itself takes it from its owner, and stands at a window then
    subst hut
    intro m _
    simp only [killThread]
    by_cases ho : m.kernel.ownerOf u = some c
    · rw [bind_of_done (disown_apply_of_owned ho)]
      have hnone : (m.kernel.setOwner u none).ownerOf u = none :=
        m.kernel.ownerOf_setOwner_self none (Kernel.lt_length_of_ownerOf ho)
      exact .inl ⟨hends rfl, ho ▸ Option.some_ne_none c, hnone⟩
    · rw [bind_of_done (disown_apply_of_ne ho)]
      exact .refl m.kernel u False
  · have hdisown : (disown u c : Call G Bool).Bypasses t idle ends False :=
      (bypasses_read _).bind fun _ => bypasses_ite
        (fun _ => (bypasses_change fun _ => Kernel.bypasses_setOwner _ hut).bind fun _ =>
          bypasses_pure true) fun _ => bypasses_pure false
    refine hdisown.bind fun _ => bypasses_ite (fun _ => ?_) fun _ => bypasses_pure _
    refine (bypasses_locked _ ((bypasses_change fun _ => Kernel.bypasses_terminate c hut).bind
      fun _ => bypasses_read _)).bind fun wasRunning => (bypasses_note _).bind fun _ => ?_
    cases wasRunning with
    | false => exact bypasses_pure _
    | true => exact (bypasses_registerDpc c _).bind fun _ => bypasses_pure _

/-- The thread in the slot is put aside, and waits on that core then. -/
theorem bypasses_park (c : CoreId) (span : TimeSpan) :
    (park c span : Call G Unit).Bypasses t idle ends False := by
  intro m _
  simp only [park]
  rw [bind_of_done (read_apply _ m)]
  cases hr : (m.kernel.queues c).running with
  | none => trivial
  | some u =>
    dsimp only
    split
    · exact Kernel.bypasses_suspend hr
    · exact Kernel.bypasses_sleep _ hr

/-- A delay puts nobody else aside. -/
theorem bypasses_delay (c : CoreId) (span : TimeSpan) :
    (delay c span : Call G (Outcome Unit)).Bypasses t idle ends False := by
  unfold delay
  refine bypasses_ite (fun _ => bypasses_pure _) fun _ => ?_
  cases span.isZero with
  | true => exact (bypasses_registerDpc c _).bind fun _ => bypasses_pure _
  | false =>
    exact (bypasses_locked _ (bypasses_park c span)).bind fun _ =>
      (bypasses_registerDpc c _).bind fun _ => bypasses_pure _

/-- Who is woken on a core has waited there. -/
theorem bypasses_undelay (c : CoreId) (u : ThreadId) :
    (undelay c u : Call G Bool).Bypasses t idle ends False := by
  refine bypasses_locked _ fun m _ => ?_
  rw [bind_of_done (read_apply _ m)]
  split
  next hp => exact Kernel.bypasses_wake hp
  next => exact .refl m.kernel t False

/-- Who is switched in was in the rotation. -/
theorem bypasses_switchFirst (c : CoreId) :
    (switchFirst c : Call G (Option Context)).Bypasses t idle ends quiet := by
  intro m _
  simp only [switchFirst]
  rw [bind_of_done (read_apply _ m)]
  cases hh : (m.kernel.queues c).ready.head? with
  | none => exact .refl m.kernel t quiet
  | some u => exact Kernel.bypasses_switchTo (List.mem_of_mem_head? hh)

/-- What is left of a bootstrap once the idle thread is in the rotation. -/
theorem bypasses_install (c : CoreId) : (do
    match ← locked (.queues c) (switchFirst c) with
    | none => return .error .invalidOperation
    | some context =>
      discard <| registerIrq c .systemTick (.tick c)
      let slice ← read (·.slice)
      command (·.arm slice)
      note (.bootstrapped c slice)
      return .ok context : Call G (Outcome Context)).Bypasses t idle ends quiet := by
  refine (bypasses_locked _ (bypasses_switchFirst c)).bind fun o => ?_
  cases o with
  | none => exact bypasses_pure _
  | some x =>
    exact ((bypasses_registerIrq c _ _).bind fun _ => bypasses_pure _).bind fun _ =>
      (bypasses_read _).bind fun _ => (bypasses_command _).bind fun _ =>
        (bypasses_note _).bind fun _ => bypasses_pure _

/-- A bootstrap of a core whose idle thread is another one. -/
theorem bypasses_bootstrap (hne : idle c ≠ some t) :
    (bootstrap c : Call G (Outcome Context)).Bypasses t idle ends False := by
  refine (bypasses_read _).bind fun _ => bypasses_ite (fun _ => bypasses_pure _) fun _ =>
    bypasses_change_bind (fun _ => Kernel.bypasses_updateCore c (fun _ => rfl) fun _ => rfl)
      fun _ => (bypasses_pause _).bind fun _ m hm => ?_
  rw [bind_of_done (read_apply _ m), hm]
  cases hi : idle c with
  | none => exact bypasses_install c m hm
  | some u =>
    have hu : u ≠ t := fun h => hne (h ▸ hi)
    exact (((bypasses_startThread c hu).bind fun _ => bypasses_pure _).bind fun _ =>
      bypasses_install c) m hm

/-- A new thread has a number that no other thread has, -/
theorem bypasses_newThread (entry : ThreadEntry G) (description : String) :
    (newThread entry description).Bypasses t idle ends quiet :=
  (bypasses_read _).bind fun _ => (bypasses_change fun _ => Kernel.bypasses_addThread rfl rfl).bind
    fun _ => bypasses_pure _

/-- and a first context is built for it. -/
theorem bypasses_createThread (entry : G.Entry) (description : String) :
    (createThread entry description).Bypasses t idle ends quiet := by
  refine (bypasses_newThread _ _).bind fun u => Bypasses.bind ?_ fun _ =>
    (bypasses_note _).bind fun _ => bypasses_pure u
  exact (bypasses_look _).bind fun _ => (bypasses_command _).bind fun _ =>
    bypasses_change fun _ => Kernel.bypasses_updateThread u fun _ => ⟨rfl, rfl⟩

/-- The start of another thread on the executing core. -/
theorem bypasses_startThreadHere (argument : UInt64) (hne : u ≠ t) :
    (startThreadHere u argument : Call G Bool).Bypasses t idle ends False :=
  (bypasses_read _).bind fun _ => bypasses_ite (fun _ => bypasses_pure false) fun _ =>
    (bypasses_pause _).bind fun _ =>
      bypasses_change_bind (fun _ => Kernel.bypasses_updateThread u fun _ => ⟨rfl, rfl⟩) fun _ =>
        (bypasses_pause _).bind fun _ => bypasses_currentCore.bind fun c =>
          bypasses_startThread c hne

/-- The question who owns a thread changes nothing. -/
theorem bypasses_owningCore (u : ThreadId) :
    (owningCore u : Call G (Option CoreId)).Bypasses t idle ends quiet := by
  refine (bypasses_read _).bind fun o => ?_
  cases o with
  | none => exact bypasses_pure none
  | some c => exact (bypasses_read _).bind fun _ => bypasses_pure _

/-- The exit of a thread ends it, and no other one. -/
theorem bypasses_exitThread (u : ThreadId) (code : ExitCode) (hends : u = t → ends) :
    (exitThread u code : Call G (Outcome Unit)).Bypasses t idle ends False := by
  refine (bypasses_owningCore u).bind fun o => ?_
  cases o with
  | none => exact bypasses_pure _
  | some c =>
    exact (bypasses_pause _).bind fun _ =>
      bypasses_change_bind (fun _ => Kernel.bypasses_updateThread u fun _ => ⟨rfl, rfl⟩) fun _ =>
        (bypasses_pause _).bind fun _ => (bypasses_read _).bind fun _ =>
          (bypasses_note _).bind fun _ => bypasses_killThread c u hends

/-- The thread in the slot may be this one. -/
theorem bypasses_exitThreadHere (code : ExitCode) (hends : ends) :
    (exitThreadHere code : Call G (Outcome Unit)).Bypasses t idle ends False := by
  refine bypasses_currentCore.bind fun c => (bypasses_inspect c _).bind fun o => ?_
  cases o with
  | none => exact bypasses_pure _
  | some u => exact bypasses_exitThread u code fun _ => hends

/-- A thread body may end its thread when it returns. -/
theorem bypasses_runThread (u : ThreadId) (hends : u = t → ends) :
    (runThread u : Call G (Outcome Unit)).Bypasses t idle ends False := by
  refine (bypasses_read _).bind fun o => ?_
  cases o with
  | none => exact bypasses_pure _
  | some th =>
    refine Bypasses.bind ?_ fun ended => ?_
    · cases th.entry with
      | idle => exact bypasses_stop _
      | guest code => exact bypasses_enter code th.argument
    · cases ended with
      | ok _ => exact bypasses_exitThread u 0 hends
      | error why => exact (bypasses_note _).bind fun _ => bypasses_exitThread u why.code hends

/-- The owner wakes a thread that waits there. -/
theorem bypasses_undelayThread (u : ThreadId) :
    (undelayThread u : Call G (Outcome Bool)).Bypasses t idle ends False := by
  refine (bypasses_owningCore u).bind fun o => ?_
  cases o with
  | none => exact bypasses_pure _
  | some c => exact (bypasses_undelay c u).bind fun _ => bypasses_pure _

/-! ### Events and names -/

/-- Events are no matter of threads, -/
theorem bypasses_newEvent (autoReset : Bool) :
    (newEvent autoReset : Call G EventId).Bypasses t idle ends quiet :=
  (bypasses_read _).bind fun _ => bypasses_tables_bind (fun _ => rfl) (fun _ => rfl) fun _ =>
    bypasses_pure _

/-- nor are their latches. -/
theorem bypasses_tryConsume (e : EventId) :
    (tryConsume e : Call G Bool).Bypasses t idle ends quiet := by
  refine (bypasses_read _).bind fun _ => bypasses_ite
    (fun _ => (bypasses_read _).bind fun auto => ?_) fun _ => bypasses_pure false
  cases auto with
  | false => exact bypasses_pure true
  | true => exact bypasses_tables_bind (fun _ => rfl) (fun _ => rfl) fun _ => bypasses_pure true

/-- A waiter is woken where it waits, -/
theorem bypasses_release (w : WaitId) : (release w : Call G Bool).Bypasses t idle ends False := by
  refine bypasses_tables_bind (fun _ => rfl) (fun _ => rfl) fun _ => (bypasses_read _).bind
    fun o => ?_
  cases o with
  | none => exact bypasses_pure false
  | some entry =>
    refine (bypasses_undelayThread entry.thread).bind fun o => ?_
    cases o with
    | ok _ => exact bypasses_pure true
    | error why => exact (bypasses_note _).bind fun _ => bypasses_pure false

/-- be it the first one that can be released -/
theorem bypasses_releaseOne (e : EventId) (waiters : WaitQueue) :
    (releaseOne e waiters : Call G Bool).Bypasses t idle ends False := by
  induction waiters with
  | nil => exact bypasses_pure false
  | cons w rest ih =>
    exact bypasses_tables_bind (fun _ => rfl) (fun _ => rfl) fun _ => (bypasses_release w).bind
      fun _ => bypasses_ite (fun _ => bypasses_pure true) fun _ => ih

/-- or every one of them. -/
theorem bypasses_releaseAll (waiters : WaitQueue) :
    (releaseAll waiters : Call G Unit).Bypasses t idle ends False := by
  induction waiters with
  | nil => exact bypasses_pure ()
  | cons w rest ih =>
    exact ((bypasses_release w).bind fun _ => bypasses_pure _).bind fun _ => ih

/-- A signal wakes waiters only. -/
theorem bypasses_signalEvent (e : EventId) :
    (signalEvent e : Call G Unit).Bypasses t idle ends False := by
  refine bypasses_locked _ ((bypasses_read _).bind fun waiters => (bypasses_read _).bind fun _ =>
    bypasses_ite (fun _ => (bypasses_releaseOne e waiters).bind fun woken => ?_) fun _ => ?_)
  · exact bypasses_ite (fun _ => bypasses_pure ()) fun _ => bypasses_change fun _ =>
      Kernel.bypasses_of_tables rfl rfl
  · exact bypasses_tables_bind (fun _ => rfl) (fun _ => rfl) fun _ =>
      bypasses_tables_bind (fun _ => rfl) (fun _ => rfl) fun _ => bypasses_releaseAll waiters

/-- The thread in the slot is queued and put aside. -/
theorem bypasses_queueRunning (e : EventId) (c : CoreId) (span : TimeSpan) :
    (queueRunning e c span : Call G (Outcome (Option WaitId))).Bypasses t idle ends False := by
  refine (bypasses_inspect c _).bind fun o => ?_
  cases o with
  | none => exact bypasses_pure _
  | some u =>
    refine (bypasses_read _).bind fun w => bypasses_tables_bind (fun _ => rfl) (fun _ => rfl)
      fun _ => bypasses_tables_bind (fun _ => rfl) (fun _ => rfl) fun _ =>
        (bypasses_delay c span).bind fun o => ?_
    cases o with
    | ok _ => exact bypasses_pure _
    | error why =>
      exact bypasses_tables_bind (fun _ => rfl) (fun _ => rfl) fun _ => bypasses_pure _

/-- The first half of a wait puts nobody else aside, -/
theorem bypasses_enqueueWait (e : EventId) (span : TimeSpan) :
    (enqueueWait e span : Call G (Outcome (Option WaitId))).Bypasses t idle ends False :=
  bypasses_ite (fun _ => bypasses_pure _) fun _ => (bypasses_tryConsume e).bind fun _ =>
    bypasses_ite (fun _ => bypasses_pure _) fun _ => bypasses_currentCore.bind fun c =>
      bypasses_locked _ ((bypasses_tryConsume e).bind fun _ => bypasses_ite
        (fun _ => bypasses_pure _) fun _ => bypasses_ite (fun _ => bypasses_pure _) fun _ =>
          bypasses_queueRunning e c span)

/-- the second half nobody at all, -/
theorem bypasses_completeWait (e : EventId) (w : WaitId) :
    (completeWait e w : Call G (Outcome Unit)).Bypasses t idle ends quiet :=
  bypasses_locked _ (bypasses_tables_bind (fun _ => rfl) (fun _ => rfl) fun _ =>
    (bypasses_read _).bind fun _ => bypasses_ite
      (fun _ => bypasses_tables_bind (fun _ => rfl) (fun _ => rfl) fun _ => bypasses_pure _)
      fun _ => bypasses_pure _)

/-- and so it is for both of them. -/
theorem bypasses_waitEvent (e : EventId) (span : TimeSpan) :
    (waitEvent e span : Call G (Outcome Unit)).Bypasses t idle ends False := by
  refine (bypasses_enqueueWait e span).bind fun o => ?_
  rcases o with why | _ | w
  · exact bypasses_pure _
  · exact bypasses_pure _
  · exact bypasses_completeWait e w

/-- Names are no matter of threads, -/
theorem bypasses_createObject (x : ObjectId) (name : String) (parent : Parent) :
    (createObject x name parent : Call G (Outcome Accessor)).Bypasses t idle ends quiet := by
  refine (bypasses_read _).bind fun o => ?_
  cases o with
  | error why => exact bypasses_pure _
  | ok objects =>
    exact bypasses_tables_bind (fun _ => rfl) (fun _ => rfl) fun _ => (bypasses_note _).bind
      fun _ => (bypasses_read _).bind fun _ => bypasses_pure _

/-- nor are directories -/
theorem bypasses_newDirectory : (newDirectory : Call G ObjectId).Bypasses t idle ends quiet :=
  (bypasses_read _).bind fun _ => bypasses_tables_bind (fun _ => rfl) (fun _ => rfl) fun _ =>
    bypasses_pure _

/-- or devices. -/
theorem bypasses_newDevice (d : Device) :
    (newDevice d : Call G ObjectId).Bypasses t idle ends quiet :=
  (bypasses_read _).bind fun _ => bypasses_tables_bind (fun _ => rfl) (fun _ => rfl) fun _ =>
    bypasses_pure _

end Call

namespace Op

/-- The core into whose rotation the operation brings the thread, if it is carried out on core
`here`: a bootstrap brings in the idle thread of its core. -/
def startsOn (idle : CoreId → Option ThreadId) (here : CoreId) (t : ThreadId) : Op G → Option CoreId
  | startThread c u => if u = t then some c else none
  | startThreadHere u _ => if u = t then some here else none
  | bootstrap c => if idle c = some t then some c else none
  | _ => none

/-- **Every operation passes a thread by that it does not start**, up to a kill. -/
theorem bypasses_call {here : CoreId} {op : Op G} (h : op.startsOn idle here t = none) :
    op.call.Bypasses t idle (op.MayEnd t) False := by
  have hne {p : Prop} [Decidable p] {c : CoreId} (h : (if p then some c else none) = none) : ¬ p :=
    fun hp => Option.some_ne_none c ((if_pos hp).symm.trans h)
  open Call in
  cases op with
  | newThread entry description => exact bypasses_newThread entry description
  | createThread entry description => exact bypasses_createThread entry description
  | startThread c u => exact bypasses_startThread c (hne h)
  | startThreadHere u argument => exact bypasses_startThreadHere argument (hne h)
  | killThread c u => exact bypasses_killThread c u id
  | exitThread u code => exact bypasses_exitThread u code id
  | exitThreadHere code => exact bypasses_exitThreadHere code trivial
  | runThread u => exact bypasses_runThread u id
  | delay c span => exact bypasses_delay c span
  | delayHere span => exact bypasses_currentCore.bind fun c => bypasses_delay c span
  | undelay c u => exact bypasses_undelay c u
  | undelayThread u => exact bypasses_undelayThread u
  | yieldThread c x => exact bypasses_yieldThread c x
  | onTick c x => exact bypasses_onTick c x
  | bootstrap c => exact bypasses_bootstrap (hne h)
  | inspect c => exact bypasses_inspect c id
  | registerDpc c d => exact bypasses_registerDpc c d
  | registerDpcHere make => exact bypasses_currentCore.bind fun c => bypasses_registerDpc c (make c)
  | pendingDpcs c => exact bypasses_overheld _ (bypasses_read _)
  | registerIrq c irq handler => exact bypasses_registerIrq c irq handler
  | dispatch fuel c irq x => exact bypasses_dispatch fuel c irq x
  | dispatchHere fuel irq x =>
    exact bypasses_currentCore.bind fun c => bypasses_dispatch fuel c irq x
  | newEvent autoReset => exact bypasses_newEvent autoReset
  | signalEvent e => exact bypasses_signalEvent e
  | resetEvent e =>
    have hclear (k : Kernel G) : k.Bypasses (k.setRaised e false) t False :=
      Kernel.bypasses_of_tables rfl rfl
    exact bypasses_change hclear
  | waiterCount e => exact bypasses_locked _ (bypasses_read _)
  | enqueueWait e span => exact bypasses_enqueueWait e span
  | completeWait e w => exact bypasses_completeWait e w
  | waitEvent e span => exact bypasses_waitEvent e span
  | createObject x name parent => exact bypasses_createObject x name parent
  | newDirectory => exact bypasses_newDirectory
  | newDevice d => exact bypasses_newDevice d
  | createDirectory name parent =>
    exact bypasses_newDirectory.bind fun x => bypasses_createObject x name parent
  | createEvent name autoReset parent =>
    exact (bypasses_newEvent autoReset).bind fun e => bypasses_createObject (.event e) name parent

end Op

end Nucleus
