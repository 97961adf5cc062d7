import Nucleus.Proofs.Agreement
import Nucleus.Proofs.Phases
import Nucleus.Proofs.Refusals
import Nucleus.Proofs.Runners
import Nucleus.Proofs.Tick

/-!
# Starts that fail

A thread is started with an argument, and a core is started by a bootstrap. Both may be refused, and
both write before they have looked at everything: the argument is set once the thread is known to
have no owner, and only then is a thread refused that has ended; and a core is marked as started
before it is known whether there is anybody to switch to.

* `refused_start_changes_nothing_iff` says which refused starts of a thread change nothing: all but
  those of a thread that has ended, if the argument is another one.
* `Kernel.Deserted` says that a core has nobody to switch to and cannot bring in its idle thread.
* `failed_bootstrap_changes_nothing_iff` says that the bootstrap of a deserted core is the one that
  fails and leaves a mark, and that started cores have been brought up if and only if no bootstrap
  has found its core deserted.
-/

namespace Nucleus

variable {G : Guest}

/-! ## Starting a thread -/

namespace Kernel

/-- What the body of a thread is given, if there is such a thread. -/
def argumentOf? (k : Kernel G) (t : ThreadId) : Option UInt64 := (k.threads[t]?).map (·.argument)

/-- To set an argument changes nothing if and only if the thread has it already. -/
theorem setArgument_eq_self_iff {k : Kernel G} {t : ThreadId} {argument : UInt64} :
    k.setArgument t argument = k ↔ ∀ a ∈ k.argumentOf? t, a = argument := by
  have hfound := k.getElem?_threads_updateThread t t fun th => { th with argument }
  rw [if_pos rfl] at hfound
  constructor
  · intro h a ha
    obtain ⟨th, hth, rfl⟩ := Option.map_eq_some_iff.mp ha
    rw [← setArgument, h, hth] at hfound
    exact congrArg Thread.argument (Option.some.inj hfound)
  · intro h
    have hthreads : (k.setArgument t argument).threads = k.threads := by
      refine List.ext_getElem? fun u => ?_
      simp only [setArgument]
      rw [getElem?_threads_updateThread]
      split
      next htu =>
        subst htu
        cases hth : k.threads[t]? with
        | none => rfl
        | some th =>
          have ha : th.argument = argument := h _ (Option.map_eq_some_iff.mpr ⟨th, hth, rfl⟩)
          rw [← ha]
          rfl
      · rfl
    exact congrArg (fun threads => { k with threads }) hthreads

end Kernel

namespace Call

variable {m : Machine G} {c : CoreId} {t : ThreadId}

/-- A thread that has ended, or that somebody owns, is not started. -/
theorem declines_startThread (c : CoreId)
    (h : m.kernel.stateOf t = .terminated ∨ m.kernel.ownerOf t ≠ none) :
    (startThread c t).Declines m false := by
  refine ⟨m, ?_, .refl m⟩
  simp only [startThread]
  rw [bind_of_done (read_apply _ m)]
  by_cases hended : m.kernel.stateOf t = .terminated
  · rw [if_pos hended]
    rfl
  · rw [if_neg hended]
    change Run.ending? ((claim t c >>= _ : Call G Bool) m) = _
    rw [bind_of_done (claim_apply_of_owned (h.resolve_left hended))]
    rfl

theorem declines_startThreadHere (argument : UInt64) (h : m.kernel.ownerOf t ≠ none) :
    (startThreadHere t argument).Declines m false := by
  refine ⟨m, ?_, .refl m⟩
  simp only [startThreadHere]
  rw [bind_of_done (read_apply _ m), if_pos (Option.isSome_iff_ne_none.mpr h)]
  rfl

/-- A thread that nobody owns gets its argument, and is then started on the executing core. -/
theorem ending?_startThreadHere (argument : UInt64)
    (managed : m.kernel.manages m.chip.current = true) (h : m.kernel.ownerOf t = none) :
    (startThreadHere t argument m).ending? =
      (startThread m.chip.current t
        { m with kernel := m.kernel.setArgument t argument }).ending? := by
  have hcore : currentCore { m with kernel := m.kernel.setArgument t argument } = _ :=
    currentCore_apply managed
  simp only [startThreadHere]
  rw [bind_of_done (read_apply _ m), h]
  change Run.ending? ((currentCore >>= fun c => startThread c t : Call G Bool)
    { m with kernel := m.kernel.setArgument t argument }) = _
  exact congrArg Run.ending? (bind_of_done hcore)

/-- Who is refused has an owner or has ended. -/
theorem refused_of_ending?_startThreadHere {n : Machine G} {argument : UInt64}
    (h : (startThreadHere t argument m).ending? = some (n, false)) :
    m.kernel.ownerOf t ≠ none ∨ m.kernel.stateOf t = .terminated := by
  obtain ⟨-, -, ha⟩ := does_startThreadHere t argument rfl (Run.rests_of_ending? h)
  have hanswer := Sum.inl.inj ha
  by_cases howner : m.kernel.ownerOf t = none
  · right
    simp only [Effect.startThreadHere, Effect.startThread] at hanswer
    rw [howner, if_neg (by simp)] at hanswer
    split at hanswer
    next hended =>
      rwa [Kernel.setArgument, Kernel.stateOf_updateThread] at hended
      exact fun _ => rfl
    · split at hanswer
      · cases hanswer
      next hsome =>
        rw [Kernel.setArgument, Kernel.ownerOf_updateThread, howner] at hsome
        · exact absurd rfl hsome
        · exact fun _ => rfl
  · exact .inl howner

end Call

/-- **When a refused start changes nothing.** Take any machine, in whatever state, and start any
thread with any argument on the executing core. The start is refused if and only if the thread has
an owner or has ended. If it is refused, nothing changes if and only if the thread has an owner, or
the argument is the one it has; and else the argument of the thread is all that changes. -/
theorem refused_start_changes_nothing_iff {m : Machine G}
    (managed : m.kernel.manages m.chip.current = true) (t : ThreadId) (argument : UInt64) :
    ((∃ n, (Call.startThreadHere t argument m).ending? = some (n, false)) ↔
      m.kernel.ownerOf t ≠ none ∨ m.kernel.stateOf t = .terminated) ∧
    ∀ n, (Call.startThreadHere t argument m).ending? = some (n, false) →
      (m.Unchanged n ↔ m.kernel.ownerOf t ≠ none ∨
        ∀ a ∈ m.kernel.argumentOf? t, a = argument) ∧
      (m.Unchanged n ∨
        Machine.Unchanged { m with kernel := m.kernel.setArgument t argument } n) := by
  by_cases howner : m.kernel.ownerOf t = none
  · -- the argument is set, and then the thread is looked at
    have hstart := Call.ending?_startThreadHere argument managed howner
    have hended (h : m.kernel.stateOf t = .terminated) :
        (Call.startThread m.chip.current t).Declines
          { m with kernel := m.kernel.setArgument t argument } false := by
      refine Call.declines_startThread _ (.inl ?_)
      refine (m.kernel.stateOf_updateThread (f := fun th => { th with argument }) ?_ t).trans h
      exact fun _ => rfl
    constructor
    · constructor
      · rintro ⟨n, hn⟩
        exact Call.refused_of_ending?_startThreadHere hn
      · intro h
        obtain ⟨n, hn, -⟩ := hended (h.resolve_left (not_not_intro howner))
        exact ⟨n, hstart.trans hn⟩
    · intro n hn
      have h := (Call.refused_of_ending?_startThreadHere hn).resolve_left (not_not_intro howner)
      obtain ⟨n', hn', hset⟩ := hended h
      rw [hstart, hn'] at hn
      obtain ⟨rfl, -⟩ := Prod.mk.inj (Option.some.inj hn)
      refine ⟨?_, .inr hset⟩
      rw [or_iff_right (not_not_intro howner), ← Kernel.setArgument_eq_self_iff]
      constructor
      · intro hsame
        exact hset.kernel.symm.trans hsame.kernel
      · intro hargument
        exact ⟨hset.kernel.trans hargument, hset.chip⟩
  · obtain ⟨n, hn, hsame⟩ := Call.declines_startThreadHere argument howner
    refine ⟨iff_of_true ⟨n, hn⟩ (.inl howner), fun n' hn' => ?_⟩
    obtain ⟨rfl, -⟩ := Prod.mk.inj (Option.some.inj (hn.symm.trans hn'))
    exact ⟨iff_of_true hsame (.inl howner), .inl hsame⟩

/-- A thread is started with an argument. -/
def startedWithArgument : List (CoreId × Op ⟨Unit, Unit⟩) :=
  [(0, .createThread () "worker"), (0, .startThreadHere 1 42)]

/-- The thread has fallen asleep; to start it again with another argument is refused, and changes
nothing. -/
theorem second_start_keeps_argument : ∃ m past s later s' n,
    Machine.boot? {} {} = some m ∧ System.play ⟨m, []⟩ startedWithArgument = some (past, s) ∧
    s.play [(0, .bootstrap 0), (0, .delay 0 (.ofMillis 10))] = some (later, s') ∧
    s'.machine.kernel.stateOf 1 = .wait .timed ∧
    (Call.startThreadHere 1 7 (s'.machine.on 0)).ending? = some (n, false) ∧
    (s'.machine.on 0).Unchanged n ∧ n.kernel.argumentOf? 1 = some 42 := by
  obtain ⟨m, past, s, later, s', hm, hfirst, hsecond, htest⟩ := System.exists_play {} {}
    startedWithArgument [(0, .bootstrap 0), (0, .delay 0 (.ofMillis 10))]
    (fun _ _ _ s' => decide (s'.machine.kernel.manages 0 = true ∧
      s'.machine.kernel.stateOf 1 = .wait .timed ∧ s'.machine.kernel.ownerOf 1 = some 0 ∧
      s'.machine.kernel.argumentOf? 1 = some 42)) (by decide +kernel)
  obtain ⟨managed, hsleeps, howner, hargument⟩ := of_decide_eq_true htest
  have howned : s'.machine.kernel.ownerOf 1 ≠ none := howner ▸ Option.some_ne_none 0
  obtain ⟨hrefused, hsame⟩ :=
    refused_start_changes_nothing_iff (m := s'.machine.on 0) managed 1 7
  obtain ⟨n, hn⟩ := hrefused.mpr (.inl howned)
  have hunchanged := (hsame n hn).1.mpr (.inl howned)
  exact ⟨m, past, s, later, s', n, hm, hfirst, hsecond, hsleeps, hn, hunchanged,
    hunchanged.kernel ▸ hargument⟩

/-- **A refused start that changes something.** The thread has been killed; to start it again with
another argument is refused, and yet it has that argument from then on. -/
theorem ended_thread_gets_argument : ∃ m past s later s' n,
    Machine.boot? {} {} = some m ∧ System.play ⟨m, []⟩ startedWithArgument = some (past, s) ∧
    s.play [(0, .killThread 0 1)] = some (later, s') ∧
    (Call.startThreadHere 1 7 (s'.machine.on 0)).ending? = some (n, false) ∧
    s'.machine.kernel.argumentOf? 1 = some 42 ∧ n.kernel.argumentOf? 1 = some 7 ∧
    ¬ (s'.machine.on 0).Unchanged n := by
  obtain ⟨m, past, s, later, s', hm, hfirst, hsecond, htest⟩ := System.exists_play {} {}
    startedWithArgument [(0, .killThread 0 1)]
    (fun _ _ _ s' => decide (s'.machine.kernel.argumentOf? 1 = some 42 ∧
      (Call.startThreadHere 1 7 (s'.machine.on 0)).ending?.map
        (fun (n, started) => (n.kernel.argumentOf? 1, started)) = some (some 7, false)))
    (by decide +kernel)
  obtain ⟨hbefore, hcall⟩ := of_decide_eq_true htest
  obtain ⟨⟨n, started⟩, hn, heq⟩ := Option.map_eq_some_iff.mp hcall
  obtain ⟨hafter, rfl⟩ := Prod.mk.inj heq
  refine ⟨m, past, s, later, s', n, hm, hfirst, hsecond, hn, hbefore, hafter, fun hsame => ?_⟩
  rw [hsame.kernel] at hafter
  cases hbefore.symm.trans hafter

/-! ## Starting a core -/

namespace Kernel

variable {k : Kernel G} {c d : CoreId}

/-- The core counts as started. -/
def marked (k : Kernel G) (c : CoreId) : Kernel G :=
  k.updateCore c fun core => { core with started := true }

/-- The core has not been started, nobody is in its rotation, and its idle thread cannot be brought
in: it has ended, or somebody owns it. -/
structure Deserted (k : Kernel G) (c : CoreId) : Prop where
  /-- it has not been started -/
  unstarted : k.isStarted c = false
  /-- nobody is in its rotation -/
  empty : (k.queues c).ready = []
  /-- its idle thread has ended, or somebody owns it -/
  barred : ∀ idle ∈ k.idleOf? c, k.stateOf idle = .terminated ∨ k.ownerOf idle ≠ none

instance (k : Kernel G) (c : CoreId) : Decidable (k.Deserted c) :=
  decidable_of_iff (k.isStarted c = false ∧ (k.queues c).ready = [] ∧
      ∀ idle ∈ k.idleOf? c, k.stateOf idle = .terminated ∨ k.ownerOf idle ≠ none)
    ⟨fun ⟨unstarted, empty, barred⟩ => ⟨unstarted, empty, barred⟩,
      fun ⟨unstarted, empty, barred⟩ => ⟨unstarted, empty, barred⟩⟩

/-! ### Which cores count as started -/

theorem isStarted_marked (hc : k.manages c = true) (d : CoreId) :
    (k.marked c).isStarted d = if c = d then true else k.isStarted d := by
  split
  next hcd =>
    subst hcd
    exact isStarted_markStarted hc
  next hcd =>
    simp only [isStarted, marked]
    rw [getElem?_cores_updateCore, if_neg hcd]

theorem isStarted_startThread (k : Kernel G) (c : CoreId) (t : ThreadId) (d : CoreId) :
    (Effect.startThread c t k).1.isStarted d = k.isStarted d := by
  simp only [Effect.startThread]
  split
  · rfl
  · split
    · exact ((onlyQueues_updateThread k t _).trans (onlyQueues_makeReady _ c t)).started d
    · rfl

theorem isStarted_prepare (k : Kernel G) (c d : CoreId) :
    (Effect.prepare c k).isStarted d = (k.marked c).isStarted d := by
  simp only [Effect.prepare, Effect.bringIdle]
  split
  · rfl
  · exact isStarted_startThread _ c _ d

theorem isStarted_setHandler (k : Kernel G) (c : CoreId) (irq : SystemIrq) (h : Handler G)
    (d : CoreId) : (k.setHandler c irq h).isStarted d = k.isStarted d := by
  refine k.isStarted_updateCore (fun core => ?_) d
  cases irq <;> rfl

theorem isStarted_install (k : Kernel G) (c d : CoreId) :
    (Effect.install c k).1.isStarted d = k.isStarted d := by
  simp only [Effect.install, Effect.switchFirst]
  cases (k.queues c).ready.head? with
  | none => rfl
  | some u =>
    exact (isStarted_setHandler _ c _ _ d).trans ((onlyQueues_switchTo k c u).started d)

/-- **Only a bootstrap starts a core.** -/
theorem isStarted_apply_of_ne {ch : Change G} (h : ∀ c, ch ≠ .bootstrap c) (d : CoreId) :
    (ch.apply k).isStarted d = k.isStarted d := by
  cases ch with
  | start c t =>
    exact ((onlyQueues_updateThread k t _).trans (onlyQueues_makeReady _ c t)).started d
  | kill c t =>
    have hended := (onlyQueues_terminate k c t).started d
    dsimp only [Change.apply]
    simp only [Effect.killThread]
    split
    · dsimp only
      split
      · exact (isStarted_setDpcs _ c _ d).trans hended
      · exact hended
    · rfl
  | wake c t =>
    exact ((onlyQueues_updateQueues k c _).trans (onlyQueues_makeReady _ c t)).started d
  | advance c => exact (onlyQueues_advance k c).started d
  | turn c context =>
    dsimp only [Change.apply]
    rcases k.turn_cases c context with ⟨-, hk⟩ | ⟨next, -, -, hk⟩ <;> rw [hk]
    refine ((onlyQueues_switchTo _ c next).started d).trans ?_
    simp only [isStarted]
    rw [cores_interruptRunning]
  | bootstrap c => exact absurd rfl (h c)
  | defer c _ => exact k.isStarted_setDpcs c _ d
  | undefer c => exact k.isStarted_setDpcs c _ d
  | setHandler c irq handler => exact k.isStarted_setHandler c irq handler d
  | addThread | adjust | addEvent | setRaised | setWaiters | addWait | updateWait | setObjects =>
    rfl

/-! ### What a bootstrap does -/

theorem queues_marked (k : Kernel G) (c d : CoreId) : (k.marked c).queues d = k.queues d :=
  k.queues_updateCore (f := fun core => { core with started := true }) (fun _ => rfl) d

theorem idleOf?_marked (k : Kernel G) (c : CoreId) : (k.marked c).idleOf? c = k.idleOf? c :=
  congrFun (k.idleOf?_updateCore c (f := fun core => { core with started := true })
    fun _ => rfl) c

theorem prepare_eq (k : Kernel G) (c : CoreId) : Effect.prepare c k = match k.idleOf? c with
    | none => k.marked c
    | some idle => (Effect.startThread c idle (k.marked c)).1 := by
  rw [← k.idleOf?_marked]
  rfl

/-- If the idle thread cannot be brought in, the core gets marked and that is all. -/
theorem prepare_of_barred
    (h : ∀ idle ∈ k.idleOf? c, k.stateOf idle = .terminated ∨ k.ownerOf idle ≠ none) :
    Effect.prepare c k = k.marked c := by
  rw [prepare_eq]
  cases hi : k.idleOf? c with
  | none => rfl
  | some idle =>
    simp only [Effect.startThread]
    split
    · rfl
    next hs =>
      have ho : ¬ ((k.marked c).ownerOf idle).isNone := fun hnone =>
        (h idle hi).elim hs (absurd (Option.isNone_iff_eq_none.mp hnone))
      rw [if_neg ho]

/-- If the idle thread can be brought in, it is in the rotation then. -/
theorem ready_prepare_ne_nil {idle : ThreadId} (hc : k.manages c = true)
    (hi : k.idleOf? c = some idle) (hs : k.stateOf idle ≠ .terminated)
    (ho : k.ownerOf idle = none) : ((Effect.prepare c k).queues c).ready ≠ [] := by
  have hc' : ((k.marked c).setOwner idle (some c)).manages c = true :=
    (k.manages_updateCore c c _).trans hc
  have hs' : (k.marked c).stateOf idle ≠ .terminated := hs
  have ho' : ((k.marked c).ownerOf idle).isNone := Option.isNone_iff_eq_none.mpr ho
  rw [prepare_eq, hi]
  simp only [Effect.startThread]
  rw [if_neg hs', if_pos ho', queues_makeReady hc']
  exact List.append_ne_nil_of_right_ne_nil _ (List.cons_ne_nil _ _)

/-- **A core that has not been started is deserted** if and only if nobody is in its rotation once
its idle thread was to be brought in. -/
theorem deserted_iff (hc : k.manages c = true) (hstarted : k.isStarted c = false) :
    k.Deserted c ↔ ((Effect.prepare c k).queues c).ready = [] := by
  constructor
  · intro h
    rw [prepare_of_barred h.barred, queues_marked]
    exact h.empty
  · intro hnobody
    have hbarred : ∀ idle ∈ k.idleOf? c, k.stateOf idle = .terminated ∨ k.ownerOf idle ≠ none := by
      intro idle hi
      by_contra hadmitted
      obtain ⟨hs, ho⟩ := not_or.mp hadmitted
      exact ready_prepare_ne_nil hc hi hs (not_not.mp ho) hnobody
    rw [prepare_of_barred hbarred, queues_marked] at hnobody
    exact ⟨hstarted, hnobody, hbarred⟩

end Kernel

/-- **What a bootstrap finds**: a core that has been started, which is left alone; or a deserted
core, which is marked; or a core that has somebody to switch to. -/
theorem Effect.bootstrap_finds {k : Kernel G} {c : CoreId} (hc : k.manages c = true) :
    (k.isStarted c = true ∧ bootstrap c k = (k, .error .invalidOperation)) ∨
    (k.Deserted c ∧ bootstrap c k = (k.marked c, .error .invalidOperation)) ∨
    (k.isStarted c = false ∧ ¬ k.Deserted c ∧
      ∃ x, bootstrap c k = ((install c (prepare c k)).1, .ok x)) := by
  cases hstarted : k.isStarted c with
  | true =>
    refine .inl ⟨rfl, ?_⟩
    simp only [bootstrap]
    rw [hstarted]
    rfl
  | false =>
    right
    have hbootstrap : bootstrap c k = install c (prepare c k) := by
      simp only [bootstrap]
      rw [hstarted]
      rfl
    rw [Kernel.deserted_iff hc hstarted, hbootstrap]
    simp only [install, switchFirst]
    cases hhead : ((prepare c k).queues c).ready.head? with
    | none =>
      have hnobody := List.head?_eq_none_iff.mp hhead
      have hdeserted := (Kernel.deserted_iff hc hstarted).mpr hnobody
      exact .inl ⟨hnobody, by rw [Kernel.prepare_of_barred hdeserted.barred]⟩
    | some u =>
      refine .inr ⟨trivial, fun hnobody => ?_, _, rfl⟩
      rw [hnobody] at hhead
      cases hhead

theorem Effect.isStarted_bootstrap {k : Kernel G} {c : CoreId} (hc : k.manages c = true)
    (d : CoreId) : (bootstrap c k).1.isStarted d = if c = d then true else k.isStarted d := by
  rcases bootstrap_finds hc with ⟨hstarted, hb⟩ | ⟨-, hb⟩ | ⟨-, -, x, hb⟩ <;> rw [hb]
  · split
    next hcd => exact hcd ▸ hstarted
    · rfl
  · exact Kernel.isStarted_marked hc d
  · rw [Kernel.isStarted_install, Kernel.isStarted_prepare, Kernel.isStarted_marked hc]

/-- If somebody is in the rotation, the tick handler gets installed. -/
theorem Kernel.handler?_install {k : Kernel G} {c : CoreId} (hc : k.manages c = true)
    (h : (k.queues c).ready ≠ []) :
    (Effect.install c k).1.handler? c .systemTick = some (.tick c) := by
  simp only [Effect.install, Effect.switchFirst]
  cases hhead : (k.queues c).ready.head? with
  | none => exact absurd (List.head?_eq_none_iff.mp hhead) h
  | some u =>
    have hc' : (k.switchTo c u).manages c = true :=
      ((Kernel.Adjusts.refl.switchTo c u).manages c).trans hc
    simp only [handler?, setHandler]
    rw [getElem?_cores_updateCore, if_pos rfl, List.getElem?_eq_getElem (of_decide_eq_true hc')]
    rfl

/-- **What a bootstrap that succeeds leaves**: the core counts as started, the thread with the
context is switched in, and the tick handler is installed. -/
theorem Effect.bootstrap_up {k : Kernel G} {c : CoreId} {x : Context} (hc : k.manages c = true)
    (h : (bootstrap c k).2 = .ok x) :
    (bootstrap c k).1.isStarted c = true ∧
    (∃ u, ((bootstrap c k).1.queues c).running = some u ∧ x = (bootstrap c k).1.contextOf u) ∧
    (bootstrap c k).1.handler? c .systemTick = some (.tick c) := by
  refine ⟨?_, bootstrap_ok hc h, ?_⟩ <;>
    rcases bootstrap_finds hc with ⟨-, hb⟩ | ⟨-, hb⟩ | ⟨hfresh, hmanned, y, hb⟩ <;>
    rw [hb] at h ⊢ <;> try cases h
  · rw [Kernel.isStarted_install, Kernel.isStarted_prepare, Kernel.isStarted_marked hc, if_pos rfl]
  · refine Kernel.handler?_install (((Kernel.Adjusts.refl.prepare c).manages c).trans hc) ?_
    exact mt (Kernel.deserted_iff hc hfresh).mpr hmanned

/-! ### What the call leaves -/

/-- The core has been brought up: it counts as started, the thread whose context is `x` is switched
in, the tick handler is installed, and the timer is armed with the time slice. -/
structure Machine.Up (n : Machine G) (c : CoreId) (x : Context) : Prop where
  /-- the core counts as started -/
  started : n.kernel.isStarted c = true
  /-- the thread with the context is switched in -/
  slot : ∃ u, (n.kernel.queues c).running = some u ∧ x = n.kernel.contextOf u
  /-- the tick handler is installed -/
  handler : n.kernel.handler? c .systemTick = some (.tick c)
  /-- the timer is armed -/
  timer : n.chip.timer = some n.kernel.slice

namespace Call

variable {m n : Machine G} {c : CoreId}

theorem declines_bootstrap (h : m.kernel.isStarted c = true) :
    (bootstrap c).Declines m (.error .invalidOperation) := by
  refine ⟨m, ?_, .refl m⟩
  simp only [bootstrap]
  rw [bind_of_done (read_apply _ m), h]
  rfl

/-- What is left of a bootstrap once the idle thread is brought in. -/
def install (c : CoreId) : Call G (Outcome Context) := do
  match ← locked (.queues c) (switchFirst c) with
  | none => return .error .invalidOperation
  | some context =>
    discard <| registerIrq c .systemTick (.tick c)
    let slice ← read (·.slice)
    command (·.arm slice)
    note (.bootstrapped c slice)
    return .ok context

/-- A bootstrap marks the core, brings in the idle thread, and installs. -/
theorem bootstrap_eq (c : CoreId) : (bootstrap c : Call G (Outcome Context)) = (do
    if ← read (·.isStarted c) then return .error .invalidOperation
    change (·.marked c)
    pause .unlocked
    if let some idle ← read (·.idleOf? c) then
      discard <| startThread c idle
    install c) := rfl

/-- Where nobody is in the rotation, nothing is installed. -/
theorem declines_install (hl : .queues c ∉ m.chip.held)
    (h : (m.kernel.queues c).ready = []) :
    (install c).Declines m (.error .invalidOperation) := by
  have hnobody : (switchFirst c).Declines { m with chip := m.chip.mask.acquire (.queues c) }
      none := by
    refine ⟨_, ?_, .refl _⟩
    simp only [switchFirst]
    rw [bind_of_done (read_apply _ _), h]
    rfl
  exact (declines_locked hl hnobody).bind fun n _ => declines_pure _ n

/-- **The bootstrap of a deserted core** fails, and all that it leaves is the mark. -/
theorem bootstrap_of_deserted (hl : .queues c ∉ m.chip.held) (h : m.kernel.Deserted c) :
    ∃ n, (bootstrap c m).ending? = some (n, .error .invalidOperation) ∧
      Machine.Unchanged { m with kernel := m.kernel.marked c } n := by
  have hempty : ((m.kernel.marked c).queues c).ready = [] := by
    rw [Kernel.queues_marked]
    exact h.empty
  have hidle := m.kernel.idleOf?_marked c
  rw [bootstrap_eq, bind_of_done (read_apply _ m), h.unstarted]
  change ∃ n, Run.ending? ((read (·.idleOf? c) >>= _ : Call G (Outcome Context))
    { m with kernel := m.kernel.marked c }) = _ ∧ _
  rw [bind_of_done (read_apply _ _), hidle]
  cases hi : m.kernel.idleOf? c with
  | none => exact declines_install hl hempty
  | some idle =>
    have hrefused : (startThread c idle).Declines { m with kernel := m.kernel.marked c } false :=
      declines_startThread c (h.barred idle hi)
    have hdiscarded : (discard (startThread c idle)).Declines
        { m with kernel := m.kernel.marked c } () := hrefused.bind fun n _ => declines_pure () n
    refine hdiscarded.bind (f := fun _ => _) fun n hsame => ?_
    exact declines_install (hsame.held ▸ hl) (hsame.kernel ▸ hempty)

/-- Wherever the call returns by itself, it does so with an answer and a machine as in `Q`. -/
def Ensures {α : Type} (Q : α → Machine G → Prop) (x : Call G α) : Prop :=
  ∀ ⦃m n a⦄, (x m).ending? = some (n, a) → Q a n

/-- The last call decides. -/
theorem ensures_bind {α β : Type} {Q : β → Machine G → Prop} (x : Call G α) {f : α → Call G β}
    (hf : ∀ a, (f a).Ensures Q) : (x >>= f).Ensures Q := by
  intro m n b h
  obtain ⟨⟨n', a⟩, -, ha⟩ := Option.bind_eq_some_iff.mp ((Run.ending?_bind (x m) f).symm.trans h)
  exact hf a ha

/-- If the answer is a context, the timer is armed with the time slice. -/
def Armed (a : Outcome Context) (n : Machine G) : Prop :=
  ∀ x, a = .ok x → n.chip.timer = some n.kernel.slice

/-- A bootstrap that succeeds has armed the timer. -/
theorem ensures_armed (c : CoreId) :
    (bootstrap c : Call G (Outcome Context)).Ensures Armed := by
  have hfailed (why : KernelError) :
      (pure (.error why) : Call G (Outcome Context)).Ensures Armed := by
    intro m n a h x hx
    cases h
    cases hx
  have hlast : (install c : Call G (Outcome Context)).Ensures Armed := by
    refine ensures_bind _ fun o => ?_
    cases o with
    | none => exact hfailed _
    | some context =>
      refine ensures_bind _ fun _ m n a h x _ => ?_
      cases h
      rfl
  rw [bootstrap_eq]
  refine ensures_bind _ fun started => ?_
  cases started with
  | true => exact hfailed _
  | false =>
    refine ensures_bind _ fun _ => ensures_bind _ fun _ => ensures_bind _ fun o => ?_
    cases o with
    | none => exact hlast
    | some idle => exact ensures_bind _ fun _ => hlast

end Call

/-- **What a bootstrap does.** Where no lock is held it returns. If it succeeds, the core has been
brought up. If it fails, the core had been started or is deserted; a core that had been started is
left as it was, and a deserted one gets marked. -/
theorem Call.bootstrap_returns {m : Machine G} {c : CoreId} (free : m.chip.held = [])
    (hc : m.kernel.manages c = true) :
    ∃ n a, (bootstrap c m).ending? = some (n, a) ∧
      ((∃ x, a = .ok x ∧ n.Up c x) ∨
        (m.kernel.isStarted c = true ∧ a = .error .invalidOperation ∧ m.Unchanged n) ∨
        (m.kernel.Deserted c ∧ a = .error .invalidOperation ∧
          Machine.Unchanged { m with kernel := m.kernel.marked c } n)) := by
  have hl : .queues c ∉ m.chip.held := free ▸ List.not_mem_nil
  rcases Effect.bootstrap_finds hc with ⟨hstarted, -⟩ | ⟨hdeserted, -⟩ | ⟨-, -, x, hb⟩
  · obtain ⟨n, hn, hsame⟩ := declines_bootstrap hstarted
    exact ⟨n, _, hn, .inr (.inl ⟨hstarted, rfl, hsame⟩)⟩
  · obtain ⟨n, hn, hmarked⟩ := bootstrap_of_deserted hl hdeserted
    exact ⟨n, _, hn, .inr (.inr ⟨hdeserted, rfl, hmarked⟩)⟩
  · have hreturns : ((Op.bootstrap c).call m).Returns :=
      Op.returns_call rfl free rfl (Op.not_mayStop nofun nofun nofun nofun nofun)
    obtain ⟨n, a, hn⟩ : (bootstrap c m).Returns := hreturns
    obtain ⟨-, hk, ha⟩ := does_bootstrap c rfl (Run.rests_of_ending? hn)
    have hok : (Effect.bootstrap c m.kernel).2 = .ok x := congrArg Prod.snd hb
    obtain rfl : a = .ok x := (Sum.inl.inj ha).trans hok
    obtain ⟨hstarted, hslot, hhandler⟩ := Effect.bootstrap_up hc hok
    rw [← hk] at hstarted hslot hhandler
    exact ⟨n, _, hn, .inl ⟨x, rfl, hstarted, hslot, hhandler, ensures_armed c hn x rfl⟩⟩

/-! ### Along a run -/

/-- The segment is the bootstrap of a core that it found deserted. -/
def Segment.FoundDeserted (seg : Segment G) (c : CoreId) : Prop :=
  seg.op = .bootstrap c ∧ seg.before.Deserted c

theorem Op.eq_of_bootstraps {c d : CoreId} {a : Outcome Context}
    (h : (Op.bootstrap d : Op G).bootstraps a = some c) : d = c := by
  cases a with
  | ok x => exact Option.some.inj h
  | error why => cases h

/-- **One segment** starts a core if it brings it up or finds it deserted, and it does one of the
two only; and else the core counts as started if it did before. -/
theorem Segment.Sound.starts {seg : Segment G} (hseg : seg.Sound) (c : CoreId) :
    (seg.before.isStarted c = false ∧ seg.after.isStarted c = true ∧
      (seg.bootstrapped = some c ↔ ¬ seg.FoundDeserted c)) ∨
    (seg.after.isStarted c = seg.before.isStarted c ∧ seg.bootstrapped ≠ some c ∧
      ¬ seg.FoundDeserted c) := by
  by_cases hop : ∃ d, seg.op = .bootstrap d
  · obtain ⟨d, hop⟩ := hop
    obtain ⟨hd, hafter, hboot⟩ := hseg.of_bootstrap hop
    have hstarts : seg.after.isStarted c = if d = c then true else seg.before.isStarted c := by
      rw [hafter, Effect.isStarted_bootstrap hd]
    have hfound : seg.FoundDeserted c ↔ d = c ∧ seg.before.Deserted c := by
      rw [FoundDeserted, hop, Op.bootstrap.injEq]
    by_cases hdc : d = c
    · subst hdc
      rw [if_pos rfl] at hstarts
      rcases Effect.bootstrap_finds hd with
        ⟨hstarted, hb⟩ | ⟨hdeserted, hb⟩ | ⟨hfresh, hmanned, x, hb⟩ <;> rw [hb] at hboot
      · refine .inr ⟨hstarts.trans hstarted.symm, by rw [hboot]; nofun, fun h => ?_⟩
        rw [(hfound.mp h).2.unstarted] at hstarted
        cases hstarted
      · refine .inl ⟨hdeserted.unstarted, hstarts, iff_of_false (by rw [hboot]; nofun) ?_⟩
        exact not_not_intro (hfound.mpr ⟨rfl, hdeserted⟩)
      · refine .inl ⟨hfresh, hstarts, iff_of_true hboot fun h => hmanned ?_⟩
        exact (hfound.mp h).2
    · rw [if_neg hdc] at hstarts
      refine .inr ⟨hstarts, fun h => hdc ?_, fun h => hdc (hfound.mp h).1⟩
      exact Op.eq_of_bootstraps (hboot.symm.trans h)
  · rcases hseg.bootstrap_or with ⟨d, -, hd, -⟩ | ⟨hnone, k, hk, path⟩
    · exact absurd ⟨d, hd⟩ hop
    · refine .inr ⟨?_, by rw [hnone]; nofun, fun h => hop ⟨c, h.1⟩⟩
      have hkept := path.keeps (I := fun k => k.isStarted c = seg.before.isStarted c)
        (fun k ch hch _ h => (Kernel.isStarted_apply_of_ne hch.2 c).trans h)
      rcases hk with rfl | ⟨d, wake, rfl⟩
      · exact hkept rfl
      · exact hkept ((Kernel.onlyQueues_setAside seg.before d wake).started c)

/-- **Along a run** from where no core is started, a core that is not started was neither brought up
nor found deserted, and one that is started was either brought up or found deserted. -/
theorem System.Runs.started {s₀ s : System G} {history : List (Segment G)}
    (run : Runs s₀ history s) (h₀ : ∀ task ∈ s₀.tasks, task.Sound) {c : CoreId}
    (fresh : s₀.machine.kernel.isStarted c = false) :
    (s.machine.kernel.isStarted c = false →
      ∀ seg ∈ history, seg.bootstrapped ≠ some c ∧ ¬ seg.FoundDeserted c) ∧
    (s.machine.kernel.isStarted c = true →
      ((∃ seg ∈ history, seg.bootstrapped = some c) ↔
        ∀ seg ∈ history, ¬ seg.FoundDeserted c)) := by
  induction run with
  | start =>
    refine ⟨fun _ => List.forall_mem_nil _, fun h => ?_⟩
    rw [fresh] at h
    cases h
  | @step history s s' seg run next ih =>
    obtain ⟨hno, hyes⟩ := ih
    have hsound := (next.sound (run.sound h₀).2).1
    obtain ⟨hbefore, hafter⟩ := next.kernels
    rw [← hbefore] at hno hyes
    rw [← hafter]
    simp only [List.forall_mem_cons, List.exists_mem_cons_iff]
    rcases hsound.starts c with ⟨hfalse, htrue, hiff⟩ | ⟨hsame, hboot, hfound⟩
    · -- the older segments have nothing to do with it
      refine ⟨fun h => Bool.noConfusion (htrue.symm.trans h), fun _ => ?_⟩
      have hboot : ¬ ∃ seg ∈ history, seg.bootstrapped = some c := by
        rintro ⟨seg, hseg, h⟩
        exact (hno hfalse seg hseg).1 h
      have hfound : ∀ seg ∈ history, ¬ seg.FoundDeserted c := fun seg hseg =>
        (hno hfalse seg hseg).2
      rw [or_iff_left hboot, and_iff_left hfound]
      exact hiff
    · rw [hsame]
      refine ⟨fun h => ⟨⟨hboot, hfound⟩, hno h⟩, fun h => ?_⟩
      rw [or_iff_right hboot, and_iff_right hfound]
      exact hyes h

/-- **When a failed bootstrap changes nothing.** Take any state of any run from a boot, and start
scheduling on any core, from any core. The bootstrap returns. If it succeeds, the core has been
brought up: it counts as started, somebody is switched in, the tick handler is installed and the
timer armed. If it fails, it does so because the core had been started already or is deserted; it
leaves everything as it was if and only if the core is not deserted, and the mark is all that it
leaves on a deserted core. And a core that counts as started has been brought up if and only if no
bootstrap of the run has found it deserted. -/
theorem failed_bootstrap_changes_nothing_iff {m : Machine G} {s : System G}
    {history : List (Segment G)} (booted : m.Booted) (free : m.chip.held = [])
    (run : System.Runs ⟨m, []⟩ history s) (c : CoreId)
    (managed : s.machine.kernel.manages c = true) :
    (∀ here, ∃ n a, (Call.bootstrap c (s.machine.on here)).ending? = some (n, a) ∧
      ((∃ x, a = .ok x ∧ n.Up c x) ∨
        a = .error .invalidOperation ∧
        (s.machine.kernel.isStarted c = true ∨ s.machine.kernel.Deserted c) ∧
        ((s.machine.on here).Unchanged n ↔ ¬ s.machine.kernel.Deserted c) ∧
        (s.machine.kernel.Deserted c →
          Machine.Unchanged { s.machine.on here with kernel := s.machine.kernel.marked c } n))) ∧
    (s.machine.kernel.isStarted c = true →
      ((∃ seg ∈ history, seg.bootstrapped = some c) ↔
        ∀ seg ∈ history, ¬ seg.FoundDeserted c)) := by
  refine ⟨fun here => ?_, (run.started System.forall_tasks_start (booted.fresh.started c)).2⟩
  have hfree : (s.machine.on here).chip.held = [] :=
    (run.unlocked (System.unlocked_start free)).held
  obtain ⟨n, a, hn, hup | ⟨hstarted, ha, hsame⟩ | ⟨hdeserted, ha, hmarked⟩⟩ :=
    Call.bootstrap_returns (m := s.machine.on here) hfree managed
  · exact ⟨n, a, hn, .inl hup⟩
  · have hmanned : ¬ s.machine.kernel.Deserted c := fun h =>
      Bool.noConfusion (hstarted.symm.trans h.unstarted)
    exact ⟨n, a, hn, .inr ⟨ha, .inl hstarted, iff_of_true hsame hmanned, fun h => absurd h hmanned⟩⟩
  · -- the mark is seen afterwards
    have hmark : ¬ (s.machine.on here).Unchanged n := by
      intro hsame
      have hkernel : s.machine.kernel.marked c = s.machine.kernel :=
        hmarked.kernel.symm.trans hsame.kernel
      have hstarted : (s.machine.kernel.marked c).isStarted c = true :=
        Kernel.isStarted_markStarted managed
      rw [hkernel] at hstarted
      exact Bool.noConfusion (hstarted.symm.trans hdeserted.unstarted)
    exact ⟨n, a, hn, .inr ⟨ha, .inr hdeserted, iff_of_false hmark (not_not_intro hdeserted),
      fun _ => hmarked⟩⟩

/-- The idle thread of a core is started and killed before the core is started. -/
def killedIdle : List (CoreId × Op ⟨Unit, Unit⟩) := [(0, .startThread 0 0), (0, .killThread 0 0)]

/-- A thread is started on that core, and so the bootstrap succeeds. A second bootstrap fails, and
changes nothing. -/
theorem bootstrap_without_idle_thread : ∃ m past s later s' n,
    Machine.boot? {} {} = some m ∧ System.play ⟨m, []⟩ killedIdle = some (past, s) ∧
    s.play [(0, .createThread () "worker"), (0, .startThread 0 1), (0, .bootstrap 0)] =
      some (later, s') ∧
    (∃ seg ∈ later ++ past, seg.bootstrapped = some 0) ∧
    (∀ seg ∈ later ++ past, ¬ seg.FoundDeserted 0) ∧
    (Call.bootstrap 0 (s'.machine.on 0)).ending? = some (n, .error .invalidOperation) ∧
    (s'.machine.on 0).Unchanged n := by
  obtain ⟨m, past, s, later, s', hm, hfirst, hsecond, htest⟩ := System.exists_play {} {} killedIdle
    [(0, .createThread () "worker"), (0, .startThread 0 1), (0, .bootstrap 0)]
    (fun past _ later s' => decide (s'.machine.kernel.manages 0 = true ∧
      s'.machine.kernel.isStarted 0 = true ∧ ∃ seg ∈ later ++ past, seg.bootstrapped = some 0))
    (by decide +kernel)
  obtain ⟨managed, hstarted, hboot⟩ := of_decide_eq_true htest
  have hrun := (System.runs_of_play hfirst).trans (System.runs_of_play hsecond)
  obtain ⟨hcall, hiff⟩ := failed_bootstrap_changes_nothing_iff (Machine.booted_of_boot? hm)
    (Machine.held_of_boot? hm) hrun 0 managed
  obtain ⟨n, a, hn, hcase⟩ := hcall 0
  obtain ⟨n', hn', -⟩ := Call.declines_bootstrap (m := s'.machine.on 0) (c := 0) hstarted
  obtain ⟨rfl, rfl⟩ := Prod.mk.inj (Option.some.inj (hn'.symm.trans hn))
  rcases hcase with ⟨x, hx, -⟩ | ⟨-, -, hunchanged, -⟩
  · cases hx
  · have hmanned : ¬ s'.machine.kernel.Deserted 0 := fun h =>
      Bool.noConfusion (hstarted.symm.trans h.unstarted)
    exact ⟨m, past, s, later, s', n', hm, hfirst, hsecond, hboot, (hiff hstarted).mp hboot, hn',
      hunchanged.mpr hmanned⟩

/-- **A failed bootstrap that starts a core.** Nobody is in the rotation of that core and its idle
thread has ended: the bootstrap fails, and yet the core counts as started from then on, with nobody
switched in and the timer not armed. -/
theorem failed_bootstrap_starts_core : ∃ m past s later s',
    Machine.boot? {} {} = some m ∧ System.play ⟨m, []⟩ killedIdle = some (past, s) ∧
    s.machine.kernel.isStarted 0 = false ∧ s.play [(0, .bootstrap 0)] = some (later, s') ∧
    (Call.bootstrap 0 (s.machine.on 0)).ending?.map Prod.snd =
      some (.error .invalidOperation) ∧
    (∀ seg ∈ later ++ past, seg.bootstrapped = none) ∧ s'.machine.kernel.isStarted 0 = true ∧
    (s'.machine.kernel.queues 0).running = none ∧ s'.machine.chip.timer = none := by
  obtain ⟨m, past, s, later, s', hm, hfirst, hsecond, htest⟩ := System.exists_play {} {} killedIdle
    [(0, .bootstrap 0)]
    (fun past s later s' => decide (s.machine.kernel.isStarted 0 = false ∧
      (Call.bootstrap 0 (s.machine.on 0)).ending?.map Prod.snd =
        some (.error .invalidOperation) ∧
      (∀ seg ∈ later ++ past, seg.bootstrapped = none) ∧ s'.machine.kernel.isStarted 0 = true ∧
      (s'.machine.kernel.queues 0).running = none ∧ s'.machine.chip.timer = none))
    (by decide +kernel)
  obtain ⟨hbefore, hfailed, hnone, hafter, hslot, htimer⟩ := of_decide_eq_true htest
  exact ⟨m, past, s, later, s', hm, hfirst, hbefore, hsecond, hfailed, hnone, hafter, hslot,
    htimer⟩

end Nucleus
