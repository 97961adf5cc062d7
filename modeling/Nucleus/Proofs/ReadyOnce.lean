import Nucleus.Proofs.Anatomy
import Nucleus.Proofs.Frame
import Nucleus.Proofs.Placement

/-!
# Once in the rotation

A thread that stands twice in a rotation runs twice as often, and a kill takes it out only once. As
long as operations put aside only threads of the rotation, every thread is placed, and no rotation
holds a thread twice.

But an operation puts aside whoever is named by the running slot, and the slot goes on naming a
thread that sleeps already, or was killed, until the deferred reschedule is run. A second delay in
the meantime queues a sleeper twice, or a killed thread once; and from there on nothing but wakes
and a start are needed to have it in the rotation twice.

* `System.exists_ready_twice`: who stands with a core twice is brought into its rotation twice.
* `ready_once_iff_parks_ready` is the exact condition.
* `delayed_twice_is_ready_twice` is a run in which a thread comes to stand in the rotation twice.
-/

namespace Nucleus

variable {G : Guest}

/-- No rotation holds a thread twice. -/
def Kernel.ReadyOnce (k : Kernel G) : Prop := ∀ c, (k.queues c).ready.Nodup

/-- Whoever the segment puts aside stands in the rotation of the core. -/
def Segment.ParksReady (seg : Segment G) : Prop :=
  ∀ c ∈ seg.parked, ∀ t ∈ (seg.before.queues c).running, t ∈ (seg.before.queues c).ready

instance (seg : Segment G) : Decidable seg.ParksReady :=
  inferInstanceAs (Decidable (∀ c ∈ seg.parked, ∀ t ∈ (seg.before.queues c).running,
    t ∈ (seg.before.queues c).ready))

theorem Segment.parksReady_of_parked {seg : Segment G} (h : seg.parked = none) :
    seg.ParksReady := by
  intro c hc
  rw [h] at hc
  cases hc

/-- From here on no rotation holds a thread twice, if only threads of the rotation are put aside. -/
def System.StaysReadyOnce (s : System G) : Prop :=
  ∀ later s', Runs s later s' → (∀ seg ∈ later, seg.ParksReady) → s'.machine.kernel.ReadyOnce

/-! ## Threads that are placed -/

/-- Where every thread is placed, no rotation holds a thread twice. -/
theorem Kernel.readyOnce_of_placed {k : Kernel G} (h : ∀ t, k.Placed t) : k.ReadyOnce := by
  intro c
  rw [List.nodup_iff_count]
  exact fun t => (h t).count_le_one c .ready

/-- **One segment.** If it puts aside a thread of the rotation only, every thread stays placed. -/
theorem Segment.Sound.placed_of_parksReady {seg : Segment G} (hseg : seg.Sound)
    (hp : seg.ParksReady) (h : ∀ t, seg.before.Placed t) (t : ThreadId) : seg.after.Placed t := by
  refine (hseg.carries (h t) ?_).placed
  rintro ⟨c, hc, hr⟩
  have hmem : t ∈ (seg.before.queues c).threads .ready := hp c hc t hr
  exact ThreadState.queue?_eq_ready_iff.mp ((h t).of_mem hmem).2

/-- **A whole run.** -/
theorem System.Runs.placed_of_parksReady {m : Machine G} {s : System G}
    {history : List (Segment G)} (booted : m.Booted) (run : Runs ⟨m, []⟩ history s)
    (hp : ∀ seg ∈ history, seg.ParksReady) (t : ThreadId) : s.machine.kernel.Placed t :=
  (run.keeps (I := fun k => ∀ t, k.Placed t) forall_tasks_start hp
    (fun _ hp hseg h => hseg.placed_of_parksReady hp h) booted.fresh.placed).1 t

/-! ## Threads that stand with a core twice -/

namespace Kernel

variable {k : Kernel G} {c : CoreId} {t : ThreadId}

/-- How often a thread sleeps or stands parked on a core. -/
def parkedCount (k : Kernel G) (c : CoreId) (t : ThreadId) : Nat :=
  k.count c .delayed t + k.count c .suspended t

theorem isParked_of_parkedCount (h : 0 < k.parkedCount c t) : (k.queues c).isParked t = true := by
  refine RunQueues.isParked_iff.mpr ?_
  rcases Nat.eq_zero_or_pos (k.count c .delayed t) with hd | hd
  · refine .inr (k.count_pos_iff.mp ?_)
    simp only [parkedCount] at h
    omega
  · exact .inl (k.count_pos_iff.mp hd)

/-- Who is woken is parked once less, and stands in the rotation once more. -/
theorem counts_wake (h : (k.queues c).isParked t = true) :
    (k.wake c t).count c .ready t = k.count c .ready t + 1 ∧
      (k.wake c t).parkedCount c t + 1 = k.parkedCount c t := by
  have hc : k.manages c = true := manages_of_isParked h
  have hpos : 0 < k.count c ((k.queues c).parkedIn t) t :=
    k.count_pos_iff.mpr (RunQueues.mem_parkedIn h)
  have hready := (k.queues c).parkedIn_ne_ready t
  simp only [parkedCount, count_wake k hc]
  cases hq : (k.queues c).parkedIn t with
  | ready => exact absurd hq hready
  | delayed =>
    rw [hq] at hpos
    simp
    omega
  | suspended =>
    rw [hq] at hpos
    simp
    omega

end Kernel

namespace System

variable {s : System G} {c : CoreId} {t : ThreadId}

/-- **Who stands with a core twice is brought into its rotation twice**, by nothing but wakes. -/
theorem exists_ready_twice (hs : s.Unlocked) (hc : s.machine.kernel.manages c = true)
    (h : 2 ≤ s.machine.kernel.count c .ready t + s.machine.kernel.parkedCount c t) :
    ∃ later s', Runs s later s' ∧ (∀ seg ∈ later, seg.parked = none) ∧
      2 ≤ s'.machine.kernel.count c .ready t := by
  induction hn : s.machine.kernel.parkedCount c t generalizing s with
  | zero => exact ⟨[], s, .start, fun _ h => (List.not_mem_nil h).elim, by omega⟩
  | succ n ih =>
    have hparked : (s.machine.kernel.queues c).isParked t = true :=
      Kernel.isParked_of_parkedCount (by omega)
    obtain ⟨hready, hless⟩ := Kernel.counts_wake hparked
    obtain ⟨s₁, step⟩ := hs.exists_step (.undelay c t) hc hc rfl
      (Op.not_mayStop nofun nofun nofun nofun nofun)
    have hk : s₁.machine.kernel = s.machine.kernel.wake c t := by
      refine step.kernels.2.symm.trans ?_
      simp only [Effect.undelay]
      rw [if_pos hparked]
    have hc₁ : s₁.machine.kernel.manages c = true := by
      rw [hk]
      exact (s.machine.kernel.manages_apply (.wake c t) c).trans hc
    have hstanding :
        2 ≤ s₁.machine.kernel.count c .ready t + s₁.machine.kernel.parkedCount c t := by
      rw [hk]
      omega
    have hn₁ : s₁.machine.kernel.parkedCount c t = n := by
      rw [hk]
      omega
    obtain ⟨later, s', run, hlater, htwice⟩ := ih (step.unlocked hs) hc₁ hstanding hn₁
    refine ⟨later ++ [_], s', (Runs.step .start step).trans run, ?_, htwice⟩
    rw [List.forall_mem_append, List.forall_mem_singleton]
    exact ⟨hlater, rfl⟩

/-- A killed thread that was put aside is brought into the rotation twice: it is no longer
terminated and nobody owns it, so it can be started while it sleeps. -/
theorem exists_ready_twice_of_unowned (hs : s.Unlocked) (hc : s.machine.kernel.manages c = true)
    (hstate : s.machine.kernel.stateOf t ≠ .terminated)
    (howner : s.machine.kernel.ownerOf t = none) (h : 0 < s.machine.kernel.parkedCount c t) :
    ∃ later s', Runs s later s' ∧ (∀ seg ∈ later, seg.parked = none) ∧
      2 ≤ s'.machine.kernel.count c .ready t := by
  obtain ⟨s₁, step⟩ := hs.exists_step (.startThread c t) hc hc rfl
    (Op.not_mayStop nofun nofun nofun nofun nofun)
  have hk : s₁.machine.kernel = (s.machine.kernel.setOwner t (some c)).makeReady c t := by
    refine step.kernels.2.symm.trans ?_
    simp only [Effect.startThread]
    rw [if_neg hstate, howner]
    rfl
  have hcount (i : Queue) : s₁.machine.kernel.count c i t =
      s.machine.kernel.count c i t + if i = .ready then 1 else 0 := by
    rw [hk, Kernel.count_makeReady (s.machine.kernel.setOwner t (some c)) hc]
    simp only [true_and, and_true]
    rfl
  have hc₁ : s₁.machine.kernel.manages c = true := by
    rw [hk]
    exact (s.machine.kernel.manages_apply (.start c t) c).trans hc
  obtain ⟨later, s', run, hlater, htwice⟩ := exists_ready_twice (t := t) (step.unlocked hs) hc₁
    (by
      simp only [Kernel.parkedCount] at h ⊢
      rw [hcount, hcount, hcount]
      simp
      omega)
  refine ⟨later ++ [_], s', (Runs.step .start step).trans run, ?_, htwice⟩
  rw [List.forall_mem_append, List.forall_mem_singleton]
  exact ⟨hlater, rfl⟩

/-- **Who is put aside without standing in the rotation is brought into it twice.** A sleeper is
queued a second time, and a killed thread is queued. -/
theorem exists_ready_twice_of_parks {s' : System G} {seg : Segment G} (step : Step s seg s')
    (hseg : seg.Sound) (hs' : s'.Unlocked) (hp : seg.before.Placed t)
    (hparked : seg.parked = some c) (hr : (seg.before.queues c).running = some t)
    (hnot : t ∉ (seg.before.queues c).ready) :
    ∃ later s'', Runs s' later s'' ∧ (∀ seg ∈ later, seg.parked = none) ∧
      2 ≤ s''.machine.kernel.count c .ready t := by
  have hleads := hseg.leads
  rw [hparked] at hleads
  obtain ⟨wake, -, hthreads, hqueues⟩ := hleads
  rw [step.kernels.2] at hthreads hqueues
  have hmoves : seg.before.Moves (seg.before.setAside c wake) t (seg.before.ownerOf t)
    (.wait (Kernel.waitKind wake)) := Kernel.moves_setAside hr
  have hc' : s'.machine.kernel.manages c = true := by
    refine Kernel.manages_of_running (t := t) ?_
    rw [hqueues, hmoves.running, hr]
  -- the thread is parked once more than before
  have hcount : s'.machine.kernel.parkedCount c t = seg.before.parkedCount c t + 1 := by
    simp only [Kernel.parkedCount, Kernel.count]
    rw [hqueues]
    change (seg.before.setAside c wake).count c .delayed t +
      (seg.before.setAside c wake).count c .suspended t = _
    rw [Kernel.count_setAside hr, Kernel.count_setAside hr]
    cases wake <;> simp [Kernel.waitKind, ThreadState.queue?, Kernel.count] <;> omega
  rcases hp.slot c hr with howner | ⟨hended, ht⟩
  · -- a thread that the core owns stood among the sleepers or the parked already
    have hready : seg.before.count c .ready t = 0 := List.count_eq_zero.mpr hnot
    have hsum := hp.sum_count c
    rw [if_pos howner] at hsum
    refine exists_ready_twice hs' hc' ?_
    simp only [Kernel.parkedCount] at hcount ⊢
    omega
  · refine exists_ready_twice_of_unowned hs' hc' ?_ ?_ (by omega)
    · have hstate : s'.machine.kernel.stateOf t = (seg.before.setAside c wake).stateOf t := by
        simp only [Kernel.stateOf]
        rw [hthreads]
      rw [hstate, hmoves.state ht]
      rintro ⟨⟩
    · have howner : s'.machine.kernel.ownerOf t = (seg.before.setAside c wake).ownerOf t := by
        simp only [Kernel.ownerOf]
        rw [hthreads]
      rw [howner, hmoves.owner ht]
      exact (hp.buried hended).owner

end System

/-- **When a thread stands in the rotation once.** Take a run from a boot that leaves no lock held.
At every point of it, and at every point that can be reached from there by operations that put aside
threads of the rotation only, no rotation holds a thread twice; this is so if and only if every
operation of the run puts aside threads of the rotation only. -/
theorem ready_once_iff_parks_ready {m : Machine G} {s : System G} {history : List (Segment G)}
    (booted : m.Booted) (free : m.chip.held = []) (run : System.Runs ⟨m, []⟩ history s) :
    (∀ past rest s₁, history = rest ++ past → System.Runs ⟨m, []⟩ past s₁ → s₁.StaysReadyOnce) ↔
      ∀ seg ∈ history, seg.ParksReady := by
  constructor
  · intro hstays
    induction run with
    | start => exact fun _ h => (List.not_mem_nil h).elim
    | @step history s s' seg run next ih =>
      have hpast : ∀ seg ∈ history, seg.ParksReady :=
        ih fun past rest s₁ hsplit => hstays past (seg :: rest) s₁ (by rw [hsplit]; rfl)
      refine List.forall_mem_cons.mpr ⟨fun c hparked t hr => ?_, hpast⟩
      -- suppose that a thread outside of the rotation is put aside: it gets into it twice
      refine Classical.byContradiction fun hnot => ?_
      have hsound := run.sound System.forall_tasks_start
      have hs' : s'.Unlocked := next.unlocked (run.unlocked (System.unlocked_start free))
      have hp : seg.before.Placed t := by
        rw [next.kernels.1]
        exact run.placed_of_parksReady booted hpast t
      obtain ⟨later, s'', hlater, hquiet, htwice⟩ := System.exists_ready_twice_of_parks next
        (next.sound hsound.2).1 hs' hp hparked hr hnot
      have honce := hstays (seg :: history) [] s' rfl (.step run next) later s'' hlater
        fun g hg => Segment.parksReady_of_parked (hquiet g hg)
      have hle := List.nodup_iff_count.mp (honce c) t
      simp only [Kernel.count, RunQueues.threads] at htwice
      omega
  · intro hparks past rest s₁ hsplit hpast later s' hlater hgood
    refine Kernel.readyOnce_of_placed ((hpast.trans hlater).placed_of_parksReady booted ?_)
    intro seg hseg
    rcases List.mem_append.mp hseg with hseg | hseg
    · exact hgood seg hseg
    · refine hparks seg ?_
      rw [hsplit]
      exact List.mem_append_right _ hseg

/-- The thread sleeps, the reschedule is delivered, a tick wakes it, and it comes to run and sleeps
again: it is put aside from the rotation both times, and whatever may follow of this sort leaves it
in the rotation once. -/
theorem sleeping_again_stays_ready_once : ∃ m past s later s',
    Machine.boot? {} {} = some m ∧ System.play ⟨m, []⟩ oneRunning = some (past, s) ∧
    s.play [(0, .delay 0 (.ofMillis 10)), (0, .dispatch 5 0 .coreNotification 7), (0, .onTick 0 8),
      (0, .delay 0 (.ofMillis 10))] = some (later, s') ∧
    s'.StaysReadyOnce := by
  obtain ⟨m, past, s, later, s', hm, hfirst, hsecond, htest⟩ := System.exists_play {} {} oneRunning
    [(0, .delay 0 (.ofMillis 10)), (0, .dispatch 5 0 .coreNotification 7), (0, .onTick 0 8),
      (0, .delay 0 (.ofMillis 10))]
    (fun past _ later _ => (later ++ past).all fun seg => decide seg.ParksReady) (by decide +kernel)
  simp only [List.all_eq_true, decide_eq_true_eq] at htest
  have hrun := (System.runs_of_play hfirst).trans (System.runs_of_play hsecond)
  have hstays := (ready_once_iff_parks_ready (Machine.booted_of_boot? hm)
    (Machine.held_of_boot? hm) hrun).mpr htest (later ++ past) [] s' rfl hrun
  exact ⟨m, past, s, later, s', hm, hfirst, hsecond, hstays⟩

/-- **A thread that is delayed twice.** The second delay comes before the reschedule of the first
is delivered, and puts the sleeping thread aside once more; the tick wakes both entries. -/
theorem delayed_twice_is_ready_twice : ∃ m past s later s',
    Machine.boot? {} {} = some m ∧ System.play ⟨m, []⟩ oneRunning = some (past, s) ∧
    s.play [(0, .delay 0 (.ofMillis 10)), (0, .delay 0 (.ofMillis 10)), (0, .onTick 0 7)] =
      some (later, s') ∧
    (s'.machine.kernel.queues 0).ready = [0, 1, 1] ∧ ¬ s'.machine.kernel.ReadyOnce := by
  obtain ⟨m, past, s, later, s', hm, hfirst, hsecond, htest⟩ := System.exists_play {} {} oneRunning
    [(0, .delay 0 (.ofMillis 10)), (0, .delay 0 (.ofMillis 10)), (0, .onTick 0 7)]
    (fun _ _ _ s' => decide ((s'.machine.kernel.queues 0).ready = [0, 1, 1])) (by decide +kernel)
  have hready := of_decide_eq_true htest
  refine ⟨m, past, s, later, s', hm, hfirst, hsecond, hready, fun honce => ?_⟩
  have hnodup := honce 0
  rw [hready] at hnodup
  revert hnodup
  decide

end Nucleus
