import Nucleus.Proofs.Placement
import Nucleus.Proofs.Script

/-!
# The end of a thread

A thread that is killed is buried: terminated, unowned, and in no queue. It stays so, and no core
switches to it, for as long as nobody puts it aside. But the running slot of a core goes on naming
a killed thread until the core switches, and a delay or a wait on that core in the meantime puts
the killed thread aside: it waits, and sooner or later it runs again.

* `terminated_final_iff_not_parked` is the exact condition: a thread that has ended stays ended
  along a run if and only if no operation of the run puts it aside.
* `killed_thread_sleeps` is a run in which that happens.
-/

namespace Nucleus

variable {G : Guest}

/-- The segment leaves the thread buried, and no core has switched to it. -/
structure Segment.LeavesBuried (seg : Segment G) (t : ThreadId) : Prop where
  /-- the thread is buried -/
  buried : seg.after.Buried t
  /-- where it is switched in, it was so before -/
  slot : ∀ c, (seg.after.queues c).running = some t → (seg.before.queues c).running = some t

/-- **One segment.** A buried thread stays buried unless it is put aside. -/
theorem Segment.Sound.leavesBuried_iff {seg : Segment G} {t : ThreadId} (hseg : seg.Sound)
    (h : seg.before.Buried t) (ht : t < seg.before.threads.length) :
    seg.LeavesBuried t ↔ ¬ seg.Parks t := by
  constructor
  · intro hleaves hparks
    have hwaits := hseg.waits_of_parks ht hparks
    rw [hleaves.buried.state] at hwaits
    cases hwaits
  · intro hparks
    have hk := hseg.carries (h.placed ht) fun hp => absurd hp hparks
    obtain ⟨hstate, hslot⟩ := hk.ended h.state ht
    exact ⟨hk.placed.buried hstate, hslot⟩

namespace System

variable {s s' : System G} {later : List (Segment G)} {t : ThreadId}

/-- **A whole run.** A buried thread stays buried through a run in which it is never put aside, and
only then. -/
theorem Runs.leavesBuried_iff (run : Runs s later s') (hs : ∀ task ∈ s.tasks, task.Sound)
    (h : s.machine.kernel.Buried t) (ht : t < s.machine.kernel.threads.length) :
    (∀ seg ∈ later, seg.LeavesBuried t) ↔ ∀ seg ∈ later, ¬ seg.Parks t := by
  have hsound := (run.sound hs).1
  -- a buried thread stays a thread: the segment does not put it aside, so it is carried along
  have hstep (seg : Segment G) (hseg : seg.Sound) (hparks : ¬ seg.Parks t)
      (hI : seg.before.Buried t ∧ t < seg.before.threads.length) :
      seg.after.Buried t ∧ t < seg.after.threads.length := by
    have hk := hseg.carries (hI.1.placed hI.2) fun hp => absurd hp hparks
    exact ⟨((hseg.leavesBuried_iff hI.1 hI.2).mpr hparks).buried,
      Nat.lt_of_lt_of_le hI.2 hk.threads⟩
  constructor
  · intro hleaves seg hmem
    have hI := (run.keeps (I := fun k => k.Buried t ∧ t < k.threads.length) hs hleaves
      (fun seg hl hseg hI => hstep seg hseg ((hseg.leavesBuried_iff hI.1 hI.2).mp hl) hI)
      ⟨h, ht⟩).2 seg hmem
    exact ((hsound seg hmem).leavesBuried_iff hI.1.1 hI.1.2).mp (hleaves seg hmem)
  · intro hparks seg hmem
    have hI := (run.keeps (I := fun k => k.Buried t ∧ t < k.threads.length) hs hparks
      (fun seg hp hseg hI => hstep seg hseg hp hI) ⟨h, ht⟩).2 seg hmem
    exact ((hsound seg hmem).leavesBuried_iff hI.1.1 hI.1.2).mpr (hparks seg hmem)

end System

/-- **When the end of a thread is final.** At any point of a run from a boot let a thread be
terminated. It is then buried, if it was put aside only while it was runnable. And it is buried
and stays so through all that follows, with no core switching to it, if and only if it is buried
and no later operation puts it aside. -/
theorem terminated_final_iff_not_parked {m : Machine G} {s s' : System G}
    {past later : List (Segment G)} {t : ThreadId} (booted : m.Booted)
    (reached : System.Runs ⟨m, []⟩ past s) (ht : t < s.machine.kernel.threads.length)
    (ended : s.machine.kernel.stateOf t = .terminated) (run : System.Runs s later s') :
    ((∀ seg ∈ past, seg.Parks t → (seg.before.stateOf t).IsRunnable) →
      s.machine.kernel.Buried t) ∧
    (s.machine.kernel.Buried t ∧ (∀ seg ∈ later, seg.LeavesBuried t) ↔
      s.machine.kernel.Buried t ∧ ∀ seg ∈ later, ¬ seg.Parks t) := by
  refine ⟨fun hp => (reached.placed booted hp).buried ended, and_congr_right fun h => ?_⟩
  exact run.leavesBuried_iff (reached.sound fun _ h => (List.not_mem_nil h).elim).2 h ht

/-- Make a thread, start it, start scheduling, and kill the thread while it runs. -/
def killRunning : List (CoreId × Op ⟨Unit, Unit⟩) :=
  [(0, .createThread () "worker"), (0, .startThread 0 1), (0, .bootstrap 0), (0, .killThread 0 1)]

/-- The killed thread is buried, and stays so when the reschedule is delivered and a tick comes. -/
theorem killed_thread_stays_buried : ∃ m past s later s',
    Machine.boot? {} {} = some m ∧ System.play ⟨m, []⟩ killRunning = some (past, s) ∧
    s.play [(0, .dispatch 5 0 .coreNotification 7), (0, .onTick 0 8)] = some (later, s') ∧
    s.machine.kernel.stateOf 1 = .terminated ∧ s.machine.kernel.Buried 1 ∧
    ∀ seg ∈ later, seg.LeavesBuried 1 := by
  obtain ⟨m, past, s, later, s', hm, hfirst, hsecond, htest⟩ := System.exists_play {} {} killRunning
    [(0, .dispatch 5 0 .coreNotification 7), (0, .onTick 0 8)]
    (fun past s later _ => decide (s.machine.kernel.stateOf 1 = .terminated) &&
      decide (1 < s.machine.kernel.threads.length) && (past ++ later).all (·.parked.isNone))
    (by decide +kernel)
  simp only [Bool.and_eq_true, decide_eq_true_eq, List.all_append, List.all_eq_true] at htest
  obtain ⟨⟨hended, hlt⟩, hpast, hlater⟩ := htest
  have hnot (seg : Segment ⟨Unit, Unit⟩) (hseg : seg.parked.isNone = true) : ¬ seg.Parks 1 := by
    rintro ⟨c, hc, -⟩
    rw [hc] at hseg
    cases hseg
  obtain ⟨hburied, hfinal⟩ := terminated_final_iff_not_parked (Machine.booted_of_boot? hm)
    (System.runs_of_play hfirst) hlt hended (System.runs_of_play hsecond)
  have hb := hburied fun seg hseg hp => absurd hp (hnot seg (hpast seg hseg))
  exact ⟨m, past, s, later, s', hm, hfirst, hsecond, hended, hb,
    (hfinal.mpr ⟨hb, fun seg hseg => hnot seg (hlater seg hseg)⟩).2⟩

/-- **A killed thread that sleeps.** A delay on the core between the kill and the reschedule puts
the killed thread aside: it is no longer terminated, and it stands among the sleepers. -/
theorem killed_thread_sleeps : ∃ m past s later s',
    Machine.boot? {} {} = some m ∧ System.play ⟨m, []⟩ killRunning = some (past, s) ∧
    s.play [(0, .delay 0 (.ofMillis 10))] = some (later, s') ∧
    s.machine.kernel.stateOf 1 = .terminated ∧ s'.machine.kernel.stateOf 1 = .wait .timed ∧
    1 ∈ (s'.machine.kernel.queues 0).threads .delayed := by
  obtain ⟨m, past, s, later, s', hm, hfirst, hsecond, htest⟩ := System.exists_play {} {} killRunning
    [(0, .delay 0 (.ofMillis 10))]
    (fun _ s _ s' => decide (s.machine.kernel.stateOf 1 = .terminated) &&
      (decide (s'.machine.kernel.stateOf 1 = .wait .timed) &&
        ((s'.machine.kernel.queues 0).threads .delayed).contains 1)) (by decide +kernel)
  simp only [Bool.and_eq_true, decide_eq_true_eq, List.contains_iff_mem] at htest
  exact ⟨m, past, s, later, s', hm, hfirst, hsecond, htest⟩

end Nucleus
