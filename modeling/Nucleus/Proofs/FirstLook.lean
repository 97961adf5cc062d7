import Mathlib.Data.List.Forall2
import Nucleus.Proofs.Agreement
import Nucleus.Proofs.Anatomy
import Nucleus.Proofs.Latch
import Nucleus.Proofs.Returns

/-!
# The look without the lock

A wait looks at the latch before it takes the lock. If it finds no signal, it must not matter that
it has looked: whatever others do before the lock is taken, the wait ends as if it had been called
only then.

The wait that stands at its window has masked interrupts, and this is all that others could see of
it. `Machine.Alike` is equality of machines up to the interrupt flag and the journal, and no
operation can tell such machines apart.

* `Call.Built.alike`: a built call does the same from machines that are alike.
* `System.Runs.alike`: so does a run.
* `no_wakeup_lost_at_first_look` puts this together with the outcome of a wait.
-/

namespace Nucleus

variable {G : Guest} {α β : Type}

/-! ## Machines that are alike -/

/-- The machine, with the interrupt flag set and the journal empty. -/
def Machine.veil (m : Machine G) : Machine G :=
  { m with chip := { m.chip with interrupts := true, journal := [] } }

/-- Equal up to the interrupt flag and the journal. -/
def Machine.Alike (m m' : Machine G) : Prop := m.veil = m'.veil

namespace Machine.Alike

variable {m m' : Machine G}

/-- What is read through the veil is the same. -/
theorem congr (h : m.Alike m') {f : Machine G → α} (hf : ∀ m, f m = f m.veil) : f m = f m' := by
  rw [hf m, hf m', h]

/-- What does not lift the veil keeps machines alike. -/
theorem map (h : m.Alike m') {f : Machine G → Machine G} (hf : ∀ m, (f m).veil = (f m.veil).veil) :
    (f m).Alike (f m') := by
  simp only [Machine.Alike]
  rw [hf m, hf m', h]

theorem kernel (h : m.Alike m') : m.kernel = m'.kernel := h.congr (f := (·.kernel)) fun _ => rfl

theorem held (h : m.Alike m') : m.chip.held = m'.chip.held :=
  h.congr (f := (·.chip.held)) fun _ => rfl

theorem symm (h : m.Alike m') : m'.Alike m := Eq.symm h

theorem on (h : m.Alike m') (core : CoreId) : (m.on core).Alike (m'.on core) :=
  h.map (f := (·.on core)) fun _ => rfl

end Machine.Alike

/-- The calls do the same, step by step, on machines that are alike. -/
inductive Run.Alike : Run G α → Run G α → Prop where
  /-- both have returned the same -/
  | done {m m' : Machine G} (hm : m.Alike m') (a : α) : Alike (done m a) (done m' a)
  /-- both have stopped -/
  | halt (m m' : Machine G) (why : Halt) : Alike (halt m why) (halt m' why)
  /-- both stand at a window -/
  | window {m m' : Machine G} {w : Window} {resume resume' : Machine G → Run G α} (hm : m.Alike m')
    (next : ∀ n n' : Machine G, n.Alike n' → Alike (resume n) (resume' n')) :
    Alike (window m w resume) (window m' w resume')
  /-- both run a routine -/
  | interrupt {m m' : Machine G} {home : CoreId} {code : G.Routine} {c : Context}
    {resume resume' : Machine G → Context → Run G α} (hm : m.Alike m')
    (next : ∀ (n n' : Machine G) (c : Context), n.Alike n' → Alike (resume n c) (resume' n' c)) :
    Alike (interrupt m home code c resume) (interrupt m' home code c resume')
  /-- both run a thread body -/
  | enter {m m' : Machine G} {code : G.Entry} {a : UInt64}
    {resume resume' : Machine G → Outcome Unit → Run G α} (hm : m.Alike m')
    (next : ∀ (n n' : Machine G) (o : Outcome Unit), n.Alike n' →
      Alike (resume n o) (resume' n' o)) :
    Alike (enter m code a resume) (enter m' code a resume')

/-- What is left of two calls that do the same: the same answer, or calls that do the same. -/
inductive Run.LeftAlike : α ⊕ Call G α → α ⊕ Call G α → Prop where
  /-- the same answer -/
  | answer (a : α) : LeftAlike (.inl a) (.inl a)
  /-- calls that do the same -/
  | rest {x y : Call G α} (next : ∀ m m' : Machine G, m.Alike m' → (x m).Alike (y m')) :
    LeftAlike (.inr x) (.inr y)

namespace Run

theorem LeftAlike.getLeft? {r r' : α ⊕ Call G α} (h : LeftAlike r r') :
    r.getLeft? = r'.getLeft? := by
  cases h <;> rfl

theorem Alike.bind {x y : Run G α} {f g : α → Machine G → Run G β} (h : x.Alike y)
    (hf : ∀ a m m', m.Alike m' → (f a m).Alike (g a m')) : (x.bind f).Alike (y.bind g) := by
  induction h with
  | done hm a => exact hf a _ _ hm
  | halt m m' why => exact .halt m m' why
  | window hm next ih => exact .window hm ih
  | interrupt hm next ih => exact .interrupt hm ih
  | enter hm next ih => exact .enter hm ih

/-- Where the next segment of one call can end, the next segment of the other can. -/
theorem Alike.rests {p : Bool} {x y : Run G α} {n : Machine G} {r : α ⊕ Call G α} (h : x.Alike y)
    (hx : x.Rests p n r) : ∃ n' r', y.Rests p n' r' ∧ n.Alike n' ∧ LeftAlike r r' := by
  induction h with
  | done hm a =>
    obtain ⟨rfl, rfl⟩ := rests_done.mp hx
    exact ⟨_, _, .done _ a, hm, .answer a⟩
  | halt m m' why => exact (rests_halt.mp hx).elim
  | window hm next ih =>
    cases p with
    | false =>
      obtain ⟨n', r', hy, hn, hr⟩ := ih _ _ hm (rests_window.mp hx)
      exact ⟨n', r', .pass rfl hy, hn, hr⟩
    | true =>
      obtain ⟨rfl, rfl⟩ := rests_window_pausing.mp hx
      exact ⟨_, _, .pause rfl, hm, .rest next⟩
  | interrupt hm next ih =>
    obtain ⟨rfl, c, rfl⟩ := rests_interrupt.mp hx
    exact ⟨_, _, .interrupt c, hm, .rest fun m m' h => next m m' c h⟩
  | enter hm next ih =>
    obtain ⟨rfl, o, rfl⟩ := rests_enter.mp hx
    exact ⟨_, _, .enter o, hm, .rest fun m m' h => next m m' o h⟩

end Run

/-- A masked stretch saves the interrupt flag and puts it back, which makes no difference to anybody
who does not see it. -/
theorem Call.masked_alike {x : Call G α} (hx : ∀ m m' : Machine G, m.Alike m' → (x m).Alike (x m'))
    {m m' : Machine G} (h : m.Alike m') : (masked x m).Alike (masked x m') := by
  rw [masked_apply, masked_apply]
  refine .window ?_ fun n n' hn => (hx n n' hn).bind fun a k k' hk => .done ?_ a
  · exact h.map (f := fun m => { m with chip := m.chip.mask }) fun _ => rfl
  · exact hk

/-- Both get the lock, or both stop for want of it. -/
theorem Call.acquire_alike (l : Lock) {m m' : Machine G} (h : m.Alike m') :
    (acquire l m).Alike (acquire l m') := by
  by_cases hl : l ∈ m.chip.held
  · rw [acquire_apply_of_mem hl, acquire_apply_of_mem (h.held ▸ hl)]
    exact .halt m m' _
  · rw [acquire_apply_of_not_mem hl, acquire_apply_of_not_mem (h.held ▸ hl)]
    exact .done (h.map (f := fun m => { m with chip := m.chip.acquire l }) fun _ => rfl) ()

/-- Both give it back, with the same answer. -/
theorem Call.release_alike (l : Lock) (a : α) {m m' : Machine G} (h : m.Alike m') :
    (Run.done { m with chip := m.chip.release l } a).Alike
      (Run.done { m' with chip := m'.chip.release l } a) :=
  .done (h.map (f := fun m => { m with chip := m.chip.release l }) fun _ => rfl) a

/-- A lock makes no difference either. -/
theorem Call.holding_alike {x : Call G α} (l : Lock)
    (hx : ∀ m m' : Machine G, m.Alike m' → (x m).Alike (x m')) (m m' : Machine G)
    (h : m.Alike m') :
    Run.Alike ((do acquire l; let a ← x; command (·.release l); return a : Call G α) m)
      ((do acquire l; let a ← x; command (·.release l); return a : Call G α) m') :=
  (acquire_alike l h).bind fun _ n n' hn => (hx n n' hn).bind fun a _ _ => release_alike l a

/-- Nor does one that is given back late. -/
theorem Call.overheld_alike {x : Call G α} (l : Lock)
    (hx : ∀ m m' : Machine G, m.Alike m' → (x m).Alike (x m')) {m m' : Machine G}
    (h : m.Alike m') : (overheld l x m).Alike (overheld l x m') := by
  rw [overheld_apply, overheld_apply]
  refine (masked_alike (fun n n' hn => (acquire_alike l hn).bind fun _ => hx) h).bind
    fun a n n' hn => .window hn fun k k' hk => release_alike l a hk

/-- **No operation sees the interrupt flag or the journal.** -/
theorem Call.Built.alike {S : Halt → Prop} {D : Discipline} {n : Nat} {x : Call G α}
    (hx : x.Built S D n) {m m' : Machine G} (h : m.Alike m') : (x m).Alike (x m') := by
  induction hx generalizing m m' with
  | pure a => exact .done h a
  | bind _ _ ihx ihf => exact (ihx h).bind fun a m m' h => ihf a h
  | read f =>
    rw [read_apply, read_apply, h.kernel]
    exact .done h _
  | current =>
    have hc : m.chip.current = m'.chip.current := h.congr (f := (·.chip.current)) fun _ => rfl
    rw [look_apply, look_apply, hc]
    exact .done h _
  | nextContext =>
    have hc : m.chip.nextContext = m'.chip.nextContext :=
      h.congr (f := (·.chip.nextContext)) fun _ => rfl
    rw [look_apply, look_apply, hc]
    exact .done h _
  | change f => exact .done (h.map (f := fun m => { m with kernel := f m.kernel }) fun _ => rfl) ()
  | bringUp =>
    exact .done (h.map (f := fun m => { m with chip := m.chip.record .bringUp }) fun _ => rfl) ()
  | mint => exact .done (h.map (f := fun m => { m with chip := m.chip.mint }) fun _ => rfl) ()
  | notify => exact .done (h.map (f := fun m => { m with chip := m.chip.notify }) fun _ => rfl) ()
  | arm slice =>
    exact .done (h.map (f := fun m => { m with chip := m.chip.arm slice }) fun _ => rfl) ()
  | note notice =>
    exact .done (h.map (f := fun m => { m with log := notice :: m.log }) fun _ => rfl) ()
  | stop why => exact .halt m m' why
  | masked _ ih => exact masked_alike (fun _ _ => ih) h
  | locked l _ _ ih => exact masked_alike (holding_alike l fun _ _ => ih) h
  | overheld c _ _ _ ih => exact overheld_alike _ (fun _ _ => ih) h
  | pause w => exact .window h fun n n' hn => .done hn ()
  | interrupt home code context => exact .interrupt h fun n n' c hn => .done hn c
  | enter code argument => exact .enter h fun n n' o hn => .done hn o

/-! ## Systems that are alike -/

/-- Operations in progress that will do the same. -/
inductive Task.Alike : Task G → Task G → Prop where
  /-- the same operation on the same core -/
  | mk (core : CoreId) (op : Op G) {x y : Call G op.Result}
    (next : ∀ m m' : Machine G, m.Alike m' → (x m).Alike (y m')) :
    Alike ⟨core, op, x⟩ ⟨core, op, y⟩

namespace System

/-- Machines that are alike, with the same operations in progress. -/
structure Alike (s s' : System G) : Prop where
  /-- the machines are alike -/
  machine : s.machine.Alike s'.machine
  /-- what is in progress will do the same -/
  tasks : List.Forall₂ Task.Alike s.tasks s'.tasks

theorem alike_left (core : CoreId) (op : Op G) {r r' : op.Result ⊕ Call G op.Result}
    (h : Run.LeftAlike r r') :
    List.Forall₂ Task.Alike (Task.left core op r) (Task.left core op r') := by
  cases h with
  | answer a => exact .nil
  | rest next => exact .cons (.mk core op next) .nil

/-- Where a task stands among those of one system, its like stands among those of the other. -/
theorem exists_alike_task {newer older tasks : List (Task G)} {task : Task G}
    (h : List.Forall₂ Task.Alike (newer ++ task :: older) tasks) :
    ∃ newer' task' older', tasks = newer' ++ task' :: older' ∧
      List.Forall₂ Task.Alike newer newer' ∧ task.Alike task' ∧
        List.Forall₂ Task.Alike older older' := by
  induction newer generalizing tasks with
  | nil =>
    obtain ⟨task', older', htask, holder, rfl⟩ := List.forall₂_cons_left_iff.mp h
    exact ⟨[], task', older', rfl, .nil, htask, holder⟩
  | cons first newer ih =>
    obtain ⟨first', rest, hfirst, hrest, rfl⟩ := List.forall₂_cons_left_iff.mp h
    obtain ⟨newer', task', older', rfl, hnewer, htask, holder⟩ := ih hrest
    exact ⟨first' :: newer', task', older', rfl, .cons hfirst hnewer, htask, holder⟩

variable {s s' u : System G} {seg : Segment G} {history : List (Segment G)}

/-- A segment that one system carries out, the other carries out as well. -/
theorem Step.alike (h : Step s seg s') (hs : s.Alike u) : ∃ u', Step u seg u' ∧ s'.Alike u' := by
  have hk := hs.machine.kernel
  cases h with
  | @call core op pausing m r managed valid mayPause rests =>
    obtain ⟨m', r', rests', hm, hr⟩ := (op.built_loose.alike (hs.machine.on core)).rests rests
    have hstep := Step.call core op pausing (hk ▸ managed) (hk ▸ valid) mayPause rests'
    rw [hk, hm.kernel, hr.getLeft?]
    exact ⟨_, hstep, hm, List.rel_append (alike_left core op hr) hs.tasks⟩
  | @resume task older newer m r tasks rests =>
    obtain ⟨newer', task', older', tasks', hnewer, htask, holder⟩ :=
      exists_alike_task (tasks ▸ hs.tasks)
    cases htask with
    | @mk core op x y next =>
      obtain ⟨m', r', rests', hm, hr⟩ := (next _ _ (hs.machine.on core)).rests rests
      have hstep := Step.resume _ older' newer' tasks' rests'
      rw [hk, hm.kernel, hr.getLeft?]
      refine ⟨_, hstep, hm, List.rel_append (List.rel_append hnewer ?_) holder⟩
      exact alike_left core op hr

/-- **A run of one system is a run of the other.** -/
theorem Runs.alike (run : Runs s history s') (hs : s.Alike u) :
    ∃ u', Runs u history u' ∧ s'.Alike u' := by
  induction run with
  | start => exact ⟨u, .start, hs⟩
  | step _ next ih =>
    obtain ⟨u₁, run₁, h₁⟩ := ih
    obtain ⟨u', next', h'⟩ := next.alike h₁
    exact ⟨u', .step run₁ next', h'⟩

/-- A history tells which kernel state it ends with. -/
theorem Runs.kernel_eq {u' : System G} (h : Runs s history s') (h' : Runs u history u')
    (hk : s.machine.kernel = u.machine.kernel) : s'.machine.kernel = u'.machine.kernel := by
  cases h with
  | start =>
    cases h'
    exact hk
  | step _ next =>
    cases h' with
    | step _ next' => rw [← next.kernels.2, ← next'.kernels.2]

end System

/-- **No wakeup is lost at the first look.** A wait with a span that is not negative, called where
no lock is held, finds the latch of its event clear, and others come in before it takes the lock.
What they can do there, they could have done before the wait; and where they end up, the wait goes
on to the same answer and the same kernel state as one that is called only then. -/
theorem no_wakeup_lost_at_first_look {m : Machine G} {e : EventId} {span : TimeSpan}
    (managed : m.kernel.manages m.chip.current = true) (free : m.chip.held = [])
    (notNegative : ¬ span.isNegative) (clear : m.kernel.isRaised e = false) :
    ∃ n rest, Call.enqueueWait e span m = .window n .masked rest ∧
      ∀ others, ((∃ s, System.Runs ⟨n, []⟩ others s) ↔ ∃ s, System.Runs ⟨m, []⟩ others s) ∧
        ∀ s s', System.Runs ⟨n, []⟩ others s → System.Runs ⟨m, []⟩ others s' →
          ∃ k answer, (rest (s.machine.on m.chip.current)).outcome? = some (k, answer) ∧
            (Call.enqueueWait e span (s'.machine.on m.chip.current)).outcome? =
              some (k, answer) := by
  refine ⟨_, _, Call.enqueueWait_apply_of_clear managed notNegative clear, fun others => ?_⟩
  have halike : Machine.Alike { m with chip := m.chip.mask } m := rfl
  refine ⟨⟨fun ⟨s, run⟩ => ?_, fun ⟨s, run⟩ => ?_⟩, fun s s' run run' => ?_⟩
  · obtain ⟨u, hu, -⟩ := run.alike (u := ⟨m, []⟩) ⟨halike, .nil⟩
    exact ⟨u, hu⟩
  · obtain ⟨u, hu, -⟩ := run.alike (u := ⟨{ m with chip := m.chip.mask }, []⟩) ⟨halike.symm, .nil⟩
    exact ⟨u, hu⟩
  · have hk : s.machine.kernel = s'.machine.kernel := run.kernel_eq run' rfl
    have hfree : s.machine.chip.held = [] := (run.unlocked (System.unlocked_start free)).held
    have hfree' : s'.machine.chip.held = [] := (run'.unlocked (System.unlocked_start free)).held
    have hmanaged : s'.machine.kernel.manages m.chip.current = true :=
      (run'.keeps (I := fun k => k.manages m.chip.current = true) (P := fun _ => True)
        (fun _ h => (List.not_mem_nil h).elim) (fun _ _ => trivial)
        (fun _ _ hseg h => (hseg.manages _).trans h) managed).1
    have hrest : (Call.enqueueRest e m.chip.current span m.chip.interrupts
        (s.machine.on m.chip.current)).outcome? =
          some (Effect.enqueueLocked e m.chip.current span s.machine.kernel) :=
      Call.outcome?_enqueueRest e span m.chip.interrupts (m := s.machine.on m.chip.current) hfree
    have hwait : (Call.enqueueWait e span (s'.machine.on m.chip.current)).outcome? =
        some (Effect.enqueueWait m.chip.current e span s'.machine.kernel) :=
      Call.outcome?_enqueueWait e span (m := s'.machine.on m.chip.current) hmanaged hfree'
    rw [Effect.enqueueWait_of_not_negative _ _ _ notNegative, ← hk] at hwait
    exact ⟨_, _, hrest, hwait⟩

/-- A wait on one core finds the latch clear, and another core signals before it takes the lock: the
wait uses the signal, as it would if it were called after it. -/
theorem signal_between_look_and_lock_is_used : ∃ m past s later s',
    Machine.boot? { processors := 2 } {} = some m ∧
    System.play ⟨m, []⟩ twoCores = some (past, s) ∧
    s.play [(1, .signalEvent 0)] = some (later, s') ∧
    ∃ n rest, Call.enqueueWait 0 .infinite s.machine = .window n .masked rest ∧
      ∃ u, System.Runs ⟨n, []⟩ later u ∧
        ∃ k, (rest (u.machine.on 0)).outcome? = some (k, .ok none) := by
  obtain ⟨m, past, s, later, s', hm, hfirst, hsecond, htest⟩ := System.exists_play
    { processors := 2 } {} twoCores [(1, .signalEvent 0)]
    (fun _ s _ s' => s.tasks.isEmpty && (decide (s.machine.chip.current = 0) &&
      (s.machine.kernel.manages 0 && (s.machine.chip.held.isEmpty &&
        (decide (s.machine.kernel.isRaised 0 = false) &&
          decide ((Call.enqueueWait 0 .infinite (s'.machine.on 0)).outcome?.map (·.2) =
            some (.ok none))))))) (by decide +kernel)
  simp only [Bool.and_eq_true, decide_eq_true_eq, List.isEmpty_iff] at htest
  obtain ⟨htasks, hcurrent, hmanaged, hheld, hclear, hanswer⟩ := htest
  have hs : s = ⟨s.machine, []⟩ := by rw [← htasks]
  have hrun : System.Runs ⟨s.machine, []⟩ later s' := hs ▸ System.runs_of_play hsecond
  have hspan : ¬ TimeSpan.infinite.isNegative = true := by decide
  obtain ⟨n, rest, hwindow, hothers⟩ := no_wakeup_lost_at_first_look (m := s.machine)
    (hcurrent ▸ hmanaged) hheld hspan hclear
  -- the signal can be given at the window, since it can be given before the wait
  obtain ⟨u, hu⟩ := (hothers later).1.mpr ⟨s', hrun⟩
  obtain ⟨k, answer, hrest, hwait⟩ := (hothers later).2 u s' hu hrun
  rw [hcurrent] at hrest hwait
  rw [hwait] at hanswer
  obtain rfl : answer = .ok none := Option.some.inj hanswer
  exact ⟨m, past, s, later, s', hm, hfirst, hsecond, n, rest, hwindow, u, hu, k, hrest⟩

end Nucleus
