import Mathlib.Data.List.Rotate
import Nucleus.Proofs.Tick

/-!
# Round robin

The rotation of a core has no cursor: whoever comes next is looked up by the position of the thread
in the slot. As long as nobody is woken, started or put aside, ticks and yields go round it all the
same, whatever their mixture and their contexts.

* `Kernel.InTurn` says that the rotation of a core stands at an index, and `Kernel.Awaits` which
  index comes next.
* `Kernel.Rescheduled` is what ticks and yields have in common while nobody is due, and
  `Kernel.Rescheduled.inTurn` says that the rotation goes on by one.
* `rotation_is_fair` is about any number of reschedules.
-/

namespace Nucleus

variable {G : Guest}

/-- A reschedule of a core. -/
inductive Reschedule where
  /-- a tick that interrupts a context -/
  | tick (context : Context)
  /-- a yield in a context -/
  | yield (context : Context)

/-- The operation that it is. -/
def Reschedule.op (c : CoreId) : Reschedule → Op G
  | tick x => .onTick c x
  | yield x => .yieldThread c x

namespace Kernel

variable {k k' : Kernel G} {c : CoreId}

/-! ## Where the rotation stands -/

/-- The rotation of a core stands at an index: that thread is switched in and runs, and the others
are ready. -/
structure InTurn (k : Kernel G) (c : CoreId) (i : Nat) : Prop where
  /-- the thread at the index is switched in -/
  slot : ∃ t, (k.queues c).ready[i]? = some t ∧ (k.queues c).running = some t
  /-- it runs, and the others are ready -/
  states : ∀ t ∈ (k.queues c).ready,
    k.stateOf t = if (k.queues c).running = some t then .running else .ready

/-- Nobody of the rotation is switched in, and all of it is ready. -/
structure OutOfTurn (k : Kernel G) (c : CoreId) : Prop where
  /-- nobody of the rotation is switched in -/
  slot : ∀ t ∈ (k.queues c).ready, (k.queues c).running ≠ some t
  /-- all of it is ready -/
  states : ∀ t ∈ (k.queues c).ready, k.stateOf t = .ready

/-- The index of the rotation that comes next. -/
inductive Awaits (k : Kernel G) (c : CoreId) : Nat → Prop where
  /-- the one after the present one -/
  | after {i : Nat} (inTurn : k.InTurn c i) : Awaits k c (i + 1)
  /-- the first -/
  | first (outOfTurn : k.OutOfTurn c) : Awaits k c 0

/-- Threads of the rotation are ready or run, so they exist. -/
theorem Awaits.lt_length {start : Nat} {t : ThreadId} (h : k.Awaits c start)
    (ht : t ∈ (k.queues c).ready) : t < k.threads.length := by
  refine lt_length_of_stateOf ?_
  cases h with
  | after inTurn =>
    rw [inTurn.states t ht]
    split <;> nofun
  | first outOfTurn =>
    rw [outOfTurn.states t ht]
    nofun

theorem Awaits.getElem?_of_isNext {start : Nat} {next : ThreadId} (h : k.Awaits c start)
    (distinct : (k.queues c).ready.Nodup)
    (hnext : RunQueues.IsNext (k.queues c).ready (k.queues c).running next) :
    (k.queues c).ready[start % (k.queues c).ready.length]? = some next := by
  cases h with
  | @after i inTurn =>
    obtain ⟨t, hi, hr⟩ := inTurn.slot
    rcases hnext with ⟨u, -, hu, hnext⟩ | ⟨hnot, -⟩
    · obtain rfl := Option.some.inj (hr.symm.trans hu)
      obtain ⟨hlt, rfl⟩ := List.getElem?_eq_some_iff.mp hi
      rwa [distinct.idxOf_getElem i hlt] at hnext
    · exact absurd hr (hnot t (List.mem_of_getElem? hi))
  | first outOfTurn =>
    rcases hnext with ⟨u, hu, hr, -⟩ | ⟨-, hhead⟩
    · exact absurd hr (outOfTurn.slot u hu)
    · rwa [Nat.zero_mod, ← List.head?_eq_getElem?]

/-! ## One reschedule -/

/-- The rotation of a core, its sleepers and those who stand parked are as they were. -/
structure SameQueues (k : Kernel G) (c : CoreId) (k' : Kernel G) : Prop where
  /-- the rotation -/
  ready : (k'.queues c).ready = (k.queues c).ready
  /-- the sleepers -/
  delayed : (k'.queues c).delayed = (k.queues c).delayed
  /-- those who stand parked -/
  suspended : (k'.queues c).suspended = (k.queues c).suspended

/-- **A reschedule** of a core while nobody is due. -/
structure Rescheduled (k : Kernel G) (c : CoreId) (k' : Kernel G) : Prop
    extends k.SameQueues c k' where
  /-- at most one tick is counted -/
  ticks : (k'.queues c).ticks ≤ (k.queues c).ticks + 1
  /-- the next of the rotation is switched in -/
  next : ∃ next, RunQueues.IsNext (k.queues c).ready (k.queues c).running next ∧
    (k'.queues c).running = some next
  /-- it runs, and who ran is ready -/
  states : ∀ t < k.threads.length, k'.stateOf t =
    if (k'.queues c).running = some t then .running
    else if (k.queues c).running = some t ∧ k.stateOf t = .running then .ready
    else k.stateOf t

/-- **The rotation goes on by one.** -/
theorem Rescheduled.inTurn {start : Nat} (h : k.Rescheduled c k') (hk : k.Awaits c start)
    (distinct : (k.queues c).ready.Nodup) :
    k'.InTurn c (start % (k.queues c).ready.length) := by
  obtain ⟨next, hnext, hr⟩ := h.next
  refine ⟨⟨next, ?_, hr⟩, fun t ht => ?_⟩
  · rw [h.ready]
    exact hk.getElem?_of_isNext distinct hnext
  · rw [h.ready] at ht
    rw [h.states t (hk.lt_length ht)]
    split
    · rfl
    · -- who was in the slot and ran is ready now, and the others were ready before
      cases hk with
      | after inTurn =>
        rw [inTurn.states t ht]
        split <;> simp_all
      | first outOfTurn =>
        rw [if_neg fun h => outOfTurn.slot t ht h.1]
        exact outOfTurn.states t ht

theorem Turned.rescheduled {x y : Context} (h : k.Turned c x k' y) : k.Rescheduled c k' := by
  obtain ⟨next, hnext, hq, -⟩ := h.next
  refine ⟨⟨?_, ?_, ?_⟩, ?_, ⟨next, hnext, ?_⟩, fun t ht => ?_⟩
  · rw [hq]
  · rw [hq]
  · rw [hq]
  · rw [hq]
    exact Nat.le_succ _
  · rw [hq]
  · have hold : k.stateOf t = k.threads[t].state := by
      simp only [stateOf]
      rw [List.getElem?_eq_getElem ht]
    have hnew := h.threads t
    rw [List.getElem?_eq_getElem ht, Option.map_some] at hnew
    rw [hold]
    simp only [stateOf]
    rw [hnew]

/-- A tick at which nobody is due changes nothing of the queues but the count. -/
theorem queues_advance_of_nobody_due (hc : k.manages c = true)
    (h : ∀ s ∈ (k.queues c).delayed, (k.queues c).ticks + 1 < s.wake) :
    k.dueNext c = [] ∧
      (k.advance c).queues c = { k.queues c with ticks := (k.queues c).ticks + 1 } := by
  have hnot : ∀ s ∈ (k.queues c).delayed,
      ¬ decide (s.wake ≤ RunQueues.nextTick (k.queues c).ticks) = true := by
    intro s hs hdue
    exact absurd (of_decide_eq_true hdue) (Nat.not_le.mpr (h s hs))
  have hdue : k.dueNext c = [] := by
    simp only [dueNext, DelayedQueue.due]
    cases hq : (k.queues c).delayed with
    | nil => rfl
    | cons s q => exact List.takeWhile_cons_of_neg (hnot s (hq ▸ List.mem_cons_self))
  have hlater : (k.queues c).delayed.later ((k.queues c).ticks + 1) = (k.queues c).delayed := by
    have := List.takeWhile_append_dropWhile (l := (k.queues c).delayed)
      (p := fun s => decide (s.wake ≤ RunQueues.nextTick (k.queues c).ticks))
    simp only [dueNext, DelayedQueue.due] at hdue
    rwa [hdue, List.nil_append] at this
  refine ⟨hdue, ?_⟩
  rw [queues_advance hc, hdue, hlater]
  simp only [DelayedQueue.threads, List.map_nil, List.append_nil]

theorem Turned.rescheduled_of_advance {x y : Context} (hc : k.manages c = true)
    (hlater : ∀ s ∈ (k.queues c).delayed, (k.queues c).ticks + 1 < s.wake)
    (h : (k.advance c).Turned c x k' y) : k.Rescheduled c k' := by
  obtain ⟨hdue, hq⟩ := queues_advance_of_nobody_due hc hlater
  have hr := h.rescheduled
  obtain ⟨next, hnext, hq', -⟩ := h.next
  have hstate (t : ThreadId) : (k.advance c).stateOf t = k.stateOf t := by
    refine k.stateOf_advance_of_not_mem ?_
    rw [hdue]
    exact List.not_mem_nil
  refine ⟨⟨?_, ?_, ?_⟩, ?_, ?_, fun t ht => ?_⟩
  · rw [hr.ready, hq]
  · rw [hr.delayed, hq]
  · rw [hr.suspended, hq]
  · rw [hq', hq]
  · have := hr.next
    rwa [hq] at this
  · rw [hr.states t ((k.length_threads_advance c).symm ▸ ht), hstate, hq]

end Kernel

/-! ## Any number of reschedules -/

namespace Reschedule

variable {m : Machine G} {c : CoreId}

/-- **A reschedule returns**, and gives back the lock that it takes. -/
theorem exists_ending? (r : Reschedule) (free : m.chip.held = [])
    (occupied : (m.kernel.queues c).ready ≠ [])
    (counts : (m.kernel.queues c).ticks < 0xffffffffffffffff)
    (later : ∀ s ∈ (m.kernel.queues c).delayed, (m.kernel.queues c).ticks + 1 < s.wake) :
    ∃ m' a, ((r.op c).call m).ending? = some (m', a) ∧ m'.chip.held = [] ∧
      m.kernel.Rescheduled c m'.kernel := by
  obtain ⟨t, ht⟩ := List.exists_mem_of_ne_nil _ occupied
  have hc : m.kernel.manages c = true := Kernel.manages_of_mem_ready ht
  cases r with
  | tick x =>
    have hsucc := RunQueues.successor_ne_none (Kernel.ready_advance_ne_nil (c := c) occupied)
    have hcan : (m.kernel.queues c).canTick = true := decide_eq_true counts
    obtain ⟨m', y, hend⟩ := Call.returns_onTick x free hcan hsucc
    obtain ⟨-, hk, -⟩ := Call.does_onTick c x rfl (Run.rests_of_ending? hend)
    have heffect : Effect.onTick c x m.kernel = Effect.yieldThread c x (m.kernel.advance c) :=
      if_pos hcan
    refine ⟨m', y, hend, ?_, ?_⟩
    · have hbuilt : (Call.onTick c x : Call G Context).Built (fun _ => True) .nested 0 :=
        Call.built_onTick c x Nat.zero_lt_two trivial trivial
      exact hbuilt.held_of_ending? free hend
    · rw [hk, heffect]
      exact (Kernel.turned_of_successor x hsucc).rescheduled_of_advance hc later
  | yield x =>
    have hsucc := RunQueues.successor_ne_none occupied
    obtain ⟨m', y, hend⟩ := Call.returns_yieldThread x free hsucc
    obtain ⟨-, hk, -⟩ := Call.does_yieldThread c x rfl (Run.rests_of_ending? hend)
    refine ⟨m', y, hend, ?_, ?_⟩
    · have hbuilt : (Call.yieldThread c x : Call G Context).Built (fun _ => True) .nested 0 :=
        Call.built_yieldThread c x Nat.zero_lt_two trivial
      exact hbuilt.held_of_ending? free hend
    · rw [hk]
      exact (Kernel.turned_of_successor x hsucc).rescheduled

end Reschedule

/-- The threads that were switched in on a core, segment by segment. -/
def picks (c : CoreId) (history : List (Segment G)) : List (Option ThreadId) :=
  history.reverse.map fun seg => (seg.after.queues c).running

/-- After each segment of a history the rotation of a core stands one further, beginning with the
index `start`, and its queues are as they were in `k`. -/
structure Kernel.GoesRound (k : Kernel G) (c : CoreId) (start : Nat) (history : List (Segment G)) :
    Prop where
  /-- the rotation goes on by one -/
  inTurn : ∀ (j : Nat) (seg : Segment G), history.reverse[j]? = some seg →
    seg.after.InTurn c ((start + j) % (k.queues c).ready.length)
  /-- queues are left alone -/
  queues : ∀ seg ∈ history, k.SameQueues c seg.after

theorem Kernel.GoesRound.cons {k k' : Kernel G} {c : CoreId} {start : Nat}
    {history : List (Segment G)} {seg : Segment G}
    (h : k'.GoesRound c (start % (k.queues c).ready.length + 1) history)
    (hq : k.SameQueues c k') (hseg : seg.after = k')
    (hturn : k'.InTurn c (start % (k.queues c).ready.length)) :
    k.GoesRound c start (history ++ [seg]) := by
  refine ⟨fun j g hj => ?_, fun g hg => ?_⟩
  · rw [List.reverse_append, List.reverse_singleton, List.singleton_append] at hj
    cases j with
    | zero =>
      obtain rfl := Option.some.inj hj
      rw [hseg]
      exact hturn
    | succ j =>
      have hmod : (start % (k.queues c).ready.length + 1 + j) % (k.queues c).ready.length =
          (start + (j + 1)) % (k.queues c).ready.length := by
        rw [Nat.add_assoc, Nat.mod_add_mod, Nat.add_comm 1 j]
      have := h.inTurn j g hj
      rwa [hq.ready, hmod] at this
  · rcases List.mem_append.mp hg with hg | hg
    · have := h.queues g hg
      exact ⟨this.ready.trans hq.ready, this.delayed.trans hq.delayed,
        this.suspended.trans hq.suspended⟩
    · obtain rfl := List.mem_singleton.mp hg
      exact hseg ▸ hq

/-- A reschedule can be carried out. -/
theorem System.exists_perform_reschedule {s : System G} {c : CoreId} (r : Reschedule)
    (free : s.machine.chip.held = []) (occupied : (s.machine.kernel.queues c).ready ≠ [])
    (counts : (s.machine.kernel.queues c).ticks < 0xffffffffffffffff)
    (later : ∀ sleeper ∈ (s.machine.kernel.queues c).delayed,
      (s.machine.kernel.queues c).ticks + 1 < sleeper.wake) :
    ∃ seg s', s.perform c (r.op c) = some (seg, s') ∧ seg.after = s'.machine.kernel ∧
      s'.machine.chip.held = [] ∧ s.machine.kernel.Rescheduled c s'.machine.kernel := by
  obtain ⟨t, ht⟩ := List.exists_mem_of_ne_nil _ occupied
  have hc : s.machine.kernel.manages c = true := Kernel.manages_of_mem_ready ht
  have hvalid : (r.op c).Valid s.machine.kernel := by cases r <;> exact hc
  obtain ⟨m, a, hend, hfree, hr⟩ :=
    r.exists_ending? (m := s.machine.on c) (c := c) free occupied counts later
  refine ⟨⟨c, r.op c, true, s.machine.kernel, m.kernel, some a⟩, ⟨m, s.tasks⟩, ?_, rfl, hfree, hr⟩
  simp only [perform]
  rw [if_pos ⟨hc, hvalid⟩, hend]
  rfl

/-- **Reschedules one after the other** can be carried out, and go round. -/
theorem System.exists_play_reschedules {s : System G} {c : CoreId} {start : Nat}
    (turns : List Reschedule) (free : s.machine.chip.held = [])
    (distinct : (s.machine.kernel.queues c).ready.Nodup)
    (occupied : (s.machine.kernel.queues c).ready ≠ [])
    (counts : (s.machine.kernel.queues c).ticks + turns.length ≤ 0xffffffffffffffff)
    (later : ∀ sleeper ∈ (s.machine.kernel.queues c).delayed,
      (s.machine.kernel.queues c).ticks + turns.length < sleeper.wake)
    (awaits : s.machine.kernel.Awaits c start) :
    ∃ history s', s.play (turns.map fun r => (c, r.op c)) = some (history, s') ∧
      history.length = turns.length ∧ s.machine.kernel.GoesRound c start history := by
  induction turns generalizing s start with
  | nil =>
    refine ⟨[], s, rfl, rfl, fun j seg h => ?_, fun _ h => (List.not_mem_nil h).elim⟩
    simp at h
  | cons r turns ih =>
    rw [List.length_cons] at counts later
    obtain ⟨seg, s₁, hperform, hseg, hfree, hr⟩ := exists_perform_reschedule (s := s) (c := c) r
      free occupied (by omega) fun sleeper hs => by have := later sleeper hs; omega
    have hturn := hr.inTurn awaits distinct
    have hticks := hr.ticks
    obtain ⟨history, s', hplay, hlength, hround⟩ := ih (s := s₁) hfree (hr.ready ▸ distinct)
      (hr.ready ▸ occupied) (by omega) (fun sleeper hs => by
        have := later sleeper (hr.delayed ▸ hs)
        omega) (.after hturn)
    refine ⟨history ++ [seg], s', ?_, ?_, hround.cons hr.toSameQueues hseg hturn⟩
    · simp only [List.map_cons, play]
      rw [hperform]
      change Option.bind (s₁.play _) _ = _
      rw [hplay]
      rfl
    · rw [List.length_append, hlength, List.length_cons]
      rfl

/-- In as many reschedules as there are threads in the rotation, each is switched in once. -/
theorem Kernel.GoesRound.picks_eq_rotate {k : Kernel G} {c : CoreId} {start : Nat}
    {history : List (Segment G)} (h : k.GoesRound c start history) {n : Nat}
    (hn : n + (k.queues c).ready.length ≤ history.length) :
    ((picks c history).drop n).take (k.queues c).ready.length =
      ((k.queues c).ready.rotate (start + n)).map some := by
  refine List.ext_getElem? fun j => ?_
  rcases Nat.lt_or_ge j (k.queues c).ready.length with hj | hj
  · have hlt : n + j < history.reverse.length := by
      rw [List.length_reverse]
      omega
    have hget := List.getElem?_eq_getElem hlt
    obtain ⟨t, ht, hr⟩ := (h.inTurn (n + j) _ hget).slot
    have hq := h.queues _ (List.mem_reverse.mp (List.getElem_mem hlt))
    rw [hq.ready] at ht
    have hindex : j + (start + n) = start + (n + j) := by omega
    rw [List.getElem?_take_of_lt hj, List.getElem?_drop, List.getElem?_map,
      List.getElem?_rotate hj, hindex, ht, picks, List.getElem?_map, hget, Option.map_some, hr]
    rfl
  · rw [List.getElem?_eq_none (by simp; omega), List.getElem?_eq_none (by simpa using hj)]

/-- **Round robin.** Take any state in which the rotation of a core holds somebody, and nobody
twice, and either stands at an index, that thread running and the others ready, or has nobody
switched in. Let there be any number of reschedules, each a tick or a yield in any context, such
that the ticks can be counted and nobody is due by then. All of them return. The rotation goes on by
one with each, from the index after the present one or from the first; the thread at the index is
switched in and runs, the others are ready, and nobody enters or leaves a queue. So among as many
reschedules as there are threads, wherever one begins to count, each is switched in once, in the
order of the rotation. -/
theorem rotation_is_fair (s : System G) (c : CoreId) (turns : List Reschedule)
    (free : s.machine.chip.held = []) (occupied : (s.machine.kernel.queues c).ready ≠ [])
    (distinct : (s.machine.kernel.queues c).ready.Nodup)
    (counts : (s.machine.kernel.queues c).ticks + turns.length ≤ 0xffffffffffffffff)
    (later : ∀ sleeper ∈ (s.machine.kernel.queues c).delayed,
      (s.machine.kernel.queues c).ticks + turns.length < sleeper.wake)
    {start : Nat} (awaits : s.machine.kernel.Awaits c start) :
    ∃ history s', s.play (turns.map fun r => (c, r.op c)) = some (history, s') ∧
      history.length = turns.length ∧ s.machine.kernel.GoesRound c start history ∧
      ∀ n, n + (s.machine.kernel.queues c).ready.length ≤ turns.length →
        ((picks c history).drop n).take (s.machine.kernel.queues c).ready.length =
          ((s.machine.kernel.queues c).ready.rotate (start + n)).map some := by
  obtain ⟨history, s', hplay, hlength, hround⟩ :=
    System.exists_play_reschedules turns free distinct occupied counts later awaits
  refine ⟨history, s', hplay, hlength, hround, fun n hn => hround.picks_eq_rotate ?_⟩
  rw [hlength]
  exact hn

/-- Three threads are started, and the first one falls asleep for ten ticks; it is still in the
slot. -/
def oneOfThreeAsleep : List (CoreId × Op ⟨Unit, Unit⟩) :=
  [(0, .createThread () "first"), (0, .createThread () "second"), (0, .createThread () "third"),
    (0, .startThread 0 1), (0, .startThread 0 2), (0, .startThread 0 3), (0, .bootstrap 0),
    (0, .delay 0 (.ofMillis 100))]

/-- Ticks and yields go round the other two and the idle thread, beginning with the first. -/
theorem three_take_turns_while_one_sleeps : ∃ m past s history s',
    Machine.boot? {} {} = some m ∧
    System.play ⟨m, []⟩ oneOfThreeAsleep = some (past, s) ∧
    (s.machine.kernel.queues 0).ready = [2, 3, 0] ∧
    (s.machine.kernel.queues 0).running = some 1 ∧
    (s.machine.kernel.queues 0).delayed = [⟨1, 10⟩] ∧
    s.play ([.tick 100, .yield 200, .tick 300, .tick 400, .yield 500].map fun r =>
      (0, Reschedule.op 0 r)) = some (history, s') ∧
    s.machine.kernel.GoesRound 0 0 history ∧
    ((picks 0 history).drop 1).take 3 = [some 3, some 0, some 2] := by
  obtain ⟨m, past, s, _, _, hm, hfirst, -, htest⟩ := System.exists_play {} {} oneOfThreeAsleep []
    (fun _ s _ _ => decide ((s.machine.kernel.queues 0).ready = [2, 3, 0] ∧
      (s.machine.kernel.queues 0).running = some 1 ∧
      (s.machine.kernel.queues 0).delayed = [⟨1, 10⟩] ∧ (s.machine.kernel.queues 0).ticks = 0 ∧
      ∀ t ∈ (s.machine.kernel.queues 0).ready, s.machine.kernel.stateOf t = .ready))
    (by decide +kernel)
  obtain ⟨hready, hrun, hdelayed, hticks, hstates⟩ := of_decide_eq_true htest
  have hfree := ((System.runs_of_play hfirst).unlocked
    (System.unlocked_start (Machine.held_of_boot? hm))).held
  obtain ⟨history, s', hplay, -, hround, hpicks⟩ := rotation_is_fair s 0
    [.tick 100, .yield 200, .tick 300, .tick 400, .yield 500] hfree
    (by rw [hready]; decide) (by rw [hready]; decide) (by rw [hticks]; decide)
    (by rw [hticks, hdelayed]; decide)
    (.first ⟨by rw [hready, hrun]; decide, hstates⟩)
  have hturns := hpicks 1
  rw [hready] at hturns
  exact ⟨m, past, s, history, s', hm, hfirst, hready, hrun, hdelayed, hplay, hround,
    hturns (by decide)⟩

end Nucleus
