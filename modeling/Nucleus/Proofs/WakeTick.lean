import Mathlib.Data.Rat.Floor
import Nucleus.Proofs.Idle
import Nucleus.Proofs.Tick
import Nucleus.Proofs.TickCount

/-!
# The tick at which a delay ends

A delay is counted in ticks, rounded up, and the tick at which it ends is fixed when it begins. The
thread then sleeps until that tick is counted: not longer, since a tick hands out everybody who is
due, and not shorter, unless it is woken or killed.

* `RunQueues.wakeTick_eq` is the tick in numbers, and `RunQueues.wakeTick_mono` says that a longer
  delay does not end earlier.
* `Kernel.AsleepUntil` says that a thread sleeps until a tick, and `Kernel.Dozes` how it stands that
  fell asleep until a tick, before the tick and after it. `Kernel.Dozes.apply` is one change, and
  `Segment.Sound.dozes` one segment that lets the thread sleep.
* `delay_ends_at_its_tick` is about whole runs.
-/

namespace Nucleus

variable {G : Guest}

/-! ## The wake tick in numbers -/

/-- The number of periods that cover a span is the quotient, rounded up. -/
theorem TimeSpan.ticksCeil_eq {span slice : TimeSpan} (hpos : 0 < span.nanos)
    (hfinite : span.nanos < infinite.nanos) (hslice : 0 < slice.nanos) :
    ∃ n : Nat, span.ticksCeil slice = some n ∧ 0 < n ∧
      (n : ℤ) = ⌈(span.nanos : ℚ) / slice.nanos⌉ := by
  obtain ⟨a, ha⟩ := Int.eq_ofNat_of_zero_le hpos.le
  obtain ⟨b, hb⟩ := Int.eq_ofNat_of_zero_le hslice.le
  have hinf : infinite.nanos = 0x7fffffffffffffff := rfl
  have hguard : ¬ (span.nanos < 0 ∨ span.nanos = 0x7fffffffffffffff ∨ slice.nanos ≤ 0) := by omega
  have ha0 : 0 < a := by omega
  have hb0 : 0 < b := by omega
  -- the quotient is the number of periods that fit, and one more if something is left
  have hle : (a + b - 1) / b * b ≤ a + b - 1 := Nat.div_mul_le_self _ _
  have hlt : a + b - 1 < (a + b - 1) / b * b + b := by
    have := Nat.lt_div_mul_add hb0 (a := a + b - 1)
    omega
  refine ⟨(a + b - 1) / b, ?_, Nat.div_pos (by omega) hb0, ?_⟩
  · rw [ticksCeil, if_neg hguard, ha, hb]
    rfl
  · generalize (a + b - 1) / b = n at hle hlt ⊢
    have hbq : (0 : ℚ) < b := by exact_mod_cast hb0
    have hlow : n * b < a + b := by omega
    have hhigh : a ≤ n * b := by omega
    rw [ha, hb, eq_comm, Int.ceil_eq_iff]
    push_cast
    constructor
    · rw [lt_div_iff₀ hbq, sub_mul, one_mul, sub_lt_iff_lt_add]
      exact_mod_cast hlow
    · rw [div_le_iff₀ hbq]
      exact_mod_cast hhigh

namespace RunQueues

variable {now : Nat} {span longer slice : TimeSpan}

/-- **The tick at which a delay ends**: the present one and as many more as it takes periods to
cover the span, but no more than can be counted. -/
theorem wakeTick_eq (hpos : 0 < span.nanos) (hfinite : span.nanos < TimeSpan.infinite.nanos)
    (hslice : 0 < slice.nanos) : (wakeTick now span slice : ℤ) =
      min (now + ⌈(span.nanos : ℚ) / slice.nanos⌉) 0xffffffffffffffff := by
  obtain ⟨n, hn, hn0, hceil⟩ := TimeSpan.ticksCeil_eq hpos hfinite hslice
  simp only [wakeTick]
  rw [hn, ← hceil]
  dsimp only
  omega

/-- A longer delay does not end earlier. -/
theorem wakeTick_mono (hpos : 0 < span.nanos) (hle : span.nanos ≤ longer.nanos)
    (hfinite : longer.nanos < TimeSpan.infinite.nanos) (hslice : 0 < slice.nanos) :
    wakeTick now span slice ≤ wakeTick now longer slice := by
  have hquot : (span.nanos : ℚ) / slice.nanos ≤ longer.nanos / slice.nanos := by
    have hs : (0 : ℚ) < slice.nanos := by exact_mod_cast hslice
    have hle' : (span.nanos : ℚ) ≤ longer.nanos := by exact_mod_cast hle
    gcongr
  have hceil := Int.ceil_le_ceil hquot
  have hspan : (wakeTick now span slice : ℤ) = _ :=
    wakeTick_eq hpos (lt_of_le_of_lt hle hfinite) hslice
  have hlonger : (wakeTick now longer slice : ℤ) = _ :=
    wakeTick_eq (lt_of_lt_of_le hpos hle) hfinite hslice
  omega

end RunQueues

/-! ## Sleeping until a tick -/

/-- The only entry of a thread is the one that its wake tick is read from. -/
theorem DelayedQueue.wakeTickOf_of_mem {q : DelayedQueue} {t : ThreadId} {w : Nat}
    (hm : ⟨t, w⟩ ∈ q) (hone : q.threads.count t ≤ 1) : q.wakeTickOf t = some w := by
  induction q with
  | nil => cases hm
  | cons x q ih =>
    by_cases hx : x.thread = t
    · have hgone : t ∉ threads q := by
        intro hq
        have hcount : (threads (x :: q)).count t = (threads q).count t + 1 := by
          simp [threads, hx]
        have := List.count_pos_iff.mpr hq
        omega
      rcases List.mem_cons.mp hm with rfl | hq
      · simp [wakeTickOf]
      · exact absurd (List.mem_map_of_mem hq) hgone
    · rcases List.mem_cons.mp hm with rfl | hq
      · exact absurd rfl hx
      · have hcount : (threads (x :: q)).count t = (threads q).count t := by
          simp [threads, hx]
        have hrest := ih hq (hcount ▸ hone)
        simpa [wakeTickOf, hx] using hrest

namespace Kernel

/-- A thread sleeps on a core until a tick. -/
structure AsleepUntil (k : Kernel G) (t : ThreadId) (c : CoreId) (w : Nat) : Prop where
  /-- it waits for a tick -/
  state : k.stateOf t = .wait .timed
  /-- it is in the delayed queue -/
  queued : ⟨t, w⟩ ∈ (k.queues c).delayed
  /-- the tick is the one that is found there -/
  wakeTick : (k.queues c).delayed.wakeTickOf t = some w
  /-- it is in no rotation -/
  notReady : ∀ d, t ∉ (k.queues d).ready

/-- A thread is in the rotation of a core, and sleeps nowhere. -/
structure AwakeOn (k : Kernel G) (t : ThreadId) (c : CoreId) : Prop where
  /-- it is in the rotation -/
  ready : t ∈ (k.queues c).ready
  /-- it is in no delayed queue -/
  notDelayed : ∀ d, t ∉ DelayedQueue.threads (k.queues d).delayed

variable {k k' : Kernel G} {t : ThreadId} {c d : CoreId} {w : Nat} {roused : Prop}

theorem Placed.asleepUntil (h : k.Placed t) (hm : ⟨t, w⟩ ∈ (k.queues c).delayed) :
    k.AsleepUntil t c w := by
  have hmem : t ∈ (k.queues c).threads .delayed := List.mem_map_of_mem hm
  obtain ⟨-, hqueue⟩ := h.of_mem hmem
  refine ⟨?_, hm, DelayedQueue.wakeTickOf_of_mem hm (h.count_le_one c .delayed), fun d hd => ?_⟩
  · rcases hs : k.stateOf t with _ | _ | (_ | _) | _ <;> rw [hs] at hqueue <;> cases hqueue
  · have hready : t ∈ (k.queues d).threads .ready := hd
    have := (h.of_mem hready).2
    rw [hqueue] at this
    cases this

theorem Placed.awakeOn (h : k.Placed t) (hm : t ∈ (k.queues c).ready) : k.AwakeOn t c := by
  refine ⟨hm, fun d hd => ?_⟩
  have hready : t ∈ (k.queues c).threads .ready := hm
  have hdelayed : t ∈ (k.queues d).threads .delayed := hd
  have := (h.of_mem hdelayed).2
  rw [(h.of_mem hready).2] at this
  cases this

/-- No change takes a tick back. -/
theorem ticks_le_apply (k : Kernel G) (ch : Change G) (c : CoreId) :
    (k.queues c).ticks ≤ ((ch.apply k).queues c).ticks := by
  cases k.rouses_apply ch c with
  | still _ ticks => exact Nat.le_of_eq ticks.symm
  | taken _ _ ticks => exact Nat.le_of_eq ticks.symm
  | ticked _ _ ticks => exact ticks ▸ Nat.le_succ _

theorem Path.ticks_le {admits : Change G → Prop} (h : Path admits k k') (c : CoreId) :
    (k.queues c).ticks ≤ (k'.queues c).ticks :=
  h.keeps (I := fun k' => (k.queues c).ticks ≤ (k'.queues c).ticks)
    (fun k' ch _ _ hk => Nat.le_trans hk (k'.ticks_le_apply ch c)) (Nat.le_refl _)

/-- How a thread stands that fell asleep on a core until a tick: it sleeps and the tick has not
come, or it is up and the tick has come, or it was `roused`. -/
inductive Dozes (k : Kernel G) (t : ThreadId) (c : CoreId) (w : Nat) (roused : Prop) : Prop where
  /-- it sleeps -/
  | asleep (early : (k.queues c).ticks < w) (mem : ⟨t, w⟩ ∈ (k.queues c).delayed)
  /-- it is up -/
  | up (mem : t ∈ (k.queues c).ready) (due : w ≤ (k.queues c).ticks ∨ roused)

namespace Dozes

theorem of_queues (h : k.Dozes t c w roused) (hq : k'.queues c = k.queues c) :
    k'.Dozes t c w roused := by
  cases h with
  | asleep early mem => exact .asleep (hq ▸ early) (hq ▸ mem)
  | up mem due => exact .up (hq ▸ mem) (hq ▸ due)

theorem owner (h : k.Dozes t c w roused) (hp : k.Placed t) : k.ownerOf t = some c := by
  cases h with
  | asleep _ mem =>
    have hmem : t ∈ (k.queues c).threads .delayed := List.mem_map_of_mem mem
    exact (hp.of_mem hmem).1
  | up mem =>
    have hmem : t ∈ (k.queues c).threads .ready := mem
    exact (hp.of_mem hmem).1

/-- **One change.** It ends the thread, or the thread goes on as before: only the tick that it waits
for gets it up, if it is not woken. -/
theorem apply (h : k.Dozes t c w roused) (hp : k.Placed t) (hq : (k.queues c).Timely)
    {ch : Change G} (enabled : ch.Enabled k) (hwake : ∀ d, ch = .wake d t → roused) :
    (ch.apply k).stateOf t = .terminated ∨ (ch.apply k).Dozes t c w roused := by
  have ho : k.ownerOf t = some c := h.owner hp
  by_cases hkill : ∃ d, ch = .kill d t
  · obtain ⟨d, rfl⟩ := hkill
    exact .inl (killed_of_owned enabled.2).2
  have hkill' : ∀ d, ch ≠ .kill d t := fun d hd => hkill ⟨d, hd⟩
  right
  cases h with
  | up mem due =>
    have hticks := k.ticks_le_apply ch c
    exact .up (mem_ready_apply enabled hkill' mem) (due.imp_left (Nat.le_trans · hticks))
  | asleep early mem =>
    by_cases hwoken : ∃ d, ch = .wake d t
    · obtain ⟨d, rfl⟩ := hwoken
      have hmoves := moves_wake (manages_of_isParked enabled) t
      have hlt := lt_length_of_ownerOf ho
      refine .up ?_ (.inr (hwake d rfl))
      refine ((hp.wake enabled).placed.mem_iff ((hmoves.owner hlt).trans ho) .ready).mpr ?_
      rw [hmoves.state hlt]
      rfl
    · have hleaves := leaves_apply (by rw [ho]; nofun) enabled hkill' fun d hd => hwoken ⟨d, hd⟩
      rcases Nat.lt_or_ge ((ch.apply k).queues c).ticks w with hlt | hge
      · rcases (hleaves.queues c).delayed w mem with hmem | hdue
        · exact .asleep hlt hmem
        · exact absurd hdue (Nat.not_le.mpr hlt)
      · -- the change has counted the tick, which hands out everybody who is due
        obtain rfl : ch = .advance c := eq_advance_of_ticks_ne (k := k) (by omega)
        have hc : k.manages c = true := by
          have hmem : t ∈ (k.queues c).threads .delayed := List.mem_map_of_mem mem
          exact manages_of_count (k.count_pos_iff.mpr hmem)
        refine .up ?_ (.inl hge)
        dsimp only [Change.apply] at hge ⊢
        rw [queues_advance hc] at hge ⊢
        refine List.mem_append_right _ ?_
        exact (mem_dueNext_iff hq.ascending).mpr ⟨⟨t, w⟩, mem, rfl, hge⟩

/-- Another thread is put aside. -/
theorem setAside (h : k.Dozes t c w roused) (wake : Option Nat)
    (hr : (k.queues d).running ≠ some t) : (k.setAside d wake).Dozes t c w roused := by
  have hticks := k.ticks_setAside d c wake
  cases h with
  | asleep early mem =>
    rw [← hticks] at early
    have hleaves : k.Leaves (k.setAside d wake) t := leaves_setAside d wake
    rcases (hleaves.queues c).delayed w mem with hmem | hdue
    · exact .asleep early hmem
    · exact absurd hdue (Nat.not_le.mpr early)
  | up mem due =>
    refine .up (mem_ready_setAside wake ?_ mem) (hticks.symm ▸ due)
    rintro rfl
    exact hr

/-- **A path.** -/
theorem path {admits : Change G → Prop} (h : k.Dozes t c w roused) (hp : k.Placed t)
    (hq : (k.queues c).Timely) (path : Path admits k k')
    (hwake : ∀ d, admits (.wake d t) → roused) :
    k'.stateOf t = .terminated ∨ k'.Dozes t c w roused := by
  have hlt : t < k.threads.length := lt_length_of_ownerOf (h.owner hp)
  refine (path.keeps (I := fun k => (k.Placed t ∧ t < k.threads.length ∧ (k.queues c).Timely) ∧
    (k.stateOf t = .terminated ∨ k.Dozes t c w roused))
    (fun k ch admitted enabled hk => ?_) ⟨⟨hp, hlt, hq⟩, .inr h⟩).2
  obtain ⟨⟨hp, hlt, hq⟩, hk⟩ := hk
  have hcarries := hp.apply enabled
  refine ⟨⟨hcarries.placed, Nat.lt_of_lt_of_le hlt hcarries.threads,
    hq.rouses (k.rouses_apply ch c)⟩, ?_⟩
  rcases hk with hended | hk
  · exact .inl (hcarries.ended hended hlt).1
  · refine hk.apply hp hq enabled fun d hd => hwake d ?_
    rwa [← hd]

end Dozes

end Kernel

/-! ## Segments -/

/-- The segment takes a thread out of a delayed queue by waking it, directly or by way of an
event. -/
def Segment.Undelays (seg : Segment G) (t : ThreadId) : Prop :=
  (seg.op.scope = .waking ∨ ∃ e, seg.op.scope = .event e) ∧
    ∃ c, t ∈ DelayedQueue.threads (seg.before.queues c).delayed ∧
      t ∉ DelayedQueue.threads (seg.after.queues c).delayed

/-- The segment lets a thread sleep: it does not put it aside, kill it or undelay it. -/
structure Segment.LetsSleep (seg : Segment G) (t : ThreadId) : Prop where
  /-- if it puts a thread aside, then another -/
  notParked : ¬ seg.Parks t
  /-- it does not kill the thread -/
  notKilled : seg.after.stateOf t ≠ .terminated
  /-- it does not undelay the thread -/
  notUndelayed : ¬ seg.Undelays t

/-- **One segment** that lets a thread sleep. -/
theorem Segment.Sound.dozes {seg : Segment G} {t : ThreadId} {c : CoreId} {w : Nat}
    (hseg : seg.Sound) (hp : seg.before.Placed t) (hq : (seg.before.queues c).Timely)
    (h : seg.before.Dozes t c w False) (hl : seg.LetsSleep t) :
    seg.after.Dozes t c w False := by
  cases hparked : seg.parked with
  | some d =>
    obtain ⟨span, -, hqueues⟩ := hseg.queues_of_parked hparked
    refine (h.setAside _ fun hr => ?_).of_queues (hqueues c)
    exact hl.notParked ⟨d, hparked, hr⟩
  | none =>
    have hleads := hseg.leads
    rw [hparked] at hleads
    have path : Kernel.Path seg.op.MayMake seg.before seg.after := hleads
    let wakes : Prop := seg.op.scope = .waking ∨ ∃ e, seg.op.scope = .event e
    have hstart : seg.before.Dozes t c w wakes := by
      cases h with
      | asleep early mem => exact .asleep early mem
      | up mem due => exact .up mem (.inl (due.resolve_right id))
    have hafter := (hseg.carries hp fun hparks => absurd hparks hl.notParked).placed
    rcases hstart.path hp hq path fun d admitted => admitted.1 with hended | hdozes
    · exact absurd hended hl.notKilled
    cases hdozes with
    | asleep early mem => exact .asleep early mem
    | up mem due =>
      refine .up mem (.inl (due.elim id fun hscope => ?_))
      cases h with
      | asleep _ slept =>
        -- it would have been undelayed
        have hgone := (hafter.awakeOn mem).notDelayed c
        exact absurd ⟨hscope, c, List.mem_map_of_mem slept, hgone⟩ hl.notUndelayed
      | up _ due => exact Nat.le_trans (due.resolve_right id) (path.ticks_le c)

/-! ## Runs -/

/-- A delay for a while puts the running thread aside until its wake tick, and asks for a switch. -/
theorem Effect.delay_of_finite (k : Kernel G) (c : CoreId) {span : TimeSpan} (pos : 0 < span.nanos)
    (finite : span.nanos < TimeSpan.infinite.nanos) : delay c span k =
      (requestYield c (k.setAside c (some (RunQueues.wakeTick (k.queues c).ticks span k.slice))),
        .ok ()) := by
  have hneg : ¬ span.isNegative := by
    rw [TimeSpan.isNegative_iff]
    exact Int.not_lt.mpr (Int.le_of_lt pos)
  have hzero : ¬ span.isZero := by
    rw [TimeSpan.isZero_iff]
    exact Int.ne_of_gt pos
  have hinf : ¬ span.isInfinite := by
    rw [TimeSpan.isInfinite_iff]
    exact Int.ne_of_lt finite
  rw [delay_of_pos k c hneg hzero, deadline, if_neg hinf]

namespace System

variable {s : System G} {here c : CoreId} {t : ThreadId} {span : TimeSpan}

/-- An operation that runs no client code and returns can be performed, with its effect. -/
theorem exists_perform {op : Op G} {f : Effect G op.Result}
    (managed : s.machine.kernel.manages here = true) (valid : op.Valid s.machine.kernel)
    (effect : op.effect here = some f) (returns : (op.call (s.machine.on here)).Returns) :
    ∃ s₁ : System G, s₁.machine.kernel = (f s.machine.kernel).1 ∧ s.perform here op =
      some (⟨here, op, true, s.machine.kernel, s₁.machine.kernel, some (f s.machine.kernel).2⟩,
        s₁) := by
  obtain ⟨m, a, hend⟩ := returns
  obtain ⟨-, hk, ha⟩ := Op.does_call effect (m := s.machine.on here) rfl (Run.rests_of_ending? hend)
  obtain rfl := Sum.inl.inj ha
  refine ⟨⟨m, s.tasks⟩, hk, ?_⟩
  simp only [perform]
  rw [if_pos ⟨managed, valid⟩, hend]
  rfl

/-- **The running thread of a core is delayed**, and sleeps. -/
theorem exists_perform_delay (free : s.machine.chip.held = [])
    (managed : s.machine.kernel.manages here = true) (placed : s.machine.kernel.Placed t)
    (slot : (s.machine.kernel.queues c).running = some t)
    (running : s.machine.kernel.stateOf t = .running) (pos : 0 < span.nanos)
    (finite : span.nanos < TimeSpan.infinite.nanos) :
    ∃ s₁ : System G, s.perform here (.delay c span) =
        some (⟨here, .delay c span, true, s.machine.kernel, s₁.machine.kernel, some (.ok ())⟩, s₁) ∧
      s₁.machine.kernel.Placed t ∧
      ⟨t, RunQueues.wakeTick (s.machine.kernel.queues c).ticks span s.machine.kernel.slice⟩ ∈
        (s₁.machine.kernel.queues c).delayed ∧
      (s₁.machine.kernel.queues c).ticks = (s.machine.kernel.queues c).ticks := by
  have hvalid : (Op.delay c span).Valid s.machine.kernel := Kernel.manages_of_running slot
  have hreturns : ((Op.delay c span).call (s.machine.on here)).Returns := by
    have hfree (l : Lock) : l ∉ (s.machine.on here).chip.held := free ▸ List.not_mem_nil
    refine Call.returns_delay (.inr (.inr ?_)) (hfree _) (hfree _)
    exact ne_of_eq_of_ne slot (Option.some_ne_none t)
  obtain ⟨s₁, hkernel, hperform⟩ := exists_perform managed hvalid rfl hreturns
  rw [Effect.delay_of_finite _ c pos finite] at hkernel hperform
  obtain ⟨hticks, hdelayed⟩ := s.machine.kernel.sleepers_setAside c
    (some (RunQueues.wakeTick (s.machine.kernel.queues c).ticks span s.machine.kernel.slice))
  have haside : s.machine.kernel.Carries _ t := placed.setAside (c := c)
    (some (RunQueues.wakeTick (s.machine.kernel.queues c).ticks span s.machine.kernel.slice))
    fun _ => .inr running
  refine ⟨s₁, hperform, ?_, ?_, ?_⟩ <;> rw [hkernel]
  · refine (haside.placed.updateCore c ?_).placed
    exact fun _ => rfl
  · rw [Effect.requestYield, Kernel.queues_setDpcs, hdelayed, Kernel.sleeper?, slot]
    exact DelayedQueue.mem_insert.mpr (.inl rfl)
  · rw [Effect.requestYield, Kernel.queues_setDpcs, hticks]

/-- **A whole run** of segments that let a thread sleep. -/
theorem Runs.dozes {s₁ : System G} {later : List (Segment G)} {w : Nat} (run : Runs s later s₁)
    (hsound : ∀ task ∈ s.tasks, task.Sound) (hp : s.machine.kernel.Placed t)
    (hq : (s.machine.kernel.queues c).Timely) (h : s.machine.kernel.Dozes t c w False)
    (hl : ∀ seg ∈ later, seg.LetsSleep t) :
    (s₁.machine.kernel.Placed t ∧ s₁.machine.kernel.Dozes t c w False) ∧
      ∀ seg ∈ later, (seg.before.Placed t ∧ seg.before.Dozes t c w False) ∧
        seg.after.Placed t ∧ seg.after.Dozes t c w False := by
  obtain ⟨⟨hend, -⟩, hall⟩ := run.keeps (P := fun seg => seg.LetsSleep t)
    (I := fun k => (k.Placed t ∧ k.Dozes t c w False) ∧ (k.queues c).Timely) hsound hl
    (fun seg hl hseg ⟨⟨hp, hd⟩, hq⟩ => by
      have hplaced := (hseg.carries hp fun hparks => absurd hparks hl.notParked).placed
      exact ⟨⟨hplaced, hseg.dozes hp hq hd hl⟩, hseg.timely hq⟩) ⟨⟨hp, h⟩, hq⟩
  exact ⟨hend, fun seg hseg => ⟨(hall seg hseg).1.1, (hall seg hseg).2.1⟩⟩

end System

namespace Kernel.Dozes

variable {k k' : Kernel G} {t : ThreadId} {c : CoreId} {w : Nat}

theorem asleepUntil (h : k.Dozes t c w False) (hp : k.Placed t) (hw : (k.queues c).ticks < w) :
    k.AsleepUntil t c w := by
  cases h with
  | asleep _ mem => exact hp.asleepUntil mem
  | up _ due => exact absurd (due.resolve_right id) (Nat.not_le.mpr hw)

theorem awakeOn (h : k.Dozes t c w False) (hp : k.Placed t) (hw : w ≤ (k.queues c).ticks) :
    k.AwakeOn t c := by
  cases h with
  | asleep early _ => exact absurd hw (Nat.not_le.mpr early)
  | up mem _ => exact hp.awakeOn mem

/-- It is up if and only if its tick has come. -/
theorem mem_ready_iff (h : k.Dozes t c w False) (hp : k.Placed t) :
    t ∈ (k.queues c).ready ↔ w ≤ (k.queues c).ticks := by
  constructor
  · intro hm
    by_contra hlt
    exact (h.asleepUntil hp (Nat.not_le.mp hlt)).notReady c hm
  · exact fun hw => (h.awakeOn hp hw).ready

end Kernel.Dozes

/-- **A delay ends at its tick.** Take any state that a run from a boot that leaves no lock held can
reach, and the running thread of a core in it, which was put aside only while it ran. Let the time
slice be positive, and let one more tick be countable. A delay of it for a while that is neither
zero nor for ever returns, and the thread sleeps until the present tick plus the quotient of span
and slice, rounded up, or until the greatest tick if that is less. Whatever comes later, as long as
it lets the thread sleep: it sleeps until that tick as long as fewer ticks are counted; the segment
that counts that tick, and no other, brings it into the rotation, and this is a tick of the core or
the delivery of one; and then it stays awake. A longer delay in its place would not end earlier. And
at any point of any run from the boot, whoever sleeps wakes at a tick that is still to come, as long
as ticks can be counted. -/
theorem delay_ends_at_its_tick {m : Machine G} {s : System G} {past : List (Segment G)}
    {here c : CoreId} {t : ThreadId} {span : TimeSpan}
    (booted : m.Booted) (free : m.chip.held = []) (run : System.Runs ⟨m, []⟩ past s)
    (disciplined : ∀ seg ∈ past, seg.Parks t → seg.before.stateOf t = .running)
    (managed : s.machine.kernel.manages here = true)
    (slot : (s.machine.kernel.queues c).running = some t)
    (running : s.machine.kernel.stateOf t = .running)
    (slice : 0 < s.machine.kernel.slice.nanos)
    (counts : (s.machine.kernel.queues c).ticks < 0xffffffffffffffff)
    (pos : 0 < span.nanos) (finite : span.nanos < TimeSpan.infinite.nanos) :
    ∃ (w : Nat) (s₁ : System G),
      (w : ℤ) = min ((s.machine.kernel.queues c).ticks +
        ⌈(span.nanos : ℚ) / s.machine.kernel.slice.nanos⌉) 0xffffffffffffffff ∧
      s.perform here (.delay c span) =
        some (⟨here, .delay c span, true, s.machine.kernel, s₁.machine.kernel, some (.ok ())⟩, s₁) ∧
      s₁.machine.kernel.AsleepUntil t c w ∧
      (∀ later s₂, System.Runs s₁ later s₂ → (∀ seg ∈ later, seg.LetsSleep t) →
        ((s₂.machine.kernel.queues c).ticks < w → s₂.machine.kernel.AsleepUntil t c w) ∧
        (w ≤ (s₂.machine.kernel.queues c).ticks → s₂.machine.kernel.AwakeOn t c) ∧
        ∀ seg ∈ later,
          (t ∉ (seg.before.queues c).ready ∧ t ∈ (seg.after.queues c).ready ↔
            (seg.before.queues c).ticks < w ∧ (seg.after.queues c).ticks = w) ∧
          ((seg.before.queues c).ticks < w ∧ (seg.after.queues c).ticks = w →
            (∃ x, seg.op = .onTick c x) ∨ seg.op.scope = .dispatching)) ∧
      (∀ longer : TimeSpan, span.nanos ≤ longer.nanos → longer.nanos < TimeSpan.infinite.nanos →
        ∃ (w' : Nat) (s' : System G), s.perform here (.delay c longer) =
          some (⟨here, .delay c longer, true, s.machine.kernel, s'.machine.kernel,
            some (.ok ())⟩, s') ∧
          s'.machine.kernel.AsleepUntil t c w' ∧ w ≤ w') ∧
      ∀ history s', System.Runs ⟨m, []⟩ history s' → ∀ d,
        (s'.machine.kernel.queues d).ticks < 0xffffffffffffffff →
        ∀ sleeper ∈ (s'.machine.kernel.queues d).delayed,
          (s'.machine.kernel.queues d).ticks < sleeper.wake := by
  have hfree := (run.unlocked (System.unlocked_start free)).held
  have hplaced := run.placed booted fun seg hseg hp => .inr (disciplined seg hseg hp)
  obtain ⟨s₁, hperform, hp₁, hmem, hticks⟩ :=
    System.exists_perform_delay hfree managed hplaced slot running pos finite
  have run₁ := System.Runs.step run (System.step_of_perform hperform)
  have hdozes : s₁.machine.kernel.Dozes t c _ False :=
    .asleep (hticks ▸ RunQueues.lt_wakeTick counts span _) hmem
  refine ⟨_, s₁, RunQueues.wakeTick_eq pos finite slice, hperform, hp₁.asleepUntil hmem,
    fun later s₂ hlater hl => ?_, fun longer hle hlonger => ?_,
    fun history s' hrun d hd => ((hrun.timely booted).1 d).ahead hd⟩
  · have hsound := run₁.sound System.forall_tasks_start
    obtain ⟨⟨hp₂, hd₂⟩, hall⟩ :=
      hlater.dozes hsound.2 hp₁ ((run₁.timely booted).1 c) hdozes hl
    refine ⟨hd₂.asleepUntil hp₂, hd₂.awakeOn hp₂, fun seg hseg => ?_⟩
    obtain ⟨⟨hp, hd⟩, hp', hd'⟩ := hall seg hseg
    have hone := (run₁.trans hlater).countsOne seg (List.mem_append_left _ hseg) c
    refine ⟨?_, fun ⟨hbefore, hafter⟩ => ?_⟩
    · rw [hd.mem_ready_iff hp, hd'.mem_ready_iff hp']
      omega
    · have hseg : seg.Sound := (hlater.sound hsound.2).1 seg hseg
      exact (hseg.ticks_cases c).resolve_left (by omega)
  · obtain ⟨s', hperform', hp', hmem', -⟩ := System.exists_perform_delay hfree managed hplaced slot
      running (lt_of_lt_of_le pos hle) hlonger
    exact ⟨_, s', hperform', hp'.asleepUntil hmem', RunQueues.wakeTick_mono pos hle hlonger slice⟩

/-- Two threads take turns; the first has slept for a tick, and runs again. -/
def sleptOnce : List (CoreId × Op ⟨Unit, Unit⟩) :=
  [(0, .createThread () "first"), (0, .createThread () "second"), (0, .startThread 0 1),
    (0, .startThread 0 2), (0, .bootstrap 0), (0, .delay 0 (.ofMillis 10)),
    (0, .yieldThread 0 100), (0, .onTick 0 200), (0, .yieldThread 0 300)]

/-- The second falls asleep for a shorter while, and three ticks are counted; the last of them is
delivered as an interrupt. -/
def threeTicks : List (CoreId × Op ⟨Unit, Unit⟩) :=
  [(0, .yieldThread 0 400), (0, .delay 0 (.ofMillis 10)), (0, .onTick 0 500), (0, .onTick 0 600),
    (0, .dispatch 1 0 .systemTick 700)]

/-- At tick one it is delayed for two and a half slices, and the tick that is delivered gets it
up. -/
theorem sleeps_two_and_a_half_slices : ∃ m past s s₁ later s₂,
    Machine.boot? {} {} = some m ∧ System.play ⟨m, []⟩ sleptOnce = some (past, s) ∧
    s.perform 0 (.delay 0 (.ofMillis 25)) = some (⟨0, .delay 0 (.ofMillis 25), true,
      s.machine.kernel, s₁.machine.kernel, some (.ok ())⟩, s₁) ∧
    s₁.machine.kernel.AsleepUntil 1 0 4 ∧ s₁.play threeTicks = some (later, s₂) ∧
    (s₂.machine.kernel.queues 0).ticks = 4 ∧ s₂.machine.kernel.AwakeOn 1 0 := by
  obtain ⟨m, past, s, later', s₂, hm, hfirst, hsecond, htest⟩ := System.exists_play {} {} sleptOnce
    ((0, .delay 0 (.ofMillis 25)) :: threeTicks)
    (fun past s later' s₂ => decide (
      (∀ seg ∈ past, ∀ d ∈ seg.parked, (seg.before.queues d).running = some 1 →
        seg.before.stateOf 1 = .running) ∧
      s.machine.kernel.manages 0 = true ∧ (s.machine.kernel.queues 0).running = some 1 ∧
      s.machine.kernel.stateOf 1 = .running ∧ s.machine.kernel.slice.nanos = 10000000 ∧
      (s.machine.kernel.queues 0).ticks = 1 ∧ (s₂.machine.kernel.queues 0).ticks = 4 ∧
      ∀ seg ∈ later'.dropLast, (∀ d ∈ seg.parked, (seg.before.queues d).running ≠ some 1) ∧
        seg.after.stateOf 1 ≠ .terminated ∧ (seg.op.scope = .plain ∨ seg.op.scope = .turning 0 ∨
          seg.op.scope = .dispatching)))
    (by decide +kernel)
  obtain ⟨hpast, hmanaged, hslot, hrunning, hslice, hticks, hend, hlater⟩ := of_decide_eq_true htest
  have hspan : 0 < (TimeSpan.ofMillis 25).nanos := by decide
  obtain ⟨w, s₁, hw, hperform, hasleep, hsleeps, -⟩ := delay_ends_at_its_tick
    (Machine.booted_of_boot? hm) (Machine.held_of_boot? hm) (System.runs_of_play hfirst)
    (fun seg hseg ⟨d, hd, hr⟩ => hpast seg hseg d hd hr) hmanaged hslot hrunning
    (by rw [hslice]; decide) (by rw [hticks]; decide) hspan (by decide)
  have hfour : w = 4 := by
    have hceil : ⌈((TimeSpan.ofMillis 25).nanos : ℚ) / (10000000 : ℤ)⌉ = 3 := by
      have hnanos : (TimeSpan.ofMillis 25).nanos = 25000000 := by decide
      rw [hnanos, Int.ceil_eq_iff]
      norm_num
    rw [hticks, hslice, hceil] at hw
    omega
  subst hfour
  -- the rest of the script goes on from where the delay has led
  obtain ⟨⟨seg, s'⟩, hperform', hrest⟩ := Option.bind_eq_some_iff.mp hsecond
  obtain ⟨rfl, rfl⟩ := Prod.mk.inj (Option.some.inj (hperform.symm.trans hperform'))
  obtain ⟨⟨later, s₃⟩, hplay, hrest⟩ := Option.bind_eq_some_iff.mp hrest
  obtain ⟨rfl, rfl⟩ := Prod.mk.inj (Option.some.inj hrest)
  rw [List.dropLast_concat] at hlater
  have hawake := (hsleeps later s₃ (System.runs_of_play hplay) fun seg hseg => ?_).2.1
    (Nat.le_of_eq hend.symm)
  · exact ⟨m, past, s, s₁, later, s₃, hm, hfirst, hperform, hasleep, hplay, hend, hawake⟩
  · obtain ⟨hparks, hkilled, hscope⟩ := hlater seg hseg
    refine ⟨fun ⟨d, hd, hr⟩ => hparks d hd hr, hkilled, fun ⟨hwakes, _⟩ => ?_⟩
    rcases hscope with h | h | h <;> rcases hwakes with hw | ⟨e, hw⟩ <;> cases h.symm.trans hw

end Nucleus
