import Nucleus.Proofs.Sleepers

/-!
# How ticks are counted

A core counts a tick when its tick is called, or when the delivery of an interrupt calls it. No
segment of an operation counts more than one: a delivery runs one handler, and draining deferred
calls counts nothing.

* `Kernel.eq_advance_of_ticks_ne`: of all changes only one counts a tick.
* `Segment.Sound.ticks_cases` says by which operations a tick is counted.
* `System.Runs.countsOne` says that a segment counts one tick of a core at most.
-/

namespace Nucleus

variable {G : Guest}

/-! ## Changes -/

namespace Kernel

variable {k k' : Kernel G} {c : CoreId}

/-- Every core has counted as many ticks as before, or one more. -/
def CountsOne (k k' : Kernel G) : Prop :=
  ∀ c, (k.queues c).ticks ≤ (k'.queues c).ticks ∧ (k'.queues c).ticks ≤ (k.queues c).ticks + 1

/-- Where nobody counts and nobody wakes, no more than one tick is counted. -/
theorem SleepOn.countsOne (h : k.SleepOn k') : k.CountsOne k' := by
  intro c
  rw [(h c).2]
  exact ⟨Nat.le_refl _, Nat.le_succ _⟩

/-- **Only one change counts a tick.** -/
theorem eq_advance_of_ticks_ne {ch : Change G}
    (h : ((ch.apply k).queues c).ticks ≠ (k.queues c).ticks) : ch = .advance c := by
  cases k.rouses_apply ch c with
  | still _ ticks => exact absurd ticks h
  | taken _ _ ticks => exact absurd ticks h
  | ticked counted => exact counted

/-- A tick counts one, -/
theorem countsOne_advance (k : Kernel G) (c : CoreId) : k.CountsOne (k.advance c) := by
  intro d
  cases k.rouses_advance c d with
  | still _ ticks => exact ticks ▸ ⟨Nat.le_refl _, Nat.le_succ _⟩
  | taken _ _ ticks => exact ticks ▸ ⟨Nat.le_refl _, Nat.le_succ _⟩
  | ticked _ _ ticks => exact ticks ▸ ⟨Nat.le_succ _, Nat.le_refl _⟩

/-- with the switch that follows. -/
theorem countsOne_onTick (k : Kernel G) (c : CoreId) (x : Context) :
    k.CountsOne (Effect.onTick c x k).1 := by
  simp only [Effect.onTick]
  split
  · intro d
    rw [(sleepOn_turn (k.advance c) c x d).2]
    exact k.countsOne_advance c d
  · exact (SleepOn.refl k).countsOne

end Kernel

/-! ## Deliveries -/

namespace Run

variable {α β : Type} {R R' : Machine G → Machine G → Prop} {m : Machine G}

/-- A guarantee may be weakened. -/
theorem Guarantees.mono {x : Run G α} (hR : ∀ m n, R m n → R' m n) (hx : x.Guarantees R m) :
    x.Guarantees R' m := by
  induction x generalizing m with
  | done n a => exact hR m n hx
  | halt => trivial
  | window n w resume ih => exact ih n hx
  | interrupt n home code x resume ih => exact ⟨hR m n hx.1, fun m' c => ih m' c (hx.2 m' c)⟩
  | enter n code a resume ih => exact ⟨hR m n hx.1, fun m' o => ih m' o (hx.2 m' o)⟩

/-- What a call guarantees does not depend on what is made of its answer. -/
theorem Guarantees.map {x : Run G α} (f : α → β) (hx : x.Guarantees R m) :
    (x.bind fun a n => .done n (f a)).Guarantees R m := by
  induction x generalizing m with
  | done n a => exact hx
  | halt => trivial
  | window n w resume ih => exact ih n hx
  | interrupt n home code x resume ih => exact ⟨hx.1, fun m' c => ih m' c (hx.2 m' c)⟩
  | enter n code a resume ih => exact ⟨hx.1, fun m' o => ih m' o (hx.2 m' o)⟩

end Run

namespace Call

/-- In no segment of the call is anybody roused, or a tick counted. -/
def Lulls {α : Type} (x : Call G α) : Prop :=
  ∀ m, (x m).Guarantees (fun m n => m.kernel.SleepOn n.kernel) m

/-- In no segment of the call are two ticks of a core counted. -/
def CountsOne {α : Type} (x : Call G α) : Prop :=
  ∀ m, (x m).Guarantees (fun m n => m.kernel.CountsOne n.kernel) m

variable {α β : Type}

/-- One call after the other counts nothing, if neither does. -/
theorem Lulls.bind {x : Call G α} {f : α → Call G β} (hx : x.Lulls) (hf : ∀ a, (f a).Lulls) :
    (x >>= f).Lulls :=
  fun m => Run.Guarantees.bind (R := fun m n => m.kernel.SleepOn n.kernel)
    (fun _ _ _ => Kernel.SleepOn.trans) (hx m) hf

/-- A call whose effect counts nothing counts nothing in any of its stretches. -/
theorem lulls_of_does {x : Call G α} {f : Effect G α} (hx : ∀ here, x.Does here f)
    (hf : ∀ k : Kernel G, k.SleepOn (f k).1) : x.Lulls := by
  intro m
  refine (hx m.chip.current).guarantees rfl fun n hn => ?_
  rw [hn]
  exact hf m.kernel

theorem lulls_pure (a : α) : (pure a : Call G α).Lulls := fun m => .refl m.kernel

theorem lulls_note (notice : Notice) : (note notice : Call G Unit).Lulls := fun m => .refl m.kernel

theorem lulls_interrupt (home : CoreId) (code : G.Routine) (x : Context) :
    (interrupt home code x).Lulls :=
  fun m => ⟨.refl m.kernel, fun m' _ => .refl m'.kernel⟩

/-- Deferred calls count nothing: a reschedule only switches. -/
theorem lulls_drain (fuel : Nat) (c : CoreId) (x : Context) :
    (drain fuel c x : Call G Context).Lulls := by
  induction fuel generalizing x with
  | zero => exact fun _ => trivial
  | succ fuel ih =>
    have hpop : (popDpc c : Call G (Option (Dpc G))).Lulls := by
      refine lulls_of_does (fun _ => does_popDpc c) fun k => ?_
      simp only [Effect.popDpc]
      split
      · exact .refl k
      · exact Kernel.sleepOn_of_queues (k.queues_setDpcs c _)
    refine hpop.bind fun o => ?_
    cases o with
    | none => exact lulls_pure x
    | some d =>
      refine (lulls_note _).bind fun _ => Lulls.bind ?_ ih
      cases d with
      | reschedule c' =>
        exact lulls_of_does (fun _ => does_yieldThread c' x) fun k => k.sleepOn_turn c' x
      | routine home code => exact lulls_interrupt home code x

/-- A call that counts nothing counts no more than one. -/
theorem Lulls.countsOne {x : Call G α} (hx : x.Lulls) : x.CountsOne :=
  fun m => (hx m).mono fun _ _ => Kernel.SleepOn.countsOne

/-- A delivery runs one handler. -/
theorem countsOne_dispatch (fuel : Nat) (c : CoreId) (irq : SystemIrq) (x : Context) :
    (dispatch fuel c irq x : Call G Dispatch).CountsOne := by
  have hhandler (h : Handler G) : (runHandler fuel h x : Call G Context).CountsOne := by
    cases h with
    | drain d => exact (lulls_drain fuel d x).countsOne
    | tick d =>
      intro m
      have hdoes : (onTick d x : Call G Context).Does m.chip.current (Effect.onTick d x) :=
        does_onTick d x
      refine hdoes.guarantees rfl fun n hn => ?_
      rw [hn]
      exact m.kernel.countsOne_onTick d x
    | routine home code => exact (lulls_interrupt home code x).countsOne
  intro m
  simp only [dispatch]
  rw [bind_of_done (read_apply _ m)]
  cases m.kernel.handler? c irq with
  | none => exact ((lulls_note _).bind fun _ => lulls_pure _).countsOne m
  | some h => exact (hhandler h m).map Dispatch.resume

/-- A dispatch counts no more than one tick, whatever the handler. -/
theorem countsOne_dispatchHere (fuel : Nat) (irq : SystemIrq) (x : Context) :
    (dispatchHere fuel irq x : Call G Dispatch).CountsOne := by
  intro m
  simp only [dispatchHere]
  by_cases hm : m.kernel.manages m.chip.current = true
  · rw [bind_of_done (currentCore_apply hm)]
    exact countsOne_dispatch fuel _ irq x m
  · simp only [currentCore, bind_assoc]
    rw [bind_of_done (look_apply _ m), bind_of_done (read_apply _ m), if_neg hm]
    trivial

end Call

/-! ## Segments -/

/-- An operation that delivers an interrupt counts one tick of a core at most. -/
theorem Op.countsOne_call {op : Op G} (h : op.scope = .dispatching) : op.call.CountsOne := by
  cases op with
  | dispatch fuel c irq x => exact Call.countsOne_dispatch fuel c irq x
  | dispatchHere fuel irq x => exact Call.countsOne_dispatchHere fuel irq x
  | _ => cases h

/-- A dispatch is not put aside. -/
theorem Op.pausing_eq_false {op : Op G} {p : Bool} (h : op.scope = .dispatching)
    (hp : p = true → op.MayPause) : p = false := by
  cases p with
  | false => rfl
  | true =>
    have := hp rfl
    cases op with
    | enqueueWait => cases h
    | _ => cases this

/-- **By which operations a tick is counted**: by the tick of the core, or by the delivery of an
interrupt. -/
theorem Segment.Sound.ticks_cases {seg : Segment G} (hseg : seg.Sound) (c : CoreId) :
    (seg.after.queues c).ticks = (seg.before.queues c).ticks ∨ (∃ x, seg.op = .onTick c x) ∨
      seg.op.scope = .dispatching := by
  by_cases hd : seg.op.scope = .dispatching
  · exact .inr (.inr hd)
  by_cases ht : seg.op.scope = .turning c
  · -- a yield has the scope of a tick, but it only switches
    cases hseg with
    | @whole core op f k managed valid effect =>
      cases op with
      | yieldThread d x =>
        cases effect
        exact .inl (k.sleepOn_turn d x c).2
      | onTick d x =>
        cases ht
        exact .inr (.inl ⟨x, rfl⟩)
      | _ => cases ht
    | @client core op first k k' answer noEffect path =>
      cases op with
      | createThread | runThread | dispatch | dispatchHere => cases ht
      | _ => cases noEffect
    | paused => cases ht
    | resumed => cases ht
  · left
    obtain ⟨k, path, hk⟩ := hseg.exists_path
    have hstart : (k.queues c).ticks = (seg.before.queues c).ticks := by
      rcases hk with rfl | ⟨d, wake, -, rfl⟩
      · rfl
      · exact seg.before.ticks_setAside d c wake
    refine path.keeps (I := fun k' => (k'.queues c).ticks = (seg.before.queues c).ticks)
      (fun k' ch admitted _ hI => ?_) hstart
    by_contra hne
    obtain rfl := Kernel.eq_advance_of_ticks_ne (hI.symm ▸ hne)
    exact admitted.1.elim ht hd

/-- A tick by itself counts one. -/
theorem Segment.Sound.countsOne_of_onTick {seg : Segment G} {c : CoreId} {x : Context}
    (hseg : seg.Sound) (hop : seg.op = .onTick c x) : seg.before.CountsOne seg.after := by
  cases hseg with
  | whole k managed valid effect =>
    cases hop
    cases effect
    exact k.countsOne_onTick c x
  | client noEffect path =>
    cases hop
    cases noEffect
  | paused => cases hop
  | resumed => cases hop

/-- What is left of a delivery counts one tick at most in each of its segments. -/
def Task.Counts (task : Task G) : Prop := task.op.scope = .dispatching → task.rest.CountsOne

namespace System

variable {m : Machine G} {s s' : System G} {seg : Segment G} {history : List (Segment G)}

/-- A segment of a dispatch counts no more than one tick, -/
theorem Step.countsOne (h : Step s seg s') (hs : ∀ task ∈ s.tasks, task.Counts)
    (hop : seg.op.scope = .dispatching) : seg.before.CountsOne seg.after := by
  cases h with
  | @call core op pausing n r managed valid mayPause rests =>
    obtain rfl : pausing = false := Op.pausing_eq_false hop mayPause
    exact ((Op.countsOne_call hop (s.machine.on core)).rests rests).1
  | @resume task older newer n r tasks rests =>
    have htask : task.Counts := hs task (by simp [tasks])
    exact ((htask hop (s.machine.on task.core)).rests rests).1

/-- and what is left of a dispatch counts no more than one in each of its segments. -/
theorem Step.counts (h : Step s seg s') (hs : ∀ task ∈ s.tasks, task.Counts) :
    ∀ task ∈ s'.tasks, task.Counts := by
  refine h.tasks hs (fun core op p n rest mayPause rests hop => ?_)
    fun task htask n rest rests hop => ?_
  · obtain rfl : p = false := Op.pausing_eq_false hop mayPause
    exact ((Op.countsOne_call hop (s.machine.on core)).rests rests).2 rest rfl
  · exact ((htask hop (s.machine.on task.core)).rests rests).2 rest rfl

/-- **One tick at a time**: no segment of a run counts two ticks of a core. -/
theorem Runs.countsOne (run : Runs ⟨m, []⟩ history s) :
    ∀ seg ∈ history, seg.before.CountsOne seg.after := by
  suffices h : (∀ task ∈ s.tasks, task.Counts) ∧
      ∀ seg ∈ history, seg.before.CountsOne seg.after from h.2
  induction run with
  | start => exact ⟨forall_tasks_start, fun _ h => (List.not_mem_nil h).elim⟩
  | @step history s s' seg run next ih =>
    have hseg : seg.Sound := (next.sound (run.sound forall_tasks_start).2).1
    refine ⟨next.counts ih.1, List.forall_mem_cons.mpr ⟨fun c => ?_, ih.2⟩⟩
    rcases hseg.ticks_cases c with heq | ⟨x, hop⟩ | hop
    · rw [heq]
      exact ⟨Nat.le_refl _, Nat.le_succ _⟩
    · exact hseg.countsOne_of_onTick hop c
    · exact next.countsOne ih.1 hop c

end System

end Nucleus
