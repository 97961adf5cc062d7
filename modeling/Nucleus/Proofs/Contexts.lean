import Nucleus.Proofs.Interrupts

/-!
# Contexts along a run

Whatever the slot of a core holds when it is interrupted (a thread that sleeps, one that was woken
again from another core, one that was killed), the context that is saved is its own, and a thread is
resumed with the context of its last interruption: contexts are saved by interrupts only.

* `Kernel.SameContexts` is the frame of all changes that save no context.
* `Kernel.Made` says that whoever stands somewhere has been made.
* `Segment.KeepsContexts` is what a segment does with contexts, and `System.Step.keepsContexts`
  gives it for every segment that runs no client code at interrupt time.
* `resumed_where_interrupted` is about whole runs.
-/

namespace Nucleus

variable {G : Guest}

namespace Kernel

variable {k k' k₁ k₂ : Kernel G} {c d : CoreId} {t u : ThreadId}

/-! ## Changes that save no context -/

/-- Threads keep their contexts, and none goes away. -/
structure SameContexts (k k' : Kernel G) : Prop where
  /-- none goes away -/
  grows : k.threads.length ≤ k'.threads.length
  /-- contexts stay -/
  context : ∀ t < k.threads.length, k'.contextOf t = k.contextOf t

namespace SameContexts

theorem refl (k : Kernel G) : k.SameContexts k := ⟨Nat.le_refl _, fun _ _ => rfl⟩

theorem trans (h : k.SameContexts k₁) (h' : k₁.SameContexts k₂) : k.SameContexts k₂ :=
  ⟨Nat.le_trans h.grows h'.grows, fun t ht =>
    (h'.context t (Nat.lt_of_lt_of_le ht h.grows)).trans (h.context t ht)⟩

/-- Threads are the same, and so are their contexts. -/
theorem of_threads (h : k'.threads = k.threads) : k.SameContexts k' := by
  refine ⟨Nat.le_of_eq (congrArg _ h.symm), fun t _ => ?_⟩
  simp only [contextOf]
  rw [h]

/-- A thread changes in other respects. -/
theorem updateThread (k : Kernel G) (t : ThreadId) {f : Thread G → Thread G}
    (hf : ∀ th, (f th).context = th.context) : k.SameContexts (k.updateThread t f) :=
  ⟨Nat.le_of_eq (k.length_threads_updateThread t f).symm, fun u _ => k.contextOf_updateThread hf u⟩

/-- Contexts are no matter of states, -/
theorem setState (k : Kernel G) (t : ThreadId) (s : ThreadState) :
    k.SameContexts (k.setState t s) :=
  updateThread k t fun _ => rfl

/-- nor of owners. -/
theorem setOwner (k : Kernel G) (t : ThreadId) (o : Option CoreId) :
    k.SameContexts (k.setOwner t o) :=
  updateThread k t fun _ => rfl

/-- A thread that is made ready keeps its context. -/
theorem makeReady (k : Kernel G) (c : CoreId) (t : ThreadId) : k.SameContexts (k.makeReady c t) :=
  (setState k t .ready).trans (of_threads rfl)

/-- A new thread leaves the contexts of the others alone. -/
theorem addThread (k : Kernel G) (th : Thread G) : k.SameContexts (k.addThread th) := by
  refine ⟨?_, fun t ht => ?_⟩
  · rw [length_threads_addThread]
    exact Nat.le_succ _
  · rw [contextOf_addThread, if_neg (Nat.ne_of_lt ht)]

/-- Those who wake keep their contexts. -/
theorem advance (k : Kernel G) (c : CoreId) : k.SameContexts (k.advance c) :=
  ⟨Nat.le_of_eq (k.length_threads_advance c).symm, fun t _ => k.contextOf_advance c t⟩

/-- So does a thread that a core takes, -/
theorem start (k : Kernel G) (c : CoreId) (t : ThreadId) :
    k.SameContexts ((k.setOwner t (some c)).makeReady c t) :=
  (setOwner k t _).trans (makeReady _ c t)

/-- be it refused or not. -/
theorem startThread (k : Kernel G) (c : CoreId) (t : ThreadId) :
    k.SameContexts (Effect.startThread c t k).1 := by
  simp only [Effect.startThread]
  split
  · exact refl k
  · split
    · exact start k c t
    · exact refl k

/-- A thread that is ended keeps its context, -/
theorem killThread (k : Kernel G) (c : CoreId) (t : ThreadId) :
    k.SameContexts (Effect.killThread c t k).1 := by
  have hk : k.SameContexts ((k.setOwner t none).terminate c t) :=
    (setOwner k t none).trans ((setState _ t .terminated).trans (of_threads rfl))
  simp only [Effect.killThread]
  split
  · dsimp only
    split
    · exact hk.trans (of_threads rfl)
    · exact hk
  · exact refl k

/-- and so does one that is put aside. -/
theorem setAside (k : Kernel G) (c : CoreId) (wake : Option Nat) :
    k.SameContexts (k.setAside c wake) := by
  simp only [Kernel.setAside]
  split
  · exact refl k
  · exact (setState k _ _).trans (of_threads rfl)
  · exact (setState k _ _).trans (of_threads rfl)

/-- No context is saved where a core begins to schedule, -/
theorem prepare (k : Kernel G) (c : CoreId) : k.SameContexts (Effect.prepare c k) := by
  have hmark : k.SameContexts (k.updateCore c fun core => { core with started := true }) :=
    of_threads rfl
  simp only [Effect.prepare, Effect.bringIdle]
  split
  · exact hmark
  · exact hmark.trans (startThread _ c _)

/-- and none where the first thread is switched in. -/
theorem install (k : Kernel G) (c : CoreId) : k.SameContexts (Effect.install c k).1 := by
  simp only [Effect.install, Effect.switchFirst]
  cases (k.queues c).ready.head? with
  | none => exact refl k
  | some t => exact (setState k t .running).trans (of_threads rfl)

end SameContexts

/-- **Only a switch saves a context.** -/
theorem sameContexts_apply {ch : Change G} (hturn : ∀ c context, ch ≠ .turn c context)
    (hadjust : ∀ t f, ch = .adjust t f → ∀ th, (f th).context = th.context) :
    k.SameContexts (ch.apply k) := by
  cases ch with
  | start c u => exact .start k c u
  | kill c u => exact .killThread k c u
  | wake c u =>
    have hunparked : k.SameContexts (k.updateQueues c (·.unpark u)) := .of_threads rfl
    exact hunparked.trans (.makeReady _ c u)
  | advance c => exact .advance k c
  | turn c context => exact absurd rfl (hturn c context)
  | bootstrap c => exact (SameContexts.prepare k c).trans (.install _ c)
  | addThread th => exact .addThread k th
  | adjust u f => exact .updateThread k u (hadjust u f rfl)
  | defer | undefer | setHandler | addEvent | setRaised | setWaiters | addWait | updateWait
  | setObjects => exact .of_threads rfl

/-! ## Whoever stands somewhere has been made -/

/-- Whoever stands in a queue or in a slot has been made. -/
structure Made (k : Kernel G) : Prop where
  /-- queues hold threads that were made -/
  queue : ∀ c i t, 0 < k.count c i t → t < k.threads.length
  /-- and so do slots -/
  slot : ∀ c t, (k.queues c).running = some t → t < k.threads.length

namespace Made

/-- Queues are the same, and no thread is lost. -/
theorem of_queues (h : k.Made) (hq : ∀ d, k'.queues d = k.queues d)
    (hl : k.threads.length ≤ k'.threads.length) : k'.Made := by
  refine ⟨fun d i t ht => ?_, fun d t ht => ?_⟩
  · simp only [count] at ht
    rw [hq] at ht
    exact Nat.lt_of_lt_of_le (h.queue d i t ht) hl
  · rw [hq] at ht
    exact Nat.lt_of_lt_of_le (h.slot d t ht) hl

/-- A thread that has been made moves. -/
theorem moved {o : Option CoreId} {s : ThreadState} (h : k.Made) (hm : k.Moves k' u o s)
    (hu : u < k.threads.length) : k'.Made := by
  refine ⟨fun d i t ht => ?_, fun d t ht => ?_⟩ <;> rw [hm.length]
  · by_cases hut : u = t
    · exact hut ▸ hu
    · rw [hm.count_of_ne d i t hut] at ht
      exact h.queue d i t ht
  · rw [hm.running] at ht
    exact h.slot d t ht

/-- Cores change in other respects. -/
theorem updateCore (h : k.Made) (c : CoreId) {f : Core G → Core G}
    (hf : ∀ core, (f core).queues = core.queues) : (k.updateCore c f).Made :=
  h.of_queues (k.queues_updateCore hf) (Nat.le_refl _)

/-- Whoever is started has been made. -/
theorem startThread (h : k.Made) (hc : k.manages c = true) (u : ThreadId) :
    (Effect.startThread c u k).1.Made := by
  simp only [Effect.startThread]
  split
  · exact h
  next hs =>
    split
    · exact h.moved (moves_start hc u) (lt_length_of_stateOf hs)
    · exact h

/-- Nobody comes anywhere by the end of a thread. -/
theorem killThread (h : k.Made) (hc : k.manages c = true) (ho : k.ownerOf u = some c) :
    (Effect.killThread c u k).1.Made := by
  have hk := h.moved (moves_kill hc u) (lt_length_of_ownerOf ho)
  simp only [Effect.killThread]
  rw [if_pos ho]
  dsimp only
  split
  · exact hk.updateCore c fun _ => rfl
  · exact hk

/-- Whoever wakes has been asleep. -/
theorem advance (h : k.Made) (hc : k.manages c = true) : (k.advance c).Made := by
  refine ⟨fun d i t ht => ?_, fun d t ht => ?_⟩ <;> rw [length_threads_advance]
  · rw [count_advance k hc] at ht
    by_cases hdue : t ∈ DelayedQueue.threads (k.dueNext c)
    · exact h.queue c .delayed t (k.count_pos_iff.mpr (k.mem_delayed_of_dueNext hdue))
    · rw [List.count_eq_zero.mpr hdue] at ht
      refine h.queue d i t ?_
      simpa using ht
  · rw [running_advance] at ht
    exact h.slot d t ht

/-- A thread that has been made is switched in. -/
theorem switchTo (h : k.Made) (hc : k.manages c = true) (hu : u < k.threads.length) :
    (k.switchTo c u).Made := by
  have hl : (k.switchTo c u).threads.length = k.threads.length :=
    k.length_threads_updateThread u _
  refine ⟨fun d i t ht => ?_, fun d t ht => ?_⟩ <;> rw [hl]
  · rw [count_switchTo k hc] at ht
    exact h.queue d i t ht
  · rw [running_switchTo k hc] at ht
    split at ht
    · obtain rfl := Option.some.inj ht
      exact hu
    · exact h.slot d t ht

/-- Whoever is in a rotation has been made. -/
theorem of_mem_ready (h : k.Made) (hu : u ∈ (k.queues c).ready) : u < k.threads.length :=
  h.queue c .ready u (k.count_pos_iff.mpr hu)

/-- Whoever is switched in comes from the rotation, -/
theorem turn (h : k.Made) (c : CoreId) (x : Context) : (Effect.yieldThread c x k).1.Made := by
  rcases k.turn_cases c x with ⟨-, hk⟩ | ⟨next, hready, hc, hk⟩ <;> rw [hk]
  · exact h
  · have hl := (Adjusts.refl.interruptRunning (k := k) c x).length_threads
    have hi : (k.interruptRunning c x).Made :=
      h.of_queues (k.queues_interruptRunning c x) (Nat.le_of_eq hl.symm)
    exact hi.switchTo hc (hl.symm ▸ h.of_mem_ready hready)

/-- and so does the first thread. -/
theorem bootstrap (h : k.Made) (hc : k.manages c = true) :
    (Effect.install c (Effect.prepare c k)).1.Made := by
  have hmark : (k.updateCore c fun core => { core with started := true }).Made :=
    h.updateCore c fun _ => rfl
  have hprepared : (Effect.prepare c k).Made := by
    simp only [Effect.prepare, Effect.bringIdle]
    split
    · exact hmark
    · exact hmark.startThread ((k.manages_updateCore c c _).trans hc) _
  simp only [Effect.install, Effect.switchFirst]
  cases hu : ((Effect.prepare c k).queues c).ready.head? with
  | none => exact hprepared
  | some u =>
    have hready := List.mem_of_head? hu
    have hswitched :=
      hprepared.switchTo (manages_of_mem_ready hready) (hprepared.of_mem_ready hready)
    exact hswitched.updateCore c fun _ => rfl

/-- Every enabled change keeps that. -/
theorem apply (h : k.Made) {ch : Change G} (enabled : ch.Enabled k) : (ch.apply k).Made := by
  cases ch with
  | start c u => exact h.moved (moves_start enabled.1 u) (lt_length_of_stateOf enabled.2.1)
  | kill c u => exact h.killThread enabled.1 enabled.2
  | wake c u =>
    exact h.moved (moves_wake (manages_of_isParked enabled) u)
      (h.queue c _ u (k.count_pos_iff.mpr (RunQueues.mem_parkedIn enabled)))
  | advance c =>
    cases hc : k.manages c with
    | false =>
      dsimp only [Change.apply]
      rw [k.advance_of_not_manages hc]
      exact h
    | true => exact h.advance hc
  | turn c context => exact h.turn c context
  | bootstrap c => exact h.bootstrap enabled.1
  | addThread th =>
    refine h.of_queues (fun _ => rfl) ?_
    dsimp only [Change.apply]
    rw [length_threads_addThread]
    exact Nat.le_succ _
  | adjust u f =>
    exact h.of_queues (fun _ => rfl) (Nat.le_of_eq (k.length_threads_updateThread u f).symm)
  | defer | undefer => exact h.updateCore _ fun _ => rfl
  | setHandler c irq handler => exact h.updateCore c fun _ => by cases irq <;> rfl
  | addEvent | setRaised | setWaiters | addWait | updateWait | setObjects =>
    exact h.of_queues (fun _ => rfl) (Nat.le_refl _)

/-- Whoever is put aside was in the slot. -/
theorem setAside (h : k.Made) (c : CoreId) (wake : Option Nat) : (k.setAside c wake).Made := by
  cases hr : (k.queues c).running with
  | none =>
    simp only [Kernel.setAside]
    rw [hr]
    exact h
  | some u => exact h.moved (moves_setAside hr) (h.slot c u hr)

end Made

/-- Nobody stands anywhere after a boot. -/
theorem Fresh.made (h : k.Fresh) : k.Made := by
  refine ⟨fun c i t ht => ?_, fun c t ht => ?_⟩
  · simp only [count] at ht
    rw [h.queues] at ht
    cases i <;> cases ht
  · rw [h.queues] at ht
    cases ht

end Kernel

/-- A segment keeps that. -/
theorem Segment.Sound.made {seg : Segment G} (hseg : seg.Sound) (h : seg.before.Made) :
    seg.after.Made := by
  obtain ⟨k, path, hk⟩ := hseg.exists_path
  refine path.keeps (fun _ _ _ enabled h => h.apply enabled) ?_
  rcases hk with rfl | ⟨c, wake, -, rfl⟩
  · exact h
  · exact h.setAside c wake

/-! ## What a segment interrupts -/

namespace Op

/-- The handler that an operation on core `here` delivers an interrupt to, and the context that is
interrupted. -/
def delivers (k : Kernel G) (here : CoreId) : Op G → Option (Handler G × Context)
  | dispatch _ c irq x => (k.handler? c irq).map (·, x)
  | dispatchHere _ irq x => (k.handler? here irq).map (·, x)
  | _ => none

/-- The core that an operation on core `here` interrupts, and the context that is interrupted. A
delivery that finds nothing to drain interrupts nobody. -/
def interruption (k : Kernel G) (here : CoreId) : Op G → Option (CoreId × Context)
  | yieldThread c x | onTick c x => some (c, x)
  | op => (op.delivers k here).bind fun p => (p.1.switches k).map (·, p.2)

/-- The context that an operation with this answer resumes. -/
def resumes : (op : Op G) → op.Result → Option Context
  | yieldThread .., x => some x
  | onTick .., x => some x
  | dispatch .., .resume x => some x
  | dispatchHere .., .resume x => some x
  | bootstrap _, .ok x => some x
  | _, _ => none

end Op

namespace Segment

/-- The handler that the segment delivers an interrupt to, and the context that is interrupted. -/
def delivery (seg : Segment G) : Option (Handler G × Context) := seg.op.delivers seg.before seg.core

/-- The core that the segment interrupts, and the context that is interrupted. -/
def interruption (seg : Segment G) : Option (CoreId × Context) :=
  seg.op.interruption seg.before seg.core

/-- The context in which the segment interrupts a thread: it finds the thread in the slot. -/
def interrupts (seg : Segment G) (t : ThreadId) : Option Context :=
  seg.interruption.bind fun (c, x) =>
    if (seg.before.queues c).running = some t then some x else none

/-- The context that the segment resumes. -/
def resumption (seg : Segment G) : Option Context := seg.answer.bind seg.op.resumes

/-- The segment resumes the thread that is in the slot of the core afterwards, with the context that
is saved in it. -/
def Resumes (seg : Segment G) (c : CoreId) : Prop :=
  ∃ u, (seg.after.queues c).running = some u ∧ seg.resumption = some (seg.after.contextOf u)

/-- The segment runs no client code at interrupt time: an interrupt that it delivers finds deferred
reschedules only, or a tick. -/
def Regular (seg : Segment G) : Prop :=
  seg.op.scope = .dispatching → seg.first = true ∧ ∀ p ∈ seg.delivery, p.1.Regular seg.before

instance (seg : Segment G) : Decidable seg.Regular :=
  inferInstanceAs (Decidable (seg.op.scope = .dispatching →
    seg.first = true ∧ ∀ p ∈ seg.delivery, p.1.Regular seg.before))

/-- **What a segment does with contexts.** -/
structure KeepsContexts (seg : Segment G) : Prop where
  /-- no thread goes away -/
  grows : seg.before.threads.length ≤ seg.after.threads.length
  /-- a thread has the context in which it was interrupted, if it was, and the one it had if not -/
  saved : ∀ t < seg.before.threads.length,
    seg.after.contextOf t = (seg.interrupts t).getD (seg.before.contextOf t)
  /-- an interrupt resumes who is switched in -/
  resumed : ∀ c x, seg.interruption = some (c, x) → seg.Resumes c
  /-- and so does a bootstrap -/
  booted : ∀ c, seg.bootstrapped = some c → seg.Resumes c
  /-- a delivery that interrupts nobody resumes what it was given, and changes nothing -/
  undisturbed : ∀ h x, seg.delivery = some (h, x) → h.switches seg.before = none →
    seg.after = seg.before ∧ seg.resumption = some x

variable {seg : Segment G} {c : CoreId} {x y : Context}

namespace KeepsContexts

/-- A segment that interrupts a core. -/
theorem of_interrupted (hi : seg.interruption = some (c, x)) (hb : seg.bootstrapped = none)
    (hd : ∀ h x, seg.delivery = some (h, x) → h.switches seg.before ≠ none)
    (hr : seg.resumption = some y) (h : seg.before.Interrupted c x seg.after y) :
    seg.KeepsContexts where
  grows := Nat.le_of_eq h.length.symm
  saved t ht := by
    rw [h.context t ht, interrupts, hi]
    dsimp only [Option.bind_some]
    split <;> rfl
  resumed d x' hi' := by
    obtain ⟨u, hu, rfl⟩ := h.slot
    cases hi.symm.trans hi'
    exact ⟨u, hu, hr⟩
  booted d hd := nomatch hb.symm.trans hd
  undisturbed h x hdel hnone := absurd hnone (hd h x hdel)

/-- A segment that interrupts nobody and saves no context. -/
theorem of_sameContexts (hi : seg.interruption = none) (hb : ∀ c, seg.bootstrapped = some c →
    seg.Resumes c) (hd : ∀ h x, seg.delivery = some (h, x) →
      seg.after = seg.before ∧ seg.resumption = some x)
    (h : seg.before.SameContexts seg.after) : seg.KeepsContexts where
  grows := h.grows
  saved t ht := by
    rw [h.context t ht, interrupts, hi]
    rfl
  resumed d x hi' := nomatch hi.symm.trans hi'
  booted := hb
  undisturbed h x hdel _ := hd h x hdel

end KeepsContexts

namespace Sound

/-- A segment of an operation that neither switches nor delivers saves no context. -/
theorem sameContexts (hseg : seg.Sound) (hturn : ∀ c, seg.op.scope ≠ .turning c)
    (hdispatch : seg.op.scope ≠ .dispatching) : seg.before.SameContexts seg.after := by
  obtain ⟨k, path, hk⟩ := hseg.exists_path
  refine path.keeps (I := fun k => seg.before.SameContexts k) (fun k ch hch _ hI => ?_) ?_
  · refine hI.trans (Kernel.sameContexts_apply ?_ ?_)
    · rintro c context rfl
      exact hch.1.elim (hturn c) hdispatch
    · rintro t f rfl
      exact hch.2
  · rcases hk with rfl | ⟨c, wake, -, rfl⟩
    · exact .refl _
    · exact .setAside _ c wake

/-- A bootstrap resumes the thread that it switches in. -/
theorem resumes_of_bootstrapped (hseg : seg.Sound) (h : seg.bootstrapped = some c) :
    seg.Resumes c := by
  cases hseg with
  | @whole core op f k managed valid effect =>
    cases op with
    | bootstrap d =>
      cases effect
      simp only [Segment.bootstrapped, Option.bind_some] at h
      cases hb : (Effect.bootstrap d k).2 with
      | error why =>
        rw [hb] at h
        cases h
      | ok x =>
        rw [hb] at h
        obtain rfl : d = c := Option.some.inj h
        obtain ⟨u, hu, rfl⟩ := Effect.bootstrap_ok valid hb
        exact ⟨u, hu, rfl⟩
    | _ => cases h
  | @client core op first k k' answer noEffect path =>
    cases op with
    | bootstrap d => cases noEffect
    | _ => cases answer <;> cases h
  | paused => cases h
  | resumed => cases h

/-- A segment of an operation that neither switches nor delivers. -/
theorem keepsContexts (hseg : seg.Sound) (hturn : ∀ c, seg.op.scope ≠ .turning c)
    (hdispatch : seg.op.scope ≠ .dispatching) : seg.KeepsContexts := by
  have hdelivery : seg.op.delivers seg.before seg.core = none := by
    cases hop : seg.op with
    | dispatch | dispatchHere =>
      rw [hop] at hdispatch
      exact absurd rfl hdispatch
    | _ => rfl
  have hinterruption : seg.interruption = none := by
    simp only [interruption]
    cases hop : seg.op with
    | yieldThread c | onTick c =>
      have hc := hturn c
      rw [hop] at hc
      exact absurd rfl hc
    | dispatch | dispatchHere =>
      rw [hop] at hdispatch
      exact absurd rfl hdispatch
    | _ => rfl
  refine .of_sameContexts hinterruption (fun c => hseg.resumes_of_bootstrapped)
    (fun h x hdel => ?_) (hseg.sameContexts hturn hdispatch)
  exact nomatch hdelivery.symm.trans hdel

end Sound

end Segment

/-- What a dispatch does to the kernel state, by the handler that it finds. -/
theorem Call.rests_dispatch {fuel : Nat} {c : CoreId} {irq : SystemIrq} {x : Context}
    {m n : Machine G} {r : Dispatch ⊕ Call G Dispatch}
    (regular : ∀ h ∈ m.kernel.handler? c irq, h.Regular m.kernel)
    (hr : (dispatch fuel c irq x m).Rests false n r) :
    (m.kernel.handler? c irq = none ∧ n.kernel = m.kernel ∧ r = .inl (.fatal irq)) ∨
    ∃ h y, m.kernel.handler? c irq = some h ∧ r = .inl (.resume y) ∧
      m.kernel.Handled x n.kernel y (h.switches m.kernel) := by
  simp only [dispatch] at hr
  rw [bind_of_done (read_apply _ m)] at hr
  cases hh : m.kernel.handler? c irq with
  | none =>
    rw [hh] at hr
    obtain ⟨rfl, rfl⟩ := Run.rests_done.mp hr
    exact .inl ⟨rfl, rfl, rfl⟩
  | some h =>
    rw [hh] at hr
    rcases Run.rests_bind.mp hr with ⟨n', y, hrun, hr⟩ | ⟨rest, hrun, -⟩
    · obtain ⟨rfl, rfl⟩ := Run.rests_done.mp hr
      obtain ⟨_, hy, handled⟩ := rests_runHandler (regular h hh) hrun
      obtain rfl := Sum.inl.inj hy
      exact .inr ⟨h, y, rfl, rfl, handled⟩
    · obtain ⟨_, hy, -⟩ := rests_runHandler (regular h hh) hrun
      cases hy

/-- **A delivery** to a handler that runs no client code, or to none. -/
theorem Segment.keepsContexts_of_delivery {core : CoreId} {op : Op G} {k k' : Kernel G}
    {answer : op.Result} {x : Context} {o : Option (Handler G)}
    (hd : op.delivers k core = o.map (·, x))
    (hi : op.interruption k core = (op.delivers k core).bind fun p => (p.1.switches k).map (·, p.2))
    (hb : op.bootstraps answer = none)
    (handled : (o = none ∧ k' = k) ∨ ∃ h y, o = some h ∧ op.resumes answer = some y ∧
      k.Handled x k' y (h.switches k)) :
    KeepsContexts ⟨core, op, true, k, k', some answer⟩ := by
  have hboot {c : CoreId} (hc : bootstrapped ⟨core, op, true, k, k', some answer⟩ = some c) :
      Resumes ⟨core, op, true, k, k', some answer⟩ c := nomatch hb.symm.trans hc
  rw [hd] at hi
  rcases handled with ⟨rfl, rfl⟩ | ⟨h, y, rfl, hr, handled⟩
  · exact .of_sameContexts hi (fun _ => hboot) (fun _ _ hd' => nomatch hd.symm.trans hd') (.refl _)
  · simp only [Option.map_some, Option.bind_some] at hd hi
    cases hs : h.switches k with
    | some d =>
      rw [hs] at hi handled
      refine .of_interrupted hi hb (fun h' x' hd' => ?_) hr handled
      cases hd.symm.trans hd'
      exact hs ▸ Option.some_ne_none d
    | none =>
      rw [hs] at hi handled
      obtain ⟨rfl, rfl⟩ := handled
      refine .of_sameContexts hi (fun _ => hboot) (fun h' x' hd' => ?_) (.refl _)
      cases hd.symm.trans hd'
      exact ⟨rfl, hr⟩

namespace System

variable {s s' : System G} {seg : Segment G}

/-- **One step.** -/
theorem Step.keepsContexts (step : Step s seg s') (hs : ∀ task ∈ s.tasks, task.Sound)
    (regular : seg.Regular) : seg.KeepsContexts := by
  have hsound := (step.sound hs).1
  cases step with
  | @call core op pausing m r managed valid mayPause rests =>
    cases pausing with
    | true =>
      cases op with
      | enqueueWait e span => exact hsound.keepsContexts nofun nofun
      | _ => exact (mayPause rfl).elim
    | false =>
      cases op with
      | yieldThread c x =>
        obtain ⟨y, rfl, hk⟩ := Call.rests_yieldThread rests
        exact .of_interrupted rfl rfl nofun rfl hk
      | onTick c x =>
        obtain ⟨y, rfl, hk⟩ := Call.rests_onTick rests
        exact .of_interrupted rfl rfl nofun rfl hk
      | dispatch fuel c irq x =>
        have hregular : ∀ h ∈ s.machine.kernel.handler? c irq, h.Regular s.machine.kernel :=
          fun h hh => (regular rfl).2 (h, x) (Option.map_eq_some_iff.mpr ⟨h, hh, rfl⟩)
        rcases Call.rests_dispatch (m := s.machine.on core) hregular rests with
          ⟨hh, hk, rfl⟩ | ⟨h, y, hh, rfl, handled⟩
        · exact Segment.keepsContexts_of_delivery rfl rfl rfl (.inl ⟨hh, hk⟩)
        · exact Segment.keepsContexts_of_delivery rfl rfl rfl (.inr ⟨h, y, hh, rfl, handled⟩)
      | dispatchHere fuel irq x =>
        have hregular : ∀ h ∈ s.machine.kernel.handler? core irq, h.Regular s.machine.kernel :=
          fun h hh => (regular rfl).2 (h, x) (Option.map_eq_some_iff.mpr ⟨h, hh, rfl⟩)
        have hcore := Call.currentCore_apply (m := s.machine.on core) managed
        change (((Call.currentCore >>= fun c => Call.dispatch fuel c irq x) :
          Call G Dispatch) (s.machine.on core)).Rests false m r at rests
        rw [Call.bind_of_done hcore] at rests
        rcases Call.rests_dispatch (m := s.machine.on core) hregular rests with
          ⟨hh, hk, rfl⟩ | ⟨h, y, hh, rfl, handled⟩
        · exact Segment.keepsContexts_of_delivery rfl rfl rfl (.inl ⟨hh, hk⟩)
        · exact Segment.keepsContexts_of_delivery rfl rfl rfl (.inr ⟨h, y, hh, rfl, handled⟩)
      | _ => exact hsound.keepsContexts nofun nofun
  | @resume task older newer m r tasks rests =>
    have hdispatch : task.op.scope ≠ .dispatching := fun hscope => nomatch (regular hscope).1
    refine hsound.keepsContexts (fun c hturn => ?_) hdispatch
    -- an operation that switches a core is never left in progress
    have htask : task.Sound := hs task (by simp [tasks])
    obtain ⟨core, op, rest⟩ := task
    cases htask with
    | client noEffect _ =>
      cases op with
      | yieldThread | onTick => cases noEffect
      | _ => cases hturn
    | wait => cases hturn

variable {s₀ : System G} {history : List (Segment G)}

/-- Along a run whoever stands somewhere has been made. -/
theorem Runs.made (run : Runs s₀ history s) (h₀ : ∀ task ∈ s₀.tasks, task.Sound)
    (hk : s₀.machine.kernel.Made) :
    s.machine.kernel.Made ∧ ∀ seg ∈ history, seg.before.Made ∧ seg.after.Made :=
  run.keeps (P := fun _ => True) h₀ (fun _ _ => trivial) (fun _ _ hseg h => hseg.made h) hk

end System

/-- The segment makes the thread. -/
def Segment.Makes (seg : Segment G) (t : ThreadId) : Prop :=
  seg.before.threads.length ≤ t ∧ t < seg.after.threads.length

instance (seg : Segment G) (t : ThreadId) : Decidable (seg.Makes t) :=
  inferInstanceAs (Decidable (_ ∧ _))

/-- The context in which a thread was last interrupted in a history that begins at `k`; the context
it was made with, or had in the beginning, if it was not. -/
def Kernel.lastContext (k : Kernel G) (t : ThreadId) : List (Segment G) → Context
  | [] => k.contextOf t
  | seg :: history =>
    match seg.interrupts t with
    | some x => x
    | none => if seg.Makes t then seg.after.contextOf t else k.lastContext t history

/-- **One segment** leaves every thread with the context of its last interruption. -/
theorem Segment.KeepsContexts.contextOf_eq {seg : Segment G} (h : seg.KeepsContexts)
    (hmade : seg.before.Made) {k : Kernel G} {history : List (Segment G)}
    (hlast : ∀ t, seg.before.contextOf t = k.lastContext t history) (t : ThreadId) :
    seg.after.contextOf t = k.lastContext t (seg :: history) := by
  simp only [Kernel.lastContext]
  cases hi : seg.interrupts t with
  | some x =>
    -- who is found in a slot has been made
    obtain ⟨⟨c, x'⟩, hc, hslot⟩ := Option.bind_eq_some_iff.mp hi
    dsimp only at hslot
    split at hslot
    next hr => rw [h.saved t (hmade.slot c t hr), hi, Option.getD_some]
    next => cases hslot
  | none =>
    dsimp only
    split
    · rfl
    next hnot =>
      rw [← hlast]
      rcases Nat.lt_or_ge t seg.before.threads.length with hlt | hge
      · rw [h.saved t hlt, hi, Option.getD_none]
      · have hge' : seg.after.threads.length ≤ t := Nat.not_lt.mp fun hlt => hnot ⟨hge, hlt⟩
        rw [seg.before.contextOf_eq_zero_of_le hge, seg.after.contextOf_eq_zero_of_le hge']

namespace System

variable {s₀ s : System G} {history : List (Segment G)}

/-- **A whole run.** -/
theorem Runs.keepsContexts (run : Runs s₀ history s) (h₀ : ∀ task ∈ s₀.tasks, task.Sound)
    (hk : s₀.machine.kernel.Made) (regular : ∀ seg ∈ history, seg.Regular) :
    (∀ t, s.machine.kernel.contextOf t = s₀.machine.kernel.lastContext t history) ∧
    ∀ newer seg older, history = newer ++ seg :: older → seg.KeepsContexts ∧
      ∀ t, seg.after.contextOf t = s₀.machine.kernel.lastContext t (seg :: older) := by
  induction run with
  | start => exact ⟨fun _ => rfl, fun newer seg older h => by simp at h⟩
  | @step history s s' seg run next ih =>
    obtain ⟨hregular, hpast⟩ := List.forall_mem_cons.mp regular
    obtain ⟨hlast, hall⟩ := ih hpast
    obtain ⟨hbefore, hafter⟩ := next.kernels
    have hkeeps : seg.KeepsContexts := next.keepsContexts (run.sound h₀).2 hregular
    have hseg (t : ThreadId) :
        seg.after.contextOf t = s₀.machine.kernel.lastContext t (seg :: history) := by
      refine hkeeps.contextOf_eq ?_ ?_ t <;> rw [hbefore]
      · exact (run.made h₀ hk).1
      · exact hlast
    refine ⟨fun t => hafter ▸ hseg t, fun newer g older hsplit => ?_⟩
    cases newer with
    | nil =>
      cases hsplit
      exact ⟨hkeeps, hseg⟩
    | cons g' newer =>
      cases hsplit
      exact hall newer g older rfl

end System

/-- **Threads are resumed where they were interrupted.** Take a run from a boot that leaves no lock
held, and from some point on let no client code be run at interrupt time. From there on, each tick,
each yield and each delivery of reschedules resumes the thread in the slot with the context that is
saved in it, and saves the context that was interrupted into the thread that it found in the slot;
on a core that was started there always is one. Nothing else saves a context, and a delivery that
finds nothing to drain changes nothing. So every thread has the context of its last interruption, or
the one it was made with or had at that point. And where the rotation is not empty these operations
do return. -/
theorem resumed_where_interrupted {m : Machine G} {s₁ s : System G} {past later : List (Segment G)}
    (booted : m.Booted) (free : m.chip.held = []) (reached : System.Runs ⟨m, []⟩ past s₁)
    (run : System.Runs s₁ later s) (regular : ∀ seg ∈ later, seg.Regular) :
    (∀ newer seg older, later = newer ++ seg :: older →
      seg.KeepsContexts ∧
      (∀ t, seg.after.contextOf t = s₁.machine.kernel.lastContext t (seg :: older)) ∧
      (∀ c u, (seg.after.queues c).running = some u → u < seg.after.threads.length) ∧
      ∀ c x, seg.interruption = some (c, x) →
        (∃ boot ∈ older ++ past, boot.bootstrapped = some c) →
          ∃ t, (seg.before.queues c).running = some t ∧ seg.after.contextOf t = x) ∧
    ∀ (core : CoreId) (op : Op G), s.machine.kernel.manages core = true →
      op.Finishes s.machine.kernel core → (op.call (s.machine.on core)).Returns := by
  have h₀ : ∀ task ∈ (⟨m, []⟩ : System G).tasks, task.Sound := System.forall_tasks_start
  have hsound := (reached.sound h₀).2
  have hmade := (reached.made h₀ booted.fresh.made).1
  obtain ⟨-, hkeeps⟩ := run.keepsContexts hsound hmade regular
  refine ⟨fun newer seg older hsplit => ?_, fun core op managed hop => ?_⟩
  · obtain ⟨hseg, hlast⟩ := hkeeps newer seg older hsplit
    have hmem : seg ∈ later := by simp [hsplit]
    obtain ⟨hbefore, hafter⟩ := (run.made hsound hmade).2 seg hmem
    refine ⟨hseg, hlast, hafter.slot, fun c x hi ⟨boot, hboot, hc⟩ => ?_⟩
    -- the slot of a core that was started is not empty where the segment begins
    obtain ⟨s₂, hthrough, -⟩ := (hsplit ▸ run).split
    cases hthrough with
    | @step _ s₂ _ _ hearlier next =>
      have hslot := (reached.trans hearlier).occupied h₀ hboot hc
      rw [← next.kernels.1] at hslot
      obtain ⟨t, ht⟩ := Option.ne_none_iff_exists'.mp hslot
      refine ⟨t, ht, ?_⟩
      have hinterrupts : seg.interrupts t = some x := by
        simp only [Segment.interrupts]
        rw [hi, Option.bind_some, if_pos ht]
      rw [hseg.saved t (hbefore.slot c t ht), hinterrupts, Option.getD_some]
  · have hunlocked := (reached.trans run).unlocked (System.unlocked_start free)
    exact Op.returns_of_finishes (m := s.machine.on core) hunlocked.held managed hop

/-- Three yields are asked for and delivered at once, so that the rotation wraps; then the thread is
put aside and woken again before its reschedule is delivered, and a tick comes in between. The idle
thread, which was switched in and out without running, is first resumed in its first context. -/
theorem worker_resumed_where_interrupted : ∃ m past s later s',
    Machine.boot? {} {} = some m ∧ System.play ⟨m, []⟩ oneRunning = some (past, s) ∧
    s.play [(0, .delay 0 .zero), (0, .delay 0 .zero), (0, .delay 0 .zero),
      (0, .dispatch 9 0 .coreNotification 100), (0, .onTick 0 200), (0, .delay 0 (.ofMillis 10)),
      (0, .undelay 0 1), (0, .onTick 0 300), (0, .dispatch 9 0 .coreNotification 400)] =
      some (later, s') ∧
    later.map (·.resumption) =
      [some 300, some 200, none, none, some 100, some 1, none, none, none] ∧
    (∀ seg ∈ later, seg.KeepsContexts ∧ ∀ x, seg.interruption = some (0, x) →
      ∃ t, (seg.before.queues 0).running = some t ∧ seg.after.contextOf t = x) ∧
    ((Op.yieldThread 0 500 : Op ⟨Unit, Unit⟩).call (s'.machine.on 0)).Returns := by
  obtain ⟨m, past, s, later, s', hm, hfirst, hsecond, htest⟩ := System.exists_play {} {} oneRunning
    [(0, .delay 0 .zero), (0, .delay 0 .zero), (0, .delay 0 .zero),
      (0, .dispatch 9 0 .coreNotification 100), (0, .onTick 0 200), (0, .delay 0 (.ofMillis 10)),
      (0, .undelay 0 1), (0, .onTick 0 300), (0, .dispatch 9 0 .coreNotification 400)]
    (fun past _ later s' => decide (
      later.map (·.resumption) =
        [some 300, some 200, none, none, some 100, some 1, none, none, none] ∧
      (∃ boot ∈ past, boot.bootstrapped = some 0) ∧ (∀ seg ∈ later, seg.Regular) ∧
      (s'.machine.kernel.manages 0 = true ∧ (s'.machine.kernel.queues 0).ready ≠ [])))
    (by decide +kernel)
  obtain ⟨hresumed, ⟨boot, hboot, hc⟩, hregular, hmanaged, hready⟩ := of_decide_eq_true htest
  obtain ⟨hsegs, hreturns⟩ := resumed_where_interrupted (Machine.booted_of_boot? hm)
    (Machine.held_of_boot? hm) (System.runs_of_play hfirst) (System.runs_of_play hsecond) hregular
  refine ⟨m, past, s, later, s', hm, hfirst, hsecond, hresumed, fun seg hseg => ?_,
    hreturns 0 (.yieldThread 0 500) hmanaged hready⟩
  obtain ⟨newer, older, hsplit⟩ := List.append_of_mem hseg
  obtain ⟨hkeeps, -, -, hsaved⟩ := hsegs newer seg older hsplit
  exact ⟨hkeeps, fun x hx => hsaved 0 x hx ⟨boot, List.mem_append_right _ hboot, hc⟩⟩

end Nucleus
