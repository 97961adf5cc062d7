import Nucleus.Proofs.Change
import Nucleus.Proofs.Tables

/-!
# What changes leave alone

Most changes are made by going through threads and cores and adjusting them one at a time, however
many they are. `Kernel.Adjusts` is that relation: no thread or core appears or goes away, no core
is stopped, and events, wait entries and names are not touched. `Kernel.adjusts_apply` says that
all changes but those of the other tables are of this kind, so that what such adjustments leave
alone is found once.
-/

namespace Nucleus

variable {G : Guest}

/-- Is the change about threads that are there and cores only? -/
def Change.adjusts : Change G → Bool
  | .addThread _ | .addEvent _ | .setRaised _ _ | .setWaiters _ _ | .addWait _ | .updateWait _ _
  | .setObjects _ => false
  | _ => true

namespace Kernel

variable {k k' : Kernel G}

/-- Threads and cores are adjusted, one after the other. -/
inductive Adjusts (k : Kernel G) : Kernel G → Prop where
  /-- none is -/
  | refl : Adjusts k k
  /-- one more thread -/
  | thread {k' : Kernel G} (h : Adjusts k k') (t : ThreadId) (f : Thread G → Thread G) :
    Adjusts k (k'.updateThread t f)
  /-- one more core, which is not stopped -/
  | core {k' : Kernel G} (h : Adjusts k k') (c : CoreId) {f : Core G → Core G}
    (started : ∀ core, core.started = true → (f core).started = true) :
    Adjusts k (k'.updateCore c f)

namespace Adjusts

/-- Events are left alone. -/
theorem events (h : k.Adjusts k') : k'.events = k.events := by
  induction h with
  | refl => rfl
  | thread _ _ _ ih => exact ih
  | core _ _ _ ih => exact ih

/-- Wait entries are left alone. -/
theorem waits (h : k.Adjusts k') : k'.waits = k.waits := by
  induction h with
  | refl => rfl
  | thread _ _ _ ih => exact ih
  | core _ _ _ ih => exact ih

/-- Names are left alone. -/
theorem objects (h : k.Adjusts k') : k'.objects = k.objects := by
  induction h with
  | refl => rfl
  | thread _ _ _ ih => exact ih
  | core _ _ _ ih => exact ih

/-- The same cores are managed. -/
theorem manages (h : k.Adjusts k') (d : CoreId) : k'.manages d = k.manages d := by
  induction h with
  | refl => rfl
  | thread _ _ _ ih => exact ih
  | core _ c _ ih => exact (manages_updateCore _ c d _).trans ih

/-- No thread is made. -/
theorem length_threads (h : k.Adjusts k') : k'.threads.length = k.threads.length := by
  induction h with
  | refl => rfl
  | thread _ t f ih => exact (length_threads_updateThread _ t f).trans ih
  | core _ _ _ ih => exact ih

/-- A core that was started stays so. -/
theorem isStarted (h : k.Adjusts k') {d : CoreId} (hd : k.isStarted d = true) :
    k'.isStarted d = true := by
  induction h with
  | refl => exact hd
  | thread _ _ _ ih => exact ih
  | @core k' _ c f started ih =>
    simp only [Kernel.isStarted] at ih ⊢
    rcases k'.cores_updateCore_cases c d f with ⟨core, h, h'⟩ | h
    · rw [h] at ih
      rw [h']
      exact started core ih
    · rw [h]
      exact ih

/-- Queues of a core may change. -/
theorem queues (h : k.Adjusts k') (c : CoreId) (f : RunQueues → RunQueues) :
    k.Adjusts (k'.updateQueues c f) := h.core c fun _ => id

/-- Deferred calls of a core may change. -/
theorem dpcs (h : k.Adjusts k') (c : CoreId) (ds : List (Dpc G)) : k.Adjusts (k'.setDpcs c ds) :=
  h.core c fun _ => id

/-- A handler may be installed. -/
theorem handler (h : k.Adjusts k') (c : CoreId) (irq : SystemIrq) (handler : Handler G) :
    k.Adjusts (k'.setHandler c irq handler) := by
  refine h.core c fun core hs => ?_
  cases irq <;> exact hs

/-- A thread may be made ready, -/
theorem makeReady (h : k.Adjusts k') (c : CoreId) (t : ThreadId) : k.Adjusts (k'.makeReady c t) :=
  (h.thread t _).queues c _

/-- and so may any number of sleepers. -/
theorem makeAllReady (h : k.Adjusts k') (c : CoreId) (due : List Sleeper) :
    k.Adjusts (k'.makeAllReady c due) := by
  induction due generalizing k' with
  | nil => exact h
  | cons s due ih => exact ih (h.makeReady c s.thread)

/-- A thread may be switched in. -/
theorem switchTo (h : k.Adjusts k') (c : CoreId) (t : ThreadId) : k.Adjusts (k'.switchTo c t) :=
  (h.thread t _).queues c _

/-- A context may be saved into the thread in the slot. -/
theorem interruptRunning (h : k.Adjusts k') (c : CoreId) (context : Context) :
    k.Adjusts (k'.interruptRunning c context) := by
  unfold Kernel.interruptRunning
  split
  · exact h
  next t _ =>
    dsimp only
    split
    · exact (h.thread t _).thread t _
    · exact h.thread t _

/-- The running thread may be put aside. -/
theorem setAside (h : k.Adjusts k') (c : CoreId) (wake : Option Nat) :
    k.Adjusts (k'.setAside c wake) := by
  simp only [Kernel.setAside]
  split
  · exact h
  · exact (h.thread _ _).queues c _
  · exact (h.thread _ _).queues c _

/-- A thread may be started, -/
theorem startThread (h : k.Adjusts k') (c : CoreId) (t : ThreadId) :
    k.Adjusts (Effect.startThread c t k').1 := by
  simp only [Effect.startThread]
  split
  · exact h
  · split
    · exact (h.thread t _).makeReady c t
    · exact h

/-- be ended under the lock, -/
theorem terminate (h : k.Adjusts k') (c : CoreId) (t : ThreadId) : k.Adjusts (k'.terminate c t) :=
  (h.queues c _).thread t _

/-- and be ended as a whole. -/
theorem killThread (h : k.Adjusts k') (c : CoreId) (t : ThreadId) :
    k.Adjusts (Effect.killThread c t k').1 := by
  have hk : k.Adjusts ((k'.setOwner t none).terminate c t) := (h.thread t _).terminate c t
  simp only [Effect.killThread]
  split
  · dsimp only
    split
    · exact hk.dpcs c _
    · exact hk
  · exact h

/-- A core may switch. -/
theorem turn (h : k.Adjusts k') (c : CoreId) (context : Context) :
    k.Adjusts (Effect.yieldThread c context k').1 := by
  simp only [Effect.yieldThread, rotate]
  cases (k'.queues c).successor with
  | none => exact h
  | some next => exact (h.interruptRunning c context).switchTo c next

/-- A core may begin to schedule: it is marked as started, and its idle thread is brought in, -/
theorem prepare (h : k.Adjusts k') (c : CoreId) : k.Adjusts (Effect.prepare c k') := by
  have hmark : k.Adjusts (k'.updateCore c fun core => { core with started := true }) :=
    h.core c fun _ _ => rfl
  simp only [Effect.prepare, Effect.bringIdle]
  split
  · exact hmark
  · exact hmark.startThread c _

/-- the head of its rotation is switched in, and the tick handler is installed. -/
theorem install (h : k.Adjusts k') (c : CoreId) : k.Adjusts (Effect.install c k').1 := by
  simp only [Effect.install, Effect.switchFirst]
  cases (k'.queues c).ready.head? with
  | none => exact h
  | some next => exact (h.switchTo c next).handler c .systemTick (.tick c)

end Adjusts

/-- Such a change adjusts threads and cores. -/
theorem adjusts_of_adjusts {ch : Change G} (hch : ch.adjusts = true) : k.Adjusts (ch.apply k) := by
  have h : k.Adjusts k := .refl
  cases ch with
  | start c t => exact (h.thread t _).makeReady c t
  | kill c t => exact h.killThread c t
  | wake c t => exact (h.queues c _).makeReady c t
  | advance c =>
    -- a tick adjusts the core, and then every thread that is due
    dsimp only [Change.apply]
    rw [advance_eq]
    exact (h.queues c _).makeAllReady c _
  | turn c context => exact h.turn c context
  | bootstrap c => exact (h.prepare c).install c
  | adjust t f => exact h.thread t f
  | defer c d => exact h.dpcs c _
  | undefer c => exact h.dpcs c _
  | setHandler c irq handler => exact h.handler c irq handler
  | addThread | addEvent | setRaised | setWaiters | addWait | updateWait | setObjects => cases hch

/-- **What a change can be about.** It adjusts threads and cores, or it is about events, or it
leaves cores and events as they are. -/
theorem adjusts_apply (k : Kernel G) (ch : Change G) : k.Adjusts (ch.apply k) ∨
    (ch.apply k).cores = k.cores ∧ ((∃ autoReset, ch = .addEvent autoReset) ∨
      (∃ e b, ch = .setRaised e b) ∨ (∃ e q, ch = .setWaiters e q) ∨
        (ch.apply k).events = k.events) := by
  cases ch with
  | addEvent autoReset => exact .inr ⟨rfl, .inl ⟨autoReset, rfl⟩⟩
  | setRaised e b => exact .inr ⟨rfl, .inr (.inl ⟨e, b, rfl⟩)⟩
  | setWaiters e q => exact .inr ⟨rfl, .inr (.inr (.inl ⟨e, q, rfl⟩))⟩
  | addThread | addWait | updateWait | setObjects =>
    exact .inr ⟨rfl, .inr (.inr (.inr rfl))⟩
  | _ => exact .inl (adjusts_of_adjusts rfl)

/-- No change makes or unmakes a core. -/
theorem manages_apply (k : Kernel G) (ch : Change G) (d : CoreId) :
    (ch.apply k).manages d = k.manages d := by
  rcases k.adjusts_apply ch with h | ⟨h, -⟩
  · exact h.manages d
  · simp only [manages]
    rw [h]

/-- No change stops a core. -/
theorem isStarted_apply (k : Kernel G) (ch : Change G) {d : CoreId} (hd : k.isStarted d = true) :
    (ch.apply k).isStarted d = true := by
  rcases k.adjusts_apply ch with h | ⟨h, -⟩
  · exact h.isStarted hd
  · simp only [isStarted] at hd ⊢
    rw [h]
    exact hd

/-- Three changes are about events; all others leave the events alone. -/
theorem events_apply_cases (k : Kernel G) (ch : Change G) :
    (∃ autoReset, ch = .addEvent autoReset) ∨ (∃ e b, ch = .setRaised e b) ∨
      (∃ e q, ch = .setWaiters e q) ∨ (ch.apply k).events = k.events := by
  rcases k.adjusts_apply ch with h | ⟨-, h⟩
  · exact .inr (.inr (.inr h.events))
  · exact h

/-- Two changes are about wait entries, and only operations on events make them. -/
theorem waits_apply {k : Kernel G} {scope : Scope} {ch : Change G} (admitted : scope.Admits ch)
    (hs : ∀ e, scope ≠ .event e) : (ch.apply k).waits = k.waits := by
  cases ch with
  | addWait t =>
    obtain ⟨e, he⟩ := admitted
    exact absurd he (hs e)
  | updateWait w f =>
    obtain ⟨e, he⟩ := admitted
    exact absurd he (hs e)
  | addThread | addEvent | setRaised | setWaiters | setObjects => rfl
  | _ => exact (adjusts_of_adjusts rfl).waits

/-- One change is about names; all others leave the names alone. -/
theorem objects_apply {k : Kernel G} {ch : Change G} (h : ∀ objects, ch ≠ .setObjects objects) :
    (ch.apply k).objects = k.objects := by
  cases ch with
  | setObjects objects => exact absurd rfl (h objects)
  | addThread | addEvent | setRaised | setWaiters | addWait | updateWait => rfl
  | _ => exact (adjusts_of_adjusts rfl).objects

end Kernel

end Nucleus
