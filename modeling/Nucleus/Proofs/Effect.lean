import Nucleus.Naming
import Nucleus.Proofs.Segment

/-!
# What calls do to the kernel state

Most calls of the kernel run no client code, and by themselves they are functions of the kernel
state: locks, masking, the log and the chip decide only whether they return. `Effect` is the type
of such functions, `Call.Does` says that a call has an effect, and the rules below it build the
effect of a call from the effects of its parts.

The namespace `Effect` holds the effect of every operation of schedulers, threads and events,
under the name of the call, and `Call.does_startThread` and so on say that these are the effects.
A call that halts has every effect, so an effect says nothing where the call halts.
-/

namespace Nucleus

variable {G : Guest} {α β : Type}

/-- What a call does to the kernel state, and its answer. -/
abbrev Effect (G : Guest) (α : Type) : Type := Kernel G → Kernel G × α

namespace Call

/-- By itself on core `here`, the call returns with the effect `f`, if it returns. -/
def Does (here : CoreId) (x : Call G α) (f : Effect G α) : Prop :=
  ∀ ⦃m n : Machine G⦄ ⦃r : α ⊕ Call G α⦄, m.chip.current = here → (x m).Rests false n r →
    n.chip.current = here ∧ n.kernel = (f m.kernel).1 ∧ r = .inl (f m.kernel).2

variable {here : CoreId} {x : Call G α} {f : Effect G α}

/-- The effect of a call may be replaced by an equal one. -/
theorem Does.congr {g : Effect G α} (hx : x.Does here f) (hfg : ∀ k, f k = g k) :
    x.Does here g := by
  obtain rfl : f = g := funext hfg
  exact hx

/-- A call with an effect guarantees what the effect has. -/
theorem Does.guarantees {R : Machine G → Machine G → Prop} {m : Machine G} (hx : x.Does here f)
    (hm : m.chip.current = here) (hR : ∀ n, n.kernel = (f m.kernel).1 → R m n) :
    (x m).Guarantees R m := by
  refine Run.guarantees_of_rests fun n r hr => ?_
  obtain ⟨-, hn, rfl⟩ := hx hm hr
  exact ⟨hR n hn, _, rfl⟩

/-! ## Rules -/

/-- A call that returns at once changes nothing. -/
theorem does_pure (a : α) : (pure a : Call G α).Does here fun k => (k, a) := by
  intro m n r hm hr
  obtain ⟨rfl, rfl⟩ := Run.rests_done.mp hr
  exact ⟨hm, rfl, rfl⟩

/-- One call after the other: the second starts from what the first has left. -/
theorem does_bind {g : α → Call G β} {h : α → Effect G β} (hx : x.Does here f)
    (hg : ∀ a, (g a).Does here (h a)) : (x >>= g).Does here fun k => h (f k).2 (f k).1 := by
  intro m n r hm hr
  rcases Run.rests_bind.mp hr with ⟨m', a, hx', hg'⟩ | ⟨rest, hx', -⟩
  · obtain ⟨hm', hk, ha⟩ := hx hm hx'
    obtain rfl := Sum.inl.inj ha
    have := hg _ hm' hg'
    rwa [hk] at this
  · obtain ⟨-, -, ha⟩ := hx hm hx'
    cases ha

/-- A look changes nothing. -/
theorem does_read (f : Kernel G → α) : (read f).Does here fun k => (k, f k) := by
  intro m n r hm hr
  obtain ⟨rfl, rfl⟩ := Run.rests_done.mp hr
  exact ⟨hm, rfl, rfl⟩

/-- A change of the kernel state does what it says. -/
theorem does_change (f : Kernel G → Kernel G) : (change f).Does here fun k => (f k, ()) := by
  intro m n r hm hr
  obtain ⟨rfl, rfl⟩ := Run.rests_done.mp hr
  exact ⟨hm, rfl, rfl⟩

/-- The kernel state is no matter of the chip. -/
theorem does_command {f : Chip Lock → Chip Lock} (hf : ∀ chip, (f chip).current = chip.current) :
    (command f : Call G Unit).Does here fun k => (k, ()) := by
  intro m n r hm hr
  obtain ⟨rfl, rfl⟩ := Run.rests_done.mp hr
  exact ⟨(hf m.chip).trans hm, rfl, rfl⟩

/-- Nor is it one of the log. -/
theorem does_note (notice : Notice) : (note notice : Call G Unit).Does here fun k => (k, ()) := by
  intro m n r hm hr
  obtain ⟨rfl, rfl⟩ := Run.rests_done.mp hr
  exact ⟨hm, rfl, rfl⟩

/-- Of a call that never returns anything can be said. -/
theorem does_stop (why : Halt) (f : Effect G α) : (stop why : Call G α).Does here f :=
  fun _ _ _ _ hr => (Run.rests_halt.mp hr).elim

/-- A window with nobody at it changes nothing. -/
theorem does_pause (w : Window) : (pause w : Call G Unit).Does here fun k => (k, ()) := by
  intro m n r hm hr
  rw [pause_apply, Run.rests_window] at hr
  obtain ⟨rfl, rfl⟩ := Run.rests_done.mp hr
  exact ⟨hm, rfl, rfl⟩

/-- A choice does what the branch that is taken does. -/
theorem does_ite {b : Prop} [Decidable b] {y : Call G α} {g : Effect G α}
    (hx : b → x.Does here f) (hy : ¬ b → y.Does here g) :
    (if b then x else y).Does here (if b then f else g) := by
  split
  · exact hx ‹_›
  · exact hy ‹_›

/-- Lock flags are no part of the kernel state. -/
theorem does_acquire (l : Lock) : (acquire l : Call G Unit).Does here fun k => (k, ()) := by
  intro m n r hm hr
  by_cases hl : l ∈ m.chip.held
  · rw [acquire_apply_of_mem hl] at hr
    exact (Run.rests_halt.mp hr).elim
  · rw [acquire_apply_of_not_mem hl] at hr
    obtain ⟨rfl, rfl⟩ := Run.rests_done.mp hr
    exact ⟨hm, rfl, rfl⟩

/-- Masking changes nothing in the kernel. -/
theorem does_masked (hx : x.Does here f) : (masked x).Does here f := by
  intro m n r hm hr
  rw [masked_apply, Run.rests_window] at hr
  rcases Run.rests_bind.mp hr with ⟨m', a, hx', hr⟩ | ⟨rest, hx', -⟩
  · obtain ⟨hm', hk, ha⟩ := hx (m := { m with chip := m.chip.mask }) hm hx'
    obtain rfl := Sum.inl.inj ha
    obtain ⟨rfl, rfl⟩ := Run.rests_done.mp hr
    exact ⟨hm', hk, rfl⟩
  · obtain ⟨-, -, ha⟩ := hx (m := { m with chip := m.chip.mask }) hm hx'
    cases ha

/-- What is left of a masked stretch once its window is passed. -/
theorem does_unmask (was : Bool) (hx : x.Does here f) : Does here (fun m =>
    (x m).bind fun a m' => .done { m' with chip := m'.chip.restore was } a) f :=
  does_bind hx fun a => does_bind (does_command (f := (·.restore was)) fun _ => rfl) fun _ =>
    does_pure a

/-- Nor does a lock. -/
theorem does_holding (l : Lock) (hx : x.Does here f) :
    (do
      acquire l
      let a ← x
      command (·.release l)
      return a : Call G α).Does here f :=
  does_bind (does_acquire l) fun _ => does_bind hx fun a =>
    does_bind (does_command (f := (·.release l)) fun _ => rfl) fun _ => does_pure a

/-- A locked stretch does what its body does. -/
theorem does_locked (l : Lock) (hx : x.Does here f) : (locked l x).Does here f :=
  does_masked (does_holding l hx)

/-- Nor does a lock that is given back late. -/
theorem does_overheld (l : Lock) (hx : x.Does here f) : (overheld l x).Does here f :=
  does_bind (does_masked (does_bind (does_acquire l) fun _ => hx)) fun a =>
    does_bind (does_pause _) fun _ =>
      does_bind (does_command (f := (·.release l)) fun _ => rfl) fun _ => does_pure a

/-- The executing core is the one it is called on. -/
theorem does_look_current :
    (look (·.chip.current) : Call G CoreId).Does here fun k => (k, here) := by
  intro m n r hm hr
  obtain ⟨rfl, rfl⟩ := Run.rests_done.mp hr
  exact ⟨hm, rfl, congrArg Sum.inl hm⟩

/-- The executing core is the one that executes; a core that is not managed does not get there. -/
theorem does_currentCore : (currentCore : Call G CoreId).Does here fun k => (k, here) := by
  refine (does_bind does_look_current fun c => does_bind (does_read (·.manages c)) fun b =>
    does_ite (fun _ => does_pure c) fun _ => does_bind (does_note _) fun _ =>
      does_stop _ fun k => (k, c)).congr fun k => ?_
  dsimp only
  split <;> rfl

end Call

/-! ## The effects of scheduler calls -/

namespace Effect

/-- Bring a thread into the rotation of a core, unless it has ended or has an owner. -/
def startThread (c : CoreId) (t : ThreadId) : Effect G Bool := fun k =>
  if k.stateOf t = .terminated then (k, false)
  else if (k.ownerOf t).isNone then ((k.setOwner t (some c)).makeReady c t, true)
  else (k, false)

/-- Queue a reschedule. -/
def requestYield (c : CoreId) (k : Kernel G) : Kernel G :=
  k.setDpcs c (k.dpcs c ++ [.reschedule c])

/-- Take a thread out of the queues of the core that owns it, for good. -/
def killThread (c : CoreId) (t : ThreadId) : Effect G (Outcome Unit) := fun k =>
  if k.ownerOf t = some c then
    let k' := (k.setOwner t none).terminate c t
    (if (k'.queues c).running = some t then requestYield c k' else k', .ok ())
  else (k, .error .invalidOperation)

/-- Put the running thread of a core aside for a span that is not zero. -/
def park (c : CoreId) (span : TimeSpan) (k : Kernel G) : Kernel G :=
  match (k.queues c).running with
  | none => k
  | some t =>
    if span.isInfinite then k.suspend c t
    else k.sleep c t (RunQueues.wakeTick (k.queues c).ticks span k.slice)

/-- Put the running thread of a core aside, and queue a reschedule. -/
def delay (c : CoreId) (span : TimeSpan) : Effect G (Outcome Unit) := fun k =>
  if span.isNegative then (k, .error .argumentOutOfRange)
  else (requestYield c (if span.isZero then k else park c span k), .ok ())

/-- Wake a thread that sleeps or stands parked on a core. -/
def undelay (c : CoreId) (t : ThreadId) : Effect G Bool := fun k =>
  if (k.queues c).isParked t then (k.wake c t, true) else (k, false)

/-- Switch to the next thread; nothing is said of a core that has none. -/
def yieldThread (c : CoreId) (context : Context) : Effect G Context := fun k =>
  (k.rotate c context).getD (k, 0)

/-- Tick: wake who is due, then switch; nothing is said of a core that cannot count the tick. -/
def onTick (c : CoreId) (context : Context) : Effect G Context := fun k =>
  if (k.queues c).canTick then yieldThread c context (k.advance c) else (k, 0)

/-- Switch in the head of the rotation. -/
def switchFirst (c : CoreId) : Effect G (Option Context) := fun k =>
  match (k.queues c).ready.head? with
  | none => (k, none)
  | some t => (k.switchTo c t, some ((k.switchTo c t).contextOf t))

/-- Bring in the idle thread of a core that is marked as started. -/
def bringIdle (c : CoreId) (k : Kernel G) : Kernel G :=
  match k.idleOf? c with
  | none => k
  | some idle => (startThread c idle k).1

/-- Mark a core as started, and bring in its idle thread. -/
def prepare (c : CoreId) (k : Kernel G) : Kernel G :=
  bringIdle c (k.updateCore c fun core => { core with started := true })

/-- Switch in the head of the rotation, and install the tick handler. -/
def install (c : CoreId) : Effect G (Outcome Context) := fun k =>
  match switchFirst c k with
  | (k', none) => (k', .error .invalidOperation)
  | (k', some context) => (k'.setHandler c .systemTick (.tick c), .ok context)

/-- Start scheduling on a core. -/
def bootstrap (c : CoreId) : Effect G (Outcome Context) := fun k =>
  if k.isStarted c then (k, .error .invalidOperation) else install c (prepare c k)

/-- Take the oldest deferred call of a core. -/
def popDpc (c : CoreId) : Effect G (Option (Dpc G)) := fun k =>
  match k.dpcs c with
  | [] => (k, none)
  | d :: rest => (k.setDpcs c rest, some d)

/-! ## The effects of thread calls -/

/-- The core that owns a thread, if it is a managed one. -/
def owningCore (k : Kernel G) (t : ThreadId) : Option CoreId :=
  (k.ownerOf t).bind fun c => if k.manages c then some c else none

/-- Make a thread without a context. -/
def newThread (entry : ThreadEntry G) (description : String) : Effect G ThreadId := fun k =>
  (k.addThread { description, entry }, k.threads.length)

/-- Set the argument of a thread that nobody owns, and bring it into the rotation of a core. -/
def startThreadHere (here : CoreId) (t : ThreadId) (argument : UInt64) : Effect G Bool := fun k =>
  if (k.ownerOf t).isSome then (k, false) else startThread here t (k.setArgument t argument)

/-- End a thread with a code. -/
def exitThread (t : ThreadId) (code : ExitCode) : Effect G (Outcome Unit) := fun k =>
  match owningCore k t with
  | none => (k, .error .invalidOperation)
  | some c => killThread c t (k.setExitCode t code)

/-- End the running thread of a core with a code. -/
def exitThreadHere (here : CoreId) (code : ExitCode) : Effect G (Outcome Unit) := fun k =>
  match (k.queues here).running with
  | none => (k, .error .invalidOperation)
  | some t => exitThread t code k

/-- Wake a thread by way of the core that owns it. -/
def undelayThread (t : ThreadId) : Effect G (Outcome Bool) := fun k =>
  match owningCore k t with
  | none => (k, .error .invalidOperation)
  | some c => ((undelay c t k).1, .ok (undelay c t k).2)

/-! ## The effects of event calls -/

/-- Use a latched signal. -/
def tryConsume (e : EventId) : Effect G Bool := fun k =>
  if k.isRaised e then (if k.isAutoReset e then k.setRaised e false else k, true) else (k, false)

/-- Hand the signal to a waiter; can its thread still be woken? -/
def release (w : WaitId) : Effect G Bool := fun k =>
  let k := k.updateWait w WaitEntry.signal
  match k.waits[w]? with
  | none => (k, false)
  | some entry => ((undelayThread entry.thread k).1, (owningCore k entry.thread).isSome)

/-- Hand the signal to the oldest waiter that can still be woken. -/
def releaseOne (e : EventId) : WaitQueue → Effect G Bool
  | [], k => (k, false)
  | w :: rest, k =>
    let (k', woken) := release w (k.setWaiters e rest)
    if woken then (k', true) else releaseOne e rest k'

/-- Hand the signal to every waiter. -/
def releaseAll : WaitQueue → Kernel G → Kernel G
  | [], k => k
  | w :: rest, k => releaseAll rest (release w k).1

/-- Signal an event. -/
def signalEvent (e : EventId) (k : Kernel G) : Kernel G :=
  if k.isAutoReset e then
    let (k', woken) := releaseOne e (k.waitersOf e) k
    if woken then k' else k'.setRaised e true
  else releaseAll (k.waitersOf e) ((k.setRaised e true).setWaiters e [])

/-- Queue an entry of a thread, and put the running thread of a core aside. An entry whose delay is
refused leaves the queue again. -/
def queueThread (e : EventId) (c : CoreId) (span : TimeSpan) (t : ThreadId) :
    Effect G (Outcome (Option WaitId)) := fun k =>
  let w := k.waits.length
  let k := k.addWait { thread := t }
  let k := k.setWaiters e ((k.waitersOf e).push w)
  match delay c span k with
  | (k', .ok ()) => (k', .ok (some w))
  | (k', .error why) => (k'.setWaiters e ((k'.waitersOf e).remove w), .error why)

/-- What becomes of a queued entry when the delay is answered. -/
def keepQueued (e : EventId) (w : WaitId) : Outcome Unit → Effect G (Outcome (Option WaitId))
  | .ok (), k => (k, .ok (some w))
  | .error why, k => (k.setWaiters e ((k.waitersOf e).remove w), .error why)

/-- Queue the running thread of a core, and put it aside. -/
def queueRunning (e : EventId) (c : CoreId) (span : TimeSpan) :
    Effect G (Outcome (Option WaitId)) := fun k =>
  match (k.queues c).running with
  | none => (k, .error .invalidOperation)
  | some t => queueThread e c span t k

/-- What the first half of a wait does under the lock. -/
def enqueueLocked (e : EventId) (c : CoreId) (span : TimeSpan) :
    Effect G (Outcome (Option WaitId)) := fun k =>
  let (k', taken) := tryConsume e k
  if taken then (k', .ok none)
  else if span.isZero then (k', .error .timeout) else queueRunning e c span k'

/-- First half of a wait. -/
def enqueueWait (here : CoreId) (e : EventId) (span : TimeSpan) :
    Effect G (Outcome (Option WaitId)) := fun k =>
  if span.isNegative then (k, .error .argumentOutOfRange)
  else
    let (k', taken) := tryConsume e k
    if taken then (k', .ok none) else enqueueLocked e here span k'

/-- Second half of a wait. -/
def completeWait (e : EventId) (w : WaitId) : Effect G (Outcome Unit) := fun k =>
  let k := k.setWaiters e ((k.waitersOf e).remove w)
  if k.isSignaled w then (k.updateWait w WaitEntry.take, .ok ()) else (k, .error .timeout)

/-- Go on after the first half of a wait: complete it if there is an entry. -/
def afterEnqueue (e : EventId) : Kernel G × Outcome (Option WaitId) → Kernel G × Outcome Unit
  | (k, .error why) => (k, .error why)
  | (k, .ok none) => (k, .ok ())
  | (k, .ok (some w)) => completeWait e w k

/-- Both halves at once. -/
def waitEvent (here : CoreId) (e : EventId) (span : TimeSpan) : Effect G (Outcome Unit) := fun k =>
  afterEnqueue e (enqueueWait here e span k)

/-! ## The effects of naming -/

/-- Give an object a name. -/
def createObject (x : ObjectId) (name : String) (parent : Parent) : Effect G (Outcome Accessor) :=
  fun k => match k.objects.create x name parent with
    | .error why => (k, .error why)
    | .ok objects => ({ k with objects }, .ok ⟨x, objects.valid x⟩)

/-- A new directory without a name. -/
def newDirectory : Effect G ObjectId := fun k =>
  ({ k with objects := k.objects.newDirectory.1 }, k.objects.newDirectory.2)

/-- A new device without a name. -/
def newDevice (d : Device) : Effect G ObjectId := fun k =>
  ({ k with objects := (k.objects.newDevice d).1 }, (k.objects.newDevice d).2)

/-- A new event without a name. -/
def newEvent (autoReset : Bool) : Effect G EventId := fun k =>
  (k.addEvent { autoReset }, k.events.length)

end Effect

/-! ## Calls have these effects -/

namespace Call

variable {here : CoreId}

/-- A claim makes the core the owner of a thread that has none. -/
theorem does_claim (t : ThreadId) (c : CoreId) : (claim t c : Call G Bool).Does here fun k =>
    if (k.ownerOf t).isNone then (k.setOwner t (some c), true) else (k, false) := by
  refine Does.congr (does_bind (does_read (·.ownerOf t)) fun o => does_ite
    (fun _ => does_bind (does_change _) fun _ => does_pure true)
    fun _ => does_pure false) fun k => ?_
  dsimp only
  split <;> rfl

/-- Giving up ownership is for the owner only. -/
theorem does_disown (t : ThreadId) (c : CoreId) : (disown t c : Call G Bool).Does here fun k =>
    if k.ownerOf t = some c then (k.setOwner t none, true) else (k, false) := by
  refine Does.congr (does_bind (does_read (·.ownerOf t)) fun o => does_ite
    (fun _ => does_bind (does_change _) fun _ => does_pure true)
    fun _ => does_pure false) fun k => ?_
  dsimp only
  split <;> rfl

/-- A thread is claimed and then made ready. -/
theorem does_startThread (c : CoreId) (t : ThreadId) :
    (startThread c t : Call G Bool).Does here (Effect.startThread c t) := by
  refine Does.congr (does_bind (does_read (·.stateOf t)) fun s => does_ite
    (fun _ => does_pure false) fun _ => does_bind (does_pause _) fun _ =>
    does_bind (does_claim t c) fun b => does_ite
      (fun _ => does_bind (does_locked _ (does_change _)) fun _ =>
        does_bind (does_read (·.descriptionOf t)) fun _ => does_bind (does_note _) fun _ =>
          does_pure true)
      fun _ => does_pure false) fun k => ?_
  simp only [Effect.startThread]
  split
  · rfl
  · by_cases ho : (k.ownerOf t).isNone <;> simp [ho]

/-- A deferred call is queued behind the others. -/
theorem does_registerDpc (c : CoreId) (d : Dpc G) : (registerDpc c d).Does here fun k =>
    (k.setDpcs c (k.dpcs c ++ [d]), ()) :=
  does_bind (does_locked _ (does_change _)) fun _ =>
    does_command (f := (·.notify)) fun _ => rfl

/-- A request for a switch queues a reschedule. -/
theorem does_requestYield (c : CoreId) :
    (requestYield c : Call G Unit).Does here fun k => (Effect.requestYield c k, ()) :=
  does_registerDpc c (.reschedule c)

/-- What is left of a kill once the thread is taken out of the queues. -/
theorem does_afterKill (c : CoreId) (wasRunning : Bool) :
    (do
      if wasRunning then requestYield c
      return .ok () : Call G (Outcome Unit)).Does here fun k =>
        (if wasRunning then Effect.requestYield c k else k, .ok ()) := by
  cases wasRunning with
  | false => exact does_pure _
  | true => exact does_bind (does_requestYield c) fun _ => does_pure _

/-- A thread is given up and then taken out of the queues. -/
theorem does_killThread (c : CoreId) (t : ThreadId) :
    (killThread c t : Call G (Outcome Unit)).Does here (Effect.killThread c t) := by
  refine Does.congr (does_bind (does_disown t c) fun b => does_ite
    (fun _ => does_bind (does_locked _ (does_bind (does_change (·.terminate c t)) fun _ =>
      does_read fun k => (k.queues c).running == some t)) fun wasRunning =>
        does_bind (does_note _) fun _ => does_afterKill c wasRunning)
    fun _ => does_pure _) fun k => ?_
  simp only [Effect.killThread]
  by_cases ho : k.ownerOf t = some c
  · simp [ho]
  · simp [ho]

/-- The running thread is put aside until a tick, or without a deadline. -/
theorem does_park (c : CoreId) (span : TimeSpan) :
    (park c span : Call G Unit).Does here fun k => (Effect.park c span k, ()) := by
  refine does_bind (does_read fun k => (k.queues c).running) (h := fun running k =>
    (match running with
      | none => k
      | some t =>
        if span.isInfinite then k.suspend c t
        else k.sleep c t (RunQueues.wakeTick (k.queues c).ticks span k.slice), ()))
    fun running => ?_
  cases running with
  | none => exact does_bind (does_note _) fun _ => does_stop _ fun k => (k, ())
  | some t =>
    refine Does.congr (does_ite (fun _ => does_change _) fun _ => does_bind (does_read _)
      fun wake => does_bind (does_note _) fun _ => does_change _) fun k => ?_
    dsimp only
    split <;> rfl

/-- A delay puts the running thread aside and asks for a switch. -/
theorem does_delay (c : CoreId) (span : TimeSpan) :
    (delay c span : Call G (Outcome Unit)).Does here (Effect.delay c span) := by
  unfold delay Effect.delay
  by_cases hn : span.isNegative
  · simp only [hn, if_true]
    exact does_pure _
  · by_cases hz : span.isZero
    · simp only [hn, hz, if_true]
      exact does_bind (does_requestYield c) fun _ => does_pure _
    · simp only [hn, hz]
      exact does_bind (does_locked _ (does_park c span)) fun _ =>
        does_bind (does_requestYield c) fun _ => does_pure _

/-- A thread that sleeps or stands parked is woken. -/
theorem does_undelay (c : CoreId) (t : ThreadId) :
    (undelay c t : Call G Bool).Does here (Effect.undelay c t) := by
  refine Does.congr (does_locked _ (does_bind (does_read fun k => (k.queues c).isParked t) fun b =>
    does_ite (fun _ => does_bind (does_change _) fun _ => does_pure true)
      fun _ => does_bind (does_note _) fun _ => does_pure false)) fun k => ?_
  simp only [Effect.undelay]
  split <;> rfl

/-- A switch saves the context that was interrupted, and answers with the next one. -/
theorem does_rotate (c : CoreId) (context : Context) :
    (rotate c context : Call G Context).Does here (Effect.yieldThread c context) := by
  refine does_bind (does_read (·.rotate c context)) (h := fun o k => o.getD (k, 0)) fun o => ?_
  cases o with
  | none => exact does_bind (does_note _) fun _ => does_stop _ fun k => (k, 0)
  | some next => exact does_bind (does_change _) fun _ => does_pure _

/-- A voluntary switch does the same under the lock. -/
theorem does_yieldThread (c : CoreId) (context : Context) :
    (yieldThread c context : Call G Context).Does here (Effect.yieldThread c context) :=
  does_locked _ (does_rotate c context)

/-- To write down who wakes changes nothing. -/
theorem does_noteWoken (c : CoreId) (tick : Nat) (due : List Sleeper) :
    (noteWoken c tick due : Call G Unit).Does here fun k => (k, ()) := by
  induction due with
  | nil => exact does_pure ()
  | cons s rest ih => exact does_bind (does_note _) fun _ => ih

/-- The tick itself, once the core is known to be able to count it. -/
theorem does_tick (c : CoreId) (context : Context) :
    (do
      let due ← read (·.dueNext c)
      change (·.advance c)
      noteWoken c (← read fun k => (k.queues c).ticks) due
      rotate c context : Call G Context).Does here
        fun k => Effect.yieldThread c context (k.advance c) :=
  does_bind (does_read (·.dueNext c)) fun due => does_bind (does_change (·.advance c)) fun _ =>
    does_bind (does_read fun k => (k.queues c).ticks) fun tick =>
      does_bind (does_noteWoken c tick due) fun _ => does_rotate c context

/-- A tick wakes who is due, and then switches. -/
theorem does_onTick (c : CoreId) (context : Context) :
    (onTick c context : Call G Context).Does here (Effect.onTick c context) := by
  refine does_locked _ ?_
  simp only [expectTick, bind_assoc]
  refine Does.congr (does_bind (does_read fun k => (k.queues c).canTick) (h := fun b k =>
    if b then Effect.yieldThread c context (k.advance c) else (k, 0)) fun b => ?_) fun _ => rfl
  cases b with
  | false => exact fun _ _ _ _ hr => (Run.rests_halt.mp hr).elim
  | true => exact does_tick c context

/-- The head of the rotation is switched in. -/
theorem does_switchFirst (c : CoreId) :
    (switchFirst c : Call G (Option Context)).Does here (Effect.switchFirst c) := by
  refine does_bind (does_read fun k => (k.queues c).ready.head?) (h := fun o k =>
    match o with
    | none => (k, none)
    | some t => (k.switchTo c t, some ((k.switchTo c t).contextOf t))) fun o => ?_
  cases o with
  | none => exact does_pure none
  | some t =>
    exact does_bind (does_change _) fun _ => does_bind (does_read (·.contextOf t)) fun _ =>
      does_pure _

/-- What is left of a bootstrap once the idle thread is brought in. -/
theorem does_install (c : CoreId) :
    (do
      match ← locked (.queues c) (switchFirst c) with
      | none => return .error .invalidOperation
      | some context =>
        discard <| registerIrq c .systemTick (.tick c)
        let slice ← read (·.slice)
        command (·.arm slice)
        note (.bootstrapped c slice)
        return .ok context : Call G (Outcome Context)).Does here (Effect.install c) := by
  refine Does.congr (does_bind (does_locked _ (does_switchFirst c)) (h := fun o k =>
    match o with
    | none => (k, .error .invalidOperation)
    | some context => (k.setHandler c .systemTick (.tick c), .ok context)) fun o => ?_) fun k => ?_
  · cases o with
    | none => exact does_pure _
    | some context =>
      exact does_bind (does_bind (does_bind (does_read _) fun _ => does_bind (does_change _)
        fun _ => does_pure _) fun _ => does_pure _) fun _ => does_bind (does_read _) fun slice =>
          does_bind (does_command (f := (·.arm slice)) fun _ => rfl) fun _ =>
            does_bind (does_note _) fun _ => does_pure _
  · simp only [Effect.install]
    rcases Effect.switchFirst c k with ⟨k', _ | context⟩ <;> rfl

/-- The idle thread is brought in, the head switched in, and the tick handler installed. -/
theorem does_bootstrap (c : CoreId) :
    (bootstrap c : Call G (Outcome Context)).Does here (Effect.bootstrap c) := by
  refine Does.congr (does_bind (does_read (·.isStarted c)) fun b => does_ite
    (fun _ => does_pure _) fun _ => does_bind (does_change _) fun _ =>
      does_bind (does_pause _) fun _ => does_bind (does_read (·.idleOf? c)) (h := fun o k =>
        Effect.install c (match o with
          | none => k
          | some idle => (Effect.startThread c idle k).1)) fun o => ?_) fun k => ?_
  · cases o with
    | none => exact does_install c
    | some idle =>
      exact does_bind (does_bind (does_startThread c idle) fun _ => does_pure ()) fun _ =>
        does_install c
  · simp only [Effect.bootstrap]
    split <;> rfl

/-- The oldest deferred call is taken. -/
theorem does_popDpc (c : CoreId) :
    (popDpc c : Call G (Option (Dpc G))).Does here (Effect.popDpc c) := by
  refine Does.congr (does_overheld _ (does_bind (does_read (·.dpcs c)) (h := fun ds k =>
    match ds with
    | [] => (k, none)
    | d :: rest => (k.setDpcs c rest, some d)) fun ds => ?_)) fun _ => rfl
  cases ds with
  | nil => exact does_pure none
  | cons d rest => exact does_bind (does_change _) fun _ => does_pure _

/-- A handler is replaced, and the one before is the answer. -/
theorem does_registerIrq (c : CoreId) (irq : SystemIrq) (h : Handler G) :
    (registerIrq c irq h).Does here fun k => (k.setHandler c irq h, k.handler? c irq) :=
  does_bind (does_read _) fun _ => does_bind (does_change _) fun _ => does_pure _

/-! ### Threads -/

/-- A thread is made behind the others. -/
theorem does_newThread (entry : ThreadEntry G) (description : String) :
    (newThread entry description).Does here (Effect.newThread entry description) :=
  does_bind (does_read (·.threads.length)) fun _ => does_bind (does_change _) fun _ => does_pure _

/-- The owner of a thread is looked up, and answered if it is a managed core. -/
theorem does_owningCore (t : ThreadId) :
    (owningCore t : Call G (Option CoreId)).Does here fun k => (k, Effect.owningCore k t) := by
  refine Does.congr (does_bind (does_read (·.ownerOf t)) (h := fun o k =>
    (k, o.bind fun c => if k.manages c then some c else none)) fun o => ?_) fun k => rfl
  cases o with
  | none => exact does_pure none
  | some c => exact does_bind (does_read (·.manages c)) fun b => does_pure _

/-- A thread that nobody owns gets its argument and is started here. -/
theorem does_startThreadHere (t : ThreadId) (argument : UInt64) :
    (startThreadHere t argument : Call G Bool).Does here
      (Effect.startThreadHere here t argument) := by
  refine Does.congr (does_bind (does_read (·.ownerOf t)) fun o => does_ite
    (fun _ => does_pure false) fun _ => does_bind (does_pause _) fun _ =>
      does_bind (does_change _) fun _ => does_bind (does_pause _) fun _ =>
        does_bind does_currentCore fun c => does_startThread c t) fun k => ?_
  simp only [Effect.startThreadHere]
  split <;> rfl

/-- A thread gets its exit code, and its owner ends it. -/
theorem does_exitThread (t : ThreadId) (code : ExitCode) :
    (exitThread t code : Call G (Outcome Unit)).Does here (Effect.exitThread t code) := by
  refine Does.congr (does_bind (does_owningCore t) (h := fun o k =>
    match o with
    | none => (k, .error .invalidOperation)
    | some c => Effect.killThread c t (k.setExitCode t code)) fun o => ?_) fun _ => rfl
  cases o with
  | none => exact does_pure _
  | some c =>
    exact does_bind (does_pause _) fun _ => does_bind (does_change _) fun _ =>
      does_bind (does_pause _) fun _ => does_bind (does_read (·.descriptionOf t)) fun _ =>
        does_bind (does_note _) fun _ => does_killThread c t

/-- The thread in the slot of this core gets its exit code and is ended. -/
theorem does_exitThreadHere (code : ExitCode) :
    (exitThreadHere code : Call G (Outcome Unit)).Does here (Effect.exitThreadHere here code) := by
  refine Does.congr (does_bind does_currentCore fun c =>
    does_bind (does_locked _ (does_read fun k => (k.queues c).running)) (h := fun o k =>
      match o with
      | none => (k, .error .invalidOperation)
      | some t => Effect.exitThread t code k) fun o => ?_) fun _ => rfl
  cases o with
  | none => exact does_pure _
  | some t => exact does_exitThread t code

/-- The owner of a thread wakes it. -/
theorem does_undelayThread (t : ThreadId) :
    (undelayThread t : Call G (Outcome Bool)).Does here (Effect.undelayThread t) := by
  refine Does.congr (does_bind (does_owningCore t) (h := fun o k =>
    match o with
    | none => (k, .error .invalidOperation)
    | some c => ((Effect.undelay c t k).1, .ok (Effect.undelay c t k).2)) fun o => ?_) fun _ => rfl
  cases o with
  | none => exact does_pure _
  | some c => exact does_bind (does_undelay c t) fun _ => does_pure _

/-! ### Events -/

/-- A latch that is set answers a wait, and is cleared if the event is auto-reset. -/
theorem does_tryConsume (e : EventId) :
    (tryConsume e : Call G Bool).Does here (Effect.tryConsume e) := by
  refine Does.congr (does_bind (does_read (·.isRaised e)) fun raised => does_ite
    (fun _ => does_bind (does_read (·.isAutoReset e)) (h := fun auto k =>
      (if auto then k.setRaised e false else k, true)) fun auto => ?_)
    fun _ => does_pure false) fun k => ?_
  · cases auto with
    | false => exact does_pure true
    | true => exact does_bind (does_change _) fun _ => does_pure true
  · simp only [Effect.tryConsume]
    split <;> rfl

/-- A waiter is marked, and woken by way of its owner. -/
theorem does_release (w : WaitId) : (release w : Call G Bool).Does here (Effect.release w) := by
  refine Does.congr (does_bind (does_change (·.updateWait w WaitEntry.signal)) fun _ =>
    does_bind (does_read (·.waits[w]?)) (h := fun o k => o.elim (k, false) fun entry =>
      ((Effect.undelayThread entry.thread k).1, (Effect.owningCore k entry.thread).isSome))
      fun o => ?_) fun k => ?_
  · cases o with
    | none => exact does_pure false
    | some entry =>
      refine Does.congr (does_bind (does_undelayThread entry.thread)
        (h := fun o k => (k, o.toBool)) fun o => ?_) fun k => ?_
      · cases o with
        | ok b => exact does_pure true
        | error why => exact does_bind (does_note _) fun _ => does_pure false
      · dsimp only [Effect.undelayThread, Option.elim_some]
        cases Effect.owningCore k entry.thread <;> rfl
  · simp only [Effect.release]
    cases (k.updateWait w WaitEntry.signal).waits[w]? <;> rfl

/-- Entries are popped until one is released. -/
theorem does_releaseOne (e : EventId) (waiters : WaitQueue) :
    (releaseOne e waiters : Call G Bool).Does here (Effect.releaseOne e waiters) := by
  induction waiters with
  | nil => exact does_pure false
  | cons w rest ih =>
    refine Does.congr (does_bind (does_change (·.setWaiters e rest)) fun _ =>
      does_bind (does_release w) fun woken => does_ite (fun _ => does_pure true)
        fun _ => ih) fun k => ?_
    dsimp only [Effect.releaseOne]
    split <;> rfl

/-- Every entry is released. -/
theorem does_releaseAll (waiters : WaitQueue) :
    (releaseAll waiters : Call G Unit).Does here fun k => (Effect.releaseAll waiters k, ()) := by
  induction waiters with
  | nil => exact does_pure ()
  | cons w rest ih =>
    exact does_bind (does_bind (does_release w) fun _ => does_pure ()) fun _ => ih

/-- A signal releases waiters, and latches the event if there are none to release. -/
theorem does_signalEvent (e : EventId) :
    (signalEvent e : Call G Unit).Does here fun k => (Effect.signalEvent e k, ()) := by
  refine Does.congr (does_locked _ (does_bind (does_read (·.waitersOf e)) fun waiters =>
    does_bind (does_read (·.isAutoReset e)) fun auto => does_ite
      (fun _ => does_bind (does_releaseOne e waiters) fun woken => does_ite
        (fun _ => does_pure ()) fun _ => does_change _)
      fun _ => does_bind (does_change _) fun _ => does_bind (does_change _) fun _ =>
        does_releaseAll waiters)) fun k => ?_
  simp only [Effect.signalEvent]
  split
  · dsimp only
    split <;> rfl
  · rfl

/-- The running thread gets a wait entry and is put aside. -/
theorem does_queueRunning (e : EventId) (c : CoreId) (span : TimeSpan) :
    (queueRunning e c span : Call G (Outcome (Option WaitId))).Does here
      (Effect.queueRunning e c span) := by
  refine Does.congr (does_bind (does_locked _ (does_read fun k => (k.queues c).running))
    (h := fun o k => o.elim (k, .error .invalidOperation) fun t =>
      Effect.queueThread e c span t k) fun o => ?_) fun k => ?_
  · cases o with
    | none => exact does_pure _
    | some t =>
      refine Does.congr (does_bind (does_read (·.waits.length)) fun w =>
        does_bind (does_change (·.addWait { thread := t })) fun _ =>
          does_bind (does_change fun k => k.setWaiters e ((k.waitersOf e).push w)) fun _ =>
            does_bind (does_delay c span) (h := Effect.keepQueued e w) fun o => ?_) fun k => ?_
      · cases o with
        | ok u => exact does_pure _
        | error why => exact does_bind (does_change _) fun _ => does_pure _
      · dsimp only [Effect.queueThread, Option.elim_some]
        rcases Effect.delay c span _ with ⟨k', _ | _⟩ <;> rfl
  · simp only [Effect.queueRunning]
    cases (k.queues c).running <;> rfl

/-- What the first half of a wait does under the lock. -/
theorem does_enqueueLocked (e : EventId) (c : CoreId) (span : TimeSpan) :
    (do
      if ← tryConsume e then return .ok none
      if span.isZero then return .error .timeout
      queueRunning e c span : Call G (Outcome (Option WaitId))).Does here
        (Effect.enqueueLocked e c span) := by
  refine Does.congr (does_bind (does_tryConsume e) fun taken => does_ite
    (fun _ => does_pure _) fun _ => does_ite (fun _ => does_pure _) fun _ =>
      does_queueRunning e c span) fun k => ?_
  simp only [Effect.enqueueLocked]
  split
  · rfl
  · split <;> rfl

/-- The first half of a wait consumes the latch, or queues the running thread. -/
theorem does_enqueueWait (e : EventId) (span : TimeSpan) :
    (enqueueWait e span : Call G (Outcome (Option WaitId))).Does here
      (Effect.enqueueWait here e span) := by
  refine Does.congr (does_ite (fun _ => does_pure _) fun _ => does_bind (does_tryConsume e)
    fun taken => does_ite (fun _ => does_pure _) fun _ => does_bind does_currentCore fun c =>
      does_locked _ (does_enqueueLocked e c span)) fun k => ?_
  simp only [Effect.enqueueWait]
  split
  · rfl
  · dsimp only
    split <;> rfl

/-- The second half takes the entry out of the queue, and answers by its mark. -/
theorem does_completeWait (e : EventId) (w : WaitId) :
    (completeWait e w : Call G (Outcome Unit)).Does here (Effect.completeWait e w) := by
  refine Does.congr (does_locked _ (does_bind (does_change _) fun _ =>
    does_bind (does_read (·.isSignaled w)) fun b => does_ite
      (fun _ => does_bind (does_change _) fun _ => does_pure _) fun _ => does_pure _)) fun k => ?_
  simp only [Effect.completeWait]
  split <;> rfl

/-- A wait is one half after the other. -/
theorem does_waitEvent (e : EventId) (span : TimeSpan) :
    (waitEvent e span : Call G (Outcome Unit)).Does here (Effect.waitEvent here e span) := by
  refine Does.congr (does_bind (does_enqueueWait e span)
    (h := fun o k => Effect.afterEnqueue e (k, o)) fun o => ?_) fun _ => rfl
  rcases o with why | _ | w
  · exact does_pure _
  · exact does_pure _
  · exact does_completeWait e w

/-! ### Naming -/

/-- An object is attached under a name, or the attempt is refused. -/
theorem does_createObject (x : ObjectId) (name : String) (parent : Parent) :
    (createObject x name parent : Call G (Outcome Accessor)).Does here
      (Effect.createObject x name parent) := by
  refine Does.congr (does_bind (does_read fun k => k.objects.create x name parent) (h := fun o k =>
    match o with
    | .error why => (k, .error why)
    | .ok objects => ({ k with objects }, .ok ⟨x, objects.valid x⟩)) fun o => ?_) fun _ => rfl
  cases o with
  | error why => exact does_pure _
  | ok objects =>
    exact does_bind (does_change _) fun _ => does_bind (does_note _) fun _ =>
      does_bind (does_read _) fun _ => does_pure _

/-- A directory is made, -/
theorem does_newDirectory : (newDirectory : Call G ObjectId).Does here Effect.newDirectory :=
  does_bind (does_read (·.objects.newDirectory)) (h := fun p k => ({ k with objects := p.1 }, p.2))
    fun _ => does_bind (does_change _) fun _ => does_pure _

/-- and so is a device, -/
theorem does_newDevice (d : Device) :
    (newDevice d : Call G ObjectId).Does here (Effect.newDevice d) :=
  does_bind (does_read (·.objects.newDevice d)) (h := fun p k => ({ k with objects := p.1 }, p.2))
    fun _ => does_bind (does_change _) fun _ => does_pure _

/-- and an event. -/
theorem does_newEvent (autoReset : Bool) :
    (newEvent autoReset : Call G EventId).Does here (Effect.newEvent autoReset) :=
  does_bind (does_read _) fun _ => does_bind (does_change _) fun _ => does_pure _

end Call

end Nucleus
