import Nucleus.Proofs.Effect
import Nucleus.Proofs.Tables

/-!
# Elementary changes

What operations do to the kernel state is put together from a few elementary changes. A `Change`
is one of them, with the condition `Change.Enabled` under which operations make it; it is the
place where a core takes a thread or ends it, where a thread is woken, where a core switches.
Putting the running thread of a core aside, `Kernel.setAside`, is kept apart from them: an
operation does it first or not at all, and whether it does shows in its answer.

* `Kernel.Path` is the relation of states with enabled changes between them, of those that are
  admitted.
* `Kernel.Path.keeps` is the rule for what every change keeps.
* The effects of operations are paths: `Effect.path_startThread` and so on.
* `Kernel.Leads` is a path with or without a thread put aside before it, and the effects of
  operations that may put a thread aside are of this form: `Effect.leads_delay` and so on.

Only some operations switch, take deferred calls, wake a thread, or change events and wait entries:
a `Scope` bounds which of these changes are made.
-/

namespace Nucleus

variable {G : Guest}

/-- Put the running thread of a core aside, until a tick or without a deadline. -/
def Kernel.setAside (k : Kernel G) (c : CoreId) (wake : Option Nat) : Kernel G :=
  match (k.queues c).running, wake with
  | none, _ => k
  | some t, none => k.suspend c t
  | some t, some wake => k.sleep c t wake

/-- An elementary change of the kernel state. -/
inductive Change (G : Guest) where
  /-- a core takes a thread that nobody owns into its rotation -/
  | start (c : CoreId) (t : ThreadId)
  /-- the core that owns a thread ends it -/
  | kill (c : CoreId) (t : ThreadId)
  /-- a thread that sleeps or stands parked on a core is woken -/
  | wake (c : CoreId) (t : ThreadId)
  /-- a core counts a tick and wakes who is due -/
  | advance (c : CoreId)
  /-- a core switches to its next thread -/
  | turn (c : CoreId) (context : Context)
  /-- a core begins to schedule -/
  | bootstrap (c : CoreId)
  /-- a thread is made -/
  | addThread (th : Thread G)
  /-- a thread changes, but neither its state nor its owner -/
  | adjust (t : ThreadId) (f : Thread G → Thread G)
  /-- a deferred call is queued -/
  | defer (c : CoreId) (d : Dpc G)
  /-- the oldest deferred call is taken -/
  | undefer (c : CoreId)
  /-- a handler is installed -/
  | setHandler (c : CoreId) (irq : SystemIrq) (h : Handler G)
  /-- an event is made -/
  | addEvent (autoReset : Bool)
  /-- the latch of an event is set or cleared -/
  | setRaised (e : EventId) (b : Bool)
  /-- the waiters of an event are replaced -/
  | setWaiters (e : EventId) (q : WaitQueue)
  /-- a wait entry is made -/
  | addWait (t : ThreadId)
  /-- a wait entry changes, but not its thread -/
  | updateWait (w : WaitId) (f : WaitEntry → WaitEntry)
  /-- the names change -/
  | setObjects (objects : Namespace)

namespace Change

/-- The state after the change. -/
def apply (k : Kernel G) : Change G → Kernel G
  | start c t => (k.setOwner t (some c)).makeReady c t
  | kill c t => (Effect.killThread c t k).1
  | wake c t => k.wake c t
  | advance c => k.advance c
  | turn c context => (Effect.yieldThread c context k).1
  | bootstrap c => (Effect.install c (Effect.prepare c k)).1
  | addThread th => k.addThread th
  | adjust t f => k.updateThread t f
  | defer c d => k.setDpcs c (k.dpcs c ++ [d])
  | undefer c => k.setDpcs c (k.dpcs c).tail
  | setHandler c irq h => k.setHandler c irq h
  | addEvent autoReset => k.addEvent { autoReset }
  | setRaised e b => k.setRaised e b
  | setWaiters e q => k.setWaiters e q
  | addWait t => k.addWait { thread := t }
  | updateWait w f => k.updateWait w f
  | setObjects objects => { k with objects }

/-- When operations make the change. -/
def Enabled (k : Kernel G) : Change G → Prop
  | start c t => k.manages c = true ∧ k.stateOf t ≠ .terminated ∧ k.ownerOf t = none
  | kill c t => k.manages c = true ∧ k.ownerOf t = some c
  | wake c t => (k.queues c).isParked t = true
  | advance c => (k.queues c).canTick = true
  | bootstrap c => k.manages c = true ∧ k.isStarted c = false
  | addThread th => th.state = .ready ∧ th.owner = none
  | adjust _ f => ∀ th, (f th).state = th.state ∧ (f th).owner = th.owner
  | updateWait _ f => ∀ entry, (f entry).thread = entry.thread
  | _ => True

end Change

/-- What an operation may do besides the changes that any operation may make. -/
inductive Scope where
  /-- nothing -/
  | plain
  /-- wake a thread -/
  | waking
  /-- change the latch and the waiters of an event, change wait entries, and wake threads -/
  | event (e : EventId)
  /-- tick and switch on a core -/
  | turning (c : CoreId)
  /-- take deferred calls, and tick and switch on any core -/
  | dispatching
  deriving DecidableEq

namespace Scope

/-- Is the change in the scope? -/
def Admits (scope : Scope) : Change G → Prop
  | .wake _ _ => scope = waking ∨ ∃ e, scope = event e
  | .setRaised e _ | .setWaiters e _ => scope = event e
  | .addWait _ | .updateWait _ _ => ∃ e, scope = event e
  | .turn c _ => scope = turning c ∨ scope = dispatching
  | .advance c => scope = turning c ∨ scope = dispatching
  | .undefer _ => scope = dispatching
  | _ => True

end Scope

namespace Kernel

/-- Enabled changes of those that are admitted lead from one state to the other. -/
inductive Path (admits : Change G → Prop) : Kernel G → Kernel G → Prop where
  /-- no change -/
  | refl (k : Kernel G) : Path admits k k
  /-- a change, and the others -/
  | head {k k' : Kernel G} (ch : Change G) (admitted : admits ch) (enabled : ch.Enabled k)
    (rest : Path admits (ch.apply k) k') : Path admits k k'

namespace Path

variable {admits : Change G → Prop} {k k₁ k₂ : Kernel G}

/-- One enabled change is a path. -/
theorem single (ch : Change G) (admitted : admits ch) (enabled : ch.Enabled k) :
    Path admits k (ch.apply k) :=
  .head ch admitted enabled (.refl _)

/-- One path after the other. -/
theorem trans (h₁ : Path admits k k₁) (h₂ : Path admits k₁ k₂) : Path admits k k₂ := by
  induction h₁ with
  | refl k => exact h₂
  | head ch admitted enabled _ ih => exact .head ch admitted enabled (ih h₂)

/-- A path is a path of a wider scope. -/
theorem mono {admits' : Change G → Prop} (h : Path admits k k₁)
    (ha : ∀ ch, admits ch → admits' ch) : Path admits' k k₁ := by
  induction h with
  | refl k => exact .refl k
  | head ch admitted enabled _ ih => exact .head ch (ha ch admitted) enabled ih

/-- A property that every change keeps is kept by a path. -/
theorem keeps {I : Kernel G → Prop} (h : Path admits k k₁)
    (step : ∀ k (ch : Change G), admits ch → ch.Enabled k → I k → I (ch.apply k))
    (hk : I k) : I k₁ := by
  induction h with
  | refl k => exact hk
  | head ch admitted enabled _ ih => exact ih (step _ ch admitted enabled hk)

end Path

/-- A path from one state to the other, with the running thread of the core `parked` put aside
before it; after that no thread is touched, nor any queue. -/
def Leads (admits : Change G → Prop) (parked : Option CoreId) (k k' : Kernel G) : Prop :=
  match parked with
  | none => Path admits k k'
  | some c => ∃ wake, Path admits (k.setAside c wake) k' ∧
      k'.threads = (k.setAside c wake).threads ∧ ∀ d, k'.queues d = (k.setAside c wake).queues d

namespace Leads

variable {admits : Change G → Prop} {parked : Option CoreId} {k k' : Kernel G}

/-- What leads there leads there in a wider scope. -/
theorem mono {admits' : Change G → Prop} (h : Leads admits parked k k')
    (ha : ∀ ch, admits ch → admits' ch) : Leads admits' parked k k' := by
  cases parked with
  | none => exact Path.mono h ha
  | some c =>
    obtain ⟨wake, path, hthreads, hqueues⟩ := h
    exact ⟨wake, path.mono ha, hthreads, hqueues⟩

/-- It is a path from the state before, or from that state with a thread put aside. -/
theorem exists_path (h : Leads admits parked k k') : ∃ k₁, Path admits k₁ k' ∧
    (k₁ = k ∨ ∃ c wake, parked = some c ∧ k₁ = k.setAside c wake) := by
  cases parked with
  | none => exact ⟨k, h, .inl rfl⟩
  | some c =>
    obtain ⟨wake, path, -⟩ := h
    exact ⟨_, path, .inr ⟨c, wake, rfl, rfl⟩⟩

end Leads

end Kernel

/-! ## Effects are paths -/

namespace Effect

variable {admits : Change G → Prop} (k : Kernel G)

/-- Starting a thread takes it into the rotation, or changes nothing. -/
theorem path_startThread (c : CoreId) (t : ThreadId) (hc : k.manages c = true)
    (starts : admits (.start c t)) : Kernel.Path admits k (startThread c t k).1 := by
  simp only [startThread]
  split
  · exact .refl k
  · split
    next hs ho => exact .single (.start c t) starts ⟨hc, hs, Option.isNone_iff_eq_none.mp ho⟩
    next => exact .refl k

/-- Ending a thread is one change, or none if the core does not own it. -/
theorem path_killThread (c : CoreId) (t : ThreadId) (hc : k.manages c = true)
    (kills : admits (.kill c t)) : Kernel.Path admits k (killThread c t k).1 := by
  by_cases ho : k.ownerOf t = some c
  · exact .single (.kill c t) kills ⟨hc, ho⟩
  · simp only [killThread]
    rw [if_neg ho]
    exact .refl k

/-- Asking for a switch queues a deferred call. -/
theorem path_requestYield (c : CoreId) (defers : admits (.defer c (.reschedule c))) :
    Kernel.Path admits k (requestYield c k) :=
  .single (.defer c (.reschedule c)) defers trivial

/-- Waking a thread is one change, or none if it does not wait. -/
theorem path_undelay (c : CoreId) (t : ThreadId) (wakes : admits (.wake c t)) :
    Kernel.Path admits k (undelay c t k).1 := by
  simp only [undelay]
  split
  next h => exact .single (.wake c t) wakes h
  next => exact .refl k

/-- A switch is one change. -/
theorem path_yieldThread (c : CoreId) (context : Context) (turns : admits (.turn c context)) :
    Kernel.Path admits k (yieldThread c context k).1 :=
  .single (.turn c context) turns trivial

/-- A tick is counted and then switches, or changes nothing. -/
theorem path_onTick (c : CoreId) (context : Context) (ticks : admits (.advance c))
    (turns : admits (.turn c context)) : Kernel.Path admits k (onTick c context k).1 := by
  simp only [onTick]
  split
  next h => exact .head (.advance c) ticks h (path_yieldThread _ c context turns)
  next => exact .refl k

/-- The beginning of scheduling is one change, or none if the core was started before. -/
theorem path_bootstrap (c : CoreId) (hc : k.manages c = true) (boots : admits (.bootstrap c)) :
    Kernel.Path admits k (bootstrap c k).1 := by
  simp only [bootstrap]
  split
  next => exact .refl k
  next h => exact .single (.bootstrap c) boots ⟨hc, Bool.eq_false_iff.mpr h⟩

/-- A thread is made. -/
theorem path_newThread (entry : ThreadEntry G) (description : String)
    (adds : ∀ th, admits (.addThread th)) :
    Kernel.Path admits k (newThread entry description k).1 :=
  .single (.addThread { description, entry }) (adds _) ⟨rfl, rfl⟩

/-- A thread that nobody owns gets its argument and is then started. -/
theorem path_startThreadHere (here : CoreId) (t : ThreadId) (argument : UInt64)
    (hc : k.manages here = true) (adjusts : admits (.adjust t fun th => { th with argument }))
    (starts : admits (.start here t)) :
    Kernel.Path admits k (startThreadHere here t argument k).1 := by
  simp only [startThreadHere]
  split
  · exact .refl k
  · exact .head (.adjust t fun th => { th with argument }) adjusts (fun _ => ⟨rfl, rfl⟩)
      (path_startThread _ here t hc starts)

/-- The core that owns a thread is a managed one. -/
theorem manages_of_owningCore {k : Kernel G} {t : ThreadId} {c : CoreId}
    (h : owningCore k t = some c) : k.manages c = true := by
  simp only [owningCore] at h
  obtain ⟨d, -, hd⟩ := Option.bind_eq_some_iff.mp h
  split at hd
  next hm =>
    cases hd
    exact hm
  next => cases hd

/-- A thread gets its exit code and is then ended, if a managed core owns it. -/
theorem path_exitThread (t : ThreadId) (code : ExitCode)
    (adjusts : admits (.adjust t fun th => { th with exitCode := code }))
    (kills : ∀ c, admits (.kill c t)) : Kernel.Path admits k (exitThread t code k).1 := by
  simp only [exitThread]
  split
  · exact .refl k
  next c hc =>
    have hm : k.manages c = true := manages_of_owningCore hc
    exact .head (.adjust t fun th => { th with exitCode := code }) adjusts (fun _ => ⟨rfl, rfl⟩)
      (path_killThread _ c t hm (kills c))

/-- The thread in the slot gets its exit code and is then ended. -/
theorem path_exitThreadHere (here : CoreId) (code : ExitCode)
    (adjusts : ∀ t, admits (.adjust t fun th => { th with exitCode := code }))
    (kills : ∀ c t, admits (.kill c t)) :
    Kernel.Path admits k (exitThreadHere here code k).1 := by
  simp only [exitThreadHere]
  split
  · exact .refl k
  next t _ => exact path_exitThread k t code (adjusts t) fun c => kills c t

/-- The core that owns a thread wakes it, or nothing changes. -/
theorem path_undelayThread (t : ThreadId) (wakes : ∀ c, admits (.wake c t)) :
    Kernel.Path admits k (undelayThread t k).1 := by
  simp only [undelayThread]
  split
  · exact .refl k
  next c _ => exact path_undelay k c t (wakes c)

/-! ### Events

What is admitted of the changes that operations on an event make. -/

/-- A look at the latch clears it, or changes nothing. -/
theorem path_tryConsume (e : EventId) (clears : admits (.setRaised e false)) :
    Kernel.Path admits k (tryConsume e k).1 := by
  simp only [tryConsume]
  split
  · split
    · exact .single (.setRaised e false) clears trivial
    · exact .refl k
  · exact .refl k

/-- Releasing a waiter marks its entry, and wakes its thread if that waits. -/
theorem path_release (w : WaitId) (signals : admits (.updateWait w WaitEntry.signal))
    (wakes : ∀ c t, admits (.wake c t)) : Kernel.Path admits k (release w k).1 := by
  refine .head (.updateWait w WaitEntry.signal) signals (fun _ => rfl) ?_
  simp only [release]
  dsimp only [Change.apply]
  split
  · exact .refl _
  next entry _ => exact path_undelayThread _ entry.thread fun c => wakes c entry.thread

/-- Entries are popped until one of them is released. -/
theorem path_releaseOne (e : EventId) (waiters : WaitQueue)
    (pops : ∀ q, admits (.setWaiters e q)) (signals : ∀ w, admits (.updateWait w WaitEntry.signal))
    (wakes : ∀ c t, admits (.wake c t)) : Kernel.Path admits k (releaseOne e waiters k).1 := by
  induction waiters generalizing k with
  | nil => exact .refl k
  | cons w rest ih =>
    refine .head (.setWaiters e rest) (pops rest) trivial
      ((path_release _ w (signals w) wakes).trans ?_)
    dsimp only [releaseOne, Change.apply]
    split
    · exact .refl _
    · -- nobody was woken: the same again with the queue that is left
      exact ih _

/-- One waiter after the other is released. -/
theorem path_releaseAll (waiters : WaitQueue)
    (signals : ∀ w, admits (.updateWait w WaitEntry.signal))
    (wakes : ∀ c t, admits (.wake c t)) : Kernel.Path admits k (releaseAll waiters k) := by
  induction waiters generalizing k with
  | nil => exact .refl k
  | cons w rest ih => exact (path_release k w (signals w) wakes).trans (ih _)

/-- A signal latches the event, pops entries, and releases waiters. -/
theorem path_signalEvent (e : EventId) (latches : admits (.setRaised e true))
    (pops : ∀ q, admits (.setWaiters e q)) (signals : ∀ w, admits (.updateWait w WaitEntry.signal))
    (wakes : ∀ c t, admits (.wake c t)) : Kernel.Path admits k (signalEvent e k) := by
  unfold signalEvent
  split
  · refine (path_releaseOne k e (k.waitersOf e) pops signals wakes).trans ?_
    dsimp only
    split
    · exact .refl _
    · exact .single (.setRaised e true) latches trivial
  · exact .head (.setRaised e true) latches trivial
      (.head (.setWaiters e []) (pops []) trivial (path_releaseAll _ _ signals wakes))

/-- The end of a wait takes the entry out of the queue, and its mark. -/
theorem path_completeWait (e : EventId) (w : WaitId) (leaves : ∀ q, admits (.setWaiters e q))
    (takes : admits (.updateWait w WaitEntry.take)) :
    Kernel.Path admits k (completeWait e w k).1 := by
  refine .head (.setWaiters e ((k.waitersOf e).remove w)) (leaves _) trivial ?_
  simp only [completeWait]
  dsimp only [Change.apply]
  split
  · exact .single (.updateWait w WaitEntry.take) takes fun _ => rfl
  · exact .refl _

/-! ## Effects that put a thread aside -/

open Kernel (Leads)

/-- The tick at which a delay of the running thread of a core ends; none if it has no deadline. -/
def deadline (c : CoreId) (span : TimeSpan) : Option Nat :=
  if span.isInfinite then none
  else some (RunQueues.wakeTick (k.queues c).ticks span k.slice)

/-- Putting the running thread aside for a span sets it aside until a deadline, or without one. -/
theorem park_eq (c : CoreId) (span : TimeSpan) :
    park c span k = k.setAside c (deadline k c span) := by
  simp only [park, Kernel.setAside, deadline]
  cases (k.queues c).running with
  | none => rfl
  | some t => cases span.isInfinite <;> rfl

/-- Events and wait entries have no part in putting a thread aside. -/
theorem setAside_addWait_setWaiters (c : CoreId) (wake : Option Nat) (entry : WaitEntry)
    (e : EventId) (q : WaitQueue) :
    ((k.addWait entry).setWaiters e q).setAside c wake =
      ((k.setAside c wake).addWait entry).setWaiters e q := by
  have hq : ((k.addWait entry).setWaiters e q).queues c = k.queues c := rfl
  simp only [Kernel.setAside]
  rw [hq]
  cases (k.queues c).running with
  | none => rfl
  | some t => cases wake <;> rfl

/-- Where a delay with this answer put a thread aside. -/
def delayParks (c : CoreId) (span : TimeSpan) : Outcome Unit → Option CoreId
  | .ok () => if span.isZero then none else some c
  | .error _ => none

/-- Where the first half of a wait with this answer put a thread aside. -/
def enqueueParks (c : CoreId) : Outcome (Option WaitId) → Option CoreId
  | .ok (some _) => some c
  | _ => none

/-- Where both halves at once with this answer put a thread aside: such a wait finds no wakeup. -/
def waitParks (c : CoreId) (span : TimeSpan) : Outcome Unit → Option CoreId
  | .error .timeout => if span.isZero then none else some c
  | _ => none

/-- A delay that is no plain yield puts the running thread aside and queues a reschedule. -/
theorem delay_of_pos (c : CoreId) {span : TimeSpan} (hn : ¬ span.isNegative) (hz : ¬ span.isZero) :
    delay c span k = (requestYield c (k.setAside c (deadline k c span)), .ok ()) := by
  simp only [delay]
  rw [if_neg hn, if_neg hz, park_eq]

/-- A delay puts the running thread aside, if it does not fail, and then asks for a switch. -/
theorem leads_delay (c : CoreId) (span : TimeSpan) (defers : admits (.defer c (.reschedule c))) :
    Leads admits (delayParks c span (delay c span k).2) k (delay c span k).1 := by
  by_cases hn : span.isNegative
  · simp only [delay]
    rw [if_pos hn]
    exact Kernel.Path.refl k
  · by_cases hz : span.isZero
    · simp only [delay]
      rw [if_neg hn, if_pos hz]
      simp only [delayParks, hz, if_true]
      exact path_requestYield k c defers
    · rw [delay_of_pos k c hn hz]
      simp only [delayParks, hz]
      exact ⟨_, path_requestYield _ c defers, rfl, Kernel.queues_setDpcs _ c _⟩

/-- Put the running thread `t` of a core aside, queue a reschedule, and queue an entry of `t` behind
the other waiters of an event. -/
def queueAside (e : EventId) (c : CoreId) (span : TimeSpan) (t : ThreadId) (k : Kernel G) :
    Kernel G :=
  ((requestYield c (k.setAside c (deadline k c span))).addWait { thread := t }).setWaiters e
    ((k.waitersOf e).push k.waits.length)

/-- A thread that is to wait for a while is queued and put aside. -/
theorem queueThread_of_pos (e : EventId) (c : CoreId) {span : TimeSpan} (t : ThreadId)
    (hn : ¬ span.isNegative) (hz : ¬ span.isZero) :
    queueThread e c span t k = (queueAside e c span t k, .ok (some k.waits.length)) := by
  simp only [queueThread]
  rw [delay_of_pos _ c hn hz]
  dsimp only
  rw [setAside_addWait_setWaiters]
  rfl

/-- A clear latch is left as it is. -/
theorem tryConsume_of_clear {e : EventId} (hr : ¬ k.isRaised e) : tryConsume e k = (k, false) := by
  simp only [tryConsume]
  rw [if_neg hr]

/-- A raised latch is always consumed. -/
theorem tryConsume_of_raised {e : EventId} (hr : k.isRaised e) :
    tryConsume e k = ((tryConsume e k).1, true) := by
  simp only [tryConsume]
  rw [if_pos hr]

/-- **A wait under the lock.** It uses a latched signal, or gives up for want of time or of a thread
that could wait, or puts the running thread aside. -/
theorem enqueueLocked_cases (e : EventId) (c : CoreId) {span : TimeSpan} (hn : ¬ span.isNegative) :
    (k.isRaised e ∧ enqueueLocked e c span k = ((tryConsume e k).1, .ok none)) ∨
    (¬ k.isRaised e ∧ span.isZero ∧ enqueueLocked e c span k = (k, .error .timeout)) ∨
    (¬ k.isRaised e ∧ ¬ span.isZero ∧ (k.queues c).running = none ∧
      enqueueLocked e c span k = (k, .error .invalidOperation)) ∨
    (¬ k.isRaised e ∧ ¬ span.isZero ∧ ∃ t, (k.queues c).running = some t ∧
      enqueueLocked e c span k = (queueAside e c span t k, .ok (some k.waits.length))) := by
  simp only [enqueueLocked]
  by_cases hr : k.isRaised e
  · rw [tryConsume_of_raised k hr]
    exact .inl ⟨hr, rfl⟩
  · rw [tryConsume_of_clear k hr]
    by_cases hz : span.isZero
    · exact .inr (.inl ⟨hr, hz, if_pos hz⟩)
    · refine .inr (.inr ?_)
      dsimp only
      rw [if_neg hz, if_neg Bool.false_ne_true]
      simp only [queueRunning]
      cases hrun : (k.queues c).running with
      | none => exact .inl ⟨hr, hz, rfl, rfl⟩
      | some t => exact .inr ⟨hr, hz, t, rfl, queueThread_of_pos k e c t hn hz⟩

/-- The look at the latch without the lock makes no difference to a wait by itself. -/
theorem enqueueWait_of_not_negative (here : CoreId) (e : EventId) {span : TimeSpan}
    (hn : ¬ span.isNegative) : enqueueWait here e span k = enqueueLocked e here span k := by
  simp only [enqueueWait]
  rw [if_neg hn]
  by_cases hr : k.isRaised e
  · simp only [enqueueLocked]
    rw [tryConsume_of_raised k hr]
    rfl
  · rw [tryConsume_of_clear k hr]
    rfl

/-- What is admitted of the changes that a wait on core `here` makes. -/
structure WaitAdmitted (admits : Change G → Prop) (here : CoreId) (e : EventId) : Prop where
  /-- it uses a signal -/
  clears : admits (.setRaised e false)
  /-- it asks for a switch -/
  defers : admits (.defer here (.reschedule here))
  /-- it makes an entry -/
  enters : ∀ t, admits (.addWait t)
  /-- it queues the entry, and takes it out again -/
  queues : ∀ q, admits (.setWaiters e q)

/-- A thread that is queued is put aside first, as far as the kernel state goes. -/
theorem leads_queueAside (e : EventId) (c : CoreId) (span : TimeSpan) (t : ThreadId)
    (ha : WaitAdmitted admits c e) : Leads admits (some c) k (queueAside e c span t k) :=
  ⟨_, .head (.defer c (.reschedule c)) ha.defers trivial (.head (.addWait t) (ha.enters t) trivial
    (.single (.setWaiters e _) (ha.queues _) trivial)), rfl, Kernel.queues_setDpcs _ c _⟩

/-- The locked part of a first half puts the running thread aside exactly if it queues it. -/
theorem leads_enqueueLocked (e : EventId) (c : CoreId) {span : TimeSpan} (hn : ¬ span.isNegative)
    (ha : WaitAdmitted admits c e) :
    Leads admits (enqueueParks c (enqueueLocked e c span k).2) k (enqueueLocked e c span k).1 := by
  rcases enqueueLocked_cases k e c hn with
    ⟨-, h⟩ | ⟨-, -, h⟩ | ⟨-, -, -, h⟩ | ⟨-, -, t, -, h⟩ <;> rw [h]
  · exact path_tryConsume k e ha.clears
  · exact Kernel.Path.refl k
  · exact Kernel.Path.refl k
  · exact leads_queueAside k e c span t ha

/-- The first half of a wait puts the running thread aside exactly if it queues it. -/
theorem leads_enqueueWait (here : CoreId) (e : EventId) (span : TimeSpan)
    (ha : WaitAdmitted admits here e) :
    Leads admits (enqueueParks here (enqueueWait here e span k).2) k
      (enqueueWait here e span k).1 := by
  by_cases hn : span.isNegative
  · simp only [enqueueWait]
    rw [if_pos hn]
    exact Kernel.Path.refl k
  · rw [enqueueWait_of_not_negative k here e hn]
    exact leads_enqueueLocked k e here hn ha

/-- The entry of a thread that was just put aside has not been handed a wakeup. -/
theorem isSignaled_queueAside (e : EventId) (c : CoreId) (span : TimeSpan) (t : ThreadId) :
    (queueAside e c span t k).isSignaled k.waits.length = false := by
  have hw : (queueAside e c span t k).waits = k.waits ++ [{ thread := t }] := by
    have : (k.setAside c (deadline k c span)).waits = k.waits := by
      simp only [Kernel.setAside]
      split <;> rfl
    exact congrArg (· ++ [_]) this
  simp only [Kernel.isSignaled]
  rw [hw, List.getElem?_concat_length]

/-- The second half puts nobody aside. -/
theorem leads_afterEnqueue (e : EventId) (c : CoreId) {span : TimeSpan} (hn : ¬ span.isNegative)
    (ha : WaitAdmitted admits c e) :
    Leads admits (waitParks c span (afterEnqueue e (enqueueLocked e c span k)).2) k
      (afterEnqueue e (enqueueLocked e c span k)).1 := by
  rcases enqueueLocked_cases k e c hn with
    ⟨-, h⟩ | ⟨-, hz, h⟩ | ⟨-, -, -, h⟩ | ⟨-, hz, t, -, h⟩ <;> rw [h]
  · exact path_tryConsume k e ha.clears
  · simp only [afterEnqueue, waitParks, hz, if_true]
    exact Kernel.Path.refl k
  · exact Kernel.Path.refl k
  · -- the entry has just been queued and has no mark: the second half only takes it out again
    have hsig (q : WaitQueue) :
        ((queueAside e c span t k).setWaiters e q).isSignaled k.waits.length = false :=
      isSignaled_queueAside k e c span t
    simp only [afterEnqueue, completeWait, hsig, waitParks, hz]
    obtain ⟨wake, hpath, hthreads, hqueues⟩ : Leads admits (some c) k (queueAside e c span t k) :=
      leads_queueAside k e c span t ha
    exact ⟨wake, hpath.trans (.single (.setWaiters e _) (ha.queues _) trivial), hthreads, hqueues⟩

/-- A wait as a whole puts the running thread aside exactly if its first half does. -/
theorem leads_waitEvent (here : CoreId) (e : EventId) (span : TimeSpan)
    (ha : WaitAdmitted admits here e) :
    Leads admits (waitParks here span (waitEvent here e span k).2) k
      (waitEvent here e span k).1 := by
  simp only [waitEvent]
  by_cases hn : span.isNegative
  · simp only [enqueueWait]
    rw [if_pos hn]
    exact Kernel.Path.refl k
  · rw [enqueueWait_of_not_negative k here e hn]
    exact leads_afterEnqueue k e here hn ha

end Effect

end Nucleus
