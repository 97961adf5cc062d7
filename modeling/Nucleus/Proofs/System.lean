import Nucleus.Boot
import Nucleus.Proofs.Change
import Nucleus.Proofs.Tables

/-!
# Systems in operation

A system is a machine on which operations are called, in any order, each on some managed core. An
operation is carried out in segments: it may hand control to client code, which may call further
operations, and goes on later. The first half of a wait may also be stopped between its look at
the latch without the lock and the taking of the lock.

* `Op` lists the operations, `Op.call` is what each does and `Op.effect` what it does to the kernel
  state, for those that run no client code.
* `System.Step` carries out one segment, and `System.Runs` is a run, with its history of segments.
* `System.Runs.sound` says that every segment is a path of elementary changes, with a thread put
  aside before it or not, and that a whole operation has its effect.
* `System.Runs.keeps` is the rule for invariants of runs.
-/

namespace Nucleus

variable {G : Guest}

/-! ## Operations -/

/-- An operation of the kernel. -/
inductive Op (G : Guest) where
  /-- make a thread without a context -/
  | newThread (entry : ThreadEntry G) (description : String)
  /-- make a thread -/
  | createThread (entry : G.Entry) (description : String)
  /-- bring a thread into the rotation of a core -/
  | startThread (c : CoreId) (t : ThreadId)
  /-- set the argument of a thread and bring it into the rotation of the executing core -/
  | startThreadHere (t : ThreadId) (argument : UInt64)
  /-- end a thread that a core owns -/
  | killThread (c : CoreId) (t : ThreadId)
  /-- end a thread with a code -/
  | exitThread (t : ThreadId) (code : ExitCode)
  /-- end the running thread with a code -/
  | exitThreadHere (code : ExitCode)
  /-- run the body of a thread, then end it -/
  | runThread (t : ThreadId)
  /-- put the running thread of a core aside -/
  | delay (c : CoreId) (span : TimeSpan)
  /-- put the running thread of the executing core aside -/
  | delayHere (span : TimeSpan)
  /-- wake a thread that waits on a core -/
  | undelay (c : CoreId) (t : ThreadId)
  /-- wake a thread by way of the core that owns it -/
  | undelayThread (t : ThreadId)
  /-- switch to the next thread of a core -/
  | yieldThread (c : CoreId) (context : Context)
  /-- tick a core -/
  | onTick (c : CoreId) (context : Context)
  /-- start scheduling on a core -/
  | bootstrap (c : CoreId)
  /-- look at the queues of a core -/
  | inspect (c : CoreId)
  /-- queue a deferred call on a core -/
  | registerDpc (c : CoreId) (d : Dpc G)
  /-- queue a deferred call on the executing core -/
  | registerDpcHere (make : CoreId → Dpc G)
  /-- count the deferred calls of a core -/
  | pendingDpcs (c : CoreId)
  /-- install a handler on a core -/
  | registerIrq (c : CoreId) (irq : SystemIrq) (h : Handler G)
  /-- run the handler of a line on a core -/
  | dispatch (fuel : Nat) (c : CoreId) (irq : SystemIrq) (context : Context)
  /-- run the handler of a line on the executing core -/
  | dispatchHere (fuel : Nat) (irq : SystemIrq) (context : Context)
  /-- make an event -/
  | newEvent (autoReset : Bool)
  /-- signal an event -/
  | signalEvent (e : EventId)
  /-- clear the latch of an event -/
  | resetEvent (e : EventId)
  /-- count the waiters of an event -/
  | waiterCount (e : EventId)
  /-- first half of a wait -/
  | enqueueWait (e : EventId) (span : TimeSpan)
  /-- second half of a wait -/
  | completeWait (e : EventId) (w : WaitId)
  /-- both halves of a wait -/
  | waitEvent (e : EventId) (span : TimeSpan)
  /-- give an object a name -/
  | createObject (x : ObjectId) (name : String) (parent : Parent)
  /-- make a directory without a name -/
  | newDirectory
  /-- make a device without a name -/
  | newDevice (d : Device)
  /-- make a directory -/
  | createDirectory (name : String) (parent : Parent)
  /-- make an event with a name -/
  | createEvent (name : String) (autoReset : Bool) (parent : Parent)

namespace Op

/-- The type of an operation's answer. -/
abbrev Result : Op G → Type
  | newThread .. | createThread .. => ThreadId
  | startThread .. | startThreadHere .. | undelay .. => Bool
  | killThread .. | exitThread .. | exitThreadHere .. | runThread .. => Outcome Unit
  | delay .. | delayHere .. | completeWait .. | waitEvent .. => Outcome Unit
  | undelayThread .. => Outcome Bool
  | yieldThread .. | onTick .. => Context
  | bootstrap .. => Outcome Context
  | inspect .. => RunQueues
  | registerDpc .. | registerDpcHere .. | signalEvent .. | resetEvent .. => Unit
  | pendingDpcs .. | waiterCount .. => Nat
  | registerIrq .. => Option (Handler G)
  | dispatch .. | dispatchHere .. => Dispatch
  | newEvent .. => EventId
  | enqueueWait .. => Outcome (Option WaitId)
  | createObject .. | createDirectory .. | createEvent .. => Outcome Accessor
  | newDirectory | newDevice .. => ObjectId

/-- What an operation does. -/
def call : (op : Op G) → Call G op.Result
  | newThread entry description => Call.newThread entry description
  | createThread entry description => Call.createThread entry description
  | startThread c t => Call.startThread c t
  | startThreadHere t argument => Call.startThreadHere t argument
  | killThread c t => Call.killThread c t
  | exitThread t code => Call.exitThread t code
  | exitThreadHere code => Call.exitThreadHere code
  | runThread t => Call.runThread t
  | delay c span => Call.delay c span
  | delayHere span => Call.delayHere span
  | undelay c t => Call.undelay c t
  | undelayThread t => Call.undelayThread t
  | yieldThread c context => Call.yieldThread c context
  | onTick c context => Call.onTick c context
  | bootstrap c => Call.bootstrap c
  | inspect c => Call.inspect c id
  | registerDpc c d => Call.registerDpc c d
  | registerDpcHere make => Call.registerDpcHere make
  | pendingDpcs c => Call.pendingDpcs c
  | registerIrq c irq h => Call.registerIrq c irq h
  | dispatch fuel c irq context => Call.dispatch fuel c irq context
  | dispatchHere fuel irq context => Call.dispatchHere fuel irq context
  | newEvent autoReset => Call.newEvent autoReset
  | signalEvent e => Call.signalEvent e
  | resetEvent e => Call.resetEvent e
  | waiterCount e => Call.waiterCount e
  | enqueueWait e span => Call.enqueueWait e span
  | completeWait e w => Call.completeWait e w
  | waitEvent e span => Call.waitEvent e span
  | createObject x name parent => Call.createObject x name parent
  | newDirectory => Call.newDirectory
  | newDevice d => Call.newDevice d
  | createDirectory name parent => Call.createDirectory name parent
  | createEvent name autoReset parent => Call.createEvent name autoReset parent

/-- What an operation on core `here` does to the kernel state; nothing is said of one that runs
client code or has the chip build a context. -/
def effect (here : CoreId) : (op : Op G) → Option (Effect G op.Result)
  | newThread entry description => some (Effect.newThread entry description)
  | createThread .. => none
  | startThread c t => some (Effect.startThread c t)
  | startThreadHere t argument => some (Effect.startThreadHere here t argument)
  | killThread c t => some (Effect.killThread c t)
  | exitThread t code => some (Effect.exitThread t code)
  | exitThreadHere code => some (Effect.exitThreadHere here code)
  | runThread .. => none
  | delay c span => some (Effect.delay c span)
  | delayHere span => some (Effect.delay here span)
  | undelay c t => some (Effect.undelay c t)
  | undelayThread t => some (Effect.undelayThread t)
  | yieldThread c context => some (Effect.yieldThread c context)
  | onTick c context => some (Effect.onTick c context)
  | bootstrap c => some (Effect.bootstrap c)
  | inspect c => some fun k => (k, k.queues c)
  | registerDpc c d => some fun k => (k.setDpcs c (k.dpcs c ++ [d]), ())
  | registerDpcHere make => some fun k => (k.setDpcs here (k.dpcs here ++ [make here]), ())
  | pendingDpcs c => some fun k => (k, (k.dpcs c).length)
  | registerIrq c irq h => some fun k => (k.setHandler c irq h, k.handler? c irq)
  | dispatch .. => none
  | dispatchHere .. => none
  | newEvent autoReset => some (Effect.newEvent autoReset)
  | signalEvent e => some fun k => (Effect.signalEvent e k, ())
  | resetEvent e => some fun k => (k.setRaised e false, ())
  | waiterCount e => some fun k => (k, (k.waitersOf e).length)
  | enqueueWait e span => some (Effect.enqueueWait here e span)
  | completeWait e w => some (Effect.completeWait e w)
  | waitEvent e span => some (Effect.waitEvent here e span)
  | createObject x name parent => some (Effect.createObject x name parent)
  | newDirectory => some Effect.newDirectory
  | newDevice d => some (Effect.newDevice d)
  | createDirectory name parent => some fun k =>
    Effect.createObject (Effect.newDirectory k).2 name parent (Effect.newDirectory k).1
  | createEvent name autoReset parent => some fun k =>
    Effect.createObject (.event (Effect.newEvent autoReset k).2) name parent
      (Effect.newEvent autoReset k).1

/-- The effects are what the operations do. -/
theorem does_call {here : CoreId} {op : Op G} {f : Effect G op.Result}
    (hf : op.effect here = some f) : op.call.Does here f := by
  open Call in
  cases op with
  | newThread entry description => cases hf; exact does_newThread entry description
  | createThread => cases hf
  | startThread c t => cases hf; exact does_startThread c t
  | startThreadHere t argument => cases hf; exact does_startThreadHere t argument
  | killThread c t => cases hf; exact does_killThread c t
  | exitThread t code => cases hf; exact does_exitThread t code
  | exitThreadHere code => cases hf; exact does_exitThreadHere code
  | runThread => cases hf
  | delay c span => cases hf; exact does_delay c span
  | delayHere span => cases hf; exact does_bind does_currentCore fun c => does_delay c span
  | undelay c t => cases hf; exact does_undelay c t
  | undelayThread t => cases hf; exact does_undelayThread t
  | yieldThread c context => cases hf; exact does_yieldThread c context
  | onTick c context => cases hf; exact does_onTick c context
  | bootstrap c => cases hf; exact does_bootstrap c
  | inspect c => cases hf; exact does_locked _ (does_read _)
  | registerDpc c d => cases hf; exact does_registerDpc c d
  | registerDpcHere make =>
    cases hf
    exact does_bind does_currentCore fun c => does_registerDpc c (make c)
  | pendingDpcs c => cases hf; exact does_overheld _ (does_read _)
  | registerIrq c irq h => cases hf; exact does_registerIrq c irq h
  | dispatch => cases hf
  | dispatchHere => cases hf
  | newEvent autoReset => cases hf; exact does_newEvent autoReset
  | signalEvent e => cases hf; exact does_signalEvent e
  | resetEvent e => cases hf; exact does_change (·.setRaised e false)
  | waiterCount e => cases hf; exact does_locked _ (does_read _)
  | enqueueWait e span => cases hf; exact does_enqueueWait e span
  | completeWait e w => cases hf; exact does_completeWait e w
  | waitEvent e span => cases hf; exact does_waitEvent e span
  | createObject x name parent => cases hf; exact does_createObject x name parent
  | newDirectory => cases hf; exact does_newDirectory
  | newDevice d => cases hf; exact does_newDevice d
  | createDirectory name parent =>
    cases hf
    exact does_bind does_newDirectory fun x => does_createObject x name parent
  | createEvent name autoReset parent =>
    cases hf
    exact does_bind (does_newEvent autoReset) fun e => does_createObject (.event e) name parent

/-- The cores and events that an operation names are there. Nothing is asked of threads and wait
entries: one that was never made is found nowhere. -/
def Valid (k : Kernel G) : Op G → Prop
  | startThread c _ | killThread c _ | delay c _ | undelay c _ | yieldThread c _ | onTick c _
  | bootstrap c | inspect c | registerDpc c _ | pendingDpcs c | registerIrq c _ _
  | dispatch _ c _ _ => k.manages c = true
  | signalEvent e | resetEvent e | waiterCount e | enqueueWait e _ | completeWait e _
  | waitEvent e _ => e < k.events.length
  | _ => True

instance (k : Kernel G) : (op : Op G) → Decidable (op.Valid k)
  | startThread c _ | killThread c _ | delay c _ | undelay c _ | yieldThread c _ | onTick c _
  | bootstrap c | inspect c | registerDpc c _ | pendingDpcs c | registerIrq c _ _
  | dispatch _ c _ _ => inferInstanceAs (Decidable (k.manages c = true))
  | signalEvent e | resetEvent e | waiterCount e | enqueueWait e _ | completeWait e _
  | waitEvent e _ => inferInstanceAs (Decidable (e < k.events.length))
  | newThread .. | createThread .. | startThreadHere .. | exitThread .. | exitThreadHere ..
  | runThread .. | delayHere .. | undelayThread .. | registerDpcHere .. | dispatchHere ..
  | newEvent .. | createObject .. | newDirectory | newDevice .. | createDirectory ..
  | createEvent .. => inferInstanceAs (Decidable True)

/-- Which of the rarer changes an operation makes. -/
def scope : Op G → Scope
  | yieldThread c _ | onTick c _ => .turning c
  | dispatch .. | dispatchHere .. => .dispatching
  | undelay .. | undelayThread .. => .waking
  | signalEvent e | resetEvent e | enqueueWait e _ | completeWait e _ | waitEvent e _ => .event e
  | _ => .plain

/-- May the operation end the thread? -/
def MayEnd (t : ThreadId) : Op G → Prop
  | killThread _ u | exitThread u _ | runThread u => u = t
  | exitThreadHere _ => True
  | _ => False

/-- Is the operation about names, or about objects that can have one? -/
def MayName : Op G → Prop
  | createObject .. | newDirectory | newDevice .. | createDirectory .. | createEvent .. => True
  | _ => False

/-- May the operation make the change? A thread is ended by few operations, names are given by few,
and a core is started by one; but for switching, no change saves a context. -/
def MayMake (op : Op G) (ch : Change G) : Prop :=
  op.scope.Admits ch ∧
  match ch with
  | .kill _ t => op.MayEnd t
  | .bootstrap c => op = bootstrap c
  | .adjust _ f => ∀ th, (f th).context = th.context
  | .setObjects _ => op.MayName
  | _ => True

/-- The core whose running thread an operation on core `here` with this answer put aside. -/
def parks (here : CoreId) : (op : Op G) → op.Result → Option CoreId
  | delay c span, answer => Effect.delayParks c span answer
  | delayHere span, answer => Effect.delayParks here span answer
  | enqueueWait _ _, answer => Effect.enqueueParks here answer
  | waitEvent _ span, answer => Effect.waitParks here span answer
  | _, _ => none

open Kernel (Leads)

theorem path_createObject {admits : Change G → Prop} (k : Kernel G) (x : ObjectId) (name : String)
    (parent : Parent) (names : ∀ objects, admits (.setObjects objects)) :
    Kernel.Path admits k (Effect.createObject x name parent k).1 := by
  simp only [Effect.createObject]
  split
  · exact .refl k
  · exact .single (.setObjects _) (names _) trivial

/-- What the operations that wait admit. -/
theorem waitAdmitted {op : Op G} {e : EventId} (h : op.scope = .event e) (here : CoreId) :
    Effect.WaitAdmitted op.MayMake here e :=
  ⟨⟨h, trivial⟩, ⟨trivial, trivial⟩, fun _ => ⟨⟨e, h⟩, trivial⟩, fun _ => ⟨h, trivial⟩⟩

/-- An operation with an effect takes the kernel along a path. -/
theorem leads_effect {here : CoreId} {op : Op G} {f : Effect G op.Result} {k : Kernel G}
    (hf : op.effect here = some f) (hv : op.Valid k) (hh : k.manages here = true) :
    Leads op.MayMake (op.parks here (f k).2) k (f k).1 := by
  open Effect in
  cases op with
  | newThread entry description =>
    cases hf
    exact path_newThread k entry description fun _ => ⟨trivial, trivial⟩
  | createThread => cases hf
  | startThread c t => cases hf; exact path_startThread k c t hv ⟨trivial, trivial⟩
  | startThreadHere t argument =>
    cases hf
    exact path_startThreadHere k here t argument hh ⟨trivial, fun _ => rfl⟩
      ⟨trivial, trivial⟩
  | killThread c t => cases hf; exact path_killThread k c t hv ⟨trivial, rfl⟩
  | exitThread t code =>
    cases hf
    exact path_exitThread k t code ⟨trivial, fun _ => rfl⟩ fun _ => ⟨trivial, rfl⟩
  | exitThreadHere code =>
    cases hf
    exact path_exitThreadHere k here code (fun _ => ⟨trivial, fun _ => rfl⟩)
      fun _ _ => ⟨trivial, trivial⟩
  | runThread => cases hf
  | delay c span => cases hf; exact leads_delay k c span ⟨trivial, trivial⟩
  | delayHere span => cases hf; exact leads_delay k here span ⟨trivial, trivial⟩
  | undelay c t => cases hf; exact path_undelay k c t ⟨.inl rfl, trivial⟩
  | undelayThread t =>
    cases hf
    exact path_undelayThread k t fun _ => ⟨.inl rfl, trivial⟩
  | yieldThread c context =>
    cases hf
    exact path_yieldThread k c context ⟨.inl rfl, trivial⟩
  | onTick c context =>
    cases hf
    exact path_onTick k c context ⟨.inl rfl, trivial⟩ ⟨.inl rfl, trivial⟩
  | bootstrap c => cases hf; exact path_bootstrap k c hv ⟨trivial, rfl⟩
  | inspect c => cases hf; exact Kernel.Path.refl k
  | registerDpc c d =>
    cases hf
    exact Kernel.Path.single (.defer c d) ⟨trivial, trivial⟩ trivial
  | registerDpcHere make =>
    cases hf
    exact Kernel.Path.single (.defer here _) ⟨trivial, trivial⟩ trivial
  | pendingDpcs c => cases hf; exact Kernel.Path.refl k
  | registerIrq c irq h =>
    cases hf
    exact Kernel.Path.single (.setHandler c irq h) ⟨trivial, trivial⟩ trivial
  | dispatch => cases hf
  | dispatchHere => cases hf
  | newEvent autoReset =>
    cases hf
    exact Kernel.Path.single (.addEvent autoReset) ⟨trivial, trivial⟩ trivial
  | signalEvent e =>
    cases hf
    exact path_signalEvent k e ⟨rfl, trivial⟩ (fun _ => ⟨rfl, trivial⟩)
      (fun _ => ⟨⟨e, rfl⟩, trivial⟩) fun _ _ => ⟨.inr ⟨e, rfl⟩, trivial⟩
  | resetEvent e =>
    cases hf
    exact Kernel.Path.single (.setRaised e false) ⟨rfl, trivial⟩ trivial
  | waiterCount e => cases hf; exact Kernel.Path.refl k
  | enqueueWait e span => cases hf; exact leads_enqueueWait k here e span (waitAdmitted rfl here)
  | completeWait e w =>
    cases hf
    exact path_completeWait k e w (fun _ => ⟨rfl, trivial⟩) ⟨⟨e, rfl⟩, trivial⟩
  | waitEvent e span => cases hf; exact leads_waitEvent k here e span (waitAdmitted rfl here)
  | createObject x name parent =>
    cases hf
    exact path_createObject k x name parent fun _ => ⟨trivial, trivial⟩
  | newDirectory =>
    cases hf
    exact Kernel.Path.single (.setObjects _) ⟨trivial, trivial⟩ trivial
  | newDevice d =>
    cases hf
    exact Kernel.Path.single (.setObjects _) ⟨trivial, trivial⟩ trivial
  | createDirectory name parent =>
    cases hf
    exact Kernel.Path.head (.setObjects _) ⟨trivial, trivial⟩ trivial
      (path_createObject _ _ name parent fun _ => ⟨trivial, trivial⟩)
  | createEvent name autoReset parent =>
    cases hf
    exact Kernel.Path.head (.addEvent autoReset) ⟨trivial, trivial⟩ trivial
      (path_createObject _ _ name parent fun _ => ⟨trivial, trivial⟩)

end Op

/-! ## Operations that run client code -/

namespace Call

variable {α β : Type} {admits : Change G → Prop}

/-- Every segment of the call takes the kernel along a path. -/
def Stays (admits : Change G → Prop) (x : Call G α) : Prop :=
  ∀ m, (x m).Guarantees (fun m n => Kernel.Path admits m.kernel n.kernel) m

theorem stays_bind {x : Call G α} {f : α → Call G β} (hx : x.Stays admits)
    (hf : ∀ a, (f a).Stays admits) : (x >>= f).Stays admits :=
  fun m => Run.Guarantees.bind (R := fun m n => Kernel.Path admits m.kernel n.kernel)
    (fun _ _ _ => Kernel.Path.trans) (hx m) hf

/-- A call with an effect, on whatever core, stays on a path if the effect is one. -/
theorem stays_of_does {x : Call G α} {f : Effect G α} (hx : ∀ here, x.Does here f)
    (hf : ∀ k, Kernel.Path admits k (f k).1) : x.Stays admits := by
  intro m
  refine (hx m.chip.current).guarantees rfl fun n hn => ?_
  rw [hn]
  exact hf m.kernel

theorem stays_pure (a : α) : (pure a : Call G α).Stays admits := fun m => .refl m.kernel

theorem stays_look (f : Machine G → α) : (look f).Stays admits := fun m => .refl m.kernel

theorem stays_note (notice : Notice) : (note notice : Call G Unit).Stays admits :=
  fun m => .refl m.kernel

theorem stays_stop (why : Halt) : (stop why : Call G α).Stays admits := fun _ => trivial

theorem stays_interrupt (home : CoreId) (code : G.Routine) (context : Context) :
    (interrupt home code context).Stays admits :=
  fun m => ⟨.refl m.kernel, fun m' _ => .refl m'.kernel⟩

theorem stays_enter (code : G.Entry) (argument : UInt64) : (enter code argument).Stays admits :=
  fun m => ⟨.refl m.kernel, fun m' _ => .refl m'.kernel⟩

/-- A thread that is made gets its first context at once. -/
theorem stays_createThread (entry : G.Entry) (description : String) :
    (createThread entry description).Stays (Op.createThread entry description).MayMake := by
  intro m
  let th : Thread G := { description, entry := .guest entry }
  have hpath : Kernel.Path (Op.createThread entry description).MayMake m.kernel
      ((m.kernel.addThread th).saveContext m.kernel.threads.length m.chip.nextContext) := by
    rw [m.kernel.saveContext_addThread]
    exact .single (.addThread _) ⟨trivial, trivial⟩ ⟨rfl, rfl⟩
  exact hpath

theorem stays_exitThread (t : ThreadId) (code : ExitCode) :
    (exitThread t code : Call G (Outcome Unit)).Stays (Op.runThread t).MayMake :=
  stays_of_does (fun _ => does_exitThread t code) fun k =>
    Effect.path_exitThread k t code ⟨trivial, fun _ => rfl⟩ fun _ => ⟨trivial, rfl⟩

theorem stays_runThread (t : ThreadId) :
    (runThread t : Call G (Outcome Unit)).Stays (Op.runThread t).MayMake := by
  refine stays_bind (stays_look _) fun o => ?_
  cases o with
  | none => exact stays_pure _
  | some th =>
    refine stays_bind ?_ fun ended => ?_
    · cases th.entry with
      | idle => exact stays_stop _
      | guest code => exact stays_enter code th.argument
    · cases ended with
      | ok u => exact stays_exitThread t 0
      | error why => exact stays_bind (stays_note _) fun _ => stays_exitThread t why.code

/-- What the delivery of an interrupt admits: deferred calls are taken, and any core may tick and
switch. -/
structure DispatchAdmitted (admits : Change G → Prop) : Prop where
  /-- a deferred call is taken -/
  takes : ∀ c, admits (.undefer c)
  /-- a core counts a tick -/
  ticks : ∀ c, admits (.advance c)
  /-- a core switches -/
  turns : ∀ c context, admits (.turn c context)

theorem stays_popDpc (c : CoreId) (ha : DispatchAdmitted admits) :
    (popDpc c : Call G (Option (Dpc G))).Stays admits := by
  refine stays_of_does (fun _ => does_popDpc c) fun k => ?_
  simp only [Effect.popDpc]
  cases hd : k.dpcs c with
  | nil => exact .refl k
  | cons d rest =>
    have hrest : rest = (k.dpcs c).tail := by rw [hd]; rfl
    rw [hrest]
    exact .single (.undefer c) (ha.takes c) trivial

theorem stays_drain (fuel : Nat) (c : CoreId) (context : Context) (ha : DispatchAdmitted admits) :
    (drain fuel c context : Call G Context).Stays admits := by
  induction fuel generalizing context with
  | zero => exact stays_stop _
  | succ fuel ih =>
    refine stays_bind (stays_popDpc c ha) fun o => ?_
    cases o with
    | none => exact stays_pure context
    | some d =>
      refine stays_bind (stays_note _) fun _ => stays_bind ?_ ih
      cases d with
      | reschedule c' =>
        exact stays_of_does (fun _ => does_yieldThread c' context) fun k =>
          Effect.path_yieldThread k c' context (ha.turns c' context)
      | routine home code => exact stays_interrupt home code context

theorem stays_dispatch (fuel : Nat) (c : CoreId) (irq : SystemIrq) (context : Context)
    (ha : DispatchAdmitted admits) :
    (dispatch fuel c irq context : Call G Dispatch).Stays admits := by
  refine stays_bind (stays_look _) fun o => ?_
  cases o with
  | none => exact stays_bind (stays_note _) fun _ => stays_pure _
  | some h =>
    refine stays_bind ?_ fun next => stays_pure _
    cases h with
    | drain c' => exact stays_drain fuel c' context ha
    | tick c' =>
      exact stays_of_does (fun _ => does_onTick c' context) fun k =>
        Effect.path_onTick k c' context (ha.ticks c') (ha.turns c' context)
    | routine home code => exact stays_interrupt home code context

theorem stays_currentCore : (currentCore : Call G CoreId).Stays admits := by
  intro m
  exact does_currentCore.guarantees rfl fun n hn => hn ▸ .refl m.kernel

end Call

namespace Op

/-- An operation without an effect stays on a path in each of its segments, and puts no thread
aside. -/
theorem stays_call {here : CoreId} {op : Op G} (hf : op.effect here = none) :
    op.call.Stays op.MayMake ∧ ∀ answer, op.parks here answer = none := by
  have dispatches {op : Op G} (hs : op.scope = .dispatching) :
      Call.DispatchAdmitted op.MayMake :=
    ⟨fun _ => ⟨hs, trivial⟩, fun _ => ⟨.inr hs, trivial⟩, fun _ _ => ⟨.inr hs, trivial⟩⟩
  cases op with
  | createThread entry description =>
    exact ⟨Call.stays_createThread entry description, fun _ => rfl⟩
  | runThread t => exact ⟨Call.stays_runThread t, fun _ => rfl⟩
  | dispatch fuel c irq context =>
    exact ⟨Call.stays_dispatch fuel c irq context (dispatches rfl), fun _ => rfl⟩
  | dispatchHere fuel irq context =>
    exact ⟨Call.stays_bind Call.stays_currentCore fun c =>
      Call.stays_dispatch fuel c irq context (dispatches rfl), fun _ => rfl⟩
  | _ => cases hf

end Op

/-! ## A wait that pauses -/

namespace Call

theorem bind_of_done {α β : Type} {x : Call G α} {f : α → Call G β} {m m' : Machine G} {a : α}
    (h : x m = .done m' a) : (x >>= f) m = f a m' := by
  change (x m).bind f = f a m'
  rw [h]
  rfl

theorem tryConsume_apply (e : EventId) (m : Machine G) :
    tryConsume e m =
      .done { m with kernel := (Effect.tryConsume e m.kernel).1 }
        (Effect.tryConsume e m.kernel).2 := by
  simp only [tryConsume, Effect.tryConsume]
  rw [bind_of_done (read_apply _ m)]
  by_cases hr : m.kernel.isRaised e
  · rw [if_pos hr, if_pos hr, bind_of_done (read_apply _ m)]
    by_cases ha : m.kernel.isAutoReset e
    · rw [if_pos ha, if_pos ha]
      rfl
    · rw [if_neg ha, if_neg ha]
      rfl
  · rw [if_neg hr, if_neg hr]
    rfl

theorem currentCore_apply {m : Machine G} (h : m.kernel.manages m.chip.current = true) :
    currentCore m = .done m m.chip.current := by
  simp only [currentCore]
  rw [bind_of_done (look_apply _ m), bind_of_done (read_apply _ m), if_pos h]
  rfl

theorem currentCore_apply_of_unmanaged {m : Machine G}
    (h : ¬ m.kernel.manages m.chip.current = true) :
    currentCore m = .halt { m with log := .unmanagedCore m.chip.current :: m.log }
      (.panic (.unmanagedCore m.chip.current)) := by
  simp only [currentCore]
  rw [bind_of_done (look_apply _ m), bind_of_done (read_apply _ m), if_neg h]
  rfl

/-- A wait that may pause at its first window either returns at once, or it has found the latch
clear and has done nothing so far. -/
theorem rests_enqueueWait_pausing {e : EventId} {span : TimeSpan} {m n : Machine G}
    {r : Outcome (Option WaitId) ⊕ Call G (Outcome (Option WaitId))}
    (hm : m.kernel.manages m.chip.current = true)
    (h : (enqueueWait e span m).Rests true n r) :
    (n.kernel = (Effect.enqueueWait m.chip.current e span m.kernel).1 ∧
      r = .inl (Effect.enqueueWait m.chip.current e span m.kernel).2) ∨
    (n.kernel = m.kernel ∧ ¬ span.isNegative ∧ ∃ rest, r = .inr rest ∧
      rest.Does m.chip.current (Effect.enqueueLocked e m.chip.current span)) := by
  simp only [enqueueWait, enqueueWaitUndoing] at h
  by_cases hn : span.isNegative
  · rw [if_pos hn] at h
    obtain ⟨rfl, rfl⟩ := Run.rests_done.mp h
    left
    simp only [Effect.enqueueWait]
    rw [if_pos hn]
    exact ⟨rfl, rfl⟩
  · rw [if_neg hn, bind_of_done (tryConsume_apply e m)] at h
    by_cases hr : m.kernel.isRaised e
    · rw [Effect.tryConsume_of_raised _ hr] at h
      obtain ⟨rfl, rfl⟩ := Run.rests_done.mp h
      left
      simp only [Effect.enqueueWait]
      rw [if_neg hn, Effect.tryConsume_of_raised _ hr]
      exact ⟨rfl, rfl⟩
    · rw [Effect.tryConsume_of_clear _ hr] at h
      dsimp only at h
      rw [if_neg Bool.false_ne_true, bind_of_done (currentCore_apply hm)] at h
      right
      obtain ⟨rfl, rfl⟩ := Run.rests_window_pausing.mp h
      exact ⟨rfl, hn, _, rfl, does_unmask _ (does_holding _ (does_enqueueLocked e _ span))⟩

end Call

/-! ## Systems, tasks, and steps -/

/-- The machine, with another core executing. -/
def Machine.on (m : Machine G) (core : CoreId) : Machine G :=
  { m with chip := { m.chip with current := core } }

/-- An operation that has begun and has not yet returned. -/
structure Task (G : Guest) where
  /-- the core it is carried out on -/
  core : CoreId
  /-- what was called -/
  op : Op G
  /-- what is left of it -/
  rest : Call G op.Result

/-- A machine, and the operations in progress. -/
structure System (G : Guest) where
  /-- the machine -/
  machine : Machine G
  /-- the operations in progress -/
  tasks : List (Task G) := []

/-- What a history tells of one segment of an operation. -/
structure Segment (G : Guest) where
  /-- the core it was carried out on -/
  core : CoreId
  /-- what was called -/
  op : Op G
  /-- is it the first segment of the operation? -/
  first : Bool
  /-- the kernel state where it began -/
  before : Kernel G
  /-- the kernel state where it ended -/
  after : Kernel G
  /-- the answer, if the operation has returned -/
  answer : Option op.Result

/-- The core whose running thread the segment put aside. -/
def Segment.parked (seg : Segment G) : Option CoreId := seg.answer.bind (seg.op.parks seg.core)

/-- The task that is left of an operation, if it has not returned. -/
def Task.left (core : CoreId) (op : Op G) : op.Result ⊕ Call G op.Result → List (Task G)
  | .inl _ => []
  | .inr rest => [⟨core, op, rest⟩]

/-- Only the first half of a wait is ever stopped at a window. -/
def Op.MayPause : Op G → Prop
  | enqueueWait .. => True
  | _ => False

namespace System

/-- One segment is carried out, and tells of itself. -/
inductive Step (s : System G) : Segment G → System G → Prop where
  /-- an operation is called on a managed core -/
  | call (core : CoreId) (op : Op G) (pausing : Bool) {m : Machine G}
    {r : op.Result ⊕ Call G op.Result} (managed : s.machine.kernel.manages core = true)
    (valid : op.Valid s.machine.kernel) (mayPause : pausing = true → op.MayPause)
    (rests : (op.call (s.machine.on core)).Rests pausing m r) :
    Step s ⟨core, op, true, s.machine.kernel, m.kernel, r.getLeft?⟩
      ⟨m, Task.left core op r ++ s.tasks⟩
  /-- an operation in progress goes on -/
  | resume (task : Task G) (older newer : List (Task G)) {m : Machine G}
    {r : task.op.Result ⊕ Call G task.op.Result} (tasks : s.tasks = newer ++ task :: older)
    (rests : (task.rest (s.machine.on task.core)).Rests false m r) :
    Step s ⟨task.core, task.op, false, s.machine.kernel, m.kernel, r.getLeft?⟩
      ⟨m, newer ++ Task.left task.core task.op r ++ older⟩

/-- A run from a system, with its history, the latest segment first. -/
inductive Runs (s₀ : System G) : List (Segment G) → System G → Prop where
  /-- nothing has happened -/
  | start : Runs s₀ [] s₀
  /-- one more segment -/
  | step {history : List (Segment G)} {s s' : System G} {seg : Segment G}
    (run : Runs s₀ history s) (next : Step s seg s') : Runs s₀ (seg :: history) s'

end System

/-! ## What a segment can be -/

open Kernel (Leads)

/-- What is left of an operation in progress: one that runs client code stays on a path, and a
wait that was stopped goes on under the lock. -/
inductive Task.Sound : Task G → Prop where
  /-- client code has control -/
  | client {core : CoreId} {op : Op G} {rest : Call G op.Result} (noEffect : op.effect core = none)
    (stays : rest.Stays op.MayMake) : Sound ⟨core, op, rest⟩
  /-- a wait stands at its window -/
  | wait {core : CoreId} {e : EventId} {span : TimeSpan} {rest : Call G (Outcome (Option WaitId))}
    (notNegative : ¬ span.isNegative) (does : rest.Does core (Effect.enqueueLocked e core span)) :
    Sound ⟨core, .enqueueWait e span, rest⟩

/-- **What a segment can be.** -/
inductive Segment.Sound : Segment G → Prop where
  /-- a whole operation, which has its effect -/
  | whole {core : CoreId} {op : Op G} {f : Effect G op.Result} (k : Kernel G)
    (managed : k.manages core = true) (valid : op.Valid k) (effect : op.effect core = some f) :
    Sound ⟨core, op, true, k, (f k).1, some (f k).2⟩
  /-- a segment of an operation that runs client code -/
  | client {core : CoreId} {op : Op G} {first : Bool} {k k' : Kernel G} {answer : Option op.Result}
    (noEffect : op.effect core = none) (path : Kernel.Path op.MayMake k k') :
    Sound ⟨core, op, first, k, k', answer⟩
  /-- a wait that has found the latch clear -/
  | paused (core : CoreId) (e : EventId) (span : TimeSpan) (k : Kernel G) :
    Sound ⟨core, .enqueueWait e span, true, k, k, none⟩
  /-- the rest of such a wait, under the lock -/
  | resumed (core : CoreId) (e : EventId) {span : TimeSpan} (k : Kernel G)
    (notNegative : ¬ span.isNegative) :
    Sound ⟨core, .enqueueWait e span, false, k, (Effect.enqueueLocked e core span k).1,
      some (Effect.enqueueLocked e core span k).2⟩

/-- A segment takes the kernel along a path, with a thread put aside before it or not. -/
theorem Segment.Sound.leads {seg : Segment G} (h : seg.Sound) :
    Leads seg.op.MayMake seg.parked seg.before seg.after := by
  cases h with
  | whole k managed valid effect => exact Op.leads_effect effect valid managed
  | @client core op first k k' answer noEffect path =>
    have hp : answer.bind (op.parks core) = none := by
      cases answer with
      | none => rfl
      | some a => exact (Op.stays_call noEffect).2 a
    simp only [Segment.parked]
    rw [hp]
    exact path
  | paused core e span k => exact Kernel.Path.refl k
  | resumed core e k notNegative =>
    exact Effect.leads_enqueueLocked k e core notNegative (Op.waitAdmitted rfl core)

/-- A segment is a path from the state where it began, or from that state with a thread put aside.
-/
theorem Segment.Sound.exists_path {seg : Segment G} (h : seg.Sound) :
    ∃ k, Kernel.Path seg.op.MayMake k seg.after ∧ (k = seg.before ∨
      ∃ c wake, seg.parked = some c ∧ k = seg.before.setAside c wake) :=
  h.leads.exists_path

/-- What an operation may make is in its scope. -/
theorem Kernel.Path.scoped {op : Op G} {k k' : Kernel G} (h : Kernel.Path op.MayMake k k') :
    Kernel.Path op.scope.Admits k k' :=
  h.mono fun _ hch => hch.1

namespace System

variable {s₀ s s' : System G} {seg : Segment G} {history : List (Segment G)}

/-- A step makes a segment of one of these forms, and leaves tasks of these forms. -/
theorem Step.sound (h : Step s seg s') (hs : ∀ task ∈ s.tasks, task.Sound) :
    seg.Sound ∧ ∀ task ∈ s'.tasks, task.Sound := by
  cases h with
  | @call core op pausing m r managed valid mayPause rests =>
    cases pausing with
    | false =>
      cases hf : op.effect core with
      | some f =>
        -- no client code: the first segment is the whole operation
        obtain ⟨-, hk, rfl⟩ := Op.does_call hf (m := s.machine.on core) rfl rests
        rw [hk]
        exact ⟨.whole _ managed valid hf, hs⟩
      | none =>
        obtain ⟨path, left⟩ := ((Op.stays_call hf).1 (s.machine.on core)).rests rests
        refine ⟨.client hf path, fun task ht => ?_⟩
        cases r with
        | inl a => exact hs task ht
        | inr rest =>
          rcases List.mem_cons.mp ht with rfl | ht
          · exact .client hf (left rest rfl)
          · exact hs task ht
    | true =>
      -- only a wait is ever stopped at a window
      cases op with
      | enqueueWait e span =>
        rcases Call.rests_enqueueWait_pausing managed rests with
          ⟨hk, rfl⟩ | ⟨hk, hn, rest, rfl, does⟩
        · rw [hk]
          exact ⟨.whole _ managed valid rfl, hs⟩
        · rw [hk]
          refine ⟨.paused core e span _, fun task ht => ?_⟩
          rcases List.mem_cons.mp ht with rfl | ht
          · exact .wait hn does
          · exact hs task ht
      | _ => exact (mayPause rfl).elim
  | @resume task older newer m r tasks rests =>
    -- the tasks that are not resumed stay as they are
    have hothers : ∀ other ∈ newer ++ older, other.Sound := by
      intro other ho
      refine hs other ?_
      rw [tasks]
      rw [List.mem_append] at ho
      rw [List.mem_append, List.mem_cons]
      exact ho.imp_right .inr
    have htask : task.Sound := hs task (by simp [tasks])
    cases htask with
    | @client core op rest noEffect stays =>
      obtain ⟨path, left⟩ := (stays (s.machine.on core)).rests rests
      refine ⟨.client noEffect path, fun other ho => ?_⟩
      cases r with
      | inl a => exact hothers other (by simpa [Task.left] using ho)
      | inr rest' =>
        rw [Task.left, List.append_assoc, List.mem_append, List.mem_append,
          List.mem_singleton] at ho
        rcases ho with ho | rfl | ho
        · exact hothers other (List.mem_append_left _ ho)
        · exact .client noEffect (left rest' rfl)
        · exact hothers other (List.mem_append_right _ ho)
    | @wait core e span rest notNegative does =>
      obtain ⟨-, hk, rfl⟩ := does (m := s.machine.on core) rfl rests
      rw [hk]
      refine ⟨.resumed core e _ notNegative, fun other ho => ?_⟩
      exact hothers other (by simpa [Task.left] using ho)

/-- What holds of the tasks that a step begins, and of what is left of those it goes on with, holds
of all tasks after the step. -/
theorem Step.tasks {P : Task G → Prop} (h : Step s seg s') (hs : ∀ task ∈ s.tasks, P task)
    (hcall : ∀ (core : CoreId) (op : Op G) (p : Bool) (m : Machine G) (rest : Call G op.Result),
      (p = true → op.MayPause) → (op.call (s.machine.on core)).Rests p m (.inr rest) →
        P ⟨core, op, rest⟩)
    (hresume : ∀ task, P task → ∀ m rest,
      (task.rest (s.machine.on task.core)).Rests false m (.inr rest) →
        P ⟨task.core, task.op, rest⟩) : ∀ task ∈ s'.tasks, P task := by
  cases h with
  | @call core op pausing m r managed valid mayPause rests =>
    cases r with
    | inl a => exact hs
    | inr rest => exact List.forall_mem_cons.mpr ⟨hcall core op pausing m rest mayPause rests, hs⟩
  | @resume task older newer m r tasks rests =>
    rw [tasks, List.forall_mem_append, List.forall_mem_cons] at hs
    obtain ⟨hnewer, htask, holder⟩ := hs
    rw [List.forall_mem_append, List.forall_mem_append]
    refine ⟨⟨hnewer, ?_⟩, holder⟩
    cases r with
    | inl a => exact fun _ h => (List.not_mem_nil h).elim
    | inr rest => exact List.forall_mem_singleton.mpr (hresume task htask m rest rests)

/-- A segment tells of the kernel state before and after the step. -/
theorem Step.kernels (h : Step s seg s') :
    seg.before = s.machine.kernel ∧ seg.after = s'.machine.kernel := by
  cases h <;> exact ⟨rfl, rfl⟩

/-- Nothing is in progress at the start. -/
theorem forall_tasks_start {m : Machine G} {P : Task G → Prop} :
    ∀ task ∈ (⟨m, []⟩ : System G).tasks, P task :=
  fun _ h => (List.not_mem_nil h).elim

/-- The latest segment of a history has led to the state at its end. -/
theorem Runs.after_eq (run : Runs s₀ (seg :: history) s) : seg.after = s.machine.kernel := by
  cases run with
  | step _ next => exact next.kernels.2

/-- **Every segment of a run is of one of these forms.** -/
theorem Runs.sound (run : Runs s₀ history s) (h₀ : ∀ task ∈ s₀.tasks, task.Sound) :
    (∀ seg ∈ history, seg.Sound) ∧ ∀ task ∈ s.tasks, task.Sound := by
  induction run with
  | start => exact ⟨fun _ h => (List.not_mem_nil h).elim, h₀⟩
  | step run next ih =>
    obtain ⟨hseg, htasks⟩ := next.sound ih.2
    exact ⟨List.forall_mem_cons.mpr ⟨hseg, ih.1⟩, htasks⟩

/-- **Invariants of runs.** What every segment keeps, of those that a run is made of, holds before
and after each segment of the run, and at its end. -/
theorem Runs.keeps {I : Kernel G → Prop} {P : Segment G → Prop} (run : Runs s₀ history s)
    (h₀ : ∀ task ∈ s₀.tasks, task.Sound) (hP : ∀ seg ∈ history, P seg)
    (step : ∀ seg : Segment G, P seg → seg.Sound → I seg.before → I seg.after)
    (hk : I s₀.machine.kernel) :
    I s.machine.kernel ∧ ∀ seg ∈ history, I seg.before ∧ I seg.after := by
  induction run with
  | start => exact ⟨hk, fun _ h => (List.not_mem_nil h).elim⟩
  | @step history s s' seg run next ih =>
    obtain ⟨hs, hall⟩ := ih fun seg hseg => hP seg (List.mem_cons_of_mem _ hseg)
    obtain ⟨hbefore, hafter⟩ := next.kernels
    have hseg : seg.Sound := (next.sound (run.sound h₀).2).1
    have hI : I seg.before := hbefore ▸ hs
    have hI' : I seg.after := step seg (hP seg List.mem_cons_self) hseg hI
    exact ⟨hafter ▸ hI', List.forall_mem_cons.mpr ⟨⟨hI, hI'⟩, hall⟩⟩

end System

/-! ## Booted machines -/

/-- The machine is what a boot leaves. -/
def Machine.Booted (m : Machine G) : Prop :=
  ∃ (hardware : Hardware) (config : Config) (m₀ : Machine G), m₀.kernel = {} ∧
    (Call.boot hardware config m₀).Rests false m (.inl (.ok ()))

/-- Nothing has happened since the boot: threads are ready and nobody owns them, cores have empty
queues, and there are no events. -/
structure Kernel.Fresh (k : Kernel G) : Prop where
  /-- every thread is ready -/
  state : ∀ t < k.threads.length, k.stateOf t = .ready
  /-- nobody owns a thread -/
  owner : ∀ t, k.ownerOf t = none
  /-- the queues are empty -/
  queues : ∀ c, k.queues c = {}
  /-- scheduling has not been started -/
  started : ∀ c, k.isStarted c = false
  /-- there are no events -/
  events : k.events = []

namespace Kernel

variable {k : Kernel G}

theorem Fresh.addThread (hk : k.Fresh) (th : Thread G) (hs : th.state = .ready)
    (ho : th.owner = none) : (k.addThread th).Fresh where
  state t ht := by
    rw [stateOf_addThread]
    split
    · exact hs
    next hne =>
      rw [length_threads_addThread] at ht
      exact hk.state t (Nat.lt_of_le_of_ne (Nat.le_of_lt_succ ht) hne)
  owner t := by
    rw [ownerOf_addThread]
    split
    · exact ho
    · exact hk.owner t
  queues := hk.queues
  started := hk.started
  events := hk.events

theorem Fresh.saveContext (hk : k.Fresh) (t : ThreadId) (context : Context) :
    (k.saveContext t context).Fresh where
  state u hu := by
    rw [stateOf_saveContext]
    exact hk.state u (k.length_threads_updateThread t _ ▸ hu)
  owner u := (k.ownerOf_saveContext t context u).trans (hk.owner u)
  queues := hk.queues
  started := hk.started
  events := hk.events

theorem Fresh.addCore (hk : k.Fresh) (core : Core G) (hq : core.queues = {})
    (hs : core.started = false) : { k with cores := k.cores ++ [core] : Kernel G }.Fresh where
  state := hk.state
  owner := hk.owner
  queues c := by
    have := hk.queues c
    simp only [Kernel.queues] at this ⊢
    rw [getElem?_grown]
    by_cases h : c = k.cores.length
    · rw [if_pos h]
      exact hq
    · rw [if_neg h]
      exact this
  started c := by
    have := hk.started c
    simp only [isStarted] at this ⊢
    rw [getElem?_grown]
    by_cases h : c = k.cores.length
    · rw [if_pos h]
      exact hs
    · rw [if_neg h]
      exact this
  events := hk.events

end Kernel

theorem Call.fresh_of_addCores (description : String) (n : Nat) {m m' : Machine G}
    {r : Unit ⊕ Call G Unit} (hm : m.kernel.Fresh)
    (h : (addCores description n m).Rests false m' r) : m'.kernel.Fresh := by
  induction n generalizing m with
  | zero =>
    obtain ⟨rfl, -⟩ := Run.rests_done.mp h
    exact hm
  | succ n ih =>
    refine ih ?_ h
    exact ((hm.addThread _ rfl rfl).saveContext _ _).addCore _ rfl rfl

/-- Nor does it touch a name. -/
theorem Call.objects_of_addCores (description : String) (n : Nat) {m m' : Machine G}
    {r : Unit ⊕ Call G Unit} (h : (addCores description n m).Rests false m' r) :
    m'.kernel.objects = m.kernel.objects := by
  induction n generalizing m with
  | zero =>
    obtain ⟨rfl, -⟩ := Run.rests_done.mp h
    rfl
  | succ n ih => exact (ih h).trans rfl

/-- A boot that succeeds has added its cores to a kernel with empty tables. -/
theorem Machine.Booted.exists_addCores {m : Machine G} (h : m.Booted) :
    ∃ (config : Config) (slice : TimeSpan) (description : String) (count : Nat)
      (m₁ m₂ : Machine G), m₁.kernel = { config, slice } ∧
      (Call.addCores description count m₁).Rests false m₂ (.inl ()) ∧ m.kernel = m₂.kernel := by
  obtain ⟨hardware, config, m₀, hm₀, h⟩ := h
  simp only [Call.boot] at h
  -- a boot that is refused at one of its three checks does not answer `ok`
  cases hf : hardware.fault with
  | some why =>
    rw [hf] at h
    obtain ⟨-, h⟩ := Run.rests_done.mp h
    cases h
  | none =>
    rw [hf] at h
    change Run.Rests false ((if _ then _ else _ : Call G (Outcome Unit)) _) _ _ at h
    split at h
    · obtain ⟨-, h⟩ := Run.rests_done.mp h
      cases h
    · change Run.Rests false ((if _ then _ else _ : Call G (Outcome Unit)) _) _ _ at h
      split at h
      · obtain ⟨-, h⟩ := Run.rests_done.mp h
        cases h
      · change Run.Rests false ((Call.addCores _ _ _).bind _) _ _ at h
        rcases Run.rests_bind.mp h with ⟨m₁, _, hcores, h⟩ | ⟨rest, -, h⟩
        · obtain ⟨rfl, -⟩ := Run.rests_done.mp h
          refine ⟨config, config.slice.getD hardware.slice, _, _, _, m₁, ?_, hcores, rfl⟩
          simp only [hm₀]
        · cases h

/-- **A booted kernel is at rest.** -/
theorem Machine.Booted.fresh {m : Machine G} (h : m.Booted) : m.kernel.Fresh := by
  obtain ⟨config, slice, description, count, m₁, m₂, hm₁, hcores, hm⟩ := h.exists_addCores
  rw [hm]
  refine Call.fresh_of_addCores description count ?_ hcores
  rw [hm₁]
  refine ⟨fun t ht => ?_, fun t => rfl, fun c => rfl, fun c => rfl, rfl⟩
  cases ht

/-- **A booted kernel has no names.** Its only object that can have one, but for its threads, is
the root. -/
theorem Machine.Booted.objects {m : Machine G} (h : m.Booted) : m.kernel.objects = {} := by
  obtain ⟨config, slice, description, count, m₁, m₂, hm₁, hcores, hm⟩ := h.exists_addCores
  rw [hm, Call.objects_of_addCores description count hcores, hm₁]

end Nucleus
