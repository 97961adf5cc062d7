import Nucleus.Config
import Nucleus.DelayedQueue
import Nucleus.Irq
import Nucleus.Namespace
import Nucleus.WaitQueue

/-!
# The state of the kernel

Threads, events, and wait entries live in grow-only tables and are named by their index; cores are
named by their number. Everything a core's scheduler keeps under its lock is one record,
`RunQueues`. The state, the owner, the context of a thread belong to the thread, not to the queue
it stands in, so that agreement between the two is something to be kept by every operation.

Client code is of two sorts, *routines* that run at interrupt time and *entries* that are thread
bodies. The kernel stores such code and hands it out to be run, and never looks inside it: `Guest`
is the pair of types.

The functions below read and change single tables. They are total: a thread that does not exist
reads as terminated and unowned, a core that does not exist reads as one with empty queues, and
changing either changes nothing.
-/

namespace Nucleus

/-- The types of client code. -/
structure Guest where
  /-- code that runs at interrupt time: handlers and deferred calls -/
  Routine : Type
  /-- thread bodies -/
  Entry : Type

variable {G : Guest}

/-- The body of a thread. -/
inductive ThreadEntry (G : Guest) where
  /-- the body of an idle thread: spin for ever -/
  | idle
  /-- client code -/
  | guest (code : G.Entry)

/-- A thread. -/
structure Thread (G : Guest) where
  /-- a text for people -/
  description : String
  /-- what it runs -/
  entry : ThreadEntry G
  /-- what its body is given -/
  argument : UInt64 := 0
  /-- the context to resume; null until one was built -/
  context : Context := 0
  /-- how it ended -/
  exitCode : ExitCode := 0
  /-- what it is doing -/
  state : ThreadState := .ready
  /-- the core whose scheduler owns it -/
  owner : Option CoreId := none

/-- An interrupt handler. A handler belongs to the core it was made for, wherever it is
installed. -/
inductive Handler (G : Guest) where
  /-- run the deferred calls of a core -/
  | drain (core : CoreId)
  /-- tick the scheduler of a core -/
  | tick (core : CoreId)
  /-- client code of a core -/
  | routine (home : CoreId) (code : G.Routine)

/-- A deferred procedure call. -/
inductive Dpc (G : Guest) where
  /-- have the scheduler of a core pick the next thread -/
  | reschedule (core : CoreId)
  /-- client code of a core -/
  | routine (home : CoreId) (code : G.Routine)

/-- What a scheduler keeps under its lock. -/
structure RunQueues where
  /-- runnable threads in rotation order; the running thread stays among them -/
  ready : List ThreadId := []
  /-- sleeping threads in wake order -/
  delayed : DelayedQueue := []
  /-- threads parked without a deadline -/
  suspended : List ThreadId := []
  /-- the thread that is switched in -/
  running : Option ThreadId := none
  /-- ticks so far -/
  ticks : Nat := 0

/-- A processor: its scheduler and its interrupt dispatcher. -/
structure Core (G : Guest) where
  /-- the thread that runs when nothing else does -/
  idle : ThreadId
  /-- has scheduling been started? -/
  started : Bool := false
  /-- the scheduler's queues -/
  queues : RunQueues := {}
  /-- the handler of the tick -/
  onTick : Option (Handler G) := none
  /-- the handler of the core notification -/
  onNotification : Option (Handler G) := none
  /-- deferred calls, the oldest first -/
  dpcs : List (Dpc G) := []

/-- An event. -/
structure Event where
  /-- does a signal release one waiter only? -/
  autoReset : Bool
  /-- is a signal latched? -/
  raised : Bool := false
  /-- the threads that wait, the oldest first -/
  waiters : WaitQueue := []
  deriving DecidableEq

/-- The state of the kernel. -/
structure Kernel (G : Guest) where
  /-- the boot configuration -/
  config : Config := {}
  /-- the tick period -/
  slice : TimeSpan := .zero
  /-- every thread ever made -/
  threads : List (Thread G) := []
  /-- the managed cores -/
  cores : List (Core G) := []
  /-- every event ever made -/
  events : List Event := []
  /-- every wait entry ever made -/
  waits : List WaitEntry := []
  /-- the names -/
  objects : Namespace := {}

namespace Kernel

/-! ## Threads -/

/-- The state of a thread. -/
def stateOf (k : Kernel G) (t : ThreadId) : ThreadState :=
  match k.threads[t]? with
  | some th => th.state
  | none => .terminated

/-- The core that owns a thread. -/
def ownerOf (k : Kernel G) (t : ThreadId) : Option CoreId := (k.threads[t]?).bind (·.owner)

/-- The saved context of a thread. -/
def contextOf (k : Kernel G) (t : ThreadId) : Context :=
  match k.threads[t]? with
  | some th => th.context
  | none => 0

/-- The description of a thread. -/
def descriptionOf (k : Kernel G) (t : ThreadId) : String :=
  match k.threads[t]? with
  | some th => th.description
  | none => ""

/-- Change a thread. -/
def updateThread (k : Kernel G) (t : ThreadId) (f : Thread G → Thread G) : Kernel G :=
  { k with threads := k.threads.modify t f }

/-- Set the state of a thread. -/
def setState (k : Kernel G) (t : ThreadId) (s : ThreadState) : Kernel G :=
  k.updateThread t fun th => { th with state := s }

/-- Set the owner of a thread. -/
def setOwner (k : Kernel G) (t : ThreadId) (o : Option CoreId) : Kernel G :=
  k.updateThread t fun th => { th with owner := o }

/-- Save a context into a thread. -/
def saveContext (k : Kernel G) (t : ThreadId) (c : Context) : Kernel G :=
  k.updateThread t fun th => { th with context := c }

/-- Set what the body of a thread is given. -/
def setArgument (k : Kernel G) (t : ThreadId) (a : UInt64) : Kernel G :=
  k.updateThread t fun th => { th with argument := a }

/-- Set how a thread ended. -/
def setExitCode (k : Kernel G) (t : ThreadId) (code : ExitCode) : Kernel G :=
  k.updateThread t fun th => { th with exitCode := code }

/-- Make a thread; its name is the length of the table before. -/
def addThread (k : Kernel G) (th : Thread G) : Kernel G := { k with threads := k.threads ++ [th] }

/-! ## Cores -/

/-- Is the core managed? -/
def manages (k : Kernel G) (c : CoreId) : Bool := decide (c < k.cores.length)

/-- The queues of a core. -/
def queues (k : Kernel G) (c : CoreId) : RunQueues :=
  match k.cores[c]? with
  | some core => core.queues
  | none => {}

/-- Change a core. -/
def updateCore (k : Kernel G) (c : CoreId) (f : Core G → Core G) : Kernel G :=
  { k with cores := k.cores.modify c f }

/-- Change the queues of a core. -/
def updateQueues (k : Kernel G) (c : CoreId) (f : RunQueues → RunQueues) : Kernel G :=
  k.updateCore c fun core => { core with queues := f core.queues }

/-- Has scheduling been started on the core? -/
def isStarted (k : Kernel G) (c : CoreId) : Bool :=
  match k.cores[c]? with
  | some core => core.started
  | none => false

/-- The idle thread of a core. -/
def idleOf? (k : Kernel G) (c : CoreId) : Option ThreadId := (k.cores[c]?).map (·.idle)

/-- The handler of a line on a core. -/
def handler? (k : Kernel G) (c : CoreId) (irq : SystemIrq) : Option (Handler G) :=
  (k.cores[c]?).bind fun core =>
    match irq with
    | .systemTick => core.onTick
    | .coreNotification => core.onNotification

/-- Install a handler. -/
def setHandler (k : Kernel G) (c : CoreId) (irq : SystemIrq) (h : Handler G) : Kernel G :=
  k.updateCore c fun core =>
    match irq with
    | .systemTick => { core with onTick := some h }
    | .coreNotification => { core with onNotification := some h }

/-- The deferred calls of a core. -/
def dpcs (k : Kernel G) (c : CoreId) : List (Dpc G) :=
  match k.cores[c]? with
  | some core => core.dpcs
  | none => []

/-- Change the deferred calls of a core. -/
def setDpcs (k : Kernel G) (c : CoreId) (ds : List (Dpc G)) : Kernel G :=
  k.updateCore c fun core => { core with dpcs := ds }

/-! ## Events and wait entries -/

/-- Is a signal latched in the event? -/
def isRaised (k : Kernel G) (e : EventId) : Bool :=
  match k.events[e]? with
  | some ev => ev.raised
  | none => false

/-- Does a signal of the event release one waiter only? -/
def isAutoReset (k : Kernel G) (e : EventId) : Bool :=
  match k.events[e]? with
  | some ev => ev.autoReset
  | none => false

/-- The waiters of an event. -/
def waitersOf (k : Kernel G) (e : EventId) : WaitQueue :=
  match k.events[e]? with
  | some ev => ev.waiters
  | none => []

/-- Change an event. -/
def updateEvent (k : Kernel G) (e : EventId) (f : Event → Event) : Kernel G :=
  { k with events := k.events.modify e f }

/-- Latch or clear the signal of an event. -/
def setRaised (k : Kernel G) (e : EventId) (b : Bool) : Kernel G :=
  k.updateEvent e fun ev => { ev with raised := b }

/-- Set the waiters of an event. -/
def setWaiters (k : Kernel G) (e : EventId) (q : WaitQueue) : Kernel G :=
  k.updateEvent e fun ev => { ev with waiters := q }

/-- Make an event; its name is the length of the table before. -/
def addEvent (k : Kernel G) (ev : Event) : Kernel G := { k with events := k.events ++ [ev] }

/-- Has the entry been handed a wakeup? -/
def isSignaled (k : Kernel G) (w : WaitId) : Bool :=
  match k.waits[w]? with
  | some entry => entry.signaled
  | none => false

/-- Change a wait entry. -/
def updateWait (k : Kernel G) (w : WaitId) (f : WaitEntry → WaitEntry) : Kernel G :=
  { k with waits := k.waits.modify w f }

/-- Make a wait entry; its name is the length of the table before. -/
def addWait (k : Kernel G) (entry : WaitEntry) : Kernel G := { k with waits := k.waits ++ [entry] }

/-! ## What a change of one table leaves alone -/

variable (k : Kernel G)

@[simp] theorem cores_updateThread (t : ThreadId) (f : Thread G → Thread G) :
    (k.updateThread t f).cores = k.cores := rfl

@[simp] theorem events_updateThread (t : ThreadId) (f : Thread G → Thread G) :
    (k.updateThread t f).events = k.events := rfl

@[simp] theorem waits_updateThread (t : ThreadId) (f : Thread G → Thread G) :
    (k.updateThread t f).waits = k.waits := rfl

@[simp] theorem objects_updateThread (t : ThreadId) (f : Thread G → Thread G) :
    (k.updateThread t f).objects = k.objects := rfl

@[simp] theorem threads_updateCore (c : CoreId) (f : Core G → Core G) :
    (k.updateCore c f).threads = k.threads := rfl

@[simp] theorem events_updateCore (c : CoreId) (f : Core G → Core G) :
    (k.updateCore c f).events = k.events := rfl

@[simp] theorem waits_updateCore (c : CoreId) (f : Core G → Core G) :
    (k.updateCore c f).waits = k.waits := rfl

@[simp] theorem objects_updateCore (c : CoreId) (f : Core G → Core G) :
    (k.updateCore c f).objects = k.objects := rfl

@[simp] theorem threads_updateEvent (e : EventId) (f : Event → Event) :
    (k.updateEvent e f).threads = k.threads := rfl

@[simp] theorem cores_updateEvent (e : EventId) (f : Event → Event) :
    (k.updateEvent e f).cores = k.cores := rfl

@[simp] theorem waits_updateEvent (e : EventId) (f : Event → Event) :
    (k.updateEvent e f).waits = k.waits := rfl

@[simp] theorem threads_updateWait (w : WaitId) (f : WaitEntry → WaitEntry) :
    (k.updateWait w f).threads = k.threads := rfl

@[simp] theorem cores_updateWait (w : WaitId) (f : WaitEntry → WaitEntry) :
    (k.updateWait w f).cores = k.cores := rfl

@[simp] theorem events_updateWait (w : WaitId) (f : WaitEntry → WaitEntry) :
    (k.updateWait w f).events = k.events := rfl

/-! ## What a change of one table shows -/

/-- A changed thread is found changed, every other as it was. -/
theorem getElem?_threads_updateThread (t u : ThreadId) (f : Thread G → Thread G) :
    (k.updateThread t f).threads[u]? =
      if t = u then (k.threads[u]?).map f else k.threads[u]? := by
  simp only [updateThread, List.getElem?_modify]
  split <;> simp

/-- A changed core is found changed, every other as it was. -/
theorem getElem?_cores_updateCore (c d : CoreId) (f : Core G → Core G) :
    (k.updateCore c f).cores[d]? =
      if c = d then (k.cores[d]?).map f else k.cores[d]? := by
  simp only [updateCore, List.getElem?_modify]
  split <;> simp

/-- No core appears and none goes away. -/
@[simp] theorem manages_updateCore (c d : CoreId) (f : Core G → Core G) :
    (k.updateCore c f).manages d = k.manages d := by
  simp [manages, updateCore]

/-- Queues are changed on their own core only. -/
theorem queues_updateQueues (c d : CoreId) (f : RunQueues → RunQueues) (h : k.manages c = true) :
    (k.updateQueues c f).queues d = if c = d then f (k.queues d) else k.queues d := by
  simp only [manages, decide_eq_true_eq] at h
  simp only [queues, updateQueues, getElem?_cores_updateCore]
  by_cases hcd : c = d
  · subst hcd
    simp [List.getElem?_eq_getElem h]
  · simp [hcd]

/-- A thread that exists has the state that was set. -/
theorem stateOf_setState (t u : ThreadId) (s : ThreadState) (h : t < k.threads.length) :
    (k.setState t s).stateOf u = if t = u then s else k.stateOf u := by
  simp only [stateOf, setState, getElem?_threads_updateThread]
  by_cases htu : t = u
  · subst htu
    simp [List.getElem?_eq_getElem h]
  · simp [htu]

/-- A thread that exists has the owner that was set. -/
theorem ownerOf_setOwner (t u : ThreadId) (o : Option CoreId) (h : t < k.threads.length) :
    (k.setOwner t o).ownerOf u = if t = u then o else k.ownerOf u := by
  simp only [ownerOf, setOwner, getElem?_threads_updateThread]
  by_cases htu : t = u
  · subst htu
    simp [List.getElem?_eq_getElem h]
  · simp [htu]

/-- Setting a state does not change an owner. -/
@[simp] theorem ownerOf_setState (t u : ThreadId) (s : ThreadState) :
    (k.setState t s).ownerOf u = k.ownerOf u := by
  simp only [ownerOf, setState, getElem?_threads_updateThread]
  by_cases htu : t = u
  · subst htu
    cases h : k.threads[t]? <;> simp
  · simp [htu]

/-- Setting an owner does not change a state. -/
@[simp] theorem stateOf_setOwner (t u : ThreadId) (o : Option CoreId) :
    (k.setOwner t o).stateOf u = k.stateOf u := by
  simp only [stateOf, setOwner, getElem?_threads_updateThread]
  by_cases htu : t = u
  · subst htu
    cases h : k.threads[t]? <;> simp
  · simp [htu]

end Kernel

end Nucleus
