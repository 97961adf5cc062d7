import Nucleus.Naming
import Nucleus.Scenario.Answer
import Nucleus.Scenario.Describe

/-!
# The world of a scenario

The machine, and the tables through which steps refer to what earlier steps made. A slot of a
table is empty if the step that would have filled it did not succeed.

`Play` is the monad of the interpreter: it changes the world, and it stops when a step is passed
over or when the machine has stopped. Stopping keeps the world as it is. Looking at the machine
here is free: it makes no chip call and opens no window.
-/

namespace Nucleus.Scenario

/-- An accessor that a step got hold of. -/
structure Handle where
  /-- the accessor -/
  accessor : Accessor
  /-- is the kind of its object forgotten? -/
  erased : Bool := false

/-- The machine and the tables of a scenario. -/
structure World where
  /-- the machine -/
  machine : Machine guest := {}
  /-- the scripts that thread bodies may run -/
  scripts : List (List Step) := []
  /-- the threads that steps made -/
  threads : List ThreadId := []
  /-- the events that steps made -/
  events : List (Option EventId) := []
  /-- the bare objects that steps made -/
  bares : List ObjectId := []
  /-- the handles that steps got hold of -/
  handles : List (Option Handle) := []
  /-- the wait entries that steps queued -/
  waits : List (Option WaitId) := []
  /-- the handlers that steps replaced -/
  previous : List (Option (Handler guest)) := []
  /-- the context that each core carries -/
  carried : List Context := []
  /-- the objects in the order in which answers showed them first -/
  shown : List ObjectId := [Namespace.root]
  /-- what nested scripts and programs showed during the present step, the latest first -/
  seen : List Seen := []
  /-- what comes in between at the next masking of interrupts -/
  race : Option (List Step) := none

/-- Why the interpreter stops. -/
inductive Stop where
  /-- the step is passed over -/
  | skip (why : Skip)
  /-- the machine has stopped -/
  | halt (why : Halt)

/-- The monad of the interpreter. -/
abbrev Play (α : Type) : Type := EStateM Stop World α

/-! ## Views -/

/-- A thread as it is shown. -/
def threadRow (k : Kernel guest) (t : ThreadId) : ThreadRow :=
  match k.threads[t]? with
  | some th => ⟨ThreadId.number t, th.state, th.owner, th.context, th.argument, th.exitCode⟩
  | none => ⟨ThreadId.number t, .terminated, none, 0, 0, 0⟩

/-- A core as it is shown; `known` are the threads whose wake ticks can be looked up. -/
def coreView (known : List ThreadId) (c : Core guest) : CoreView where
  ticks := c.queues.ticks
  running := c.queues.running.map ThreadId.number
  ready := c.queues.ready.map ThreadId.number
  delayed := c.queues.delayed.map fun s =>
    (ThreadId.number s.thread,
      if known.contains s.thread then c.queues.delayed.wakeTickOf s.thread else none)
  suspended := c.queues.suspended.map ThreadId.number
  dpcs := c.dpcs.length
  started := c.started

/-- The machine as it is shown. -/
def World.view (w : World) : StateView :=
  let k := w.machine.kernel
  let known := k.cores.map (·.idle) ++ w.threads
  { cores := k.cores.map (coreView known)
    threads := known.map (threadRow k)
    events := w.events.map fun slot => slot.map fun e => (k.isRaised e, (k.waitersOf e).length)
    waits := w.waits.map fun slot =>
      slot.bind fun i => (k.waits[i]?).map fun entry =>
        (ThreadId.number entry.thread, entry.signaled)
    interrupts := w.machine.chip.interrupts
    notifications := w.machine.chip.notifications
    timer := w.machine.chip.timer }

/-! ## Reading the world -/

/-- Pass the step over. -/
def skip {α : Type} (why : Skip) : Play α := throw (.skip why)

/-- The kernel state. -/
def kernel : Play (Kernel guest) := return (← get).machine.kernel

/-- What is in a slot. -/
def slot {α : Type} (table : List (Option α)) (n : Nat) (why : Skip) : Play α :=
  match table[n]? with
  | some (some a) => return a
  | _ => skip why

/-- The thread that a reference means. -/
def threadOf : ThreadRef → Play ThreadId
  | .made n => do
    match (← get).threads[n]? with
    | some t => return t
    | none => skip .noThread
  | .idle c => do
    match (← kernel).idleOf? c with
    | some t => return t
    | none => skip .noThread
  | .running => do
    match ((← kernel).queues (← get).machine.chip.current).running with
    | some t => return t
    | none => skip .noThread

/-- The event that a number means. -/
def eventOf (n : Nat) : Play EventId := do slot (← get).events n .noEvent

/-- The handle that a number means. -/
def handleOf (n : Nat) : Play Handle := do slot (← get).handles n .noHandle

/-- The wait entry that a number means. -/
def waitOf (n : Nat) : Play WaitId := do slot (← get).waits n .noEntry

/-- The replaced handler that a number means. -/
def previousOf (n : Nat) : Play (Handler guest) := do slot (← get).previous n .noHandler

/-- The object that a reference means. -/
def objectOf : ObjectRef → Play ObjectId
  | .root => return Namespace.root
  | .thread t => return .thread (← threadOf t)
  | .event n => return .event (← eventOf n)
  | .bare n => do
    match (← get).bares[n]? with
    | some x => return x
    | none => skip .noObject
  | .handle n => return (← handleOf n).accessor.object

/-- Is the kind of the object known where it is referred to? A handle may have forgotten it. -/
def kindKnown : ObjectRef → Play Bool
  | .handle n => return !(← handleOf n).erased
  | _ => return true

/-- The object to be given a name: its kind has to be known. -/
def nameableOf (r : ObjectRef) : Play ObjectId := do
  let x ← objectOf r
  if ← kindKnown r then return x else skip .typeErased

/-- The directory that a reference means: it has to be known to be one. -/
def directoryOf (r : ObjectRef) : Play DirectoryId := do
  let x ← objectOf r
  match ← kindKnown r, x with
  | true, .directory d => return d
  | _, _ => skip .notDirectory

/-- The directory to create or open under. -/
def parentOf : Option Nat → Play Parent
  | none => return Namespace.rootParent
  | some n => do
    let h ← handleOf n
    match h.erased, h.accessor.object with
    | false, .directory d => return ⟨d, h.accessor.granted⟩
    | _, _ => skip .notDirectoryHandle

/-- The core that an optional number means. -/
def coreOf (core : Option CoreId) : Play CoreId := do
  let c := core.getD (← get).machine.chip.current
  if (← kernel).manages c then return c else skip .noCore

/-- The interrupt line that a number means. -/
def irqOf (n : Nat) : Play SystemIrq :=
  match SystemIrq.ofNat? n with
  | some irq => return irq
  | none => skip .noSuchIrq

/-- The context to pass to a core: the one given, or the one that the core carries. -/
def contextOf (c : CoreId) : Option Context → Play Context
  | some x => return x
  | none => return ((← get).carried[c]?).getD 0

/-! ## Changing the world -/

/-- Have a core carry a context. -/
def carry (c : CoreId) (x : Context) : Play Unit :=
  modify fun w => { w with carried := w.carried.set c x }

/-- Show something beside the answer. -/
def exhibit (s : Seen) : Play Unit := modify fun w => { w with seen := s :: w.seen }

/-- The number by which answers show an object. -/
def numberOf (x : ObjectId) : Play Nat := do
  match (← get).shown.idxOf? x with
  | some n => return n
  | none =>
    let n := (← get).shown.length
    modify fun w => { w with shown := w.shown ++ [x] }
    return n

/-- An object as it is shown. -/
def viewObject (x : ObjectId) : Play ObjectView :=
  return ⟨← numberOf x, x.kind, (← kernel).objects.nameOf x⟩

/-- A handle as it is shown. -/
def viewHandle (h : Handle) : Play Answer :=
  return .handle (← viewObject h.accessor.object) h.accessor.granted

/-- Append a slot to the handles. -/
def keepHandle (h : Option Handle) : Play Unit :=
  modify fun w => { w with handles := w.handles ++ [h] }

/-- Append a slot to the events. -/
def keepEvent (e : Option EventId) : Play Unit :=
  modify fun w => { w with events := w.events ++ [e] }

/-- Append a slot to the wait entries. -/
def keepWait (i : Option WaitId) : Play Unit :=
  modify fun w => { w with waits := w.waits ++ [i] }

/-- Append a slot to the replaced handlers. -/
def keepPrevious (h : Option (Handler guest)) : Play Unit :=
  modify fun w => { w with previous := w.previous ++ [h] }

end Nucleus.Scenario
