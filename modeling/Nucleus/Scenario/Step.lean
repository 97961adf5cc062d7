import Nucleus.Kernel

/-!
# Scripts of a scenario

A scenario is a script of steps on one kernel. A step is one kernel operation, or a look at the
state, with references to what earlier steps made: threads, events, objects, handles, wait
entries, and replaced handlers are numbered in the order in which steps made them.

Scripts are also the client code of a scenario. A *program* is what a handler or a deferred call
runs, a list of instructions over the context that it is given; an *entry* is a thread body.
-/

namespace Nucleus.Scenario

/-- A thread by reference. -/
inductive ThreadRef where
  /-- the `n`-th thread that steps made -/
  | made (n : Nat)
  /-- the idle thread of a core -/
  | idle (core : CoreId)
  /-- the running thread of the executing core -/
  | running

/-- An object by reference. -/
inductive ObjectRef where
  /-- the root directory -/
  | root
  /-- a thread -/
  | thread (t : ThreadRef)
  /-- the `n`-th event -/
  | event (n : Nat)
  /-- the `n`-th bare object -/
  | bare (n : Nat)
  /-- the object of the `n`-th handle -/
  | handle (n : Nat)

/-- The thread bodies of a scenario. -/
inductive Entry where
  /-- do nothing, with success -/
  | noop
  /-- fail with the error that the argument numbers -/
  | fail
  /-- run the script that the argument numbers -/
  | script
  /-- make and start a thread that does nothing, with the same argument -/
  | spawn
  deriving DecidableEq

/-- A mark that a program leaves: any text that its author chose. -/
abbrev Label : Type := String

/-- Why a step was passed over. -/
inductive Skip where
  /-- no such thread -/
  | noThread
  /-- no such event -/
  | noEvent
  /-- no such bare object -/
  | noObject
  /-- no such handle -/
  | noHandle
  /-- no such wait entry -/
  | noEntry
  /-- no such replaced handler -/
  | noHandler
  /-- the core is not managed -/
  | noCore
  /-- no such interrupt line -/
  | noSuchIrq
  /-- a parent has to be a handle that is known to be of a directory -/
  | notDirectoryHandle
  /-- the object is not a directory -/
  | notDirectory
  /-- no path continues through the object -/
  | notParseable
  /-- the handle's kind is forgotten -/
  | typeErased
  /-- the body of an idle thread does not end -/
  | idleNeverReturns
  /-- a field is missing or of another form -/
  | badField
  /-- a span of another form -/
  | badSpan
  /-- a mask of another form -/
  | badMask
  /-- no such thread body -/
  | noSuchEntry
  /-- no such kind of object -/
  | noSuchType
  /-- no such step -/
  | noSuchStep
  deriving DecidableEq

/-- The text of a reason. -/
def Skip.message : Skip → String
  | noThread => "no thread"
  | noEvent => "no event"
  | noObject => "no object"
  | noHandle => "no handle"
  | noEntry => "no entry"
  | noHandler => "no handler"
  | noCore => "no core"
  | noSuchIrq => "no such irq"
  | notDirectoryHandle => "not a directory handle"
  | notDirectory => "not a directory"
  | notParseable => "not parseable"
  | typeErased => "type erased"
  | idleNeverReturns => "the idle entry never returns"
  | badField => "bad field"
  | badSpan => "bad span"
  | badMask => "bad mask"
  | noSuchEntry => "no such entry"
  | noSuchType => "no such type"
  | noSuchStep => "no such step"

mutual

/-- A step of a script. An absent core is the executing one, an absent context the one that the
core carries, an absent parent the root. -/
inductive Step where
  /-- go to another processor -/
  | setCore (core : CoreId)
  /-- set the interrupt flag by hand -/
  | setInterrupts (on : Bool)
  /-- look at the whole state -/
  | state
  /-- play steps several times -/
  | again (times : Nat) (steps : List Step)
  /-- look at the configuration -/
  | info
  /-- make a thread with a context -/
  | create (entry : Entry) (description : String)
  /-- make a thread without a context -/
  | detached (entry : Entry) (description : String)
  /-- look at a thread -/
  | thread (t : ThreadRef)
  /-- start a thread on the executing core -/
  | start (t : ThreadRef) (argument : UInt64)
  /-- bring a thread into a core's rotation -/
  | schedStart (t : ThreadRef) (core : Option CoreId)
  /-- run a thread's body and end the thread -/
  | run (t : ThreadRef)
  /-- end a thread -/
  | exit (t : ThreadRef) (code : ExitCode)
  /-- end the running thread -/
  | exitCurrent (code : ExitCode)
  /-- take a thread out of a core's queues -/
  | kill (t : ThreadRef) (core : Option CoreId)
  /-- wake a thread by way of its owner -/
  | undelay (t : ThreadRef)
  /-- wake a thread on a core -/
  | schedUndelay (t : ThreadRef) (core : Option CoreId)
  /-- take ownership of a thread for any core number -/
  | claim (t : ThreadRef) (core : CoreId)
  /-- give up ownership of a thread for any core number -/
  | disown (t : ThreadRef) (core : CoreId)
  /-- put the running thread aside -/
  | delay (span : TimeSpan)
  /-- put the running thread of a core aside -/
  | schedDelay (span : TimeSpan) (core : Option CoreId)
  /-- start scheduling on a core -/
  | bootstrap (core : Option CoreId)
  /-- start scheduling on the executing core, for good -/
  | startKernel
  /-- an interrupt on the executing core -/
  | dispatch (irq : Nat) (context : Option Context)
  /-- an interrupt on a core -/
  | coreDispatch (irq : Nat) (context : Option Context) (core : Option CoreId)
  /-- a trap -/
  | trap (irq : Nat) (context : Option Context)
  /-- give the processor away -/
  | yieldThread (core : Option CoreId) (context : Option Context)
  /-- tick a scheduler -/
  | onTick (core : Option CoreId) (context : Option Context)
  /-- queue a deferred call on the executing core -/
  | dpc (program : List Instr)
  /-- queue a deferred call on a core -/
  | coreDpc (program : List Instr) (core : Option CoreId)
  /-- count the deferred calls of a core -/
  | pending (core : Option CoreId)
  /-- install a handler -/
  | registerIrq (irq : Nat) (program : List Instr) (core : Option CoreId)
  /-- call a replaced handler -/
  | callPrevious (p : Nat) (context : Context)
  /-- install a replaced handler again -/
  | reinstall (p : Nat) (irq : Nat) (core : Option CoreId)
  /-- make an event -/
  | event (autoReset : Bool)
  /-- make an event with a name -/
  | eventCreate (name : String) (autoReset : Bool) (parent : Option Nat)
  /-- signal an event -/
  | set (e : Nat)
  /-- clear an event -/
  | reset (e : Nat)
  /-- look at an event -/
  | eventState (e : Nat)
  /-- wait for an event, both halves at once -/
  | wait (e : Nat) (span : TimeSpan)
  /-- the first half of a wait -/
  | enqueue (e : Nat) (span : TimeSpan)
  /-- the second half of a wait -/
  | complete (e : Nat) (w : Nat)
  /-- a handle of the root -/
  | root
  /-- make a directory with a name -/
  | makeDirectory (name : String) (parent : Option Nat)
  /-- make a directory without a name -/
  | newDirectory
  /-- make a device without a name -/
  | newDevice (valid : AccessMask) (inner : Option ObjectRef)
  /-- give an object a name -/
  | publish (object : ObjectRef) (name : String) (parent : Option Nat)
  /-- open an object -/
  | openObject (kind : ObjectKind) (path : String) (want : AccessMask) (parent : Option Nat)
  /-- open an object, if it is there -/
  | tryOpen (kind : ObjectKind) (path : String) (want : AccessMask) (parent : Option Nat)
  /-- open an object from any object -/
  | openFrom (start : ObjectRef) (kind : ObjectKind) (path : String) (want : AccessMask)
  /-- follow a path from an object -/
  | parse (start : ObjectRef) (path : String) (want : AccessMask)
  /-- take rights away -/
  | narrow (h : Nat) (mask : AccessMask)
  /-- forget the kind of a handle -/
  | upcast (h : Nat)
  /-- ask for a kind -/
  | cast (h : Nat) (kind : ObjectKind)
  /-- ask for rights -/
  | check (h : Nat) (required : AccessMask)
  /-- look at a handle -/
  | handle (h : Nat)
  /-- the path of an object -/
  | fullPath (object : ObjectRef)
  /-- look at the link of an object -/
  | header (object : ObjectRef)
  /-- the names in a directory -/
  | names (object : ObjectRef)
  /-- a child of a directory -/
  | lookup (object : ObjectRef) (name : String)
  /-- describe a wait entry -/
  | describeWait (w : Nat)
  /-- describe a handle -/
  | describeHandle (h : Nat)
  /-- describe an object -/
  | describeObject (object : ObjectRef)
  /-- not a step -/
  | malformed (why : Skip)

/-- An instruction of a program, over the context that it carries. -/
inductive Instr where
  /-- replace the context -/
  | put (n : UInt64)
  /-- add to the context -/
  | add (n : UInt64)
  /-- multiply the context -/
  | mul (n : UInt64)
  /-- leave a mark with the context -/
  | see (label : Label)
  /-- queue a deferred call on the program's core -/
  | dpc (program : List Instr)
  /-- play a step -/
  | play (step : Step)

end

/-- What a handler or a deferred call runs. -/
abbrev Program : Type := List Instr

/-- The client code of a scenario. -/
def guest : Guest := ⟨Program, Entry⟩

end Nucleus.Scenario
