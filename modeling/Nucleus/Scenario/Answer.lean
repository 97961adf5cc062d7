import Nucleus.Interrupt
import Nucleus.Scenario.Step

/-!
# Answers and observations

What a step answers, and what an observer of a scenario can see of the machine. All of it is plain
data in the order in which it is to be shown; threads are shown by number.
-/

namespace Nucleus.Scenario

/-- A thread as it is shown. -/
structure ThreadRow where
  /-- its number -/
  number : Nat
  /-- what it is doing -/
  state : ThreadState
  /-- who owns it -/
  owner : Option CoreId
  /-- its saved context -/
  context : Context
  /-- its argument -/
  argument : UInt64
  /-- how it ended -/
  exitCode : ExitCode

/-- A core as it is shown. -/
structure CoreView where
  /-- ticks so far -/
  ticks : Nat
  /-- the running thread -/
  running : Option Nat
  /-- the ready threads -/
  ready : List Nat
  /-- the sleeping threads with their wake ticks, as far as these can be looked up -/
  delayed : List (Nat × Option Nat)
  /-- the parked threads -/
  suspended : List Nat
  /-- the number of deferred calls -/
  dpcs : Nat
  /-- has scheduling been started? -/
  started : Bool

/-- The machine as it is shown. -/
structure StateView where
  /-- the cores -/
  cores : List CoreView
  /-- idle threads by core, then the threads that steps made -/
  threads : List ThreadRow
  /-- events: latched, and how many wait -/
  events : List (Option (Bool × Nat))
  /-- wait entries: whose, and signaled -/
  waits : List (Option (Nat × Bool))
  /-- the interrupt flag -/
  interrupts : Bool
  /-- notifications so far -/
  notifications : Nat
  /-- the armed tick period -/
  timer : Option TimeSpan

/-- An object as it is shown; objects are numbered as they first appear in an answer. -/
structure ObjectView where
  /-- its number -/
  number : Nat
  /-- its kind -/
  kind : ObjectKind
  /-- its name -/
  name : String

/-- What a step answers. -/
inductive Answer where
  /-- nothing -/
  | unit
  /-- done -/
  | ok
  /-- yes or no -/
  | truth (b : Bool)
  /-- a count -/
  | count (n : Nat)
  /-- a context -/
  | context (c : Context)
  /-- a text -/
  | text (s : String)
  /-- the operation was refused -/
  | refused (why : KernelError)
  /-- the step was passed over -/
  | skipped (why : Skip)
  /-- what became of an interrupt -/
  | dispatched (d : Dispatch)
  /-- the whole state -/
  | state (s : StateView)
  /-- the configuration -/
  | info (count : Nat) (current : CoreId) (slice : TimeSpan) (idle : String) (config : Config)
      (nextMissing : Bool)
  /-- a thread -/
  | thread (row : ThreadRow)
  /-- a thread with its description -/
  | threadInfo (row : ThreadRow) (description : String)
  /-- a new event -/
  | newEvent (raised autoReset : Bool) (valid : AccessMask)
  /-- an event -/
  | eventState (raised autoReset : Bool) (waiters : Nat)
  /-- the wait is queued -/
  | queued
  /-- the wait took a signal -/
  | taken
  /-- an object -/
  | object (o : ObjectView)
  /-- a handle -/
  | handle (o : ObjectView) (granted : AccessMask)
  /-- where a path leads -/
  | parsed (o : ObjectView) (access : AccessState)
  /-- the link of an object -/
  | header (name : String) (attached : Bool) (parent : Option ObjectView) (valid : AccessMask)
      (kind : ObjectKind) (parses : Bool)
  /-- the names in a directory -/
  | names (names : List String)
  /-- an object in words -/
  | description (link : String) (thread : Option String) (dpc : String)

/-- What a nested script or a program shows. -/
inductive Seen where
  /-- the answer of a nested step -/
  | answer (a : Answer)
  /-- a mark and the context it was left with -/
  | mark (label : Label) (context : Context)

/-- What an observer sees of one step. -/
structure Report where
  /-- the answer, or why there is none -/
  result : Except Halt Answer
  /-- what nested scripts and programs showed -/
  seen : List Seen
  /-- the log of this step -/
  log : List Notice
  /-- the journal of this step -/
  journal : List (Act Lock)
  /-- the machine afterwards -/
  state : StateView

/-- The journal as an observer of the chip sees it; locks are none of the chip's business. -/
def chipCall : Act Lock → Option String
  | .bringUp => some "I"
  | .context c => some ("C" ++ toString c.toNat)
  | .mask was => some (if was then "D1" else "D0")
  | .restore saved => some (if saved then "R1" else "R0")
  | .timer slice => some ("T" ++ toString slice.nanos)
  | .notify => some "N"
  | .acquire _ => none
  | .release _ => none

end Nucleus.Scenario
